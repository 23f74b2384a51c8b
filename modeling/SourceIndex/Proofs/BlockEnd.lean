import SourceIndex.Code.Block
import Mathlib.Data.Nat.Find
import Mathlib.Order.Bounds.Basic

/-!
# Where a block ends

The scan for the end of a block keeps a depth for each kind of bracket and whether any was opened. Both
can be read off the lines that it has passed: a depth is the number of brackets opened less the number
closed (`depth_feed`). So a block ends with the first line up to which its lines are complete: brackets
were opened, and of no kind more than were closed, or none was opened and the last line ends a
statement. Lines above and below a block that ends in this way do not matter.
-/

namespace SourceIndex

/-! ## Brackets in lines of code -/

/-- A kind of bracket. -/
inductive Bracket where
  | brace
  | paren
  | square
  deriving DecidableEq, Repr

namespace Bracket

theorem forall_iff {p : Bracket → Prop} : (∀ k, p k) ↔ p brace ∧ p paren ∧ p square := by
  constructor
  · intro h
    exact ⟨h brace, h paren, h square⟩
  · rintro ⟨hbrace, hparen, hsquare⟩ k
    cases k with
    | brace => exact hbrace
    | paren => exact hparen
    | square => exact hsquare

theorem exists_iff {p : Bracket → Prop} : (∃ k, p k) ↔ p brace ∨ p paren ∨ p square := by
  constructor
  · rintro ⟨k, hk⟩
    cases k with
    | brace => exact .inl hk
    | paren => exact .inr (.inl hk)
    | square => exact .inr (.inr hk)
  · rintro (h | h | h)
    · exact ⟨brace, h⟩
    · exact ⟨paren, h⟩
    · exact ⟨square, h⟩

instance (p : Bracket → Prop) [DecidablePred p] : Decidable (∀ k, p k) :=
  decidable_of_iff' _ forall_iff

instance (p : Bracket → Prop) [DecidablePred p] : Decidable (∃ k, p k) :=
  decidable_of_iff' _ exists_iff

/-- The character that opens a bracket. -/
def opening : Bracket → Char
  | brace => '{'
  | paren => '('
  | square => '['

/-- The character that closes a bracket. -/
def closing : Bracket → Char
  | brace => '}'
  | paren => ')'
  | square => ']'

end Bracket

/-- The code of lines: what they have besides literals and comments. -/
def codeOf (lines : List Text) : Text :=
  lines.flatMap withoutLiterals

/-- The number of brackets of a kind that lines open. -/
def opened (lines : List Text) (k : Bracket) : Nat :=
  (codeOf lines).count k.opening

/-- The number of brackets of a kind that lines close. -/
def closed (lines : List Text) (k : Bracket) : Nat :=
  (codeOf lines).count k.closing

/-- Lines are complete: they open brackets, and of no kind more than they close, or they open none and
the last of them ends a statement. -/
def IsComplete (lines : List Text) : Prop :=
  ((∃ k, 0 < opened lines k) ∧ ∀ k, opened lines k ≤ closed lines k) ∨
    (∀ k, opened lines k = 0) ∧
      lines.getLast?.any (fun line => endsStatement (withoutLiterals line)) = true

instance (lines : List Text) : Decidable (IsComplete lines) :=
  inferInstanceAs (Decidable (_ ∨ _))

namespace BracketDepth

/-- The depth in one kind of bracket. -/
def depth (d : BracketDepth) : Bracket → Int
  | .brace => d.brace
  | .paren => d.paren
  | .square => d.bracket

theorem closed_iff {d : BracketDepth} :
    d.closed = true ↔ d.started = true ∧ ∀ k, d.depth k ≤ 0 := by
  rw [Bracket.forall_iff]
  simp [closed, depth, and_assoc]

theorem depth_step (d : BracketDepth) (c : Char) (k : Bracket) :
    (d.step c).depth k =
      d.depth k + (if c = k.opening then 1 else 0) - (if c = k.closing then 1 else 0) := by
  simp only [step, beq_iff_eq]
  split_ifs <;> cases k <;> simp_all [depth, Bracket.opening, Bracket.closing]

theorem started_step (d : BracketDepth) (c : Char) :
    (d.step c).started = true ↔ d.started = true ∨ ∃ k : Bracket, c = k.opening := by
  simp only [step, beq_iff_eq, Bracket.exists_iff, Bracket.opening]
  split_ifs <;> simp_all

/-- A text changes a depth by the number of brackets that it opens less the number that it closes. -/
theorem depth_feed (d : BracketDepth) (s : Text) (k : Bracket) :
    (d.feed s).depth k = d.depth k + s.count k.opening - s.count k.closing := by
  induction s generalizing d with
  | nil => simp [feed]
  | cons c s ih =>
    have hfeed : d.feed (c :: s) = (d.step c).feed s := rfl
    rw [hfeed, ih, depth_step, List.count_cons, List.count_cons]
    simp only [beq_iff_eq]
    split_ifs <;> omega

/-- A bracket was opened if one was before or if the text opens one. -/
theorem started_feed (d : BracketDepth) (s : Text) :
    (d.feed s).started = true ↔ d.started = true ∨ ∃ k : Bracket, 0 < s.count k.opening := by
  induction s generalizing d with
  | nil => simp [feed]
  | cons c s ih =>
    have hfeed : d.feed (c :: s) = (d.step c).feed s := rfl
    have hcount : ∀ k : Bracket,
        0 < (c :: s).count k.opening ↔ c = k.opening ∨ 0 < s.count k.opening := by
      intro k
      rw [List.count_pos_iff, List.mem_cons, List.count_pos_iff, eq_comm]
    simp only [hfeed, ih, started_step, hcount, exists_or, or_assoc]

end BracketDepth

/-! ## The scan for the end of a block -/

/-- The depth after lines. -/
def depthAfter (lines : List Text) : BracketDepth :=
  BracketDepth.feed {} (codeOf lines)

theorem feed_depthAfter (seen : List Text) (line : Text) :
    (depthAfter seen).feed (withoutLiterals line) = depthAfter (seen ++ [line]) := by
  simp [depthAfter, codeOf, BracketDepth.feed]

theorem depth_depthAfter (lines : List Text) (k : Bracket) :
    (depthAfter lines).depth k = (opened lines k : Int) - closed lines k := by
  have hzero : BracketDepth.depth {} k = 0 := by cases k <;> rfl
  rw [depthAfter, BracketDepth.depth_feed, hzero, Int.zero_add]
  rfl

theorem started_depthAfter (lines : List Text) :
    (depthAfter lines).started = true ↔ ∃ k, 0 < opened lines k := by
  rw [depthAfter, BracketDepth.started_feed]
  simp [opened]

/-- The scan stops at a line exactly if the lines up to it are complete. -/
theorem stops_iff (seen : List Text) (line : Text) :
    (depthAfter (seen ++ [line])).closed = true ∨
        (!(depthAfter (seen ++ [line])).started && endsStatement (withoutLiterals line)) = true ↔
      IsComplete (seen ++ [line]) := by
  have hnone : (depthAfter (seen ++ [line])).started = false ↔
      ∀ k, opened (seen ++ [line]) k = 0 := by
    rw [← Bool.not_eq_true, started_depthAfter, not_exists]
    simp only [Nat.pos_iff_ne_zero, not_not]
  have hdepth : (∀ k, (depthAfter (seen ++ [line])).depth k ≤ 0) ↔
      ∀ k, opened (seen ++ [line]) k ≤ closed (seen ++ [line]) k :=
    forall_congr' fun k => by
      rw [depth_depthAfter]
      omega
  rw [BracketDepth.closed_iff, started_depthAfter, hdepth, Bool.and_eq_true,
    Bool.not_eq_eq_eq_not, Bool.not_true, hnone, IsComplete, List.getLast?_append]
  rfl

theorem reachFrom?_cons (seen : List Text) (line : Text) (rest : List Text) :
    reachFrom? (depthAfter seen) (line :: rest) =
      if IsComplete (seen ++ [line]) then some 0
      else (reachFrom? (depthAfter (seen ++ [line])) rest).map (· + 1) := by
  rw [reachFrom?, feed_depthAfter]
  simp only [← stops_iff]
  split_ifs <;> simp_all

/-- A block whose first lines have been passed ends with the first line up to which it is complete. -/
theorem reachFrom?_eq_some_iff (seen : List Text) {lines : List Text} {n : Nat} :
    reachFrom? (depthAfter seen) lines = some n ↔
      n < lines.length ∧ IsComplete (seen ++ lines.take (n + 1)) ∧
        ∀ m < n, ¬ IsComplete (seen ++ lines.take (m + 1)) := by
  induction lines generalizing seen n with
  | nil => simp [reachFrom?]
  | cons line rest ih =>
    have hsplit : ∀ m, seen ++ (line :: rest).take (m + 1) = seen ++ [line] ++ rest.take m := by
      simp
    rw [reachFrom?_cons]
    simp only [hsplit]
    split_ifs with hcomplete
    · -- the first line is the first up to which the lines are complete
      constructor
      · rintro ⟨⟩
        exact ⟨Nat.succ_pos _, by simpa using hcomplete, fun m hm => absurd hm (Nat.not_lt_zero m)⟩
      · rintro ⟨-, -, hleast⟩
        rcases Nat.eq_zero_or_pos n with rfl | hn
        · rfl
        · exact absurd (by simpa using hcomplete) (hleast 0 hn)
    · cases n with
      | zero => simpa using hcomplete
      | succ n =>
        -- the first line is passed, so the search goes on below it
        have hfirst : ¬ IsComplete (seen ++ [line] ++ rest.take 0) := by simpa using hcomplete
        rw [Option.map_eq_some_iff, Nat.forall_lt_succ_left]
        simp only [Nat.add_right_cancel_iff, exists_eq_right, ih, hfirst, not_false_eq_true,
          true_and, List.length_cons, Nat.add_lt_add_iff_right]

/-- A scan that finds no end has passed no line up to which the block is complete. -/
theorem not_isComplete_of_reachFrom?_eq_none (seen : List Text) {lines : List Text}
    (h : reachFrom? (depthAfter seen) lines = none) {n : Nat} (hn : n < lines.length) :
    ¬ IsComplete (seen ++ lines.take (n + 1)) := by
  intro hcomplete
  have hexists : ∃ n, n < lines.length ∧ IsComplete (seen ++ lines.take (n + 1)) :=
    ⟨n, hn, hcomplete⟩
  obtain ⟨hlt, hends⟩ := Nat.find_spec hexists
  have hsome : reachFrom? (depthAfter seen) lines = some (Nat.find hexists) :=
    (reachFrom?_eq_some_iff seen).mpr ⟨hlt, hends, fun m hm hearlier =>
      Nat.find_min hexists hm ⟨hm.trans hlt, hearlier⟩⟩
  rw [h] at hsome
  cases hsome

/-! ## The end of a block -/

/-- The lines from one line to another, both included. -/
def linesFromTo (lines : List Text) (first last : Nat) : List Text :=
  (lines.drop first).take (last + 1 - first)

/-- Line `i` is one up to which the block that starts at line `start` is complete. -/
def CompletesAt (lines : List Text) (start i : Nat) : Prop :=
  start ≤ i ∧ i < lines.length ∧ IsComplete (linesFromTo lines start i)

instance (lines : List Text) (start i : Nat) : Decidable (CompletesAt lines start i) :=
  inferInstanceAs (Decidable (_ ∧ _))

theorem completesAt_iff {lines : List Text} {start i : Nat} :
    CompletesAt lines start i ↔ ∃ n, i = start + n ∧ n < (lines.drop start).length ∧
      IsComplete ((lines.drop start).take (n + 1)) := by
  rw [List.length_drop]
  constructor
  · rintro ⟨hle, hlt, hcomplete⟩
    refine ⟨i - start, by omega, by omega, ?_⟩
    rwa [linesFromTo, Nat.sub_add_comm hle] at hcomplete
  · rintro ⟨n, rfl, hlt, hcomplete⟩
    refine ⟨by omega, by omega, ?_⟩
    rwa [linesFromTo, Nat.add_assoc, Nat.add_sub_cancel_left]

/-- A scan from the first line of a block on that finds an end finds the least line up to which the
block is complete. -/
theorem isLeast_of_reachFrom? {lines : List Text} {start n : Nat}
    (h : reachFrom? {} (lines.drop start) = some n) :
    blockEnd lines start = start + n ∧ IsLeast {i | CompletesAt lines start i} (start + n) := by
  obtain ⟨hlt, hcomplete, hleast⟩ := (reachFrom?_eq_some_iff []).mp h
  refine ⟨by rw [blockEnd, blockReach, h, Option.getD_some],
    completesAt_iff.mpr ⟨n, rfl, hlt, hcomplete⟩, fun i hi => ?_⟩
  obtain ⟨m, rfl, -, hearlier⟩ := completesAt_iff.mp hi
  by_contra hlt
  exact hleast m (by omega) hearlier

/-- A block that is complete up to no line runs to the last line. -/
theorem of_reachFrom?_eq_none {lines : List Text} {start : Nat}
    (h : reachFrom? {} (lines.drop start) = none) :
    blockEnd lines start = max start (lines.length - 1) ∧ ∀ i, ¬ CompletesAt lines start i := by
  constructor
  · rw [blockEnd, blockReach, h, Option.getD_none, List.length_drop]
    omega
  · intro i hi
    obtain ⟨n, -, hlt, hcomplete⟩ := completesAt_iff.mp hi
    exact not_isComplete_of_reachFrom?_eq_none [] h hlt hcomplete

/-- A scan that finds an end does so whatever lines follow. -/
theorem reachFrom?_take_append {lines : List Text} {n : Nat} (h : reachFrom? {} lines = some n)
    (behind : List Text) : reachFrom? {} (lines.take (n + 1) ++ behind) = some n := by
  obtain ⟨hlt, hcomplete, hleast⟩ := (reachFrom?_eq_some_iff []).mp h
  have hlength : (lines.take (n + 1)).length = n + 1 := by
    rw [List.length_take]
    omega
  have htake : ∀ m ≤ n, (lines.take (n + 1) ++ behind).take (m + 1) = lines.take (m + 1) := by
    intro m hm
    rw [List.take_append_of_le_length (by omega), List.take_take, Nat.min_eq_left (by omega)]
  refine (reachFrom?_eq_some_iff []).mpr ⟨?_, ?_, fun m hm => ?_⟩
  · rw [List.length_append]
    omega
  · rwa [htake n (Nat.le_refl n)]
  · rw [htake m (Nat.le_of_lt hm)]
    exact hleast m hm

/-- The scan of a block that is complete up to its end finds this end. -/
theorem reachFrom?_of_completesAt {lines : List Text} {start : Nat}
    (h : CompletesAt lines start (blockEnd lines start)) :
    reachFrom? {} (lines.drop start) = some (blockEnd lines start - start) := by
  cases hreach : reachFrom? {} (lines.drop start) with
  | none => exact absurd h ((of_reachFrom?_eq_none hreach).2 _)
  | some n => rw [(isLeast_of_reachFrom? hreach).1, Nat.add_sub_cancel_left]

/-- A block that ends because it is complete does so whatever lines stand above and below. -/
theorem blockEnd_surrounded {lines : List Text} {start : Nat}
    (h : CompletesAt lines start (blockEnd lines start)) (before behind : List Text) :
    blockEnd (before ++ linesFromTo lines start (blockEnd lines start) ++ behind) before.length =
      before.length + (blockEnd lines start - start) := by
  have hlines : linesFromTo lines start (blockEnd lines start) =
      (lines.drop start).take (blockEnd lines start - start + 1) := by
    rw [linesFromTo, Nat.sub_add_comm h.1]
  have hreach := reachFrom?_take_append (reachFrom?_of_completesAt h) behind
  rw [← hlines] at hreach
  rw [List.append_assoc, blockEnd, List.drop_left, blockReach, hreach, Option.getD_some]

/-- The block that starts at a line ends with the least line up to which it is complete: brackets were
opened and of no kind more than were closed, or none was opened and the line ends a statement. If there
is no such line, the block runs to the last line. So it ends at its first line or below, within the
text, and a block that is complete ends where it does whatever lines stand above and below it. -/
theorem blockEnd_least (lines : List Text) (start : Nat) :
    ((∃ i, CompletesAt lines start i) →
      IsLeast {i | CompletesAt lines start i} (blockEnd lines start)) ∧
    ((¬ ∃ i, CompletesAt lines start i) →
      blockEnd lines start = max start (lines.length - 1)) ∧
    start ≤ blockEnd lines start ∧
    (start < lines.length → blockEnd lines start < lines.length) ∧
    (CompletesAt lines start (blockEnd lines start) → ∀ before behind,
      blockEnd (before ++ linesFromTo lines start (blockEnd lines start) ++ behind) before.length =
        before.length + (blockEnd lines start - start)) := by
  cases hreach : reachFrom? {} (lines.drop start) with
  | none =>
    obtain ⟨hend, hnone⟩ := of_reachFrom?_eq_none hreach
    refine ⟨fun ⟨i, hi⟩ => absurd hi (hnone i), fun _ => hend, Nat.le_add_right start _, ?_,
      blockEnd_surrounded⟩
    intro hlt
    omega
  | some n =>
    obtain ⟨hend, hleast⟩ := isLeast_of_reachFrom? hreach
    rw [← hend] at hleast
    obtain ⟨-, hlt, -⟩ := hleast.1
    exact ⟨fun _ => hleast, fun hnone => absurd ⟨_, hleast.1⟩ hnone, Nat.le_add_right start _,
      fun _ => hlt, blockEnd_surrounded⟩

/-- A function below a statement: its brace stays open over the line with the list, and the brackets in
the literal and in the comment do not count. The brace below it opens nothing, so it is complete up to
no line. -/
theorem blockEnd_least_of_function :
    let lines : List Text := ["let a = '(';".toList, "function f() \x7b // \x7b".toList,
      "  return [1];".toList, "\x7d".toList, "\x7d".toList]
    CompletesAt lines 1 3 ∧ ¬ CompletesAt lines 1 2 ∧ blockEnd lines 1 = 3 ∧
      IsLeast {i | CompletesAt lines 1 i} 3 ∧
      (∀ before behind, blockEnd (before ++ linesFromTo lines 1 3 ++ behind) before.length =
        before.length + 2) ∧
      (¬ ∃ i, CompletesAt lines 4 i) ∧ blockEnd lines 4 = max 4 (lines.length - 1) ∧
      4 < lines.length ∧ blockEnd lines 4 < lines.length := by
  intro lines
  have hends : CompletesAt lines 1 3 := by decide +kernel
  have hend : blockEnd lines 1 = 3 := by decide +kernel
  obtain ⟨hleast, -, -, -, hsurrounded⟩ := blockEnd_least lines 1
  rw [hend] at hleast hsurrounded
  have hlt : 4 < lines.length := Nat.lt_succ_self 4
  have hnever : ¬ ∃ i, CompletesAt lines 4 i := by
    rintro ⟨i, hstart, hlast, hcomplete⟩
    obtain rfl : i = 4 := Nat.le_antisymm (Nat.le_of_lt_succ hlast) hstart
    revert hcomplete
    decide +kernel
  obtain ⟨-, hlast, -, hinside, -⟩ := blockEnd_least lines 4
  exact ⟨hends, by decide +kernel, hend, hleast ⟨3, hends⟩, hsurrounded hends, hnever, hlast hnever,
    hlt, hinside hlt⟩

end SourceIndex
