import SourceIndex.Proofs.Delta
import SourceIndex.Proofs.JsonString
import Mathlib.Algebra.Group.Nat.Defs

/-!
# Fingerprints see single edits

Every step of the hash can be undone: the factor has an inverse among the words, and mixing in a code
point twice takes it out again. So texts that differ in what stands before a common end have one
fingerprint only if the fronts have one, and texts that differ in one character never have. A file in
which one character was replaced is always found to be updated.
-/

namespace SourceIndex

/-! ## Steps of the hash -/

/-- Multiplication by the factor of the hash can be undone. -/
theorem mul_prime_inj {h k : UInt32} : h * 0x01000193 = k * 0x01000193 ↔ h = k := by
  refine ⟨fun heq => ?_, fun heq => by rw [heq]⟩
  have hunit : (0x01000193 : UInt32) * 0x359c449b = 1 := by decide
  have hcancel := congrArg (· * 0x359c449b) heq
  simpa only [UInt32.mul_assoc, hunit, UInt32.mul_one] using hcancel

/-- A step tells the hash before it. -/
theorem mixChar_left_inj {h k : UInt32} {c : Char} : mixChar h c = mixChar k c ↔ h = k := by
  rw [mixChar, mixChar, mul_prime_inj]
  exact UInt32.xor_left_inj _

/-- A step tells the character that was mixed in. -/
theorem mixChar_right_inj {h : UInt32} {c d : Char} : mixChar h c = mixChar h d ↔ c = d := by
  rw [mixChar, mixChar, mul_prime_inj, UInt32.xor_right_inj]
  exact Char.val_inj

/-- The hash of a text tells the hash that it went on from. -/
theorem hashFrom_inj {h k : UInt32} (s : Text) : hashFrom h s = hashFrom k s ↔ h = k := by
  induction s generalizing h k with
  | nil => rfl
  | cons c s ih => exact ih.trans mixChar_left_inj

theorem hashFrom_append (h : UInt32) (s t : Text) :
    hashFrom h (s ++ t) = hashFrom (hashFrom h s) t :=
  List.foldl_append

/-! ## Hexadecimal digits -/

theorem digitChar_inj {m n : Nat} (hm : m < 16) (hn : n < 16)
    (h : Nat.digitChar m = Nat.digitChar n) : m = n := by
  have hvalue := congrArg Json.hexValue? h
  rwa [Json.hexValue?_digitChar m hm, Json.hexValue?_digitChar n hn, Option.some.injEq] at hvalue

namespace Text

/-- The digits of a number are the one of the highest place and those of the lower places. -/
theorem hex_succ (places n : Nat) :
    hex (places + 1) n = Nat.digitChar (n / 16 ^ places % 16) :: hex places n := by
  rw [hex, List.range_succ, List.reverse_concat]
  rfl

/-- Digits tell a number up to what lies above their places. -/
theorem mod_eq_of_hex_eq {places m n : Nat} (h : hex places m = hex places n) :
    m % 16 ^ places = n % 16 ^ places := by
  induction places with
  | zero => rw [Nat.pow_zero, Nat.mod_one, Nat.mod_one]
  | succ places ih =>
    rw [hex_succ, hex_succ] at h
    obtain ⟨hdigit, hlower⟩ := List.cons.inj h
    have hplace := digitChar_inj (Nat.mod_lt _ (by decide)) (Nat.mod_lt _ (by decide)) hdigit
    rw [Nat.mod_pow_succ, Nat.mod_pow_succ, ih hlower, hplace]

end Text

/-! ## Fingerprints -/

/-- Texts with one fingerprint have one hash. -/
theorem fingerprint_eq_iff {s t : Text} : fingerprint s = fingerprint t ↔ hash32 s = hash32 t := by
  refine ⟨fun h => ?_, fun h => by rw [fingerprint, fingerprint, h]⟩
  have hmod := Text.mod_eq_of_hex_eq h
  have hlt : ∀ s, (hash32 s).toNat < 16 ^ 8 := fun s => (hash32 s).toNat_lt
  rw [Nat.mod_eq_of_lt (hlt s), Nat.mod_eq_of_lt (hlt t)] at hmod
  exact UInt32.toNat_inj.mp hmod

/-- A common end does not change whether texts have one fingerprint. -/
theorem fingerprint_append_eq_iff (a b s : Text) :
    fingerprint (a ++ s) = fingerprint (b ++ s) ↔ fingerprint a = fingerprint b := by
  rw [fingerprint_eq_iff, fingerprint_eq_iff, hash32, hash32, hashFrom_append, hashFrom_append]
  exact hashFrom_inj s

/-- Texts that differ in one character have different fingerprints. -/
theorem fingerprint_replace_eq_iff (p s : Text) {c d : Char} :
    fingerprint (p ++ c :: s) = fingerprint (p ++ d :: s) ↔ c = d := by
  rw [fingerprint_eq_iff, hash32, hash32, hashFrom_append, hashFrom_append]
  exact (hashFrom_inj s).trans mixChar_right_inj

namespace Delta

variable {previous current : OrderedMap Text Text} {path old hash : Text}

/-- A path that has another fingerprint than before was updated, and nothing else became of it. -/
theorem mem_updated_of_ne (hold : previous.get? path = some old)
    (hnew : current.get? path = some hash) (hne : old ≠ hash) :
    path ∈ (between previous current).updated ∧ path ∉ (between previous current).added ∧
      path ∉ (between previous current).unchanged ∧ path ∉ (between previous current).removed := by
  have hentry : (path, hash) ∈ current.entries := OrderedMap.get?_eq_some_iff.mp hnew
  have hchange : change previous path hash = .updated := by
    simp only [change, hold, if_neg hne]
  refine ⟨(mem_pathsWith_iff hentry).mpr hchange, fun h => ?_, fun h => ?_, fun h => ?_⟩
  · rw [(mem_pathsWith_iff hentry).mp h] at hchange
    cases hchange
  · rw [(mem_pathsWith_iff hentry).mp h] at hchange
    cases hchange
  · have hgone := (List.mem_filter.mp h).2
    rw [OrderedMap.contains, hnew] at hgone
    cases hgone

end Delta

/-- Single edits are always seen. Texts with a common end have one fingerprint exactly if the texts
before it have one. Replacing one character by another one changes the fingerprint, so a path whose
content was edited in this way was updated, and nothing else became of it. -/
theorem edit_updates (p s : Text) {c d : Char} (hcd : c ≠ d) :
    (∀ a b t : Text, fingerprint (a ++ t) = fingerprint (b ++ t) ↔ fingerprint a = fingerprint b) ∧
    fingerprint (p ++ c :: s) ≠ fingerprint (p ++ d :: s) ∧
    ∀ (previous current : OrderedMap Text Text) (path : Text),
      previous.get? path = some (fingerprint (p ++ c :: s)) →
      current.get? path = some (fingerprint (p ++ d :: s)) →
      let delta := Delta.between previous current
      path ∈ delta.updated ∧ path ∉ delta.added ∧ path ∉ delta.unchanged ∧ path ∉ delta.removed := by
  have hne : fingerprint (p ++ c :: s) ≠ fingerprint (p ++ d :: s) :=
    fun h => hcd ((fingerprint_replace_eq_iff p s).mp h)
  exact ⟨fingerprint_append_eq_iff, hne,
    fun _ _ _ hold hnew => Delta.mem_updated_of_ne hold hnew hne⟩

/-- A digit of a script was replaced. -/
theorem edit_updates_of_digit :
    let file (content : String) : List ProjectEntry :=
      [{ path := "a.ts".toList, content := content.toList }]
    let previous := Project.fingerprints (file "let x = 1;")
    let current := Project.fingerprints (file "let x = 2;")
    '1' ≠ '2' ∧ fingerprint "let x = 1;".toList ≠ fingerprint "let x = 2;".toList ∧
      "a.ts".toList ∈ (Delta.between previous current).updated := by
  intro file previous current
  have hcd : '1' ≠ '2' := by decide
  obtain ⟨-, hne, hupdated⟩ := edit_updates "let x = ".toList ";".toList hcd
  refine ⟨hcd, hne, ?_⟩
  exact (hupdated previous current "a.ts".toList (by decide +kernel) (by decide +kernel)).1

end SourceIndex
