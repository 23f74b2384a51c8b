import SourceIndex.Text.Pattern

/-!
# What scans find

Every find of a scan is one of the pattern at some place of the text. A pattern whose finds are what
it read loses nothing: the characters passed over and the finds are the text again. A text that the
pattern reads wherever it stands is found there, so it does not stand inside a part of a split.
-/

namespace SourceIndex

namespace Pattern

/-- The finds of a pattern are the texts that it reads, and none is empty. -/
def Reads (p : Pattern Text) : Prop :=
  ∀ s a rest, p s = some (a, rest) → a ≠ [] ∧ a ++ rest = s

section Finds

variable {α : Type} {p : Pattern α} {a : α}

/-- The first find is one of the pattern. -/
theorem exists_of_find?_eq_some {s : Text} (h : p.find? s = some a) :
    ∃ t rest, p t = some (a, rest) := by
  induction s with
  | nil => cases h
  | cons c s ih =>
    rw [find?] at h
    split at h
    · rename_i b rest hfound
      cases h
      exact ⟨c :: s, rest, hfound⟩
    · exact ih h

/-- Every find of a scan is one of the pattern. -/
theorem exists_of_mem_piecesFrom {skip : Nat} {s : Text} (h : .found a ∈ p.piecesFrom skip s) :
    ∃ t rest, p t = some (a, rest) := by
  fun_induction piecesFrom p skip s with
  | case1 => cases h
  | case2 skip c s ih => exact ih h
  | case3 c s b rest hfound ih =>
    rcases List.mem_cons.mp h with heq | h
    · cases heq
      exact ⟨c :: s, rest, hfound⟩
    · exact ih h
  | case4 c s hnone ih =>
    rcases List.mem_cons.mp h with heq | h
    · cases heq
    · exact ih h

/-- Every part of a split text ends in a find of the pattern. -/
theorem exists_of_mem_splitAfter {s : Text} {part : Text × α} (h : part ∈ (p.splitAfter s).1) :
    ∃ t rest, p t = some (part.2, rest) := by
  suffices hpieces : .found part.2 ∈ p.pieces s from exists_of_mem_piecesFrom hpieces
  revert h
  unfold splitAfter
  induction p.pieces s generalizing part with
  | nil => exact fun h => absurd h List.not_mem_nil
  | cons piece rest ih =>
    intro h
    rw [List.foldr_cons] at h
    generalize List.foldr _ _ rest = split at h ih
    obtain ⟨parts, last⟩ := split
    cases piece with
    | found b =>
      rcases List.mem_cons.mp h with rfl | h
      · exact List.mem_cons_self
      · exact List.mem_cons_of_mem _ (ih h)
    | passed c =>
      cases parts with
      | nil => cases h
      | cons first more =>
        -- the character joins the first part, which keeps its find
        have hfirst : .found first.2 ∈ rest := ih List.mem_cons_self
        rcases List.mem_cons.mp h with rfl | h
        · exact List.mem_cons_of_mem _ hfirst
        · exact List.mem_cons_of_mem _ (ih (List.mem_cons_of_mem _ h))

end Finds

/-! ## Scans find by find -/

/-- Every find takes something of the text that it stands at, and what is left is its end. -/
def Consumes {α : Type} (p : Pattern α) : Prop :=
  ∀ s a rest, p s = some (a, rest) → ∃ read, read ≠ [] ∧ read ++ rest = s

theorem Reads.consumes {p : Pattern Text} (hp : p.Reads) : p.Consumes :=
  fun s a rest h => ⟨a, hp s a rest h⟩

/-- What holds of the empty text, passes from what is left behind a find to the text, and passes over
a character at which the pattern fails holds of every text. -/
theorem scan_induction {α : Type} {p : Pattern α} (hp : p.Consumes) {motive : Text → Prop}
    (nil : motive [])
    (found : ∀ s a rest, p s = some (a, rest) → motive rest → motive s)
    (passed : ∀ c s, p (c :: s) = none → motive s → motive (c :: s)) (s : Text) : motive s := by
  induction hlength : s.length using Nat.strongRecOn generalizing s with
  | ind n ih =>
    cases hread : p s with
    | some find =>
      obtain ⟨a, rest⟩ := find
      refine found s a rest hread (ih rest.length ?_ rest rfl)
      obtain ⟨read, hne, rfl⟩ := hp s a rest hread
      have hpos := List.length_pos_iff.mpr hne
      rw [List.length_append] at hlength
      omega
    | none =>
      cases s with
      | nil => exact nil
      | cons c s =>
        refine passed c s hread (ih s.length ?_ s rfl)
        rw [List.length_cons] at hlength
        omega

/-- A scan that skips characters is the scan of the text behind them. -/
theorem piecesFrom_eq_pieces_drop {α : Type} (p : Pattern α) (skip : Nat) (s : Text) :
    p.piecesFrom skip s = p.pieces (s.drop skip) := by
  induction s generalizing skip with
  | nil => cases skip <;> rfl
  | cons c s ih =>
    cases skip with
    | zero => rfl
    | succ skip =>
      rw [piecesFrom]
      exact ih skip

/-- A find at the start is a step of the scan, which goes on behind it. -/
theorem pieces_of_some {α : Type} {p : Pattern α} {c : Char} {s rest : Text} {a : α}
    (h : p (c :: s) = some (a, rest)) (hrest : rest <:+ s) :
    p.pieces (c :: s) = .found a :: p.pieces rest := by
  obtain ⟨more, rfl⟩ := hrest
  rw [pieces, piecesFrom, h]
  show .found a :: p.piecesFrom ((more ++ rest).length - rest.length) (more ++ rest) = _
  rw [piecesFrom_eq_pieces_drop, List.length_append, Nat.add_sub_cancel, List.drop_left]

/-- A character at which the pattern fails is a step of the scan. -/
theorem pieces_of_none {α : Type} {p : Pattern α} {c : Char} {s : Text} (h : p (c :: s) = none) :
    p.pieces (c :: s) = .passed c :: p.pieces s := by
  rw [pieces, piecesFrom, h]
  rfl

/-- A text at no place of which the pattern finds anything is passed character by character. -/
theorem pieces_append_of_none {α : Type} {p : Pattern α} {s t : Text}
    (h : ∀ w, w <:+ s → w ≠ [] → p (w ++ t) = none) :
    p.pieces (s ++ t) = s.map .passed ++ p.pieces t := by
  induction s with
  | nil => rfl
  | cons c s ih =>
    have hnone : p (c :: (s ++ t)) = none :=
      h (c :: s) (List.suffix_refl _) (List.cons_ne_nil c s)
    rw [List.cons_append, pieces_of_none hnone,
      ih fun w hw => h w (hw.trans (List.suffix_cons c s))]
    rfl

/-- A pattern whose finds start with one character finds nothing in a text without it, whatever
follows. -/
theorem none_of_not_mem {α : Type} {p : Pattern α} {c : Char}
    (hp : ∀ d, d ≠ c → ∀ t, p (d :: t) = none) {s : Text} (h : c ∉ s) (t : Text) :
    ∀ w, w <:+ s → w ≠ [] → p (w ++ t) = none := by
  intro w hw hne
  obtain ⟨d, w, rfl⟩ := List.exists_cons_of_ne_nil hne
  exact hp d (fun heq => h (heq ▸ hw.subset List.mem_cons_self)) (w ++ t)

/-- Behind a find at the start the scan goes on with what is left. -/
theorem pieces_of_find {α : Type} {p : Pattern α} (hp : p.Consumes) {s rest : Text} {a : α}
    (h : p s = some (a, rest)) : p.pieces s = .found a :: p.pieces rest := by
  obtain ⟨read, hne, rfl⟩ := hp s a rest h
  obtain ⟨c, more, rfl⟩ := List.exists_cons_of_ne_nil hne
  exact pieces_of_some h (List.suffix_append more rest)

/-! ## Collecting -/

/-- A find at the start is the first one, and the others are those behind it. -/
theorem findAll_of_some {α : Type} {p : Pattern α} {c : Char} {s rest : Text} {a : α}
    (h : p (c :: s) = some (a, rest)) (hrest : rest <:+ s) :
    p.findAll (c :: s) = a :: p.findAll rest := by
  rw [findAll, pieces_of_some h hrest]
  rfl

/-- A character at which the pattern fails does not matter to the finds. -/
theorem findAll_of_none {α : Type} {p : Pattern α} {c : Char} {s : Text} (h : p (c :: s) = none) :
    p.findAll (c :: s) = p.findAll s := by
  rw [findAll, pieces_of_none h]
  rfl

/-- A text at no place of which the pattern finds anything is passed over. -/
theorem findAll_append_of_none {α : Type} {p : Pattern α} {s t : Text}
    (h : ∀ w, w <:+ s → w ≠ [] → p (w ++ t) = none) : p.findAll (s ++ t) = p.findAll t := by
  rw [findAll, pieces_append_of_none h, List.filterMap_append, List.filterMap_eq_nil_iff.mpr,
    List.nil_append, findAll]
  intro piece hpiece
  obtain ⟨c, -, rfl⟩ := List.mem_map.mp hpiece
  rfl

/-- A find at the start is the first one, and the others are those in the rest. -/
theorem findAll_of_find {α : Type} {p : Pattern α} (hp : p.Consumes) {s rest : Text} {a : α}
    (h : p s = some (a, rest)) : p.findAll s = a :: p.findAll rest := by
  rw [findAll, pieces_of_find hp h]
  rfl

/-! ## Occurrences -/

/-- A pattern occurs in a text if it finds something at the start or occurs behind the first
character. -/
theorem occursIn_cons {α : Type} (p : Pattern α) (c : Char) (s : Text) :
    p.occursIn (c :: s) = ((p (c :: s)).isSome || p.occursIn s) := by
  rw [occursIn, find?]
  cases p (c :: s) <;> rfl

/-- A pattern that finds something at the start occurs. -/
theorem occursIn_of_find {α : Type} {p : Pattern α} (hp : p.Consumes) {s rest : Text} {a : α}
    (h : p s = some (a, rest)) : p.occursIn s = true := by
  obtain ⟨read, hne, rfl⟩ := hp s a rest h
  obtain ⟨c, more, rfl⟩ := List.exists_cons_of_ne_nil hne
  rw [List.cons_append] at h ⊢
  rw [occursIn_cons, h]
  rfl

/-- A pattern occurs in a text if it finds something at some place of the text. -/
theorem occursIn_iff_exists_suffix {α : Type} {p : Pattern α} {s : Text} :
    p.occursIn s = true ↔ ∃ t, t <:+ s ∧ t ≠ [] ∧ (p t).isSome = true := by
  induction s with
  | nil => exact iff_of_false Bool.noConfusion fun ⟨t, ht, hne, _⟩ => hne (List.suffix_nil.mp ht)
  | cons c s ih =>
    rw [occursIn_cons, Bool.or_eq_true, ih]
    constructor
    · rintro (h | ⟨t, ht, hne, h⟩)
      · exact ⟨c :: s, List.suffix_refl _, List.cons_ne_nil c s, h⟩
      · exact ⟨t, ht.trans (List.suffix_cons c s), hne, h⟩
    · rintro ⟨t, ht, hne, h⟩
      rcases List.suffix_cons_iff.mp ht with rfl | ht
      · exact .inl h
      · exact .inr ⟨t, ht, hne, h⟩

/-- A pattern occurs in a text if a scan of the text finds something. -/
theorem occursIn_iff_findAll_ne_nil {α : Type} {p : Pattern α} {s : Text} :
    p.occursIn s = true ↔ p.findAll s ≠ [] := by
  induction s with
  | nil => simp [occursIn, find?, findAll, pieces, piecesFrom]
  | cons c s ih =>
    cases hread : p (c :: s) with
    | some find => simp [occursIn_cons, hread, findAll, pieces, piecesFrom]
    | none => rw [occursIn_cons, hread, findAll_of_none hread, ← ih]; rfl

/-- A text at no place of which the pattern finds anything does not matter to whether it occurs. -/
theorem occursIn_append_of_none {α : Type} {p : Pattern α} {s t : Text}
    (h : ∀ w, w <:+ s → w ≠ [] → p (w ++ t) = none) : p.occursIn (s ++ t) = p.occursIn t := by
  rw [Bool.eq_iff_iff, occursIn_iff_findAll_ne_nil, occursIn_iff_findAll_ne_nil,
    findAll_append_of_none h]

/-! ## Replacing -/

/-- A find at the start is replaced, and the rest is replaced on its own. -/
theorem replaceAll_of_find {α : Type} {p : Pattern α} (hp : p.Consumes) {s rest : Text} {a : α}
    (h : p s = some (a, rest)) (f : α → Text) : p.replaceAll f s = f a ++ p.replaceAll f rest := by
  rw [replaceAll, pieces_of_find hp h]
  rfl

/-- A character at which the pattern fails is kept. -/
theorem replaceAll_of_none {α : Type} {p : Pattern α} {c : Char} {s : Text} (h : p (c :: s) = none)
    (f : α → Text) : p.replaceAll f (c :: s) = c :: p.replaceAll f s := by
  rw [replaceAll, pieces_of_none h]
  rfl

/-- A text at no place of which the pattern finds anything is kept. -/
theorem replaceAll_append_of_none {α : Type} {p : Pattern α} {s t : Text}
    (h : ∀ w, w <:+ s → w ≠ [] → p (w ++ t) = none) (f : α → Text) :
    p.replaceAll f (s ++ t) = s ++ p.replaceAll f t := by
  rw [replaceAll, pieces_append_of_none h, List.flatMap_append, List.flatMap_map]
  exact congrArg (· ++ _) (List.flatMap_singleton' s)

/-- If no find is at once replaced by the start of what it stands at, then a replacement keeps exactly
the texts in which the pattern does not occur. -/
theorem replaceAll_eq_self_iff {α : Type} {p : Pattern α} (hp : p.Consumes) {f : α → Text}
    (hf : ∀ s a rest, p s = some (a, rest) → ¬ f a <+: s) {s : Text} :
    p.replaceAll f s = s ↔ p.occursIn s = false := by
  induction s with
  | nil => exact iff_of_true rfl rfl
  | cons c s ih =>
    cases hread : p (c :: s) with
    | some find =>
      obtain ⟨a, rest⟩ := find
      refine iff_of_false (fun heq => hf _ a rest hread ?_) ?_
      · rw [← heq, replaceAll_of_find hp hread]
        exact List.prefix_append _ _
      · rw [occursIn_of_find hp hread]
        exact Bool.noConfusion
    | none =>
      rw [replaceAll_of_none hread, occursIn_cons, hread, List.cons_inj_right]
      exact ih

/-- A text whose finds are replaced by themselves stays as it is. -/
theorem replaceAll_id {p : Pattern Text} (hp : p.Reads) (s : Text) : p.replaceAll id s = s := by
  refine scan_induction hp.consumes (motive := fun s => p.replaceAll id s = s) rfl ?_ ?_ s
  · intro s a rest hread ih
    obtain ⟨-, heq⟩ := hp s a rest hread
    rw [replaceAll_of_find hp.consumes hread, ih]
    exact heq
  · intro c s hread ih
    rw [replaceAll_of_none hread, ih]

/-! ## Erasing -/

/-- A find at the start is erased, and the rest is erased on its own. -/
theorem eraseAll_of_some {α : Type} {p : Pattern α} {c : Char} {s rest : Text} {a : α}
    (h : p (c :: s) = some (a, rest)) (hrest : rest <:+ s) :
    p.eraseAll (c :: s) = p.eraseAll rest := by
  rw [eraseAll, replaceAll, pieces_of_some h hrest]
  rfl

/-- A character at which the pattern fails is kept. -/
theorem eraseAll_of_none {α : Type} {p : Pattern α} {c : Char} {s : Text} (h : p (c :: s) = none) :
    p.eraseAll (c :: s) = c :: p.eraseAll s :=
  replaceAll_of_none h _

/-! ## Parts of a split -/

/-- The parts of a split text and what separates them are the text again. -/
theorem flatMap_splitAfter {p : Pattern Text} (hp : p.Reads) (s : Text) :
    ((p.splitAfter s).1.flatMap fun part => part.1 ++ part.2) ++ (p.splitAfter s).2 = s := by
  refine Eq.trans ?_ (replaceAll_id hp s)
  unfold splitAfter replaceAll
  induction p.pieces s with
  | nil => rfl
  | cons piece rest ih =>
    rw [List.foldr_cons, List.flatMap_cons, ← ih]
    generalize List.foldr _ _ rest = split
    obtain ⟨parts, last⟩ := split
    cases piece with
    | found a => simp
    | passed c =>
      cases parts with
      | nil => simp
      | cons first more => simp

/-- A find at the start ends an empty part, and the rest is split on its own. -/
theorem splitAfter_of_some {p : Pattern Text} (hp : p.Reads) {s a rest : Text}
    (h : p s = some (a, rest)) :
    p.splitAfter s = (([], a) :: (p.splitAfter rest).1, (p.splitAfter rest).2) := by
  rw [splitAfter, pieces_of_find hp.consumes h]
  rfl

/-- A character at which the pattern fails joins the part behind it. -/
theorem splitAfter_of_none {α : Type} {p : Pattern α} {c : Char} {s : Text}
    (h : p (c :: s) = none) :
    p.splitAfter (c :: s) =
      match p.splitAfter s with
      | ((part, a) :: parts, last) => ((c :: part, a) :: parts, last)
      | ([], last) => ([], c :: last) := by
  unfold splitAfter
  rw [pieces_of_none h, List.foldr_cons]
  generalize List.foldr _ _ (p.pieces s) = split
  obtain ⟨parts, last⟩ := split
  cases parts <;> rfl

/-- The empty text has no text inside that the pattern reads wherever it stands. -/
theorem not_infix_nil {p : Pattern Text} (hp : p.Reads) {w : Text}
    (hw : ∀ rest, p (w ++ rest) ≠ none) : ¬ w <:+: [] := by
  intro hinfix
  rw [List.infix_nil.mp hinfix] at hw
  obtain ⟨⟨a, rest⟩, hread⟩ := Option.ne_none_iff_exists'.mp (hw [])
  obtain ⟨hne, heq⟩ := hp _ _ _ hread
  exact hne (List.append_eq_nil_iff.mp heq).1

/-- A character at which the pattern fails starts no text that the pattern reads wherever it
stands. -/
theorem not_infix_cons {α : Type} {p : Pattern α} {w : Text} (hw : ∀ rest, p (w ++ rest) ≠ none)
    {c : Char} {s part : Text} (hread : p (c :: s) = none) (hpart : part <+: s)
    (h : ¬ w <:+: part) : ¬ w <:+: c :: part := by
  intro hinfix
  rcases List.infix_cons_iff.mp hinfix with hprefix | hinside
  · obtain ⟨rest, hrest⟩ := hprefix.trans (List.cons_prefix_cons.mpr ⟨rfl, hpart⟩)
    exact hw rest (by rw [hrest, hread])
  · exact h hinside

/-- A text that the pattern reads wherever it stands does not stand inside a part of a split. -/
theorem not_infix_of_splitAfter {p : Pattern Text} (hp : p.Reads) {w : Text}
    (hw : ∀ rest, p (w ++ rest) ≠ none) (s : Text) :
    (∀ part ∈ (p.splitAfter s).1, ¬ w <:+: part.1) ∧ ¬ w <:+: (p.splitAfter s).2 := by
  have hempty := not_infix_nil hp hw
  refine scan_induction hp.consumes (motive := fun s =>
    (∀ part ∈ (p.splitAfter s).1, ¬ w <:+: part.1) ∧ ¬ w <:+: (p.splitAfter s).2)
    ⟨fun part hpart => absurd hpart List.not_mem_nil, hempty⟩ ?_ ?_ s
  · rintro s a rest hread ⟨hparts, hlast⟩
    rw [splitAfter_of_some hp hread]
    exact ⟨List.forall_mem_cons.mpr ⟨hempty, hparts⟩, hlast⟩
  · rintro c s hread ⟨hparts, hlast⟩
    have hwhole := flatMap_splitAfter hp s
    rw [splitAfter_of_none hread]
    generalize p.splitAfter s = split at hparts hlast hwhole
    obtain ⟨parts, last⟩ := split
    -- the part that the character joins stands at the start of the text behind it
    cases parts with
    | nil =>
      have hstart : last <+: s := by rw [← hwhole]; exact List.prefix_rfl
      exact ⟨hparts, not_infix_cons hw hread hstart hlast⟩
    | cons first more =>
      obtain ⟨hfirst, hmore⟩ := List.forall_mem_cons.mp hparts
      have hstart : first.1 <+: s := by
        rw [← hwhole, List.flatMap_cons, List.append_assoc, List.append_assoc]
        exact List.prefix_append _ _
      have hjoined := not_infix_cons hw hread hstart hfirst
      exact ⟨List.forall_mem_cons.mpr ⟨hjoined, hmore⟩, hlast⟩

end Pattern

end SourceIndex
