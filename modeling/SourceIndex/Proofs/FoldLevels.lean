import SourceIndex.Proofs.FoldTree

/-!
# The levels of a fold

The fold of a list of fingerprints halves the list level by level until one fingerprint is left. Lists
of one length have levels of one shape. If their roots are equal, going down from the roots each level
is the same in both folds or two different texts are joined at one place to one fingerprint
(`eq_or_collision_of_level_eq`). So a root binds its list unless one names such a collision.
-/

namespace SourceIndex

namespace Fingerprint

/-! ## One level -/

/-- A level has the fingerprints of the texts that are joined below it. -/
theorem joinPairs_eq_map (hs : List Text) : joinPairs hs = (joinedTexts hs).map fingerprint := by
  fun_induction joinPairs hs <;> simp_all [joinedTexts]

theorem length_joinedTexts (hs : List Text) : (joinedTexts hs).length = (hs.length + 1) / 2 := by
  rw [← length_joinPairs, joinPairs_eq_map, List.length_map]

theorem length_of_mem_joinPairs {hs : List Text} {a : Text} (h : a ∈ joinPairs hs) :
    a.length = 8 := by
  rw [joinPairs_eq_map] at h
  obtain ⟨s, -, rfl⟩ := List.mem_map.mp h
  exact length_fingerprint s

/-- Entries of eight digits are joined to texts of sixteen. -/
theorem length_of_mem_joinedTexts {hs : List Text} (h8 : ∀ a ∈ hs, a.length = 8) {s : Text}
    (h : s ∈ joinedTexts hs) : s.length = 16 := by
  fun_induction joinedTexts hs with
  | case1 => cases h
  | case2 a =>
    have ha := h8 a List.mem_cons_self
    rw [List.mem_singleton.mp h, List.length_append, ha]
  | case3 a b rest ih =>
    obtain ⟨ha, hb, hrest⟩ : a.length = 8 ∧ b.length = 8 ∧ ∀ c ∈ rest, c.length = 8 := by
      simpa using h8
    rcases List.mem_cons.mp h with rfl | h
    · rw [List.length_append, ha, hb]
    · exact ih hrest h

/-- The joined texts of a level tell its entries if these have eight digits and their number is
known. -/
theorem eq_of_joinedTexts_eq {hs hs' : List Text} (hlen : hs.length = hs'.length)
    (h8 : ∀ a ∈ hs, a.length = 8) (h8' : ∀ a ∈ hs', a.length = 8)
    (h : joinedTexts hs = joinedTexts hs') : hs = hs' := by
  fun_induction joinedTexts hs generalizing hs' with
  | case1 => exact (List.eq_nil_of_length_eq_zero hlen.symm).symm
  | case2 a =>
    obtain ⟨b, rfl⟩ := List.length_eq_one_iff.mp hlen.symm
    have hjoin : a ++ a = b ++ b := (List.cons.inj h).1
    have height : a.length = b.length :=
      (h8 a List.mem_cons_self).trans (h8' b List.mem_cons_self).symm
    rw [(List.append_inj hjoin height).1]
  | case3 a b rest ih =>
    match hs', hlen with
    | c :: d :: rest', hlen =>
      obtain ⟨ha, hb, hrest⟩ : a.length = 8 ∧ b.length = 8 ∧ ∀ e ∈ rest, e.length = 8 := by
        simpa using h8
      obtain ⟨hc, hd, hrest'⟩ : c.length = 8 ∧ d.length = 8 ∧ ∀ e ∈ rest', e.length = 8 := by
        simpa using h8'
      obtain ⟨hjoin, htail⟩ := List.cons.inj h
      obtain ⟨rfl, rfl⟩ := List.append_inj hjoin (ha.trans hc.symm)
      rw [ih (by simpa using hlen) hrest hrest' htail]

/-! ## All levels -/

/-- The fingerprints that are left after some levels of the fold. -/
def level (hs : List Text) : Nat → List Text
  | 0 => hs
  | k + 1 => joinPairs (level hs k)

theorem level_joinPairs (hs : List Text) (k : Nat) : level (joinPairs hs) k = level hs (k + 1) := by
  induction k with
  | zero => rfl
  | succ k ih =>
    rw [level, ih]
    rfl

/-- Lists of one length have levels of one length. -/
theorem length_level_congr {hs hs' : List Text} (h : hs.length = hs'.length) (k : Nat) :
    (level hs k).length = (level hs' k).length := by
  induction k with
  | zero => exact h
  | succ k ih => rw [level, level, length_joinPairs, length_joinPairs, ih]

theorem length_of_mem_level {hs : List Text} (h8 : ∀ a ∈ hs, a.length = 8) (k : Nat) :
    ∀ a ∈ level hs k, a.length = 8 := by
  cases k with
  | zero => exact h8
  | succ k => exact fun a ha => length_of_mem_joinPairs ha

/-- The number of levels that are joined before one fingerprint is left. -/
def height (hs : List Text) : Nat :=
  Nat.clog 2 hs.length

/-- A level less is joined above the first one. -/
theorem height_cons_cons (a b : Text) (rest : List Text) :
    height (a :: b :: rest) = height (joinPairs (a :: b :: rest)) + 1 := by
  rw [height, height, length_joinPairs, Nat.clog_of_two_le (by omega) (by simp)]
  congr 2

/-- The fold ends: after as many levels as the height the root alone is left. -/
theorem level_height {hs : List Text} (hne : hs ≠ []) : level hs (height hs) = [root hs] := by
  fun_induction root hs with
  | case1 => exact absurd rfl hne
  | case2 a => rfl
  | case3 a b rest ih =>
    rw [height_cons_cons, ← level_joinPairs]
    exact ih (by simp [joinPairs])

/-- The fold does not end before: a level below the height has several entries. -/
theorem one_lt_length_level {hs : List Text} {k : Nat} (h : k < height hs) :
    1 < (level hs k).length := by
  fun_induction root hs generalizing k with
  | case1 => cases h
  | case2 a => cases h
  | case3 a b rest ih =>
    cases k with
    | zero => simp [level]
    | succ k =>
      rw [height_cons_cons] at h
      rw [← level_joinPairs]
      exact ih (by omega)

/-! ## Collisions -/

/-- At one level and one place the folds of two lists join different texts of sixteen characters that
have one fingerprint. -/
def CollidesAt (hs hs' : List Text) (k place : Nat) : Prop :=
  ∃ s t, (joinedTexts (level hs k))[place]? = some s ∧
    (joinedTexts (level hs' k))[place]? = some t ∧ s ≠ t ∧ s.length = 16 ∧ t.length = 16 ∧
    fingerprint s = fingerprint t

/-- Two levels of one length that are joined to the same fingerprints are the same, or there is a
collision between them. -/
theorem eq_or_collision_of_joinPairs_eq {hs hs' : List Text} {k : Nat}
    (hlen : (level hs k).length = (level hs' k).length) (h8 : ∀ a ∈ level hs k, a.length = 8)
    (h8' : ∀ a ∈ level hs' k, a.length = 8) (h : joinPairs (level hs k) = joinPairs (level hs' k)) :
    level hs k = level hs' k ∨ ∃ place, CollidesAt hs hs' k place := by
  by_cases htexts : joinedTexts (level hs k) = joinedTexts (level hs' k)
  · exact .inl (eq_of_joinedTexts_eq hlen h8 h8' htexts)
  · right
    rw [joinPairs_eq_map, joinPairs_eq_map] at h
    -- as many texts are joined in both levels, so two of them differ at one place
    by_contra hnone
    refine htexts (List.ext_getElem ?_ fun place hs ht => ?_)
    · rw [length_joinedTexts, length_joinedTexts, hlen]
    · by_contra hne
      refine hnone ⟨place, _, _, List.getElem?_eq_getElem hs, List.getElem?_eq_getElem ht, hne,
        length_of_mem_joinedTexts h8 (List.getElem_mem hs),
        length_of_mem_joinedTexts h8' (List.getElem_mem ht), ?_⟩
      have hplace := congrArg (·[place]?) h
      simpa [hs, ht] using hplace

/-- Lists of one length that are the same after some levels are the same from the start, or there is a
collision at one of these levels. -/
theorem eq_or_collision_of_level_eq {hs hs' : List Text} (hlen : hs.length = hs'.length)
    (h8 : ∀ a ∈ hs, a.length = 8) (h8' : ∀ a ∈ hs', a.length = 8) {n : Nat}
    (h : level hs n = level hs' n) : hs = hs' ∨ ∃ k < n, ∃ place, CollidesAt hs hs' k place := by
  induction n with
  | zero => exact .inl h
  | succ n ih =>
    rcases eq_or_collision_of_joinPairs_eq (length_level_congr hlen n) (length_of_mem_level h8 n)
      (length_of_mem_level h8' n) h with heq | hcollision
    · exact (ih heq).imp_right fun ⟨k, hk, hcollision⟩ => ⟨k, by omega, hcollision⟩
    · exact .inr ⟨n, by omega, hcollision⟩

/-- A root binds its list. The fold of a list of fingerprints ends with one fingerprint, its root, and
no level before is that short. If another list of this length has the same root, it is the same list,
or at some level and place of the two folds different texts are joined that have one fingerprint. -/
theorem root_binds {hs : List Text} (hne : hs ≠ []) (h8 : ∀ a ∈ hs, a.length = 8) :
    (root hs).length = 8 ∧
    level hs (height hs) = [root hs] ∧
    (∀ k < height hs, 1 < (level hs k).length) ∧
    ∀ hs' : List Text, hs'.length = hs.length → (∀ a ∈ hs', a.length = 8) → root hs = root hs' →
      hs = hs' ∨ ∃ k < height hs, ∃ place, CollidesAt hs hs' k place := by
  refine ⟨length_root h8, level_height hne, fun k hk => one_lt_length_level hk, ?_⟩
  intro hs' hlen h8' hroot
  have hne' : hs' ≠ [] := List.ne_nil_of_length_pos (hlen ▸ List.length_pos_iff.mpr hne)
  have hheight : height hs' = height hs := by rw [height, height, hlen]
  refine eq_or_collision_of_level_eq hlen.symm h8 h8' ?_
  rw [level_height hne, hroot, ← level_height hne', hheight]

/-- Two lists of three fingerprints with one root: the first two entries collide when they are
joined. -/
theorem root_binds_of_colliding_pairs :
    let hs : List Text := ["1aeb28b1".toList, "2efb8786".toList, "fd0c5087".toList]
    let hs' : List Text := ["14fea6f7".toList, "320ca3f6".toList, "fd0c5087".toList]
    hs ≠ [] ∧ hs'.length = hs.length ∧ (∀ a ∈ hs, a.length = 8) ∧ (∀ a ∈ hs', a.length = 8) ∧
      root hs = root hs' ∧ ∃ k < height hs, ∃ place, CollidesAt hs hs' k place := by
  intro hs hs'
  have hne : hs ≠ [] := by decide
  have hlen : hs'.length = hs.length := by decide
  have h8 : ∀ a ∈ hs, a.length = 8 := by decide
  have h8' : ∀ a ∈ hs', a.length = 8 := by decide
  have hroot : root hs = root hs' := by decide +kernel
  have hdiffer : hs ≠ hs' := by decide
  obtain ⟨-, -, -, hbinds⟩ := root_binds hne h8
  exact ⟨hne, hlen, h8, h8', hroot, (hbinds hs' hlen h8' hroot).resolve_left hdiffer⟩

end Fingerprint

end SourceIndex
