import Mathlib.Data.List.Pairwise

/-!
# Stable sorting

Sorting a list puts its items in the order that compares them and leaves items that compare both ways in
the order in which they were. So a relation between the items of a list and those behind them survives
where the comparison does not decide.
-/

namespace SourceIndex

namespace StableSort

universe u

variable {α : Type u} {le : α → α → Bool}
  (trans : ∀ a b c, le a b = true → le b c = true → le a c = true)
  (total : ∀ a b, (le a b || le b a) = true)
include trans total

/-- Items that all compare both ways keep their order. -/
theorem filter_mergeSort {p : α → Bool} (hclass : ∀ a b, p a = true → p b = true → le a b = true)
    (l : List α) : (l.mergeSort le).filter p = l.filter p := by
  have hequal : (l.filter p).Pairwise fun a b => le a b = true :=
    List.pairwise_of_forall_mem_list fun a ha b hb =>
      hclass a b (List.mem_filter.mp ha).2 (List.mem_filter.mp hb).2
  have hkept : (l.filter p).Sublist (l.mergeSort le) :=
    List.sublist_mergeSort trans total hequal List.filter_sublist
  have hfiltered := hkept.filter p
  rw [List.filter_filter] at hfiltered
  simp only [Bool.and_self] at hfiltered
  exact (hfiltered.eq_of_length ((List.mergeSort_perm _ _).filter _).length_eq.symm).symm

/-- A sorted list is in the order that compares its items, and items that compare both ways are related
as in the list that was sorted. -/
theorem pairwise_mergeSort {before : α → α → Prop} {l : List α} (h : l.Pairwise before) :
    (l.mergeSort le).Pairwise fun a b => le a b = true ∧ (le b a = true → before a b) := by
  refine List.pairwise_iff_forall_sublist.mpr fun {a b} hpair => ?_
  have hle : le a b = true :=
    List.pairwise_iff_forall_sublist.mp (List.pairwise_mergeSort trans total l) hpair
  refine ⟨hle, fun hge => ?_⟩
  -- both items are among those that compare both ways with the second one
  have hclass := hpair.filter fun t => le t b && le b t
  have hself : le b b = true := trans b a b hge hle
  rw [filter_mergeSort trans total, List.filter_cons_of_pos (by rw [hle, hge]; rfl),
    List.filter_cons_of_pos (by rw [hself]; rfl), List.filter_nil] at hclass
  · exact List.pairwise_iff_forall_sublist.mp h (hclass.trans List.filter_sublist)
  · intro c d hc hd
    rw [Bool.and_eq_true] at hc hd
    exact trans c b d hc.1 hd.2

omit trans total in
/-- The positions in a list increase. -/
theorem pairwise_zipIdx (l : List α) : l.zipIdx.Pairwise fun a b => a.2 < b.2 := by
  have hpositions := List.pairwise_lt_range' (s := 0) (n := l.length)
  rwa [← List.zipIdx_map_snd, List.pairwise_map] at hpositions

omit trans total in
/-- What a list is cut down to is related to everything that is cut off. -/
theorem rel_of_not_mem_take {r : α → α → Prop} {l : List α} (h : l.Pairwise r) {n : Nat} {a b : α}
    (ha : a ∈ l.take n) (hb : b ∈ l) (hleft : b ∉ l.take n) : r a b := by
  rw [← List.take_append_drop n l] at h hb
  have hrest : b ∈ l.drop n := (List.mem_append.mp hb).resolve_left hleft
  exact (List.pairwise_append.mp h).2.2 a ha b hrest

end StableSort

end SourceIndex
