import SourceIndex.Proofs.FloatOrder
import SourceIndex.Proofs.StableSort
import SourceIndex.Ranking

/-!
# Rankings are stable

A search orders the chunks above the noise floor by descending score and cuts the list at the limit.
A score above the noise floor is a number, so the scores that are compared are in one order, and the
chunks of one score keep their order (`isOrdering_ordered`). So all limits cut the same list, which
`rank_stable` describes.
-/

namespace SourceIndex

namespace Ranking

/-! ## Results with the positions of their chunks -/

/-- The results above the noise floor with the positions of their chunks, in the order of the
chunks. -/
def found (q : Query) (chunks : List IndexedChunk) : List (Hit × Nat) :=
  (chunks.zipIdx.map fun c => (scored q c.1, c.2)).filter fun r => r.1.score > noiseFloor

/-- The first result stands before the second one: it does not score less, and if both score the same
its chunk is the earlier one. -/
structure Precedes (r s : Hit × Nat) : Prop where
  score_le : s.1.score ≤ r.1.score
  earlier : r.1.score ≤ s.1.score → r.2 < s.2

instance (r s : Hit × Nat) : Decidable (Precedes r s) :=
  decidable_of_iff (s.1.score ≤ r.1.score ∧ (r.1.score ≤ s.1.score → r.2 < s.2))
    ⟨fun h => ⟨h.1, h.2⟩, fun h => ⟨h.score_le, h.earlier⟩⟩

/-- No two results stand before one another. -/
theorem Precedes.asymm {r s : Hit × Nat} (h : Precedes r s) : ¬ Precedes s r :=
  fun h' => Nat.lt_asymm (h.earlier h'.score_le) (h'.earlier h.score_le)

/-- The results of the second list are those of the first one by descending score, with those of equal
scores in the order of their chunks. -/
structure IsOrdering (found ordered : List (Hit × Nat)) : Prop where
  perm : ordered.Perm found
  pairwise : ordered.Pairwise Precedes

/-- There is only one such order. -/
theorem IsOrdering.unique {found ordered other : List (Hit × Nat)} (h : IsOrdering found ordered)
    (h' : IsOrdering found other) : other = ordered := by
  refine List.Perm.eq_of_pairwise ?_ h'.pairwise h.pairwise (h'.perm.trans h.perm.symm)
  intro r s _ _ hrs hsr
  exact absurd hsr hrs.asymm

/-- What is cut off stands behind what is left. -/
theorem IsOrdering.precedes_of_not_mem_take {found ordered : List (Hit × Nat)}
    (h : IsOrdering found ordered) {n : Nat} {r s : Hit × Nat} (hr : r ∈ ordered.take n)
    (hs : s ∈ found) (hleft : s ∉ ordered.take n) : Precedes r s :=
  StableSort.rel_of_not_mem_take h.pairwise hr (h.perm.mem_iff.mpr hs) hleft

section Found

variable (q : Query) (chunks : List IndexedChunk)

/-- The results are those that are ranked. -/
theorem map_fst_found : (found q chunks).map Prod.fst = candidates q chunks := by
  have hscored : (chunks.zipIdx.map fun c => (scored q c.1, c.2)).map Prod.fst =
      (chunks.zipIdx.map Prod.fst).map (scored q) := by
    rw [List.map_map, List.map_map]
    rfl
  rw [List.zipIdx_map_fst] at hscored
  rw [candidates, ← hscored, List.filter_map]
  rfl

/-- The results are in the order of their chunks. -/
theorem pairwise_found : (found q chunks).Pairwise fun r s => r.2 < s.2 := by
  refine List.Pairwise.filter _ (List.pairwise_map.mpr ?_)
  exact StableSort.pairwise_zipIdx chunks

variable {q chunks}

/-- The score of a result is a number. -/
theorem isNaN_of_mem_found {r : Hit × Nat} (h : r ∈ found q chunks) : r.1.score.isNaN = false :=
  (FloatOrder.isNaN_eq_false_of_lt (of_decide_eq_true (List.mem_filter.mp h).2)).2

/-- Results compare as the places of their scores do. -/
theorem score_le_iff {r s : Hit × Nat} (hr : r ∈ found q chunks) (hs : s ∈ found q chunks) :
    r.1.score ≤ s.1.score ↔ FloatOrder.place r.1.score ≤ FloatOrder.place s.1.score :=
  FloatOrder.le_iff_place_le (isNaN_of_mem_found hr) (isNaN_of_mem_found hs)

end Found

/-! ## The order of the results -/

/-- The order of results by the places of their scores, the highest first. -/
def placeOrder (r s : Hit × Nat) : Bool :=
  decide (FloatOrder.place s.1.score ≤ FloatOrder.place r.1.score)

theorem placeOrder_trans (r s t : Hit × Nat) (h : placeOrder r s = true)
    (h' : placeOrder s t = true) : placeOrder r t = true :=
  decide_eq_true (le_trans (of_decide_eq_true h') (of_decide_eq_true h))

theorem placeOrder_total (r s : Hit × Nat) : (placeOrder r s || placeOrder s r) = true := by
  rw [Bool.or_eq_true, placeOrder, placeOrder, decide_eq_true_iff, decide_eq_true_iff]
  exact le_total _ _

/-- The results in descending order of their scores. -/
def ordered (q : Query) (chunks : List IndexedChunk) : List (Hit × Nat) :=
  (found q chunks).mergeSort placeOrder

section Ordered

variable (q : Query) (chunks : List IndexedChunk)

/-- The results in their order are those that a search cuts at its limit. -/
theorem map_fst_ordered :
    (ordered q chunks).map Prod.fst = (candidates q chunks).mergeSort scoreOrder := by
  rw [← map_fst_found]
  refine List.map_mergeSort fun r hr s hs => ?_
  rw [placeOrder, scoreOrder, decide_eq_decide]
  exact (score_le_iff hs hr).symm

/-- The results are ordered by their scores, and those of equal scores by their chunks. -/
theorem isOrdering_ordered : IsOrdering (found q chunks) (ordered q chunks) := by
  have hstable := StableSort.pairwise_mergeSort placeOrder_trans placeOrder_total
    (pairwise_found q chunks)
  refine ⟨List.mergeSort_perm _ _, hstable.imp_of_mem fun {r s} hr hs h => ?_⟩
  rw [ordered, List.mem_mergeSort] at hr hs
  obtain ⟨hplace, hearlier⟩ := h
  refine ⟨(score_le_iff hs hr).mpr (of_decide_eq_true hplace), fun hscore => ?_⟩
  exact hearlier (decide_eq_true ((score_le_iff hr hs).mp hscore))

end Ordered

end Ranking

/-! ## Searches -/

section Rank

variable (index : TermIndex) (chunks : List IndexedChunk) (query : Text)

/-- Nothing is found without a limit or a query. -/
theorem rank_eq_nil {limit : Int} (h : limit < 1 ∨ query.isBlank = true) :
    rank index chunks query limit = [] :=
  if_pos h

/-- A search cuts the ordered results at its limit. -/
theorem rank_eq_take {limit : Int} (hlimit : 1 ≤ limit) (hquery : query.isBlank = false) :
    rank index chunks query limit =
      ((Ranking.ordered (.ofText index query) chunks).take limit.toNat).map Prod.fst := by
  have hsome : ¬ (limit < 1 ∨ query.isBlank = true) := by
    rw [hquery, not_or]
    exact ⟨Int.not_lt.mpr hlimit, Bool.false_ne_true⟩
  rw [rank, if_neg hsome, ← Ranking.map_fst_ordered, List.map_take]

/-- A search with a smaller limit finds the first results of one with a greater limit. -/
theorem rank_eq_take_rank {n m : Int} (h : n ≤ m) :
    rank index chunks query n = (rank index chunks query m).take n.toNat := by
  by_cases hnone : n < 1 ∨ query.isBlank = true
  · rw [rank_eq_nil index chunks query hnone]
    rcases hnone with hn | hblank
    · rw [Int.toNat_of_nonpos (by omega), List.take_zero]
    · rw [rank_eq_nil index chunks query (.inr hblank), List.take_nil]
  · obtain ⟨hn, hquery⟩ := not_or.mp hnone
    rw [Bool.not_eq_true] at hquery
    rw [rank_eq_take index chunks query (by omega) hquery,
      rank_eq_take index chunks query (by omega) hquery, ← List.map_take, List.take_take,
      Nat.min_eq_left (Int.toNat_le_toNat h)]

/-- A search is a stable selection of the best results. Without a limit or a query nothing is found.
The results above the noise floor have one order by descending score in which equal scores keep the
order of the chunks, and a search gives the results that are first in it:
* no position occurs twice,
* every result that is left out scores at most as much as every result that is given, and its chunk is
  the later one if they score the same,
* a smaller limit gives the first results of a greater one,
* all results are given once the limit reaches their number. -/
theorem rank_stable :
    let found := Ranking.found (.ofText index query) chunks
    (∀ limit : Int, limit < 1 ∨ query.isBlank = true → rank index chunks query limit = []) ∧
    (∃ ordered, Ranking.IsOrdering found ordered) ∧
    (∀ ordered, Ranking.IsOrdering found ordered →
      (ordered.map Prod.snd).Nodup ∧
      ∀ limit : Int, 1 ≤ limit → query.isBlank = false →
        rank index chunks query limit = (ordered.take limit.toNat).map Prod.fst ∧
        ∀ r ∈ ordered.take limit.toNat, ∀ s ∈ found, s ∉ ordered.take limit.toNat →
          Ranking.Precedes r s) ∧
    (∀ n m : Int, n ≤ m →
      rank index chunks query n = (rank index chunks query m).take n.toNat) ∧
    ∀ limit : Int, found.length ≤ limit → query.isBlank = false →
      (rank index chunks query limit).Perm (found.map Prod.fst) := by
  intro found
  have hordering := Ranking.isOrdering_ordered (.ofText index query) chunks
  refine ⟨fun limit h => rank_eq_nil index chunks query h, ⟨_, hordering⟩, ?_,
    fun n m h => rank_eq_take_rank index chunks query h, ?_⟩
  · intro ordered h
    have hpositions : (found.map Prod.snd).Nodup :=
      List.pairwise_map.mpr ((Ranking.pairwise_found _ _).imp Nat.ne_of_lt)
    refine ⟨(h.perm.map Prod.snd).nodup_iff.mpr hpositions, fun limit hlimit hquery => ⟨?_, ?_⟩⟩
    · rw [rank_eq_take index chunks query hlimit hquery, hordering.unique h]
    · exact fun r hr s hs hleft => h.precedes_of_not_mem_take hr hs hleft
  · intro limit hlimit hquery
    have hlength : (Ranking.ordered (.ofText index query) chunks).length = found.length :=
      hordering.perm.length_eq
    rcases Int.lt_or_le limit 1 with hnone | hsome
    · -- a limit below one is reached only if nothing was found
      have hempty : found = [] := List.eq_nil_of_length_eq_zero (by omega)
      rw [rank_eq_nil index chunks query (.inl hnone), hempty]
      exact .nil
    · rw [rank_eq_take index chunks query hsome hquery,
        List.take_of_length_le (by omega)]
      exact hordering.perm.map Prod.fst

end Rank

/-- Of two hooks with one score the first one is found, behind a function that scores more. -/
theorem rank_stable_of_tied_hooks :
    let chunk (kind : Chunk.Kind) (name content : String) : IndexedChunk :=
      { toChunk := .make "a.ts".toList kind name.toList content.toList 0 0 }
    let chunks := [chunk .hook "a" "x", chunk .function "b" "hooks", chunk .hook "c" "y"]
    let query : Text := "hooks".toList
    let found := Ranking.found (.ofText {} query) chunks
    let ordered := (found.drop 1).take 1 ++ found.take 1 ++ found.drop 2
    Ranking.IsOrdering found ordered ∧ query.isBlank = false ∧
      rank {} chunks query 2 = (ordered.take 2).map Prod.fst ∧
      (rank {} chunks query 2).map (·.chunk.name) = ["b".toList, "a".toList] ∧
      rank {} chunks query 0 = [] ∧ rank {} chunks query 1 = (rank {} chunks query 2).take 1 ∧
      (rank {} chunks query 3).Perm (found.map Prod.fst) := by
  intro chunk chunks query found ordered
  have hperm : ordered.Perm found := by
    have hsplit : found = found.take 1 ++ ((found.drop 1).take 1 ++ found.drop 2) := by
      rw [← List.drop_drop (i := 1) (j := 1), List.take_append_drop, List.take_append_drop]
    refine List.Perm.trans ?_ (.of_eq hsplit.symm)
    rw [← List.append_assoc]
    exact List.perm_append_comm.append_right _
  have hordering : Ranking.IsOrdering found ordered := ⟨hperm, by decide +kernel⟩
  have hquery : query.isBlank = false := by decide +kernel
  obtain ⟨hnone, -, hbest, hfirst, hall⟩ := rank_stable {} chunks query
  obtain ⟨-, hrank⟩ := hbest ordered hordering
  have htwo := (hrank 2 (by decide) hquery).1
  refine ⟨hordering, hquery, htwo, ?_, hnone 0 (.inl (by decide)), hfirst 1 2 (by decide), ?_⟩
  · rw [htwo]
    decide +kernel
  · refine hall 3 ?_ hquery
    decide +kernel

end SourceIndex
