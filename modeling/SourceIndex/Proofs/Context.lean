import SourceIndex.Proofs.Agreement
import Mathlib.Algebra.Order.BigOperators.Group.List
import Mathlib.Data.Rat.Floor

/-!
# Packages are greedy

A package takes the results of a search in their order and leaves out exactly those that would have
exceeded the budget when they were reached: `exists_positions` describes the selection by the positions
that it takes. Costs only grow, so what was left out does not fit into the rest of the budget either.
Whatever the chunkers do, the symbols of a package are those that its chunks declare.
-/

namespace SourceIndex

namespace Context

/-! ## Selections by position -/

/-- The results at the positions that are taken. -/
def atPositions (taken : Nat → Bool) (candidates : List Hit) : List Hit :=
  (candidates.zipIdx.filter fun entry => taken entry.2).map Prod.fst

/-- The cost of several results. -/
def totalCost (results : List Hit) : Nat :=
  (results.map cost).sum

@[simp]
theorem totalCost_cons (r : Hit) (results : List Hit) :
    totalCost (r :: results) = cost r + totalCost results :=
  rfl

/-- The positions that are taken when one more stands in front of them. -/
def positionsCons (first : Bool) (taken : Nat → Bool) : Nat → Bool
  | 0 => first
  | i + 1 => taken i

/-- The first result is taken or not, and the others as they are without it. -/
theorem atPositions_cons (first : Bool) (taken : Nat → Bool) (r : Hit) (rest : List Hit) :
    atPositions (positionsCons first taken) (r :: rest) =
      if first then r :: atPositions taken rest else atPositions taken rest := by
  have hrest : ((rest.zipIdx 1).filter fun entry => positionsCons first taken entry.2).map Prod.fst =
      atPositions taken rest := by
    unfold atPositions
    rw [List.zipIdx_succ, List.filter_map, List.map_map]
    rfl
  rw [atPositions, List.zipIdx_cons, List.filter_cons, ← hrest]
  cases first <;> rfl

/-- The results at some positions are results, in their order. -/
theorem atPositions_sublist (taken : Nat → Bool) (candidates : List Hit) :
    (atPositions taken candidates).Sublist candidates := by
  have h := (List.filter_sublist (p := fun entry => taken entry.2)
    (l := candidates.zipIdx)).map Prod.fst
  rwa [List.zipIdx_map_fst] at h

/-- The results that are taken before a position are among all that are taken. -/
theorem atPositions_take_sublist (taken : Nat → Bool) (candidates : List Hit) (i : Nat) :
    (atPositions taken (candidates.take i)).Sublist (atPositions taken candidates) := by
  have hsplit : atPositions taken candidates =
      atPositions taken (candidates.take i ++ candidates.drop i) := by
    rw [List.take_append_drop]
  rw [hsplit]
  unfold atPositions
  rw [List.zipIdx_append, List.filter_append, List.map_append]
  exact List.sublist_append_left _ _

/-- Fewer results do not cost more. -/
theorem totalCost_le_of_sublist {results more : List Hit} (h : results.Sublist more) :
    totalCost results ≤ totalCost more := by
  apply (h.map cost).sum_le_sum
  intro c _
  exact Nat.zero_le c

/-! ## What is selected -/

/-- A result that fits is selected and spent. -/
theorem select_cons_of_le {budget : Int} {spent : Nat} {r : Hit}
    (h : (spent + cost r : Int) ≤ budget) (rest : List Hit) :
    select budget spent (r :: rest) =
      (r :: (select budget (spent + cost r) rest).1, (select budget (spent + cost r) rest).2) := by
  rw [select, if_neg (by omega)]

/-- A result that does not fit is left out. -/
theorem select_cons_of_lt {budget : Int} {spent : Nat} {r : Hit}
    (h : budget < (spent + cost r : Int)) (rest : List Hit) :
    select budget spent (r :: rest) = select budget spent rest := by
  rw [select, if_pos h]

/-- What is spent in the end is what was spent before and what the selected results cost. -/
theorem select_snd (budget : Int) (spent : Nat) (candidates : List Hit) :
    (select budget spent candidates).2 = spent + totalCost (select budget spent candidates).1 := by
  induction candidates generalizing spent with
  | nil => rfl
  | cons r rest ih =>
    rcases le_or_gt (spent + cost r : Int) budget with h | h
    · rw [select_cons_of_le h]
      show (select budget (spent + cost r) rest).2 = _
      rw [ih, totalCost_cons]
      omega
    · rw [select_cons_of_lt h]
      exact ih spent

/-- What was within the budget stays within it. -/
theorem select_snd_le {budget : Int} {spent : Nat} (h : (spent : Int) ≤ budget)
    (candidates : List Hit) : ((select budget spent candidates).2 : Int) ≤ budget := by
  induction candidates generalizing spent with
  | nil => exact h
  | cons r rest ih =>
    rcases le_or_gt (spent + cost r : Int) budget with hfits | hexceeds
    · rw [select_cons_of_le hfits]
      exact ih (by omega)
    · rw [select_cons_of_lt hexceeds]
      exact ih h

/-- The positions that are taken are those of the results that fit into the budget together with all
that were taken before them. -/
theorem exists_positions (budget : Int) (spent : Nat) (candidates : List Hit) :
    ∃ taken : Nat → Bool, (select budget spent candidates).1 = atPositions taken candidates ∧
      ∀ i r, candidates[i]? = some r → (taken i = true ↔
        (spent + totalCost (atPositions taken (candidates.take i)) + cost r : Int) ≤ budget) := by
  induction candidates generalizing spent with
  | nil => exact ⟨fun _ => false, rfl, fun i r h => by simp at h⟩
  | cons r rest ih =>
    rcases le_or_gt (spent + cost r : Int) budget with h | h
    · -- behind a result that fits, the walk goes on with its cost spent
      obtain ⟨taken, hresults, htaken⟩ := ih (spent + cost r)
      refine ⟨positionsCons true taken, ?_, ?_⟩
      · rw [select_cons_of_le h, hresults, atPositions_cons, if_pos rfl]
      · intro i s hs
        cases i with
        | zero =>
          obtain rfl : r = s := by simpa using hs
          simpa [atPositions, totalCost, positionsCons] using h
        | succ i =>
          have hlater := htaken i s (by simpa using hs)
          rw [List.take_succ_cons, atPositions_cons, if_pos rfl, totalCost_cons]
          show taken i = true ↔ _
          rw [hlater]
          omega
    · obtain ⟨taken, hresults, htaken⟩ := ih spent
      refine ⟨positionsCons false taken, ?_, ?_⟩
      · rw [select_cons_of_lt h, hresults, atPositions_cons, if_neg Bool.false_ne_true]
      · intro i s hs
        cases i with
        | zero =>
          obtain rfl : r = s := by simpa using hs
          simpa [atPositions, totalCost, positionsCons] using h
        | succ i =>
          rw [List.take_succ_cons, atPositions_cons, if_neg Bool.false_ne_true]
          exact htaken i s (by simpa using hs)

/-- The cost of a result is a quarter of its length, rounded up. -/
theorem cost_eq_ceil (r : Hit) : cost r = ⌈(r.chunk.content.length : ℚ) / 4⌉₊ := by
  apply eq_of_forall_ge_iff
  intro n
  rw [Nat.ceil_le, div_le_iff₀ (by norm_num)]
  have hcost : cost r ≤ n ↔ r.chunk.content.length ≤ n * 4 := by
    unfold cost tokenCost charactersPerToken
    omega
  rw [hcost]
  exact_mod_cast Iff.rfl

/-! ## Greedy selections -/

/-- The positions `taken` among the candidates are a greedy choice within a budget: they give
`results` with the cost `total`. A position is taken exactly if its candidate and all that are taken
before it are within the budget. So a candidate that is left out exceeds the budget, both when it is
reached and in the end. -/
structure Greedy (budget : Int) (candidates results : List Hit) (total : Nat) (taken : Nat → Bool) :
    Prop where
  results_eq : results = atPositions taken candidates
  total_eq : total = totalCost results
  total_le : total ≤ budget
  taken_iff : ∀ i r, candidates[i]? = some r →
    (taken i = true ↔
      (totalCost (atPositions taken (candidates.take i)) + cost r : Int) ≤ budget)
  left_out : ∀ i r, candidates[i]? = some r → taken i = false →
    budget < (totalCost (atPositions taken (candidates.take i)) + cost r : Int) ∧
      budget < (total + cost r : Int)

/-- What is selected within a budget is a greedy choice. -/
theorem exists_greedy {budget : Int} (h : 0 ≤ budget) (candidates : List Hit) :
    ∃ taken, Greedy budget candidates (select budget 0 candidates).1
      (select budget 0 candidates).2 taken := by
  obtain ⟨taken, hresults, htaken⟩ := exists_positions budget 0 candidates
  have htotal := select_snd budget 0 candidates
  simp only [Nat.cast_zero, zero_add] at htaken htotal
  refine ⟨taken, hresults, htotal, select_snd_le h candidates, htaken, ?_⟩
  intro i r hr hleft
  have hexceeds : budget <
      (totalCost (atPositions taken (candidates.take i)) + cost r : Int) := by
    apply lt_of_not_ge
    intro hfits
    rw [(htaken i r hr).mpr hfits] at hleft
    cases hleft
  -- later results only add to what is spent
  have hlater : totalCost (atPositions taken (candidates.take i)) ≤
      (select budget 0 candidates).2 := by
    rw [htotal, hresults]
    exact totalCost_le_of_sublist (atPositions_take_sublist taken candidates i)
  constructor
  · exact hexceeds
  · omega

/-! ## Packages -/

/-- Nothing is looked for if there is nothing to spend. -/
theorem assemble_of_nonpos {budget : Int} (h : budget ≤ 0) (query : Text) (pool : Int)
    (search : Int → List Hit) (symbols : SymbolTable) (imports : ImportGraph) :
    (assemble query budget pool search symbols imports).results = [] ∧
      (assemble query budget pool search symbols imports).totalTokens = 0 := by
  have hnone : searchLimits budget pool = [] := if_neg (by omega)
  unfold assemble
  rw [hnone]
  exact ⟨rfl, rfl⟩

/-- With something to spend, the results of one search are selected. -/
theorem assemble_of_pos {budget : Int} (h : 0 < budget) (query : Text) (pool : Int)
    (search : Int → List Hit) (symbols : SymbolTable) (imports : ImportGraph) :
    (assemble query budget pool search symbols imports).results =
        (select budget 0 (search pool)).1 ∧
      (assemble query budget pool search symbols imports).totalTokens =
        (select budget 0 (search pool)).2 := by
  have hone : searchLimits budget pool = [pool] := if_pos h
  unfold assemble
  rw [hone, List.flatMap_singleton]
  exact ⟨rfl, rfl⟩

end Context

/-! ## Symbols of packages -/

/-- Every result of a search is a chunk that was searched. -/
theorem exists_of_mem_rank {index : TermIndex} {chunks : List IndexedChunk} {query : Text}
    {limit : Int} {r : Hit} (h : r ∈ rank index chunks query limit) :
    ∃ c ∈ chunks, c.toChunk = r.chunk := by
  unfold rank at h
  split at h
  · cases h
  · have hcandidate := List.mem_mergeSort.mp (List.mem_of_mem_take h)
    obtain ⟨hscored, -⟩ := List.mem_filter.mp hcandidate
    obtain ⟨c, hc, rfl⟩ := List.mem_map.mp hscored
    exact ⟨c, hc, rfl⟩

/-- If every record has the symbols that its chunks declare, all records together have the symbols that
all chunks declare. -/
theorem Snapshot.symbolsOf_eq_declaredSymbols {files : OrderedMap Text FileRecord}
    (h : ∀ f ∈ files.values, f.symbols = declaredSymbols f.chunks) :
    symbolsOf files = declaredSymbols (chunksOf files) := by
  unfold symbolsOf chunksOf declaredSymbols
  rw [List.filterMap_flatMap]
  exact List.flatMap_congr h

namespace Indexer

/-- Every published chunk that declares its name has its key in the symbol table, whatever chunker made
it. -/
theorem symbolKey_mem_symbols_run (settings : Settings) (chunkers : Chunkers)
    (projects : List (List ProjectEntry)) {c : IndexedChunk}
    (hc : c ∈ ((fresh settings chunkers).run projects).snapshot.chunks) (himports : c.kind ≠ .imports)
    (hunknown : c.kind ≠ .unknown) :
    c.symbolKey ∈ ((fresh settings chunkers).run projects).snapshot.symbols.keys := by
  have hrecords := recordsFrom_run (recordsFrom_fresh settings chunkers) projects
  generalize hx : (fresh settings chunkers).run projects = x at hc hrecords ⊢
  have hpublished : x.Published := hx ▸ published_run settings chunkers projects
  rcases hpublished with hempty | hfiles
  · rw [hempty] at hc
    cases hc
  · have hsymbols : ∀ f ∈ x.snapshot.files.values, f.symbols = declaredSymbols f.chunks := by
      intro f hf
      obtain ⟨path, hentry⟩ := OrderedMap.mem_values.mp hf
      obtain ⟨g, -, -, -, hrecord : f = _⟩ := hrecords _ hentry
      rw [hrecord]
      rfl
    rw [hfiles] at hc ⊢
    obtain ⟨d, hd, rfl⟩ := List.mem_map.mp hc
    show _ ∈ (SymbolTable.build (Snapshot.symbolsOf x.snapshot.files) _).keys
    rw [SymbolTable.mem_keys_build, Snapshot.symbolsOf_eq_declaredSymbols hsymbols]
    exact exists_key_mem_declaredSymbols.mpr ⟨d, hd, himports, hunknown, rfl⟩

/-- Packages are greedy and agree with the search. In every reachable state, for every query and budget:
* without anything to spend nothing is selected;
* otherwise the selection is a greedy choice among the results of the search, each of which costs a
  quarter of its length, rounded up;
* the selected results are results of the search in their order;
* the symbols are the entries of the symbol table for the keys of the selected chunks that the table has,
  in the order in which they were selected first;
* among them is the key of every selected chunk that declares its name. -/
theorem context_greedy (settings : Settings) (chunkers : Chunkers)
    (projects : List (List ProjectEntry)) (query : Text) (given : Option Int) :
    let x := (fresh settings chunkers).run projects
    let budget : Int := given.getD x.settings.tokenBudget
    let candidates := (x.search query (some x.settings.candidatePool)).1
    let package := (x.context query given).1
    (budget ≤ 0 → package.results = [] ∧ package.totalTokens = 0) ∧
    (0 < budget →
      ∃ taken, Context.Greedy budget candidates package.results package.totalTokens taken) ∧
    (∀ r, Context.cost r = ⌈(r.chunk.content.length : ℚ) / 4⌉₊) ∧
    package.results.Sublist candidates ∧
    package.symbols.keys =
      ((package.results.map (·.chunk.symbolKey)).filter x.snapshot.symbols.contains).eraseDups ∧
    (∀ entry ∈ package.symbols.entries, entry ∈ x.snapshot.symbols.entries) ∧
    ∀ r ∈ package.results, r.chunk.kind ≠ .imports → r.chunk.kind ≠ .unknown →
      r.chunk.symbolKey ∈ package.symbols.keys := by
  intro x budget candidates package
  have hnothing : budget ≤ 0 → package.results = [] ∧ package.totalTokens = 0 := by
    intro h
    exact Context.assemble_of_nonpos h query _ _ _ _
  have hgreedy : 0 < budget →
      ∃ taken, Context.Greedy budget candidates package.results package.totalTokens taken := by
    intro h
    obtain ⟨hresults, htotal⟩ : package.results = (Context.select budget 0 candidates).1 ∧
        package.totalTokens = (Context.select budget 0 candidates).2 :=
      Context.assemble_of_pos h query _ _ _ _
    rw [hresults, htotal]
    exact Context.exists_greedy h.le candidates
  have hsublist : package.results.Sublist candidates := by
    rcases le_or_gt budget 0 with h | h
    · rw [(hnothing h).1]
      exact List.nil_sublist _
    · obtain ⟨taken, htaken⟩ := hgreedy h
      rw [htaken.results_eq]
      exact Context.atPositions_sublist taken candidates
  have hkeys : package.symbols.keys = ((package.results.map (·.chunk.symbolKey)).filter
      x.snapshot.symbols.contains).eraseDups := SymbolTable.keys_restrict _ _
  refine ⟨hnothing, hgreedy, Context.cost_eq_ceil, hsublist, hkeys, ?_, ?_⟩
  · intro entry hentry
    exact SymbolTable.mem_of_mem_restrict hentry
  · intro r hr himports hunknown
    obtain ⟨c, hc, hchunk⟩ := exists_of_mem_rank (hsublist.subset hr)
    rw [← hchunk] at himports hunknown
    have hdeclared := symbolKey_mem_symbols_run settings chunkers projects hc himports hunknown
    rw [hchunk] at hdeclared
    rw [hkeys, List.mem_eraseDups, List.mem_filter]
    exact ⟨List.mem_map.mpr ⟨r, hr, rfl⟩, OrderedMap.contains_iff.mpr hdeclared⟩

end Indexer

end SourceIndex
