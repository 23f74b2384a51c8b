import SourceIndex.Proofs.StableSort
import SourceIndex.Proofs.SupplyOrder
import SourceIndex.Snapshot.Overview
import Mathlib.Algebra.BigOperators.Ring.Finset

/-!
# The overview agrees with the index

An overview reads its counts off the records of the files, while the chunks and the symbols of a snapshot
were published on their own. In a published snapshot both speak of the same chunks, so the counts are
those of the published chunks. The largest files are the first ones in a stable order by size, and no
other file is larger than one of them.
-/

namespace SourceIndex

/-! ## Counts -/

/-- Counting a key once more adds one to the sum of the counts. -/
theorem OrderedMap.sum_values_alter {κ : Type} [DecidableEq κ] (m : OrderedMap κ Nat) (key : κ) :
    (m.alter key fun n => n.getD 0 + 1).values.sum = m.values.sum + 1 := by
  show ((alterEntries key _ m.entries).map Prod.snd).sum = (m.entries.map Prod.snd).sum + 1
  induction m.entries with
  | nil => rfl
  | cons entry rest ih =>
    obtain ⟨key', n⟩ := entry
    rw [alterEntries]
    split
    · simp only [List.map_cons, List.sum_cons, Option.getD_some]
      omega
    · simp only [List.map_cons, List.sum_cons, ih]
      omega

/-- Every text has a complexity of at least one. -/
theorem one_le_complexity (s : Text) : 1 ≤ complexity s :=
  Nat.le_add_right _ _

namespace Snapshot

/-- Every file is counted once among those of its type. -/
theorem sum_fileTypes (s : Snapshot) : s.overview.fileTypes.values.sum = s.files.size := by
  have hcount : ∀ (paths : List Text) (m : OrderedMap Text Nat),
      (paths.foldl (fun m path => m.alter (fileType path) fun n => n.getD 0 + 1) m).values.sum =
        m.values.sum + paths.length := by
    intro paths
    induction paths with
    | nil => exact fun m => rfl
    | cons path rest ih =>
      intro m
      rw [List.foldl_cons, ih, OrderedMap.sum_values_alter, List.length_cons]
      omega
  rw [overview, hcount, OrderedMap.length_keys]
  exact Nat.zero_add _

/-! ## Published chunks -/

/-- The chunks of the records are those that were published. -/
def PublishesRecords (s : Snapshot) : Prop :=
  chunksOf s.files = s.chunks.map (·.toChunk)

section PublishesRecords

variable {s : Snapshot} (h : s.PublishesRecords)
include h

/-- The number of chunks of a kind is that of the published ones. -/
theorem countKind_eq (kind : Chunk.Kind) :
    s.countKind kind = s.chunks.countP fun c => c.kind == kind := by
  rw [countKind, h, List.countP_map]
  rfl

/-- The complexity of a snapshot is that of the texts of its published chunks, if chunkers of settings
made them. -/
theorem totalComplexity_eq {settings : Settings} (hcut : CutBy settings s.files) :
    s.overview.totalComplexity = (s.chunks.map fun c => complexity c.content).sum := by
  have hstored : (chunksOf s.files).map (·.metadata.complexity) =
      (chunksOf s.files).map fun c => (complexity c.content : Int) :=
    List.map_congr_left fun c hc => (madeFor_of_mem_chunksOf hcut hc).complexity_eq
  show ((chunksOf s.files).map (·.metadata.complexity)).sum = _
  rw [hstored, h, Nat.cast_list_sum, List.map_map, List.map_map]
  rfl

end PublishesRecords

/-! ## The largest files -/

/-- The sizes of the files in the order of the index: the numbers of lines that their published chunks
span, summed up. -/
def publishedSizes (s : Snapshot) : List FileSize :=
  s.files.keys.map fun path =>
    { path := path, lines := ((s.chunksAt path).map fun c => c.lineCount).sum }

end Snapshot

/-- The first file stands before the second one: it is not smaller, and if both have the same size it is
the earlier one. -/
structure FileSize.Precedes (a b : FileSize × Nat) : Prop where
  lines_le : b.1.lines ≤ a.1.lines
  earlier : a.1.lines ≤ b.1.lines → a.2 < b.2

/-- No two files stand before one another. -/
theorem FileSize.Precedes.asymm {a b : FileSize × Nat} (h : Precedes a b) : ¬ Precedes b a :=
  fun h' => Nat.lt_asymm (h.earlier h'.lines_le) (h'.earlier h.lines_le)

/-- The files of the first list by descending size, with those of one size in their order. -/
structure FileSize.IsOrdering (sizes : List FileSize) (ordered : List (FileSize × Nat)) : Prop where
  perm : ordered.Perm sizes.zipIdx
  pairwise : ordered.Pairwise Precedes

namespace FileSize

/-- The order of sizes, the largest first. -/
def sizeOrder (a b : FileSize) : Bool :=
  decide (b.lines ≤ a.lines)

theorem sizeOrder_trans (a b c : FileSize) (h : sizeOrder a b = true) (h' : sizeOrder b c = true) :
    sizeOrder a c = true :=
  decide_eq_true (le_trans (of_decide_eq_true h') (of_decide_eq_true h))

theorem sizeOrder_total (a b : FileSize) : (sizeOrder a b || sizeOrder b a) = true := by
  rw [Bool.or_eq_true, sizeOrder, sizeOrder, decide_eq_true_iff, decide_eq_true_iff]
  exact le_total _ _

/-- There is only one such order. -/
theorem IsOrdering.unique {sizes : List FileSize} {ordered other : List (FileSize × Nat)}
    (h : IsOrdering sizes ordered) (h' : IsOrdering sizes other) : other = ordered := by
  refine List.Perm.eq_of_pairwise ?_ h'.pairwise h.pairwise (h'.perm.trans h.perm.symm)
  intro a b _ _ hab hba
  exact absurd hba hab.asymm

/-- Sorting files with their positions by size is an ordering. -/
theorem isOrdering_mergeSort (sizes : List FileSize) :
    IsOrdering sizes (sizes.zipIdx.mergeSort fun a b => sizeOrder a.1 b.1) := by
  have hstable : (sizes.zipIdx.mergeSort fun a b => sizeOrder a.1 b.1).Pairwise fun a b =>
      sizeOrder a.1 b.1 = true ∧ (sizeOrder b.1 a.1 = true → a.2 < b.2) :=
    StableSort.pairwise_mergeSort (fun a b c => sizeOrder_trans a.1 b.1 c.1)
      (fun a b => sizeOrder_total a.1 b.1) (StableSort.pairwise_zipIdx sizes)
  refine ⟨List.mergeSort_perm _ _, hstable.imp fun {a b} h => ?_⟩
  exact ⟨of_decide_eq_true h.1, fun hge => h.2 (decide_eq_true hge)⟩

/-- Sorting files by size gives them in this order. -/
theorem IsOrdering.map_fst {sizes : List FileSize} {ordered : List (FileSize × Nat)}
    (h : IsOrdering sizes ordered) : sizes.mergeSort sizeOrder = ordered.map Prod.fst := by
  have hfiles : (sizes.zipIdx.mergeSort fun a b => sizeOrder a.1 b.1).map Prod.fst =
      (sizes.zipIdx.map Prod.fst).mergeSort sizeOrder := List.map_mergeSort fun _ _ _ _ => rfl
  rw [(isOrdering_mergeSort sizes).unique h, hfiles, List.zipIdx_map_fst]

/-- A file that is not among the first ones in the order is not larger than one of them. -/
theorem IsOrdering.lines_le {sizes : List FileSize} {ordered : List (FileSize × Nat)}
    (h : IsOrdering sizes ordered) {n : Nat} {a b : FileSize} (ha : a ∈ (ordered.take n).map Prod.fst)
    (hb : b ∈ sizes) (hleft : b ∉ (ordered.take n).map Prod.fst) : b.lines ≤ a.lines := by
  obtain ⟨⟨a, i⟩, hlisted, rfl⟩ := List.mem_map.mp ha
  rw [← List.zipIdx_map_fst (l := sizes) (i := 0)] at hb
  obtain ⟨⟨b, j⟩, hposition, rfl⟩ := List.mem_map.mp hb
  have hother : (b, j) ∉ ordered.take n := fun hmem => hleft (List.mem_map.mpr ⟨_, hmem, rfl⟩)
  have hordered : (b, j) ∈ ordered := h.perm.mem_iff.mpr hposition
  exact (StableSort.rel_of_not_mem_take h.pairwise hlisted hordered hother).lines_le

end FileSize

namespace Snapshot

/-- The largest files of an overview are the first of the published ones by size. -/
def ListsLargest (s : Snapshot) : Prop :=
  s.overview.largestFiles = (s.publishedSizes.mergeSort FileSize.sizeOrder).take largestShown

/-- An overview of records that chunkers cut lists the largest published files. -/
theorem listsLargest_ofFiles {settings : Settings} {files : OrderedMap Text FileRecord}
    (h : CutBy settings files) (version : Nat) : (ofFiles files version).ListsLargest := by
  have hsizes : (ofFiles files version).publishedSizes = files.entries.map fun entry =>
      { path := entry.1, lines := (entry.2.chunks.map (·.metadata.lineCount)).sum } := by
    show (files.entries.map Prod.fst).map _ = _
    rw [List.map_map]
    refine List.map_congr_left fun entry hentry => ?_
    have hstored : entry.2.chunks.map (·.metadata.lineCount) = entry.2.chunks.map (·.lineCount) :=
      List.map_congr_left fun c hc => (madeFor_of_cutBy h hentry hc).lineCount_eq
    rw [hstored, ← chunksAt_of_cutBy h version hentry, List.map_map]
    rfl
  rw [ListsLargest, hsizes]
  rfl

end Snapshot

/-! ## Reachable states -/

namespace Indexer

/-- After a run the records are published. -/
theorem publishesRecords_run (settings : Settings) (projects : List (List ProjectEntry)) :
    ((fresh settings settings.chunkers).run projects).snapshot.PublishesRecords := by
  rcases published_run settings settings.chunkers projects with h | h
  · rw [h]
    rfl
  · rw [h]
    exact (TermIndex.map_toChunk_bind _ _).symm

/-- After a run an overview lists the largest published files. -/
theorem listsLargest_run (settings : Settings) (projects : List (List ProjectEntry)) :
    ((fresh settings settings.chunkers).run projects).snapshot.ListsLargest := by
  rcases published_run settings settings.chunkers projects with h | h
  · rw [h]
    rfl
  · rw [h]
    exact Snapshot.listsLargest_ofFiles (cutBy_run settings projects) _

/-- The overview agrees with the index in every reachable state: after any run of an indexer with the
chunkers of its settings.
* The files of all types are as many as the files.
* Components, hooks and functions are counted as often as they were published.
* The complexity, that of the published chunks, is at least the number of chunks.
* The totals are those of the statistics and the size of the symbol table.
* The largest files are the first five in the one order by descending size in which files of one size stay
  in the order of the index, and a file that is not listed is not larger than one that is. -/
theorem overview_agrees_run (settings : Settings) (projects : List (List ProjectEntry)) :
    let s := ((fresh settings settings.chunkers).run projects).snapshot
    let o := s.overview
    o.fileTypes.values.sum = o.totalFiles ∧
    (o.componentCount = (s.chunks.countP fun c => c.kind == .component) ∧
      o.hookCount = (s.chunks.countP fun c => c.kind == .hook) ∧
      o.functionCount = s.chunks.countP fun c => c.kind == .function) ∧
    (o.totalComplexity = (s.chunks.map fun c => complexity c.content).sum ∧
      o.totalChunks ≤ o.totalComplexity) ∧
    (o.totalChunks = s.stats.totalChunks ∧ o.totalFiles = s.stats.totalFiles ∧
      o.totalSymbols = s.symbols.size) ∧
    (∃ ordered, FileSize.IsOrdering s.publishedSizes ordered) ∧
    (∀ ordered, FileSize.IsOrdering s.publishedSizes ordered →
      o.largestFiles = (ordered.take 5).map Prod.fst) ∧
    ∀ a ∈ o.largestFiles, ∀ b ∈ s.publishedSizes, b ∉ o.largestFiles → b.lines ≤ a.lines := by
  intro s o
  have hrecords : s.PublishesRecords := publishesRecords_run settings projects
  have hcut : Snapshot.CutBy settings s.files := cutBy_run settings projects
  have hordering := FileSize.isOrdering_mergeSort s.publishedSizes
  have hlargest : ∀ ordered, FileSize.IsOrdering s.publishedSizes ordered →
      o.largestFiles = (ordered.take 5).map Prod.fst := by
    intro ordered h
    rw [show o.largestFiles = _ from listsLargest_run settings projects, h.map_fst, List.map_take]
    rfl
  refine ⟨Snapshot.sum_fileTypes s, ⟨Snapshot.countKind_eq hrecords _,
    Snapshot.countKind_eq hrecords _, Snapshot.countKind_eq hrecords _⟩,
    ⟨Snapshot.totalComplexity_eq hrecords hcut, ?_⟩, ⟨rfl, rfl, rfl⟩, ⟨_, hordering⟩, hlargest, ?_⟩
  · rw [Snapshot.totalComplexity_eq hrecords hcut]
    have hone : ∀ n ∈ s.chunks.map fun c => complexity c.content, 1 ≤ n := by
      intro n hn
      obtain ⟨c, -, rfl⟩ := List.mem_map.mp hn
      exact one_le_complexity c.content
    have hlength := List.card_nsmul_le_sum _ 1 hone
    rw [List.length_map, nsmul_one] at hlength
    exact Nat.cast_le.mpr hlength
  · rw [hlargest _ hordering]
    exact fun a ha b hb hleft => hordering.lines_le ha hb hleft

end Indexer

end SourceIndex
