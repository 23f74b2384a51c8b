import SourceIndex.Proofs.Chunkers
import SourceIndex.Proofs.Incremental
import SourceIndex.Proofs.Symbol

/-!
# The parts of a snapshot agree

A published snapshot is computed from its records, so in every reachable state its parts speak of the
same files: the chunks are those of the records, every vector belongs to the term index, the symbols
are those that the chunks declare, and nothing is left of a path that the project does not have.
-/

namespace SourceIndex

/-! ## Declared symbols -/

/-- A chunk declares its name unless it is an import run or unknown text. -/
theorem Chunk.symbol?_isSome {c : Chunk} :
    c.symbol?.isSome ↔ c.kind ≠ .imports ∧ c.kind ≠ .unknown := by
  rw [symbol?, Option.isSome_map]
  cases c.kind <;> simp [Kind.declares?]

/-- A declared symbol has the path and the name of the chunk. -/
theorem Chunk.of_symbol?_eq_some {c : Chunk} {s : Symbol} (h : c.symbol? = some s) :
    s.path = c.path ∧ s.key = c.symbolKey := by
  obtain ⟨kind, -, rfl⟩ := Option.map_eq_some_iff.mp h
  exact ⟨rfl, rfl⟩

/-- The keys of the declared symbols are those of the chunks that declare their names. -/
theorem exists_key_mem_declaredSymbols {chunks : List Chunk} {key : Text} :
    (∃ s ∈ declaredSymbols chunks, s.key = key) ↔
      ∃ c ∈ chunks, c.kind ≠ .imports ∧ c.kind ≠ .unknown ∧ c.symbolKey = key := by
  constructor
  · rintro ⟨s, hs, rfl⟩
    obtain ⟨c, hc, hsymbol⟩ := List.mem_filterMap.mp hs
    obtain ⟨himports, hunknown⟩ := Chunk.symbol?_isSome.mp (Option.isSome_of_eq_some hsymbol)
    exact ⟨c, hc, himports, hunknown, (Chunk.of_symbol?_eq_some hsymbol).2.symm⟩
  · rintro ⟨c, hc, himports, hunknown, rfl⟩
    obtain ⟨s, hs⟩ := Option.isSome_iff_exists.mp (Chunk.symbol?_isSome.mpr ⟨himports, hunknown⟩)
    exact ⟨s, List.mem_filterMap.mpr ⟨c, hc, hs⟩, (Chunk.of_symbol?_eq_some hs).2⟩

/-! ## Snapshots whose parts agree -/

namespace Snapshot

/-- The parts of a snapshot speak of the same files. Every record is kept under its own path, and
the chunks without their vectors are those of the records, file by file. Every vector is that of the
terms of its chunk. The symbols are those that the chunks declare, and only other files of the
snapshot refer to them. The graph of imports has the files in their order, and from the first
version on the root is that of their fingerprints. -/
structure Agrees (s : Snapshot) : Prop where
  nodup_files : s.files.keys.Nodup
  path_eq : ∀ entry ∈ s.files.entries, entry.2.path = entry.1
  chunks_eq : s.chunks.map (·.toChunk) = s.files.values.flatMap (·.chunks)
  chunk_path : ∀ f ∈ s.files.values, ∀ c ∈ f.chunks, c.path = f.path
  vector_length : ∀ c ∈ s.chunks, c.vector.length = s.terms.vocabulary.length
  vector_eq : ∀ c ∈ s.chunks, c.vector = s.terms.vector c.terms
  mem_symbols : ∀ key, key ∈ s.symbols.keys ↔
    ∃ c ∈ s.chunks, c.kind ≠ .imports ∧ c.kind ≠ .unknown ∧ c.symbolKey = key
  references : ∀ entry ∈ s.symbols.entries, ∀ path ∈ entry.2.references,
    path ∈ s.files.keys ∧ path ≠ entry.2.path
  keys_imports : s.imports.keys = s.files.keys
  root_eq : 1 ≤ s.version → s.root = Fingerprint.root (s.files.values.map (·.hash))

/-- Nothing is left of a path in any part of a snapshot. -/
structure Omits (s : Snapshot) (path : Text) : Prop where
  files : path ∉ s.files.keys
  chunks : ∀ c ∈ s.chunks, c.path ≠ path
  symbols : ∀ entry ∈ s.symbols.entries, entry.2.path ≠ path
  references : ∀ entry ∈ s.symbols.entries, path ∉ entry.2.references
  imports : path ∉ s.imports.keys

/-- Every record is that of some content of its path, as the chunkers of settings cut it. -/
def CutBy (settings : Settings) (files : OrderedMap Text FileRecord) : Prop :=
  ∀ entry ∈ files.entries, ∃ content, entry.2 = .ofContent settings.chunkers entry.1 content

/-- The chunks of all files are chunks of records. -/
theorem exists_entry_of_mem_chunksOf {files : OrderedMap Text FileRecord} {c : Chunk}
    (hc : c ∈ chunksOf files) : ∃ entry ∈ files.entries, c ∈ entry.2.chunks := by
  obtain ⟨f, hf, hc⟩ := List.mem_flatMap.mp hc
  obtain ⟨path, hentry⟩ := OrderedMap.mem_values.mp hf
  exact ⟨(path, f), hentry, hc⟩

section CutBy

variable {settings : Settings} {files : OrderedMap Text FileRecord} (h : CutBy settings files)
include h

theorem path_of_cutBy {entry : Text × FileRecord} (hentry : entry ∈ files.entries) :
    entry.2.path = entry.1 := by
  obtain ⟨content, hrecord⟩ := h entry hentry
  rw [hrecord]
  rfl

/-- The chunks of a record are made for the path under which it is kept. -/
theorem madeFor_of_cutBy {entry : Text × FileRecord} (hentry : entry ∈ files.entries)
    {c : Chunk} (hc : c ∈ entry.2.chunks) : c.MadeFor entry.1 := by
  obtain ⟨content, hrecord⟩ := h entry hentry
  rw [hrecord] at hc
  exact FileRecord.madeFor_of_mem_chunks hc

/-- The chunks of all files are made for their paths. -/
theorem madeFor_of_mem_chunksOf {c : Chunk} (hc : c ∈ chunksOf files) : c.MadeFor c.path := by
  obtain ⟨entry, hentry, hc⟩ := exists_entry_of_mem_chunksOf hc
  have hmade := madeFor_of_cutBy h hentry hc
  rwa [hmade.path_eq]

/-- The chunks of all files have paths of records. -/
theorem path_mem_keys_of_cutBy {c : Chunk} (hc : c ∈ chunksOf files) : c.path ∈ files.keys := by
  obtain ⟨entry, hentry, hc⟩ := exists_entry_of_mem_chunksOf hc
  rw [(madeFor_of_cutBy h hentry hc).path_eq]
  exact OrderedMap.mem_keys.mpr ⟨entry.2, hentry⟩

/-- The symbols of all files are those that the chunks of all files declare. -/
theorem symbolsOf_of_cutBy : symbolsOf files = declaredSymbols (chunksOf files) := by
  rw [symbolsOf, chunksOf, declaredSymbols, List.filterMap_flatMap]
  refine List.flatMap_congr fun f hf => ?_
  obtain ⟨path, hentry⟩ := OrderedMap.mem_values.mp hf
  obtain ⟨content, hrecord : f = _⟩ := h _ hentry
  rw [hrecord]
  rfl

/-- The symbols of all files have paths of records, and only other files refer to them. -/
theorem symbol_paths_of_cutBy {entry : Text × Symbol}
    (hentry : entry ∈ (SymbolTable.build (symbolsOf files) (chunksOf files)).entries) :
    entry.2.path ∈ files.keys ∧
      ∀ path ∈ entry.2.references, path ∈ files.keys ∧ path ≠ entry.2.path := by
  obtain ⟨s, hs, hsymbol⟩ := SymbolTable.exists_of_mem_build hentry
  rw [hsymbol]
  constructor
  · rw [symbolsOf_of_cutBy h] at hs
    obtain ⟨c, hc, hdeclared⟩ := List.mem_filterMap.mp hs
    show s.path ∈ files.keys
    rw [(Chunk.of_symbol?_eq_some hdeclared).1]
    exact path_mem_keys_of_cutBy h hc
  · intro path hpath
    obtain ⟨hother, c, hc, rfl⟩ := SymbolTable.exists_of_mem_mentions hpath
    exact ⟨path_mem_keys_of_cutBy h hc, hother⟩

/-- The graph of imports has the paths and the imported modules of the records in their order. -/
theorem entries_importsOf_of_cutBy : (importsOf files).entries =
    files.entries.map fun entry => (entry.1, importedModules entry.2.chunks) := by
  rw [importsOf_eq_mapValues fun _ hentry => path_of_cutBy h hentry, OrderedMap.entries_mapValues]

/-- The graph of imports has the paths of the records in their order. -/
theorem keys_importsOf_of_cutBy : (importsOf files).keys = files.keys := by
  rw [OrderedMap.keys, entries_importsOf_of_cutBy h, List.map_map]
  rfl

/-- The parts of a snapshot agree that is computed from such records. -/
theorem agrees_ofFiles (version : Nat) : (ofFiles files version).Agrees where
  nodup_files := files.nodup_keys
  path_eq _ hentry := path_of_cutBy h hentry
  chunks_eq := by simp [ofFiles, TermIndex.bind, chunksOf, Function.comp_def]
  chunk_path f hf c hc := by
    obtain ⟨path, hentry⟩ := OrderedMap.mem_values.mp hf
    rw [(madeFor_of_cutBy h hentry hc).path_eq]
    exact (path_of_cutBy h hentry).symm
  vector_length c hc := by
    obtain ⟨d, -, rfl⟩ := List.mem_map.mp hc
    simp [ofFiles, TermIndex.project, TermIndex.weights, TermIndex.vocabulary, OrderedMap.keys]
  vector_eq c hc := by
    obtain ⟨d, -, rfl⟩ := List.mem_map.mp hc
    rfl
  mem_symbols key := by
    show key ∈ (SymbolTable.build (symbolsOf files) (chunksOf files)).keys ↔ _
    rw [SymbolTable.mem_keys_build, symbolsOf_of_cutBy h, exists_key_mem_declaredSymbols]
    simp [ofFiles, TermIndex.bind]
  references _ hentry := (symbol_paths_of_cutBy h hentry).2
  keys_imports := keys_importsOf_of_cutBy h
  root_eq _ := rfl

/-- A snapshot that is computed from such records omits all other paths. -/
theorem omits_ofFiles (version : Nat) {path : Text} (hpath : path ∉ files.keys) :
    (ofFiles files version).Omits path where
  files := hpath
  chunks c hc hc' := by
    obtain ⟨d, hd, rfl⟩ := List.mem_map.mp hc
    exact hpath (hc' ▸ path_mem_keys_of_cutBy h hd)
  symbols _ hentry hentry' := hpath (hentry' ▸ (symbol_paths_of_cutBy h hentry).1)
  references _ hentry hentry' := hpath ((symbol_paths_of_cutBy h hentry).2 path hentry').1
  imports hmem := by
    rw [show (ofFiles files version).imports = importsOf files from rfl,
      keys_importsOf_of_cutBy h] at hmem
    exact hpath hmem

end CutBy

/-- The parts of the snapshot before the first version agree. -/
theorem agrees_empty : ({} : Snapshot).Agrees := by
  constructor <;> simp [OrderedMap.keys, OrderedMap.values]

/-- The snapshot before the first version omits every path. -/
theorem omits_empty (path : Text) : ({} : Snapshot).Omits path := by
  constructor <;> simp [OrderedMap.keys]

end Snapshot

/-! ## Reachable states -/

namespace Indexer

/-- Nothing was published, or what was published is computed from the records. -/
def Published (x : Indexer) : Prop :=
  x.snapshot = {} ∨ x.snapshot = .ofFiles x.snapshot.files x.snapshot.version

/-- A call publishes a snapshot that is computed from its records, or nothing. -/
theorem published_index {x : Indexer} (h : x.Published) (files : List ProjectEntry) :
    (x.index files).1.Published := by
  cases hskip : x.skips files with
  | true => rwa [index_of_skips hskip]
  | false =>
    rw [Published, snapshot_index_of_not_skips hskip]
    exact .inr rfl

/-- After a run, nothing was published or what was published is computed from the records. -/
theorem published_run (settings : Settings) (chunkers : Chunkers)
    (projects : List (List ProjectEntry)) : ((fresh settings chunkers).run projects).Published :=
  run_induction (motive := fun x _ => x.Published) (fun _ _ files h => published_index h files)
    (fresh settings chunkers) [] projects (.inl rfl)

/-- The records after a run were cut by the chunkers of the settings. -/
theorem cutBy_run (settings : Settings) (projects : List (List ProjectEntry)) :
    Snapshot.CutBy settings ((fresh settings settings.chunkers).run projects).snapshot.files := by
  intro entry hentry
  obtain ⟨f, -, -, hpath, hrecord⟩ :=
    recordsFrom_run (recordsFrom_fresh settings settings.chunkers) projects entry hentry
  exact ⟨f.content, hpath ▸ hrecord⟩

/-- All parts of a snapshot agree in every reachable state: after any run of an indexer with the
chunkers of its settings. A path that was not indexable in the last project that was not skipped is
left in none of them. -/
theorem agrees_run (settings : Settings) (projects : List (List ProjectEntry)) :
    let start := fresh settings settings.chunkers
    let x := start.run projects
    x.snapshot.Agrees ∧
      ∀ path, (∀ f ∈ start.shownAfter [] projects, f.isIndexable → f.path ≠ path) →
        x.snapshot.Omits path := by
  intro start x
  have hcut : Snapshot.CutBy settings x.snapshot.files := cutBy_run settings projects
  have hpublished : x.Published :=
    run_induction (motive := fun x _ => x.Published) (fun _ _ files h => published_index h files)
      start [] projects (.inl rfl)
  -- the records have the paths of the project that is shown
  have hkeys : x.snapshot.files.keys = (Project.contents (start.shownAfter [] projects)).keys := by
    have hshown := congrArg OrderedMap.keys (shows_run settings settings.chunkers projects).1
    rwa [Snapshot.fingerprints, Project.fingerprints, OrderedMap.keys_mapValues,
      OrderedMap.keys_mapValues] at hshown
  rcases hpublished with hempty | hfiles
  · rw [hempty]
    exact ⟨Snapshot.agrees_empty, fun path _ => Snapshot.omits_empty path⟩
  · rw [hfiles]
    refine ⟨Snapshot.agrees_ofFiles hcut _, fun path hpath => Snapshot.omits_ofFiles hcut _ ?_⟩
    rw [hkeys, Project.mem_keys_contents]
    rintro ⟨f, hf, hindex, hsame⟩
    exact hpath f hf hindex hsame

end Indexer

end SourceIndex
