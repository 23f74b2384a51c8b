import SourceIndex.Proofs.Identifiers

/-!
# The order in which files are supplied

Records, frequencies and the graph of imports do not depend on the order of the files. A symbol table
keeps the last declaration of a key, but if no path has a colon, all declarations of a key come from one
file, and the chunks of one file keep their order. So two new indexers to which the same files are
supplied in different orders know the same, up to the orders of their lists.
-/

namespace SourceIndex

namespace Snapshot

/-- Two snapshots know the same, up to the orders of their lists and to vectors. -/
structure SameUpToOrder (s t : Snapshot) : Prop where
  files : ∀ path, s.files.get? path = t.files.get? path
  chunksAt : ∀ path, (s.chunksAt path).map (·.toChunk) = (t.chunksAt path).map (·.toChunk)
  length_chunks : s.chunks.length = t.chunks.length
  size_symbols : s.symbols.size = t.symbols.size
  mem_vocabulary : ∀ term, term ∈ s.terms.vocabulary ↔ term ∈ t.terms.vocabulary
  frequencies : ∀ term, s.terms.frequencies.get? term = t.terms.frequencies.get? term
  size_documents : s.terms.documents.size = t.terms.documents.size
  weight : ∀ term, s.terms.weight term = t.terms.weight term
  mem_symbols : ∀ key, key ∈ s.symbols.keys ↔ key ∈ t.symbols.keys
  symbols : ∀ key a b, s.symbols.get? key = some a → t.symbols.get? key = some b →
    a.references.Perm b.references ∧ a = { b with references := a.references }
  imports : ∀ path, s.imports.get? path = t.imports.get? path

end Snapshot

/-! ## Terms and symbols -/

namespace TermIndex

/-- The frequencies do not depend on the order of the chunks. -/
theorem get?_frequencies_of_perm {chunks chunks' : List Chunk} (h : chunks.Perm chunks')
    (term : Text) :
    (ofChunks chunks).frequencies.get? term = (ofChunks chunks').frequencies.get? term := by
  rw [get?_frequencies, get?_frequencies, h.countP_eq]

/-- The number of documents does not depend on the order of the chunks. -/
theorem size_documents_of_perm {chunks chunks' : List Chunk} (h : chunks.Perm chunks') :
    (ofChunks chunks).documents.size = (ofChunks chunks').documents.size := by
  have hkeys := OrderedMap.perm_eraseDups (h.map Chunk.id)
  rw [← keys_documents, ← keys_documents] at hkeys
  rw [← OrderedMap.length_keys, ← OrderedMap.length_keys]
  exact hkeys.length_eq

/-- The weights do not depend on the order of the chunks. -/
theorem weight_of_perm {chunks chunks' : List Chunk} (h : chunks.Perm chunks') (term : Text) :
    (ofChunks chunks).weight term = (ofChunks chunks').weight term := by
  unfold weight
  rw [get?_frequencies_of_perm h, size_documents_of_perm h]

end TermIndex

/-- The files that mention a symbol do not depend on the order of the chunks, up to their own order. -/
theorem SymbolTable.mentions_perm {chunks chunks' : List Chunk} (h : chunks.Perm chunks')
    (s : Symbol) : (mentions chunks s).Perm (mentions chunks' s) := by
  unfold mentions
  exact OrderedMap.perm_eraseDups ((h.filter _).map _)

/-! ## Snapshots of the same records -/

namespace Snapshot

/-- The records of contents are cut by the chunkers that made them. -/
theorem cutBy_mapValues (settings : Settings) (contents : OrderedMap Text Text) :
    CutBy settings (contents.mapValues (.ofContent settings.chunkers)) := by
  intro entry hentry
  obtain ⟨⟨path, content⟩, -, rfl⟩ := List.mem_map.mp hentry
  exact ⟨content, rfl⟩

/-- The published chunks of a path, without their vectors, are its chunks. -/
theorem map_chunksAt_ofFiles (files : OrderedMap Text FileRecord) (version : Nat) (path : Text) :
    ((ofFiles files version).chunksAt path).map (·.toChunk) =
      (chunksOf files).filter fun c => c.path == path := by
  have hfilter := List.filter_map (p := fun c => c.path == path) (f := IndexedChunk.toChunk)
    (l := (ofFiles files version).chunks)
  rw [ofFiles, TermIndex.map_toChunk_bind] at hfilter
  exact hfilter.symm

/-- There are as many published chunks as chunks. -/
theorem length_chunks_ofFiles (files : OrderedMap Text FileRecord) (version : Nat) :
    (ofFiles files version).chunks.length = (chunksOf files).length := by
  have hlength := congrArg List.length
    (TermIndex.map_toChunk_bind (.ofChunks (chunksOf files)) (chunksOf files))
  rwa [List.length_map] at hlength

section CutBy

variable {settings : Settings} {files : OrderedMap Text FileRecord} (h : CutBy settings files)
include h

/-- The chunks of a path are those of its record. -/
theorem filter_chunksOf_of_cutBy (path : Text) :
    (chunksOf files).filter (fun c => c.path == path) =
      (((files.get? path).map (·.chunks)).getD []).filter fun c => c.path == path := by
  unfold chunksOf
  apply OrderedMap.filter_flatMap_values
  intro entry hentry c hc hpath
  rw [← (madeFor_of_cutBy h hentry hc).path_eq]
  exact beq_iff_eq.mp hpath

/-- The published chunks of a file, without their vectors, are those of its record. -/
theorem chunksAt_of_cutBy (version : Nat) {entry : Text × FileRecord}
    (hentry : entry ∈ files.entries) :
    ((ofFiles files version).chunksAt entry.1).map (·.toChunk) = entry.2.chunks := by
  rw [map_chunksAt_ofFiles, filter_chunksOf_of_cutBy h,
    OrderedMap.get?_eq_some_iff.mpr (show (entry.1, entry.2) ∈ files.entries from hentry)]
  exact List.filter_eq_self.mpr fun c hc => beq_iff_eq.mpr (madeFor_of_cutBy h hentry hc).path_eq

/-- If no path has a colon, the symbols of a key are those of the record of the path in front of its
first colon. -/
theorem filter_symbolsOf_of_cutBy (hcolon : ∀ path ∈ files.keys, ':' ∉ path) (key : Text) :
    (symbolsOf files).filter (fun s => s.key = key) =
      (((files.get? (key.takeWhile (· != ':'))).map (·.symbols)).getD []).filter
        fun s => s.key = key := by
  unfold symbolsOf
  apply OrderedMap.filter_flatMap_values
  intro entry hentry s hs hkey
  obtain ⟨content, hrecord⟩ := h entry hentry
  have hdeclared : s ∈ declaredSymbols entry.2.chunks := by
    rw [hrecord] at hs ⊢
    exact hs
  obtain ⟨c, hc, hsymbol⟩ := List.mem_filterMap.mp hdeclared
  have hpath : s.path = entry.1 := by
    rw [(Chunk.of_symbol?_eq_some hsymbol).1]
    exact (madeFor_of_cutBy h hentry hc).path_eq
  rw [← of_decide_eq_true hkey, Symbol.key, hpath, Text.takeWhile_append_colon]
  exact hcolon _ (OrderedMap.mem_keys.mpr ⟨entry.2, hentry⟩)

end CutBy

section Perm

variable {settings : Settings} {files files' : OrderedMap Text FileRecord}
  (hperm : files.entries.Perm files'.entries)
include hperm

/-- The chunks of the same records are the same up to order. -/
theorem chunksOf_perm : (chunksOf files).Perm (chunksOf files') := by
  unfold chunksOf OrderedMap.values
  exact (hperm.map Prod.snd).flatMap_right _

/-- The symbols of the same records are the same up to order. -/
theorem symbolsOf_perm : (symbolsOf files).Perm (symbolsOf files') := by
  unfold symbolsOf OrderedMap.values
  exact (hperm.map Prod.snd).flatMap_right _

/-- The symbol tables of the same records have the same keys up to order. -/
theorem keys_symbols_perm (version : Nat) :
    (ofFiles files version).symbols.keys.Perm (ofFiles files' version).symbols.keys := by
  unfold ofFiles
  dsimp only
  rw [SymbolTable.keys_build, SymbolTable.keys_build]
  exact OrderedMap.perm_eraseDups ((symbolsOf_perm hperm).map Symbol.key)

/-- Snapshots of the same records without colons in their paths know the same. -/
theorem sameUpToOrder_ofFiles (h : CutBy settings files) (h' : CutBy settings files')
    (hcolon : ∀ path ∈ files.keys, ':' ∉ path) (version : Nat) :
    (ofFiles files version).SameUpToOrder (ofFiles files' version) := by
  have hchunks := chunksOf_perm hperm
  have hkeys := keys_symbols_perm hperm version
  have hcolon' : ∀ path ∈ files'.keys, ':' ∉ path := by
    intro path hpath
    exact hcolon path ((hperm.map Prod.fst).mem_iff.mpr hpath)
  constructor
  case files => exact fun path => OrderedMap.get?_eq_of_perm hperm path
  case chunksAt =>
    intro path
    rw [map_chunksAt_ofFiles, map_chunksAt_ofFiles, filter_chunksOf_of_cutBy h,
      filter_chunksOf_of_cutBy h', OrderedMap.get?_eq_of_perm hperm]
  case length_chunks =>
    rw [length_chunks_ofFiles, length_chunks_ofFiles]
    exact hchunks.length_eq
  case size_symbols =>
    rw [← OrderedMap.length_keys, ← OrderedMap.length_keys]
    exact hkeys.length_eq
  case mem_vocabulary =>
    intro term
    rw [TermIndex.mem_vocabulary_iff, TermIndex.mem_vocabulary_iff]
    exact not_congr (iff_of_eq (congrArg (· = none) (TermIndex.get?_frequencies_of_perm hchunks term)))
  case frequencies => exact fun term => TermIndex.get?_frequencies_of_perm hchunks term
  case size_documents => exact TermIndex.size_documents_of_perm hchunks
  case weight => exact fun term => TermIndex.weight_of_perm hchunks term
  case mem_symbols => exact fun key => hkeys.mem_iff
  case symbols =>
    intro key a b ha hb
    -- both tables keep the last of the same symbols
    have hsame : (symbolsOf files).filter (fun s => s.key = key) =
        (symbolsOf files').filter fun s => s.key = key := by
      rw [filter_symbolsOf_of_cutBy h hcolon, filter_symbolsOf_of_cutBy h' hcolon',
        OrderedMap.get?_eq_of_perm hperm]
    change (SymbolTable.build _ _).get? key = some a at ha
    change (SymbolTable.build _ _).get? key = some b at hb
    rw [SymbolTable.get?_build] at ha hb
    obtain ⟨last, hlast, rfl⟩ := Option.map_eq_some_iff.mp ha
    obtain ⟨last', hlast', rfl⟩ := Option.map_eq_some_iff.mp hb
    rw [← hsame, hlast] at hlast'
    cases hlast'
    exact ⟨SymbolTable.mentions_perm hchunks last, rfl⟩
  case imports =>
    intro path
    apply OrderedMap.get?_eq_of_perm
    show (importsOf files).entries.Perm (importsOf files').entries
    rw [entries_importsOf_of_cutBy h, entries_importsOf_of_cutBy h']
    exact hperm.map _

end Perm

end Snapshot

/-! ## New indexers -/

namespace Indexer

/-- The first call publishes the records of the contents of its project. -/
theorem snapshot_index_fresh (settings : Settings) (chunkers : Chunkers)
    (files : List ProjectEntry) :
    ((fresh settings chunkers).index files).1.snapshot =
      .ofFiles ((Project.contents files).mapValues (.ofContent chunkers)) 1 := by
  rw [snapshot_index_of_not_skips (not_skips_of_root_eq_nil rfl files)]
  rfl

/-- The order in which files are supplied does not matter. If a project has no two entries with one path
and no path with a colon, new indexers with the chunkers of their settings know the same of it, whatever
the order of its entries. -/
theorem sameUpToOrder_of_perm (settings : Settings) {files files' : List ProjectEntry}
    (hperm : files.Perm files') (hdistinct : (files.map (·.path)).Nodup)
    (hcolon : ∀ f ∈ files, ':' ∉ f.path) :
    let start := fresh settings settings.chunkers
    (start.index files).1.snapshot.SameUpToOrder (start.index files').1.snapshot := by
  intro start
  have hdistinct' : (files'.map (·.path)).Nodup := (hperm.map _).nodup_iff.mp hdistinct
  have hcontents : (Project.contents files).entries.Perm (Project.contents files').entries := by
    rw [Project.entries_contents hdistinct, Project.entries_contents hdistinct']
    exact (hperm.filter _).map _
  rw [snapshot_index_fresh, snapshot_index_fresh]
  apply Snapshot.sameUpToOrder_ofFiles _ (Snapshot.cutBy_mapValues _ _)
    (Snapshot.cutBy_mapValues _ _)
  · intro path hpath
    rw [OrderedMap.keys_mapValues, Project.mem_keys_contents] at hpath
    obtain ⟨f, hf, -, rfl⟩ := hpath
    exact hcolon f hf
  · exact hcontents.map _

/-- Two scripts that mention the constants of one another, and a stylesheet, in two orders. -/
theorem sameUpToOrder_of_perm_of_scripts :
    let a : ProjectEntry := { path := "a.ts".toList, content := "const box = [pen]".toList }
    let b : ProjectEntry := { path := "b.ts".toList, content := "const pen = [box]".toList }
    let c : ProjectEntry := { path := "c.css".toList, content := ":root {}".toList }
    let start := fresh {} ({} : Settings).chunkers
    [a, b, c].Perm [c, b, a] ∧ ([a, b, c].map (·.path)).Nodup ∧
      (∀ f ∈ [a, b, c], ':' ∉ f.path) ∧
      (start.index [a, b, c]).1.snapshot.SameUpToOrder (start.index [c, b, a]).1.snapshot := by
  intro a b c start
  have hperm : [a, b, c].Perm [c, b, a] := by decide +kernel
  have hdistinct : ([a, b, c].map (·.path)).Nodup := by decide +kernel
  have hcolon : ∀ f ∈ [a, b, c], ':' ∉ f.path := by decide +kernel
  exact ⟨hperm, hdistinct, hcolon, sameUpToOrder_of_perm {} hperm hdistinct hcolon⟩

end Indexer

end SourceIndex
