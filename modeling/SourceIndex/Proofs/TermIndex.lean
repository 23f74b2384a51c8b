import SourceIndex.Term.Index
import SourceIndex.Proofs.OrderedMap

/-!
# What a term index counts

The frequency of a term is the number of chunks that hold it, so it lies between one and the number of
chunks. The documents are the chunks by their identifiers; without two chunks that share one, there are
as many documents as chunks and each document has the terms of its own chunk.
-/

namespace SourceIndex

namespace TermIndex

/-! ## Documents -/

/-- The index of chunks is that of the documents which they are, whatever was indexed before. -/
theorem ofChunks_eq_rebuild (previous : TermIndex) (chunks : List Chunk) :
    ofChunks chunks = previous.rebuild (chunks.map fun c => (c.id, c.terms)) := by
  -- adding a chunk does one step of each of the two folds
  have hadd : ∀ index : TermIndex, chunks.foldl add index =
      { frequencies := chunks.foldl (fun m c => countTerms m c.terms) index.frequencies
        documents := chunks.foldl (fun m c => m.insert c.id c.terms) index.documents } := by
    intro index
    induction chunks generalizing index with
    | nil => rfl
    | cons c rest ih => exact ih (index.add c)
  rw [rebuild, OrderedMap.ofList, List.foldl_map, List.foldl_map]
  exact hadd {}

/-- The documents are the terms of the chunks by their identifiers. -/
theorem documents_ofChunks (chunks : List Chunk) :
    (ofChunks chunks).documents = .ofList (chunks.map fun c => (c.id, c.terms)) := by
  rw [ofChunks_eq_rebuild {}]
  rfl

/-- The identifiers of the documents are those of the chunks. -/
theorem keys_documents (chunks : List Chunk) :
    (ofChunks chunks).documents.keys = (chunks.map Chunk.id).eraseDups := by
  rw [documents_ofChunks, OrderedMap.keys_ofList, List.map_map]
  rfl

section DistinctIds

variable {chunks : List Chunk} (h : (chunks.map Chunk.id).Nodup)
include h

/-- Without two chunks that share an identifier, the documents are the chunks in their order. -/
theorem entries_documents :
    (ofChunks chunks).documents.entries = chunks.map fun c => (c.id, c.terms) := by
  rw [documents_ofChunks, OrderedMap.entries_ofList]
  rwa [List.map_map]

/-- Without two chunks that share an identifier, there are as many documents as chunks. -/
theorem size_documents : (ofChunks chunks).documents.size = chunks.length := by
  unfold OrderedMap.size
  rw [entries_documents h, List.length_map]

/-- Without two chunks that share an identifier, the document of a chunk has its terms. -/
theorem termsOf_id {c : Chunk} (hc : c ∈ chunks) : (ofChunks chunks).termsOf c.id = c.terms := by
  have hentry : (c.id, c.terms) ∈ (ofChunks chunks).documents.entries := by
    rw [entries_documents h]
    exact List.mem_map.mpr ⟨c, hc, rfl⟩
  unfold termsOf
  rw [OrderedMap.get?_eq_some_iff.mpr hentry, Option.getD_some]

end DistinctIds

/-! ## Frequencies -/

/-- Counting distinct terms adds one to each of them. -/
theorem get?_foldl_count {terms : List Text} (h : terms.Nodup) (m : OrderedMap Text Nat)
    (term : Text) :
    (terms.foldl (fun m t => m.alter t fun n => n.getD 0 + 1) m).get? term =
      if term ∈ terms then some ((m.get? term).getD 0 + 1) else m.get? term := by
  induction terms generalizing m with
  | nil => rfl
  | cons t rest ih =>
    obtain ⟨hnew, hrest⟩ := List.nodup_cons.mp h
    rw [List.foldl_cons, ih hrest, OrderedMap.get?_alter]
    by_cases hterm : term = t
    · subst hterm
      rw [if_neg hnew, if_pos rfl, if_pos List.mem_cons_self]
    · rw [if_neg hterm]
      simp [hterm]

/-- A chunk is counted once for each of its terms. -/
theorem get?_countTerms (m : OrderedMap Text Nat) (terms : List Text) (term : Text) :
    (countTerms m terms).get? term =
      if term ∈ terms then some ((m.get? term).getD 0 + 1) else m.get? term := by
  unfold countTerms
  rw [get?_foldl_count (OrderedMap.nodup_eraseDups terms)]
  simp only [List.mem_eraseDups]

/-- One more document is counted on top of the others. -/
theorem frequencies_rebuild_append_singleton (previous : TermIndex)
    (documents : List (Text × List Text)) (document : Text × List Text) :
    (previous.rebuild (documents ++ [document])).frequencies =
      countTerms (previous.rebuild documents).frequencies document.2 := by
  rw [rebuild, List.foldl_append]
  rfl

/-- The frequency of a term is the number of documents that hold it, and a term that no document holds
has none. -/
theorem get?_frequencies_rebuild (previous : TermIndex) (documents : List (Text × List Text))
    (term : Text) :
    (previous.rebuild documents).frequencies.get? term =
      let n := documents.countP fun document => term ∈ document.2
      if n = 0 then none else some n := by
  induction documents using List.reverseRecOn with
  | nil => rfl
  | append_singleton documents document ih =>
    rw [frequencies_rebuild_append_singleton, get?_countTerms, ih, List.countP_append,
      List.countP_singleton]
    generalize (documents.countP fun document => term ∈ document.2) = n
    by_cases hterm : term ∈ document.2
    · by_cases hnone : n = 0
      · simp [hterm, hnone]
      · simp [hterm, hnone]
    · simp [hterm]

/-- The frequency of a term is the number of chunks that hold it, and a term that no chunk holds has
none. -/
theorem get?_frequencies (chunks : List Chunk) (term : Text) :
    (ofChunks chunks).frequencies.get? term =
      let n := chunks.countP fun c => term ∈ c.terms
      if n = 0 then none else some n := by
  rw [ofChunks_eq_rebuild {}, get?_frequencies_rebuild, List.countP_map]
  rfl

/-- The terms of the vocabulary are those with a frequency. -/
theorem mem_vocabulary_iff {index : TermIndex} {term : Text} :
    term ∈ index.vocabulary ↔ index.frequencies.get? term ≠ none := by
  unfold vocabulary
  rw [ne_eq, OrderedMap.get?_eq_none_iff, not_not]

/-- The frequency of a term of the vocabulary is the number of chunks that hold it, at least one and at
most the number of chunks. -/
theorem frequency_bounds {chunks : List Chunk} {term : Text} {n : Nat}
    (h : (term, n) ∈ (ofChunks chunks).frequencies.entries) :
    n = (chunks.countP fun c => term ∈ c.terms) ∧ 1 ≤ n ∧ n ≤ chunks.length := by
  have hget := OrderedMap.get?_eq_some_iff.mpr h
  rw [get?_frequencies] at hget
  by_cases hnone : (chunks.countP fun c => term ∈ c.terms) = 0
  · simp [hnone] at hget
  · have hn : (chunks.countP fun c => term ∈ c.terms) = n := by simpa [hnone] using hget
    subst hn
    exact ⟨rfl, Nat.one_le_iff_ne_zero.mpr hnone, List.countP_le_length⟩

/-! ## Chunks with their vectors -/

/-- Binding chunks to an index only adds their vectors. -/
@[simp]
theorem map_toChunk_bind (index : TermIndex) (chunks : List Chunk) :
    (index.bind chunks).map (·.toChunk) = chunks := by
  unfold bind
  rw [List.map_map]
  exact List.map_id chunks

/-- Binding chunks to an index changes no number of chunks with a property. -/
theorem countP_bind (index : TermIndex) (chunks : List Chunk) (p : Chunk → Bool) :
    ((index.bind chunks).countP fun c => p c.toChunk) = chunks.countP p := by
  have hcount := List.countP_map (p := p) (f := IndexedChunk.toChunk) (l := index.bind chunks)
  rw [map_toChunk_bind] at hcount
  exact hcount.symm

end TermIndex

end SourceIndex
