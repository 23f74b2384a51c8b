import SourceIndex.Proofs.TermIndex

/-!
# The weights of terms and the vectors

An index is built from documents, each an identifier with its terms. The vocabulary lists the terms in
the order in which they were first seen, and the weights and all vectors follow that order. A vector
only depends on how often the terms occur. Chunks are indexed as the documents of their identifiers
and terms, so all this holds of the index of any chunks.
-/

namespace SourceIndex

namespace TermIndex

/-! ## The vocabulary -/

/-- Altering keys one after the other appends the new ones, each at its first place. -/
theorem keys_foldl_alter (f : Option Nat → Nat) (m : OrderedMap Text Nat) (terms : List Text) :
    (terms.foldl (fun m t => m.alter t f) m).keys = (m.keys ++ terms).eraseDups := by
  induction terms using List.reverseRecOn with
  | nil => rw [List.append_nil, OrderedMap.eraseDups_eq_self m.nodup_keys]; rfl
  | append_singleton terms t ih =>
    have hmem : t ∈ (terms.foldl (fun m t => m.alter t f) m).keys ↔ t ∈ m.keys ++ terms := by
      rw [ih, List.mem_eraseDups]
    obtain ⟨hold, hnew⟩ := OrderedMap.keys_alter (terms.foldl (fun m t => m.alter t f) m) t f
    rw [List.foldl_append, List.foldl_cons, List.foldl_nil, ← List.append_assoc,
      OrderedMap.eraseDups_append_singleton]
    split
    · rename_i h
      rw [hold (hmem.mpr h), ih]
    · rename_i h
      rw [hnew (mt hmem.mp h), ih]

/-- Counting a document keeps the terms seen before and appends the new ones. -/
theorem keys_countTerms (m : OrderedMap Text Nat) (terms : List Text) :
    (countTerms m terms).keys = (m.keys ++ terms).eraseDups := by
  rw [countTerms, keys_foldl_alter, ← OrderedMap.eraseDups_append_eraseDups m.keys terms,
    OrderedMap.eraseDups_eq_self m.nodup_keys]

/-- The vocabulary lists the terms of the documents in the order in which they were first seen. -/
theorem vocabulary_rebuild (previous : TermIndex) (documents : List (Text × List Text)) :
    (previous.rebuild documents).vocabulary = (documents.flatMap Prod.snd).eraseDups := by
  induction documents using List.reverseRecOn with
  | nil => rfl
  | append_singleton documents document ih =>
    rw [vocabulary, frequencies_rebuild_append_singleton, keys_countTerms, List.flatMap_append,
      List.flatMap_singleton, ← OrderedMap.eraseDups_append_eraseDups (documents.flatMap Prod.snd),
      ← ih, ← OrderedMap.eraseDups_append_eraseDups (previous.rebuild documents).frequencies.keys,
      OrderedMap.eraseDups_eq_self (OrderedMap.nodup_keys _)]
    rfl

/-! ## Weights -/

/-- The weight of a term of the vocabulary is computed from its frequency. -/
theorem weight_of_mem {index : TermIndex} {term : Text} {n : Nat}
    (h : (term, n) ∈ index.frequencies.entries) :
    index.weight term = termWeight index.documents.size n := by
  rw [weight, OrderedMap.get?_eq_some_iff.mpr h]

/-- The weighted terms are those of the vocabulary, in its order, with their weights. -/
theorem weights_eq (index : TermIndex) :
    index.weights = index.vocabulary.map fun t => (t, index.weight t) := by
  rw [weights, vocabulary, OrderedMap.keys, List.map_map]
  exact List.map_congr_left fun entry hentry => by
    rw [Function.comp_apply, weight_of_mem hentry]

/-! ## Vectors -/

/-- How often the most frequent term of a list occurs in it; one for an empty list. -/
structure IsPeak (terms : List Text) (n : Nat) : Prop where
  of_nil : terms = [] → n = 1
  attained : terms ≠ [] → ∃ t ∈ terms, terms.count t = n
  le : ∀ t ∈ terms, terms.count t ≤ n

/-- The peak count is one, or the greatest count of a term. -/
theorem isPeak_peakCount (terms : List Text) : IsPeak terms (peakCount terms) := by
  have hmax : (1 :: terms.eraseDups.map fun t => terms.count t).max? = some (peakCount terms) :=
    List.max?_cons'
  obtain ⟨hmem, hle⟩ := List.max?_eq_some_iff.mp hmax
  have hcount : ∀ t ∈ terms, terms.count t ≤ peakCount terms := fun t ht =>
    hle _ (List.mem_cons_of_mem _ (List.mem_map.mpr ⟨t, List.mem_eraseDups.mpr ht, rfl⟩))
  constructor
  case of_nil => rintro rfl; rfl
  case le => exact hcount
  case attained =>
    intro hne
    rcases List.mem_cons.mp hmem with hone | hmem
    · -- a peak of one is the count of any term
      obtain ⟨t, ht⟩ := List.exists_mem_of_ne_nil terms hne
      have hpos : 0 < terms.count t := List.count_pos_iff.mpr ht
      have hle := hcount t ht
      exact ⟨t, ht, by omega⟩
    · obtain ⟨t, ht, hpeak⟩ := List.mem_map.mp hmem
      exact ⟨t, List.mem_eraseDups.mp ht, hpeak⟩

/-- The peak count does not depend on the order of the terms. -/
theorem peakCount_of_perm {terms terms' : List Text} (h : terms.Perm terms') :
    peakCount terms = peakCount terms' := by
  have hcount : (fun t => terms.count t) = fun t => terms'.count t := funext h.count_eq
  rw [peakCount, peakCount, hcount]
  exact ((OrderedMap.perm_eraseDups h).map _).foldl_op_eq

/-- The vector of a list of terms has an entry for each term of the vocabulary, in its order. -/
theorem vector_eq (index : TermIndex) (terms : List Text) :
    index.vector terms = index.vocabulary.map fun t =>
      (terms.count t).toFloat / (peakCount terms).toFloat * index.weight t := by
  rw [vector, project, weights_eq, List.map_map]
  rfl

/-- The vector does not depend on the order of the terms. -/
theorem vector_of_perm (index : TermIndex) {terms terms' : List Text} (h : terms.Perm terms') :
    index.vector terms = index.vector terms' := by
  rw [vector_eq, vector_eq, peakCount_of_perm h]
  simp only [h.count_eq]

/-! ## Indexes of documents -/

/-- The index holds what is to be known of a list of documents, each an identifier with its terms.
The vocabulary lists the terms in the order in which they were first seen, and the frequency of a
term is the number of documents that hold it. The terms kept for an identifier are those of its last
document. A vector has one entry for each term of the vocabulary, in its order: the share of its
count in the peak, weighted. It does not depend on the order of the terms. -/
structure IsIndexOf (index : TermIndex) (documents : List (Text × List Text)) : Prop where
  vocabulary : index.vocabulary = (documents.flatMap Prod.snd).eraseDups
  frequencies : ∀ t ∈ index.vocabulary,
    index.frequencies.get? t = some (documents.countP fun document => t ∈ document.2)
  size_documents : index.documents.size = (documents.map Prod.fst).eraseDups.length
  weight_of_mem : ∀ t ∈ index.vocabulary, index.weight t =
    Float.log (((documents.map Prod.fst).eraseDups.length + 1).toFloat /
      ((documents.countP fun document => t ∈ document.2) + 1).toFloat) + 1.0
  weight_of_not_mem : ∀ t, t ∉ index.vocabulary → index.weight t = 0.0
  weights : index.weights = index.vocabulary.map fun t => (t, index.weight t)
  termsOf : ∀ id, index.termsOf id =
    (((documents.filter fun document => document.1 = id).getLast?).map Prod.snd).getD []
  vector : ∀ terms, ∃ peak, IsPeak terms peak ∧ index.vector terms = index.vocabulary.map fun t =>
    (terms.count t).toFloat / peak.toFloat * index.weight t
  vector_of_perm : ∀ terms terms', terms.Perm terms' → index.vector terms = index.vector terms'

section Rebuild

variable (previous : TermIndex) (documents : List (Text × List Text))

/-- The documents of an index are told apart by their identifiers. -/
theorem size_documents_rebuild :
    (previous.rebuild documents).documents.size = (documents.map Prod.fst).eraseDups.length := by
  rw [← OrderedMap.keys_ofList, OrderedMap.length_keys]
  rfl

/-- A term of the vocabulary has as its frequency the number of documents that hold it. -/
theorem frequency_of_mem_vocabulary {t : Text} (h : t ∈ (previous.rebuild documents).vocabulary) :
    (previous.rebuild documents).frequencies.get? t =
      some (documents.countP fun document => t ∈ document.2) := by
  have hsome := mem_vocabulary_iff.mp h
  rw [get?_frequencies_rebuild] at hsome ⊢
  exact if_neg fun hnone => hsome (if_pos hnone)

/-- An index that is built anew holds what is to be known of the documents. -/
theorem isIndexOf_of_rebuild : (previous.rebuild documents).IsIndexOf documents where
  vocabulary := vocabulary_rebuild previous documents
  frequencies _ ht := frequency_of_mem_vocabulary previous documents ht
  size_documents := size_documents_rebuild previous documents
  weight_of_mem t ht := by
    rw [weight, frequency_of_mem_vocabulary previous documents ht, ← size_documents_rebuild previous]
    rfl
  weight_of_not_mem t ht := by
    rw [weight, not_not.mp (mt mem_vocabulary_iff.mpr ht)]
  weights := weights_eq _
  termsOf id := congrArg (·.getD []) (OrderedMap.get?_ofList documents id)
  vector terms := ⟨peakCount terms, isPeak_peakCount terms, vector_eq _ terms⟩
  vector_of_perm _ _ h := vector_of_perm _ h

end Rebuild

/-- Building an index leaves what is to be known of the documents and nothing of what it held before.
The index of chunks is built from the documents of their identifiers and terms, and the chunks that are
bound to it have the vectors of their terms. -/
theorem isIndexOf_rebuild (previous : TermIndex) :
    (∀ documents, (previous.rebuild documents).IsIndexOf documents) ∧
    ∀ chunks, ofChunks chunks = previous.rebuild (chunks.map fun c => (c.id, c.terms)) ∧
      ((ofChunks chunks).bind chunks).map (·.vector) =
        chunks.map fun c => (ofChunks chunks).vector c.terms := by
  refine ⟨isIndexOf_of_rebuild previous, fun chunks => ⟨ofChunks_eq_rebuild previous chunks, ?_⟩⟩
  rw [bind, List.map_map]
  rfl

end TermIndex

end SourceIndex
