import SourceIndex.Proofs.Agreement
import SourceIndex.Proofs.Contract
import SourceIndex.Proofs.Isolation
import SourceIndex.Proofs.TermIndex
import Mathlib.Algebra.Order.Field.Basic
import Mathlib.Algebra.Order.Field.Rat
import Mathlib.Tactic.Positivity

/-!
# Identifiers are unique

The contract keeps the identifiers of one file apart. The chunkers of settings start each identifier with
the path of the file, so if no path has a colon, the first colon ends it and no two files share an
identifier either. Then every chunk is a document of its own, and no term is in more chunks than there
are documents.
-/

namespace SourceIndex

/-- The chunks in the record of a file have distinct identifiers, also if it is degraded. -/
theorem FileRecord.nodup_ids (chunkers : Chunkers) (path content : Text) :
    ((ofContent chunkers path content).chunks.map Chunk.id).Nodup := by
  by_cases h : ∃ chunks, chunkers.Cuts path content chunks
  · obtain ⟨chunks, hcuts⟩ := h
    rw [ofContent_of_cuts hcuts]
    obtain ⟨-, -, -, hcontract⟩ := hcuts
    exact (contractViolation?_eq_none_iff.mp hcontract).2
  · rw [ofContent_of_not_cuts (not_exists.mp h)]
    exact List.nodup_singleton _

namespace Snapshot

section CutBy

variable {settings : Settings} {files : OrderedMap Text FileRecord} (h : CutBy settings files)
include h

/-- If no path has a colon, the chunks of all files have distinct identifiers. -/
theorem nodup_ids_of_cutBy (hcolon : ∀ path ∈ files.keys, ':' ∉ path) :
    ((chunksOf files).map Chunk.id).Nodup := by
  unfold chunksOf OrderedMap.values
  rw [List.flatMap_map, List.map_flatMap, List.nodup_flatMap]
  constructor
  · intro entry hentry
    obtain ⟨content, hrecord⟩ := h entry hentry
    rw [hrecord]
    exact FileRecord.nodup_ids settings.chunkers entry.1 content
  · have hkeys : files.entries.Pairwise fun a b => a.1 ≠ b.1 := List.pairwise_map.mp files.nodup
    refine hkeys.imp_of_mem ?_
    intro a b ha hb hne id hida hidb
    obtain ⟨c, hc, rfl⟩ := List.mem_map.mp hida
    obtain ⟨d, hd, hid⟩ := List.mem_map.mp hidb
    -- both identifiers have their first colon behind the path
    rw [(madeFor_of_cutBy h ha hc).id_eq, (madeFor_of_cutBy h hb hd).id_eq, Chunk.idOf, Chunk.idOf,
      List.append_assoc, List.append_assoc] at hid
    apply hne
    exact (Text.append_colon_inj (hcolon _ (OrderedMap.mem_keys.mpr ⟨b.2, hb⟩))
      (hcolon _ (OrderedMap.mem_keys.mpr ⟨a.2, ha⟩)) hid).1.symm

end CutBy

end Snapshot

namespace Indexer

/-- The paths of the records after a run are supplied ones. -/
theorem exists_of_mem_keys_run (settings : Settings) (chunkers : Chunkers)
    (projects : List (List ProjectEntry)) {path : Text}
    (h : path ∈ ((fresh settings chunkers).run projects).snapshot.files.keys) :
    ∃ f ∈ projects.flatten, f.path = path := by
  obtain ⟨record, hentry⟩ := OrderedMap.mem_keys.mp h
  obtain ⟨f, hf, -, hpath, -⟩ :=
    recordsFrom_run (recordsFrom_fresh settings chunkers) projects _ hentry
  exact ⟨f, hf, hpath⟩

/-- Identifiers are unique and frequencies are bounded. In every reachable state of an indexer with the
chunkers of its settings, if no supplied path has a colon, no two chunks of the snapshot share an
identifier. So there are as many documents as chunks, the document of a chunk has its terms, and a term
of the vocabulary is in as many chunks as its frequency says, at least one and at most the number of
documents: the quotient of which its weight takes the logarithm is never below one. -/
theorem nodup_ids_run (settings : Settings) {projects : List (List ProjectEntry)}
    (h : ∀ f ∈ projects.flatten, ':' ∉ f.path) :
    let s := ((fresh settings settings.chunkers).run projects).snapshot
    (s.chunks.map (·.id)).Nodup ∧
    s.terms.documents.size = s.chunks.length ∧
    (∀ c ∈ s.chunks, s.terms.termsOf c.id = c.terms) ∧
    ∀ term n, (term, n) ∈ s.terms.frequencies.entries →
      n = (s.chunks.countP fun c => term ∈ c.terms) ∧
      1 ≤ n ∧ n ≤ s.terms.documents.size ∧
      (1 : ℚ) ≤ (s.terms.documents.size + 1) / (n + 1) := by
  intro s
  have hcut : Snapshot.CutBy settings s.files := cutBy_run settings projects
  have hcolon : ∀ path ∈ s.files.keys, ':' ∉ path := by
    intro path hpath
    obtain ⟨f, hf, rfl⟩ := exists_of_mem_keys_run settings settings.chunkers projects hpath
    exact h f hf
  rcases published_run settings settings.chunkers projects with hempty | hfiles
  · rw [show s = {} from hempty]
    simp [OrderedMap.size]
  · have hids := Snapshot.nodup_ids_of_cutBy hcut hcolon
    have hsize := TermIndex.size_documents hids
    rw [show s = .ofFiles s.files s.version from hfiles]
    have hchunks : (Snapshot.ofFiles s.files s.version).chunks.map (·.toChunk) =
        Snapshot.chunksOf s.files := TermIndex.map_toChunk_bind _ _
    refine ⟨?_, ?_, ?_, ?_⟩
    · rw [← hchunks, List.map_map] at hids
      exact hids
    · have hlength := congrArg List.length hchunks
      rw [List.length_map] at hlength
      exact hsize.trans hlength.symm
    · intro c hc
      obtain ⟨d, hd, rfl⟩ := List.mem_map.mp hc
      exact TermIndex.termsOf_id hids hd
    · intro term n hentry
      obtain ⟨hcount, hpos, hle⟩ := TermIndex.frequency_bounds hentry
      have hdocuments : n ≤ (Snapshot.ofFiles s.files s.version).terms.documents.size := by
        rw [← hsize] at hle
        exact hle
      refine ⟨?_, hpos, hdocuments, ?_⟩
      · rw [hcount]
        exact (TermIndex.countP_bind _ _ fun c => decide (term ∈ c.terms)).symm
      · rw [le_div_iff₀ (by positivity), one_mul]
        exact_mod_cast Nat.succ_le_succ hdocuments

/-- A rule set whose name starts with a colon, and a file without a name, which is degraded. -/
theorem nodup_ids_run_of_root_rule :
    let projects : List (List ProjectEntry) :=
      [[{ path := "a.css".toList, content := ":root {}".toList },
        { path := " ".toList, content := "red".toList }]]
    let s := ((fresh {} ({} : Settings).chunkers).run projects).snapshot
    (∀ f ∈ projects.flatten, ':' ∉ f.path) ∧
      s.chunks.map (·.id) = ["a.css::root:0".toList, " : :0".toList] ∧
      (s.chunks.map (·.id)).Nodup ∧ s.terms.documents.size = s.chunks.length := by
  intro projects s
  have h : ∀ f ∈ projects.flatten, ':' ∉ f.path := by decide +kernel
  have hids : s.chunks.map (·.id) = ["a.css::root:0".toList, " : :0".toList] := by decide +kernel
  obtain ⟨hnodup, hsize, -, -⟩ := nodup_ids_run {} h
  exact ⟨h, hids, hnodup, hsize⟩

end Indexer

end SourceIndex
