import SourceIndex.Proofs.Run

/-!
# Changes that a refresh misses

A refresh is skipped if the root of the new fingerprints is the root of the snapshot. The root sees
neither paths nor the number of files, so some changes are missed although no two texts that were
hashed have one fingerprint: `missed_changes` shows one of each kind. There are no others:
`fingerprints_of_skips` says that a skipped project of as many files has the same fingerprints in the
same order, and lists what a skipped project of another number of files can be.
-/

namespace SourceIndex

open Fingerprint

namespace Project

/-- The texts that are hashed for the root of a project: the contents of its indexable entries, and
what the fold of their fingerprints joins. -/
def hashedTexts (files : List ProjectEntry) : List Text :=
  (files.filter (·.isIndexable)).map (·.content) ++ foldedTexts (fingerprints files).values

/-- If fingerprints do not collide, an entry that is the fingerprint of a joined text belongs to a
file with that text. -/
theorem exists_content_of_isJoined {files : List ProjectEntry} {all texts : List Text}
    (hfree : CollisionFree all) (hfiles : hashedTexts files ⊆ all) (htexts : texts ⊆ all)
    (h : IsJoined (fingerprints files).values texts) :
    ∃ f ∈ files, f.isIndexable ∧ f.content ∈ texts := by
  obtain ⟨a, ha, s, hs, hash⟩ := h
  rw [values_fingerprints] at ha
  obtain ⟨content, hcontent, rfl⟩ := List.mem_map.mp ha
  obtain ⟨path, hentry⟩ := OrderedMap.mem_values.mp hcontent
  obtain ⟨f, hf, hindex, -, rfl⟩ := exists_of_mem_contents hentry
  refine ⟨f, hf, hindex, ?_⟩
  have hmem : f.content ∈ hashedTexts files :=
    List.mem_append_left _ (List.mem_map_of_mem (List.mem_filter.mpr ⟨hf, hindex⟩))
  rwa [hfree _ (hfiles hmem) _ (htexts hs) hash]

end Project

namespace Indexer

/-- No change is missed but for what the root does not see. If no two texts hashed for the stored and
for the new root have one fingerprint, a project is skipped only if its fingerprints are the stored
ones in the same order, paths apart, or if it has another number of files and
* one of the two has no files, and the root of the other is that of the empty list, or
* the two lists of fingerprints have one tree, since the longer one repeats entries of the other
  where the fold does, or
* a content on one side is what the fold of the other side joins: two fingerprints. -/
theorem fingerprints_of_skips {settings : Settings} {chunkers : Chunkers}
    {earlier : List (List ProjectEntry)} {files : List ProjectEntry}
    (hfree : CollisionFree
      (Project.hashedTexts ((fresh settings chunkers).shownAfter [] earlier) ++
        Project.hashedTexts files))
    (hskip : ((fresh settings chunkers).run earlier).skips files = true) :
    let shown := (fresh settings chunkers).shownAfter [] earlier
    let stored := ((fresh settings chunkers).run earlier).snapshot.fingerprints.values
    let current := (Project.fingerprints files).values
    (stored.length = current.length → stored = current) ∧
      (stored = [] ∧ root current = emptyRoot ∨ current = [] ∧ root stored = emptyRoot ∨
        foldTree? stored = foldTree? current ∧ (Repeats stored current ∨ Repeats current stored) ∨
        (∃ f ∈ shown, f.isIndexable ∧ f.content ∈ foldedTexts current) ∨
        (∃ f ∈ files, f.isIndexable ∧ f.content ∈ foldedTexts stored)) := by
  intro shown stored current
  have hshows := shows_run settings chunkers earlier
  have hstored : stored = (Project.fingerprints shown).values := congrArg OrderedMap.values hshows.1
  have hroot : root stored = root current := hstored ▸ root_eq_of_skips hshows hskip
  -- the root of the empty list is no fingerprint of anything, so empty lists stand apart
  by_cases hnil : stored = []
  · exact ⟨fun hlen => by rw [hnil] at hlen ⊢; exact (List.eq_nil_of_length_eq_zero hlen.symm).symm,
      .inl ⟨hnil, by rw [← hroot, hnil, root]⟩⟩
  by_cases hnil' : current = []
  · exact ⟨fun hlen => by rw [hnil'] at hlen ⊢; exact List.eq_nil_of_length_eq_zero hlen,
      .inr (.inl ⟨hnil', by rw [hroot, hnil', root]⟩)⟩
  have hshownTexts : Project.hashedTexts shown ⊆
      Project.hashedTexts shown ++ Project.hashedTexts files := List.subset_append_left _ _
  have hfilesTexts : Project.hashedTexts files ⊆
      Project.hashedTexts shown ++ Project.hashedTexts files := List.subset_append_right _ _
  have hshownFold := List.Subset.trans (List.subset_append_right _ _) hshownTexts
  have hfilesFold := List.Subset.trans (List.subset_append_right _ _) hfilesTexts
  rw [hstored] at hnil hroot ⊢
  obtain ⟨heq, hcases⟩ := eq_or_repeats_of_root_eq hfree hshownFold hfilesFold
    (fun _ ha => Project.length_of_mem_fingerprints ha)
    (fun _ ha => Project.length_of_mem_fingerprints ha) hnil hnil' hroot
  refine ⟨heq, .inr (.inr (hcases.imp_right (Or.imp ?_ ?_)))⟩
  · exact Project.exists_content_of_isJoined hfree hshownTexts hfilesFold
  · exact Project.exists_content_of_isJoined hfree hfilesTexts hshownFold

/-- A renamed file leaves the fingerprints as they were. -/
theorem fingerprints_of_skips_of_renamed_file :
    let file (path content : String) : ProjectEntry :=
      { path := path.toList, content := content.toList }
    let earlier := [[file "a.ts" "x", file "b.ts" "y"]]
    let files := [file "a.ts" "x", file "c.ts" "y"]
    let start := fresh {} ({} : Settings).chunkers
    CollisionFree
        (Project.hashedTexts (start.shownAfter [] earlier) ++ Project.hashedTexts files) ∧
      (start.run earlier).skips files = true ∧
      (start.run earlier).snapshot.fingerprints.values = (Project.fingerprints files).values := by
  intro file earlier files start
  have hfree : CollisionFree
      (Project.hashedTexts (start.shownAfter [] earlier) ++ Project.hashedTexts files) := by
    decide +kernel
  have hskip : (start.run earlier).skips files = true := by decide +kernel
  exact ⟨hfree, hskip, (fingerprints_of_skips hfree hskip).1 (by decide +kernel)⟩

/-- Indexing `files` after `earlier` projects is skipped although the stored paths or fingerprints are
not those of `files` and no two texts hashed for the two roots have one fingerprint. -/
def MissesChange (earlier : List (List ProjectEntry)) (files : List ProjectEntry) : Prop :=
  let start := fresh {} ({} : Settings).chunkers
  let x := start.run earlier
  1 ≤ x.snapshot.version ∧
    CollisionFree
      (Project.hashedTexts (start.shownAfter [] earlier) ++ Project.hashedTexts files) ∧
    x.skips files = true ∧ (Project.fingerprints files).entries ≠ x.snapshot.fingerprints.entries

instance (earlier : List (List ProjectEntry)) (files : List ProjectEntry) :
    Decidable (MissesChange earlier files) :=
  inferInstanceAs (Decidable (1 ≤ _ ∧ CollisionFree _ ∧ _ = true ∧ _ ≠ _))

/-- A file that was renamed, one more file with the content of the last one, two files for one that
holds their fingerprints, and the removal of a last file whose fingerprint is the empty root. -/
theorem missed_changes :
    let file (path content : String) : ProjectEntry :=
      { path := path.toList, content := content.toList }
    MissesChange [[file "a.ts" "x"]] [file "b.ts" "x"] ∧
      MissesChange [[file "a.ts" "x", file "b.ts" "y", file "c.ts" "z"]]
        [file "a.ts" "x", file "b.ts" "y", file "c.ts" "z", file "d.ts" "z"] ∧
      MissesChange [[file "a.txt" "fd0c5087fc0c4ef4"]] [file "x.ts" "x", file "y.ts" "y"] ∧
      MissesChange [[file "a.txt" "ppkttia"]] [] := by
  decide +kernel

end Indexer

end SourceIndex
