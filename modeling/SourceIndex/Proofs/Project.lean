import SourceIndex.Project
import SourceIndex.Proofs.FoldTree
import SourceIndex.Proofs.OrderedMap

/-!
# Contents of projects

The contents of a project come from its indexable entries, and every indexable entry has its path
among them.
-/

namespace SourceIndex

namespace Project

/-- Setting entries last, one after the other, adds nothing but these entries. -/
theorem mem_entries_foldl_insertLast {files : List ProjectEntry} {m : OrderedMap Text Text}
    {entry : Text × Text}
    (h : entry ∈ (files.foldl (fun m f => m.insertLast f.path f.content) m).entries) :
    entry ∈ m.entries ∨ ∃ f ∈ files, (f.path, f.content) = entry := by
  induction files generalizing m with
  | nil => exact .inl h
  | cons f rest ih =>
    rcases ih h with hm | ⟨g, hg, he⟩
    · rw [OrderedMap.entries_insertLast, List.mem_append, List.mem_singleton] at hm
      rcases hm with hm | rfl
      · exact .inl (List.mem_filter.mp hm).1
      · exact .inr ⟨f, List.mem_cons_self, rfl⟩
    · exact .inr ⟨g, List.mem_cons_of_mem _ hg, he⟩

/-- Setting entries last keeps the keys that were there and adds the paths of the entries. -/
theorem mem_keys_foldl_insertLast {files : List ProjectEntry} {m : OrderedMap Text Text}
    {path : Text} (h : path ∈ m.keys ∨ ∃ f ∈ files, f.path = path) :
    path ∈ (files.foldl (fun m f => m.insertLast f.path f.content) m).keys := by
  induction files generalizing m with
  | nil => simpa using h
  | cons f rest ih =>
    refine ih ?_
    have hself : f.path ∈ (m.insertLast f.path f.content).keys := by
      simp [OrderedMap.keys, OrderedMap.entries_insertLast]
    rcases h with hm | ⟨g, hg, rfl⟩
    -- a path that is set again loses its old place but not its entry
    · by_cases he : path = f.path
      · exact .inl (he ▸ hself)
      · obtain ⟨a, ha⟩ := OrderedMap.mem_keys.mp hm
        exact .inl (OrderedMap.mem_keys.mpr ⟨a, by simp [OrderedMap.entries_insertLast, ha, he]⟩)
    · rcases List.mem_cons.mp hg with rfl | hg
      · exact .inl hself
      · exact .inr ⟨g, hg, rfl⟩

/-- Every content of a project is that of an indexable entry with its path. -/
theorem exists_of_mem_contents {files : List ProjectEntry} {path content : Text}
    (h : (path, content) ∈ (contents files).entries) :
    ∃ f ∈ files, f.isIndexable ∧ f.path = path ∧ f.content = content := by
  rcases mem_entries_foldl_insertLast h with hm | ⟨f, hf, he⟩
  · simp at hm
  · obtain ⟨hf, hindex⟩ := List.mem_filter.mp hf
    exact ⟨f, hf, hindex, congrArg Prod.fst he, congrArg Prod.snd he⟩

/-- The paths of a project are those of its indexable entries. -/
theorem mem_keys_contents {files : List ProjectEntry} {path : Text} :
    path ∈ (contents files).keys ↔ ∃ f ∈ files, f.isIndexable ∧ f.path = path := by
  constructor
  · intro h
    obtain ⟨content, hm⟩ := OrderedMap.mem_keys.mp h
    obtain ⟨f, hf, hindex, hpath, -⟩ := exists_of_mem_contents hm
    exact ⟨f, hf, hindex, hpath⟩
  · rintro ⟨f, hf, hindex, hpath⟩
    exact mem_keys_foldl_insertLast (.inr ⟨f, List.mem_filter.mpr ⟨hf, hindex⟩, hpath⟩)

/-- If no two entries share a path, the contents are those of the indexable entries in their order. -/
theorem entries_contents {files : List ProjectEntry} (h : (files.map (·.path)).Nodup) :
    (contents files).entries =
      (files.filter (·.isIndexable)).map fun f => (f.path, f.content) := by
  have hpaths : ((files.filter (·.isIndexable)).map (·.path)).Nodup :=
    h.sublist (List.filter_sublist.map _)
  unfold contents
  generalize files.filter (·.isIndexable) = files at hpaths
  induction files using List.reverseRecOn with
  | nil => rfl
  | append_singleton files f ih =>
    rw [List.map_append, List.map_singleton, List.nodup_append] at hpaths
    obtain ⟨hnodup, -, hnew⟩ := hpaths
    rw [List.foldl_append, List.foldl_cons, List.foldl_nil, OrderedMap.entries_insertLast,
      ih hnodup, List.map_append, List.map_singleton]
    congr 1
    -- the path is new, so no entry is moved
    rw [List.filter_eq_self]
    intro entry hentry
    obtain ⟨g, hg, rfl⟩ := List.mem_map.mp hentry
    rw [decide_eq_true_eq]
    exact hnew g.path (List.mem_map.mpr ⟨g, hg, rfl⟩) f.path (List.mem_singleton.mpr rfl)

/-! ## The last entry of a path -/

/-- The content of the last indexable entry of a path. -/
def lastContent? (files : List ProjectEntry) (path : Text) : Option Text :=
  ((files.filter fun f => f.isIndexable && f.path == path).getLast?).map (·.content)

/-- Setting entries one after the other leaves each path with the content of its last entry, whether
or not a path that is set again keeps its place. -/
theorem get?_foldl {set : OrderedMap Text Text → Text → Text → OrderedMap Text Text}
    (hset : ∀ m path content p, (set m path content).get? p =
      if p = path then some content else m.get? p)
    (files : List ProjectEntry) (m : OrderedMap Text Text) (path : Text) :
    (files.foldl (fun m f => set m f.path f.content) m).get? path =
      (((files.filter fun f => f.path == path).getLast?).map (·.content)).or (m.get? path) := by
  induction files generalizing m with
  | nil => simp
  | cons f rest ih =>
    rw [List.foldl_cons, ih, hset, List.filter_cons]
    by_cases h : f.path = path
    · rw [if_pos h.symm, if_pos (beq_iff_eq.mpr h), List.getLast?_cons]
      cases (rest.filter fun f => f.path == path).getLast? <;> rfl
    · rw [if_neg (Ne.symm h), if_neg (by simpa using h)]

/-- The content of a path is that of its last indexable entry. -/
theorem get?_contents (files : List ProjectEntry) (path : Text) :
    (contents files).get? path = lastContent? files path := by
  rw [contents, get?_foldl OrderedMap.get?_insertLast, List.filter_filter, lastContent?]
  simp only [Bool.and_comm]
  exact Option.or_none

/-! ## Fingerprints -/

/-- The paths with fingerprints are those with contents. -/
theorem keys_fingerprints (files : List ProjectEntry) :
    (fingerprints files).keys = (contents files).keys :=
  OrderedMap.keys_mapValues _ _

/-- The fingerprints of a project are those of its contents. -/
theorem values_fingerprints (files : List ProjectEntry) :
    (fingerprints files).values = (contents files).values.map fingerprint := by
  simp [fingerprints, OrderedMap.values]

/-- The fingerprints of a project have eight digits. -/
theorem length_of_mem_fingerprints {files : List ProjectEntry} {a : Text}
    (h : a ∈ (fingerprints files).values) : a.length = 8 := by
  rw [values_fingerprints] at h
  obtain ⟨content, -, rfl⟩ := List.mem_map.mp h
  exact length_fingerprint content

/-- The root of a project has eight digits. -/
theorem length_root_fingerprints (files : List ProjectEntry) :
    (Fingerprint.root (fingerprints files).values).length = 8 :=
  Fingerprint.length_root fun _ ha => length_of_mem_fingerprints ha

end Project

end SourceIndex
