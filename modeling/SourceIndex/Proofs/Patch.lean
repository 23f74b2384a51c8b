import SourceIndex.Proofs.Delta

/-!
# Deltas as patches

A delta tells which paths have to be set and which have to be deleted in order to get from one state to
the other: the edits that it stands for lead there, and no fewer edits do, since each path with another
fingerprint than before needs an edit of its own.
-/

namespace SourceIndex

/-! ## Edits -/

/-- An edit of a state of a project: a path gets a fingerprint, or it is removed. -/
inductive Edit where
  | set (path hash : Text)
  | delete (path : Text)
  deriving DecidableEq, Repr

namespace Edit

/-- The path that is edited. -/
def path : Edit → Text
  | set path _ => path
  | delete path => path

/-- The fingerprint that the path has after the edit. -/
def hash? : Edit → Option Text
  | set _ hash => some hash
  | delete _ => none

/-- The state after an edit. -/
def apply (m : OrderedMap Text Text) : Edit → OrderedMap Text Text
  | set path hash => m.insert path hash
  | delete path => m.erase path

/-- The state after edits that are made one after the other. -/
def applyAll (m : OrderedMap Text Text) (edits : List Edit) : OrderedMap Text Text :=
  edits.foldl apply m

/-- An edit changes its path only. -/
theorem get?_apply (m : OrderedMap Text Text) (e : Edit) (path : Text) :
    (apply m e).get? path = if path = e.path then e.hash? else m.get? path := by
  cases e with
  | set p hash => exact OrderedMap.get?_insert m p hash path
  | delete p => exact OrderedMap.get?_erase m p path

/-- Edits of other paths change nothing of a path. -/
theorem get?_applyAll_of_not_mem {edits : List Edit} {path : Text} (h : path ∉ edits.map Edit.path)
    (m : OrderedMap Text Text) : (applyAll m edits).get? path = m.get? path := by
  induction edits generalizing m with
  | nil => rfl
  | cons e rest ih =>
    rw [List.map_cons, List.mem_cons, not_or] at h
    rw [applyAll, List.foldl_cons, ← applyAll, ih h.2, get?_apply, if_neg h.1]

/-- A path that is edited has afterwards the fingerprint that all its edits give it. -/
theorem get?_applyAll_of_forall {edits : List Edit} {path : Text} {hash? : Option Text}
    (hmem : path ∈ edits.map Edit.path) (h : ∀ e ∈ edits, e.path = path → e.hash? = hash?)
    (m : OrderedMap Text Text) : (applyAll m edits).get? path = hash? := by
  induction edits generalizing m with
  | nil => simp at hmem
  | cons e rest ih =>
    rw [applyAll, List.foldl_cons, ← applyAll]
    by_cases hlater : path ∈ rest.map Edit.path
    · exact ih hlater (fun e' he' => h e' (List.mem_cons_of_mem _ he')) _
    · -- no later edit undoes the first one
      have hpath : path = e.path := by
        rw [List.map_cons, List.mem_cons] at hmem
        exact hmem.resolve_right hlater
      rw [get?_applyAll_of_not_mem hlater, get?_apply, if_pos hpath]
      exact h e List.mem_cons_self hpath.symm

end Edit

namespace Delta

variable {previous current : OrderedMap Text Text} {path : Text}

/-- The edits that a delta stands for: paths that were removed are deleted, paths that were added or
updated get their current fingerprints. -/
def edits (d : Delta) (current : OrderedMap Text Text) : List Edit :=
  d.removed.map .delete ++
    (d.added ++ d.updated).filterMap fun path => (current.get? path).map (.set path)

/-- The paths that a delta changes. -/
def changed (d : Delta) : List Text :=
  d.removed ++ (d.added ++ d.updated)

/-! ## The parts of a delta -/

/-- A path is among those with one change only. -/
theorem disjoint_pathsWith {c c' : Change} (h : c ≠ c') :
    (pathsWith previous current c).Disjoint (pathsWith previous current c') := by
  intro path hc hc'
  obtain ⟨hash, hentry, hchange⟩ := mem_pathsWith.mp hc
  rw [mem_pathsWith_iff hentry, hchange] at hc'
  exact h hc'

/-- No path is listed twice. -/
theorem nodup_pathsWith (c : Change) : (pathsWith previous current c).Nodup :=
  current.nodup_keys.sublist (pathsWith_sublist c)

/-- The paths that were added, updated or are unchanged are those of the current state. -/
theorem perm_keys (previous current : OrderedMap Text Text) :
    let d := between previous current
    (d.added ++ d.updated ++ d.unchanged).Perm current.keys := by
  intro d
  have hnodup : (d.added ++ d.updated ++ d.unchanged).Nodup := by
    have hlast : (d.added ++ d.updated).Disjoint d.unchanged := by
      rw [List.disjoint_append_left]
      exact ⟨disjoint_pathsWith (by decide), disjoint_pathsWith (by decide)⟩
    refine List.Nodup.append ?_ (nodup_pathsWith _) hlast
    exact List.Nodup.append (nodup_pathsWith _) (nodup_pathsWith _) (disjoint_pathsWith (by decide))
  rw [List.perm_ext_iff_of_nodup hnodup current.nodup_keys]
  intro path
  rw [List.mem_append, List.mem_append]
  constructor
  · rintro ((h | h) | h)
    · exact (pathsWith_sublist _).subset h
    · exact (pathsWith_sublist _).subset h
    · exact (pathsWith_sublist _).subset h
  · intro h
    obtain ⟨hash, hentry⟩ := OrderedMap.mem_keys.mp h
    rw [mem_added_or_updated_iff hentry, mem_unchanged_iff hentry]
    exact (em _).symm

/-- A fingerprint is an update if the path had another one before. -/
theorem change_eq_updated_iff {hash : Text} :
    change previous path hash = .updated ↔ ∃ old, (path, old) ∈ previous.entries ∧ old ≠ hash := by
  simp only [← OrderedMap.get?_eq_some_iff, change]
  cases previous.get? path with
  | none => simp
  | some old => by_cases h : old = hash <;> simp [h]

/-- A path was updated if it has different fingerprints in the two states. -/
theorem mem_updated_iff :
    path ∈ (between previous current).updated ↔
      ∃ old new, (path, old) ∈ previous.entries ∧ (path, new) ∈ current.entries ∧ old ≠ new := by
  show path ∈ pathsWith previous current .updated ↔ _
  simp only [mem_pathsWith, change_eq_updated_iff]
  constructor
  · rintro ⟨new, hnew, old, hold, hne⟩
    exact ⟨old, new, hold, hnew, hne⟩
  · rintro ⟨old, new, hold, hnew, hne⟩
    exact ⟨new, hnew, old, hold, hne⟩

/-- A path is unchanged if both states have it with one fingerprint. -/
theorem mem_unchanged_iff_exists :
    path ∈ (between previous current).unchanged ↔
      ∃ hash, (path, hash) ∈ previous.entries ∧ (path, hash) ∈ current.entries := by
  show path ∈ pathsWith previous current .unchanged ↔ _
  simp only [mem_pathsWith, change_eq_unchanged_iff, and_comm]

/-- No path is listed twice among those that a delta changes. -/
theorem nodup_changed (previous current : OrderedMap Text Text) :
    (between previous current).changed.Nodup := by
  set d := between previous current
  have hcurrent : (d.added ++ d.updated).Nodup :=
    ((List.nodup_append.mp ((perm_keys previous current).nodup_iff.mpr current.nodup_keys))).1
  have hremoved : d.removed.Nodup := previous.nodup_keys.sublist List.filter_sublist
  refine hremoved.append hcurrent ?_
  intro path hold hnew
  have hkey : path ∈ current.keys :=
    (perm_keys previous current).subset (List.mem_append_left _ hnew)
  rw [removed_eq_filter, List.mem_filter, decide_eq_true_iff] at hold
  exact hold.2 hkey

/-- A path is changed if the states differ at it. -/
theorem mem_changed_iff :
    path ∈ (between previous current).changed ↔ previous.get? path ≠ current.get? path := by
  set d := between previous current
  rw [changed, List.mem_append, List.mem_append, removed_eq_filter, List.mem_filter, decide_eq_true_iff]
  cases hnew : current.get? path with
  | none =>
    have hkey := OrderedMap.get?_eq_none_iff.mp hnew
    -- a path that the current state lacks is neither added nor updated
    have hold : ¬(path ∈ d.added ∨ path ∈ d.updated) := by
      rintro (h | h)
      · exact hkey ((pathsWith_sublist _).subset h)
      · exact hkey ((pathsWith_sublist _).subset h)
    rw [or_iff_left hold, and_iff_left hkey, ne_eq, OrderedMap.get?_eq_none_iff, not_not]
  | some hash =>
    have hentry := OrderedMap.get?_eq_some_iff.mp hnew
    have hkey : path ∈ current.keys := OrderedMap.mem_keys.mpr ⟨hash, hentry⟩
    rw [or_iff_right fun h => h.2 hkey, mem_added_or_updated_iff hentry, ne_eq,
      OrderedMap.get?_eq_some_iff]

/-! ## The edits of a delta -/

/-- The edits of a delta give the paths their current fingerprints. -/
theorem hash?_of_mem_edits {e : Edit} (h : e ∈ (between previous current).edits current) :
    e.hash? = current.get? e.path := by
  rcases List.mem_append.mp h with h | h
  · obtain ⟨path, hpath, rfl⟩ := List.mem_map.mp h
    rw [removed_eq_filter, List.mem_filter, decide_eq_true_iff] at hpath
    exact (OrderedMap.get?_eq_none_iff.mpr hpath.2).symm
  · obtain ⟨path, -, hset⟩ := List.mem_filterMap.mp h
    obtain ⟨hash, hhash, rfl⟩ := Option.map_eq_some_iff.mp hset
    exact hhash.symm

/-- The edits of a delta edit the paths that it changes. -/
theorem map_path_edits (previous current : OrderedMap Text Text) :
    ((between previous current).edits current).map Edit.path = (between previous current).changed := by
  set d := between previous current
  have hset : ∀ path ∈ d.added ++ d.updated,
      ((current.get? path).map (Edit.set path)).map Edit.path = some path := by
    intro path hpath
    have hkey := (perm_keys previous current).subset (List.mem_append_left _ hpath)
    obtain ⟨hash, hentry⟩ := OrderedMap.mem_keys.mp hkey
    rw [OrderedMap.get?_eq_some_iff.mpr hentry]
    rfl
  rw [edits, List.map_append, List.map_map, List.map_filterMap, List.filterMap_congr hset,
    List.filterMap_some]
  exact congrArg (· ++ _) (List.map_id _)

/-- The edits of a delta lead from the previous state to the current one. -/
theorem get?_applyAll_edits (previous current : OrderedMap Text Text) (path : Text) :
    (Edit.applyAll previous ((between previous current).edits current)).get? path =
      current.get? path := by
  by_cases h : path ∈ ((between previous current).edits current).map Edit.path
  · refine Edit.get?_applyAll_of_forall h (fun e he hpath => ?_) previous
    rw [hash?_of_mem_edits he, hpath]
  · rw [Edit.get?_applyAll_of_not_mem h]
    rwa [map_path_edits, mem_changed_iff, ne_eq, not_not] at h

/-- Edits that lead from the previous state to the current one edit every path that changes. -/
theorem changed_subset_of_applyAll {edits : List Edit}
    (h : ∀ path, (Edit.applyAll previous edits).get? path = current.get? path) :
    (between previous current).changed ⊆ edits.map Edit.path := by
  intro path hpath
  by_contra hother
  rw [mem_changed_iff, ← h path, Edit.get?_applyAll_of_not_mem hother] at hpath
  exact hpath rfl

/-- The delta of two states is a partition and a patch. The added, the updated and the unchanged paths are
in the order of the current state, no path is in two of these lists, and together they are its paths. The
removed paths are the previous ones that the current state lacks, in the previous order. Deleting the
removed paths and setting the added and updated ones to their current fingerprints leads from the previous
state to the current one; whatever edits lead there edit each of these paths, so they are no fewer. The
delta in the other direction has added and removed paths exchanged and the same updated and unchanged
paths. -/
theorem partitions_and_patches (previous current : OrderedMap Text Text) :
    let d := between previous current
    let back := between current previous
    (d.added.Sublist current.keys ∧ d.updated.Sublist current.keys ∧
      d.unchanged.Sublist current.keys) ∧
    (d.added.Disjoint d.updated ∧ d.added.Disjoint d.unchanged ∧ d.updated.Disjoint d.unchanged) ∧
    (d.added ++ d.updated ++ d.unchanged).Perm current.keys ∧
    d.removed = previous.keys.filter (· ∉ current.keys) ∧
    (∀ path, (Edit.applyAll previous (d.edits current)).get? path = current.get? path) ∧
    ((d.edits current).map Edit.path = d.removed ++ (d.added ++ d.updated) ∧
      ∀ edits, (∀ path, (Edit.applyAll previous edits).get? path = current.get? path) →
        (d.edits current).map Edit.path ⊆ edits.map Edit.path ∧
        (d.edits current).length ≤ edits.length) ∧
    (back.added = d.removed ∧ back.removed = d.added ∧
      (∀ path, path ∈ back.updated ↔ path ∈ d.updated) ∧
      ∀ path, path ∈ back.unchanged ↔ path ∈ d.unchanged) := by
  intro d back
  refine ⟨⟨pathsWith_sublist _, pathsWith_sublist _, pathsWith_sublist _⟩,
    ⟨disjoint_pathsWith (by decide), disjoint_pathsWith (by decide), disjoint_pathsWith (by decide)⟩,
    perm_keys previous current, removed_eq_filter, get?_applyAll_edits previous current,
    ⟨map_path_edits previous current, fun edits hedits => ?_⟩, ?_, ?_, fun path => ?_,
    fun path => ?_⟩
  · have hsubset := changed_subset_of_applyAll hedits
    rw [← map_path_edits] at hsubset
    refine ⟨hsubset, ?_⟩
    -- every edit of the delta has a path of its own, so there is another edit for each
    have hnodup : ((d.edits current).map Edit.path).Nodup := by
      rw [map_path_edits]
      exact nodup_changed previous current
    have hlength := (List.subperm_of_subset hnodup hsubset).length_le
    rwa [List.length_map, List.length_map] at hlength
  · rw [added_eq_filter, removed_eq_filter]
  · rw [added_eq_filter, removed_eq_filter]
  · rw [mem_updated_iff, mem_updated_iff]
    constructor
    · rintro ⟨old, new, hold, hnew, hne⟩
      exact ⟨new, old, hnew, hold, hne.symm⟩
    · rintro ⟨old, new, hold, hnew, hne⟩
      exact ⟨new, old, hnew, hold, hne.symm⟩
  · simp only [back, d, mem_unchanged_iff_exists, and_comm]

/-- One path of each kind. -/
example :
    let state (entries : List (String × String)) : OrderedMap Text Text :=
      .ofList (entries.map fun e => (e.1.toList, e.2.toList))
    between (state [("same", "a"), ("changed", "b"), ("gone", "c")])
        (state [("new", "d"), ("same", "a"), ("changed", "e")]) =
      { added := ["new".toList], updated := ["changed".toList], unchanged := ["same".toList],
        removed := ["gone".toList] } := by
  decide

end Delta

end SourceIndex
