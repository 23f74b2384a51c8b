import SourceIndex.Project
import SourceIndex.Proofs.OrderedMap
import Mathlib.Data.List.Perm.Basic

/-!
# Members and sizes of deltas

A path of the current state was added if the previous state lacks it, and otherwise updated or
unchanged by its fingerprint. So the current files and those removed are as many as the previous files
and those added.
-/

namespace SourceIndex

namespace Delta

variable {previous current : OrderedMap Text Text} {path hash : Text}

/-! ## Changes of a path -/

/-- A path was added if the previous state lacks it. -/
theorem change_eq_added_iff : change previous path hash = .added ↔ path ∉ previous.keys := by
  rw [← OrderedMap.get?_eq_none_iff, change]
  cases previous.get? path with
  | none => simp
  | some old => by_cases h : old = hash <;> simp [h]

/-- A path is unchanged if it had the fingerprint before. -/
theorem change_eq_unchanged_iff :
    change previous path hash = .unchanged ↔ (path, hash) ∈ previous.entries := by
  rw [← OrderedMap.get?_eq_some_iff, change]
  cases previous.get? path with
  | none => simp
  | some old => by_cases h : old = hash <;> simp [h]

/-- A path has a given change if one of its entries has. -/
theorem mem_pathsWith {c : Change} :
    path ∈ pathsWith previous current c ↔
      ∃ hash, (path, hash) ∈ current.entries ∧ change previous path hash = c := by
  simp [pathsWith]

/-- The paths with a given change are in the order of the current state. -/
theorem pathsWith_sublist (c : Change) : (pathsWith previous current c).Sublist current.keys :=
  List.filter_sublist.map Prod.fst

/-- A current path has a given change if its fingerprint has. -/
theorem mem_pathsWith_iff {c : Change} (h : (path, hash) ∈ current.entries) :
    path ∈ pathsWith previous current c ↔ change previous path hash = c := by
  rw [mem_pathsWith]
  constructor
  · rintro ⟨other, hmem, hchange⟩
    rwa [OrderedMap.eq_of_mem_entries h hmem]
  · exact fun hchange => ⟨hash, h, hchange⟩

/-- A current path is unchanged if it has the fingerprint that it had before. -/
theorem mem_unchanged_iff (h : (path, hash) ∈ current.entries) :
    path ∈ (between previous current).unchanged ↔ (path, hash) ∈ previous.entries :=
  (mem_pathsWith_iff h).trans change_eq_unchanged_iff

/-- A current path was added or updated, or else has the fingerprint that it had before. -/
theorem mem_added_or_updated_iff (h : (path, hash) ∈ current.entries) :
    path ∈ (between previous current).added ∨ path ∈ (between previous current).updated ↔
      (path, hash) ∉ previous.entries := by
  show path ∈ pathsWith previous current .added ∨ path ∈ pathsWith previous current .updated ↔ _
  rw [mem_pathsWith_iff h, mem_pathsWith_iff h, ← change_eq_unchanged_iff]
  cases change previous path hash <;> simp

/-! ## Sizes -/

/-- The added paths are the current ones that the previous state lacks. -/
theorem added_eq_filter :
    (between previous current).added = current.keys.filter fun path => path ∉ previous.keys := by
  show (current.entries.filter _).map Prod.fst = (current.entries.map Prod.fst).filter _
  rw [List.filter_map]
  congr 1
  refine List.filter_congr fun entry _ => ?_
  rw [Function.comp_apply, beq_eq_decide, decide_eq_decide]
  exact change_eq_added_iff

/-- The removed paths are the previous ones that the current state lacks. -/
theorem removed_eq_filter :
    (between previous current).removed = previous.keys.filter fun path => path ∉ current.keys := by
  refine List.filter_congr fun path _ => ?_
  rw [Bool.eq_iff_iff, Bool.not_eq_true', ← Bool.not_eq_true, OrderedMap.contains_iff,
    decide_eq_true_iff]

/-- The current files and those removed are as many as the previous files and those added. -/
theorem size_add_length_removed (previous current : OrderedMap Text Text) :
    current.size + (between previous current).removed.length =
      previous.size + (between previous current).added.length := by
  -- the paths that both states have are the same from either side
  have hcommon : (current.keys.filter (· ∈ previous.keys)).length =
      (previous.keys.filter (· ∈ current.keys)).length := by
    refine List.Perm.length_eq ((List.perm_ext_iff_of_nodup (current.nodup_keys.filter _)
      (previous.nodup_keys.filter _)).mpr fun path => ?_)
    simp [and_comm]
  have hsplit : ∀ m other : OrderedMap Text Text,
      m.size = (m.keys.filter (· ∈ other.keys)).length +
        (m.keys.filter fun path => path ∉ other.keys).length := by
    intro m other
    simp only [decide_not]
    rw [← List.length_eq_length_filter_add, OrderedMap.keys, List.length_map, OrderedMap.size]
  rw [added_eq_filter, removed_eq_filter, hsplit current previous, hsplit previous current, hcommon]
  omega

end Delta

end SourceIndex
