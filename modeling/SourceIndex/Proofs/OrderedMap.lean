import SourceIndex.OrderedMap
import Mathlib.Data.List.Induction
import Mathlib.Data.List.Nodup
import Mathlib.Data.List.Perm.Basic

/-!
# Entries, keys and values of maps in insertion order

What the operations of an `OrderedMap` do to its entries: a look-up finds exactly the entries, setting
a key appends it or keeps its place, and setting it last moves it to the end. A map from a list has
each key at its first place with the last value.
-/

namespace SourceIndex

namespace OrderedMap

universe u v

variable {κ : Type u} {α β : Type v}

/-- Maps with the same entries are the same. -/
@[ext]
theorem ext {m m' : OrderedMap κ α} (h : m.entries = m'.entries) : m = m' := by
  cases m
  cases m'
  cases h
  rfl

/-- No key occurs twice. -/
theorem nodup_keys (m : OrderedMap κ α) : m.keys.Nodup :=
  m.nodup

/-- The keys are those of the entries. -/
theorem mem_keys {m : OrderedMap κ α} {key : κ} : key ∈ m.keys ↔ ∃ a, (key, a) ∈ m.entries := by
  simp [keys]

/-- The values are those of the entries. -/
theorem mem_values {m : OrderedMap κ α} {a : α} : a ∈ m.values ↔ ∃ key, (key, a) ∈ m.entries := by
  simp [values]

/-- There are as many keys as entries. -/
theorem length_keys (m : OrderedMap κ α) : m.keys.length = m.size := by
  simp [keys, size]

/-- A key has the values of its entry only. -/
theorem eq_of_mem_entries {m : OrderedMap κ α} {key : κ} {a b : α} (ha : (key, a) ∈ m.entries)
    (hb : (key, b) ∈ m.entries) : a = b := by
  have h := List.inj_on_of_nodup_map m.nodup ha hb rfl
  exact congrArg Prod.snd h

@[simp]
theorem entries_empty : (empty : OrderedMap κ α).entries = [] :=
  rfl

/-! ## Values changed in place -/

@[simp]
theorem entries_mapValues (f : κ → α → β) (m : OrderedMap κ α) :
    (m.mapValues f).entries = m.entries.map fun entry => (entry.1, f entry.1 entry.2) :=
  rfl

/-- Changing values keeps the keys in their order. -/
@[simp]
theorem keys_mapValues (f : κ → α → β) (m : OrderedMap κ α) : (m.mapValues f).keys = m.keys := by
  simp [keys, Function.comp_def]

/-- Changing values keeps the number of keys. -/
@[simp]
theorem size_mapValues (f : κ → α → β) (m : OrderedMap κ α) : (m.mapValues f).size = m.size := by
  simp [size]

/-- Changing values twice is changing them once. -/
theorem mapValues_mapValues {γ : Type v} (g : κ → β → γ) (f : κ → α → β) (m : OrderedMap κ α) :
    (m.mapValues f).mapValues g = m.mapValues fun key a => g key (f key a) := by
  ext1
  simp [Function.comp_def]

/-- Values may be changed by any function that agrees on the entries. -/
theorem mapValues_congr {f g : κ → α → β} {m : OrderedMap κ α}
    (h : ∀ entry ∈ m.entries, f entry.1 entry.2 = g entry.1 entry.2) :
    m.mapValues f = m.mapValues g := by
  ext1
  simp only [entries_mapValues]
  exact List.map_congr_left fun entry he => by rw [h entry he]

/-! ## Looking up -/

variable [DecidableEq κ]

/-- A look-up finds the entry of the key. -/
theorem get?_eq_some_iff {m : OrderedMap κ α} {key : κ} {a : α} :
    m.get? key = some a ↔ (key, a) ∈ m.entries := by
  constructor
  · intro h
    obtain ⟨before, after, he, -⟩ := List.lookup_eq_some_iff.mp h
    rw [he]
    simp
  · intro h
    cases hget : m.get? key with
    | none =>
      have hne := List.lookup_eq_none_iff.mp hget (key, a) h
      simp at hne
    | some b =>
      obtain ⟨before, after, he, -⟩ := List.lookup_eq_some_iff.mp hget
      have hb : (key, b) ∈ m.entries := by rw [he]; simp
      rw [eq_of_mem_entries h hb]

/-- Keys without entries are not found. -/
theorem get?_eq_none_iff {m : OrderedMap κ α} {key : κ} : m.get? key = none ↔ key ∉ m.keys := by
  rw [mem_keys, Option.eq_none_iff_forall_ne_some]
  constructor
  · rintro h ⟨a, ha⟩
    exact h a (get?_eq_some_iff.mpr ha)
  · exact fun h a ha => h ⟨a, get?_eq_some_iff.mp ha⟩

/-- A map contains its keys. -/
theorem contains_iff {m : OrderedMap κ α} {key : κ} : m.contains key = true ↔ key ∈ m.keys := by
  rw [contains, Option.isSome_iff_ne_none, ne_eq, get?_eq_none_iff, not_not]

/-- A look-up after values were changed. -/
theorem get?_mapValues (f : κ → α → β) (m : OrderedMap κ α) (key : κ) :
    (m.mapValues f).get? key = (m.get? key).map (f key) := by
  cases h : m.get? key with
  | none =>
    rw [get?_eq_none_iff] at h
    rwa [Option.map_none, get?_eq_none_iff, keys_mapValues]
  | some a =>
    rw [Option.map_some, get?_eq_some_iff, entries_mapValues]
    exact List.mem_map.mpr ⟨(key, a), get?_eq_some_iff.mp h, rfl⟩

/-! ## Keys set anew -/

/-- A look-up after a key was altered. -/
theorem lookup_alterEntries (key k : κ) (f : Option α → α) (entries : List (κ × α)) :
    (alterEntries key f entries).lookup k =
      if k = key then some (f (entries.lookup key)) else entries.lookup k := by
  induction entries with
  | nil => by_cases h : k = key <;> simp [alterEntries, List.lookup_cons, beq_eq_decide, h]
  | cons first rest ih =>
    obtain ⟨k', b⟩ := first
    rw [alterEntries]
    by_cases hfirst : k' = key
    · by_cases h : k = key <;> simp [List.lookup_cons, beq_eq_decide, hfirst, h]
    · rw [if_neg hfirst, List.lookup_cons, List.lookup_cons, List.lookup_cons, ih]
      by_cases h : k = key
      · have hother : (key == k') = false := beq_eq_false_iff_ne.mpr (Ne.symm hfirst)
        simp [h, hother]
      · simp [h]

/-- A look-up after a key was altered in a map. -/
theorem get?_alter (m : OrderedMap κ α) (key : κ) (f : Option α → α) (k : κ) :
    (m.alter key f).get? k = if k = key then some (f (m.get? key)) else m.get? k :=
  lookup_alterEntries key k f m.entries

/-- A look-up after a key was set. -/
theorem get?_insert (m : OrderedMap κ α) (key : κ) (a : α) (k : κ) :
    (m.insert key a).get? k = if k = key then some a else m.get? k :=
  get?_alter m key (fun _ => a) k

/-- A look-up after a key was erased. -/
theorem get?_erase (m : OrderedMap κ α) (key k : κ) :
    (m.erase key).get? k = if k = key then none else m.get? k := by
  by_cases h : k = key
  · rw [if_pos h, get?_eq_none_iff, h]
    simp [keys, erase]
  · -- erasing a key leaves the entries of the other keys
    rw [if_neg h]
    refine Option.ext fun b => ?_
    rw [get?_eq_some_iff, get?_eq_some_iff, erase, List.mem_filter]
    exact and_iff_left (decide_eq_true h)

/-- A look-up after a key was set last. -/
theorem get?_insertLast (m : OrderedMap κ α) (key : κ) (a : α) (k : κ) :
    (m.insertLast key a).get? k = if k = key then some a else m.get? k := by
  rw [insertLast, get?_insert]
  by_cases h : k = key
  · rw [if_pos h, if_pos h]
  · rw [if_neg h, if_neg h, get?_erase, if_neg h]

/-- Setting a new key appends its entry. -/
theorem alterEntries_of_not_mem {key : κ} {f : Option α → α} {entries : List (κ × α)}
    (h : key ∉ entries.map Prod.fst) : alterEntries key f entries = entries ++ [(key, f none)] := by
  induction entries with
  | nil => rfl
  | cons first rest ih =>
    rw [List.map_cons, List.mem_cons, not_or] at h
    rw [alterEntries, if_neg (fun e => h.1 e.symm), ih h.2]
    rfl

/-- Setting a key last moves its entry to the end. -/
theorem entries_insertLast (m : OrderedMap κ α) (key : κ) (a : α) :
    (m.insertLast key a).entries = m.entries.filter (fun entry => entry.1 ≠ key) ++ [(key, a)] := by
  refine alterEntries_of_not_mem ?_
  simp [erase]

/-! ## Maps from lists -/

/-- Setting new and distinct keys one after the other appends all entries. -/
theorem entries_foldl_insert {entries : List (κ × α)} {m : OrderedMap κ α}
    (h : (m.entries ++ entries).map Prod.fst |>.Nodup) :
    (entries.foldl (fun m entry => m.insert entry.1 entry.2) m).entries = m.entries ++ entries := by
  induction entries generalizing m with
  | nil => simp
  | cons entry rest ih =>
    -- the key is new, since it stands behind those of the map in a list without duplicates
    have hnew : entry.1 ∉ m.entries.map Prod.fst := by
      rw [List.map_append, List.map_cons] at h
      intro hmem
      exact (List.disjoint_of_nodup_append h) hmem List.mem_cons_self
    have hinsert : (m.insert entry.1 entry.2).entries = m.entries ++ [entry] :=
      alterEntries_of_not_mem hnew
    rw [List.foldl_cons, ih (by rwa [hinsert, List.append_assoc]), hinsert, List.append_assoc]
    rfl

/-- A map from entries with distinct keys has these entries. -/
theorem entries_ofList {entries : List (κ × α)} (h : (entries.map Prod.fst).Nodup) :
    (ofList entries).entries = entries :=
  entries_foldl_insert h

/-- The map of a list with one more entry. -/
theorem ofList_append_singleton (entries : List (κ × α)) (entry : κ × α) :
    ofList (entries ++ [entry]) = (ofList entries).insert entry.1 entry.2 := by
  unfold ofList
  rw [List.foldl_append]
  rfl

/-- Altering a key that the map has keeps the keys, and a new key becomes the last. -/
theorem keys_alter (m : OrderedMap κ α) (key : κ) (f : Option α → α) :
    (key ∈ m.keys → (m.alter key f).keys = m.keys) ∧
      (key ∉ m.keys → (m.alter key f).keys = m.keys ++ [key]) := by
  constructor
  · intro h
    exact (map_fst_alterEntries key f m.entries).trans (if_pos h)
  · intro h
    exact (map_fst_alterEntries key f m.entries).trans (if_neg h)

omit [DecidableEq κ] in
/-- An item that stood in the list before is not listed again. -/
theorem eraseDups_append_singleton [BEq κ] [LawfulBEq κ] (keys : List κ) (key : κ) :
    (keys ++ [key]).eraseDups = if key ∈ keys then keys.eraseDups else keys.eraseDups ++ [key] := by
  rw [List.eraseDups_append]
  split
  · rename_i h
    have hdropped : [key].removeAll keys = [] := by simpa [List.removeAll] using h
    rw [hdropped, List.eraseDups_nil, List.append_nil]
  · rename_i h
    have hkept : [key].removeAll keys = [key] := by simpa [List.removeAll] using h
    rw [hkept]
    rfl

/-- The keys of a map from a list are those of the list, each at its first place. -/
theorem keys_ofList [BEq κ] [LawfulBEq κ] (entries : List (κ × α)) :
    (ofList entries).keys = (entries.map Prod.fst).eraseDups := by
  induction entries using List.reverseRecOn with
  | nil => rfl
  | append_singleton entries entry ih =>
    have hmem : entry.1 ∈ (ofList entries).keys ↔ entry.1 ∈ entries.map Prod.fst := by
      rw [ih, List.mem_eraseDups]
    obtain ⟨hold, hnew⟩ := keys_alter (ofList entries) entry.1 fun _ => entry.2
    rw [ofList_append_singleton, List.map_append, List.map_singleton, eraseDups_append_singleton]
    -- the last key is dropped exactly if it stood in the list before
    split
    · rename_i h
      rw [insert, hold (hmem.mpr h), ih]
    · rename_i h
      rw [insert, hnew (mt hmem.mp h), ih]

/-- A list without its repetitions has none. -/
theorem nodup_eraseDups [BEq κ] [LawfulBEq κ] (keys : List κ) : keys.eraseDups.Nodup := by
  have hkeys := keys_ofList (keys.map fun key => (key, ()))
  rw [List.map_map, show Prod.fst ∘ (fun key : κ => (key, ())) = id from rfl, List.map_id] at hkeys
  rw [← hkeys]
  exact nodup_keys _

omit [DecidableEq κ] in
/-- A list without repetitions stays as it is without them. -/
theorem eraseDups_eq_self [BEq κ] [LawfulBEq κ] {keys : List κ} (h : keys.Nodup) :
    keys.eraseDups = keys := by
  induction keys using List.reverseRecOn with
  | nil => rfl
  | append_singleton keys key ih =>
    obtain ⟨hkeys, -, hdisjoint⟩ := List.nodup_append.mp h
    have hnew : key ∉ keys := fun hkey => hdisjoint key hkey key List.mem_cons_self rfl
    rw [eraseDups_append_singleton, if_neg hnew, ih hkeys]

/-- Repetitions may be left out of the halves of a list before they are left out of the whole. -/
theorem eraseDups_append_eraseDups [BEq κ] [LawfulBEq κ] (keys keys' : List κ) :
    (keys.eraseDups ++ keys'.eraseDups).eraseDups = (keys ++ keys').eraseDups := by
  induction keys' using List.reverseRecOn with
  | nil =>
    rw [List.eraseDups_nil, List.append_nil, List.append_nil]
    exact eraseDups_eq_self (nodup_eraseDups keys)
  | append_singleton keys' key ih =>
    rw [← List.append_assoc keys, eraseDups_append_singleton, eraseDups_append_singleton]
    by_cases hkey : key ∈ keys'
    · rw [if_pos hkey, if_pos (List.mem_append_right keys hkey), ih]
    · rw [if_neg hkey, ← List.append_assoc, eraseDups_append_singleton, ih]
      simp only [List.mem_append, List.mem_eraseDups, hkey, or_false]

/-- A look-up in a map from a list finds the last entry of the key. -/
theorem get?_ofList (entries : List (κ × α)) (key : κ) :
    (ofList entries).get? key =
      ((entries.filter fun entry => entry.1 = key).getLast?).map Prod.snd := by
  induction entries using List.reverseRecOn with
  | nil => rfl
  | append_singleton entries entry ih =>
    rw [ofList_append_singleton, get?_insert, ih, List.filter_append, List.getLast?_append]
    by_cases h : key = entry.1
    · simp [h]
    · have hother : ¬entry.1 = key := fun e => h e.symm
      simp [h, hother]

/-! ## First places -/

/-- The keys that some of the items have, each once, in the order of the first items that have them. -/
structure ListsInOrder {ι : Type v} (key : ι → Option κ) (items : List ι) (keys : List κ) :
    Prop where
  mem_iff : ∀ k, k ∈ keys ↔ ∃ item ∈ items, key item = some k
  inOrder : keys.Pairwise fun k k' =>
    items.findIdx (fun item => key item = some k) < items.findIdx (fun item => key item = some k')

/-- Listing the keys of the items without repetitions is listing them in order. -/
theorem listsInOrder_eraseDups [BEq κ] [LawfulBEq κ] {ι : Type v} (key : ι → Option κ)
    (items : List ι) : ListsInOrder key items (items.filterMap key).eraseDups where
  mem_iff k := by rw [List.mem_eraseDups, List.mem_filterMap]
  inOrder := by
    induction items using List.reverseRecOn with
    | nil => exact .nil
    | append_singleton items item ih =>
      -- one more item does not change where the keys that the others have are found first
      have hfound : ∀ k ∈ items.filterMap key,
          items.findIdx (fun item => key item = some k) < items.length := by
        intro k hk
        obtain ⟨other, hother, hkey⟩ := List.mem_filterMap.mp hk
        exact List.findIdx_lt_length.mpr ⟨other, hother, decide_eq_true hkey⟩
      have hkept : ∀ k ∈ (items.filterMap key).eraseDups,
          (items ++ [item]).findIdx (fun item => key item = some k) =
            items.findIdx fun item => key item = some k := by
        intro k hk
        rw [List.findIdx_append, if_pos (hfound k (List.mem_eraseDups.mp hk))]
      have hothers : (items.filterMap key).eraseDups.Pairwise fun k k' =>
          (items ++ [item]).findIdx (fun item => key item = some k) <
            (items ++ [item]).findIdx fun item => key item = some k' := by
        refine ih.imp_of_mem fun {k k'} hk hk' hlt => ?_
        rwa [hkept k hk, hkept k' hk']
      rw [List.filterMap_append]
      cases hkey : key item with
      | none =>
        rw [List.filterMap_cons_none hkey, List.filterMap_nil, List.append_nil]
        exact hothers
      | some k' =>
        rw [List.filterMap_cons_some hkey, List.filterMap_nil, eraseDups_append_singleton]
        split
        · exact hothers
        · rename_i hnew
          refine List.pairwise_append.mpr ⟨hothers, List.pairwise_singleton _ _, ?_⟩
          intro k hk k'' hk''
          rw [List.mem_singleton] at hk''
          subst hk''
          have hnone : ¬ items.findIdx (fun item => key item = some k'') < items.length := by
            rw [List.findIdx_lt_length]
            rintro ⟨other, hother, hfirst⟩
            exact hnew (List.mem_filterMap.mpr ⟨other, hother, of_decide_eq_true hfirst⟩)
          rw [hkept k hk, List.findIdx_append, if_neg hnone]
          exact Nat.lt_of_lt_of_le (hfound k (List.mem_eraseDups.mp hk)) (Nat.le_add_left _ _)

/-! ## Maps with the same entries in another order -/

/-- Lists with the same elements up to order are so without their repetitions. -/
theorem perm_eraseDups [BEq κ] [LawfulBEq κ] {keys keys' : List κ} (h : keys.Perm keys') :
    keys.eraseDups.Perm keys'.eraseDups := by
  rw [List.perm_ext_iff_of_nodup (nodup_eraseDups keys) (nodup_eraseDups keys')]
  intro key
  rw [List.mem_eraseDups, List.mem_eraseDups]
  exact h.mem_iff

/-- Maps whose entries are the same up to order have the same values. -/
theorem get?_eq_of_perm {m m' : OrderedMap κ α} (h : m.entries.Perm m'.entries) (key : κ) :
    m.get? key = m'.get? key := by
  apply Option.ext
  intro a
  rw [get?_eq_some_iff, get?_eq_some_iff]
  exact h.mem_iff

/-- What is kept of lists that belong to the keys, if it all belongs to one key, comes from the value of
that key. -/
theorem filter_flatMap_values {γ : Type v} (m : OrderedMap κ α) (f : α → List γ) {q : γ → Bool}
    {key : κ} (h : ∀ entry ∈ m.entries, ∀ c ∈ f entry.2, q c = true → entry.1 = key) :
    (m.values.flatMap f).filter q = (((m.get? key).map f).getD []).filter q := by
  obtain ⟨entries, hnodup⟩ := m
  unfold values get?
  simp only at h ⊢
  induction entries with
  | nil => rfl
  | cons entry rest ih =>
    obtain ⟨k, a⟩ := entry
    obtain ⟨hnew, hrest⟩ := List.nodup_cons.mp hnodup
    have hlater := ih hrest fun entry hentry => h entry (List.mem_cons_of_mem _ hentry)
    rw [List.map_cons, List.flatMap_cons, List.filter_append, hlater, List.lookup_cons]
    by_cases hk : key = k
    · -- no other entry has the key, so nothing is kept of the rest
      subst hk
      have hnone : rest.lookup key = none := by
        rw [List.lookup_eq_none_iff]
        intro entry hentry
        rw [bne_iff_ne]
        rintro rfl
        exact hnew (List.mem_map.mpr ⟨entry, hentry, rfl⟩)
      simp [hnone]
    · have hothers : (f a).filter q = [] := by
        rw [List.filter_eq_nil_iff]
        intro c hc hq
        exact hk (h (k, a) List.mem_cons_self c hc hq).symm
      have hbeq : (key == k) = false := beq_eq_false_iff_ne.mpr hk
      rw [hothers, List.nil_append, hbeq]

end OrderedMap

end SourceIndex
