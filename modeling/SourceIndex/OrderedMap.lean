/-!
# Maps in insertion order

A map from keys to values that remembers the order in which its keys were first set. Setting a key
again keeps its place; erasing it and setting it anew moves it to the end.
-/

namespace SourceIndex

universe u v

variable {κ : Type u} {α : Type v} [DecidableEq κ]

/-- The entries with the value of `key` replaced by what `f` makes of it; a new key goes to the
end. -/
def alterEntries (key : κ) (f : Option α → α) : List (κ × α) → List (κ × α)
  | [] => [(key, f none)]
  | (k, a) :: rest => if k = key then (k, f (some a)) :: rest else (k, a) :: alterEntries key f rest

/-- Altering keeps the keys in their order and adds a new one at the end. -/
theorem map_fst_alterEntries (key : κ) (f : Option α → α) (entries : List (κ × α)) :
    (alterEntries key f entries).map Prod.fst =
      if key ∈ entries.map Prod.fst then entries.map Prod.fst
      else entries.map Prod.fst ++ [key] := by
  induction entries with
  | nil => simp [alterEntries]
  | cons entry rest ih =>
    obtain ⟨k, a⟩ := entry
    by_cases h : k = key
    · simp [alterEntries, h]
    · have h' : key ≠ k := fun e => h e.symm
      simp only [alterEntries, if_neg h, List.map_cons, ih, List.mem_cons, h', false_or]
      split <;> simp

/-- Entries with distinct keys, in the order in which the keys were first set. -/
structure OrderedMap (κ : Type u) (α : Type v) where
  entries : List (κ × α) := []
  nodup : (entries.map Prod.fst).Nodup := by simp

namespace OrderedMap

/-- The map without entries. -/
def empty : OrderedMap κ α where

/-- The keys, in the order in which they were first set. -/
def keys (m : OrderedMap κ α) : List κ :=
  m.entries.map Prod.fst

/-- The values, in the order of their keys. -/
def values (m : OrderedMap κ α) : List α :=
  m.entries.map Prod.snd

/-- The number of keys. -/
def size (m : OrderedMap κ α) : Nat :=
  m.entries.length

/-- The value of a key. -/
def get? (m : OrderedMap κ α) (key : κ) : Option α :=
  m.entries.lookup key

/-- Whether a key has a value. -/
def contains (m : OrderedMap κ α) (key : κ) : Bool :=
  (m.get? key).isSome

/-- The map with the value of a key replaced by what `f` makes of it. -/
def alter (m : OrderedMap κ α) (key : κ) (f : Option α → α) : OrderedMap κ α where
  entries := alterEntries key f m.entries
  nodup := by
    rw [map_fst_alterEntries]
    split
    · exact m.nodup
    · rename_i h
      refine List.nodup_append.mpr ⟨m.nodup, by simp, ?_⟩
      intro a ha b hb
      rw [List.mem_singleton] at hb
      exact fun e => h (hb ▸ e ▸ ha)

/-- The map with the value of a key set. -/
def insert (m : OrderedMap κ α) (key : κ) (a : α) : OrderedMap κ α :=
  m.alter key fun _ => a

/-- The map without a key. -/
def erase (m : OrderedMap κ α) (key : κ) : OrderedMap κ α where
  entries := m.entries.filter fun entry => entry.1 ≠ key
  nodup := m.nodup.sublist (List.filter_sublist.map Prod.fst)

/-- The map with a key set last, wherever it stood before. -/
def insertLast (m : OrderedMap κ α) (key : κ) (a : α) : OrderedMap κ α :=
  (m.erase key).insert key a

/-- The map in which the entries of a list were set one after the other. -/
def ofList (entries : List (κ × α)) : OrderedMap κ α :=
  entries.foldl (fun m entry => m.insert entry.1 entry.2) empty

/-- The map with every value changed by `f`. -/
def mapValues {β : Type v} (f : κ → α → β) (m : OrderedMap κ α) : OrderedMap κ β where
  entries := m.entries.map fun entry => (entry.1, f entry.1 entry.2)
  nodup := by simpa [List.map_map, Function.comp_def] using m.nodup

end OrderedMap

end SourceIndex
