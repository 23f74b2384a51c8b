import SourceIndex.Snapshot.Basic
import SourceIndex.Proofs.Infix
import SourceIndex.Proofs.OrderedMap

/-!
# Symbol tables and graphs of imports

A symbol table has the keys of its symbols, each at its first place, and under a key the last symbol
with that key. `IsTableOf` says what the entries are, with the files that mention them in the order of
their first mentions. A restricted table has the keys asked for that the table has, in the order in which
they were asked for first. A graph of imports has the keys of the records, each with what its record
imports.
-/

namespace SourceIndex

/-- A chunk of another file mentions a symbol. -/
def Symbol.IsMentionedBy (s : Symbol) (c : Chunk) : Prop :=
  c.path ≠ s.path ∧ s.name <:+: c.content

instance (s : Symbol) (c : Chunk) : Decidable (s.IsMentionedBy c) :=
  inferInstanceAs (Decidable (_ ∧ _))

namespace SymbolTable

/-- A symbol is the last one with a key. -/
def IsLast (symbols : List Symbol) (key : Text) (s : Symbol) : Prop :=
  ∃ before after, symbols = before ++ s :: after ∧ s.key = key ∧ ∀ t ∈ after, t.key ≠ key

/-- A table has one entry for each key of the symbols, in the order of the first symbols with these keys.
It is the last symbol with the key, with the files that mention it: those other than its own of which
some chunk contains its name, in the order of the first such chunks. -/
structure IsTableOf (table : SymbolTable) (symbols : List Symbol) (chunks : List Chunk) : Prop where
  keys : OrderedMap.ListsInOrder (fun s : Symbol => some s.key) symbols table.keys
  isLast : ∀ key e, (key, e) ∈ table.entries →
    ∃ s, IsLast symbols key s ∧ e = { s with references := e.references }
  references : ∀ key e, (key, e) ∈ table.entries →
    OrderedMap.ListsInOrder (fun c : Chunk => if e.IsMentionedBy c then some c.path else none) chunks
      e.references

/-- The table of symbols is a map from a list. -/
theorem ofSymbols_eq_ofList (symbols : List Symbol) :
    ofSymbols symbols = .ofList (symbols.map fun s => (s.key, s)) := by
  unfold ofSymbols OrderedMap.ofList
  rw [List.foldl_map]

/-- The keys of a table are those of the symbols, each at its first place. -/
theorem keys_build (symbols : List Symbol) (chunks : List Chunk) :
    (build symbols chunks).keys = (symbols.map Symbol.key).eraseDups := by
  unfold build
  rw [OrderedMap.keys_mapValues, ofSymbols_eq_ofList, OrderedMap.keys_ofList, List.map_map]
  rfl

/-- The entry of a key is the last symbol with that key, with the files that mention it. -/
theorem get?_build (symbols : List Symbol) (chunks : List Chunk) (key : Text) :
    (build symbols chunks).get? key =
      ((symbols.filter fun s => s.key = key).getLast?).map fun s =>
        { s with references := mentions chunks s } := by
  unfold build
  rw [OrderedMap.get?_mapValues, ofSymbols_eq_ofList, OrderedMap.get?_ofList, List.filter_map,
    List.getLast?_map, Option.map_map, Option.map_map]
  rfl

/-- The keys of a table are those of the symbols. -/
theorem mem_keys_build {symbols : List Symbol} {chunks : List Chunk} {key : Text} :
    key ∈ (build symbols chunks).keys ↔ ∃ s ∈ symbols, s.key = key := by
  rw [keys_build, List.mem_eraseDups, List.mem_map]

/-- The last symbol with a key is the last of those that have it. -/
theorem isLast_of_getLast? {symbols : List Symbol} {key : Text} {s : Symbol}
    (h : (symbols.filter fun s => s.key = key).getLast? = some s) : IsLast symbols key s := by
  obtain ⟨others, hothers⟩ := List.getLast?_eq_some_iff.mp h
  obtain ⟨before, rest, rfl, -, hlast⟩ := List.filter_eq_append_iff.mp hothers
  obtain ⟨between, after, rfl, -, hkey, hafter⟩ := List.filter_eq_cons_iff.mp hlast
  refine ⟨before ++ between, after, (List.append_assoc _ _ _).symm, of_decide_eq_true hkey, ?_⟩
  exact fun t ht => of_decide_eq_false (Bool.not_eq_true _ ▸ List.filter_eq_nil_iff.mp hafter t ht)

/-- An entry of a table is the last symbol with its key, with the files that mention it. -/
theorem exists_isLast_of_mem_build {symbols : List Symbol} {chunks : List Chunk}
    {entry : Text × Symbol} (h : entry ∈ (build symbols chunks).entries) :
    ∃ s, IsLast symbols entry.1 s ∧ entry.2 = { s with references := mentions chunks s } := by
  have hget := OrderedMap.get?_eq_some_iff.mpr h
  rw [get?_build] at hget
  obtain ⟨s, hlast, hentry⟩ := Option.map_eq_some_iff.mp hget
  exact ⟨s, isLast_of_getLast? hlast, hentry.symm⟩

/-- An entry of a table is one of the symbols with the files that mention it. -/
theorem exists_of_mem_build {symbols : List Symbol} {chunks : List Chunk} {entry : Text × Symbol}
    (h : entry ∈ (build symbols chunks).entries) :
    ∃ s ∈ symbols, entry.2 = { s with references := mentions chunks s } := by
  obtain ⟨s, ⟨before, after, rfl, -⟩, hentry⟩ := exists_isLast_of_mem_build h
  exact ⟨s, List.mem_append_right before List.mem_cons_self, hentry⟩

/-- The files that mention a symbol are those of chunks of other files. -/
theorem exists_of_mem_mentions {chunks : List Chunk} {s : Symbol} {path : Text}
    (h : path ∈ mentions chunks s) : path ≠ s.path ∧ ∃ c ∈ chunks, c.path = path := by
  rw [mentions, List.mem_eraseDups, List.mem_map] at h
  obtain ⟨c, hc, rfl⟩ := h
  obtain ⟨hmem, hother⟩ := List.mem_filter.mp hc
  rw [Bool.and_eq_true, bne_iff_ne] at hother
  exact ⟨hother.1, c, hmem, rfl⟩

/-- The files that mention a symbol are listed in the order of their first mentions. -/
theorem listsInOrder_mentions (chunks : List Chunk) (s : Symbol) :
    OrderedMap.ListsInOrder (fun c : Chunk => if s.IsMentionedBy c then some c.path else none) chunks
      (mentions chunks s) := by
  have hmentions : mentions chunks s =
      (chunks.filterMap fun c => if s.IsMentionedBy c then some c.path else none).eraseDups := by
    rw [mentions, ← List.filterMap_eq_map, List.filterMap_filter]
    congr 2
    funext c
    have hiff : (c.path != s.path && c.content.contains s.name) = true ↔ s.IsMentionedBy c := by
      rw [Bool.and_eq_true, bne_iff_ne, Text.contains_iff, Symbol.IsMentionedBy]
    simp only [hiff]
    rfl
  rw [hmentions]
  exact OrderedMap.listsInOrder_eraseDups _ chunks

/-- The table of the symbols of any files, with references from any chunks, has one entry for each path
and name in the order of their first declarations. An entry has the name, the kind, the line and the
export of the last declaration, and it lists the paths of the chunks of other files that contain its
name, each once and in the order of the first such chunks. -/
theorem isTableOf_build (files : List FileRecord) (chunks : List Chunk) :
    IsTableOf (build (files.flatMap (·.symbols)) chunks) (files.flatMap (·.symbols)) chunks := by
  generalize files.flatMap (·.symbols) = symbols
  constructor
  case keys =>
    have hlisted := OrderedMap.listsInOrder_eraseDups (fun s : Symbol => some s.key) symbols
    rwa [List.filterMap_eq_map', ← keys_build symbols chunks] at hlisted
  case isLast =>
    intro key e he
    obtain ⟨s, hs, rfl : e = _⟩ := exists_isLast_of_mem_build he
    exact ⟨s, hs, rfl⟩
  case references =>
    intro key e he
    obtain ⟨s, -, rfl : e = _⟩ := exists_isLast_of_mem_build he
    exact listsInOrder_mentions chunks s

/-! ## Restricted tables -/

/-- A restricted table is the map of the entries found for the keys. -/
theorem restrict_eq_ofList (table : SymbolTable) (keys : List Text) :
    table.restrict keys = .ofList (keys.filterMap fun key => (table.get? key).map (key, ·)) := by
  unfold restrict OrderedMap.ofList
  rw [List.foldl_filterMap]
  congr
  funext found key
  cases table.get? key <;> rfl

/-- The keys of a restricted table are those asked for that the table has, in the order in which they
were asked for first. -/
theorem keys_restrict (table : SymbolTable) (keys : List Text) :
    (table.restrict keys).keys = (keys.filter table.contains).eraseDups := by
  have hfound : (fun key => ((table.get? key).map (key, ·)).map Prod.fst) =
      Option.guard table.contains := by
    funext key
    unfold OrderedMap.contains Option.guard
    cases h : table.get? key <;> simp [h]
  rw [restrict_eq_ofList, OrderedMap.keys_ofList, List.map_filterMap, hfound,
    List.filterMap_eq_filter]

/-- A restricted table has only entries of the table. -/
theorem mem_of_mem_restrict {table : SymbolTable} {keys : List Text} {entry : Text × Symbol}
    (h : entry ∈ (table.restrict keys).entries) : entry ∈ table.entries := by
  have hget := OrderedMap.get?_eq_some_iff.mpr h
  rw [restrict_eq_ofList, OrderedMap.get?_ofList] at hget
  obtain ⟨found, hlast, hvalue⟩ := Option.map_eq_some_iff.mp hget
  -- the last entry found for the key is one that the table has under it
  obtain ⟨hfound, hkey⟩ := List.mem_filter.mp (List.mem_of_getLast? hlast)
  obtain ⟨key, -, hentry⟩ := List.mem_filterMap.mp hfound
  obtain ⟨s, hs, rfl⟩ := Option.map_eq_some_iff.mp hentry
  obtain ⟨k, a⟩ := entry
  obtain rfl : s = a := hvalue
  obtain rfl : key = k := by simpa using hkey
  exact OrderedMap.get?_eq_some_iff.mp hs

end SymbolTable

/-! ## Imports -/

/-- The graph of records that are kept under their own paths has the modules that each of them
imports. -/
theorem Snapshot.importsOf_eq_mapValues {files : OrderedMap Text FileRecord}
    (h : ∀ entry ∈ files.entries, entry.2.path = entry.1) :
    importsOf files = files.mapValues fun _ f => importedModules f.chunks := by
  have hentries : (files.values.map fun f => (f.path, importedModules f.chunks)) =
      files.entries.map fun entry => (entry.1, importedModules entry.2.chunks) := by
    rw [OrderedMap.values, List.map_map]
    exact List.map_congr_left fun entry hentry => by rw [← h entry hentry]; rfl
  -- distinct paths keep their places when the graph is filled entry by entry
  have hnodup : ((files.entries.map fun entry => (entry.1, importedModules entry.2.chunks)).map
      Prod.fst).Nodup := by
    rw [List.map_map]
    exact files.nodup
  apply OrderedMap.ext
  rw [importsOf, hentries, OrderedMap.entries_ofList hnodup, OrderedMap.entries_mapValues]

end SourceIndex
