import SourceIndex.Proofs.JsonValue
import Mathlib.Data.List.Forall2

/-!
# Sorted fields

A value is written with the fields of its objects in the order of their keys. That is another value, but
an equal one: the order of fields does not matter. So what is written is read as an equal value, and all
of it is printable ASCII.
-/

namespace SourceIndex

namespace Json

/-- Values are equal up to the order of fields: arrays item by item, objects key by key. -/
inductive Equal : Json → Json → Prop where
  | refl (v : Json) : Equal v v
  | arr {items items' : List Json} (h : List.Forall₂ Equal items items') :
      Equal (.arr items) (.arr items')
  | obj {fields fields' : List (Text × Json)}
      (h : ∀ key, Option.Rel Equal (field? fields key) (field? fields' key)) :
      Equal (.obj fields) (.obj fields')

/-- Equal objects have equal values under every key. -/
theorem Equal.rel_field? {fields fields' : List (Text × Json)}
    (h : Equal (.obj fields) (.obj fields')) (key : Text) :
    Option.Rel Equal (field? fields key) (field? fields' key) := by
  cases h with
  | refl =>
    cases field? fields key with
    | none => exact .none
    | some v => exact .some (.refl v)
  | obj h => exact h key

/-- Only the string itself is equal to a string. -/
theorem Equal.eq_str {v : Json} {s : Text} (h : Equal v (.str s)) : v = .str s := by
  cases h
  rfl

/-! ## The order of fields -/

theorem sortedItems_eq_map (items : List Json) : sortedItems items = items.map sorted := by
  induction items with
  | nil => rfl
  | cons v rest ih => rw [sortedItems, ih, List.map_cons]

theorem sortedFields_eq_map (fields : List (Text × Json)) :
    sortedFields fields = fields.map fun field => (field.1, sorted field.2) := by
  induction fields with
  | nil => rfl
  | cons field rest ih => rw [sortedFields, ih, List.map_cons]

/-- The sorted fields are the fields in another order. -/
theorem sortFields_perm (fields : List (Text × Json)) : (sortFields fields).Perm fields :=
  List.mergeSort_perm fields keyOrder

/-- Sorting keeps a value plain. -/
theorem IsPlain.sorted {v : Json} (h : v.IsPlain) : v.sorted.IsPlain := by
  induction h with
  | null => exact .null
  | bool b => exact .bool b
  | int n => exact .int n
  | str s => exact .str s
  | @arr items hplain ih =>
    rw [Json.sorted, sortedItems_eq_map]
    exact .arr (by simpa using ih)
  | @obj fields hkeys hplain ih =>
    rw [Json.sorted, sortedFields_eq_map]
    have hperm := sortFields_perm (fields.map fun field => (field.1, Json.sorted field.2))
    refine .obj ((hperm.map Prod.fst).nodup_iff.mpr ?_) fun field hfield => ?_
    · rwa [List.map_map]
    · obtain ⟨source, hsource, rfl⟩ := List.mem_map.mp (hperm.mem_iff.mp hfield)
      exact ih source hsource

/-- The values of fields with distinct keys are those of a map; only the instances differ by which the
look-ups compare keys. -/
theorem field?_entries (m : OrderedMap Text Json) (key : Text) :
    field? m.entries key = m.get? key :=
  congrArg (fun inst => @List.lookup Text Json inst key m.entries) (lawful_beq_subsingleton _ _)

/-- Fields with distinct keys hold the same values in every order. -/
theorem field?_eq_of_perm {fields fields' : List (Text × Json)} (h : fields.Perm fields')
    (hkeys : (fields.map Prod.fst).Nodup) (key : Text) :
    field? fields key = field? fields' key := by
  have hkeys' : (fields'.map Prod.fst).Nodup := (h.map Prod.fst).nodup_iff.mp hkeys
  have hentries := field?_entries ⟨fields, hkeys⟩ key
  have hentries' := field?_entries ⟨fields', hkeys'⟩ key
  refine hentries.trans (Eq.trans ?_ hentries'.symm)
  refine Option.ext fun v => ?_
  rw [OrderedMap.get?_eq_some_iff, OrderedMap.get?_eq_some_iff]
  exact h.mem_iff

/-- A value with sorted fields is equal to the value. -/
theorem IsPlain.equal_sorted {v : Json} (h : v.IsPlain) : Equal v.sorted v := by
  induction h with
  | null | bool | int | str => exact .refl _
  | @arr items hplain ih =>
    rw [Json.sorted, sortedItems_eq_map]
    exact .arr (List.forall₂_map_left_iff.mpr (List.forall₂_same.mpr ih))
  | @obj fields hkeys hplain ih =>
    rw [Json.sorted, sortedFields_eq_map]
    refine .obj fun key => ?_
    have hsorted : field? (sortFields (fields.map fun field => (field.1, Json.sorted field.2))) key =
        (field? fields key).map Json.sorted := by
      have hmap := OrderedMap.get?_mapValues (fun _ v => Json.sorted v) ⟨fields, hkeys⟩ key
      rw [← field?_entries, ← field?_entries] at hmap
      exact (field?_eq_of_perm (sortFields_perm _).symm (by rwa [List.map_map]) key).symm.trans hmap
    rw [hsorted]
    cases hfield : field? fields key with
    | none => exact .none
    | some v =>
      rw [field?_entries ⟨fields, hkeys⟩, OrderedMap.get?_eq_some_iff] at hfield
      exact .some (ih _ hfield)

/-- A value is read as it was written, with its fields sorted. -/
theorem IsPlain.read?_write {v : Json} (h : v.IsPlain) : read? v.write = some v.sorted := by
  have hread := h.sorted.readsBack (2 * v.write.length + 2) [] (by rw [write]; omega) closes_nil
  have hskip := h.sorted.skipBlanks_append []
  rw [List.append_nil] at hread hskip
  rw [write] at hread ⊢
  simp only [read?, hskip, hread]
  rfl

/-! ## What is written -/

/-- A written integer is printable. -/
theorem isPrintable_of_mem_ofInt {n : Int} {c : Char} (h : c ∈ Text.ofInt n) : IsPrintable c := by
  have hdigits : ∀ m, c ∈ Text.ofNat m → IsPrintable c := by
    intro m hc
    obtain ⟨hlow, hhigh⟩ : 0x30 ≤ c.toNat ∧ c.toNat ≤ 0x39 :=
      Char.isDigit_iff_toNat.mp (Text.isDigit_of_mem_ofNat hc)
    exact ⟨by omega, by omega⟩
  cases n with
  | ofNat m => exact hdigits m h
  | negSucc m =>
    rcases List.mem_cons.mp h with rfl | h
    · decide
    · exact hdigits _ h

/-- Written items are printable if each of them is. -/
theorem isPrintable_of_mem_writeItems {items : List Json}
    (h : ∀ v ∈ items, ∀ c ∈ writeAsIs v, IsPrintable c) : ∀ c ∈ writeItems items, IsPrintable c := by
  induction items with
  | nil => simp [writeItems]
  | cons v more ih =>
    cases more with
    | nil =>
      rw [writeItems]
      exact h v List.mem_cons_self
    | cons w more =>
      rw [writeItems_cons_cons, List.forall_mem_append, List.forall_mem_cons, List.forall_mem_cons]
      exact ⟨h v List.mem_cons_self, by decide, by decide,
        ih fun u hu => h u (List.mem_cons_of_mem v hu)⟩

/-- Written fields are printable if each of their values is. -/
theorem isPrintable_of_mem_writeFields {fields : List (Text × Json)}
    (h : ∀ field ∈ fields, ∀ c ∈ writeAsIs field.2, IsPrintable c) :
    ∀ c ∈ writeFields fields, IsPrintable c := by
  induction fields with
  | nil => simp [writeFields]
  | cons field more ih =>
    obtain ⟨k, v⟩ := field
    have hfirst : ∀ c ∈ writeString k ++ ':' :: ' ' :: writeAsIs v, IsPrintable c := by
      rw [List.forall_mem_append, List.forall_mem_cons, List.forall_mem_cons]
      exact ⟨fun _ => isPrintable_of_mem_writeString, by decide, by decide,
        h (k, v) List.mem_cons_self⟩
    cases more with
    | nil =>
      rw [writeFields]
      exact hfirst
    | cons field more =>
      rw [writeFields_cons_cons, List.forall_mem_append, List.forall_mem_cons,
        List.forall_mem_cons]
      exact ⟨hfirst, by decide, by decide, ih fun f hf => h f (List.mem_cons_of_mem _ hf)⟩

/-- A written value is printable. -/
theorem IsPlain.isPrintable_of_mem_writeAsIs {v : Json} (h : v.IsPlain) :
    ∀ c ∈ writeAsIs v, IsPrintable c := by
  induction h with
  | null => exact isPrintable_of_all rfl
  | bool b => cases b <;> exact isPrintable_of_all rfl
  | int n => exact fun _ => isPrintable_of_mem_ofInt
  | str s =>
    rw [writeAsIs]
    exact fun _ => isPrintable_of_mem_writeString
  | @arr items hplain ih =>
    rw [writeAsIs, List.forall_mem_append, List.forall_mem_cons]
    exact ⟨⟨by decide, isPrintable_of_mem_writeItems ih⟩, isPrintable_of_all rfl⟩
  | @obj fields hkeys hplain ih =>
    rw [writeAsIs, List.forall_mem_append, List.forall_mem_cons]
    exact ⟨⟨by decide, isPrintable_of_mem_writeFields ih⟩, isPrintable_of_all rfl⟩

/-- What is written of a value is printable, whatever the order of its fields. -/
theorem IsPlain.isPrintable_of_mem_write {v : Json} (h : v.IsPlain) :
    ∀ c ∈ v.write, IsPrintable c :=
  h.sorted.isPrintable_of_mem_writeAsIs

end Json

end SourceIndex
