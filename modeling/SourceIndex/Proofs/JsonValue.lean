import SourceIndex.Proofs.JsonScalar
import SourceIndex.Proofs.JsonString
import SourceIndex.Proofs.OrderedMap

/-!
# Values are read as they were written

A plain value is read as it was written, with its fields in the order in which they stand. Twice the
length of the text bounds the steps of the reader, since every step reads a character or follows one
that did.
-/

namespace SourceIndex

namespace Json

/-- A value made of integers, strings, truth values and the empty value, with distinct keys in each
object. -/
inductive IsPlain : Json → Prop where
  | null : IsPlain .null
  | bool (b : Bool) : IsPlain (.bool b)
  | int (n : Int) : IsPlain (.num (.int n))
  | str (s : Text) : IsPlain (.str s)
  | arr {items : List Json} (h : ∀ v ∈ items, IsPlain v) : IsPlain (.arr items)
  | obj {fields : List (Text × Json)} (hkeys : (fields.map Prod.fst).Nodup)
      (h : ∀ field ∈ fields, IsPlain field.2) : IsPlain (.obj fields)

/-! ## Starts of values -/

/-- No blanks are skipped in front of other characters. -/
theorem skipBlanks_cons {c : Char} (h : c ∉ [' ', '\t', '\n', '\r']) (s : Text) :
    skipBlanks (c :: s) = c :: s := by
  simp only [List.mem_cons, List.not_mem_nil, or_false, not_or] at h
  simp [skipBlanks, h]

theorem skipBlanks_space (s : Text) : skipBlanks (' ' :: s) = skipBlanks s :=
  rfl

/-- A text without a quote or a bracket in front is read as a number or a word. -/
theorem value?_eq_scalar? {c : Char} (h : c ∉ ['"', '[', '\x7b']) (steps : Nat) (s : Text) :
    value? (steps + 1) (c :: s) = scalar? (c :: s) := by
  simp only [List.mem_cons, List.not_mem_nil, or_false, not_or] at h
  rw [value?]
  · exact fun _ he => h.1 (List.cons.inj he).1
  · exact fun _ he => h.2.1 (List.cons.inj he).1
  · exact fun _ he => h.2.2 (List.cons.inj he).1

/-- A written value starts neither with a blank nor with the end of an array. -/
theorem IsPlain.exists_cons {v : Json} (h : v.IsPlain) :
    ∃ c s, writeAsIs v = c :: s ∧ c ∉ [' ', '\t', '\n', '\r', ']'] := by
  cases h with
  | null => exact ⟨'n', _, by rw [writeAsIs]; rfl, by decide⟩
  | bool b =>
    cases b with
    | false => exact ⟨'f', _, by rw [writeAsIs]; rfl, by decide⟩
    | true => exact ⟨'t', _, by rw [writeAsIs]; rfl, by decide⟩
  | int n =>
    obtain ⟨c, s, hn, hc⟩ := exists_cons_ofInt n
    refine ⟨c, s, by rw [writeAsIs]; exact hn, fun hmem => ?_⟩
    simp only [List.mem_cons, List.not_mem_nil, or_false] at hmem
    rcases hmem with rfl | rfl | rfl | rfl | rfl <;> revert hc <;> decide
  | str s => exact ⟨'"', _, by rw [writeAsIs]; rfl, by decide⟩
  | arr => exact ⟨'[', _, by rw [writeAsIs]; rfl, by decide⟩
  | obj => exact ⟨'\x7b', _, by rw [writeAsIs]; rfl, by decide⟩

/-- No blanks are skipped in front of a written value. -/
theorem IsPlain.skipBlanks_append {v : Json} (h : v.IsPlain) (rest : Text) :
    skipBlanks (writeAsIs v ++ rest) = writeAsIs v ++ rest := by
  obtain ⟨c, s, hwrite, hc⟩ := h.exists_cons
  rw [hwrite, List.cons_append]
  exact skipBlanks_cons (fun hblank => hc (List.mem_append_left [']'] hblank)) _

/-- The value is read as it was written, in as many steps as twice the length of its text. -/
def ReadsBack (v : Json) : Prop :=
  ∀ steps rest, 2 * (writeAsIs v).length ≤ steps → Closes rest →
    value? steps (writeAsIs v ++ rest) = some (v, rest)

section Steps

variable {steps : Nat} {s rest : Text} {v : Json}

/-- A bracket behind an item ends the array. -/
theorem items?_last (h : value? steps s = some (v, ']' :: rest)) (read : List Json) :
    items? (steps + 1) read s = some (.arr (read.reverse ++ [v]), rest) := by
  have hclose : skipBlanks (']' :: rest) = ']' :: rest := skipBlanks_cons (by decide) rest
  simp only [items?, h, hclose, List.reverse_cons]

/-- A comma behind an item makes room for the next one. -/
theorem items?_comma (h : value? steps s = some (v, ',' :: rest)) (read : List Json) :
    items? (steps + 1) read s = items? steps (v :: read) (skipBlanks rest) := by
  have hcomma : skipBlanks (',' :: rest) = ',' :: rest := skipBlanks_cons (by decide) rest
  simp only [items?, h, hcomma]

theorem writeString_append (k s : Text) :
    writeString k ++ s = '"' :: (k.flatMap writeChar ++ '"' :: s) := by
  simp [writeString]

/-- A brace behind the value of a field ends the object. -/
theorem fields?_last (h : value? steps (skipBlanks s) = some (v, '\x7d' :: rest)) (k : Text)
    (read : List (Text × Json)) :
    fields? (steps + 1) read (writeString k ++ ':' :: s) = some (.obj (setField k v read), rest) := by
  have hcolon : skipBlanks (':' :: s) = ':' :: s := skipBlanks_cons (by decide) s
  have hclose : skipBlanks ('\x7d' :: rest) = '\x7d' :: rest := skipBlanks_cons (by decide) rest
  simp only [writeString_append, fields?, string?_flatMap_writeChar, hcolon, h, hclose]

/-- A comma behind the value of a field makes room for the next one. -/
theorem fields?_comma (h : value? steps (skipBlanks s) = some (v, ',' :: rest)) (k : Text)
    (read : List (Text × Json)) :
    fields? (steps + 1) read (writeString k ++ ':' :: s) =
      fields? steps (setField k v read) (skipBlanks rest) := by
  have hcolon : skipBlanks (':' :: s) = ':' :: s := skipBlanks_cons (by decide) s
  have hcomma : skipBlanks (',' :: rest) = ',' :: rest := skipBlanks_cons (by decide) rest
  simp only [writeString_append, fields?, string?_flatMap_writeChar, hcolon, h, hcomma]

end Steps

theorem writeItems_cons_cons (v w : Json) (more : List Json) :
    writeItems (v :: w :: more) = writeAsIs v ++ ',' :: ' ' :: writeItems (w :: more) := by
  rw [writeItems]
  exact fun h => List.cons_ne_nil w more h

theorem writeFields_cons_cons (k : Text) (v : Json) (field : Text × Json)
    (more : List (Text × Json)) :
    writeFields ((k, v) :: field :: more) =
      writeString k ++ ':' :: ' ' :: writeAsIs v ++ ',' :: ' ' :: writeFields (field :: more) := by
  rw [writeFields]
  exact fun h => List.cons_ne_nil field more h

/-- Written items start neither with a blank nor with the end of an array. -/
theorem exists_cons_writeItems {items : List Json} (hne : items ≠ [])
    (h : ∀ v ∈ items, v.IsPlain) :
    ∃ c s, writeItems items = c :: s ∧ c ∉ [' ', '\t', '\n', '\r', ']'] := by
  obtain ⟨v, more, rfl⟩ := List.exists_cons_of_ne_nil hne
  obtain ⟨c, s, hv, hc⟩ := (h v List.mem_cons_self).exists_cons
  cases more with
  | nil => exact ⟨c, s, by rw [writeItems, hv], hc⟩
  | cons w more => exact ⟨c, _, by rw [writeItems_cons_cons, hv, List.cons_append], hc⟩

/-- No blanks are skipped in front of written items. -/
theorem skipBlanks_writeItems {items : List Json} (hne : items ≠ [])
    (h : ∀ v ∈ items, v.IsPlain) (rest : Text) :
    skipBlanks (writeItems items ++ rest) = writeItems items ++ rest := by
  obtain ⟨c, s, hwrite, hc⟩ := exists_cons_writeItems hne h
  rw [hwrite, List.cons_append]
  exact skipBlanks_cons (fun hblank => hc (List.mem_append_left [']'] hblank)) _

/-- Written fields start with a quote. -/
theorem exists_cons_writeFields {fields : List (Text × Json)} (hne : fields ≠ []) :
    ∃ s, writeFields fields = '"' :: s := by
  obtain ⟨⟨k, v⟩, more, rfl⟩ := List.exists_cons_of_ne_nil hne
  cases more with
  | nil => exact ⟨_, by rw [writeFields, writeString_append]⟩
  | cons field more =>
    exact ⟨_, by rw [writeFields_cons_cons, List.append_assoc, writeString_append]⟩

/-- No blanks are skipped in front of written fields. -/
theorem skipBlanks_writeFields {fields : List (Text × Json)} (hne : fields ≠ []) (rest : Text) :
    skipBlanks (writeFields fields ++ rest) = writeFields fields ++ rest := by
  obtain ⟨s, hwrite⟩ := exists_cons_writeFields hne
  rw [hwrite]
  exact skipBlanks_cons (by decide) _

/-- The items of an array are read as they were written if each of them is. -/
theorem items?_writeItems {items : List Json} (hne : items ≠ []) (hplain : ∀ v ∈ items, v.IsPlain)
    (hread : ∀ v ∈ items, ReadsBack v) (read : List Json) (steps : Nat) (rest : Text)
    (hsteps : 2 * (writeItems items).length + 1 ≤ steps) :
    items? steps read (writeItems items ++ ']' :: rest) =
      some (.arr (read.reverse ++ items), rest) := by
  -- each item takes one step, and the items before it are any that were read
  induction items generalizing read steps with
  | nil => exact absurd rfl hne
  | cons v more ih =>
    obtain ⟨steps, rfl⟩ := Nat.exists_eq_add_one_of_ne_zero (show steps ≠ 0 by omega)
    have hv := hread v List.mem_cons_self
    cases more with
    | nil =>
      rw [writeItems] at hsteps ⊢
      exact items?_last (hv _ _ (by omega) (closes_cons (by decide) rest)) read
    | cons w more =>
      rw [writeItems_cons_cons] at hsteps ⊢
      rw [List.length_append, List.length_cons, List.length_cons] at hsteps
      rw [List.append_assoc, List.cons_append, List.cons_append,
        items?_comma (hv _ _ (by omega) (closes_cons (by decide) _)), skipBlanks_space]
      have hmore : ∀ u ∈ w :: more, u.IsPlain := fun u hu => hplain u (List.mem_cons_of_mem v hu)
      rw [skipBlanks_writeItems (List.cons_ne_nil w more) hmore,
        ih (List.cons_ne_nil w more) hmore (fun u hu => hread u (List.mem_cons_of_mem v hu)) _ _
          (by omega), List.reverse_cons, List.append_assoc, List.singleton_append]

/-- The fields of an object are read as they were written if their values are, and no key is there
already. -/
theorem fields?_writeFields {fields : List (Text × Json)} (hne : fields ≠ [])
    (hplain : ∀ field ∈ fields, field.2.IsPlain) (hread : ∀ field ∈ fields, ReadsBack field.2)
    (read : List (Text × Json)) (hkeys : ((read ++ fields).map Prod.fst).Nodup) (steps : Nat)
    (rest : Text) (hsteps : 2 * (writeFields fields).length + 1 ≤ steps) :
    fields? steps read (writeFields fields ++ '\x7d' :: rest) =
      some (.obj (read ++ fields), rest) := by
  induction fields generalizing read steps with
  | nil => exact absurd rfl hne
  | cons field more ih =>
    obtain ⟨k, v⟩ := field
    obtain ⟨steps, rfl⟩ := Nat.exists_eq_add_one_of_ne_zero (show steps ≠ 0 by omega)
    have hv := hread (k, v) List.mem_cons_self
    have hblank := (hplain (k, v) List.mem_cons_self).skipBlanks_append
    -- a new key goes to the end, so the fields keep their order
    have hset : setField k v read = read ++ [(k, v)] := by
      refine OrderedMap.alterEntries_of_not_mem fun hmem => ?_
      rw [List.map_append, List.nodup_append] at hkeys
      exact hkeys.2.2 k hmem k (by simp) rfl
    cases more with
    | nil =>
      rw [writeFields] at hsteps ⊢
      rw [List.length_append, List.length_cons, List.length_cons] at hsteps
      have hvalue := hv steps ('\x7d' :: rest) (by dsimp only; omega) (closes_cons (by decide) rest)
      rw [List.append_assoc, List.cons_append, List.cons_append, fields?_last, hset]
      rw [skipBlanks_space, hblank]
      exact hvalue
    | cons field more =>
      rw [writeFields_cons_cons] at hsteps ⊢
      simp only [List.length_append, List.length_cons] at hsteps
      have hvalue := hv steps (',' :: ' ' :: (writeFields (field :: more) ++ '\x7d' :: rest))
        (by dsimp only; omega) (closes_cons (by decide) _)
      simp only [List.append_assoc, List.cons_append]
      rw [fields?_comma (by rw [skipBlanks_space, hblank]; exact hvalue), skipBlanks_space,
        skipBlanks_writeFields (List.cons_ne_nil field more), hset,
        ih (List.cons_ne_nil field more) (fun f hf => hplain f (List.mem_cons_of_mem _ hf))
          (fun f hf => hread f (List.mem_cons_of_mem _ hf)) _ (by simpa using hkeys) _ (by omega),
        List.append_assoc, List.singleton_append]

/-- An array is read as it was written if its items are. -/
theorem readsBack_arr {items : List Json} (hplain : ∀ v ∈ items, v.IsPlain)
    (hread : ∀ v ∈ items, ReadsBack v) : ReadsBack (.arr items) := by
  intro steps rest hsteps hrest
  rw [writeAsIs, List.length_append, List.length_cons, List.length_singleton] at hsteps
  obtain ⟨steps, rfl⟩ := Nat.exists_eq_add_one_of_ne_zero (show steps ≠ 0 by omega)
  rw [writeAsIs, List.append_assoc, List.cons_append, List.singleton_append]
  by_cases hne : items = []
  · subst hne
    have hclose : skipBlanks (']' :: rest) = ']' :: rest := skipBlanks_cons (by decide) rest
    simp only [writeItems, List.nil_append, value?, hclose]
  · have hitems := items?_writeItems hne hplain hread [] steps rest (by omega)
    have hskip := skipBlanks_writeItems hne hplain (']' :: rest)
    obtain ⟨c, s, hwrite, hc⟩ := exists_cons_writeItems hne hplain
    rw [hwrite, List.cons_append] at hitems hskip ⊢
    rw [value?, hskip]
    split
    · rename_i heq
      exact absurd (by simp [(List.cons.inj heq).1]) hc
    · exact hitems

/-- An object is read as it was written if its values are. -/
theorem readsBack_obj {fields : List (Text × Json)} (hkeys : (fields.map Prod.fst).Nodup)
    (hplain : ∀ field ∈ fields, field.2.IsPlain) (hread : ∀ field ∈ fields, ReadsBack field.2) :
    ReadsBack (.obj fields) := by
  intro steps rest hsteps hrest
  rw [writeAsIs, List.length_append, List.length_cons, List.length_singleton] at hsteps
  obtain ⟨steps, rfl⟩ := Nat.exists_eq_add_one_of_ne_zero (show steps ≠ 0 by omega)
  rw [writeAsIs, List.append_assoc, List.cons_append, List.singleton_append]
  by_cases hne : fields = []
  · subst hne
    have hclose : skipBlanks ('\x7d' :: rest) = '\x7d' :: rest := skipBlanks_cons (by decide) rest
    simp only [writeFields, List.nil_append, value?, hclose]
  · have hfields := fields?_writeFields hne hplain hread [] hkeys steps rest (by omega)
    have hskip := skipBlanks_writeFields hne ('\x7d' :: rest)
    obtain ⟨s, hwrite⟩ := exists_cons_writeFields hne
    rw [hwrite, List.cons_append] at hfields hskip ⊢
    rw [value?, hskip]
    exact hfields

/-- A value without a quote or a bracket in front is read as it was written if the number or the word
is. -/
theorem readsBack_of_scalar? {v : Json} {c : Char} {s : Text} (hwrite : writeAsIs v = c :: s)
    (hc : c ∉ ['"', '[', '\x7b'])
    (hread : ∀ rest, Closes rest → scalar? (writeAsIs v ++ rest) = some (v, rest)) :
    ReadsBack v := by
  intro steps rest hsteps hrest
  have hvalue := hread rest hrest
  rw [hwrite] at hsteps hvalue ⊢
  rw [List.length_cons] at hsteps
  obtain ⟨steps, rfl⟩ := Nat.exists_eq_add_one_of_ne_zero (show steps ≠ 0 by omega)
  exact (value?_eq_scalar? hc steps (s ++ rest)).trans hvalue

/-- A string is read as it was written. -/
theorem readsBack_str (s : Text) : ReadsBack (.str s) := by
  intro steps rest hsteps _
  rw [writeAsIs] at hsteps ⊢
  have hpos : 0 < (writeString s).length := List.length_pos_of_mem (List.mem_cons_self (a := '"'))
  obtain ⟨steps, rfl⟩ := Nat.exists_eq_add_one_of_ne_zero (show steps ≠ 0 by omega)
  rw [writeString_append, value?, string?_flatMap_writeChar, Option.map_some]

/-- A value is read as it was written. -/
theorem IsPlain.readsBack {v : Json} (h : v.IsPlain) : ReadsBack v := by
  induction h with
  | null =>
    refine readsBack_of_scalar? (c := 'n') (by rw [writeAsIs]; rfl) (by decide) fun rest _ => ?_
    rw [writeAsIs]
    exact (scalar?_word rest).1
  | bool b =>
    cases b with
    | true =>
      refine readsBack_of_scalar? (c := 't') (by rw [writeAsIs]; rfl) (by decide) fun rest _ => ?_
      rw [writeAsIs]
      exact (scalar?_word rest).2.1
    | false =>
      refine readsBack_of_scalar? (c := 'f') (by rw [writeAsIs]; rfl) (by decide) fun rest _ => ?_
      rw [writeAsIs]
      exact (scalar?_word rest).2.2
  | int n =>
    obtain ⟨c, s, hn, hc⟩ := exists_cons_ofInt n
    refine readsBack_of_scalar? (by rw [writeAsIs]; exact hn) ?_ fun rest hrest => ?_
    · intro hmem
      simp only [List.mem_cons, List.not_mem_nil, or_false] at hmem
      rcases hmem with rfl | rfl | rfl <;> revert hc <;> decide
    · rw [writeAsIs]
      exact scalar?_ofInt hrest n
  | str s => exact readsBack_str s
  | arr hplain ih => exact readsBack_arr hplain ih
  | obj hkeys hplain ih => exact readsBack_obj hkeys hplain ih

end Json

end SourceIndex
