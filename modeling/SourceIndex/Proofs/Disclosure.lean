import SourceIndex.Indexer
import SourceIndex.Proofs.OrderedMap
import SourceIndex.Proofs.Text
import Mathlib.Data.List.Forall2

/-!
# What a description of arguments discloses

A description tells numbers, truth values and paths as they are. Of another text it tells the length
only, of a list the number of items, of an object the names of its fields. So arguments of one shape
have one description (`forall₂_describe`), in whatever order they are given and whatever their names
are: an argument may be named like an entry that describes another one, but which of two entries
with one name counts is decided by the names alone.
-/

namespace SourceIndex

namespace Audit

/-! ## The order of keys -/

/-- The same keys are sorted alike. -/
theorem sortedKeys_eq_of_perm {fields fields' : List (Text × Json)}
    (h : (fields.map Prod.fst).Perm (fields'.map Prod.fst)) :
    sortedKeys fields = sortedKeys fields' := by
  have hsorted (keys : List Text) :
      (keys.mergeSort fun a b => !b.precedes a).Pairwise fun a b => (!b.precedes a) = true := by
    apply List.pairwise_mergeSort
    · intro a b c hab hbc
      exact Text.not_precedes_trans hab hbc
    · intro a b
      exact (Bool.or_eq_true _ _).mpr (Text.not_precedes_total a b)
  refine List.Perm.eq_of_pairwise ?_ (hsorted _) (hsorted _)
    ((List.mergeSort_perm _ _).trans (h.trans (List.mergeSort_perm _ _).symm))
  intro a b _ _ hab hba
  exact Text.eq_of_not_precedes hab hba

/-- Sorted fields have sorted keys. -/
theorem map_fst_sortFields (fields : List (Text × Json)) :
    (Json.sortFields fields).map Prod.fst = sortedKeys fields :=
  List.map_mergeSort fun _ _ _ _ => rfl

/-! ## Arguments of one shape -/

/-- A value that is told as it is. -/
inductive IsScalar : Json → Prop where
  | null : IsScalar .null
  | bool (b : Bool) : IsScalar (.bool b)
  | num (n : JsonNumber) : IsScalar (.num n)

/-- Two values of an argument have the same shape. Scalars are the same, in whatever sense numbers
are called the same; texts are of one length, and the same text if the argument is a path; lists are
of one length; objects have the same keys. -/
inductive Alike (same : Json → Json → Prop) (key : Text) : Json → Json → Prop where
  | scalar {v v' : Json} (hv : IsScalar v) (hv' : IsScalar v') (h : same v v') :
      Alike same key v v'
  | text {s s' : Text} (hlength : s.length = s'.length) (hpath : key = "path".toList → s = s') :
      Alike same key (.str s) (.str s')
  | list {items items' : List Json} (h : items.length = items'.length) :
      Alike same key (.arr items) (.arr items')
  | object {m m' : OrderedMap Text Json} (h : ∀ name, name ∈ m.keys ↔ name ∈ m'.keys) :
      Alike same key (.obj m.entries) (.obj m'.entries)

/-- Two objects of arguments have the same names, and values of one shape under each of them. -/
structure SameShape (same : Json → Json → Prop) (m m' : OrderedMap Text Json) : Prop where
  mem_keys_iff : ∀ key, key ∈ m.keys ↔ key ∈ m'.keys
  alike : ∀ f ∈ m.entries, ∀ f' ∈ m'.entries, f.1 = f'.1 → Alike same f.1 f.2 f'.2

/-- Two entries of descriptions have one name and the same value. -/
def SameEntry (same : Json → Json → Prop) (e e' : Text × Json) : Prop :=
  e.1 = e'.1 ∧ same e.2 e'.2

/-- Fields with the same keys in the same order are related if those with one key are. -/
theorem forall₂_of_map_fst_eq {R : Text × Json → Text × Json → Prop}
    {fields fields' : List (Text × Json)} (hkeys : fields.map Prod.fst = fields'.map Prod.fst)
    (h : ∀ f ∈ fields, ∀ f' ∈ fields', f.1 = f'.1 → R f f') :
    List.Forall₂ (fun f f' => f.1 = f'.1 ∧ R f f') fields fields' := by
  induction fields generalizing fields' with
  | nil =>
    rw [List.map_eq_nil_iff.mp hkeys.symm]
    exact .nil
  | cons f fields ih =>
    obtain ⟨f', fields', rfl, hfirst, hrest⟩ := List.map_eq_cons_iff.mp hkeys.symm
    refine .cons ⟨hfirst.symm, h f List.mem_cons_self f' List.mem_cons_self hfirst.symm⟩ ?_
    exact ih hrest.symm fun g hg g' hg' =>
      h g (List.mem_cons_of_mem f hg) g' (List.mem_cons_of_mem f' hg')

section

variable {same : Json → Json → Prop} {m m' : OrderedMap Text Json}

/-- Objects with the same keys have them in one order when they are sorted. -/
theorem sortedKeys_eq_of_forall_mem_iff (h : ∀ name, name ∈ m.keys ↔ name ∈ m'.keys) :
    sortedKeys m.entries = sortedKeys m'.entries :=
  sortedKeys_eq_of_perm ((List.perm_ext_iff_of_nodup m.nodup_keys m'.nodup_keys).mpr h)

/-- Values of one shape are described alike. -/
theorem Alike.forall₂_describeOne (hrefl : ∀ v, same v v) {key : Text} {v v' : Json}
    (h : Alike same key v v') :
    List.Forall₂ (SameEntry same) (describeOne key v) (describeOne key v') := by
  have hself : ∀ entries : List (Text × Json), List.Forall₂ (SameEntry same) entries entries :=
    fun entries => List.forall₂_same.mpr fun e _ => ⟨rfl, hrefl e.2⟩
  cases h with
  | scalar hv hv' h =>
    have hone : List.Forall₂ (SameEntry same) [(key, v)] [(key, v')] := .cons ⟨rfl, h⟩ .nil
    cases hv <;> cases hv' <;> exact hone
  | @text s s' hlength hpath =>
    by_cases hkey : key = "path".toList
    · rw [hpath hkey]
      exact hself _
    · have hempty : s.isEmpty = s'.isEmpty := by
        rw [Bool.eq_iff_iff, List.isEmpty_iff_length_eq_zero, List.isEmpty_iff_length_eq_zero,
          hlength]
      rw [describeOne, describeOne, if_neg hkey, if_neg hkey, hempty, hlength]
      exact hself _
  | list h =>
    rw [describeOne, describeOne, h]
    exact hself _
  | object h =>
    rw [describeOne, describeOne, sortedKeys_eq_of_forall_mem_iff h]
    exact hself _

/-- Arguments of one shape are told in one order. -/
theorem SameShape.forall₂_sortFields (h : SameShape same m m') :
    List.Forall₂ (fun f f' => f.1 = f'.1 ∧ Alike same f.1 f.2 f'.2)
      (Json.sortFields m.entries) (Json.sortFields m'.entries) := by
  have hmem (m : OrderedMap Text Json) {f : Text × Json} (hf : f ∈ Json.sortFields m.entries) :
      f ∈ m.entries :=
    (List.mergeSort_perm m.entries Json.keyOrder).mem_iff.mp hf
  refine forall₂_of_map_fst_eq ?_ fun f hf f' hf' => h.alike f (hmem m hf) f' (hmem m' hf')
  rw [map_fst_sortFields, map_fst_sortFields, sortedKeys_eq_of_forall_mem_iff h.mem_keys_iff]

/-- Setting the same field keeps fields the same. -/
theorem forall₂_setField {fields fields' : List (Text × Json)} {e e' : Text × Json}
    (h : List.Forall₂ (SameEntry same) fields fields') (he : SameEntry same e e') :
    List.Forall₂ (SameEntry same) (Json.setField e.1 e.2 fields)
      (Json.setField e'.1 e'.2 fields') := by
  obtain ⟨key, v⟩ := e
  obtain ⟨key', v'⟩ := e'
  obtain ⟨rfl, hv⟩ := he
  unfold Json.setField
  induction h with
  | nil => exact .cons ⟨rfl, hv⟩ .nil
  | @cons f f' fields fields' hf hmore ih =>
    obtain ⟨name, w⟩ := f
    obtain ⟨name', w'⟩ := f'
    obtain ⟨rfl, hw⟩ := hf
    by_cases hname : name = key
    · rw [alterEntries, alterEntries, if_pos hname, if_pos hname]
      exact .cons ⟨rfl, hv⟩ hmore
    · rw [alterEntries, alterEntries, if_neg hname, if_neg hname]
      exact .cons ⟨rfl, hw⟩ ih

/-- Arguments of one shape have one description. -/
theorem SameShape.forall₂_describe (hrefl : ∀ v, same v v) (h : SameShape same m m') :
    List.Forall₂ (SameEntry same) (describe m.entries) (describe m'.entries) := by
  have hset : Relator.LiftFun (List.Forall₂ (SameEntry same))
      (Relator.LiftFun (SameEntry same) (List.Forall₂ (SameEntry same)))
      (fun recorded entry => Json.setField entry.1 entry.2 recorded)
      (fun recorded entry => Json.setField entry.1 entry.2 recorded) :=
    fun _ _ hfields _ _ he => forall₂_setField hfields he
  refine List.rel_foldl hset .nil (List.rel_flatMap h.forall₂_sortFields ?_)
  -- one argument after the other, in the order of their names
  rintro ⟨key, v⟩ ⟨key', v'⟩ ⟨rfl, halike⟩
  exact halike.forall₂_describeOne hrefl

/-- Arguments of one shape, with the same scalars, have the same description. -/
theorem SameShape.describe_eq (h : SameShape Eq m m') :
    describe m.entries = describe m'.entries := by
  have hsame := h.forall₂_describe fun _ => rfl
  rw [← List.forall₂_eq_eq_eq]
  exact hsame.imp fun e e' he => Prod.ext he.1 he.2

end

/-! ## Operations -/

/-- Fields that are related one by one are related by their keys, if these are distinct. -/
theorem forall_mem_of_forall₂ {R : Text × Json → Text × Json → Prop}
    {fields fields' : List (Text × Json)} (hkeys : (fields.map Prod.fst).Nodup)
    (h : List.Forall₂ (fun f f' => f.1 = f'.1 ∧ R f f') fields fields') :
    fields.map Prod.fst = fields'.map Prod.fst ∧
      ∀ f ∈ fields, ∀ f' ∈ fields', f.1 = f'.1 → R f f' := by
  induction h with
  | nil => exact ⟨rfl, fun f hf => absurd hf List.not_mem_nil⟩
  | @cons f f' fields fields' hf _ ih =>
    obtain ⟨hnew, hkeys⟩ := List.nodup_cons.mp hkeys
    obtain ⟨hsame, hrest⟩ := ih hkeys
    refine ⟨by rw [List.map_cons, List.map_cons, hf.1, hsame], ?_⟩
    -- the first key is not among the others, on either side
    rw [List.forall_mem_cons]
    constructor
    · refine List.forall_mem_cons.mpr ⟨fun _ => hf.2, fun g' hg' he => ?_⟩
      exact absurd (hsame ▸ he ▸ List.mem_map_of_mem hg') hnew
    · refine fun g hg => List.forall_mem_cons.mpr ⟨fun he => ?_, hrest g hg⟩
      exact absurd (hf.1 ▸ he ▸ List.mem_map_of_mem hg) hnew

/-- Arguments with distinct names have one description if they have one shape one by one. -/
theorem describe_eq_of_forall₂ {arguments arguments' : List (Text × Json)}
    (hkeys : (arguments.map Prod.fst).Nodup)
    (h : List.Forall₂ (fun f f' => f.1 = f'.1 ∧ Alike Eq f.1 f.2 f'.2) arguments arguments') :
    describe arguments = describe arguments' := by
  obtain ⟨hsame, halike⟩ := forall_mem_of_forall₂ hkeys h
  have hshape : SameShape Eq ⟨arguments, hkeys⟩ ⟨arguments', hsame ▸ hkeys⟩ :=
    ⟨fun key => iff_of_eq (congrArg (key ∈ ·) hsame), halike⟩
  exact hshape.describe_eq

/-- A query with a number has one description for all queries of one length. -/
theorem describe_query_eq {query query' : Text} (h : query.length = query'.length) {name : Text}
    (hname : "query".toList ≠ name) (n : Int) :
    describe [("query".toList, .str query), (name, .int n)] =
      describe [("query".toList, .str query'), (name, .int n)] := by
  have hkeys : ["query".toList, name].Nodup := List.nodup_cons.mpr ⟨by simpa using hname, by simp⟩
  have hpath : "query".toList ≠ "path".toList := by decide
  exact describe_eq_of_forall₂ hkeys
    (.cons ⟨rfl, .text h fun he => absurd he hpath⟩
      (.cons ⟨rfl, .scalar (.num _) (.num _) rfl⟩ .nil))

/-- A name that is looked up has one description for all names of one length. -/
theorem describe_name_eq {name name' : Text} (h : name.length = name'.length) :
    describe [("name".toList, .str name)] = describe [("name".toList, .str name')] := by
  have hpath : "name".toList ≠ "path".toList := by decide
  exact describe_eq_of_forall₂ (List.nodup_singleton _)
    (.cons ⟨rfl, .text h fun he => absurd he hpath⟩ .nil)

/-- A content with its path has one description for all contents of one length. -/
theorem describe_content_eq {content content' : Text} (h : content.length = content'.length)
    (path : Text) :
    describe [("path".toList, .str path), ("content".toList, .str content)] =
      describe [("path".toList, .str path), ("content".toList, .str content')] := by
  have hkeys : ["path".toList, "content".toList].Nodup := by decide
  have hpath : "content".toList ≠ "path".toList := by decide
  exact describe_eq_of_forall₂ hkeys
    (.cons ⟨rfl, .text rfl fun _ => rfl⟩ (.cons ⟨rfl, .text h fun he => absurd he hpath⟩ .nil))

/-- Two events record the same of the arguments of their operations, each in front of its own
counts. -/
def SameArguments (e e' : IndexerEvent) (counts counts' : List (Text × Json)) : Prop :=
  ∃ described, e.metadata = described ++ counts ∧ e'.metadata = described ++ counts'

/-- What is recorded of arguments depends on their shape only. Objects of arguments with the same
names and values of one shape have the same description, with equal values for equal scalars,
whatever it is that scalars are compared by. So two searches, packages or look-ups of names with
texts of one length, and two repairs of contents of one length under one path, record the same of
their arguments. -/
theorem disclosed_by_shape :
    (∀ same : Json → Json → Prop, (∀ v, same v v) → ∀ m m' : OrderedMap Text Json,
      SameShape same m m' →
        List.Forall₂ (SameEntry same) (describe m.entries) (describe m'.entries)) ∧
    (∀ m m' : OrderedMap Text Json, SameShape Eq m m' →
      describe m.entries = describe m'.entries) ∧
    (∀ (x y : Indexer) (query query' : Text) (limit : Option Int), x.settings = y.settings →
      query.length = query'.length →
        SameArguments (x.search query limit).2 (y.search query' limit).2
          [Indexer.count "result_count" (x.search query limit).1.length]
          [Indexer.count "result_count" (y.search query' limit).1.length]) ∧
    (∀ (x y : Indexer) (query query' : Text) (budget : Option Int), x.settings = y.settings →
      query.length = query'.length →
        SameArguments (x.context query budget).2 (y.context query' budget).2
          [Indexer.count "selected_count" (x.context query budget).1.results.length,
            Indexer.count "total_tokens" (x.context query budget).1.totalTokens]
          [Indexer.count "selected_count" (y.context query' budget).1.results.length,
            Indexer.count "total_tokens" (y.context query' budget).1.totalTokens]) ∧
    (∀ (x y : Indexer) (name name' : Text), name.length = name'.length →
      SameArguments (x.references name).2 (y.references name').2
        [Indexer.count "reference_count" (x.references name).1.length]
        [Indexer.count "reference_count" (y.references name').1.length]) ∧
    ∀ (x y : Indexer) (path content content' : Text), content.length = content'.length →
      SameArguments (x.repaired path content).2 (y.repaired path content').2
        [Indexer.count "fix_count" (x.repaired path content).1.kinds.length]
        [Indexer.count "fix_count" (y.repaired path content').1.kinds.length] := by
  refine ⟨fun same hrefl m m' h => h.forall₂_describe hrefl, fun m m' h => h.describe_eq,
    ?_, ?_, ?_, ?_⟩
  · intro x y query query' limit hsettings hlength
    refine ⟨_, rfl, ?_⟩
    rw [hsettings, describe_query_eq hlength (by decide)]
    rfl
  · intro x y query query' budget hsettings hlength
    refine ⟨_, rfl, ?_⟩
    rw [hsettings, describe_query_eq hlength (by decide)]
    rfl
  · intro x y name name' hlength
    refine ⟨_, rfl, ?_⟩
    rw [describe_name_eq hlength]
    rfl
  · intro x y path content content' hlength
    refine ⟨_, rfl, ?_⟩
    rw [describe_content_eq hlength]
    rfl

/-- Two objects of arguments in different orders, one of them with an argument named like the entry
for the length of the query, and two searches for texts of twelve characters. -/
theorem disclosed_by_shape_of_overlapping_name :
    let query : Text := "secret token".toList
    let query' : Text := "public words".toList
    let m : OrderedMap Text Json :=
      { entries :=
          [("query".toList, .str query), ("query_length".toList, .int 5),
            ("filter".toList, .obj [("kind".toList, .string "hook"), ("depth".toList, .int 1)])]
        nodup := by decide }
    let m' : OrderedMap Text Json :=
      { entries :=
          [("filter".toList, .obj [("depth".toList, .arr []), ("kind".toList, .null)]),
            ("query_length".toList, .int 5), ("query".toList, .str query')]
        nodup := by decide }
    let x : Indexer := {}
    SameShape Eq m m' ∧ describe m.entries = describe m'.entries ∧ query.length = query'.length ∧
      SameArguments (x.search query none).2 (x.search query' none).2
        [Indexer.count "result_count" (x.search query none).1.length]
        [Indexer.count "result_count" (x.search query' none).1.length] := by
  intro query query' m m' x
  have hlength : query.length = query'.length := by decide
  have hfilter : Alike Eq "filter".toList
      (.obj [("kind".toList, .string "hook"), ("depth".toList, .int 1)])
      (.obj [("depth".toList, .arr []), ("kind".toList, .null)]) := by
    let f : OrderedMap Text Json :=
      { entries := [("kind".toList, .string "hook"), ("depth".toList, .int 1)]
        nodup := by decide }
    let f' : OrderedMap Text Json :=
      { entries := [("depth".toList, .arr []), ("kind".toList, .null)], nodup := by decide }
    have hperm : ["kind".toList, "depth".toList].Perm ["depth".toList, "kind".toList] := .swap _ _ _
    have hobject : Alike Eq "filter".toList (.obj f.entries) (.obj f'.entries) :=
      .object fun name => hperm.mem_iff
    exact hobject
  have hone {key : Text} {v v' : Json} (hmem : (key, v') ∈ m'.entries) (h : Alike Eq key v v') :
      ∀ f' ∈ m'.entries, key = f'.1 → Alike Eq key v f'.2 := by
    rintro ⟨key', w⟩ hw rfl
    rwa [OrderedMap.eq_of_mem_entries hw hmem]
  have hpath : "query".toList ≠ "path".toList := by decide
  have hshape : SameShape Eq m m' := by
    refine ⟨fun key => (List.mem_reverse : key ∈ m.keys.reverse ↔ _).symm, ?_⟩
    refine List.forall_mem_cons.mpr ⟨hone (.tail _ (.tail _ (.head _))) ?_,
      List.forall_mem_cons.mpr ⟨hone (.tail _ (.head _)) ?_,
        List.forall_mem_singleton.mpr (hone (.head _) hfilter)⟩⟩
    · exact .text hlength fun he => absurd he hpath
    · exact .scalar (.num _) (.num _) rfl
  exact ⟨hshape, disclosed_by_shape.2.1 m m' hshape, hlength,
    disclosed_by_shape.2.2.1 x x query query' none rfl hlength⟩

end Audit

end SourceIndex
