import SourceIndex.Issue
import SourceIndex.Proofs.Reading

/-!
# Names that import statements bind

Import statements as they are written: an optional `type`, then a name for the default, names between
braces or a name for the whole module, or the first of these with one of the others, then the module. An
item between braces may be a type and may have another name in the file. The names read from a statement
are the ones that it binds in the file: what is written is read part by part, each part up to the first
character that cannot belong to it.
-/

namespace SourceIndex

namespace ImportClause

/-- The words that stand beside the names in an import. -/
def keywords : List Text :=
  ["type".toList, "from".toList, "as".toList]

/-- A name: a word that is not a keyword. -/
structure Identifier where
  text : Text
  ne_nil : text ≠ []
  isWord : ∀ c ∈ text, isWordChar c = true
  not_keyword : text ∉ keywords

/-- Something between braces, perhaps marked as a type, with the name that it has in the module and
the one that it has in the file, if it is another one. -/
structure Item where
  isType : Bool
  name : Identifier
  alias? : Option Identifier

/-- An optional `type` and a blank. -/
def typePrefix (isType : Bool) : Text :=
  if isType then "type ".toList else []

/-- What is written of an item behind an optional `type`. -/
def Item.core (item : Item) : Text :=
  item.name.text ++
    match item.alias? with
    | none => []
    | some localName => " as ".toList ++ localName.text

/-- An item as it is written. -/
def Item.text (item : Item) : Text :=
  typePrefix item.isType ++ item.core

/-- The name that an item has in the file. -/
def Item.localName (item : Item) : Text :=
  (item.alias?.getD item.name).text

/-- What is imported besides a default: items between braces, with blanks behind the first brace and
before the second, or the whole module under a name. -/
inductive Bindings where
  | items (lead : Text) (items : List Item) (trail : Text) (hlead : lead.isBlank = true)
    (htrail : trail.isBlank = true)
  | module (name : Identifier)

/-- Items as they are written between braces. -/
def itemsText (items : List Item) : Text :=
  List.intercalate ", ".toList (items.map Item.text)

/-- Bindings as they are written. -/
def Bindings.text : Bindings → Text
  | items lead is trail _ _ => '{' :: (lead ++ itemsText is ++ trail) ++ ['}']
  | module name => "* as ".toList ++ name.text

/-- The names of bindings in the file. -/
def Bindings.localNames : Bindings → List Text
  | items _ is _ _ _ => is.map Item.localName
  | module name => [name.text]

/-- What a statement imports: the default of the module, parts of the module or all of it, or the
default and something else. -/
inductive Clause where
  | default (name : Identifier)
  | bindings (bs : Bindings)
  | both (name : Identifier) (bs : Bindings)

/-- A clause as it is written. -/
def Clause.text : Clause → Text
  | default name => name.text
  | bindings bs => bs.text
  | both name bs => name.text ++ ", ".toList ++ bs.text

/-- The names that a clause binds in the file, in the order in which they are written. -/
def Clause.localNames : Clause → List Text
  | default name => [name.text]
  | bindings bs => bs.localNames
  | both name bs => name.text :: bs.localNames

/-- What follows the clause of a statement. -/
def fromText (module : Text) : Text :=
  " from '".toList ++ module ++ "';".toList

/-- An import statement as it is written. -/
def statementText (isType : Bool) (clause : Clause) (module : Text) : Text :=
  "import ".toList ++ (typePrefix isType ++ (clause.text ++ fromText module))

/-! ## Names -/

namespace Identifier

theorem not_blank (x : Identifier) : ∀ c ∈ x.text, isBlankChar c = false :=
  fun c hc => isBlankChar_of_isWordChar (x.isWord c hc)

theorem ne_of_mem (x : Identifier) {c d : Char} (hd : isWordChar d = false) (hc : c ∈ x.text) :
    c ≠ d := by
  rintro rfl
  rw [x.isWord c hc] at hd
  cases hd

/-- A text that starts with a name does not start with a blank. -/
theorem head?_append (x : Identifier) (rest : Text) :
    ∀ c ∈ (x.text ++ rest).head?, isBlankChar c = false := by
  intro c hc
  rw [List.head?_append_of_ne_nil _ x.ne_nil] at hc
  exact x.not_blank c (List.mem_of_mem_head? hc)

/-- A text that ends with a name does not end with a blank. -/
theorem getLast?_append (front : Text) (x : Identifier) :
    ∀ c ∈ (front ++ x.text).getLast?, isBlankChar c = false := by
  intro c hc
  rw [List.getLast?_append_of_ne_nil _ x.ne_nil] at hc
  exact x.not_blank c (List.mem_of_mem_getLast? hc)

theorem trim_text (x : Identifier) : x.text.trim = x.text :=
  Text.trim_eq_self (fun c hc => x.not_blank c (List.mem_of_mem_head? hc))
    fun c hc => x.not_blank c (List.mem_of_mem_getLast? hc)

/-- A name is no keyword, even if one of them is the start of the name. -/
theorem append_ne_keyword (x : Identifier) {keyword rest r : Text} (hkeyword : keyword ∈ keywords)
    (hrest : ∀ c ∈ rest.head?, isWordChar c = false) (hr : ∀ c ∈ r.head?, isWordChar c = false) :
    x.text ++ rest ≠ keyword ++ r := by
  intro heq
  have hwords : keywords.all (fun keyword => keyword.all isWordChar) = true := rfl
  have hword : keyword.all isWordChar = true := List.all_eq_true.mp hwords keyword hkeyword
  obtain ⟨hsame, -⟩ :=
    Text.append_inj_of_boundary x.isWord hrest (List.all_eq_true.mp hword) hr heq
  exact x.not_keyword (hsame ▸ hkeyword)

end Identifier

/-! ## Items -/

/-- What is between two commas, without the mark of a type. -/
def unmarked (s : Text) : Text :=
  ((s.after? "type ".toList).map Text.trim).getD s

/-- The name of an item is what stands behind the last separator, or all of it. -/
theorem itemName_eq (s : Text) : itemName s =
    ((afterLast? " as ".toList (unmarked s.trim)).map Text.trim).getD (unmarked s.trim) := by
  simp only [itemName, unmarked]
  cases s.trim.after? "type ".toList with
  | none =>
    simp only [Option.map_none, Option.getD_none]
    cases afterLast? " as ".toList s.trim <;> rfl
  | some rest =>
    simp only [Option.map_some, Option.getD_some]
    cases afterLast? " as ".toList rest.trim <;> rfl

/-- Without a separator there is nothing behind the last one. -/
theorem afterLast?_eq_none {separator s : Text} (h : ¬ separator <:+: s) :
    afterLast? separator s = none := by
  induction s with
  | nil => rfl
  | cons c s ih =>
    have hs : ¬ separator <:+: s := fun hs => h (List.infix_cons hs)
    have hstart : Text.after? (c :: s) separator = none := by
      rw [← Option.not_isSome_iff_eq_none, Option.isSome_iff_exists]
      rintro ⟨rest, hrest⟩
      refine h (List.IsPrefix.isInfix ⟨rest, ?_⟩)
      exact (Text.eq_append_of_after? hrest).symm
    rw [afterLast?, ih hs, Option.none_or, hstart]

/-- What is behind the last separator stays so if more text is put in front. -/
theorem afterLast?_append {separator s rest : Text} (h : afterLast? separator s = some rest)
    (front : Text) : afterLast? separator (front ++ s) = some rest := by
  induction front with
  | nil => exact h
  | cons c front ih => rw [List.cons_append, afterLast?, ih, Option.some_or]

namespace Item

variable (item : Item)

theorem alias_boundary :
    ∀ c ∈ (match item.alias? with
      | none => []
      | some localName => " as ".toList ++ localName.text).head?, isWordChar c = false := by
  cases item.alias? with
  | none => exact fun c hc => absurd hc (Option.not_mem_none c)
  | some localName =>
    exact Text.forall_mem_head?_cons (c := ' ') (by decide) _

/-- A space is needed on either side of the word that separates a name from an alias. -/
theorem not_infix_of_count {s : Text} (h : s.count ' ' < 2) : ¬ " as ".toList <:+: s := by
  intro hinfix
  have hcount := hinfix.sublist.count_le ' '
  have htwo : " as ".toList.count ' ' = 2 := by decide
  omega

/-- The name that an item has in the file stands behind the last separator or is all there is. -/
theorem afterLast?_core :
    ((afterLast? " as ".toList item.core).map Text.trim).getD item.core = item.localName := by
  have hspaces : ∀ x : Identifier, x.text.count ' ' = 0 := fun x =>
    List.count_eq_zero.mpr fun hspace => x.ne_of_mem (by decide) hspace rfl
  unfold core localName
  cases item.alias? with
  | none =>
    have hnone : ¬ " as ".toList <:+: item.name.text :=
      not_infix_of_count (by rw [hspaces]; decide)
    rw [List.append_nil, afterLast?_eq_none hnone, Option.map_none, Option.getD_none, Option.getD_none]
  | some localName =>
    -- no separator starts behind the first space, since only one more space follows
    have hnone : ¬ " as ".toList <:+: "as ".toList ++ localName.text :=
      not_infix_of_count (by rw [List.count_append, hspaces]; decide)
    have hlast : afterLast? " as ".toList (" as ".toList ++ localName.text) =
        some localName.text := by
      show afterLast? " as ".toList (' ' :: ("as ".toList ++ localName.text)) = _
      rw [afterLast?, afterLast?_eq_none hnone, Option.none_or]
      exact Text.after?_self " as ".toList localName.text
    rw [afterLast?_append hlast item.name.text, Option.map_some, Option.getD_some, Option.getD_some]
    exact localName.trim_text

theorem head?_core : ∀ c ∈ item.core.head?, isBlankChar c = false :=
  item.name.head?_append _

theorem getLast?_append_core (front : Text) :
    ∀ c ∈ (front ++ item.core).getLast?, isBlankChar c = false := by
  unfold core
  cases item.alias? with
  | none =>
    rw [List.append_nil]
    exact item.name.getLast?_append front
  | some localName =>
    rw [← List.append_assoc, ← List.append_assoc]
    exact localName.getLast?_append _

theorem trim_core : item.core.trim = item.core :=
  Text.trim_eq_self item.head?_core (item.getLast?_append_core [])

theorem trim_text : item.text.trim = item.text := by
  refine Text.trim_eq_self ?_ (item.getLast?_append_core _)
  rw [text]
  cases item.isType with
  | false => exact item.head?_core
  | true =>
    exact Text.forall_mem_head?_cons (c := 't') (by decide) _

/-- An item that is not marked as a type does not start with the mark. -/
theorem after?_core : item.core.after? "type ".toList = none := by
  rw [← Option.not_isSome_iff_eq_none, Option.isSome_iff_exists]
  rintro ⟨rest, hrest⟩
  have heq : item.core = "type".toList ++ ' ' :: rest := (Text.eq_append_of_after? hrest).trans rfl
  refine item.name.append_ne_keyword (by decide) item.alias_boundary ?_ heq
  exact Text.forall_mem_head?_cons (c := ' ') (by decide) _

/-- Without the mark of a type the rest of an item is left. -/
theorem unmarked_text : unmarked item.text = item.core := by
  rw [unmarked, text]
  cases item.isType with
  | false =>
    have hmark : Text.after? (typePrefix false ++ item.core) "type ".toList = none := item.after?_core
    rw [hmark]
    rfl
  | true =>
    have hmark : Text.after? (typePrefix true ++ item.core) "type ".toList = some item.core :=
      Text.after?_self "type ".toList item.core
    rw [hmark, Option.map_some, Option.getD_some, item.trim_core]

/-- The name read from an item, whatever blanks stand around it, is the one that it has in the file. -/
theorem itemName_text {lead trail : Text} (hlead : lead.isBlank = true)
    (htrail : trail.isBlank = true) :
    itemName (lead ++ item.text ++ trail) = item.localName := by
  rw [itemName_eq, Text.trim_surrounded hlead htrail, item.trim_text, item.unmarked_text,
    item.afterLast?_core]

theorem localName_ne_nil : item.localName ≠ [] :=
  (item.alias?.getD item.name).ne_nil

/-- An item has nothing but blanks and word characters. -/
theorem of_mem_text {c : Char} (h : c ∈ item.text) : (isBlankChar c || isWordChar c) = true := by
  have hword : ∀ x : Identifier, c ∈ x.text → (isBlankChar c || isWordChar c) = true := fun x hc => by
    rw [x.isWord c hc, Bool.or_true]
  rcases List.mem_append.mp h with h | h
  · cases htype : item.isType with
    | false =>
      rw [htype] at h
      cases h
    | true =>
      rw [htype] at h
      have hmark : "type ".toList.all (fun c => isBlankChar c || isWordChar c) = true := rfl
      exact List.all_eq_true.mp hmark c h
  rcases List.mem_append.mp h with h | h
  · exact hword item.name h
  · cases hname : item.alias? with
    | none =>
      rw [hname] at h
      cases h
    | some localName =>
      rw [hname] at h
      have hseparator : " as ".toList.all (fun c => isBlankChar c || isWordChar c) = true := rfl
      rcases List.mem_append.mp h with h | h
      · exact List.all_eq_true.mp hseparator c h
      · exact hword localName h

/-- No character that separates items or ends them is part of an item. -/
theorem not_mem_text {c : Char} (hblank : isBlankChar c = false) (hword : isWordChar c = false) :
    c ∉ item.text := by
  intro h
  have hor := item.of_mem_text h
  rw [hblank, hword] at hor
  cases hor

end Item

/-- What stands between two commas is read on its own. -/
theorem itemNames_append_comma (a b : Text) : itemNames (a ++ ',' :: b) = itemNames a ++ itemNames b := by
  rw [itemNames, Text.splitOn_append_cons, List.map_append, List.filter_append]
  rfl

theorem itemNames_of_not_mem {s : Text} (h : ',' ∉ s) :
    itemNames s = [itemName s].filter fun name => !name.isEmpty := by
  rw [itemNames, Text.splitOn_of_not_mem h]
  rfl

/-- An item with blanks around it has one name. -/
theorem itemNames_text {lead trail : Text} (hlead : lead.isBlank = true)
    (htrail : trail.isBlank = true) (item : Item) :
    itemNames (lead ++ item.text ++ trail) = [item.localName] := by
  have hcomma : ',' ∉ lead ++ item.text ++ trail := by
    rw [List.mem_append, List.mem_append, not_or, not_or]
    exact ⟨⟨Text.not_mem_of_isBlank hlead (by decide), item.not_mem_text (by decide) (by decide)⟩,
      Text.not_mem_of_isBlank htrail (by decide)⟩
  rw [itemNames_of_not_mem hcomma, item.itemName_text hlead htrail]
  exact List.filter_cons_of_pos (by simpa using item.localName_ne_nil)

/-- The names read between braces are those that the items have in the file. -/
theorem itemNames_itemsText {lead trail : Text} (hlead : lead.isBlank = true)
    (htrail : trail.isBlank = true) (items : List Item) :
    itemNames (lead ++ itemsText items ++ trail) = items.map Item.localName := by
  unfold itemsText
  induction items generalizing lead with
  | nil =>
    have hblank : (lead ++ [] ++ trail).isBlank = true := by
      rw [List.append_nil, Text.isBlank, List.all_append, Bool.and_eq_true]
      exact ⟨hlead, htrail⟩
    have hempty : itemName (lead ++ [] ++ trail) = [] := by
      rw [itemName, Text.trim_eq_nil hblank]
      rfl
    show itemNames (lead ++ [] ++ trail) = []
    rw [itemNames_of_not_mem (Text.not_mem_of_isBlank hblank (by decide)), hempty]
    rfl
  | cons item items ih =>
    cases items with
    | nil =>
      rw [List.map_singleton, List.intercalate_singleton]
      exact itemNames_text hlead htrail item
    | cons next items =>
      have hblank : Text.isBlank [' '] = true := by decide
      have hsplit : lead ++ List.intercalate ", ".toList ((item :: next :: items).map Item.text) ++
          trail = lead ++ item.text ++ [] ++ ',' ::
            ([' '] ++ List.intercalate ", ".toList ((next :: items).map Item.text) ++ trail) := by
        rw [List.map_cons, List.map_cons, List.intercalate_cons_cons, ← List.map_cons]
        simp only [List.append_assoc, List.append_nil]
        rfl
      rw [hsplit, itemNames_append_comma, itemNames_text hlead rfl, ih hblank]
      rfl

/-! ## Bindings -/

theorem itemsText_cons_cons (item next : Item) (items : List Item) :
    itemsText (item :: next :: items) = item.text ++ ", ".toList ++ itemsText (next :: items) :=
  List.intercalate_cons_cons

/-- No item holds the brace that ends the items. -/
theorem closing_not_mem_itemsText (items : List Item) : '\x7d' ∉ itemsText items := by
  induction items with
  | nil => exact List.not_mem_nil
  | cons item items ih =>
    have hitem : '\x7d' ∉ item.text := item.not_mem_text (by decide) (by decide)
    cases items with
    | nil => rwa [itemsText, List.map_singleton, List.intercalate_singleton]
    | cons next items =>
      rw [itemsText_cons_cons, List.mem_append, List.mem_append, not_or, not_or]
      exact ⟨⟨hitem, by decide⟩, ih⟩

/-- What is between braces is read up to the second one. -/
theorem braced?_append_closing {inside : Text} (h : '\x7d' ∉ inside) (rest : Text) :
    braced? ('\x7b' :: inside ++ '\x7d' :: rest) = some (inside, rest) := by
  have hinside : ∀ c ∈ inside, (c != '\x7d') = true := fun c hc => by
    rw [bne_iff_ne]
    rintro rfl
    exact h hc
  have hclosing : ∀ c ∈ ('\x7d' :: rest).head?, (c != '\x7d') = false :=
    Text.forall_mem_head?_cons (by decide) rest
  rw [List.cons_append, braced?, Text.span_append_boundary hinside hclosing]
  rfl

/-- The name of a whole module is read up to the end of the word. -/
theorem namespace?_text (name : Identifier) {rest : Text}
    (hrest : ∀ c ∈ rest.head?, isWordChar c = false) : namespace? ((Bindings.module name).text ++ rest) =
      some (name.text, rest) := by
  have hstar : ((Bindings.module name).text ++ rest).after? ['*'] =
      some ([' '] ++ ("as".toList ++ ([' '] ++ (name.text ++ rest)))) := Text.after?_self ['*'] _
  have htrim : Text.trimStart ([' '] ++ ("as".toList ++ ([' '] ++ (name.text ++ rest)))) =
      "as".toList ++ ([' '] ++ (name.text ++ rest)) := rfl
  have hblank : Text.afterBlanks? ([' '] ++ (name.text ++ rest)) = some (name.text ++ rest) :=
    Text.afterBlanks?_self (by decide) (List.cons_ne_nil _ _) (name.head?_append rest)
  have hword : Text.takeWord (name.text ++ rest) = some (name.text, rest) :=
    Text.takeWord_self name.isWord name.ne_nil hrest
  simp only [namespace?, hstar, Option.bind_eq_bind, Option.bind_some, htrim, Text.after?_self, hblank,
    hword]

/-- The names of bindings are read behind the default. -/
theorem names_of_defaultName_eq {s rest : Text} {defaults : List Text} (bs : Bindings)
    (h : defaultName (s.skipWord "type".toList) = (defaults, bs.text ++ rest))
    (hrest : ∀ c ∈ rest.head?, isWordChar c = false) : names s = defaults ++ bs.localNames := by
  simp only [names, h]
  cases bs with
  | items lead items trail hlead htrail =>
    have hclosing : '\x7d' ∉ lead ++ itemsText items ++ trail := by
      rw [List.mem_append, List.mem_append, not_or, not_or]
      exact ⟨⟨Text.not_mem_of_isBlank hlead (by decide), closing_not_mem_itemsText items⟩,
        Text.not_mem_of_isBlank htrail (by decide)⟩
    have htext : (Bindings.items lead items trail hlead htrail).text ++ rest =
        '\x7b' :: (lead ++ itemsText items ++ trail) ++ '\x7d' :: rest := List.append_assoc _ _ _
    have hread := (congrArg braced? htext).trans (braced?_append_closing hclosing rest)
    simp only [hread, itemNames_itemsText hlead htrail, Bindings.localNames]
  | module name =>
    have hnone : braced? ((Bindings.module name).text ++ rest) = none := rfl
    simp only [hnone, namespace?_text name hrest, Bindings.localNames]

/-! ## Clauses -/

/-- A clause that does not start with a name starts with a character that is part of no name. -/
theorem Bindings.head?_text (bs : Bindings) (rest : Text) :
    ∀ c ∈ (bs.text ++ rest).head?, isWordChar c = false ∧ isBlankChar c = false := by
  cases bs with
  | items => exact Text.forall_mem_head?_cons (c := '\x7b') (by decide) _
  | module => exact Text.forall_mem_head?_cons (c := '*') (by decide) _

/-- Bindings have no default in front. -/
theorem defaultName_bindings (bs : Bindings) (rest : Text) :
    defaultName (bs.text ++ rest) = ([], bs.text ++ rest) := by
  rw [defaultName, Text.takeWord_eq_none fun c hc => (bs.head?_text rest c hc).1]

/-- A name is a default, and an optional comma behind it is skipped. -/
theorem defaultName_text (x : Identifier) {rest : Text}
    (hrest : ∀ c ∈ rest.head?, isWordChar c = false) :
    defaultName (x.text ++ rest) =
      ([x.text], ((rest.trimStart.after? [',']).getD rest.trimStart).trimStart) := by
  have hfrom : x.text ≠ "from".toList := fun heq => x.not_keyword (heq ▸ by decide)
  rw [defaultName, Text.takeWord_self x.isWord x.ne_nil hrest]
  simp only [if_neg hfrom]

theorem isWordChar_of_head?_fromText (module : Text) :
    ∀ c ∈ (fromText module).head?, isWordChar c = false :=
  Text.forall_mem_head?_cons (c := ' ') (by decide) _

/-- Every clause starts with a name, up to a character that is part of no name, or with bindings. -/
theorem Clause.text_append (clause : Clause) (module : Text) :
    (∃ (x : Identifier) (r : Text), clause.text ++ fromText module = x.text ++ r ∧
      ∀ c ∈ r.head?, isWordChar c = false) ∨
    ∃ (bs : Bindings) (r : Text), clause.text ++ fromText module = bs.text ++ r := by
  cases clause with
  | default x => exact .inl ⟨x, _, rfl, isWordChar_of_head?_fromText module⟩
  | bindings bs => exact .inr ⟨bs, _, rfl⟩
  | both x bs =>
    refine .inl ⟨x, ", ".toList ++ bs.text ++ fromText module, ?_, ?_⟩
    · simp only [Clause.text, List.append_assoc]
    · exact Text.forall_mem_head?_cons (c := ',') (by decide) _

theorem Clause.head?_text (clause : Clause) (module : Text) :
    ∀ c ∈ (clause.text ++ fromText module).head?, isBlankChar c = false := by
  rcases clause.text_append module with ⟨x, s, hs, -⟩ | ⟨bs, s, hs⟩
  · rw [hs]
    exact x.head?_append s
  · rw [hs]
    exact fun c hc => (bs.head?_text s c hc).2

/-- No clause is taken for the mark of a type. -/
theorem Clause.skipWord_text (clause : Clause) (module : Text) :
    (clause.text ++ fromText module).skipWord "type".toList = clause.text ++ fromText module := by
  have hnone : ((clause.text ++ fromText module).after? "type".toList).bind Text.afterBlanks? = none := by
    rw [Option.bind_eq_none_iff]
    intro r hr
    have heq := Text.eq_append_of_after? hr
    cases r with
    | nil => rfl
    | cons c r =>
      rw [Text.afterBlanks?]
      refine if_neg fun hc => ?_
      have hboundary : ∀ d ∈ (c :: r).head?, isWordChar d = false :=
        Text.forall_mem_head?_cons (Bool.eq_false_iff.mpr fun hword =>
          Bool.false_ne_true ((isBlankChar_of_isWordChar hword).symm.trans hc)) r
      rcases clause.text_append module with ⟨x, s, hs, hword⟩ | ⟨bs, s, hs⟩
      · exact x.append_ne_keyword (by decide) hword hboundary (hs.symm.trans heq)
      · have hhead := (bs.head?_text s 't' (by rw [← hs, heq]; rfl)).1
        exact absurd hhead (by decide)
  rw [Text.skipWord, hnone, Option.getD_none]

/-- The mark of a type in front of a clause is skipped. -/
theorem Clause.skipWord_typePrefix (isType : Bool) (clause : Clause) (module : Text) :
    (typePrefix isType ++ (clause.text ++ fromText module)).skipWord "type".toList =
      clause.text ++ fromText module := by
  cases isType with
  | false => exact clause.skipWord_text module
  | true =>
    exact Text.skipWord_self (z := [' ']) "type".toList (by decide) (List.cons_ne_nil _ _)
      (clause.head?_text module)

/-- The names read from a clause, marked as types or not, are those that it binds. -/
theorem names_text (isType : Bool) (clause : Clause) (module : Text) :
    names (typePrefix isType ++ (clause.text ++ fromText module)) = clause.localNames := by
  have hskip := clause.skipWord_typePrefix isType module
  have hboundary := isWordChar_of_head?_fromText module
  cases clause with
  | default x =>
    -- the word `from` is neither a list of items nor a name for the module
    have hdefault := (congrArg defaultName hskip).trans (defaultName_text x hboundary)
    simp only [names, hdefault]
    rfl
  | bindings bs =>
    have hdefault := (congrArg defaultName hskip).trans (defaultName_bindings bs _)
    exact names_of_defaultName_eq bs hdefault hboundary
  | both x bs =>
    have htext : (Clause.both x bs).text ++ fromText module =
        x.text ++ (", ".toList ++ (bs.text ++ fromText module)) := by
      simp only [Clause.text, List.append_assoc]
    have hcomma : ∀ c ∈ (", ".toList ++ (bs.text ++ fromText module)).head?, isWordChar c = false := by
      exact Text.forall_mem_head?_cons (c := ',') (by decide) _
    have htrim : Text.trimStart ([' '] ++ (bs.text ++ fromText module)) = bs.text ++ fromText module := by
      rw [Text.trimStart_append (by decide)]
      exact Text.trimStart_eq_self fun c hc => (bs.head?_text _ c hc).2
    have hdefault : defaultName ((typePrefix isType ++
        ((Clause.both x bs).text ++ fromText module)).skipWord "type".toList) =
        ([x.text], bs.text ++ fromText module) := by
      rw [hskip, htext, defaultName_text x hcomma]
      exact congrArg ([x.text], ·) htrim
    exact names_of_defaultName_eq bs hdefault hboundary

/-- A statement is read from behind its first word. -/
theorem start_find? (isType : Bool) (clause : Clause) (module : Text) :
    start.find? (statementText isType clause module) =
      some (typePrefix isType ++ (clause.text ++ fromText module)) := by
  have hhead : ∀ c ∈ (typePrefix isType ++ (clause.text ++ fromText module)).head?,
      isBlankChar c = false := by
    cases isType with
    | false => exact clause.head?_text module
    | true =>
      exact Text.forall_mem_head?_cons (c := 't') (by decide) _
  have hword : (statementText isType clause module).after? "import".toList =
      some ([' '] ++ (typePrefix isType ++ (clause.text ++ fromText module))) :=
    Text.after?_self "import".toList _
  have hblank := Text.afterBlanks?_self (z := [' ']) (by decide) (List.cons_ne_nil _ _) hhead
  have hstart : start (statementText isType clause module) =
      some (typePrefix isType ++ (clause.text ++ fromText module),
        typePrefix isType ++ (clause.text ++ fromText module)) := by
    simp only [start, hword, Option.bind_eq_bind, Option.bind_some, hblank]
  have hne : statementText isType clause module ≠ [] :=
    List.append_ne_nil_of_left_ne_nil (by decide) _
  exact Pattern.find?_of_some hne hstart

end ImportClause

open ImportClause in
/-- The names read from an import statement are the ones that it binds, in the order in which they are
written. -/
theorem boundNames_text (isType : Bool) (clause : Clause) (module : Text) :
    boundNames (statementText isType clause module) = clause.localNames := by
  rw [boundNames, start_find? isType clause module]
  exact names_text isType clause module

example : boundNames "import type D, \x7b a, type b as c \x7d from 'm';".toList =
    ["D", "a", "c"].map String.toList := by
  decide +kernel

end SourceIndex
