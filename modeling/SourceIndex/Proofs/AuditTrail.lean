import SourceIndex.Audit.Trail
import SourceIndex.Proofs.JsonRoundTrip
import Mathlib.Data.List.DropRight

/-!
# Audit trails give back their events

A trail is a text that grows by whole lines: the lines of events, and damaged lines between them. The
records of such a trail are those of its parts, because a newline ends a line whatever stands around
it. An event is one line that is read as an equal record, and damaged lines hold no records, so a trail
gives back the events that were appended to it.
-/

namespace SourceIndex

/-! ## Lines of a trail -/

namespace AuditTrail

/-- A character that is no carriage return stays as it is. -/
theorem unifyLineEnds_cons {c : Char} (h : c ≠ '\r') (rest : Text) :
    unifyLineEnds (c :: rest) = c :: unifyLineEnds rest := by
  rw [unifyLineEnds]
  · exact fun _ hc => absurd hc h
  · exact h

/-- A carriage return without a newline ends a line on its own. -/
theorem unifyLineEnds_return {d : Char} (h : d ≠ '\n') (rest : Text) :
    unifyLineEnds ('\r' :: d :: rest) = '\n' :: unifyLineEnds (d :: rest) := by
  rw [unifyLineEnds]
  exact fun _ hd => h (List.cons.inj hd).1

/-- A newline ends a line, and the text behind it is read as if nothing stood before it. -/
theorem exists_unifyLineEnds_append (s : Text) :
    ∃ u, ∀ t, unifyLineEnds (s ++ '\n' :: t) = u ++ '\n' :: unifyLineEnds t := by
  induction s using unifyLineEnds.induct with
  | case1 rest ih =>
    obtain ⟨u, hu⟩ := ih
    exact ⟨'\n' :: u, fun t => congrArg ('\n' :: ·) (hu t)⟩
  | case2 rest hrest ih =>
    cases rest with
    -- a carriage return at the end belongs to the newline behind it
    | nil => exact ⟨[], fun t => rfl⟩
    | cons d rest =>
      obtain ⟨u, hu⟩ := ih
      have hd : d ≠ '\n' := fun hd => hrest rest (hd ▸ rfl)
      exact ⟨'\n' :: u, fun t => (unifyLineEnds_return hd _).trans (congrArg ('\n' :: ·) (hu t))⟩
  | case3 c rest _ hc ih =>
    obtain ⟨u, hu⟩ := ih
    exact ⟨c :: u, fun t => (unifyLineEnds_cons hc _).trans (congrArg (c :: ·) (hu t))⟩
  | case4 => exact ⟨[], fun t => unifyLineEnds_cons (by decide) t⟩

/-- A text without carriage returns keeps its ends of lines. -/
theorem unifyLineEnds_eq_self {s : Text} (h : '\r' ∉ s) : unifyLineEnds s = s := by
  induction s with
  | nil => rfl
  | cons c s ih =>
    rw [List.mem_cons, not_or] at h
    rw [unifyLineEnds_cons (Ne.symm h.1), ih h.2]

/-- A line with nothing on it holds no record. -/
theorem record?_nil : record? [] = none := by
  decide

/-- The empty trail has no records. -/
theorem records_nil : records [] = [] := by
  show (Text.lines []).filterMap record? = []
  rw [Text.lines_eq_singleton List.not_mem_nil, List.filterMap_cons, record?_nil]
  rfl

/-- The records behind a newline do not depend on what stands before it, nor the other way round. -/
theorem records_append_newline (s t : Text) :
    records (s ++ '\n' :: t) = records (s ++ ['\n']) ++ records t := by
  obtain ⟨u, hu⟩ := exists_unifyLineEnds_append s
  have hnil : (unifyLineEnds []).lines.filterMap record? = [] := records_nil
  simp only [records, hu, Text.lines_append_newline, List.filterMap_append, hnil, List.append_nil]

/-- A printable line holds the record that is read from it. -/
theorem records_line {s : Text} (h : ∀ c ∈ s, IsPrintable c) :
    records (s ++ ['\n']) = (record? s).toList := by
  have hnewline : '\n' ∉ s := fun hs => absurd (h '\n' hs) (by decide)
  have hreturn : '\r' ∉ s ++ ['\n'] := by
    rw [List.mem_append, not_or]
    exact ⟨fun hs => absurd (h '\r' hs) (by decide), by decide⟩
  have hnil : (Text.lines []).filterMap record? = [] := records_nil
  rw [records, unifyLineEnds_eq_self hreturn, Text.lines_append_newline,
    Text.lines_eq_singleton hnewline, List.filterMap_append, hnil, List.append_nil,
    List.filterMap_cons]
  cases record? s <;> rfl

end AuditTrail

/-! ## Lines of events -/

namespace TrailEntry

/-- What else is recorded of the event is a plain value. -/
def IsPlain (e : TrailEntry) : Prop :=
  (Json.obj e.metadata).IsPlain

/-- The fields of a plain event are a plain value. -/
theorem IsPlain.fields {e : TrailEntry} (h : e.IsPlain) : (Json.obj e.fields).IsPlain := by
  refine .obj (by decide : (["timestamp", "operation", "ok", "index_version",
    "metadata"].map String.toList).Nodup) ?_
  rw [TrailEntry.fields]
  simp only [List.forall_mem_cons, List.not_mem_nil, false_imp_iff, implies_true, and_true]
  exact ⟨.str _, .str _, .bool _, .int _, h⟩

/-- The line of an event is printable up to the newline at its end. -/
theorem IsPlain.exists_line {e : TrailEntry} (h : e.IsPlain) :
    ∃ text, e.line = text ++ ['\n'] ∧ ∀ c ∈ text, IsPrintable c :=
  ⟨_, rfl, h.fields.isPrintable_of_mem_write⟩

/-- The line of an event holds one record, which is equal to the fields of the event. -/
theorem IsPlain.records_line {e : TrailEntry} (h : e.IsPlain) :
    ∃ record, AuditTrail.records e.line = [record] ∧ Json.Equal (.obj record) (.obj e.fields) := by
  have hread := h.fields.read?_write
  have hequal := h.fields.equal_sorted
  rw [Json.sorted] at hread hequal
  refine ⟨_, ?_, hequal⟩
  rw [line, AuditTrail.records_line h.fields.isPrintable_of_mem_write,
    AuditTrail.record?, hread]
  rfl

/-- The event is not before the time, in the order of code points. -/
def NotBefore (time : Text) (e : TrailEntry) : Prop :=
  ¬ List.Lex (fun c d : Char => c.toNat < d.toNat) e.timestamp time

instance (time : Text) (e : TrailEntry) : Decidable (NotBefore time e) :=
  inferInstanceAs (Decidable (¬ _))

/-- A record of an event is kept from a time on if the event is not before it. -/
theorem isSince_iff {e : TrailEntry} {record : List (Text × Json)}
    (h : Json.Equal (.obj record) (.obj e.fields)) (time : Text) :
    AuditTrail.isSince time record = true ↔ e.NotBefore time := by
  have htime : Json.field? record "timestamp".toList = some (.str e.timestamp) := by
    have hrel := h.rel_field? "timestamp".toList
    rw [show Json.field? e.fields "timestamp".toList = some (.str e.timestamp) from rfl] at hrel
    cases hfield : Json.field? record "timestamp".toList with
    | none =>
      rw [hfield] at hrel
      cases hrel
    | some v =>
      rw [hfield] at hrel
      cases hrel with
      | some hv => rw [hv.eq_str]
  rw [AuditTrail.isSince, htime]
  dsimp only
  exact Text.not_precedes_iff

end TrailEntry

/-! ## Trails -/

/-- What happens to a trail: an event is appended, or some text that no event wrote. -/
inductive TrailStep where
  | event (e : TrailEntry)
  | damage (text : Text)

namespace TrailStep

/-- The text that a step adds. -/
def text : TrailStep → Text
  | event e => e.line
  | damage text => text

/-- The event of a step. -/
def event? : TrailStep → Option TrailEntry
  | event e => some e
  | damage _ => none

/-- Events are plain, and damage is a text of whole lines without records. -/
def Admissible : TrailStep → Prop
  | event e => e.IsPlain
  | damage text => text.getLast? = some '\n' ∧
    ∀ line ∈ (AuditTrail.unifyLineEnds text).lines, AuditTrail.record? line = none

/-- A step adds whole lines. -/
theorem Admissible.exists_eq_append {s : TrailStep} (h : s.Admissible) :
    ∃ t, s.text = t ++ ['\n'] := by
  cases s with
  | event e => exact ⟨_, rfl⟩
  | damage text => exact List.getLast?_eq_some_iff.mp h.1

end TrailStep

namespace AuditTrail

/-- The trail after a step. -/
def after (trail : AuditTrail) : TrailStep → AuditTrail
  | .event e => trail.append e
  | .damage text => trail ++ text

/-- The trail after steps, from an empty one on. -/
def ofSteps (steps : List TrailStep) : AuditTrail :=
  steps.foldl after []

/-- The events of steps. -/
def eventsOf (steps : List TrailStep) : List TrailEntry :=
  steps.filterMap TrailStep.event?

/-- A trail is what its steps add. -/
theorem ofSteps_eq_flatMap (steps : List TrailStep) : ofSteps steps = steps.flatMap (·.text) := by
  have hfold : ∀ trail, steps.foldl after trail = trail ++ steps.flatMap (·.text) := by
    induction steps with
    | nil => exact fun trail => (List.append_nil trail).symm
    | cons s rest ih =>
      intro trail
      have hstep : after trail s = trail ++ s.text := by cases s <;> rfl
      rw [List.foldl_cons, ih, hstep, List.flatMap_cons, List.append_assoc]
  exact hfold []

/-- The records of a trail are those of its events, in their order. -/
theorem records_ofSteps {steps : List TrailStep} (h : ∀ s ∈ steps, s.Admissible) :
    List.Forall₂ (fun record e => Json.Equal (.obj record) (.obj e.fields))
      (records (ofSteps steps)) (eventsOf steps) := by
  rw [ofSteps_eq_flatMap]
  induction steps with
  | nil =>
    rw [List.flatMap_nil, records_nil]
    exact .nil
  | cons s rest ih =>
    have hs := h s List.mem_cons_self
    have hrest := ih fun t ht => h t (List.mem_cons_of_mem s ht)
    obtain ⟨t, ht⟩ := hs.exists_eq_append
    -- the step ends in a newline, so its records and those of the rest stay apart
    rw [List.flatMap_cons, ht, List.append_assoc, List.singleton_append, records_append_newline,
      ← ht]
    cases s with
    | event e =>
      obtain ⟨record, hrecord, hequal⟩ := TrailEntry.IsPlain.records_line hs
      rw [TrailStep.text, hrecord]
      exact .cons hequal hrest
    | damage text =>
      have hnone : records text = [] := List.filterMap_eq_nil_iff.mpr hs.2
      rw [TrailStep.text, hnone]
      exact hrest

/-- A trail is read by keeping the records from the time on, and the last of these. -/
theorem read_eq (trail : AuditTrail) (since : Option Text) {limit : Int} (h : 1 ≤ limit) :
    trail.read since limit =
      (trail.records.filter fun record => since.all fun time => isSince time record).rtake
        limit.toNat := by
  unfold AuditTrail.read
  rw [if_neg (by omega)]
  cases since with
  | none =>
    have hall : trail.records.filter (fun _ => true) = trail.records := List.filter_true _
    simp only [Option.all_none, hall, List.rtake]
  | some time => rfl

/-- An audit trail gives back its events, also with damaged lines between them: from a time on or from
the start, the newest ones up to the limit, the oldest of them first. What is read of an event is equal
to its fields. Appending an event adds one line, which is printable ASCII up to the newline at its
end. -/
theorem read_ofSteps {steps : List TrailStep} (h : ∀ s ∈ steps, s.Admissible)
    (since : Option Text) {limit : Int} (hlimit : 1 ≤ limit) :
    List.Forall₂ (fun record e => Json.Equal (.obj record) (.obj e.fields))
      ((ofSteps steps).read since limit)
      (((eventsOf steps).filter fun e => since.all fun time => e.NotBefore time).rtake
        limit.toNat) ∧
    ∀ e : TrailEntry, e.IsPlain → ∀ trail : AuditTrail,
      ∃ text, trail.append e = trail ++ text ++ ['\n'] ∧ ∀ c ∈ text, IsPrintable c := by
  have hrecords := records_ofSteps h
  have hsince : ∀ record e, Json.Equal (.obj record) (.obj (TrailEntry.fields e)) →
      ((since.all fun time => isSince time record) = true ↔
        (since.all fun time => decide (e.NotBefore time)) = true) := by
    intro record e hequal
    cases since with
    | none => exact Iff.rfl
    | some time => exact (TrailEntry.isSince_iff hequal time).trans decide_eq_true_iff.symm
  have hkept := List.rel_filter hsince hrecords
  constructor
  -- as many records as events are kept, so the same number of them is dropped in front
  · rw [read_eq _ since hlimit, List.rtake, List.rtake, hkept.length_eq]
    exact List.forall₂_drop _ hkept
  · intro e he trail
    obtain ⟨text, hline, hprintable⟩ := he.exists_line
    exact ⟨text, by rw [append, hline, List.append_assoc], hprintable⟩

/-- Two events with an open object, a list and a line that ends in a carriage return between them:
reading one record from the time of the first event on gives the second event. -/
theorem read_ofSteps_of_damaged_lines :
    let e : TrailEntry :=
      { timestamp := "2026-01-02".toList, operation := "search".toList, ok := true
        indexVersion := 1, metadata := [("query_length".toList, .int 4)] }
    let f : TrailEntry :=
      { timestamp := "2026-01-03".toList, operation := "auto_fix".toList, ok := false
        indexVersion := -1
        metadata :=
          [("path".toList, .str [Char.ofNat 0x1F600, '"', '\n', '\x7f']),
            ("fixes".toList, .arr [.null, .obj [("b".toList, .int 0), ("a".toList, .bool true)]])] }
    let steps : List TrailStep :=
      [.event e, .damage "\x7b\"timestamp\": \n[1, 2]\nnull\r\n".toList, .event f]
    (∀ s ∈ steps, s.Admissible) ∧
      List.Forall₂ (fun record e => Json.Equal (.obj record) (.obj e.fields))
        ((ofSteps steps).read (some "2026-01-02".toList) 1) [f] := by
  intro e f steps
  have he : e.IsPlain := .obj (by decide) (List.forall_mem_singleton.mpr (.int 4))
  have hfix : (Json.obj [("b".toList, .int 0), ("a".toList, .bool true)]).IsPlain :=
    .obj (by decide) (List.forall_mem_cons.mpr ⟨.int 0, List.forall_mem_singleton.mpr (.bool true)⟩)
  have hfixes : (Json.arr [.null, .obj [("b".toList, .int 0), ("a".toList, .bool true)]]).IsPlain :=
    .arr (List.forall_mem_cons.mpr ⟨.null, List.forall_mem_singleton.mpr hfix⟩)
  have hf : f.IsPlain :=
    .obj (by decide) (List.forall_mem_cons.mpr ⟨.str _, List.forall_mem_singleton.mpr hfixes⟩)
  have hdamage : ∀ line ∈ (unifyLineEnds "\x7b\"timestamp\": \n[1, 2]\nnull\r\n".toList).lines,
      record? line = none := by
    decide +kernel
  have h : ∀ s ∈ steps, s.Admissible :=
    List.forall_mem_cons.mpr
      ⟨he, List.forall_mem_cons.mpr ⟨⟨rfl, hdamage⟩, List.forall_mem_singleton.mpr hf⟩⟩
  exact ⟨h, (read_ofSteps h (some "2026-01-02".toList) (Int.le_refl 1)).1⟩

end AuditTrail

end SourceIndex
