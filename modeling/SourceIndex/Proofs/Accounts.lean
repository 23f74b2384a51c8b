import SourceIndex.Proofs.Delta
import SourceIndex.Proofs.Run
import Mathlib.Algebra.Ring.Int.Defs

/-!
# Events account for the index

Every operation of an indexer reports one event. The events of indexing alone tell how many files the
index has, the sum of those added less those removed, and its version, the number of events that were
not skipped: `accounts_session`. A project whose fingerprints are those of the project indexed before it
is always skipped.
-/

namespace SourceIndex

/-! ## Metadata of events -/

namespace IndexerEvent

/-- A number in the metadata of an event. -/
def number? (e : IndexerEvent) (name : String) : Option Int :=
  match Json.field? e.metadata name.toList with
  | some (.num (.int n)) => some n
  | _ => none

/-- A truth value in the metadata of an event. -/
def flag? (e : IndexerEvent) (name : String) : Option Bool :=
  match Json.field? e.metadata name.toList with
  | some (.bool b) => some b
  | _ => none

/-- Whether an event is one of indexing. -/
def isIndexing (e : IndexerEvent) : Bool :=
  e.operation == "index_project".toList

/-- The files added less the files removed that an event reports. -/
def growth (e : IndexerEvent) : Int :=
  (e.number? "added_files").getD 0 - (e.number? "removed_files").getD 0

/-- Whether an event reports that something was indexed. -/
def reportsChange (e : IndexerEvent) : Bool :=
  e.flag? "skipped" == some false

end IndexerEvent

/-! ## Sessions -/

/-- An operation of an indexer with its arguments. -/
inductive Operation where
  | index (files : List ProjectEntry)
  | search (query : Text) (limit : Option Int)
  | context (query : Text) (budget : Option Int)
  | references (name : Text)
  | issues
  | repair (path content : Text)

/-- The project that an operation indexes. -/
def Operation.project? : Operation → Option (List ProjectEntry)
  | index files => some files
  | _ => none

namespace Indexer

/-- The indexer after an operation, and the event of the operation. -/
def perform (x : Indexer) : Operation → Indexer × IndexerEvent
  | .index files => ((x.index files).1, (x.index files).2.2)
  | .search query limit => (x, (x.search query limit).2)
  | .context query budget => (x, (x.context query budget).2)
  | .references name => (x, (x.references name).2)
  | .issues => (x, x.issues.2)
  | .repair path content => (x, (x.repaired path content).2)

/-- The indexer after operations, one after the other. -/
def after (x : Indexer) (operations : List Operation) : Indexer :=
  operations.foldl (fun x operation => (x.perform operation).1) x

/-- The events of operations, the oldest first. -/
def trail (x : Indexer) : List Operation → List IndexerEvent
  | [] => []
  | operation :: rest => (x.perform operation).2 :: (x.perform operation).1.trail rest

/-- The event of indexing a project. -/
def indexEvent (x : Indexer) (files : List ProjectEntry) : IndexerEvent :=
  (x.index files).2.2

/-- The events of indexing projects one after the other. -/
def indexEvents (x : Indexer) : List (List ProjectEntry) → List IndexerEvent
  | [] => []
  | files :: rest => x.indexEvent files :: (x.index files).1.indexEvents rest

/-- Only the indexing among operations changes the indexer. -/
theorem after_eq_run (x : Indexer) (operations : List Operation) :
    x.after operations = x.run (operations.filterMap Operation.project?) := by
  induction operations generalizing x with
  | nil => rfl
  | cons operation rest ih => cases operation <;> exact ih _

/-- The events of indexing in a session are those of its projects. -/
theorem filter_trail (x : Indexer) (operations : List Operation) :
    (x.trail operations).filter (·.isIndexing) =
      x.indexEvents (operations.filterMap Operation.project?) := by
  induction operations generalizing x with
  | nil => rfl
  | cons operation rest ih =>
    cases operation with
    | index files => exact congrArg (x.indexEvent files :: ·) (ih _)
    | search | context | references | issues | repair => exact ih x

/-- Each event of indexing is that of its project on the indexer after the projects before it. -/
theorem getElem?_indexEvents (x : Indexer) (projects : List (List ProjectEntry)) (k : Nat) :
    (x.indexEvents projects)[k]? =
      projects[k]?.map fun files => (x.run (projects.take k)).indexEvent files := by
  induction projects generalizing x k with
  | nil => rfl
  | cons files rest ih =>
    cases k with
    | zero => rfl
    | succ k => exact ih _ k

/-! ## One call -/

/-- What the summary and the event of indexing a project say of the indexer before and after. A call
that is not skipped makes a new version, and its files are those before it and the added, without
the removed. A skipped call reports no changes and makes none. The event carries the version that is
published, the changes of the summary and whether the call was skipped. -/
structure Accounts (x : Indexer) (files : List ProjectEntry) : Prop where
  version_eq : (x.index files).1.snapshot.version =
    x.snapshot.version + if x.skips files then 0 else 1
  size_eq : x.skips files = false →
    ((x.index files).1.snapshot.files.size : Int) =
      x.snapshot.files.size + (x.index files).2.1.addedFiles - (x.index files).2.1.removedFiles
  changed_eq : (x.index files).2.1.changedFiles =
    (x.index files).2.1.addedFiles + (x.index files).2.1.updatedFiles
  of_skips : x.skips files = true →
    (x.index files).2.1.changedFiles = 0 ∧ (x.index files).2.1.addedFiles = 0 ∧
      (x.index files).2.1.updatedFiles = 0 ∧ (x.index files).2.1.removedFiles = 0 ∧
      (x.index files).1 = x
  operation_eq : (x.indexEvent files).operation = "index_project".toList
  event_version : (x.indexEvent files).version = (x.index files).1.snapshot.version
  event_numbers :
    (x.indexEvent files).number? "changed_files" = some ↑(x.index files).2.1.changedFiles ∧
    (x.indexEvent files).number? "added_files" = some ↑(x.index files).2.1.addedFiles ∧
    (x.indexEvent files).number? "updated_files" = some ↑(x.index files).2.1.updatedFiles ∧
    (x.indexEvent files).number? "removed_files" = some ↑(x.index files).2.1.removedFiles
  event_skipped : (x.indexEvent files).flag? "skipped" = some (x.skips files)

/-- The number of files that a call which is not skipped leaves. -/
theorem size_index_of_not_skips {x : Indexer} {files : List ProjectEntry}
    (h : x.skips files = false) :
    (x.index files).1.snapshot.files.size + (x.index files).2.1.removedFiles =
      x.snapshot.files.size + (x.index files).2.1.addedFiles := by
  have hsize := Delta.size_add_length_removed x.snapshot.fingerprints (Project.fingerprints files)
  simp only [Snapshot.fingerprints, Project.fingerprints, OrderedMap.size_mapValues] at hsize
  have hrefresh := refresh_of_not_skips h
  simp only [index, hrefresh, Refresh.summary, Snapshot.ofFiles, Snapshot.recordsFor,
    OrderedMap.size_mapValues]
  exact hsize

theorem accounts_index (x : Indexer) (files : List ProjectEntry) : x.Accounts files where
  version_eq := by
    cases hskip : x.skips files with
    | true => rw [index_of_skips hskip]; rfl
    | false => rw [snapshot_index_of_not_skips hskip]; rfl
  size_eq hskip := by
    have hsize := size_index_of_not_skips hskip
    omega
  changed_eq := rfl
  of_skips hskip := by
    refine ⟨?_, ?_, ?_, ?_, index_of_skips hskip⟩
    all_goals
      rw [index, refresh_of_skips hskip]
      rfl
  operation_eq := rfl
  event_version := rfl
  event_numbers := ⟨rfl, rfl, rfl, rfl⟩
  event_skipped := rfl

/-! ## Sessions on a new indexer -/

/-- The event of a call grows the index by as much as the call does. -/
theorem size_index (x : Indexer) (files : List ProjectEntry) :
    ((x.index files).1.snapshot.files.size : Int) =
      x.snapshot.files.size + (x.indexEvent files).growth := by
  obtain ⟨-, hadded, -, hremoved⟩ := (accounts_index x files).event_numbers
  rw [IndexerEvent.growth, hadded, hremoved, Option.getD_some, Option.getD_some]
  cases hskip : x.skips files with
  | true =>
    obtain ⟨-, hadded, -, hremoved, hsame⟩ := (accounts_index x files).of_skips hskip
    rw [hadded, hremoved, hsame]
    omega
  | false =>
    rw [(accounts_index x files).size_eq hskip]
    omega

/-- The number of files after projects were indexed is what the events add and do not remove. -/
theorem size_run (x : Indexer) (projects : List (List ProjectEntry)) :
    ((x.run projects).snapshot.files.size : Int) =
      x.snapshot.files.size + ((x.indexEvents projects).map (·.growth)).sum := by
  induction projects generalizing x with
  | nil => simp [run, indexEvents]
  | cons files rest ih =>
    show (((x.index files).1.run rest).snapshot.files.size : Int) = _
    rw [ih, size_index, indexEvents, List.map_cons, List.sum_cons]
    omega

/-- The version after projects were indexed counts the events that report a change. -/
theorem version_run (x : Indexer) (projects : List (List ProjectEntry)) :
    (x.run projects).snapshot.version =
      x.snapshot.version + (x.indexEvents projects).countP (·.reportsChange) := by
  induction projects generalizing x with
  | nil => rfl
  | cons files rest ih =>
    show ((x.index files).1.run rest).snapshot.version = _
    rw [ih, (accounts_index x files).version_eq, indexEvents, List.countP_cons,
      IndexerEvent.reportsChange, (accounts_index x files).event_skipped]
    cases x.skips files with
    | true => simp
    | false =>
      simp
      omega

/-- A project with the fingerprints of the project that was indexed last is skipped. -/
theorem skips_run_of_getLast? {x : Indexer} {projects : List (List ProjectEntry)}
    {previous files : List ProjectEntry} (hlast : projects.getLast? = some previous)
    (hsame : (Project.fingerprints files).values = (Project.fingerprints previous).values) :
    (x.run projects).skips files = true := by
  obtain ⟨earlier, rfl⟩ := List.getLast?_eq_some_iff.mp hlast
  have hrun : x.run (earlier ++ [previous]) = ((x.run earlier).index previous).1 := by
    simp [run]
  rw [hrun, skips_iff, root_index, hsame]

/-- Events account for the index. In every session of a new indexer, whatever other operations come
between, there is one event of indexing for each project, and
* the number of files is what these events add and do not remove,
* the version is the number of those that were not skipped,
* the first call is never skipped, and a call with the fingerprints of the call before it always is,
* each call and its event account for what the call does. -/
theorem accounts_session (settings : Settings) (chunkers : Chunkers)
    (operations : List Operation) :
    let start := fresh settings chunkers
    let x := start.after operations
    let projects := operations.filterMap Operation.project?
    let events := (start.trail operations).filter (·.isIndexing)
    (∀ k, events[k]? =
      projects[k]?.map fun files => ((start.run (projects.take k)).index files).2.2) ∧
    (x.snapshot.files.size : Int) = (events.map (·.growth)).sum ∧
    x.snapshot.version = events.countP (·.reportsChange) ∧
    ∀ files,
      (projects = [] → x.skips files = false) ∧
      (∀ previous, projects.getLast? = some previous →
        (Project.fingerprints files).values = (Project.fingerprints previous).values →
          x.skips files = true) ∧
      x.Accounts files := by
  intro start x projects events
  have hevents : events = start.indexEvents projects := filter_trail start operations
  have hx : x = start.run projects := after_eq_run start operations
  rw [hevents, hx]
  refine ⟨getElem?_indexEvents start projects, ?_, ?_, fun files => ⟨?_, ?_, ?_⟩⟩
  · simpa [start, fresh, OrderedMap.size] using size_run start projects
  · simpa [start, fresh] using version_run start projects
  · intro hnone
    rw [hnone]
    exact not_skips_of_root_eq_nil rfl files
  · exact fun previous hlast hsame => skips_run_of_getLast? hlast hsame
  · exact accounts_index _ files

end Indexer

end SourceIndex
