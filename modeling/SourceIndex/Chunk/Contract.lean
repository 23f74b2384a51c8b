import SourceIndex.Chunk.Basic

/-!
# The chunk contract

The chunks of a file have names, lie within the file and have distinct identifiers.
`contractViolation?` looks at the chunks in order and gives the first breach of the contract.
-/

namespace SourceIndex

/-- A breach of the chunk contract, with the path of the file if a chunk has no name, or else with
the identifier of the chunk. -/
inductive ContractViolation where
  | blankName (path : Text)
  | startsBeforeFile (id : Text)
  | endsBeforeStart (id : Text)
  | endsAfterFile (id : Text)
  | duplicateId (id : Text)
  deriving DecidableEq, Repr

namespace ContractViolation

/-- The message that reports a breach. -/
def message : ContractViolation → Text
  | blankName path => "Chunk name must be non-empty in ".toList ++ path ++ ".".toList
  | startsBeforeFile id => "Chunk ".toList ++ id ++ " start_line must be >= 0.".toList
  | endsBeforeStart id => "Chunk ".toList ++ id ++ " end_line must be >= start_line.".toList
  | endsAfterFile id => "Chunk ".toList ++ id ++ " ends past the last line.".toList
  | duplicateId id => "Duplicate chunk id ".toList ++ id ++ ".".toList

end ContractViolation

namespace Chunk

/-- The breach of a chunk of a file with `lineCount` lines, if the identifiers `seen` are taken. -/
def violation? (c : Chunk) (lineCount : Int) (seen : List Text) : Option ContractViolation :=
  if c.name.isBlank then some (.blankName c.path)
  else if c.startLine < 0 then some (.startsBeforeFile c.id)
  else if c.endLine < c.startLine then some (.endsBeforeStart c.id)
  else if max 0 (lineCount - 1) < c.endLine then some (.endsAfterFile c.id)
  else if seen.contains c.id then some (.duplicateId c.id)
  else none

/-- The first breach among chunks that follow chunks with the identifiers `seen`. -/
def violationAfter? (lineCount : Int) : (seen : List Text) → List Chunk → Option ContractViolation
  | _, [] => none
  | seen, c :: rest =>
    match c.violation? lineCount seen with
    | some v => some v
    | none => violationAfter? lineCount (c.id :: seen) rest

end Chunk

/-- The first breach of the contract by the chunks of a file with `lineCount` lines. -/
def contractViolation? (chunks : List Chunk) (lineCount : Int) : Option ContractViolation :=
  Chunk.violationAfter? lineCount [] chunks

end SourceIndex
