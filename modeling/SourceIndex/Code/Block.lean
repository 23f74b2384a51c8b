import SourceIndex.Code.Literal

/-!
# Blocks of lines

A block starts at a line and ends with the first line at which some bracket has been opened and no
kind of bracket is open any more, or with a line that ends a statement before any bracket. Brackets
inside literals and comments do not count. A block that never ends runs to the last line. `blocks`
collects the blocks whose first line is recognised, each search going on below the last block.
-/

namespace SourceIndex

/-- How deep a text stands in each kind of bracket, those opened less those closed, and whether any
was opened. -/
structure BracketDepth where
  brace : Int := 0
  paren : Int := 0
  bracket : Int := 0
  started : Bool := false
  deriving DecidableEq, Repr

namespace BracketDepth

/-- The depth after one more character. -/
def step (d : BracketDepth) (c : Char) : BracketDepth :=
  if c == '{' then { d with brace := d.brace + 1, started := true }
  else if c == '}' then { d with brace := d.brace - 1 }
  else if c == '(' then { d with paren := d.paren + 1, started := true }
  else if c == ')' then { d with paren := d.paren - 1 }
  else if c == '[' then { d with bracket := d.bracket + 1, started := true }
  else if c == ']' then { d with bracket := d.bracket - 1 }
  else d

/-- The depth after one more text. -/
def feed (d : BracketDepth) (s : Text) : BracketDepth :=
  s.foldl step d

/-- Whether a bracket was opened and none is open any more. -/
def closed (d : BracketDepth) : Bool :=
  d.started && decide (d.brace ≤ 0) && decide (d.paren ≤ 0) && decide (d.bracket ≤ 0)

end BracketDepth

/-- Whether a line ends with a semicolon. -/
def endsStatement (line : Text) : Bool :=
  line.trimEnd.getLast? == some ';'

/-- The number of lines below the first one up to the end of a block, if the block ends; `d` is the
depth before its first line. -/
def reachFrom? (d : BracketDepth) : List Text → Option Nat
  | [] => none
  | line :: rest =>
    let code := withoutLiterals line
    let d := d.feed code
    if d.closed then some 0
    else if !d.started && endsStatement code then some 0
    else (reachFrom? d rest).map (· + 1)

/-- The number of lines that a block spans below the first of the given lines. -/
def blockReach (lines : List Text) : Nat :=
  (reachFrom? {} lines).getD (lines.length - 1)

/-- The number of the last line of the block that starts at line `start`. -/
def blockEnd (lines : List Text) (start : Nat) : Nat :=
  start + blockReach (lines.drop start)

/-- Consecutive lines of a file, with the number of the first one and what was recognised in it. -/
structure Block (α : Type) where
  label : α
  first : Nat
  lines : List Text
  deriving Repr

/-- The blocks below the first `skip` of the given lines; `first` is the number of the first of
them. -/
def blocksFrom {α : Type} (recognise : Text → Option α) :
    (skip first : Nat) → List Text → List (Block α)
  | _, _, [] => []
  | skip + 1, first, _ :: rest => blocksFrom recognise skip (first + 1) rest
  | 0, first, line :: rest =>
    match recognise line with
    | none => blocksFrom recognise 0 (first + 1) rest
    | some label =>
      let reach := blockReach (line :: rest)
      ⟨label, first, line :: rest.take reach⟩ :: blocksFrom recognise reach (first + 1) rest

/-- The blocks whose first line is recognised, from line `start` on. -/
def blocks {α : Type} (recognise : Text → Option α) (start : Nat) (lines : List Text) :
    List (Block α) :=
  blocksFrom recognise 0 start (lines.drop start)

end SourceIndex
