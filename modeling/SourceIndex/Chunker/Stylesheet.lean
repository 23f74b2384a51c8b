import SourceIndex.Chunker.Basic
import SourceIndex.Code.Block

/-!
# Stylesheets

One chunk for each layer, root, dark-mode or media rule set. A stylesheet without any is one chunk.
-/

namespace SourceIndex

namespace Stylesheet

/-- The extensions of stylesheets. -/
def defaultExtensions : List Text :=
  [".css", ".scss", ".sass", ".less"].map String.toList

/-- The starts of the rule sets that become chunks. -/
def markers : List Text :=
  ["@layer", ":root", ".dark", "@media"].map String.toList

/-- The name of the rule set that a trimmed line starts: its first word, and whether the line speaks
of the base layer. -/
def ruleSetName (line : Text) : Text :=
  let name := line.takeWhile fun c => !(isBlankChar c || c == '{')
  if line.contains "base".toList then name ++ " base".toList else name

/-- The name of the rule set that a line starts, if it starts one. -/
def ruleSet? (line : Text) : Option Text :=
  let line := line.trim
  if markers.any line.startsWith then some (ruleSetName line) else none

/-- The chunks of the rule sets of a stylesheet. -/
def ruleSets (path content : Text) : List Chunk :=
  (blocks ruleSet? 0 content.lines).map fun b => .ofBlock path .style b.label b.first b.lines

/-- The chunks of a stylesheet. -/
def chunks (path content : Text) : List Chunk :=
  match ruleSets path content with
  | [] => [.wholeFile path .style content]
  | cs => cs

/-- The chunker for stylesheets. -/
def chunker (extensions : List Text) : Chunker :=
  .ofExtensions "stylesheet".toList extensions chunks

end Stylesheet

end SourceIndex
