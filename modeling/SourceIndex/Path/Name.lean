import SourceIndex.Text.Case

/-!
# File names

The name and the extension of the file that a path leads to. Slashes and backslashes both separate
the parts of a path. A path that ends in a separator counts as its own file name.
-/

namespace SourceIndex

namespace Path

/-- The part of a path behind its last separator, or the path itself if that part is empty. -/
def baseName (path : Text) : Text :=
  let parts := (path.map fun c => if c == '\\' then '/' else c).splitOn '/'
  match parts.getLast?.getD [] with
  | [] => path
  | name => name

/-- The extension of a file name in lower case, with its dot; nothing if the name has no dot. -/
def extension (path : Text) : Text :=
  let name := baseName path
  if name.contains ['.'] then '.' :: Text.lower ((name.splitOn '.').getLast?.getD []) else []

/-- Whether a path ends in one of the extensions, whatever the case of either. -/
def hasExtension (extensions : List Text) (path : Text) : Bool :=
  extensions.any fun e => path.lower.endsWith e.lower

end Path

end SourceIndex
