import SourceIndex.Chunker.Basic

/-!
# Whole files as chunks

Files of structured data become one chunk each, and so do files for which there is no better way.
-/

namespace SourceIndex

namespace Structured

/-- The extensions of structured data. -/
def defaultExtensions : List Text :=
  [".json", ".jsonc", ".yaml", ".yml", ".toml"].map String.toList

/-- One chunk for each file of structured data. -/
def chunker (extensions : List Text) : Chunker :=
  .ofExtensions "structured".toList extensions fun path content =>
    [.wholeFile path .config content]

end Structured

namespace WholeFile

/-- One chunk for each file, whatever its path. -/
def chunker : Chunker :=
  { Chunker.ofExtensions "whole_file".toList [] fun path content =>
      [.wholeFile path .unknown content] with
    supports := fun _ => true }

end WholeFile

end SourceIndex
