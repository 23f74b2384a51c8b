import SourceIndex.Project

/-!
# Generated projects

Projects of any size for measurements: hooks, components that use them, utilities, stylesheets and
migrations, each numbered, and one file of structured data at the end.
-/

namespace SourceIndex

namespace Benchmark

/-- The size of a generated project: how many files it has of each kind. -/
structure Profile where
  components : Nat
  hooks : Nat
  utilities : Nat
  stylesheets : Nat
  migrations : Nat
  deriving DecidableEq, Repr

namespace Profile

/-- The source of a component. -/
def componentSource (index : Nat) : Text :=
  let n := Text.ofNat index
  let k := Text.ofNat (index % 7)
  Text.unlines
    ["import \x7b useState \x7d from 'react';".toList,
      "import \x7b useProfile".toList ++ k ++ " \x7d from '../hooks/useProfile".toList ++ k ++
        "';".toList,
      [],
      "export function UserCard".toList ++ n ++
        "(\x7b userId \x7d: \x7b userId: string \x7d) \x7b".toList,
      "  const profile = useProfile".toList ++ k ++ "(userId);".toList,
      "  const [open, setOpen] = useState(false);".toList,
      "  if (!profile) \x7b".toList,
      "    return null;".toList,
      "  \x7d".toList,
      "  return (".toList,
      "    <div className=\"card-".toList ++ n ++
        "\" onClick=\x7b() => setOpen(!open)\x7d>".toList,
      "      \x7bprofile.name\x7d".toList,
      "    </div>".toList,
      "  );".toList,
      "\x7d".toList,
      []]

/-- The source of a hook. -/
def hookSource (index : Nat) : Text :=
  Text.unlines
    ["import \x7b useEffect, useState \x7d from 'react';".toList,
      [],
      "export function useProfile".toList ++ Text.ofNat index ++ "(userId: string) \x7b".toList,
      "  const [profile, setProfile] = useState(null);".toList,
      "  useEffect(() => \x7b".toList,
      "    fetch(\x60/api/users/$\x7buserId\x7d\x60)".toList ++
        ".then((r) => r.json()).then(setProfile);".toList,
      "  \x7d, [userId]);".toList,
      "  return profile;".toList,
      "\x7d".toList,
      []]

/-- The source of a utility. -/
def utilitySource (index : Nat) : Text :=
  let n := Text.ofNat index
  Text.unlines
    ["export const LIMITS_".toList ++ n ++ " = \x7b".toList,
      "  pageSize: ".toList ++ Text.ofNat (10 + index) ++ ",".toList,
      "  retries: 3,".toList,
      "\x7d;".toList,
      [],
      "export const formatName".toList ++ n ++
        " = (first: string, last: string) => \x7b".toList,
      "  return \x60$\x7bfirst\x7d $\x7blast\x7d\x60.trim();".toList,
      "\x7d;".toList,
      []]

/-- The source of a stylesheet. -/
def stylesheetSource (index : Nat) : Text :=
  let n := Text.ofNat index
  Text.unlines
    ["@layer base \x7b".toList,
      "  .card-".toList ++ n ++ " \x7b padding: 1rem; \x7d".toList,
      "\x7d".toList,
      [],
      "@media (min-width: 640px) \x7b".toList,
      "  .card-".toList ++ n ++ " \x7b padding: 2rem; \x7d".toList,
      "\x7d".toList,
      []]

/-- The source of a migration. -/
def migrationSource (index : Nat) : Text :=
  let n := Text.ofNat index
  Text.unlines
    ["CREATE TABLE IF NOT EXISTS profiles_".toList ++ n ++ " (".toList,
      "  id uuid primary key,".toList,
      "  name text not null".toList,
      ");".toList,
      [],
      "CREATE INDEX profiles_".toList ++ n ++ "_name ON profiles_".toList ++ n ++
        " (name);".toList,
      []]

/-- The digits of a number with zeros in front up to four digits. -/
def fourDigits (n : Nat) : Text :=
  let digits := Text.ofNat n
  List.replicate (4 - digits.length) '0' ++ digits

/-- Numbered files with paths between `start` and `stop`. -/
def numbered (count : Nat) (start stop : String) (number content : Nat → Text) :
    List ProjectEntry :=
  (List.range count).map fun i =>
    { path := start.toList ++ number i ++ stop.toList, content := content i }

/-- The files of a generated project. -/
def files (p : Profile) : List ProjectEntry :=
  numbered p.hooks "src/hooks/useProfile" ".ts" Text.ofNat hookSource ++
  numbered p.components "src/components/UserCard" ".tsx" Text.ofNat componentSource ++
  numbered p.utilities "src/lib/util" ".ts" Text.ofNat utilitySource ++
  numbered p.stylesheets "src/styles/theme" ".css" Text.ofNat stylesheetSource ++
  numbered p.migrations "db/migrations/" ".sql" fourDigits migrationSource ++
  [{ path := "package.json".toList
     content := "\x7b\n  \"name\": \"fixture\"\n\x7d\n".toList }]

end Profile

end Benchmark

end SourceIndex
