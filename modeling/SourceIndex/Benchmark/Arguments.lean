import SourceIndex.Text.Basic
import SourceIndex.Text.Digit

/-!
# The command line of the benchmark

Three options take a value each, and one, which takes none, asks for help. An option may be
shortened as long as it is the only one that starts so, and its value stands behind an equals sign
or is the next argument. An argument with a dash in front is a value only if it is the dash alone, a
negative number or has a space, or if it stands behind a pair of dashes. A shortened option that
fits several options is a fault wherever it stands. Apart from that, arguments are read from left to
right, and the first fault or request for help ends the reading; arguments that nothing takes are
reported after that.
-/

namespace SourceIndex

namespace Benchmark

/-- What a command line asks for. -/
structure Arguments where
  runs : Int := 3
  scenarios : Text := "small,medium,large".toList
  query : Text := "user profile component hook".toList
  deriving DecidableEq, Repr

/-- Why a command line asks for no measurement: it asks for help, or it is faulty. -/
inductive UsageStop where
  | help
  | fault
  deriving DecidableEq, Repr

/-- The exit code of a program that stops there. -/
def UsageStop.exitCode : UsageStop → Nat
  | help => 0
  | fault => 2

/-- An option. -/
inductive ArgumentOption where
  | runs
  | scenarios
  | query
  | help
  deriving DecidableEq, Repr

namespace ArgumentOption

/-- The names of the options. -/
def names : List (Text × ArgumentOption) :=
  [("-h".toList, help), ("--help".toList, help), ("--runs".toList, runs),
    ("--scenarios".toList, scenarios), ("--query".toList, query)]

end ArgumentOption

/-- How an argument is to be taken: as a value, as an option, possibly with a value behind an equals
sign, as something that looks like an option but is none or shortens several, or as the end of the
options. -/
inductive ArgumentForm where
  | value
  | option (o : ArgumentOption) (value : Option Text)
  | unknown
  | ambiguous
  | terminator
  deriving DecidableEq, Repr

/-- Whether a text is a number with a minus sign in front. -/
def isNegativeNumber : Text → Bool
  | '-' :: rest =>
    match rest.span fun c => (decimalValue? c).isSome with
    | (_ :: _, []) => true
    | (_ :: _, ['\n']) => true
    | (_, '.' :: places) =>
      match places.span fun c => (decimalValue? c).isSome with
      | (_ :: _, []) => true
      | (_ :: _, ['\n']) => true
      | _ => false
    | _ => false
  | _ => false

/-- An argument split at its first equals sign. -/
def splitValue (arg : Text) : Text × Option Text :=
  match arg.span (· != '=') with
  | (name, '=' :: value) => (name, some value)
  | (name, _) => (name, none)

/-- The options that an argument with two dashes may stand for. -/
def longOptions (name : Text) : List ArgumentOption :=
  (ArgumentOption.names.filter fun (full, _) => name.isPrefixOf full).map Prod.snd

/-- Whether what stands behind `-h` in one argument still asks for help: more options of one letter,
none of them with a value. -/
def asksForHelp : Text → Bool
  | [] => true
  | 'h' :: '=' :: _ => false
  | 'h' :: rest => asksForHelp rest
  | c :: _ => c != '-'

/-- How an argument is to be taken that is no option in full. -/
def abbreviatedForm (arg : Text) : ArgumentForm :=
  let fallback : ArgumentForm :=
    if isNegativeNumber arg || arg.contains [' '] then .value else .unknown
  if arg.startsWith "--".toList then
    let (name, value) := splitValue arg
    match longOptions name with
    | [o] => .option o value
    | [] => fallback
    | _ => .ambiguous
  else
    match arg.after? "-h".toList with
    | some tail => .option .help (if asksForHelp tail then none else some tail)
    | none => fallback

/-- How an argument is to be taken. -/
def ArgumentForm.of (arg : Text) : ArgumentForm :=
  if arg = "--".toList then .terminator
  else if !arg.startsWith ['-'] || arg == ['-'] then .value
  else
    match ArgumentOption.names.lookup arg with
    | some o => .option o none
    | none =>
      let (name, text) := splitValue arg
      match text, ArgumentOption.names.lookup name with
      | some text, some o => .option o (some text)
      | _, _ => abbreviatedForm arg

/-- The arguments with their forms; everything behind a terminator is a value. -/
def argumentForms : List Text → List (ArgumentForm × Text)
  | [] => []
  | arg :: rest =>
    match ArgumentForm.of arg with
    | .terminator => (.terminator, arg) :: rest.map fun arg => (.value, arg)
    | form => (form, arg) :: argumentForms rest

/-- The arguments with the value of an option set. -/
def Arguments.set (a : Arguments) (value : Text) : ArgumentOption → Except UsageStop Arguments
  | .runs =>
    match value.integer? with
    | some n => .ok { a with runs := n }
    | none => .error .fault
  | .scenarios => .ok { a with scenarios := value }
  | .query => .ok { a with query := value }
  | .help => .error .help

/-- Reads arguments with their forms; `extra` tells whether one was found that nothing takes. -/
def readArguments (a : Arguments) (extra : Bool) :
    List (ArgumentForm × Text) → Except UsageStop Arguments
  | [] => if extra then .error .fault else .ok a
  | (.option .help none, _) :: _ => .error .help
  | (.option .help (some _), _) :: _ => .error .fault
  | (.option o (some value), _) :: rest =>
    match a.set value o with
    | .ok a => readArguments a extra rest
    | .error stop => .error stop
  | (.option o none, _) :: (.value, value) :: rest =>
    match a.set value o with
    | .ok a => readArguments a extra rest
    | .error stop => .error stop
  | (.option _ none, _) :: _ => .error .fault
  | _ :: rest => readArguments a true rest

/-- Reads a command line. -/
def Arguments.read (args : List Text) : Except UsageStop Arguments :=
  let forms := argumentForms args
  if forms.any fun (form, _) => form == .ambiguous then .error .fault
  else readArguments {} false forms

end Benchmark

end SourceIndex
