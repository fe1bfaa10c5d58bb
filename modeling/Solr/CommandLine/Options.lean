import Solr.Text.Split

/-! Options of a command line: `--name value`, `--name=value`, and with a letter
`-n value`, `-nvalue` or `-n=value`. A value that stands by itself may not begin with a
dash, unless it is a dash and nothing else. -/
namespace Solr.CommandLine

/-- How often an option may be given, and whether it takes a value. -/
inductive Use where
  | flag
  | once
  | repeated
  deriving DecidableEq

structure OptionForm where
  name : String
  letter : Option Char
  use : Use
  deriving DecidableEq

inductive ArgumentError where
  | unknownOption (argument : String)
  | unexpectedWord (argument : String)
  | missingValue (option : String)
  | superfluousValue (option : String)
  | repeatedOption (option : String)
  | badValue (option value : String)
  | missingOption (option : String)
  | missingCommand
  deriving DecidableEq

namespace ArgumentError

def message : ArgumentError → String
  | .unknownOption a => "unexpected argument '" ++ a ++ "' found"
  | .unexpectedWord a => "unexpected argument '" ++ a ++ "' found"
  | .missingValue o => "a value is required for '--" ++ o ++ "' but none was supplied"
  | .superfluousValue o => "unexpected value for '--" ++ o ++ "' found"
  | .repeatedOption o => "the argument '--" ++ o ++ "' cannot be used multiple times"
  | .badValue o v => "invalid value '" ++ v ++ "' for '--" ++ o ++ "'"
  | .missingOption o => "the required argument '--" ++ o ++ "' was not provided"
  | .missingCommand => "a subcommand is required but one was not provided"

end ArgumentError

/-- An option as it was given: its name, and its value unless it is a flag. -/
abbrev Given := String × Option String

/-- What an argument is by its form. -/
inductive Shape where
  | long (name : String) (value : Option String)
  | short (letter : Char) (rest : List Char)
  /-- From here on there are words only. -/
  | wordsOnly
  | word
  deriving DecidableEq

def Shape.of (argument : String) : Shape :=
  match argument.toList with
  | ['-', '-'] => .wordsOnly
  | '-' :: '-' :: s =>
    match Text.splitOnce? '=' s with
    | some (name, value) => .long (String.ofList name) (some (String.ofList value))
    | none => .long (String.ofList s) none
  | '-' :: letter :: rest => .short letter rest
  | _ => .word

/-- The value that stands directly after a letter, if any does. -/
def attached : List Char → Option String
  | [] => none
  | '=' :: value => some (String.ofList value)
  | value => some (String.ofList value)

/-- Reads options up to the first word; gives the options and, from that word on, the
arguments that are left. An option that waits for its value is `pending`. -/
def readOptions (forms : List OptionForm) :
    Option String → List String → Except ArgumentError (List Given × List String)
  | some option, [] => .error (.missingValue option)
  | none, [] => .ok ([], [])
  | some option, argument :: rest =>
    match Shape.of argument with
    | .word => do
      let (given, rest) ← readOptions forms none rest
      return ((option, some argument) :: given, rest)
    | _ => .error (.missingValue option)
  | none, argument :: rest =>
    let take (form : OptionForm) (value : Option String) :
        Except ArgumentError (List Given × List String) :=
      match form.use, value with
      | .flag, some _ => .error (.superfluousValue form.name)
      | .flag, none => do
        let (given, rest) ← readOptions forms none rest
        return ((form.name, none) :: given, rest)
      | _, some value => do
        let (given, rest) ← readOptions forms none rest
        return ((form.name, some value) :: given, rest)
      | _, none => readOptions forms (some form.name) rest
    match Shape.of argument with
    | .word => .ok ([], argument :: rest)
    | .wordsOnly =>
      match rest with
      | [] => .ok ([], [])
      | word :: _ => .error (.unexpectedWord word)
    | .long name value =>
      match forms.find? (·.name = name) with
      | some form => take form value
      | none => .error (.unknownOption argument)
    | .short letter text =>
      match forms.find? (·.letter = some letter) with
      | some form => take form (attached text)
      | none => .error (.unknownOption argument)

/-- All options of a command that takes no words. -/
def readAll (forms : List OptionForm) (arguments : List String) :
    Except ArgumentError (List Given) := do
  match ← readOptions forms none arguments with
  | (given, []) => return given
  | (_, word :: _) => throw (.unexpectedWord word)

/-- No option may be given twice unless it is one that can be repeated. -/
def checkUse (forms : List OptionForm) (given : List Given) : Except ArgumentError Unit :=
  match forms.find? fun f => f.use ≠ .repeated ∧ 1 < (given.filter (·.1 = f.name)).length with
  | some form => .error (.repeatedOption form.name)
  | none => .ok ()

def values (given : List Given) (name : String) : List String :=
  (given.filter (·.1 = name)).filterMap (·.2)

def value? (given : List Given) (name : String) : Option String :=
  (values given name).head?

def isGiven (given : List Given) (name : String) : Bool :=
  given.any (·.1 = name)

def requiredValue (given : List Given) (name : String) : Except ArgumentError String :=
  match value? given name with
  | some v => .ok v
  | none => .error (.missingOption name)

/-- The value of an option in a type of its own, where the option is given. -/
def typedValue? {α : Type} (given : List Given) (name : String) (read : String → Option α) :
    Except ArgumentError (Option α) :=
  match value? given name with
  | none => .ok none
  | some v =>
    match read v with
    | some a => .ok (some a)
    | none => .error (.badValue name v)

end Solr.CommandLine
