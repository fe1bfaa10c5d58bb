import Solr.CommandLine.Options
import Solr.Text.Digits

/-! The commands of the command line, and what their arguments say. -/
namespace Solr.CommandLine

/-- Sort keys and fields are still as they were written. -/
structure QueryArguments where
  query : Option String
  filters : List String
  sorts : List String
  fields : List String
  start : Option Nat
  rows : Option Nat
  deriving DecidableEq

inductive Command where
  | select (query : QueryArguments)
  | ranked (query : QueryArguments) (searched : List String)
  | grouped (query : QueryArguments) (field : String) (otherFields : List String)
      (limit : Option Int) (countGroups : Bool)
  | update (file : String)
  | remove (query : String)
  deriving DecidableEq

structure Arguments where
  collection : String
  baseUrl : Option String
  command : Command
  deriving DecidableEq

namespace Arguments

def globalForms : List OptionForm :=
  [⟨"collection", some 'c', .once⟩, ⟨"base-url", none, .once⟩]

def queryForms : List OptionForm :=
  [⟨"q", some 'q', .once⟩, ⟨"fq", none, .repeated⟩, ⟨"sort", none, .repeated⟩,
    ⟨"fl", none, .repeated⟩, ⟨"start", none, .once⟩, ⟨"rows", none, .once⟩]

def rankedForms : List OptionForm :=
  queryForms ++ [⟨"qf", none, .repeated⟩]

def groupedForms : List OptionForm :=
  queryForms ++ [⟨"group-field", none, .repeated⟩, ⟨"group-limit", none, .once⟩,
    ⟨"ngroups", none, .flag⟩]

def updateForms : List OptionForm :=
  [⟨"file", some 'f', .once⟩]

def removeForms : List OptionForm :=
  [⟨"query", none, .once⟩]

/-- A count of 64 bits. -/
def readCount (s : String) : Option Nat :=
  (Text.readNat? s.toList).filter (· < 0x10000000000000000)

/-- A signed number of 64 bits. -/
def readSigned (s : String) : Option Int :=
  (Text.readInt? s.toList).filter fun i => -0x8000000000000000 ≤ i ∧ i < 0x8000000000000000

/-- A name that is not empty. -/
def readFileName (s : String) : Option String :=
  if s = "" then none else some s

/-- Field lists are separated by commas; pieces may be empty. -/
def splitFields (lists : List String) : List String :=
  lists.flatMap fun l => (Text.splitAt ',' l.toList).map String.ofList

def queryArguments (given : List Given) : Except ArgumentError QueryArguments := do
  let start ← typedValue? given "start" readCount
  let rows ← typedValue? given "rows" readCount
  return ⟨value? given "q", values given "fq", values given "sort",
    splitFields (values given "fl"), start, rows⟩

def options (forms : List OptionForm) (arguments : List String) :
    Except ArgumentError (List Given) := do
  let given ← readAll forms arguments
  checkUse forms given
  return given

def readCommand (name : String) (arguments : List String) : Except ArgumentError Command := do
  if name = "select" then
    return .select (← queryArguments (← options queryForms arguments))
  else if name = "edismax" then
    let given ← options rankedForms arguments
    return .ranked (← queryArguments given) (values given "qf")
  else if name = "group" then
    let given ← options groupedForms arguments
    let query ← queryArguments given
    let limit ← typedValue? given "group-limit" readSigned
    match values given "group-field" with
    | [] => throw (.missingOption "group-field")
    | field :: others => return .grouped query field others limit (isGiven given "ngroups")
  else if name = "update" then
    let given ← options updateForms arguments
    match ← typedValue? given "file" readFileName with
    | some file => return .update file
    | none => throw (.missingOption "file")
  else if name = "remove" then
    return .remove (← requiredValue (← options removeForms arguments) "query")
  else throw (.unexpectedWord name)

/-- The options of all commands stand before the command. -/
def read (arguments : List String) : Except ArgumentError Arguments := do
  let (given, rest) ← readOptions globalForms none arguments
  checkUse globalForms given
  match rest with
  | [] => throw .missingCommand
  | name :: rest =>
    let command ← readCommand name rest
    let collection ← requiredValue given "collection"
    return ⟨collection, value? given "base-url", command⟩

end Arguments
end Solr.CommandLine
