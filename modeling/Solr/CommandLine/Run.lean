import Solr.CommandLine.Arguments
import Solr.CommandLine.Files
import Solr.Service.Session

/-! What a command line does: the operation that it asks for, and what it prints. All
arguments are checked, and files read, before anything is sent. -/
namespace Solr.CommandLine

open Query (Search SearchedField SortKey Description)
open Service (Collection Failure Operation Outcome Step)

/-- Why a command fails. -/
inductive Complaint where
  | sortForm (argument : String)
  | sortOrder (order : String)
  | weight (argument : String) (error : NumeralError)
  | unreadableFile (name : String) (fault : FileFault)
  | fileFormat (error : Json.ReadError)
  | service (failure : Failure)
  deriving DecidableEq

namespace Complaint

def headline : Complaint → String
  | .sortForm a => "sort '" ++ a ++ "' must look like field:asc"
  | .sortOrder o => "unknown sort order '" ++ o ++ "'"
  | .weight a _ => "invalid weight in '" ++ a ++ "'"
  | .unreadableFile name _ => "Failed to read " ++ name
  | .fileFormat _ => "Update file must hold a JSON array"
  | .service f => f.message

def cause : Complaint → Option String
  | .weight _ e => some e.message
  | .unreadableFile _ fault => some fault.message
  | .fileFormat e => some e.message
  | .service (.unreadable e) => some e.message
  | _ => none

def text (c : Complaint) : String :=
  "Error: " ++ c.headline ++
    (match c.cause with
      | some cause => "\n\nCaused by:\n    " ++ cause
      | none => "") ++ "\n"

end Complaint

/-- `field:asc` or `field:desc`, divided at the first colon. -/
def readSort (argument : String) : Except Complaint SortKey :=
  match Text.splitOnce? ':' argument.toList with
  | none => .error (.sortForm argument)
  | some (name, order) =>
    let field : Field := ⟨String.ofList name⟩
    let order := String.ofList order
    if order = "asc" then .ok ⟨field, .ascending⟩
    else if order = "desc" then .ok ⟨field, .descending⟩
    else .error (.sortOrder order)

/-- `field` or `field^weight`, divided at the first caret. -/
def readSearched (argument : String) : Except Complaint SearchedField :=
  match Text.splitOnce? '^' argument.toList with
  | none => .ok ⟨⟨argument⟩, none⟩
  | some (name, weight) =>
    match Binary.read weight with
    | .ok w => .ok ⟨⟨String.ofList name⟩, some w⟩
    | .error e => .error (.weight argument e)

def QueryArguments.search (a : QueryArguments) : Except Complaint Search := do
  let sorts ← a.sorts.mapM readSort
  return { Search.empty with
    query := a.query
    filters := a.filters
    fields := a.fields.map Field.mk
    sorts
    start := a.start
    rows := a.rows }

/-- The documents of a file, or the reason why it cannot be read. -/
def readDocuments (name : String) (file : Except FileFault String) :
    Except Complaint (List Json) := do
  let text ← file.mapError (Complaint.unreadableFile name)
  (Json.decodeText (Json.Decode.list Json.Decode.value) .service text).mapError .fileFormat

namespace Command

/-- What the command asks of the service; `file` gives the contents of a file. -/
def operation (file : String → Except FileFault String) :
    Command → Except Complaint (Operation Json)
  | .select a => do
    let d := { Description.empty with search := ← a.search }
    return .select (d.compile .standard)
  | .ranked a searched => do
    let search ← a.search
    let fields ← searched.mapM readSearched
    let d := { Description.empty with search, ranking := { Query.Ranking.empty with fields } }
    return .select (d.compile .ranked)
  | .grouped a field others limit countGroups => do
    let grouping := { Query.Grouping.empty with
      fields := (field :: others).map Field.mk
      limit
      countGroups := if countGroups then some true else none }
    let d := { Description.empty with search := ← a.search, grouping }
    return .selectGroups (d.compile .grouped)
  | .update name => do
    let documents ← readDocuments name (file name)
    return .update (documents.map .document)
  | .remove query => .ok (.remove (.matching query))

end Command

/-- What is printed when an operation on a collection has succeeded. -/
def report (collection : String) : Operation Json → Option Json → String
  | .update updates, _ =>
    "Updated " ++ Service.Event.numeral updates.length ++ " documents in " ++ collection ++ "\n"
  | .remove _, _ => "Removed matching documents from " ++ collection ++ "\n"
  | _, some answer => answer.indented ++ "\n"
  | _, none => ""

/-- How a run of the program ends. -/
inductive Ending where
  | succeeded (output : String)
  | failed (complaint : Complaint)
  | refused (error : ArgumentError)
  deriving DecidableEq

namespace Ending

def exitCode : Ending → Nat
  | .succeeded _ => 0
  | .failed _ => 1
  | .refused _ => 2

def output : Ending → String
  | .succeeded output => output
  | _ => ""

def complaints : Ending → String
  | .succeeded _ => ""
  | .failed c => c.text
  | .refused e => "error: " ++ e.message ++ "\n"

end Ending

/-- What a run needs of its surroundings: the base URL that the environment names, the
contents of files, and what becomes of a request. -/
structure Surroundings where
  baseUrl : Option String
  file : String → Except FileFault String
  delivery : Http.Delivery

/-- A run of the program: how it ends, and the request that it issued, if any. -/
structure Run where
  ending : Ending
  request : Option Http.Request

def Arguments.settings (a : Arguments) (environment : Option String) : Settings :=
  match a.baseUrl with
  | some url => .ofBaseUrl url
  | none => .ofEnvironment environment

def runArguments (s : Surroundings) (a : Arguments) : Run :=
  let collection : Collection := ⟨a.collection, a.settings s.baseUrl⟩
  match a.command.operation s.file with
  | .error c => ⟨.failed c, none⟩
  | .ok operation =>
    let outcome := Step.perform collection ⟨operation, .empty, s.delivery⟩
    match outcome.result with
    | .ok answer => ⟨.succeeded (report a.collection operation answer), outcome.request⟩
    | .error f => ⟨.failed (.service f), outcome.request⟩

def run (s : Surroundings) (arguments : List String) : Run :=
  match Arguments.read arguments with
  | .error e => ⟨.refused e, none⟩
  | .ok a => runArguments s a

/-- The requests that reach the service. -/
def Run.seen (r : Run) (s : Surroundings) : List Http.Request :=
  if s.delivery.arrives then r.request.toList else []

end Solr.CommandLine
