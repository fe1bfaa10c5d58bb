import Solr.Json.Printer

/-! Request parameters: pairs of texts in key order, made from the members of a JSON
object. A null is left out, and an array gives one pair for each of its items. -/
namespace Solr

abbrev Parameters := List (String × String)

/-- Why a value has no parameters. -/
inductive FlattenReason where
  | notAnObject (value : Json)
  | nested
  deriving DecidableEq

/-- The key is empty if the value as a whole is at fault. -/
structure FlattenError where
  key : String
  reason : FlattenReason
  deriving DecidableEq

namespace FlattenReason

def text : FlattenReason → String
  | .notAnObject value => "expected an object of parameters, got " ++ value.compact
  | .nested => "nested structures must be JSON-encoded into a string"

end FlattenReason

namespace FlattenError

def message (e : FlattenError) : String :=
  "Invalid query parameter '" ++ e.key ++ "': " ++ e.reason.text

end FlattenError

namespace Parameters

/-- Below `10 ^ 15` a whole number is written without a point. -/
def doubleText (x : Double) : List Char :=
  if x.isWhole ∧ x.isWithin 1000000000000000 then Text.integer x.toInt64 else Json.doubleText x

def numberText : Number → List Char
  | .integer i => Text.integer i
  | .double x => doubleText x
  | .single x => doubleText x.convert

/-- The pairs of one item. -/
def ofItem (key : String) : Json → Except FlattenError Parameters
  | .null => .ok []
  | .boolean b => .ok [(key, if b then "true" else "false")]
  | .number n => .ok [(key, String.ofList (numberText n))]
  | .string s => .ok [(key, s)]
  | .array _ | .object _ => .error ⟨key, .nested⟩

def ofItems (key : String) : List Json → Except FlattenError Parameters
  | [] => .ok []
  | j :: rest => do
    let pairs ← ofItem key j
    return pairs ++ (← ofItems key rest)

def ofMember (key : String) : Json → Except FlattenError Parameters
  | .array items => ofItems key items
  | j => ofItem key j

def ofMembers : List (String × Json) → Except FlattenError Parameters
  | [] => .ok []
  | (key, j) :: rest => do
    let pairs ← ofMember key j
    return pairs ++ (← ofMembers rest)

/-- The first fault in key order is the one reported. -/
def flatten (j : Json) : Except FlattenError Parameters :=
  match j.canonical with
  | .object members => ofMembers members
  | other => .error ⟨"", .notAnObject other⟩

end Parameters
end Solr
