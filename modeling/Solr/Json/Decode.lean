import Solr.Json.Scanner
import Solr.Text.Diagnostic

/-! Reading typed values from the outline of a text. Members are read in the order of
the text and the first fault wins; missing fields are reported after all members, in
the order of declaration. -/
namespace Solr.Json

/-- The alternatives that a message lists. -/
def alternatives : List String → String
  | [] => "there are no variants"
  | [a] => "expected `" ++ a ++ "`"
  | [a, b] => "expected `" ++ a ++ "` or `" ++ b ++ "`"
  | names => "expected one of " ++ ", ".intercalate (names.map fun n => "`" ++ n ++ "`")

namespace Found

def text : Found → String
  | .null => "null"
  | .boolean b => "boolean `" ++ (if b then "true" else "false") ++ "`"
  | .integer i => "integer `" ++ String.ofList (Text.integer i) ++ "`"
  | .double x => "floating point `" ++ String.ofList (doubleText x) ++ "`"
  | .string s => "string " ++ Text.diagnostic s
  | .sequence => "sequence"
  | .map => "map"

end Found

def Mismatch.message : Mismatch → String
  | .missingField name => "missing field `" ++ name ++ "`"
  | .duplicateField name => "duplicate field `" ++ name ++ "`"
  | .unknownVariant name expected => "unknown variant `" ++ name ++ "`, " ++ alternatives expected
  | .invalidLength n expected =>
    "invalid length " ++ String.ofList (Text.digits n) ++ ", expected " ++ expected
  | .invalidType found expected => "invalid type: " ++ found.text ++ ", expected " ++ expected
  | .invalidValue found expected => "invalid value: " ++ found.text ++ ", expected " ++ expected

namespace ReadError

def category : ReadError → Category
  | .fault f | .surplus f _ _ => f.category
  | .mismatch _ => .shape

def message : ReadError → String
  | .fault f | .surplus f _ _ => f.message
  | .mismatch m => m.message

def elements (n : Nat) : String :=
  String.ofList (Text.digits n) ++ (if n = 1 then " element" else " elements")

/-- The error as it is for a value that has been read before: its text is known to be
well formed, so a list that is too long is one of the wrong length. `limit` words what
was expected in place of it. -/
def settled (limit : Nat → String) : ReadError → ReadError
  | .surplus _ length expected => .mismatch (.invalidLength length (limit expected))
  | e => e

/-- The limit on a part of a record that is read from what other parts left. -/
def leftoverLimit (n : Nat) : String :=
  elements n ++ " in sequence"

/-- The limit on a value that stands by itself. -/
def valueLimit (_ : Nat) : String :=
  "fewer elements in array"

end ReadError

abbrev Decoder (α : Type) := Node → Except ReadError α

namespace Node

def refuse {α : Type} (f : Fault) : Except ReadError α :=
  .error (.fault f)

/-- The error for a value of another type than the one named. -/
def unexpected {α : Type} (n : Node) (expected : String) : Except ReadError α :=
  let wrong (found : Found) : Except ReadError α :=
    .error (.mismatch (.invalidType found expected))
  match n with
  | .null => wrong .null
  | .boolean b => wrong (.boolean b)
  | .number (.integer i) => wrong (.integer i)
  | .number (.double x) => wrong (.double x)
  | .number (.single x) => wrong (.double x.convert)
  | .string s => wrong (.string s)
  | .array .. => wrong .sequence
  | .object .. => wrong .map
  | .unreadable f _ => refuse f

end Node

/-- Nothing may be wrong with the end of an array or object that is read to its end. -/
def Ending.check : Ending → Except ReadError Unit
  | .closed => .ok ()
  | .stopped stop => .error (.fault stop.reading)

namespace Decode

def string : Decoder String
  | .string s => .ok s
  | n => n.unexpected "a string"

def boolean : Decoder Bool
  | .boolean b => .ok b
  | n => n.unexpected "a boolean"

/-- An integer between the bounds; numbers with a point or exponent are refused. -/
def integer (name : String) (low high : Int) : Decoder Int
  | .number (.integer i) =>
    if low ≤ i ∧ i ≤ high then .ok i
    else .error (.mismatch (.invalidValue (.integer i) name))
  | n => n.unexpected name

def int64 : Decoder Int :=
  integer "i64" (-0x8000000000000000) 0x7fffffffffffffff

def nat64 : Decoder Nat :=
  fun n => (integer "u64" 0 0xffffffffffffffff n).map Int.toNat

def double : Decoder Double
  | .number (.integer i) => .ok (.ofInt i)
  | .number (.double x) => .ok x
  | .number (.single x) => .ok x.convert
  | n => n.unexpected "f64"

/-- Doubles are narrowed, integers are rounded once. -/
def single : Decoder Single
  | .number (.integer i) => .ok (.ofInt i)
  | .number (.double x) => .ok x.convert
  | .number (.single x) => .ok x
  | n => n.unexpected "f32"

def unit : Decoder Unit
  | .null => .ok ()
  | n => n.unexpected "unit"

variable {α : Type}

/-- Null is the absent value. -/
def optional (d : Decoder α) : Decoder (Option α)
  | .null => .ok none
  | n => (d n).map some

def each (d : Decoder α) (items : List Node) : Except ReadError (List α) :=
  items.mapM d

def list (d : Decoder α) : Decoder (List α)
  | .array items ending => do
    let values ← each d items
    ending.check
    return values
  | n => n.unexpected "a sequence"

/-- Members in key order; of equal keys the last. -/
def map (d : Decoder α) : Decoder (Entries α)
  | .object members ending => do
    let pairs ← members.mapM fun (key, n) => do
      let key ← key.mapError ReadError.fault
      return (key, ← d n)
    ending.check
    return Entries.ofList pairs
  | n => n.unexpected "a map"

end Decode

mutual

/-- Any value, with keys in order and of equal keys the last. -/
def Decode.value : Node → Except ReadError Json
  | .null => .ok .null
  | .boolean b => .ok (.boolean b)
  | .number n => .ok (.number n)
  | .string s => .ok (.string s)
  | .array items ending => do
    let values ← valueItems items
    ending.check
    return .array values
  | .object members ending => do
    let pairs ← valueMembers members
    ending.check
    return .object (Entries.ofList pairs)
  | .unreadable f _ => .error (.fault f)

def valueItems : List Node → Except ReadError (List Json)
  | [] => .ok []
  | n :: rest => do
    let j ← Decode.value n
    return j :: (← valueItems rest)

def valueMembers : List (Except Fault String × Node) → Except ReadError (List (String × Json))
  | [] => .ok []
  | (key, n) :: rest => do
    let key ← key.mapError ReadError.fault
    let j ← Decode.value n
    return (key, j) :: (← valueMembers rest)

end

mutual

/-- The outline of a value that has been read. -/
def Node.ofJson : Json → Node
  | .null => .null
  | .boolean b => .boolean b
  | .number n => .number n
  | .string s => .string s
  | .array items => .array (ofItems items) .closed
  | .object members => .object (ofMembers members) .closed

def ofItems : List Json → List Node
  | [] => []
  | j :: rest => Node.ofJson j :: ofItems rest

def ofMembers : List (String × Json) → List (Except Fault String × Node)
  | [] => []
  | (key, j) :: rest => (.ok key, Node.ofJson j) :: ofMembers rest

end

/-- Reads a value; its members are looked at in key order, of equal keys the last. -/
def decodeValue {α : Type} (d : Decoder α) (j : Json) : Except ReadError α :=
  (d (Node.ofJson j.canonical)).mapError (ReadError.settled ReadError.valueLimit)

/-- Reads a whole text; what follows the value is looked at last. -/
def decodeText {α : Type} (d : Decoder α) (dialect : Dialect) (text : String) :
    Except ReadError α := do
  let o := outline dialect text
  let a ← d o.root
  match o.trailing with
  | none => return a
  | some f => throw (.fault f)

end Solr.Json
