import Solr.Calendar
import Solr.Json.Basic

/-! Single values of index fields: their types, their reading from a written form, and
what stands for them in clauses and in JSON. -/
namespace Solr

inductive ScalarType where
  | text
  | integer (low high : Int)
  | single
  | double
  | date
  | instant
  deriving DecidableEq

namespace ScalarType

def int32 : ScalarType := .integer (-0x80000000) 0x7fffffff

def int64 : ScalarType := .integer (-0x8000000000000000) 0x7fffffffffffffff

def nat32 : ScalarType := .integer 0 0xffffffff

def nat64 : ScalarType := .integer 0 0xffffffffffffffff

end ScalarType

inductive Scalar where
  | text (value : String)
  | integer (value : Int)
  | single (value : Single)
  | double (value : Double)
  | date (value : Date)
  | instant (value : Instant)
  deriving DecidableEq

namespace Scalar

/-- The value that a written form has in a type; dates and instants have none here. -/
def read? (type : ScalarType) (s : String) : Option Scalar :=
  match type with
  | .text => some (.text s)
  | .integer low high =>
    let signed := if low < 0 then Text.readInt? s.toList
      else (Text.readNat? s.toList).map fun n => (n : Int)
    (signed.filter fun i => low ≤ i ∧ i ≤ high).map .integer
  | .single => (Binary.read s.toList).toOption.map .single
  | .double => (Binary.read s.toList).toOption.map .double
  | .date | .instant => none

/-- Numbers that are not finite, which JSON lacks, are null. -/
def json : Scalar → Json
  | .text s => .string s
  | .integer i => .ofInt i
  | .single x => .ofDouble x.convert
  | .double x => .ofDouble x
  | .date d => .string (String.ofList d.text)
  | .instant t => .string (String.ofList t.text)

end Scalar

/-- What stands for a value in a clause: a text to be quoted, or a numeral. -/
inductive Literal where
  | text (value : List Char)
  | number (numeral : List Char)
  deriving DecidableEq

def Scalar.literal : Scalar → Literal
  | .text s => .text s.toList
  | .integer i => .number (Text.integer i)
  | .single x => .number x.plainText
  | .double x => .number x.plainText
  | .date d => .text d.filterText
  | .instant t => .text t.millisecondText

end Solr
