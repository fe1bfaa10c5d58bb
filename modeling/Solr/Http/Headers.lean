import Solr.Entries

/-! Request headers, by their names in lower case, each with one value. -/
namespace Solr.Http

abbrev Headers := Entries String

inductive HeaderFault where
  | name
  | value
  deriving DecidableEq

/-- Letters, digits and the signs that a header name may have. -/
def isTokenChar (c : Char) : Bool :=
  c.isAlphanum || c ∈ "!#$%&'*+-.^_\x60|~".toList

/-- A name of at least one character, in lower case. -/
def headerName? (name : String) : Option String :=
  let s := name.toList
  if s ≠ [] ∧ s.length < 0x10000 ∧ s.all isTokenChar then some (String.ofList (s.map Char.toLower))
  else none

/-- Of the control characters a value may hold the tabulator alone. -/
def isHeaderValue (value : String) : Bool :=
  value.toList.all fun c => c = '\t' || (32 ≤ c.toNat && c.toNat ≠ 127)

/-- What a caller may say of one request. -/
structure Options where
  headers : Headers
  /-- Milliseconds. -/
  timeout : Option Nat
  deriving DecidableEq

namespace Options

def empty : Options :=
  ⟨[], none⟩

def addHeader (o : Options) (name value : String) : Except HeaderFault Options :=
  match headerName? name with
  | none => .error .name
  | some name =>
    if isHeaderValue value then .ok { o with headers := o.headers.insert name value }
    else .error .value

/-- The last of several values of a name counts. -/
def addHeaders (o : Options) : List (String × String) → Except HeaderFault Options
  | [] => .ok o
  | (name, value) :: rest => do (← o.addHeader name value).addHeaders rest

def limitTo (o : Options) (milliseconds : Nat) : Options :=
  { o with timeout := some milliseconds }

end Options
end Solr.Http
