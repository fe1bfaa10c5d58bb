import Solr.Json.Printer

/-! Why a JSON text or value is refused. A fault stops the reading of the text; a
mismatch is a well-formed value of another shape than the one asked for. -/
namespace Solr.Json

inductive Fault where
  | endInValue
  | endInList
  | endInObject
  | endInString
  | expectedColon
  | expectedListCommaOrEnd
  | expectedObjectCommaOrEnd
  | expectedIdent
  | expectedValue
  | invalidEscape
  | invalidNumber
  | numberOutOfRange
  | controlCharacter
  | keyMustBeString
  | loneSurrogate
  | unfinishedSurrogate
  | trailingComma
  | trailingCharacters
  | tooDeep
  deriving DecidableEq

/-- Whether the text was cut short, malformed, or of another shape. -/
inductive Category where
  | truncated
  | malformed
  | shape
  deriving DecidableEq

namespace Fault

def category : Fault → Category
  | .endInValue | .endInList | .endInObject | .endInString => .truncated
  | _ => .malformed

def message : Fault → String
  | .endInValue => "EOF while parsing a value"
  | .endInList => "EOF while parsing a list"
  | .endInObject => "EOF while parsing an object"
  | .endInString => "EOF while parsing a string"
  | .expectedColon => "expected `:`"
  | .expectedListCommaOrEnd => "expected `,` or `]`"
  | .expectedObjectCommaOrEnd => "expected `,` or `\x7d`"
  | .expectedIdent => "expected ident"
  | .expectedValue => "expected value"
  | .invalidEscape => "invalid escape"
  | .invalidNumber => "invalid number"
  | .numberOutOfRange => "number out of range"
  | .controlCharacter => "control character (\\u0000-\\u001F) found while parsing a string"
  | .keyMustBeString => "key must be a string"
  | .loneSurrogate => "lone leading surrogate in hex escape"
  | .unfinishedSurrogate => "unexpected end of hex escape"
  | .trailingComma => "trailing comma"
  | .trailingCharacters => "trailing characters"
  | .tooDeep => "recursion limit exceeded"

end Fault

/-- What stood where something else was expected. -/
inductive Found where
  | null
  | boolean (value : Bool)
  | integer (value : Int)
  | double (value : Double)
  | string (value : String)
  | sequence
  | map
  deriving DecidableEq

inductive Mismatch where
  | missingField (name : String)
  | duplicateField (name : String)
  | unknownVariant (name : String) (expected : List String)
  | invalidLength (length : Nat) (expected : String)
  | invalidType (found : Found) (expected : String)
  | invalidValue (found : Found) (expected : String)
  deriving DecidableEq

/-- `surplus` tells of a list with more elements than the record read from it has
fields: a malformed text, or, in a value already read, a list of the wrong length. -/
inductive ReadError where
  | fault (fault : Fault)
  | mismatch (mismatch : Mismatch)
  | surplus (fault : Fault) (length expected : Nat)
  deriving DecidableEq

end Solr.Json
