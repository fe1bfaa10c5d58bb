import Solr.Json.Decode

/-! Reading one of several named alternatives from a text: its name as a string, or an
object that maps the name to null. -/
namespace Solr.Json

/-- The alternatives by name. -/
abbrev Alternatives (α : Type) := List (String × α)

namespace Alternatives

variable {α : Type}

def find (alternatives : Alternatives α) (name : String) : Except ReadError α :=
  match alternatives.find? (·.1 = name) with
  | some p => .ok p.2
  | none => .error (.mismatch (.unknownVariant name (alternatives.map (·.1))))

/-- A name where a name is due. -/
def named (alternatives : Alternatives α) : Decoder α
  | .string s => alternatives.find s
  | n => n.unexpected "variant identifier"

/-- The value at the front of the text and what follows it; a value that cannot be
skipped cannot be read either. -/
def readFront (dialect : Dialect) (d : Decoder α) (s : List Char) :
    Except ReadError (α × List Char) := do
  match scanValue dialect (2 * s.length + 2) dialect.nesting s with
  | (n, some rest) => return (← d n, rest)
  | (n, none) =>
    let _ ← d n
    throw (.fault .endInValue)

/-- The name that is the key of an object. -/
def readKey (alternatives : Alternatives α) (dialect : Dialect) (s : List Char) :
    Except ReadError (α × List Char) :=
  match skipBlank s with
  | [] => throw (.fault .endInObject)
  | c :: s =>
    if c = '\"' then readFront dialect alternatives.named (c :: s)
    else throw (.fault .keyMustBeString)

/-- After the opening brace: a name, null, and the closing brace. -/
def readMapped (alternatives : Alternatives α) (dialect : Dialect) (s : List Char) :
    Except ReadError (α × List Char) := do
  let (a, s) ← alternatives.readKey dialect s
  let s ← (afterColon s).mapError fun stop => ReadError.fault stop.reading
  let (_, s) ← readFront dialect Decode.unit s
  match skipBlank s with
  | [] => throw (.fault .endInObject)
  | c :: rest => if c = '}' then return (a, rest) else throw (.fault .expectedValue)

def read (alternatives : Alternatives α) (dialect : Dialect) (text : String) :
    Except ReadError α := do
  let (a, rest) ← match skipBlank text.toList with
    | [] => throw (.fault .endInValue)
    | c :: s =>
      if c = '{' then alternatives.readMapped dialect s
      else if c = '\"' then readFront dialect alternatives.named (c :: s)
      else throw (.fault .expectedValue)
  if skipBlank rest = [] then return a else throw (.fault .trailingCharacters)

end Alternatives
end Solr.Json
