import Solr.Json.Basic

/-! The text of a JSON value: the compact form, and an indented form with one item
per line. Only quotes, backslashes and control characters are escaped. -/
namespace Solr.Json

def hexDigit (n : Nat) : Char :=
  if n < 10 then Char.ofNat (48 + n) else Char.ofNat (87 + n)

def escape (c : Char) : List Char :=
  if c = '\"' then ['\\', '\"']
  else if c = '\\' then ['\\', '\\']
  else if c = '\x08' then ['\\', 'b']
  else if c = '\x0c' then ['\\', 'f']
  else if c = '\n' then ['\\', 'n']
  else if c = '\r' then ['\\', 'r']
  else if c = '\t' then ['\\', 't']
  else if c.toNat < 32 then
    ['\\', 'u', '0', '0', hexDigit (c.toNat / 16), hexDigit (c.toNat % 16)]
  else [c]

def quoted (s : String) : List Char :=
  '\"' :: s.toList.flatMap escape ++ ['\"']

/-- The least and the greatest exponent of the first digit of a number that is written
without an exponent. -/
structure PositionalRange where
  least : Int
  greatest : Int
  deriving DecidableEq

namespace PositionalRange

def double : PositionalRange := ⟨-5, 15⟩

def single : PositionalRange := ⟨-6, 12⟩

end PositionalRange

/-- Positional within the range, with at least one digit after the point; otherwise
one digit, the others, and a signed exponent. -/
def decimalText (range : PositionalRange) (d : Decimal) : List Char :=
  let lead := d.leadingExponent
  if d.coefficient = 0 then ['0', '.', '0']
  else if range.least ≤ lead ∧ lead ≤ range.greatest then
    let (whole, fraction) := d.positional
    whole ++ '.' :: (if fraction = [] then ['0'] else fraction)
  else
    let exponent := 'e' :: (if lead < 0 then '-' else '+') :: Text.digits lead.natAbs
    match Text.digits d.coefficient with
    | [] => exponent
    | [first] => first :: exponent
    | first :: others => first :: '.' :: others ++ exponent

def binaryText {f : Format} (range : PositionalRange) (x : Binary f) : List Char :=
  if x.isFinite then
    let unsigned := decimalText range (x.shortestDecimal .even)
    if x.isNegative then '-' :: unsigned else unsigned
  else ['n', 'u', 'l', 'l']

def doubleText (x : Double) : List Char :=
  binaryText .double x

def singleText (x : Single) : List Char :=
  binaryText .single x

def numberText : Number → List Char
  | .integer i => Text.integer i
  | .double x => doubleText x
  | .single x => singleText x

mutual

def compactChars : Json → List Char
  | .null => ['n', 'u', 'l', 'l']
  | .boolean true => ['t', 'r', 'u', 'e']
  | .boolean false => ['f', 'a', 'l', 's', 'e']
  | .number n => numberText n
  | .string s => quoted s
  | .array items => '[' :: compactItems items ++ [']']
  | .object members => '{' :: compactMembers members ++ ['}']

def compactItems : List Json → List Char
  | [] => []
  | [j] => j.compactChars
  | j :: rest => j.compactChars ++ ',' :: compactItems rest

def compactMembers : List (String × Json) → List Char
  | [] => []
  | [(key, j)] => quoted key ++ ':' :: j.compactChars
  | (key, j) :: rest => quoted key ++ ':' :: j.compactChars ++ ',' :: compactMembers rest

end

def compact (j : Json) : String :=
  String.ofList j.compactChars

def newline (depth : Nat) : List Char :=
  '\n' :: List.replicate (2 * depth) ' '

mutual

/-- Two blanks for each depth; empty arrays and objects stay on one line. -/
def indentedChars (depth : Nat) : Json → List Char
  | .array [] => ['[', ']']
  | .array items => '[' :: indentedItems (depth + 1) items ++ newline depth ++ [']']
  | .object [] => ['{', '}']
  | .object members => '{' :: indentedMembers (depth + 1) members ++ newline depth ++ ['}']
  | .null => compactChars .null
  | .boolean b => compactChars (.boolean b)
  | .number n => numberText n
  | .string s => quoted s

def indentedItems (depth : Nat) : List Json → List Char
  | [] => []
  | [j] => newline depth ++ j.indentedChars depth
  | j :: rest => newline depth ++ j.indentedChars depth ++ ',' :: indentedItems depth rest

def indentedMembers (depth : Nat) : List (String × Json) → List Char
  | [] => []
  | [(key, j)] => newline depth ++ quoted key ++ ':' :: ' ' :: j.indentedChars depth
  | (key, j) :: rest =>
    newline depth ++ quoted key ++ ':' :: ' ' :: j.indentedChars depth ++
      ',' :: indentedMembers depth rest

end

def indented (j : Json) : String :=
  String.ofList (j.indentedChars 0)

/-- The compact text of the canonical form. -/
def sortedText (j : Json) : String :=
  j.canonical.compact

end Solr.Json
