import Solr.Text.Digits
import Solr.Text.Utf8

/-! Percent escapes for bytes, and the escaping of the parts of a URL. -/
namespace Solr.Url

def upperHexDigit (n : Nat) : Char :=
  if n < 10 then Char.ofNat (48 + n) else Char.ofNat (55 + n)

def escapeByte (b : UInt8) : List Char :=
  ['%', upperHexDigit (b.toNat / 16), upperHexDigit (b.toNat % 16)]

/-- The bytes that a text with escapes stands for. What is no escape stands for itself. -/
def unescape : List Char → List UInt8
  | [] => []
  | '%' :: a :: b :: rest =>
    match Text.hexValue? a, Text.hexValue? b with
    | some x, some y => UInt8.ofNat (16 * x + y) :: unescape rest
    | _, _ => 0x25 :: unescape (a :: b :: rest)
  | c :: rest => String.utf8EncodeChar c ++ unescape rest

/-- What is not plain is escaped byte by byte. -/
def escape (plain : Char → Bool) (s : List Char) : List Char :=
  s.flatMap fun c => if plain c then [c] else (String.utf8EncodeChar c).flatMap escapeByte

/-- Printable ASCII that has no other meaning; escapes in the text are left alone. -/
def plainInPath (c : Char) : Bool :=
  '!' ≤ c && c ≤ '~' && c ∉ ['\"', '#', '<', '>', '?', '\x60', '{', '}']

def plainInQuery (c : Char) : Bool :=
  '!' ≤ c && c ≤ '~' && c ∉ ['\"', '#', '\x27', '<', '>']

/-- A path, or a piece of one, as it is sent. -/
def escapePath (s : List Char) : List Char :=
  escape plainInPath s

def escapeQuery (s : List Char) : List Char :=
  escape plainInQuery s

theorem hexValue?_upperHexDigit {n : Nat} (h : n < 16) :
    Text.hexValue? (upperHexDigit n) = some n := by
  revert n
  decide

@[simp] theorem unescape_escapeByte (b : UInt8) (rest : List Char) :
    unescape (escapeByte b ++ rest) = b :: unescape rest := by
  have high := hexValue?_upperHexDigit (n := b.toNat / 16) (by have := b.toNat_lt; omega)
  have low := hexValue?_upperHexDigit (n := b.toNat % 16) (by omega)
  simp [escapeByte, unescape, high, low, Nat.div_add_mod]

end Solr.Url
