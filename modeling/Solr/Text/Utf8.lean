/-! Text as bytes in UTF-8, and the reading of bytes as text. Bytes that are no text are
read as replacement characters, one for each longest beginning of a character. -/
namespace Solr.Text

def utf8 (s : List Char) : List UInt8 :=
  s.flatMap String.utf8EncodeChar

def replacement : Char := '\ufffd'

/-- A character of which `due` bytes are to come; the next lies between the bounds. -/
structure Unfinished where
  value : Nat
  due : Nat
  low : UInt8
  high : UInt8
  deriving DecidableEq

/-- What a byte at the start of a character can be. -/
inductive Lead where
  | character (c : Char)
  | opening (p : Unfinished)
  | stray
  deriving DecidableEq

/-- The bounds leave out overlong forms, surrogates, and what is beyond the last
character. -/
def Lead.of (b : UInt8) : Lead :=
  let n := b.toNat
  if b < 0x80 then .character (Char.ofNat n)
  else if b < 0xc2 then .stray
  else if b < 0xe0 then .opening ⟨n - 0xc0, 1, 0x80, 0xbf⟩
  else if b < 0xf0 then
    .opening ⟨n - 0xe0, 2, if b = 0xe0 then 0xa0 else 0x80, if b = 0xed then 0x9f else 0xbf⟩
  else if b < 0xf5 then
    .opening ⟨n - 0xf0, 3, if b = 0xf0 then 0x90 else 0x80, if b = 0xf4 then 0x8f else 0xbf⟩
  else .stray

def readUtf8From : Option Unfinished → List UInt8 → List Char
  | none, [] => []
  | some _, [] => [replacement]
  | none, b :: rest => begin b rest
  | some p, b :: rest =>
    if p.low ≤ b ∧ b ≤ p.high then
      let value := 64 * p.value + (b.toNat - 0x80)
      if p.due = 1 then Char.ofNat value :: readUtf8From none rest
      else readUtf8From (some ⟨value, p.due - 1, 0x80, 0xbf⟩) rest
    else replacement :: begin b rest
where
  begin (b : UInt8) (rest : List UInt8) : List Char :=
    match Lead.of b with
    | .character c => c :: readUtf8From none rest
    | .opening p => readUtf8From (some p) rest
    | .stray => replacement :: readUtf8From none rest

def readUtf8 (bytes : List UInt8) : List Char :=
  readUtf8From none bytes

end Solr.Text
