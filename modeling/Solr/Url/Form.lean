import Solr.Text.Split
import Solr.Url.Percent

/-! The form encoding of pairs of texts, as they are sent after the path of a URL. -/
namespace Solr.Url.Form

/-- Letters, digits and four signs stand for themselves. -/
def plain (b : UInt8) : Bool :=
  (0x61 ≤ b && b ≤ 0x7a) || (0x41 ≤ b && b ≤ 0x5a) || (0x30 ≤ b && b ≤ 0x39) ||
    b = 0x2a || b = 0x2d || b = 0x2e || b = 0x5f

def encodeByte (b : UInt8) : List Char :=
  if plain b then [Char.ofNat b.toNat]
  else if b = 0x20 then ['+']
  else escapeByte b

def encodeText (s : List Char) : List Char :=
  (Text.utf8 s).flatMap encodeByte

def encodePair (p : String × String) : List Char :=
  encodeText p.1.toList ++ '=' :: encodeText p.2.toList

def encode (pairs : List (String × String)) : List Char :=
  List.intercalate ['&'] (pairs.map encodePair)

def decodeText (s : List Char) : String :=
  String.ofList (Text.readUtf8 (unescape (s.map fun c => if c = '+' then ' ' else c)))

/-- A piece without an equals sign is a key with an empty value. -/
def decodePair (s : List Char) : String × String :=
  match Text.splitOnce? '=' s with
  | some (key, value) => (decodeText key, decodeText value)
  | none => (decodeText s, "")

/-- Empty pieces are no pairs. -/
def decode (s : List Char) : List (String × String) :=
  ((Text.splitAt '&' s).filter (· ≠ [])).map decodePair

end Solr.Url.Form
