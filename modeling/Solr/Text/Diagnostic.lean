import Solr.Text.Printable

/-! The quoted form of a text in diagnostics: a backslash protects quotes and
backslashes, and characters without a glyph of their own are named. -/
namespace Solr.Text

def hexDigits (n : Nat) : List Char :=
  Nat.toDigits 16 n

def diagnosticChar (c : Char) : List Char :=
  if c = '\x00' then ['\\', '0']
  else if c = '\t' then ['\\', 't']
  else if c = '\r' then ['\\', 'r']
  else if c = '\n' then ['\\', 'n']
  else if c = '\"' then ['\\', '\"']
  else if c = '\\' then ['\\', '\\']
  else if hasGlyph c then [c]
  else '\\' :: 'u' :: '{' :: hexDigits c.toNat ++ ['}']

def diagnostic (s : String) : String :=
  String.ofList ('\"' :: s.toList.flatMap diagnosticChar ++ ['\"'])

end Solr.Text
