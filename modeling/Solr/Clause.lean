import Solr.Field
import Solr.Scalar

/-! Filter clauses: a field, a colon, and a value, a list of values or a range. The
field is written as it is; texts are quoted, and numerals are not. -/
namespace Solr

/-- A value, or the mark that stands for any value. -/
inductive Term where
  | any
  | value (scalar : Scalar)
  deriving DecidableEq

/-- A value in a range of dates, which may be the present moment. -/
inductive DateTerm where
  | now
  | any
  | value (scalar : Scalar)
  deriving DecidableEq

/-- The ends of a range, and whether they belong to it. An absent end is unbounded. -/
structure Range (τ : Type) where
  fromIncluded : Bool
  lower : Option τ
  toIncluded : Bool
  upper : Option τ
  deriving DecidableEq

namespace Range

variable {τ : Type}

def between (fromIncluded toIncluded : Bool) : Range τ :=
  ⟨fromIncluded, none, toIncluded, none⟩

def inclusive : Range τ :=
  between true true

def exclusive : Range τ :=
  between false false

def startingAt (r : Range τ) (a : τ) : Range τ :=
  { r with lower := some a }

def endingAt (r : Range τ) (a : τ) : Range τ :=
  { r with upper := some a }

end Range

namespace Clause

def wildcard : List Char := ['*']

def now : List Char := ['N', 'O', 'W']

/-- A backslash before each quote. -/
def protect (s : List Char) : List Char :=
  s.flatMap fun c => if c = '\"' then ['\\', '\"'] else [c]

/-- Backslashes are dropped before the text is quoted. -/
def quote (s : List Char) : List Char :=
  '\"' :: protect (s.filter (· ≠ '\\')) ++ ['\"']

def literalText : Literal → List Char
  | .text s => quote s
  | .number numeral => numeral

/-- The text of a value that is never a mark. -/
def valueText (v : Scalar) : List Char :=
  literalText v.literal

/-- The text of a value; a text that spells one of the marks is that mark. -/
def markedText (marks : List (List Char)) (v : Scalar) : List Char :=
  match v.literal with
  | .text s => if s ∈ marks then s else quote s
  | .number numeral => numeral

end Clause

namespace Term

/-- A bare star is the mark. -/
def ofString (s : String) : Term :=
  if s = "*" then .any else .value (.text s)

def text : Term → List Char
  | .any => Clause.wildcard
  | .value v => Clause.markedText [Clause.wildcard] v

end Term

namespace DateTerm

def ofString (s : String) : DateTerm :=
  if s = "NOW" then .now else if s = "*" then .any else .value (.text s)

def text : DateTerm → List Char
  | .any => Clause.wildcard
  | .now => Clause.now
  | .value v => Clause.markedText [Clause.now, Clause.wildcard] v

end DateTerm

namespace Range

variable {τ : Type}

def endText (term : τ → List Char) : Option τ → List Char
  | none => Clause.wildcard
  | some a => term a

/-- A square bracket includes the end, a brace excludes it. -/
def text (term : τ → List Char) (r : Range τ) : List Char :=
  (if r.fromIncluded then '[' else '{') :: endText term r.lower ++ [' ', 'T', 'O', ' '] ++
    endText term r.upper ++ [if r.toIncluded then ']' else '}']

end Range

namespace Clause

def about (f : Field) (value : List Char) : List Char :=
  f.name.toList ++ ':' :: value

def equals (f : Field) (t : Term) : String :=
  String.ofList (about f t.text)

def differs (f : Field) (t : Term) : String :=
  String.ofList ('-' :: about f t.text)

/-- Any of the values; no value here is a mark. -/
def anyOf (f : Field) (values : List Scalar) : String :=
  String.ofList (about f ('(' :: List.intercalate [' '] (values.map valueText) ++ [')']))

def within (f : Field) (r : Range Term) : String :=
  String.ofList (about f (r.text Term.text))

def withinDates (f : Field) (r : Range DateTerm) : String :=
  String.ofList (about f (r.text DateTerm.text))

end Clause
end Solr
