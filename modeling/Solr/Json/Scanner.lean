import Solr.Json.Numeral

/-! The outline of a JSON text: its values as far as the text can be read, each with
the fault that stops a reader there. What is read of the outline, and what is skipped,
is left to the decoders, so that the first fault that they meet is the one reported. -/
namespace Solr.Json

/-- How an array or object ends. -/
inductive Ending where
  | closed
  | stopped (stop : Stop)
  deriving DecidableEq

/-- The outline of a value. `unreadable` has the fault met in reading it and, unless
it can be skipped, the one met in skipping it. A key may be unreadable alone. -/
inductive Node where
  | null
  | boolean (value : Bool)
  | number (value : Number)
  | string (value : String)
  | array (items : List Node) (ending : Ending)
  | object (members : List (Except Fault String × Node)) (ending : Ending)
  | unreadable (reading : Fault) (skipping : Option Fault)

/-- What a reader admits: arrays and objects within one another, and numbers. -/
structure Dialect where
  nesting : Option Nat
  number : Numeral → Option Number

namespace Dialect

/-- The dialect in which server answers and document files are read. -/
def service : Dialect :=
  ⟨some 127, Numeral.quick⟩

/-- Any nesting, and numbers rounded once. -/
def exact : Dialect :=
  ⟨none, Numeral.nearest⟩

end Dialect

def isBlank (c : Char) : Bool :=
  c = ' ' || c = '\n' || c = '\t' || c = '\r'

def skipBlank (s : List Char) : List Char :=
  s.dropWhile isBlank

def unescape? (c : Char) : Option Char :=
  if c = '\"' ∨ c = '\\' ∨ c = '/' then some c
  else if c = 'b' then some '\x08'
  else if c = 'f' then some '\x0c'
  else if c = 'n' then some '\n'
  else if c = 'r' then some '\r'
  else if c = 't' then some '\t'
  else none

def utf8Length (s : List Char) : Nat :=
  s.foldl (fun n c => n + c.utf8Size) 0

/-- Where in an escape sequence the reading of a string stands. `pair` and what
follows it wait for the second half of a surrogate pair. -/
inductive Escape where
  | none
  | start
  | unit (count value : Nat)
  | pair (lead : Nat)
  | pairStart (lead : Nat)
  | pairUnit (lead count value : Nat)

def push (c : Char) (rest : Except Fault (List Char × List Char)) :
    Except Fault (List Char × List Char) :=
  rest.map fun p => (c :: p.1, p.2)

/-- Four hexadecimal digits are due, of which `count` are read; a text with fewer
than four bytes left is truncated whatever the bytes are. -/
def badHex (count : Nat) (s : List Char) : Fault :=
  if count + utf8Length (s.take 4) < 4 then .endInString else .invalidEscape

/-- The text up to the closing quote, and what follows it. Escaped surrogates must
pair, unless the string is only skipped. -/
def scanString (paired : Bool) : Escape → List Char → Except Fault (List Char × List Char)
  | _, [] => .error .endInString
  | .none, c :: s =>
    if c = '\"' then .ok ([], s)
    else if c = '\\' then scanString paired .start s
    else if c.toNat < 32 then .error .controlCharacter
    else push c (scanString paired .none s)
  | .start, c :: s =>
    if c = 'u' then scanString paired (.unit 0 0) s
    else match unescape? c with
      | some d => push d (scanString paired .none s)
      | none => .error .invalidEscape
  | .unit count value, c :: s =>
    match Text.hexValue? c with
    | none => .error (badHex count (c :: s))
    | some h =>
      let value := 16 * value + h
      if count < 3 then scanString paired (.unit (count + 1) value) s
      else if !paired then push (Char.ofNat value) (scanString paired .none s)
      else if 0xDC00 ≤ value ∧ value ≤ 0xDFFF then .error .loneSurrogate
      else if 0xD800 ≤ value ∧ value ≤ 0xDBFF then scanString paired (.pair value) s
      else push (Char.ofNat value) (scanString paired .none s)
  | .pair lead, c :: s =>
    if c = '\\' then scanString paired (.pairStart lead) s else .error .unfinishedSurrogate
  | .pairStart lead, c :: s =>
    if c = 'u' then scanString paired (.pairUnit lead 0 0) s else .error .unfinishedSurrogate
  | .pairUnit lead count value, c :: s =>
    match Text.hexValue? c with
    | none => .error (badHex count (c :: s))
    | some h =>
      let value := 16 * value + h
      if count < 3 then scanString paired (.pairUnit lead (count + 1) value) s
      else if 0xDC00 ≤ value ∧ value ≤ 0xDFFF then
        push (Char.ofNat (0x10000 + (lead - 0xD800) * 0x400 + (value - 0xDC00)))
          (scanString paired .none s)
      else .error .loneSurrogate

/-- A string after its opening quote: its text, if that is readable, and the rest. -/
def scanText (s : List Char) : Except Stop (Except Fault String × List Char) :=
  let read := (scanString true .none s).map fun p => String.ofList p.1
  match scanString false .none s with
  | .ok (_, rest) => .ok (read, rest)
  | .error skipping =>
    match read with
    | .ok _ => .error (.both skipping)
    | .error reading => .error ⟨reading, skipping⟩

def scanWord : List Char → List Char → Except Fault (List Char)
  | [], s => .ok s
  | _ :: _, [] => .error .endInValue
  | w :: word, c :: s => if w = c then scanWord word s else .error .expectedIdent

namespace Node

def ofStop (stop : Stop) : Node :=
  .unreadable stop.reading (some stop.skipping)

end Node

mutual

/-- The fault met in skipping a value; keys and texts are not looked into. -/
def Node.skip : Node → Option Fault
  | .array items ending => skipItems ending items
  | .object members ending => skipMembers ending members
  | .unreadable _ skipping => skipping
  | _ => none

def skipItems (ending : Ending) : List Node → Option Fault
  | [] => match ending with
    | .closed => none
    | .stopped stop => some stop.skipping
  | n :: rest => n.skip <|> skipItems ending rest

def skipMembers (ending : Ending) : List (Except Fault String × Node) → Option Fault
  | [] => match ending with
    | .closed => none
    | .stopped stop => some stop.skipping
  | (_, n) :: rest => n.skip <|> skipMembers ending rest

end

/-- What may stand before the next item or member, or the end. -/
inductive Place where
  | first
  | next
  deriving DecidableEq

/-- Finds the next item of an array: none and the rest when the array is closed. -/
def nextItem (place : Place) (s : List Char) : Except Stop (Option (List Char) × List Char) :=
  match skipBlank s with
  | [] => .error (.both .endInList)
  | c :: r =>
    if c = ']' then .ok (none, r)
    else match place with
      | .first => .ok (some (c :: r), [])
      | .next =>
        if c = ',' then match skipBlank r with
          | [] => .error (.both .endInValue)
          | d :: r => if d = ']' then .error (.both .trailingComma) else .ok (some (d :: r), [])
        else .error (.both .expectedListCommaOrEnd)

/-- Finds the next key of an object, after its opening quote. -/
def nextKey (place : Place) (s : List Char) : Except Stop (Option (List Char) × List Char) :=
  let key (c : Char) (r : List Char) : Except Stop (Option (List Char) × List Char) :=
    if c = '\"' then .ok (some r, []) else .error (.both .keyMustBeString)
  match skipBlank s with
  | [] => .error (.both .endInObject)
  | c :: r =>
    if c = '}' then .ok (none, r)
    else match place with
      | .first => key c r
      | .next =>
        if c = ',' then match skipBlank r with
          | [] => .error (.both .endInValue)
          | d :: r => if d = '}' then .error (.both .trailingComma) else key d r
        else .error (.both .expectedObjectCommaOrEnd)

/-- The value after a key, which a colon precedes. -/
def afterColon (s : List Char) : Except Stop (List Char) :=
  match skipBlank s with
  | [] => .error (.both .endInObject)
  | c :: r => if c = ':' then .ok r else .error (.both .expectedColon)

/-- Beyond the admitted depth a value can be skipped but not read. -/
def limited (depth : Option Nat) (n : Node) : Node :=
  if depth = some 0 then .unreadable .tooDeep n.skip else n

mutual

/-- The value at the front of the text and what follows it, unless the value cannot
be skipped. The fuel bounds the steps and is never spent before the text is. -/
def scanValue (d : Dialect) : Nat → Option Nat → List Char → Node × Option (List Char)
  | 0, _, _ => (.ofStop (.both .endInValue), none)
  | fuel + 1, depth, s =>
    let word (w : List Char) (n : Node) (r : List Char) : Node × Option (List Char) :=
      match scanWord w r with
      | .ok rest => (n, some rest)
      | .error f => (.ofStop (.both f), none)
    match skipBlank s with
    | [] => (.ofStop (.both .endInValue), none)
    | c :: r =>
      if c = 'n' then word ['u', 'l', 'l'] .null r
      else if c = 't' then word ['r', 'u', 'e'] (.boolean true) r
      else if c = 'f' then word ['a', 'l', 's', 'e'] (.boolean false) r
      else if c = '\"' then match scanText r with
        | .ok (.ok text, rest) => (.string text, some rest)
        | .ok (.error f, rest) => (.unreadable f none, some rest)
        | .error stop => (.ofStop stop, none)
      else if c = '-' ∨ c.isDigit then match Numeral.scan (c :: r) with
        | .ok (numeral, rest) => match d.number numeral with
          | some n => (.number n, some rest)
          | none => (.unreadable .numberOutOfRange none, some rest)
        | .error stop => (.ofStop stop, none)
      else if c = '[' then
        let (items, ending, rest) := scanItems d fuel (depth.map (· - 1)) .first r
        (limited depth (.array items ending), rest)
      else if c = '{' then
        let (members, ending, rest) := scanMembers d fuel (depth.map (· - 1)) .first r
        (limited depth (.object members ending), rest)
      else (.ofStop (.both .expectedValue), none)

def scanItems (d : Dialect) : Nat → Option Nat → Place → List Char →
    List Node × Ending × Option (List Char)
  | 0, _, _, _ => ([], .stopped (.both .endInList), none)
  | fuel + 1, depth, place, s =>
    match nextItem place s with
    | .error stop => ([], .stopped stop, none)
    | .ok (none, rest) => ([], .closed, some rest)
    | .ok (some s, _) =>
      match scanValue d fuel depth s with
      | (n, none) => ([n], .stopped (.both .endInList), none)
      | (n, some s) =>
        let (items, ending, rest) := scanItems d fuel depth .next s
        (n :: items, ending, rest)

def scanMembers (d : Dialect) : Nat → Option Nat → Place → List Char →
    List (Except Fault String × Node) × Ending × Option (List Char)
  | 0, _, _, _ => ([], .stopped (.both .endInObject), none)
  | fuel + 1, depth, place, s =>
    match nextKey place s with
    | .error stop => ([], .stopped stop, none)
    | .ok (none, rest) => ([], .closed, some rest)
    | .ok (some s, _) =>
      match scanText s with
      | .error stop => ([], .stopped stop, none)
      | .ok (key, s) =>
        match afterColon s with
        | .error stop => ([(key, .ofStop stop)], .stopped stop, none)
        | .ok s =>
          match scanValue d fuel depth s with
          | (n, none) => ([(key, n)], .stopped (.both .endInObject), none)
          | (n, some s) =>
            let (members, ending, rest) := scanMembers d fuel depth .next s
            ((key, n) :: members, ending, rest)

end

/-- A whole text: one value, and the fault of what may follow it. -/
structure Outline where
  root : Node
  trailing : Option Fault

/-- Two steps are enough for each character. -/
def outline (d : Dialect) (text : String) : Outline :=
  let s := text.toList
  match scanValue d (2 * s.length + 2) d.nesting s with
  | (root, none) => ⟨root, none⟩
  | (root, some rest) =>
    ⟨root, if skipBlank rest = [] then none else some .trailingCharacters⟩

end Solr.Json
