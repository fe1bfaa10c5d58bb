import Solr.Entries
import Solr.Binary.Shortest

/-! JSON values. An object is a list of members in the order in which they are
written; its canonical form has the keys in increasing order, each once. -/
namespace Solr

/-- A `single` is written with the fewest digits of its own format. -/
inductive Number where
  | integer (value : Int)
  | double (value : Double)
  | single (value : Single)
  deriving DecidableEq

inductive Json where
  | null
  | boolean (value : Bool)
  | number (value : Number)
  | string (value : String)
  | array (items : List Json)
  | object (members : List (String × Json))

namespace Json

def ofInt (i : Int) : Json :=
  .number (.integer i)

def ofNat (n : Nat) : Json :=
  .number (.integer n)

/-- JSON has no infinities and no NaN; they are written as null. -/
def ofDouble (x : Double) : Json :=
  if x.isFinite then .number (.double x) else .null

def ofSingle (x : Single) : Json :=
  if x.isFinite then .number (.single x) else .null

def ofStrings (texts : List String) : Json :=
  .array (texts.map .string)

/-- An absent value is null. -/
def ofOption {α : Type _} (encode : α → Json) : Option α → Json
  | none => .null
  | some a => encode a

/-- A member that is written only when it has a value. -/
def optional {α : Type _} (key : String) (encode : α → Json) : Option α → List (String × Json)
  | none => []
  | some a => [(key, encode a)]

def isNull : Json → Bool
  | .null => true
  | _ => false

def isObject : Json → Bool
  | .object _ => true
  | _ => false

def members : Json → List (String × Json)
  | .object ms => ms
  | _ => []

def member? (j : Json) (key : String) : Option Json :=
  (j.members.find? (fun p => p.1 = key)).map (·.2)

mutual

/-- Keys in order at every depth, the last of equal keys, numbers in double format. -/
def canonical : Json → Json
  | .null => .null
  | .boolean b => .boolean b
  | .number (.single x) => .number (.double x.convert)
  | .number n => .number n
  | .string s => .string s
  | .array items => .array (canonicalItems items)
  | .object members => .object (Entries.ofList (canonicalMembers members))

def canonicalItems : List Json → List Json
  | [] => []
  | j :: rest => j.canonical :: canonicalItems rest

def canonicalMembers : List (String × Json) → List (String × Json)
  | [] => []
  | (key, j) :: rest => (key, j.canonical) :: canonicalMembers rest

end

mutual

def decEq : (a b : Json) → Decidable (a = b)
  | .null, .null => isTrue rfl
  | .boolean a, .boolean b =>
    if h : a = b then isTrue (h ▸ rfl) else isFalse fun e => h (Json.boolean.inj e)
  | .number a, .number b =>
    if h : a = b then isTrue (h ▸ rfl) else isFalse fun e => h (Json.number.inj e)
  | .string a, .string b =>
    if h : a = b then isTrue (h ▸ rfl) else isFalse fun e => h (Json.string.inj e)
  | .array a, .array b =>
    match decEqItems a b with
    | isTrue h => isTrue (h ▸ rfl)
    | isFalse h => isFalse fun e => h (Json.array.inj e)
  | .object a, .object b =>
    match decEqMembers a b with
    | isTrue h => isTrue (h ▸ rfl)
    | isFalse h => isFalse fun e => h (Json.object.inj e)
  | .null, .boolean _ | .null, .number _ | .null, .string _ | .null, .array _
  | .null, .object _ | .boolean _, .null | .boolean _, .number _ | .boolean _, .string _
  | .boolean _, .array _ | .boolean _, .object _ | .number _, .null
  | .number _, .boolean _ | .number _, .string _ | .number _, .array _
  | .number _, .object _ | .string _, .null | .string _, .boolean _ | .string _, .number _
  | .string _, .array _ | .string _, .object _ | .array _, .null | .array _, .boolean _
  | .array _, .number _ | .array _, .string _ | .array _, .object _ | .object _, .null
  | .object _, .boolean _ | .object _, .number _ | .object _, .string _
  | .object _, .array _ => isFalse (by simp)

def decEqItems : (a b : List Json) → Decidable (a = b)
  | [], [] => isTrue rfl
  | [], _ :: _ => isFalse (by simp)
  | _ :: _, [] => isFalse (by simp)
  | x :: xs, y :: ys =>
    match decEq x y, decEqItems xs ys with
    | isTrue h, isTrue t => isTrue (h ▸ t ▸ rfl)
    | isFalse h, _ => isFalse fun e => h (List.cons.inj e).1
    | _, isFalse t => isFalse fun e => t (List.cons.inj e).2

def decEqMembers : (a b : List (String × Json)) → Decidable (a = b)
  | [], [] => isTrue rfl
  | [], _ :: _ => isFalse (by simp)
  | _ :: _, [] => isFalse (by simp)
  | (k, x) :: xs, (l, y) :: ys =>
    if key : k = l then
      match decEq x y, decEqMembers xs ys with
      | isTrue h, isTrue t => isTrue (key ▸ h ▸ t ▸ rfl)
      | isFalse h, _ => isFalse fun e => h (Prod.mk.inj (List.cons.inj e).1).2
      | _, isFalse t => isFalse fun e => t (List.cons.inj e).2
    else isFalse fun e => key (Prod.mk.inj (List.cons.inj e).1).1

end

instance : DecidableEq Json :=
  decEq

end Json
end Solr
