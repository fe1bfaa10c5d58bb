import Solr.Proofs.Json.Doubles
import Solr.Proofs.Json.Reading

/-! Whole texts read as values: any nesting, whole numbers of any size, other numbers
rounded once, members in the order of the text. Integers and finite doubles are read
back from what is written for them. -/
namespace Solr.Json

namespace Numeral

/-- The whole number that a numeral without point and exponent stands for; zero with a
sign is none. -/
def whole? (n : Numeral) : Option Int :=
  let v := Text.digitsValue n.whole
  if !n.isInteger then none
  else if n.negative then if 0 < v then some (-v) else none
  else some v

/-- The reading of numerals that puts no bound on whole numbers. -/
def unbounded (n : Numeral) : Option Number :=
  match n.whole? with
  | some i => some (.integer i)
  | none => n.nearest

theorem whole?_ofInt (i : Int) : (ofInt i).whole? = some i := by
  by_cases negative : i < 0
  · have positive : 0 < i.natAbs := by omega
    have value : -(i.natAbs : Int) = i := by omega
    simp only [whole?, isInteger, ofInt, Text.digitsValue_digits, negative, positive, value,
      decide_true, Bool.and_true, Bool.not_true, if_true, Bool.false_eq_true, if_false]
  · have value : (i.natAbs : Int) = i := by omega
    simp only [whole?, isInteger, ofInt, Text.digitsValue_digits, negative, value,
      decide_true, decide_false, Bool.and_true, Bool.not_true, Bool.false_eq_true, if_false]

theorem unbounded_ofInt (i : Int) : (ofInt i).unbounded = some (.integer i) := by
  simp [unbounded, whole?_ofInt]

end Numeral

def Dialect.unbounded : Dialect :=
  ⟨none, Numeral.unbounded⟩

theorem legible_ofInt (depth : Option Nat) (i : Int) : Legible .unbounded depth (ofInt i) :=
  ⟨.ofInt i, Numeral.wellFormed_ofInt i, Numeral.text_ofInt i, Numeral.unbounded_ofInt i⟩

theorem legible_ofNat (depth : Option Nat) (n : Nat) : Legible .unbounded depth (ofNat n) :=
  legible_ofInt depth n

theorem legible_ofDouble (depth : Option Nat) (x : Double) :
    Legible .unbounded depth (ofDouble x) := by
  unfold ofDouble
  split
  · rename_i finite
    obtain ⟨n, wellFormed, text, notInteger, nearest⟩ := doubleText_numeral finite
    refine ⟨n, wellFormed, text, ?_⟩
    have notWhole : n.whole? = none := by simp [Numeral.whole?, notInteger]
    simp [Dialect.unbounded, Numeral.unbounded, notWhole, nearest]
  · trivial

theorem legibleMembers_append {d : Dialect} {depth : Option Nat} {a b : List (String × Json)} :
    LegibleMembers d depth (a ++ b) ↔ LegibleMembers d depth a ∧ LegibleMembers d depth b := by
  induction a with
  | nil => simp [LegibleMembers]
  | cons p a ih => simp [LegibleMembers, ih, and_assoc]

theorem legible_object {members : List (String × Json)}
    (legible : LegibleMembers .unbounded none members) :
    Legible .unbounded none (.object members) :=
  ⟨by simp, legible⟩

mutual

/-- The value that an outline shows, if all of it can be read. -/
def Node.json? : Node → Option Json
  | .null => some .null
  | .boolean b => some (.boolean b)
  | .number n => some (.number n)
  | .string s => some (.string s)
  | .array items .closed => (items? items).map .array
  | .object members .closed => (members? members).map .object
  | .array _ (.stopped _) | .object _ (.stopped _) | .unreadable .. => none

def items? : List Node → Option (List Json)
  | [] => some []
  | n :: rest => do
    let j ← n.json?
    return j :: (← items? rest)

def members? : List (Except Fault String × Node) → Option (List (String × Json))
  | [] => some []
  | (.ok key, n) :: rest => do
    let j ← n.json?
    return (key, j) :: (← members? rest)
  | (.error _, _) :: _ => none

end

mutual

theorem json?_ofJson : ∀ j : Json, (Node.ofJson j).json? = some j
  | .null | .boolean _ | .number _ | .string _ => rfl
  | .array items => by simp [Node.ofJson, Node.json?, items?_ofItems items]
  | .object members => by simp [Node.ofJson, Node.json?, members?_ofMembers members]

theorem items?_ofItems : ∀ items : List Json, items? (ofItems items) = some items
  | [] => rfl
  | j :: rest => by simp [ofItems, items?, json?_ofJson j, items?_ofItems rest]

theorem members?_ofMembers : ∀ members : List (String × Json),
    members? (ofMembers members) = some members
  | [] => rfl
  | (key, j) :: rest => by simp [ofMembers, members?, json?_ofJson j, members?_ofMembers rest]

end

/-- The value that a whole text stands for, if it is the text of one. -/
def read? (text : String) : Option Json :=
  match outline .unbounded text with
  | ⟨root, none⟩ => root.json?
  | ⟨_, some _⟩ => none

/-- What is written for a value is read as that value. -/
theorem read?_compact {j : Json} (legible : Legible .unbounded none j) :
    read? j.compact = some j := by
  have outlined : outline .unbounded j.compact = ⟨Node.ofJson j, none⟩ := outline_compact legible
  simp [read?, outlined, json?_ofJson]

end Solr.Json
