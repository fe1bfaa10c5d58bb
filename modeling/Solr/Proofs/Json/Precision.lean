import Solr.Proofs.Json.Values

/-! Values with numbers of both precisions. A text does not tell the precision of its
numbers, so it is read twice, with the numbers of either; who knows the precision of a
number takes it from the one reading or from the other. -/
namespace Solr

/-- Numbers that have a text. -/
def Number.isFinite : Number → Bool
  | .integer _ => true
  | .double x => x.isFinite
  | .single x => x.isFinite

/-- What the text of a number is taken for by a reader of one format. -/
def Number.rounded (f : Format) (number : Binary f → Number) : Number → Number
  | .integer i => .integer i
  | .double x => number (.ofDecimal x.isNegative (x.shortestDecimal .even))
  | .single x => number (.ofDecimal x.isNegative (x.shortestDecimal .even))

theorem Number.rounded_double {x : Double} (finite : x.isFinite) :
    rounded .double .double (.double x) = .double x := by
  cases x with
  | nan => cases finite
  | infinity negative => cases finite
  | finite sign m e canonical =>
    exact congrArg Number.double (Binary.ofDecimal_shortest .even (by decide) canonical)

theorem Number.rounded_single {x : Single} (finite : x.isFinite) :
    rounded .single .single (.single x) = .single x := by
  cases x with
  | nan => cases finite
  | infinity negative => cases finite
  | finite sign m e canonical =>
    exact congrArg Number.single (Binary.ofDecimal_shortest .even (by decide) canonical)

namespace Json

/-- Any nesting, whole numbers of any size, and the nearest numbers of a format. -/
def Dialect.rounding (f : Format) (number : Binary f → Number) : Dialect where
  nesting := none
  number n := some (match n.whole? with
    | some i => .integer i
    | none => number (.ofDecimal n.negative n.decimal))

theorem rounding_binaryText {f g : Format} (number : Binary f → Number)
    (range : PositionalRange) {x : Binary g} (finite : x.isFinite) :
    ∃ n : Numeral, n.WellFormed ∧ n.text = binaryText range x ∧
      (Dialect.rounding f number).number n =
        some (number (.ofDecimal x.isNegative (x.shortestDecimal .even))) := by
  obtain ⟨n, wellFormed, text, notInteger, negative, value⟩ := binaryText_numeral range finite
  refine ⟨n, wellFormed, text, ?_⟩
  have notWhole : n.whole? = none := by simp [Numeral.whole?, notInteger]
  simp only [Dialect.rounding, notWhole, negative, Binary.ofDecimal_congr _ value]

/-- Every number in the value has a text. -/
abbrev Finite (j : Json) : Prop :=
  j.Every Number.isFinite

theorem finite_ofDouble (x : Double) : (ofDouble x).Finite := by
  unfold ofDouble
  split
  · assumption
  · trivial

theorem finite_ofSingle (x : Single) : (ofSingle x).Finite := by
  unfold ofSingle
  split
  · assumption
  · trivial

theorem finite_ofStrings (texts : List String) : (ofStrings texts).Finite := by
  refine everyItem_iff.mpr fun j member => ?_
  obtain ⟨s, -, rfl⟩ := List.mem_map.mp member
  trivial

variable {f : Format} (number : Binary f → Number)

mutual

theorem legibleAs_rounding : ∀ {j : Json}, j.Finite →
    LegibleAs (.rounding f number) (Number.rounded f number) none j
  | .null, _ | .boolean _, _ | .string _, _ => trivial
  | .number (.integer i), _ => by
    refine ⟨.ofInt i, Numeral.wellFormed_ofInt i, Numeral.text_ofInt i, ?_⟩
    simp only [Dialect.rounding, Numeral.whole?_ofInt, Number.rounded]
  | .number (.double _), finite => rounding_binaryText number .double finite
  | .number (.single _), finite => rounding_binaryText number .single finite
  | .array _, finite => ⟨by simp, legibleItemsAs_rounding finite⟩
  | .object _, finite => ⟨by simp, legibleMembersAs_rounding finite⟩

theorem legibleItemsAs_rounding : ∀ {items : List Json}, EveryItem Number.isFinite items →
    LegibleItemsAs (.rounding f number) (Number.rounded f number) none items
  | [], _ => trivial
  | _ :: _, ⟨first, others⟩ => ⟨legibleAs_rounding first, legibleItemsAs_rounding others⟩

theorem legibleMembersAs_rounding : ∀ {members : List (String × Json)},
    EveryMember Number.isFinite members →
    LegibleMembersAs (.rounding f number) (Number.rounded f number) none members
  | [], _ => trivial
  | (_, _) :: _, ⟨first, others⟩ => ⟨legibleAs_rounding first, legibleMembersAs_rounding others⟩

end

theorem mapNumbersItems_eq_map (f : Number → Number) (items : List Json) :
    mapNumbersItems f items = items.map (mapNumbers f) := by
  induction items with
  | nil => rfl
  | cons j rest ih => rw [mapNumbersItems, ih, List.map_cons]

theorem mapNumbersMembers_eq_map (f : Number → Number) (members : List (String × Json)) :
    mapNumbersMembers f members = members.map fun p => (p.1, p.2.mapNumbers f) := by
  induction members with
  | nil => rfl
  | cons p rest ih => rw [mapNumbersMembers, ih, List.map_cons]

/-- The value that a whole text stands for in a dialect. -/
def readIn? (d : Dialect) (text : String) : Option Json :=
  match outline d text with
  | ⟨root, none⟩ => root.json?
  | ⟨_, some _⟩ => none

theorem readIn?_compact {j : Json} (finite : j.Finite) :
    readIn? (.rounding f number) j.compact = some (j.mapNumbers (Number.rounded f number)) := by
  have outlined : outline (.rounding f number) j.compact = _ :=
    outline_compactAs (legibleAs_rounding number finite)
  simp [readIn?, outlined, json?_ofJson]

end Json

/-- A value as it is read with numbers of double precision, and of single precision. -/
structure Twin where
  double : Json
  single : Json

namespace Twin

/-- The two readings of a value that is written. -/
def ofJson (j : Json) : Twin :=
  ⟨j.mapNumbers (Number.rounded .double .double), j.mapNumbers (Number.rounded .single .single)⟩

/-- The two readings of a whole text. -/
def read? (text : String) : Option Twin := do
  return ⟨← Json.readIn? (.rounding .double .double) text,
    ← Json.readIn? (.rounding .single .single) text⟩

def items? : Twin → Option (List Twin)
  | ⟨.array a, .array b⟩ => some (List.zipWith mk a b)
  | _ => none

def members? : Twin → Option (List (String × Twin))
  | ⟨.object a, .object b⟩ => some (List.zipWith (fun p q => (p.1, ⟨p.2, q.2⟩)) a b)
  | _ => none

theorem read?_compact {j : Json} (finite : j.Finite) : read? j.compact = some (ofJson j) := by
  simp [read?, Json.readIn?_compact _ finite, ofJson]

theorem items?_ofJson (items : List Json) :
    (ofJson (.array items)).items? = some (items.map ofJson) := by
  simp [ofJson, Json.mapNumbers, items?, Json.mapNumbersItems_eq_map, List.zipWith_map,
    List.zipWith_self]

theorem members?_ofJson (members : List (String × Json)) :
    (ofJson (.object members)).members? = some (members.map fun p => (p.1, ofJson p.2)) := by
  simp [ofJson, Json.mapNumbers, members?, Json.mapNumbersMembers_eq_map, List.zipWith_map,
    List.zipWith_self]

end Twin
end Solr
