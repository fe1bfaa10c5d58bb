import Solr.Proofs.Entries
import Solr.Proofs.Json.Values
import Solr.Query.Facet

/-! Facet trees read back from their texts. Each facet is known by its type and its members
by their names; an absent member is told from an empty one. Null, which is written for a
number that is not finite, is read as NaN. -/
namespace Solr.Query.Facet

def text? : Json → Option String
  | .string s => some s
  | _ => none

def integer? : Json → Option Int
  | .number (.integer i) => some i
  | _ => none

def natural? (j : Json) : Option Nat :=
  (integer? j).bind fun i => if 0 ≤ i then some i.toNat else none

def double? : Json → Option Double
  | .number (.double x) => some x
  | .null => some .nan
  | _ => none

variable {α : Type}

/-- A member that has to be there. -/
def required (read : Json → Option α) (members : List (String × Json)) (key : String) :
    Option α :=
  (Entries.get? members key).bind read

/-- A member that may be absent; when it is there, it has to be readable. -/
def optional (read : Json → Option α) (members : List (String × Json)) (key : String) :
    Option (Option α) :=
  match Entries.get? members key with
  | none => some none
  | some j => (read j).map some

/-- The facet with these members, above the facets given. -/
def ofMembers? (members : List (String × Json)) (facets : Option (List (String × Facet))) :
    Option Facet := do
  let type ← required text? members "type"
  if type = "terms" then
    return .terms ⟨← required text? members "field"⟩ (← required integer? members "limit")
      (← optional text? members "sort") (← optional integer? members "overrequest") facets
  else if type = "query" then
    return .matching (← required text? members "q") facets
  else if type = "range" then
    return .range ⟨← required text? members "field"⟩ (← required double? members "start")
      (← required double? members "end") (← required double? members "gap")
      (← required text? members "hardend") (← required text? members "other")
      (← optional text? members "include") facets
  else if type = "heatmap" then
    return .heatmap ⟨← required text? members "field"⟩ (← required text? members "geom")
      (← required natural? members "gridLevel")
  else none

mutual

def read? : Json → Option Facet
  | .object members => do ofMembers? members (← readBelow? members)
  | _ => none

def readBelow? : List (String × Json) → Option (Option (List (String × Facet)))
  | [] => some none
  | (key, j) :: rest => if key = "facet" then (readTree? j).map some else readBelow? rest

def readTree? : Json → Option (List (String × Facet))
  | .object entries => readEntries? entries
  | _ => none

def readEntries? : List (String × Json) → Option (List (String × Facet))
  | [] => some []
  | (name, j) :: rest => do
    let f ← read? j
    return (name, f) :: (← readEntries? rest)

end

/-- The tree of a whole text. -/
def readText? (text : String) : Option (List (String × Facet)) :=
  (Json.read? text).bind readTree?

/-- What a number is read back as. -/
def readable (x : Double) : Double :=
  if x.isFinite then x else .nan

mutual

/-- The facet as it can be read back: the same but for numbers that are not finite. -/
def written : Facet → Facet
  | .terms field limit sort overrequest facets =>
    .terms field limit sort overrequest (writtenBelow facets)
  | .matching query facets => .matching query (writtenBelow facets)
  | .range field first last gap hardEnd other edges facets =>
    .range field (readable first) (readable last) (readable gap) hardEnd other edges
      (writtenBelow facets)
  | .heatmap field area gridLevel => .heatmap field area gridLevel

def writtenBelow : Option (List (String × Facet)) → Option (List (String × Facet))
  | none => none
  | some facets => some (writtenEntries facets)

def writtenEntries : List (String × Facet) → List (String × Facet)
  | [] => []
  | (name, f) :: rest => (name, f.written) :: writtenEntries rest

end

theorem double?_ofDouble (x : Double) : double? (.ofDouble x) = some (readable x) := by
  unfold Json.ofDouble readable
  split <;> rfl

theorem natural?_ofNat (n : Nat) : natural? (.ofNat n) = some n := by
  simp [natural?, Json.ofNat, integer?]

theorem get?_optional (key : String) (encode : α → Json) (o : Option α) (other : String) :
    Entries.get? (Json.optional key encode o) other =
      if key = other then o.map encode else none := by
  cases o <;> simp [Json.optional, Entries.get?]

/-- What is below a facet stands under one key only. -/
theorem get?_encodeBelow (facets : Option (List (String × Facet))) {key : String}
    (other : key ≠ "facet") : Entries.get? (encodeBelow facets) key = none := by
  cases facets with
  | none => rfl
  | some facets => simp [encodeBelow, Entries.get?, Ne.symm other]

theorem readBelow?_append {a : List (String × Json)} (other : ∀ p ∈ a, p.1 ≠ "facet")
    (b : List (String × Json)) : readBelow? (a ++ b) = readBelow? b := by
  induction a with
  | nil => rfl
  | cons p a ih =>
    obtain ⟨here, later⟩ := List.forall_mem_cons.mp other
    obtain ⟨key, j⟩ := p
    rw [List.cons_append, readBelow?, if_neg here, ih later]

theorem optional_other {key : String} (other : key ≠ "facet") (encode : α → Json)
    (o : Option α) : ∀ p ∈ Json.optional key encode o, p.1 ≠ "facet" := by
  cases o <;> simp [Json.optional, other]

theorem ofMembers?_terms (field : Field) (limit : Int) (sort : Option String)
    (overrequest : Option Int) (facets facets' : Option (List (String × Facet))) :
    ofMembers? ([("type", .string "terms"), ("field", ofField field), ("limit", .ofInt limit)] ++
      Json.optional "sort" .string sort ++ Json.optional "overrequest" .ofInt overrequest ++
      encodeBelow facets) facets' = some (.terms field limit sort overrequest facets') := by
  cases sort <;> cases overrequest <;>
    simp [ofMembers?, required, optional, Entries.get?_append, Entries.get?_cons, get?_optional,
      get?_encodeBelow, ofField, text?, integer?, Json.ofInt]

theorem ofMembers?_matching (query : String) (facets facets' : Option (List (String × Facet))) :
    ofMembers? ([("type", .string "query"), ("q", .string query)] ++ encodeBelow facets) facets' =
      some (.matching query facets') := by
  simp [ofMembers?, required, Entries.get?_cons, text?]

theorem ofMembers?_range (field : Field) (first last gap : Double) (hardEnd other : String)
    (edges : Option String) (facets facets' : Option (List (String × Facet))) :
    ofMembers? ([("type", .string "range"), ("field", ofField field), ("start", .ofDouble first),
      ("end", .ofDouble last), ("gap", .ofDouble gap), ("hardend", .string hardEnd),
      ("other", .string other)] ++ Json.optional "include" .string edges ++ encodeBelow facets)
      facets' =
      some (.range field (readable first) (readable last) (readable gap) hardEnd other edges
        facets') := by
  cases edges <;>
    simp [ofMembers?, required, optional, Entries.get?_append, Entries.get?_cons, get?_optional,
      get?_encodeBelow, ofField, text?, double?_ofDouble]

theorem ofMembers?_heatmap (field : Field) (area : String) (gridLevel : Nat)
    (facets : Option (List (String × Facet))) :
    ofMembers? [("type", .string "heatmap"), ("field", ofField field), ("geom", .string area),
      ("gridLevel", .ofNat gridLevel)] facets = some (.heatmap field area gridLevel) := by
  simp [ofMembers?, required, Entries.get?_cons, ofField, text?, natural?_ofNat]

mutual

/-- A facet is read back with everything below it. -/
theorem read?_encode : ∀ f : Facet, read? f.encode = some f.written
  | .terms field limit sort overrequest facets => by
    have below := readBelow?_encodeBelow facets
    rw [encode, read?, readBelow?_append, below]
    · exact ofMembers?_terms field limit sort overrequest facets (writtenBelow facets)
    · simp only [List.forall_mem_append]
      exact ⟨⟨by simp, optional_other (by simp) _ _⟩, optional_other (by simp) _ _⟩
  | .matching query facets => by
    have below := readBelow?_encodeBelow facets
    rw [encode, read?, readBelow?_append, below]
    · exact ofMembers?_matching query facets (writtenBelow facets)
    · simp
  | .range field first last gap hardEnd other edges facets => by
    have below := readBelow?_encodeBelow facets
    rw [encode, read?, readBelow?_append, below]
    · exact ofMembers?_range field first last gap hardEnd other edges facets (writtenBelow facets)
    · exact List.forall_mem_append.mpr ⟨by simp, optional_other (by simp) _ _⟩
  | .heatmap field area gridLevel => by
    simp [encode, read?, readBelow?, ofMembers?_heatmap, written]

theorem readBelow?_encodeBelow : ∀ facets : Option (List (String × Facet)),
    readBelow? (encodeBelow facets) = some (writtenBelow facets)
  | none => rfl
  | some facets => by
    simp [encodeBelow, readBelow?, readTree?, readEntries?_encodeEntries facets, writtenBelow]

theorem readEntries?_encodeEntries : ∀ facets : List (String × Facet),
    readEntries? (encodeEntries facets) = some (writtenEntries facets)
  | [] => rfl
  | (name, f) :: rest => by
    simp [encodeEntries, readEntries?, read?_encode f, readEntries?_encodeEntries rest,
      writtenEntries]

end

theorem legible_optional {key : String} (encode : α → Json)
    (legible : ∀ a, Json.Legible .unbounded none (encode a)) (o : Option α) :
    Json.LegibleMembers .unbounded none (Json.optional key encode o) := by
  cases o with
  | none => trivial
  | some a => exact ⟨legible a, trivial⟩

mutual

theorem legible_encode : ∀ f : Facet, Json.Legible .unbounded none f.encode
  | .terms field limit sort overrequest facets => by
    have below := legible_encodeBelow facets
    refine Json.legible_object ?_
    simp only [Json.legibleMembers_append]
    exact ⟨⟨⟨⟨trivial, trivial, Json.legible_ofInt none limit, trivial⟩,
      legible_optional .string (fun _ => trivial) sort⟩,
      legible_optional .ofInt (Json.legible_ofInt none) overrequest⟩, below⟩
  | .matching query facets => by
    have below := legible_encodeBelow facets
    refine Json.legible_object ?_
    rw [Json.legibleMembers_append]
    exact ⟨⟨trivial, trivial, trivial⟩, below⟩
  | .range field first last gap hardEnd other edges facets => by
    have below := legible_encodeBelow facets
    refine Json.legible_object ?_
    simp only [Json.legibleMembers_append]
    exact ⟨⟨⟨trivial, trivial, Json.legible_ofDouble none first, Json.legible_ofDouble none last,
      Json.legible_ofDouble none gap, trivial, trivial, trivial⟩,
      legible_optional .string (fun _ => trivial) edges⟩, below⟩
  | .heatmap field area gridLevel =>
    Json.legible_object ⟨trivial, trivial, trivial, Json.legible_ofNat none gridLevel, trivial⟩

theorem legible_encodeBelow : ∀ facets : Option (List (String × Facet)),
    Json.LegibleMembers .unbounded none (encodeBelow facets)
  | none => trivial
  | some facets => ⟨Json.legible_object (legible_encodeEntries facets), trivial⟩

theorem legible_encodeEntries : ∀ facets : List (String × Facet),
    Json.LegibleMembers .unbounded none (encodeEntries facets)
  | [] => trivial
  | (_, f) :: rest => ⟨legible_encode f, legible_encodeEntries rest⟩

end

/-- A tree is read back from its text. -/
theorem readText?_treeText (facets : List (String × Facet)) :
    readText? (treeText facets) = some (writtenEntries facets) := by
  rw [readText?, treeText, Json.read?_compact (Json.legible_object (legible_encodeEntries facets))]
  exact readEntries?_encodeEntries facets

end Solr.Query.Facet
