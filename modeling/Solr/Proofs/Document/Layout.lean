import Solr.Document
import Solr.Proofs.Entries
import Solr.Proofs.Json.Precision

/-! Documents by their fields: each holds a text, a list of texts or a number, which may be
absent and may carry a boost. A field is read back from its JSON by the kind of what it holds;
null, which is written for what is absent and for a number that is not finite, is read as such. -/
namespace Solr

inductive FieldType where
  | text
  | texts
  | integer
  | double
  | single
  deriving DecidableEq

namespace FieldType

@[reducible] def Value : FieldType → Type
  | .text => String
  | .texts => List String
  | .integer => Int
  | .double => Double
  | .single => Single

instance : (k : FieldType) → DecidableEq k.Value
  | .text => inferInstanceAs (DecidableEq String)
  | .texts => inferInstanceAs (DecidableEq (List String))
  | .integer => inferInstanceAs (DecidableEq Int)
  | .double => inferInstanceAs (DecidableEq Double)
  | .single => inferInstanceAs (DecidableEq Single)

def encode : (k : FieldType) → k.Value → Json
  | .text, s => .string s
  | .texts, list => .ofStrings list
  | .integer, i => .ofInt i
  | .double, x => .ofDouble x
  | .single, x => .ofSingle x

def isFinite : (k : FieldType) → k.Value → Bool
  | .text, _ | .texts, _ | .integer, _ => true
  | .double, x => Binary.isFinite x
  | .single, x => Binary.isFinite x

/-- The value as it can be read back: numbers that are not finite are null. -/
def written (k : FieldType) (v : k.Value) : Option k.Value :=
  if k.isFinite v then some v else none

theorem written_of_isFinite {k : FieldType} {v : k.Value} (finite : k.isFinite v) :
    k.written v = some v :=
  if_pos finite

theorem map_written {k : FieldType} {v : Option k.Value} (finite : ∀ x ∈ v, k.isFinite x) :
    v.map k.written = v.map some :=
  Option.map_congr fun x found => written_of_isFinite (finite x found)

def text? : Json → Option String
  | .string s => some s
  | _ => none

/-- The value that is found, or null. -/
def read? : (k : FieldType) → Twin → Option (Option k.Value)
  | _, ⟨.null, _⟩ => some none
  | .text, ⟨.string s, _⟩ => some (some s)
  | .texts, ⟨.array items, _⟩ => (items.mapM text?).map some
  | .integer, ⟨.number (.integer i), _⟩ => some (some i)
  | .double, ⟨.number (.double x), _⟩ => some (some x)
  | .single, ⟨_, .number (.single x)⟩ => some (some x)
  | _, _ => none

theorem mapM_text?_ofStrings (f : Number → Number) (list : List String) :
    (Json.mapNumbersItems f (list.map .string)).mapM text? = some list := by
  induction list with
  | nil => rfl
  | cons s rest ih => simp [Json.mapNumbersItems, Json.mapNumbers, text?, ih]

theorem read?_encode (k : FieldType) (v : k.Value) :
    k.read? (.ofJson (k.encode v)) = some (k.written v) := by
  cases k with
  | text | integer =>
    simp [encode, Json.ofInt, Twin.ofJson, Json.mapNumbers, Number.rounded, read?, written,
      isFinite]
  | texts =>
    simp only [encode, Json.ofStrings, Twin.ofJson, Json.mapNumbers, read?, written, isFinite,
      if_true, mapM_text?_ofStrings, Option.map_some]
  | double =>
    by_cases finite : Binary.isFinite v
    · simp [encode, Json.ofDouble, finite, Twin.ofJson, Json.mapNumbers,
        Number.rounded_double finite, read?, written, isFinite]
    · simp [encode, Json.ofDouble, finite, Twin.ofJson, Json.mapNumbers, read?, written, isFinite]
  | single =>
    by_cases finite : Binary.isFinite v
    · simp [encode, Json.ofSingle, finite, Twin.ofJson, Json.mapNumbers,
        Number.rounded_single finite, read?, written, isFinite]
    · simp [encode, Json.ofSingle, finite, Twin.ofJson, Json.mapNumbers, read?, written, isFinite]

theorem finite_encode (k : FieldType) (v : k.Value) : (k.encode v).Finite := by
  cases k with
  | text | integer => trivial
  | texts => exact Json.finite_ofStrings v
  | double => exact Json.finite_ofDouble v
  | single => exact Json.finite_ofSingle v

theorem members?_encode (k : FieldType) (v : k.Value) :
    (Twin.ofJson (k.encode v)).members? = none := by
  cases k with
  | text | texts | integer => rfl
  | double => by_cases finite : Binary.isFinite v <;> simp [encode, Json.ofDouble, finite,
      Twin.ofJson, Json.mapNumbers, Twin.members?]
  | single => by_cases finite : Binary.isFinite v <;> simp [encode, Json.ofSingle, finite,
      Twin.ofJson, Json.mapNumbers, Twin.members?]

end FieldType

/-- What a field holds: nothing or a value, and perhaps a boost. -/
abbrev Content (k : FieldType) := Boosted (Option k.Value)

/-- What is found in a field: null or a value, and perhaps a boost, which may be null. -/
structure Finding (k : FieldType) where
  value : Option k.Value
  boost : Option (Option Double)

namespace Content

variable {k : FieldType}

def encode (c : Content k) : Json :=
  Boosted.encode (.ofOption k.encode) c

/-- The content as it can be read back. -/
def written (c : Content k) : Finding k :=
  ⟨c.value.bind k.written, c.boost.map (FieldType.written .double)⟩

/-- All numbers of the content are finite. -/
def Exact (c : Content k) : Prop :=
  (∀ v ∈ c.value, k.isFinite v) ∧ ∀ x ∈ c.boost, x.isFinite

theorem Exact.written_eq {c : Content k} (exact : c.Exact) :
    c.written = ⟨c.value, c.boost.map some⟩ := by
  obtain ⟨value, boost⟩ := c
  obtain ⟨value_exact, boost_exact⟩ := exact
  have found : value.bind k.written = value := by
    cases value with
    | none => rfl
    | some v => exact FieldType.written_of_isFinite (value_exact v rfl)
  have weight : boost.map (FieldType.written .double) = boost.map some :=
    FieldType.map_written boost_exact
  rw [written, found, weight]

theorem Exact.eq_of_written {a b : Content k} (left : a.Exact) (right : b.Exact)
    (same : a.written = b.written) : a = b := by
  obtain ⟨value, boost⟩ := a
  obtain ⟨other, weight⟩ := b
  rw [left.written_eq, right.written_eq, Finding.mk.injEq] at same
  obtain ⟨values, boosts⟩ := same
  obtain rfl : value = other := values
  obtain rfl : boost = weight := Option.map_injective (Option.some_injective _) boosts
  rfl

/-- An object is a value with a boost; no value is written as an object. -/
def read? (k : FieldType) (t : Twin) : Option (Finding k) :=
  match t.members? with
  | some members => do
    let value ← k.read? (← Entries.get? members "value")
    let boost ← FieldType.read? .double (← Entries.get? members "boost")
    return ⟨value, some boost⟩
  | none => do return ⟨← k.read? t, none⟩

theorem read?_ofOption (v : Option k.Value) :
    k.read? (.ofJson (.ofOption k.encode v)) = some (v.bind k.written) := by
  cases v with
  | none => cases k <;> rfl
  | some v => exact k.read?_encode v

theorem members?_ofOption (v : Option k.Value) :
    (Twin.ofJson (.ofOption k.encode v)).members? = none := by
  cases v with
  | none => rfl
  | some v => exact k.members?_encode v

theorem read?_encode (c : Content k) : read? k (.ofJson c.encode) = some c.written := by
  obtain ⟨value, boost⟩ := c
  cases boost with
  | none => simp [encode, Boosted.encode, read?, members?_ofOption, read?_ofOption, written]
  | some boost =>
    have weight := FieldType.read?_encode .double boost
    rw [FieldType.encode] at weight
    simp [encode, Boosted.encode, read?, Twin.members?_ofJson, Entries.get?_cons, read?_ofOption,
      weight, written]

theorem finite_encode (c : Content k) : c.encode.Finite := by
  obtain ⟨value, boost⟩ := c
  have finite : (Json.ofOption k.encode value).Finite := by
    cases value with
    | none => trivial
    | some v => exact k.finite_encode v
  cases boost with
  | none => exact finite
  | some boost => exact ⟨Json.finite_ofDouble boost, finite, trivial⟩

end Content

/-- A field of a document. One content may be left out of what is written. -/
structure Column (D : Type) where
  name : String
  kind : FieldType
  content : D → Content kind
  absent : Option (Content kind)

namespace Column

variable {D : Type}

def ofValue (name : String) (kind : FieldType) (value : D → kind.Value) : Column D :=
  ⟨name, kind, fun d => .plain (some (value d)), none⟩

def ofOption (name : String) (kind : FieldType) (value : D → Option kind.Value) : Column D :=
  ⟨name, kind, fun d => .plain (value d), none⟩

def ofBoosted (name : String) (kind : FieldType) (value : D → Boosted kind.Value) : Column D :=
  ⟨name, kind, fun d => ⟨some (value d).value, (value d).boost⟩, none⟩

def leavingOut (c : Column D) (absent : Content c.kind) : Column D :=
  { c with absent := some absent }

/-- The member of a document that is written for the field. -/
def member (c : Column D) (d : D) : List (String × Json) :=
  if c.absent = some (c.content d) then [] else [(c.name, (c.content d).encode)]

/-- What the readings of a document show of the field. -/
def read? (c : Column D) (t : Twin) : Option (Finding c.kind) := do
  match Entries.get? (← t.members?) c.name with
  | some field => Content.read? c.kind field
  | none => c.absent.map Content.written

theorem name_of_mem_member {c : Column D} {d : D} {p : String × Json} (member : p ∈ c.member d) :
    p.1 = c.name := by
  unfold Column.member at member
  split at member
  · cases member
  · rw [List.mem_singleton.mp member]

theorem get?_member_of_ne {c : Column D} {name : String} (other : c.name ≠ name) (d : D) :
    Entries.get? (c.member d) name = none := by
  unfold Column.member
  split <;> simp [Entries.get?, other]

/-- Each name has one field. -/
theorem get?_members {columns : List (Column D)} (distinct : (columns.map name).Nodup)
    {c : Column D} (inside : c ∈ columns) (d : D) :
    Entries.get? (columns.flatMap (·.member d)) c.name = Entries.get? (c.member d) c.name := by
  induction columns with
  | nil => cases inside
  | cons first others ih =>
    obtain ⟨new, distinct⟩ := List.nodup_cons.mp distinct
    rw [List.flatMap_cons, Entries.get?_append]
    rcases List.mem_cons.mp inside with rfl | inside
    · have elsewhere : Entries.get? (others.flatMap (·.member d)) c.name = none := by
        apply Entries.get?_eq_none
        intro inside
        obtain ⟨p, member, same⟩ := List.mem_map.mp inside
        obtain ⟨other, later, member⟩ := List.mem_flatMap.mp member
        apply new
        rw [← same, name_of_mem_member member]
        exact List.mem_map_of_mem later
      rw [elsewhere, Option.or_none]
    · have other : first.name ≠ c.name := fun same => new (same ▸ List.mem_map_of_mem inside)
      rw [get?_member_of_ne other, Option.none_or]
      exact ih distinct inside

end Column

/-- Documents that are written as the fields of a layout; no field has the name of a command. -/
class Layout (D : Type) [Document D] where
  columns : List (Column D)
  distinct : (columns.map Column.name).Nodup
  noCommand : "add" ∉ columns.map Column.name
  encode_eq : ∀ d : D, Document.encode d = .object (columns.flatMap (·.member d))
  /-- A document is no more than its fields. -/
  ext : ∀ a b : D, (∀ c ∈ columns, c.content a = c.content b) → a = b

namespace Layout

variable {D : Type} [Document D] [Layout D]

/-- Every field is read back from what is written for a document. -/
theorem read?_encode {c : Column D} (inside : c ∈ columns) (d : D) :
    c.read? (.ofJson (Document.encode d)) = some (c.content d).written := by
  rw [encode_eq, Column.read?, Twin.members?_ofJson]
  simp only [Option.bind_eq_bind, Option.bind_some]
  rw [Entries.get?_map, Column.get?_members distinct inside]
  by_cases left : c.absent = some (c.content d)
  · simp [Column.member, left, Entries.get?]
  · simp [Column.member, left, Entries.get?_cons, Content.read?_encode]

theorem finite_encode (d : D) : (Document.encode d).Finite := by
  rw [encode_eq]
  refine Json.everyMember_iff.mpr fun p member => ?_
  obtain ⟨c, -, member⟩ := List.mem_flatMap.mp member
  unfold Column.member at member
  split at member
  · cases member
  · rw [List.mem_singleton.mp member]
    exact (c.content d).finite_encode

end Layout

open Column

instance : Layout Film where
  columns := [ofValue "id" .text Film.id, ofValue "name" .text Film.name,
    (ofValue "genre" .texts Film.genre).leavingOut (.plain (some [])),
    ofOption "year" .integer Film.year,
    (ofOption "score" .double Film.score).leavingOut (.plain none)]
  distinct := by decide
  noCommand := by decide
  encode_eq := by
    rintro ⟨id, name, genre, year, score⟩
    cases genre <;> cases year <;> cases score <;> rfl
  ext := by
    rintro ⟨id, name, genre, year, score⟩ ⟨id', name', genre', year', score'⟩ same
    simpa [ofValue, ofOption, leavingOut, Boosted.plain] using same

instance : Layout Article where
  columns := [ofValue "id" .text Article.id, ofBoosted "title" .text Article.title,
    ofBoosted "tags" .texts Article.tags]
  distinct := by decide
  noCommand := by decide
  encode_eq := by
    rintro ⟨id, ⟨title, titleBoost⟩, ⟨tags, tagsBoost⟩⟩
    cases titleBoost <;> cases tagsBoost <;> rfl
  ext := by
    rintro ⟨id, ⟨title, titleBoost⟩, ⟨tags, tagsBoost⟩⟩
      ⟨id', ⟨title', titleBoost'⟩, ⟨tags', tagsBoost'⟩⟩ same
    simpa [ofValue, ofBoosted, Boosted.plain] using same

end Solr
