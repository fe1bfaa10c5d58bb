import Solr.Proofs.Query.Compile

/-! Which keys the parameters of a description have: some always, the others as far as a
part of the description is there. -/
namespace Solr.Query

open Parameters (pairs texts)

/-- Whether a value has parameters. -/
def sent (j : Json) : Bool :=
  !(texts j).isEmpty

@[simp] theorem sent_string (s : String) : sent (.string s) = true := by
  simp [sent, texts, Parameters.itemTexts]

@[simp] theorem sent_boolean (b : Bool) : sent (.boolean b) = true := by
  simp [sent, texts, Parameters.itemTexts]

@[simp] theorem sent_number (n : Number) : sent (.number n) = true := by
  simp [sent, texts, Parameters.itemTexts]

@[simp] theorem sent_null : sent .null = false := by
  simp [sent, texts, Parameters.itemTexts]

@[simp] theorem texts_string (s : String) : texts (.string s) = [s] := rfl

@[simp] theorem texts_boolean (b : Bool) :
    texts (.boolean b) = [if b then "true" else "false"] := rfl

@[simp] theorem texts_null : texts .null = [] := rfl

@[simp] theorem texts_ofText (s : Option String) : texts (ofText s) = s.toList := by
  cases s <;> rfl

theorem texts_ofStrings (strings : List String) : texts (.ofStrings strings) = strings := by
  simp [texts, Json.ofStrings, Parameters.itemTexts, List.flatMap_map]

@[simp] theorem sent_ofStrings (strings : List String) :
    sent (.ofStrings strings) = !strings.isEmpty := by
  rw [sent, texts_ofStrings]

@[simp] theorem sent_ofText (s : Option String) : sent (ofText s) = s.isSome := by
  cases s <;> simp [ofText, Json.ofOption]

@[simp] theorem isSome_joined (separator : String) (strings : List String) :
    (joined separator strings).isSome = !strings.isEmpty := by
  cases strings <;> simp [joined]

@[simp] theorem sent_ofBoolean (b : Option Bool) : sent (.ofOption .boolean b) = b.isSome := by
  cases b <;> simp [Json.ofOption]

@[simp] theorem sent_ofNat (n : Option Nat) : sent (.ofOption .ofNat n) = n.isSome := by
  cases n <;> simp [Json.ofOption, Json.ofNat]

@[simp] theorem sent_ofInt (i : Option Int) : sent (.ofOption .ofInt i) = i.isSome := by
  cases i <;> simp [Json.ofOption, Json.ofInt]

/-- Only a finite number is sent. -/
@[simp] theorem sent_ofDouble (x : Option Double) :
    sent (.ofOption .ofDouble x) = x.any Binary.isFinite := by
  cases x with
  | none => simp [Json.ofOption]
  | some x => cases finite : x.isFinite <;> simp [Json.ofOption, Json.ofDouble, finite]

/-- The keys of a search, each with whether it is sent. -/
def Search.given (s : Search) : List (String × Bool) :=
  [("q", true), ("q.op", true), ("fq", !s.filters.isEmpty), ("start", s.start.isSome),
    ("rows", s.rows.isSome), ("sort", !s.sorts.isEmpty), ("fl", !s.fields.isEmpty), ("group", true),
    ("indent", s.indent.isSome), ("wt", true), ("spatial", s.spatial.isSome),
    ("pt", s.point.isSome), ("d", s.distance.any Binary.isFinite),
    ("shield", s.shield.isSome)]

def Ranking.given (r : Ranking) : List (String × Bool) :=
  [("qf", !r.fields.isEmpty), ("mm", r.minimumMatch.isSome), ("tie", r.tie.any Binary.isFinite),
    ("bq", r.boostQuery.isSome), ("bf", r.boostFunction.isSome), ("q.alt", r.fallback.isSome),
    ("defType", true)]

def Grouping.given (g : Grouping) : List (String × Bool) :=
  [("group.format", true), ("group.field", !g.fields.isEmpty), ("group.sort", g.sort.isSome),
    ("group.ngroups", g.countGroups.isSome), ("group.limit", g.limit.isSome),
    ("group.offset", g.offset.isSome)]

def givenFacets (truncate : Option Bool) : List (String × Bool) :=
  [("group.truncate", truncate.isSome), ("json.facet", true)]

namespace Description

def given (d : Description) : Kind → List (String × Bool)
  | .standard => d.search.given
  | .ranked => d.search.given ++ d.ranking.given
  | .grouped => d.search.given ++ d.grouping.given
  | .faceted => d.search.given ++ d.grouping.given ++ givenFacets d.grouping.truncate

end Description

/-- The keys of members, each with whether it is sent. -/
def marked (members : List (String × Json)) : List (String × Bool) :=
  members.map fun p => (p.1, sent p.2)

theorem Search.marked_members (grouped : Bool) (s : Search) :
    marked (s.members grouped) = s.given := by
  simp [marked, Search.members, Search.given]

theorem Ranking.marked_members (r : Ranking) : marked r.members = r.given := by
  simp [marked, Ranking.members, Ranking.given]

theorem Grouping.marked_members (g : Grouping) : marked g.members = g.given := by
  simp [marked, Grouping.members, Grouping.given]

theorem marked_facetMembers (truncate : Option Bool) (facets : Entries Facet) :
    marked (facetMembers truncate facets) = givenFacets truncate := by
  simp [marked, facetMembers, givenFacets]

theorem mem_keys_pairs {members : List (String × Json)} {key : String} :
    key ∈ (pairs members).map (·.1) ↔ (key, true) ∈ marked members := by
  constructor
  · intro inside
    obtain ⟨pair, found, rfl⟩ := List.mem_map.mp inside
    obtain ⟨p, member, ofMember⟩ := List.mem_flatMap.mp found
    obtain ⟨s, text, rfl⟩ := List.mem_map.mp ofMember
    have marks : sent p.2 = true := by
      simpa [sent] using List.ne_nil_of_mem text
    exact List.mem_map.mpr ⟨p, member, by rw [marks]⟩
  · intro inside
    obtain ⟨p, member, same⟩ := List.mem_map.mp inside
    obtain ⟨rfl, marks⟩ := Prod.mk.inj same
    obtain ⟨s, text⟩ := List.exists_mem_of_ne_nil (texts p.2) (by simpa [sent] using marks)
    refine List.mem_map.mpr ⟨(p.1, s), List.mem_flatMap.mpr ⟨p, member, ?_⟩, rfl⟩
    exact List.mem_map_of_mem text

namespace Description

theorem marked_members (d : Description) (kind : Kind) :
    marked (d.members kind) = d.given kind := by
  cases kind with
  | standard => exact d.search.marked_members false
  | ranked =>
    rw [members, marked, List.map_append]
    exact congrArg₂ _ (d.search.marked_members false) d.ranking.marked_members
  | grouped =>
    rw [members, marked, List.map_append]
    exact congrArg₂ _ (d.search.marked_members true) d.grouping.marked_members
  | faceted =>
    rw [members, marked, List.map_append, List.map_append]
    exact congrArg₂ _ (congrArg₂ _ (d.search.marked_members true) d.grouping.marked_members)
      (marked_facetMembers _ _)

/-- A key is sent if it is given, and no other is. -/
theorem mem_keys_iff (d : Description) (kind : Kind) {key : String} :
    key ∈ (pairs (Entries.ofList (d.members kind))).map (·.1) ↔
      (key, true) ∈ d.given kind := by
  rw [mem_keys_pairs, ← marked_members, marked, marked, List.mem_map, List.mem_map]
  simp only [mem_entries_iff]

end Description
end Solr.Query
