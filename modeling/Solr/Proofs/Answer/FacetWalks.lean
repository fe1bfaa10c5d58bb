import Solr.Proofs.Answer.FacetValues

/-! Walks among facets. The facets below a level are kept as values, and read when a walk comes
to them; so a walk finds what the same walk through the values finds, and what is wrong with one
value is not seen on walks that do not pass it. -/
namespace Solr.Answer

open Json Members Record

/-- The kinds of levels that facets have. -/
inductive FacetLevel where
  | counts
  | node
  | bucket
  deriving DecidableEq

namespace FacetLevel

/-- The names that a level declares itself. -/
def declared : FacetLevel → List String
  | .counts => ["count"]
  | .node => ["count", "buckets"]
  | .bucket => ["val", "count"]

def decode : FacetLevel → Decoder FacetPlace
  | .counts => fun n => (FacetCounts.decode n).map .counts
  | .node => fun n => (FacetNode.decode n).map .node
  | .bucket => fun n => (Bucket.decode n).map .bucket

theorem settles : ∀ level, Settles (decode level)
  | .counts => FacetCounts.settles.map _
  | .node => FacetNode.settles.map _
  | .bucket => Bucket.settles.map _

/-- A step down in a value: to a member that the level does not declare, if this is an object and
can be read as a facet, or to one of the buckets of a facet. -/
def below? (level : FacetLevel) (j : Json) : FacetStep → Option (FacetLevel × Json)
  | .facet name =>
    match j.member? name with
    | some below =>
      if name ∉ level.declared ∧ below.isObject ∧ (decodeValue FacetNode.decode below).isOk then
        some (.node, below)
      else none
    | none => none
  | .bucket index =>
    match level, j.member? "buckets" with
    | .node, some (.array items) => items[index]?.map (.bucket, ·)
    | _, _ => none

/-- A walk down in a value. -/
def follow? (level : FacetLevel) (j : Json) : List FacetStep → Option (FacetLevel × Json)
  | [] => some (level, j)
  | s :: rest => (level.below? j s).bind fun below => below.1.follow? below.2 rest

theorem follow?_append (level : FacetLevel) (j : Json) (above rest : List FacetStep) :
    level.follow? j (above ++ rest) =
      (level.follow? j above).bind fun below => below.1.follow? below.2 rest := by
  induction above generalizing level j with
  | nil => rfl
  | cons s above ih => simp only [List.cons_append, follow?, ih, Option.bind_assoc]

/-- A walk to a facet looks at nothing but the member of its name. -/
theorem follow?_facet {level : FacetLevel} {j k : Json} {name : String}
    (same : j.member? name = k.member? name) (rest : List FacetStep) :
    level.follow? j (.facet name :: rest) = level.follow? k (.facet name :: rest) := by
  simp only [follow?, below?, same]

end FacetLevel

/-- The place is read from the value, at its level. -/
structure Shows (place : FacetPlace) (raw : FacetLevel × Json) : Prop where
  canonical : raw.2.IsCanonical
  read : raw.1.decode (.ofJson raw.2) = .ok place

namespace Shows

variable {place : FacetPlace} {level : FacetLevel} {j : Json}

theorem decodeValue (shows : Shows place (level, j)) :
    Json.decodeValue level.decode j = .ok place := by
  have canonical : j.canonical = j := shows.canonical
  rw [Json.decodeValue, canonical]
  exact mapError_eq_ok.mpr shows.read

/-- Levels keep the members that they do not declare. -/
theorem facets (shows : Shows place (level, j)) :
    ∃ members, j = .object members ∧
      place.facets = members.filter fun p => p.1 ∉ level.declared := by
  obtain ⟨canonical, read⟩ := shows
  have keep {slots : List Slot} (declared : slots.map (·.key) = level.declared) :
      (fun p : String × Json => !declares slots p.1) = fun p => decide (p.1 ∉ level.declared) := by
    funext p
    rw [← declared, Bool.eq_iff_iff]
    simp [← declares_iff]
  cases level with
  | counts =>
    obtain ⟨c, counts, rfl⟩ := map_eq_ok.mp read
    obtain ⟨members, rfl, of⟩ := FacetCounts.of_decode canonical counts
    exact ⟨members, rfl, of.facets.trans (by rw [keep rfl])⟩
  | node =>
    obtain ⟨f, node, rfl⟩ := map_eq_ok.mp read
    obtain ⟨members, rfl, of⟩ := FacetNode.of_decode canonical node
    exact ⟨members, rfl, of.facets.trans (by rw [keep rfl])⟩
  | bucket =>
    obtain ⟨b, bucket, rfl⟩ := map_eq_ok.mp read
    obtain ⟨members, rfl, of⟩ := Bucket.of_decode canonical bucket
    exact ⟨members, rfl, of.facets.trans (by rw [keep rfl])⟩

/-- A facet is looked up among the members that are kept, and read from the value there. -/
theorem step_facet (shows : Shows place (level, j)) (name : String) :
    Option.Rel Shows (place.step (.facet name)) (level.below? j (.facet name)) := by
  obtain ⟨members, rfl, facets⟩ := shows.facets
  obtain ⟨-, each⟩ := isCanonical_object.mp shows.canonical
  have member : (object members).member? name = Entries.get? members name := rfl
  simp only [FacetPlace.step, FacetLevel.below?, member]
  by_cases declared : name ∈ level.declared
  · have absent : name ∉ place.facets.keys := by
      rw [facets]
      intro inside
      obtain ⟨p, kept, rfl⟩ := List.mem_map.mp inside
      exact absurd declared (by simpa using (List.mem_filter.mp kept).2)
    rw [facetAt, Entries.get?_eq_none absent]
    cases Entries.get? members name <;> simp [declared]
  · have kept : place.facets.get? name = Entries.get? members name := by
      rw [facets]
      exact Entries.get?_filter (fun key => key ∉ level.declared) (by simpa using declared) members
    rw [facetAt, kept]
    cases stands : Entries.get? members name with
    | none => exact .none
    | some below =>
      have canonical : below.IsCanonical := each _ (Entries.mem_of_get? stands)
      have same : below.canonical = below := canonical
      cases object : below.isObject with
      | false => simp [object]
      | true =>
        cases read : FacetNode.decode (.ofJson below) with
        | error e => simp [Json.decodeValue, same, read, Except.mapError, Except.toOption,
            Except.isOk, Except.toBool, object]
        | ok f =>
          have shown : Shows (.node f) (.node, below) := ⟨canonical, map_eq_ok.mpr ⟨f, read, rfl⟩⟩
          simpa [Json.decodeValue, same, read, Except.mapError, Except.toOption, Except.isOk,
            Except.toBool, declared, object] using shown

/-- Buckets have been read, each from the item at its place. -/
theorem step_bucket (shows : Shows place (level, j)) (index : Nat) :
    Option.Rel Shows (place.step (.bucket index)) (level.below? j (.bucket index)) := by
  obtain ⟨canonical, read⟩ := shows
  cases level with
  | counts =>
    obtain ⟨c, counts, rfl⟩ := map_eq_ok.mp read
    exact .none
  | bucket =>
    obtain ⟨b, bucket, rfl⟩ := map_eq_ok.mp read
    exact .none
  | node =>
    obtain ⟨f, node, rfl⟩ := map_eq_ok.mp read
    obtain ⟨members, rfl, of⟩ := FacetNode.of_decode canonical node
    obtain ⟨-, each⟩ := isCanonical_object.mp canonical
    have member : (object members).member? "buckets" = Entries.get? members "buckets" := rfl
    simp only [FacetPlace.step, FacetLevel.below?, member]
    rcases of.buckets with ⟨absent, none⟩ | ⟨items, stands, buckets⟩
    · simp [absent, none]
    · have inside := isCanonical_array.mp (each _ (Entries.mem_of_get? stands))
      have shown : List.Forall₂ (fun b k => Shows (.bucket b) (.bucket, k)) f.buckets items := by
        apply ((List.forall₂_and_left _ _).mpr ⟨inside, buckets⟩).flip.imp
        exact fun b k h => ⟨h.1, map_eq_ok.mpr ⟨b, h.2, rfl⟩⟩
      have found := rel_getElem? shown index
      simp only [stands]
      generalize f.buckets[index]? = a, items[index]? = b at found ⊢
      cases found with
      | none => exact .none
      | some here => exact .some here

theorem step (shows : Shows place (level, j)) :
    ∀ s, Option.Rel Shows (place.step s) (level.below? j s)
  | .facet name => shows.step_facet name
  | .bucket index => shows.step_bucket index

theorem walk {raw : FacetLevel × Json} (shows : Shows place raw) (path : List FacetStep) :
    Option.Rel Shows (place.walk path) (raw.1.follow? raw.2 path) := by
  induction path generalizing place raw with
  | nil => exact .some shows
  | cons s rest ih =>
    have first := shows.step s
    rw [FacetPlace.walk, FacetLevel.follow?]
    generalize place.step s = a, raw.1.below? raw.2 s = b at first
    cases first with
    | none => exact .none
    | some below => exact ih below

theorem decoded {a : Option FacetPlace} {raw : Option (FacetLevel × Json)}
    (found : Option.Rel Shows a raw) :
    Option.Rel (fun place raw => Json.decodeValue raw.1.decode raw.2 = .ok place) a raw := by
  cases found with
  | none => exact .none
  | some shows => exact .some shows.decodeValue

/-- A walk finds one place at most for a value. -/
theorem unique {a b : Option FacetPlace} {raw : Option (FacetLevel × Json)}
    (left : Option.Rel Shows a raw) (right : Option.Rel Shows b raw) : a = b := by
  cases left with
  | none => cases right; rfl
  | some shows =>
    cases right with
    | some same => rw [Except.ok.inj (shows.read.symm.trans same.read)]

end Shows

theorem shows_of_text {level : FacetLevel} {text : String} {place : FacetPlace}
    (read : decodeText level.decode .service text = .ok place) :
    ∃ v, decodeText Decode.value .service text = .ok v ∧ Shows place (level, v) := by
  obtain ⟨v, value, canonical, settled⟩ := level.settles.text read
  exact ⟨v, value, canonical, settled⟩

/-- A walk through facets that are read from a text finds just what the same walk finds in the
free value of the text: what is read from the value there. Where two texts have the same value
under a name, walks that take this name find the same, whatever stands beside it. -/
theorem walk_eq_follow {level : FacetLevel} {text : String} {place : FacetPlace}
    (read : decodeText level.decode .service text = .ok place) :
    ∃ v, decodeText Decode.value .service text = .ok v ∧
      (∀ path, Option.Rel (fun found raw => decodeValue raw.1.decode raw.2 = .ok found)
        (place.walk path) (level.follow? v path)) ∧
      ∀ text' place' v', decodeText level.decode .service text' = .ok place' →
        decodeText Decode.value .service text' = .ok v' →
        ∀ above here j j' name rest, level.follow? v above = some (here, j) →
          level.follow? v' above = some (here, j') → j.member? name = j'.member? name →
          place.walk (above ++ .facet name :: rest) =
            place'.walk (above ++ .facet name :: rest) := by
  obtain ⟨v, value, shows⟩ := shows_of_text read
  refine ⟨v, value, fun path => Shows.decoded (shows.walk path), ?_⟩
  intro text' place' v' read' value' above here j j' name rest arrives arrives' same
  obtain ⟨w, again, shows'⟩ := shows_of_text read'
  obtain rfl := Except.ok.inj (value'.symm.trans again)
  have meet : level.follow? v (above ++ .facet name :: rest) =
      level.follow? v' (above ++ .facet name :: rest) := by
    rw [FacetLevel.follow?_append, FacetLevel.follow?_append, arrives, arrives']
    exact FacetLevel.follow?_facet same rest
  exact Shows.unique (meet ▸ shows.walk _) (shows'.walk _)

/-- Buckets that are a number spoil their own facet, and not the one beside it. -/
theorem walk_eq_follow_beside :
    let years : Json := .object [("count", .ofNat 1)]
    let names : Json := .object [("buckets", .array
      [.object [("count", .ofNat 2), ("val", .string "Alpha"), ("years", years)]])]
    let broken : Json := .object [("buckets", .ofNat 3)]
    let body : Json := .object [("broken", broken), ("count", .ofNat 2), ("names", names)]
    let other : Json := .object [("names", names)]
    let path : List FacetStep := [.facet "names", .bucket 0, .facet "years"]
    ∃ place place',
      decodeText FacetLevel.counts.decode .service body.compact = .ok place ∧
      decodeText FacetLevel.counts.decode .service other.compact = .ok place' ∧
      place.walk [.facet "broken"] = none ∧ place.walk path = some (.node ⟨some 1, [], []⟩) ∧
      place.walk path = place'.walk path := by
  intro years names broken body other path
  let place : FacetPlace := .counts ⟨2, [("broken", broken), ("names", names)]⟩
  let place' : FacetPlace := .counts ⟨0, [("names", names)]⟩
  have within : (Node.ofJson body).Within 127 ∧ (Node.ofJson other).Within 127 := by
    simp [body, other, names, broken, years, Node.ofJson, ofMembers, ofItems, Node.Within,
      WithinMembers, WithinItems, ofNat, Number.Plain]
  have steady : body.Every Number.isSteady ∧ other.Every Number.isSteady := by decide +kernel
  have read : decodeText FacetLevel.counts.decode .service body.compact = .ok place :=
    (decodeText_service within.1 steady.1).mpr (by decide +kernel)
  have read' : decodeText FacetLevel.counts.decode .service other.compact = .ok place' :=
    (decodeText_service within.2 steady.2).mpr (by decide +kernel)
  have value : decodeText Decode.value .service body.compact = .ok body :=
    (decodeText_service within.1 steady.1).mpr (by decide +kernel)
  have value' : decodeText Decode.value .service other.compact = .ok other :=
    (decodeText_service within.2 steady.2).mpr (by decide +kernel)
  obtain ⟨v, readable, follows, beside⟩ := walk_eq_follow read
  obtain rfl := Except.ok.inj (value.symm.trans readable)
  refine ⟨place, place', read, read', ?_, ?_, ?_⟩
  · have missing : FacetLevel.counts.follow? body [.facet "broken"] = none := by decide +kernel
    have found := follows [.facet "broken"]
    rw [missing] at found
    generalize place.walk [.facet "broken"] = a at found
    cases found
    rfl
  · have arrives : FacetLevel.counts.follow? body path = some (.node, years) := by decide +kernel
    have found := follows path
    rw [arrives] at found
    generalize place.walk path = a at found
    cases found with
    | some read =>
      have counted : decodeValue FacetLevel.node.decode years = .ok (.node ⟨some 1, [], []⟩) := by
        decide +kernel
      rw [Except.ok.inj (read.symm.trans counted)]
  · exact beside _ place' other read' value' [] .counts body other "names" _ rfl rfl rfl

end Solr.Answer
