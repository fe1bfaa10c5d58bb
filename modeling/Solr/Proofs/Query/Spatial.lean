import Solr.Proofs.Query.Calls

/-! Where documents are searched for: four parameters that one call gives together. They stay
together, save for a distance that is no finite number, which is not sent. -/
namespace Solr.Query

open Parameters (pairs texts)

/-- What a spatial search is given. -/
structure Area where
  field : Field
  center : Point
  distance : Double
  deriving DecidableEq

namespace Area

/-- The parameters of a spatial search, in the order of their keys. -/
def parameters (a : Area) : Parameters :=
  (if a.distance.isFinite then [("d", String.ofList (Parameters.doubleText a.distance))] else []) ++
    [("pt", a.center.text), ("shield", a.field.name), ("spatial", "true")]

end Area

namespace Call

/-- Calls that say what is asked for. The others assign one part of a description, also to
take it away. -/
def isMethod : Call → Bool
  | .assignSpatial _ | .assignPoint _ | .assignDistance _ | .assignShield _ => false
  | _ => true

def area? : Call → Option Area
  | .spatial f p x => some ⟨f, p, x⟩
  | _ => none

end Call

/-- The last spatial search that is asked for. -/
def lastArea (calls : List Call) : Option Area :=
  calls.reverse.findSome? Call.area?

theorem lastArea_concat (calls : List Call) (c : Call) :
    lastArea (calls ++ [c]) = c.area?.or (lastArea calls) := by
  rw [lastArea, List.reverse_append, List.reverse_singleton, List.singleton_append,
    List.findSome?_cons]
  cases c.area? <;> rfl

/-- The four parts of a search come from one area, or none of them is there. -/
structure Search.Within (s : Search) (area : Option Area) : Prop where
  spatial : s.spatial = area.map fun _ => true
  point : s.point = area.map Area.center
  distance : s.distance = area.map Area.distance
  shield : s.shield = area.map Area.field

theorem Search.Within.apply {s : Search} {area : Option Area} (within : s.Within area) {c : Call}
    (method : c.isMethod) : (s.apply c).Within (c.area?.or area) := by
  cases c with
  | spatial => exact ⟨rfl, rfl, rfl, rfl⟩
  | assignSpatial | assignPoint | assignDistance | assignShield => cases method
  | _ => exact ⟨within.spatial, within.point, within.distance, within.shield⟩

theorem Search.within_build {calls : List Call} (methods : ∀ c ∈ calls, c.isMethod) :
    (Description.build calls).search.Within (lastArea calls) := by
  induction calls using List.reverseRecOn with
  | nil => exact ⟨rfl, rfl, rfl, rfl⟩
  | append_singleton calls c ih =>
    obtain ⟨before, last⟩ := List.forall_mem_append.mp methods
    rw [Description.build_concat, lastArea_concat]
    exact (ih before).apply (last c (List.mem_singleton_self c))

/-- The keys of a spatial search, in their order. -/
def spatialKeys : List String :=
  ["d", "pt", "shield", "spatial"]

def Search.spatialMembers (s : Search) : List (String × Json) :=
  [("spatial", .ofOption .boolean s.spatial),
    ("pt", ofText (s.point.map Point.text)),
    ("d", .ofOption .ofDouble s.distance),
    ("shield", ofText (s.shield.map Field.name))]

theorem Description.filter_spatial (d : Description) (kind : Kind) :
    (d.members kind).filter (fun p => p.1 ∈ spatialKeys) = d.search.spatialMembers := by
  cases kind <;> rfl

/-- A distance that is no finite number has no text. -/
theorem texts_distance (x : Double) :
    texts (.ofDouble x) =
      if x.isFinite then [String.ofList (Parameters.doubleText x)] else [] := by
  rw [Json.ofDouble]
  cases x.isFinite <;> rfl

theorem Search.Within.pairs_eq {s : Search} {area : Option Area} (within : s.Within area) :
    pairs (Entries.ofList s.spatialMembers) = area.elim [] Area.parameters := by
  have keys : Entries.keys s.spatialMembers = ["spatial", "pt", "d", "shield"] := rfl
  have once : (Entries.keys s.spatialMembers).Nodup := by
    rw [keys]
    decide
  have perm : spatialKeys.Perm (Entries.keys s.spatialMembers) := by
    rw [keys]
    decide
  have increasing : spatialKeys.Pairwise (· < ·) := by decide
  rw [Parameters.pairs_listed once increasing perm]
  simp only [spatialKeys, Search.spatialMembers, within.spatial, within.point, within.distance,
    within.shield]
  cases area with
  | none => rfl
  | some a =>
    cases finite : a.distance.isFinite <;>
      simp [Area.parameters, Entries.get?, Json.ofOption, texts_distance, finite]

/-- All four parameters of a spatial search are there, or none of them. -/
def Together (parameters : Parameters) : Prop :=
  (∀ key ∈ spatialKeys, key ∈ parameters.map (·.1)) ∨
    ∀ key ∈ spatialKeys, key ∉ parameters.map (·.1)

theorem together_filter (parameters : Parameters) :
    Together (parameters.filter fun p => p.1 ∈ spatialKeys) ↔ Together parameters := by
  have same : ∀ key ∈ spatialKeys,
      (key ∈ (parameters.filter fun p => p.1 ∈ spatialKeys).map (·.1) ↔
        key ∈ parameters.map (·.1)) := by
    intro key spatial
    simp only [List.mem_map, List.mem_filter, decide_eq_true_eq]
    constructor
    · rintro ⟨p, ⟨member, -⟩, rfl⟩
      exact ⟨p, member, rfl⟩
    · rintro ⟨p, member, rfl⟩
      exact ⟨p, ⟨member, spatial⟩, rfl⟩
  apply or_congr
  · exact forall₂_congr same
  · exact forall₂_congr fun key spatial => not_congr (same key spatial)

theorem Area.together_parameters (a : Area) : Together a.parameters ↔ a.distance.isFinite := by
  cases finite : a.distance.isFinite <;> simp [Together, spatialKeys, Area.parameters, finite]

/-- Where each call says what is asked for, the spatial parameters are those of the last
spatial search. They are all there or none is, as long as its distance is finite, and only
then. -/
theorem spatial_together (calls : List Call) (kind : Kind) (methods : ∀ c ∈ calls, c.isMethod) :
    ∃ parameters, (Description.build calls).parameters kind = .ok parameters ∧
      parameters.filter (fun p => p.1 ∈ spatialKeys) = (lastArea calls).elim [] Area.parameters ∧
      (Together parameters ↔ ∀ a, lastArea calls = some a → a.distance.isFinite) := by
  have spatial : (pairs (Entries.ofList ((Description.build calls).members kind))).filter
      (fun p => p.1 ∈ spatialKeys) = (lastArea calls).elim [] Area.parameters := by
    rw [Parameters.filter_pairs fun key => key ∈ spatialKeys,
      Entries.filter_ofList fun key => key ∈ spatialKeys, Description.filter_spatial]
    exact (Search.within_build methods).pairs_eq
  refine ⟨_, Description.parameters_eq _ kind, spatial, ?_⟩
  rw [← together_filter, spatial]
  cases lastArea calls with
  | none => simp [Together]
  | some a => simpa using a.together_parameters

theorem spatial_together_twice : ∃ parameters,
    (Description.build [.spatial ⟨"area"⟩ ⟨.nan, .nan⟩ .nan, .rows 5,
        .spatial ⟨"location"⟩ ⟨.zero false, .zero true⟩ (.zero false)]).parameters .ranked =
          .ok parameters ∧
      parameters.filter (fun p => p.1 ∈ spatialKeys) =
        [("d", "0"), ("pt", "0,-0"), ("shield", "location"), ("spatial", "true")] ∧
      Together parameters := by
  obtain ⟨parameters, built, spatial, together⟩ := spatial_together
    [.spatial ⟨"area"⟩ ⟨.nan, .nan⟩ .nan, .rows 5,
      .spatial ⟨"location"⟩ ⟨.zero false, .zero true⟩ (.zero false)] .ranked (by decide)
  refine ⟨parameters, built, spatial.trans (by decide +kernel), together.mpr fun a last => ?_⟩
  cases last
  rfl

/-- A search within no number of kilometres of a point goes out without a distance. -/
theorem distance_unsent : ∃ parameters,
    (Description.build [.spatial ⟨"location"⟩ ⟨.zero false, .zero false⟩ .nan]).parameters
        .standard = .ok parameters ∧
      parameters.filter (fun p => p.1 ∈ spatialKeys) =
        [("pt", "0,0"), ("shield", "location"), ("spatial", "true")] ∧
      ¬ Together parameters := by
  refine ⟨_, rfl, rfl, ?_⟩
  unfold Together
  decide

end Solr.Query
