import Solr.Proofs.Answer.FacetValues
import Solr.Proofs.Answer.Recoding

/-! Groups with facets. These are read in two steps, the facets first and the groups from what
they leave; it comes to the same as reading the groups and the facets each by themselves. -/
namespace Solr.Answer

open Json Members Record

/-- The facets among the members of an answer: none, or those that stand there once. -/
inductive FacetsOf (members : List (Except Fault String × Node)) : FacetCounts → Prop
  | absent (none : members.filter (·.1 = .ok "facets") = []) : FacetsOf members .empty
  | once {n : Node} {facets : FacetCounts}
      (one : members.filter (·.1 = .ok "facets") = [(.ok "facets", n)])
      (read : FacetCounts.decode n = .ok facets) : FacetsOf members facets

theorem once_facets {found : List (String × Node)} :
    Once FacetedGroups.members.slots found ↔
      (found.filter fun p => p.1 = "facets").length ≤ 1 := by
  have count : (found.map (·.1)).count "facets" =
      (found.filter fun p => p.1 = "facets").length := by
    rw [List.count_eq_length_filter, List.filter_map, List.length_map]
    rfl
  rw [← count]
  constructor
  · intro once
    exact once "facets" (by decide)
  · intro once key declared
    obtain rfl : key = "facets" := List.mem_singleton.mp (declares_iff.mp declared)
    exact once

/-- The facets are built from the members of their name. -/
theorem facetsOf_named {found : List (String × Node)} {facets : FacetCounts} :
    FacetsOf (named found) facets ↔
      Once FacetedGroups.members.slots found ∧
        FacetedGroups.members.build (find? found) = .ok facets := by
  have members : (named found).filter (·.1 = .ok "facets") =
      named (found.filter fun p => p.1 = "facets") := by
    rw [named, List.filter_map]
    simp [Function.comp_def, named]
  have lookup : find? found "facets" =
      (found.filter fun p => p.1 = "facets").head?.map (·.2) := by
    rw [List.head?_filter]
    rfl
  have built : FacetedGroups.members.build (find? found) = .ok facets ↔
      (find? found "facets" = none ∧ facets = .empty) ∨
        ∃ n, find? found "facets" = some n ∧ FacetCounts.decode n = .ok facets :=
    build_defaulted_eq_ok
  rw [once_facets, built, lookup]
  have keys : ∀ p ∈ found.filter fun p => p.1 = "facets", p.1 = "facets" := by simp
  generalize found.filter (fun p => p.1 = "facets") = here at members keys
  constructor
  · rintro (none | ⟨one, read⟩)
    · obtain rfl : here = [] := List.map_eq_nil_iff.mp (members.symm.trans none)
      simp
    · obtain ⟨p, rfl, same⟩ := List.map_eq_singleton_iff.mp (members.symm.trans one)
      obtain ⟨-, rfl⟩ := Prod.mk.inj same
      simpa using read
  · rintro ⟨short, ⟨none, rfl⟩ | ⟨n, first, read⟩⟩
    · obtain rfl : here = [] := by simpa using none
      exact .absent members
    · cases here with
      | nil => cases first
      | cons p rest =>
        obtain rfl : rest = [] := List.length_eq_zero_iff.mp (by simpa using short)
        obtain rfl := Option.some.inj first
        have key := keys p List.mem_cons_self
        exact .once (members.trans (by rw [← key]; rfl)) read

namespace Grouped

variable {D : Type} [Document D]

instance : (members (D := D)).Checked := by
  unfold members
  infer_instance

theorem carries_eq : (members (D := D)).Carries fun _ => Eq :=
  ((carries_required (Json.carries_eq _)).map _).seq (carries_required (Json.carries_eq _))

end Grouped

namespace FacetedGroups

variable {D : Type} [Document D]

instance : members.Checked := by
  unfold members
  infer_instance

/-- Where all members can be kept, groups and facets are read each by themselves. -/
theorem decode_named {found : List (String × Node)}
    (readable : ∀ p ∈ found, ∃ j, Decode.value p.2 = .ok j) {g : FacetedGroups D} :
    decode (.object (named found) .closed) = .ok g ↔
      Grouped.decode (.object (named found) .closed) = .ok g.grouped ∧
        FacetsOf (named found) g.facets := by
  have skips : ∀ p ∈ found, p.2.skip = none := by
    intro p member
    obtain ⟨j, read⟩ := readable p member
    exact skip_of_value read
  have groups : Grouped.decode (.object (named (found.filter fun p => !declares members.slots p.1))
      .closed) = .ok g.grouped ↔
        Grouped.decode (.object (named found) .closed) = .ok g.grouped := by
    refine closed_filter Grouped.carries_eq (fun key => !declares members.slots key) ?_ skips
    intro key declared
    have member : key ∈ ["responseHeader", "grouped"] := declares_iff.mp declared
    have apart : ∀ key ∈ ["responseHeader", "grouped"], (!declares members.slots key) = true := by
      decide
    exact apart key member
  rw [decode_eq_ok, facetsOf_named, ← groups]
  simp only [opened_eq_ok_iff, Node.object.injEq, named_inj, and_true, exists_eq_left']
  constructor
  · rintro ⟨others, ⟨once, -, built, rfl⟩, read⟩
    exact ⟨read, once, built⟩
  · rintro ⟨read, once, built⟩
    refine ⟨_, ⟨once, fun p member => ?_, built, rfl⟩, read⟩
    exact readable p (List.mem_filter.mp member).1

end FacetedGroups

/-- An answer that can be kept as a free value is read as groups with facets just when it is
read as groups, and its facets by themselves are none or can be read. These are then its groups
and its facets, and the facets are written after what is written for the groups. -/
theorem facetedGroups_decoded {D : Type} [Document D] {text : String} {free : Json}
    {members : List (Except Fault String × Node)} {ending : Ending}
    (root : (outline .service text).root = .object members ending)
    (readable : decodeText Decode.value .service text = .ok free) :
    ((∃ g : FacetedGroups D, decodeText FacetedGroups.decode .service text = .ok g) ↔
      (∃ grouped : Grouped D, decodeText Grouped.decode .service text = .ok grouped) ∧
        ∃ facets, FacetsOf members facets) ∧
    ∀ g : FacetedGroups D, decodeText FacetedGroups.decode .service text = .ok g →
      decodeText Grouped.decode .service text = .ok g.grouped ∧ FacetsOf members g.facets ∧
        ∃ fields, g.grouped.encode = .object fields ∧
          g.encode = .object (fields ++ [("facets", g.facets.encode)]) := by
  obtain ⟨value, trailing⟩ := decodeText_eq_ok.mp readable
  rw [root] at value
  obtain ⟨rfl, pairs, -, each⟩ := Decode.value_object_eq_ok.mp value
  obtain ⟨found, rfl, same⟩ := named_of_value each
  have kept : ∀ p ∈ found, ∃ j, Decode.value p.2 = .ok j := by
    intro p member
    obtain ⟨q, -, -, read⟩ := exists_of_mem_forall₂ same.flip member
    exact ⟨q.2, read⟩
  have decoded (g : FacetedGroups D) : decodeText FacetedGroups.decode .service text = .ok g ↔
      decodeText Grouped.decode .service text = .ok g.grouped ∧
        FacetsOf (named found) g.facets := by
    simp only [decodeText_eq_ok, root, trailing, and_true]
    exact FacetedGroups.decode_named kept
  refine ⟨⟨?_, ?_⟩, fun g read => ?_⟩
  · rintro ⟨g, read⟩
    obtain ⟨grouped, facets⟩ := (decoded g).mp read
    exact ⟨⟨g.grouped, grouped⟩, g.facets, facets⟩
  · rintro ⟨⟨grouped, read⟩, facets, beside⟩
    exact ⟨⟨grouped, facets⟩, (decoded ⟨grouped, facets⟩).mpr ⟨read, beside⟩⟩
  · obtain ⟨grouped, facets⟩ := (decoded g).mp read
    exact ⟨grouped, facets, _, rfl, rfl⟩

/-- Facets stand before the groups, and a member that is not declared after them. -/
theorem facetedGroups_decoded_film :
    let page : Json := .object [("numFound", .ofNat 1), ("start", .ofNat 0),
      ("docs", .array [.object [("id", .string "1"), ("name", .string "Alpha")]])]
    let body : Json := .object [("facets", .object [("count", .ofNat 1), ("all", .null)]),
      ("grouped", .object [("name", .object [("matches", .ofNat 1),
        ("groups", .array [.object [("groupValue", .null), ("doclist", page)]])])]),
      ("responseHeader", .object [("status", .ofNat 0), ("QTime", .ofNat 3)]),
      ("partial", .boolean true)]
    ∃ g : FacetedGroups Film, decodeText FacetedGroups.decode .service body.compact = .ok g ∧
      decodeText Grouped.decode .service body.compact = .ok g.grouped ∧
      g.facets = ⟨1, [("all", .null)]⟩ := by
  intro page body
  let grouped : Grouped Film := ⟨⟨0, 3, []⟩,
    [("name", ⟨1, none, [⟨.null, ⟨1, 0, [⟨"1", "Alpha", [], none, none⟩], none, none⟩⟩]⟩)]⟩
  have within : (Node.ofJson body).Within 127 := by
    simp [body, page, Node.ofJson, ofMembers, ofItems, Node.Within, WithinMembers, WithinItems,
      ofNat, Number.Plain]
  have steady : body.Every Number.isSteady := by decide +kernel
  have root : (outline .service body.compact).root = .ofJson body := by
    rw [outline_service within steady]
  have read : decodeText FacetedGroups.decode .service body.compact =
      .ok (⟨grouped, ⟨1, [("all", .null)]⟩⟩ : FacetedGroups Film) :=
    (decodeText_service within steady).mpr (by decide +kernel)
  obtain ⟨free, value⟩ := value_ofJson body
  have readable := (decodeText_service within steady).mpr value
  exact ⟨_, read, ((facetedGroups_decoded root readable).2 _ read).1, rfl⟩

end Solr.Answer
