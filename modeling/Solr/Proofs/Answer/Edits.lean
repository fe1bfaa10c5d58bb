import Solr.Proofs.Answer.FacetedGroups
import Solr.Proofs.Answer.Shapes
import Solr.Proofs.Document.Unordered

/-! Answers whose members are in another order, or have others beside them that are not
declared. Readers of answers do not see the difference. -/
namespace Solr.Answer

open Json Members Record

namespace Header

instance : members.Checked := by
  unfold members
  infer_instance

theorem edits : Carries shape.Edits decode := by
  have parameters : Carries (Shape.map .any).Edits (Decode.map Decode.value) :=
    edits_map (fun _ => not_false) fun _ => edits_value
  refine edits_record rfl (by decide) ?_
  exact (((carries_required (carries_under edits_int64)).map mk).seq
    (carries_required (carries_under edits_nat64))).seq
    (carries_defaulted (carries_at (by rfl) parameters))

end Header

namespace Acknowledgement

def shape : Shape :=
  .record [("responseHeader", .required, Header.shape)]

instance : members.Checked := by
  unfold members
  infer_instance

theorem edits : Carries shape.Edits decode :=
  edits_record rfl (by decide) ((carries_required (carries_at (by rfl) Header.edits)).map mk)

end Acknowledgement

section Documents

variable {D : Type} [Document D] [Document.Unordered D]

namespace Page

instance : (members (D := D)).Checked := by
  unfold members
  infer_instance

theorem edits : Carries (shape .any).Edits (decode (D := D)) := by
  have documents : Carries (Shape.list .any).Edits (Decode.list (Document.decode (D := D))) :=
    edits_list fun _ => Document.Unordered.carries
  refine edits_record rfl (by decide) ?_
  exact ((((carries_required (carries_under edits_nat64)).map mk).seq
    (carries_required (carries_under edits_nat64))).seq
    (carries_required (carries_at (by rfl) documents))).seq
    (carries_defaulted (carries_under (edits_optional edits_double))) |>.seq
    (carries_defaulted (carries_under (edits_optional edits_boolean)))

end Page

namespace Selection

instance : (members (D := D)).Checked := by
  unfold members
  infer_instance

theorem edits : Carries (shape .any).Edits (decode (D := D)) :=
  edits_record rfl (by decide) <| ((carries_required (carries_at (by rfl) Header.edits)).map mk).seq
    (carries_required (carries_at (by rfl) Page.edits))

end Selection

namespace Group

instance : (members (D := D)).Checked := by
  unfold members
  infer_instance

theorem edits : Carries (shape .any).Edits (decode (D := D)) :=
  edits_record rfl (by decide) <| ((carries_required (carries_at (by rfl) edits_value)).map mk).seq
    (carries_required (carries_at (by rfl) Page.edits))

end Group

namespace Grouping

instance : (members (D := D)).Checked := by
  unfold members
  infer_instance

theorem edits : Carries (shape .any).Edits (decode (D := D)) := by
  have groups : Carries (Shape.list (Group.shape .any)).Edits
      (Decode.list (Group.decode (D := D))) :=
    edits_list fun _ => Group.edits
  refine edits_record rfl (by decide) ?_
  exact (((carries_required (carries_under edits_nat64)).map mk).seq
    (carries_defaulted (carries_under (edits_optional edits_nat64)))).seq
    (carries_required (carries_at (by rfl) groups))

end Grouping

namespace Grouped

theorem edits_groupings : Carries (Shape.map (Grouping.shape .any)).Edits
    (Decode.map (Grouping.decode (D := D))) :=
  edits_map (fun _ => not_false) fun _ => Grouping.edits

theorem edits : Carries (shape .any).Edits (decode (D := D)) :=
  edits_record rfl (by decide) <| ((carries_required (carries_at (by rfl) Header.edits)).map mk).seq
    (carries_required (carries_at (by rfl) edits_groupings))

end Grouped
end Documents

namespace Bucket

theorem edits : Carries (Shape.any).Edits decode :=
  edits_extended <| ((carries_required (carries_at (by rfl) edits_value)).map _).seq
    (carries_required (carries_under edits_nat64))

end Bucket

namespace FacetNode

theorem edits : Carries (Shape.any).Edits decode := by
  have buckets : Carries (Shape.any).Edits (Decode.list Bucket.decode) :=
    edits_list fun _ => Bucket.edits
  have count : Carries (Under .any "count") (Decode.optional Decode.nat64) :=
    carries_under (edits_optional edits_nat64)
  exact edits_extended <| ((carries_defaulted count).map _).seq
    (carries_defaulted (carries_at (by rfl) buckets))

end FacetNode

namespace FacetCounts

theorem edits : Carries (Shape.any).Edits decode :=
  edits_extended ((carries_defaulted (carries_under edits_nat64)).map _)

end FacetCounts

namespace FacetedGroups

variable {D : Type} [Document D] [Document.Unordered D]

/-- The groups are declared among the facets. -/
def shape (document : Shape) : Shape :=
  .record [("responseHeader", .required, Header.shape),
    ("grouped", .required, .map (Grouping.shape document)),
    ("facets", .defaulted FacetCounts.empty.encode, .any)]

theorem edits : Carries (shape .any).Edits (decode (D := D)) := by
  intro n n' g edits read
  obtain ⟨others, opened, grouped⟩ := decode_eq_ok.mp read
  obtain ⟨found, rfl, once, kept, built, rfl⟩ := opened_eq_ok_iff.mp opened
  obtain ⟨found', rfl, edited⟩ := edited_of_edits edits
  have facets : members.Carries (Under (shape .any)) :=
    carries_defaulted (carries_at (by rfl) FacetCounts.edits)
  have groups : (Grouped.members (D := D)).Carries (Under (shape .any)) :=
    ((carries_required (carries_at (by rfl) Header.edits)).map _).seq
      (carries_required (carries_at (by rfl) Grouped.edits_groupings))
  have declared : ∀ key ∈ ["responseHeader", "grouped", "facets"], ¬ (shape .any).Admits key :=
    fun _ known unknown => unknown known
  have facetsKnown : ∀ slot ∈ members.slots, ¬ (shape .any).Admits slot.key := by
    intro slot member
    obtain rfl := List.mem_singleton.mp member
    exact declared "facets" (by decide)
  have groupsKnown : ∀ slot ∈ (Grouped.members (D := D)).slots, ¬ (shape .any).Admits slot.key := by
    intro slot member
    have known : slot.key ∈ ["responseHeader", "grouped"] := List.mem_map_of_mem member
    exact declared slot.key (List.mem_append_left ["facets"] known)
  have keptThere := edited.preserves (fun n => ∃ j, Decode.value n = .ok j)
    (fun key => declares members.slots key = false) (fun _ j read => ⟨j, read⟩)
    (fun _ _ _ => Shape.Edits.readable)
    fun p member undeclared => kept p (List.mem_filter.mpr ⟨member, by simp [undeclared]⟩)
  refine decode_eq_ok.mpr ⟨_, opened_eq_ok_iff.mpr
    ⟨found', rfl, edited.once facetsKnown once, fun p member => ?_, ?_, rfl⟩, ?_⟩
  · obtain ⟨member, undeclared⟩ := List.mem_filter.mp member
    exact keptThere p member (by simpa using undeclared)
  · exact facets _ _ g.facets (fun slot member => edited.find? (facetsKnown slot member)) built
  -- An edit of the facets themselves is not seen in what they leave.
  · rcases edited.filter fun key => !declares members.slots key with same | edited
    · exact same ▸ grouped
    · exact closed_edited groupsKnown groups edited grouped

end FacetedGroups

/-- Edits that a shape allows are not seen in a text. -/
def Unseen {α : Type} (shape : Shape) (decode : Decoder α) : Prop :=
  ∀ text text', Relation.ReflTransGen shape.Edits (outline .service text).root
      (outline .service text').root →
    (outline .service text).trailing = (outline .service text').trailing →
    ∀ a, decodeText decode .service text = .ok a ↔ decodeText decode .service text' = .ok a

theorem unseen_of_edits {α : Type} {shape : Shape} {decode : Decoder α}
    (carries : Carries shape.Edits decode) : Unseen shape decode := by
  intro text text' edits trailing a
  rw [decodeText_eq_ok, decodeText_eq_ok, trailing, edits_iff carries edits]

/-- In answers of all kinds no reader sees in which order the members of an object stand, at any
depth. What a record does not declare is not seen either; facets keep it, and have it as it is. -/
theorem answers_unseen (D : Type) [Document D] [Document.Unordered D] :
    Unseen Header.shape Header.decode ∧ Unseen Acknowledgement.shape Acknowledgement.decode ∧
      Unseen (Page.shape .any) (Page.decode (D := D)) ∧
      Unseen (Selection.shape .any) (Selection.decode (D := D)) ∧
      Unseen (Group.shape .any) (Group.decode (D := D)) ∧
      Unseen (Grouping.shape .any) (Grouping.decode (D := D)) ∧
      Unseen (Grouped.shape .any) (Grouped.decode (D := D)) ∧
      Unseen (FacetedGroups.shape .any) (FacetedGroups.decode (D := D)) ∧
      Unseen .any FacetCounts.decode ∧ Unseen .any FacetNode.decode ∧
      Unseen .any Bucket.decode :=
  ⟨unseen_of_edits Header.edits, unseen_of_edits Acknowledgement.edits,
    unseen_of_edits Page.edits, unseen_of_edits Selection.edits, unseen_of_edits Group.edits,
    unseen_of_edits Grouping.edits, unseen_of_edits Grouped.edits,
    unseen_of_edits FacetedGroups.edits, unseen_of_edits FacetCounts.edits,
    unseen_of_edits FacetNode.edits, unseen_of_edits Bucket.edits⟩

/-- A film with its members in another order, and a member after the page. -/
theorem answers_unseen_film :
    let header : Json := .object [("status", .ofNat 0), ("QTime", .ofNat 3)]
    let page (film : Json) : Json :=
      .object [("numFound", .ofNat 1), ("start", .ofNat 0), ("docs", .array [film])]
    let body : Json := .object [("responseHeader", header), ("response", page (.object
      [("id", .string "1"), ("name", .string "Alpha")]))]
    let other : Json := .object [("responseHeader", header), ("response", page (.object
      [("name", .string "Alpha"), ("id", .string "1")])), ("nextCursorMark", .string "*")]
    ∃ s : Selection Film, decodeText Selection.decode .service body.compact = .ok s ∧
      decodeText Selection.decode .service other.compact = .ok s := by
  intro header page body other
  let film : Json := .object [("id", .string "1"), ("name", .string "Alpha")]
  let turned : Json := .object [("name", .string "Alpha"), ("id", .string "1")]
  have within : (Node.ofJson body).Within 127 ∧ (Node.ofJson other).Within 127 := by
    simp [body, other, page, header, Node.ofJson, ofMembers, ofItems, Node.Within, WithinMembers,
      WithinItems, ofNat, Number.Plain]
  have steady : body.Every Number.isSteady ∧ other.Every Number.isSteady := by decide +kernel
  have turns : ∀ shape : Shape, shape.Edits (.ofJson film) (.ofJson turned) := fun _ =>
    .permute (by decide) (.swap _ _ [])
  have first : (Selection.shape .any).Edits (.ofJson body) (.object
      [(.ok "responseHeader", .ofJson header), (.ok "response", .ofJson (page turned))] .closed) :=
    @Shape.Edits.member _ [(.ok "responseHeader", .ofJson header)] [] _ (.ok "response") _ _
      (@Shape.Edits.member _ [(.ok "numFound", .ofJson (.ofNat 1)),
        (.ok "start", .ofJson (.ofNat 0))] [] _ (.ok "docs") _ _
        (@Shape.Edits.item _ [] [] _ _ _ (turns _)))
  have second : (Selection.shape .any).Edits (.object
      [(.ok "responseHeader", .ofJson header), (.ok "response", .ofJson (page turned))] .closed)
      (.ofJson other) := by
    refine @Shape.Edits.insert _ [(.ok "responseHeader", .ofJson header),
      (.ok "response", .ofJson (page turned))] [] _ "nextCursorMark" (.string "*") _ ?_ rfl
    change "nextCursorMark" ∉ ["responseHeader", "response"]
    decide
  let s : Selection Film := ⟨⟨0, 3, []⟩, ⟨1, 0, [⟨"1", "Alpha", [], none, none⟩], none, none⟩⟩
  have read : decodeText Selection.decode .service body.compact = .ok s :=
    (decodeText_service within.1 steady.1).mpr (by decide +kernel)
  refine ⟨s, read, ((answers_unseen Film).2.2.2.1 body.compact other.compact ?_ ?_ s).mp read⟩
  · rw [outline_service within.1 steady.1, outline_service within.2 steady.2]
    exact .tail (.single first) second
  · rw [outline_service within.1 steady.1, outline_service within.2 steady.2]

end Solr.Answer
