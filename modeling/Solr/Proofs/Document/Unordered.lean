import Solr.Document
import Solr.Proofs.Json.Edits

/-! Documents that are read alike in any order of their members. -/
namespace Solr

open Json Members Record

/-- The order of the members of an object does not matter, in a document and in all that it
contains. -/
class Document.Unordered (D : Type) [Document D] : Prop where
  carries : Carries (Shape.any).Edits (Document.decode : Decoder D)

instance : Document.Unordered Json where
  carries := edits_value

theorem under_strings (key : String) : Carries (Under .any key) (Decode.list Decode.string) :=
  carries_under (edits_list fun _ => edits_string)

namespace Film

instance : members.Checked := by
  unfold members
  infer_instance

instance : Document.Unordered Film where
  carries := by
    refine edits_closed (fun _ _ => not_false) (by decide) (fun _ _ _ => rfl) ?_
    exact ((((carries_required (carries_under edits_string)).map mk).seq
      (carries_required (carries_under edits_string))).seq
      (carries_defaulted (under_strings _))).seq
      (carries_defaulted (carries_under (edits_optional edits_int64))) |>.seq
      (carries_defaulted (carries_under (edits_optional edits_double)))

end Film

namespace Article

instance : members.Checked := by
  unfold members
  infer_instance

instance : Document.Unordered Article where
  carries := by
    refine edits_closed (fun _ _ => not_false) (by decide) (fun _ _ _ => rfl) ?_
    exact (((carries_required (carries_under edits_string)).map mk).seq
      (carries_required (carries_under (edits_string.map _)))).seq
      (carries_required ((under_strings _).map _))

end Article
end Solr
