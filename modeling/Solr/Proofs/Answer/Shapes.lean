import Solr.Proofs.Answer.Recoding
import Solr.Proofs.Json.Shape

/-! The shapes of answers. What is written for an answer that was read from a text is what its
shape leaves of the text, and is read as the same answer. -/
namespace Solr.Answer

open Json

namespace Header

def shape : Shape :=
  .record [("status", .required, .int64), ("QTime", .required, .nat64),
    ("params", .defaulted (.object []), .map .any)]

theorem restricts : Restricts shape decode encode := by
  apply restricts_closed (fun h : Header => _)
  · rfl
  · intro depth find h shallow read
    obtain ⟨status, time, parameters⟩ := built read
    have echoed : Restricts (.map .any) (Decode.map Decode.value) Json.object := by
      simpa using restricts_map restricts_value
    simp only [restrictMembers, members_required restricts_int64 shallow status,
      members_required restricts_nat64 shallow time,
      members_defaulted echoed shallow parameters, Option.bind_eq_bind, Option.bind_some,
      Option.pure_def]
    rfl

end Header

section Documents

variable {D : Type} [Document D] {document : Shape}

namespace Page

def shape (document : Shape) : Shape :=
  .record [("numFound", .required, .nat64), ("start", .required, .nat64),
    ("docs", .required, .list document), ("maxScore", .optional, .double),
    ("numFoundExact", .optional, .boolean)]

theorem restricts (documents : Restricts document (Document.decode : Decoder D) Document.encode) :
    Restricts (shape document) (decode (D := D)) encode := by
  apply restricts_closed (fun p : Page D => _)
  · rfl
  · intro depth find p shallow read
    obtain ⟨found, start, listed, score, exactly⟩ := built read
    simp only [restrictMembers, members_required restricts_nat64 shallow found,
      members_required restricts_nat64 shallow start,
      members_required (restricts_list documents) shallow listed,
      members_optional restricts_double shallow score,
      members_optional restricts_boolean shallow exactly, Option.bind_eq_bind, Option.bind_some,
      Option.pure_def]
    simp

end Page

namespace Selection

def shape (document : Shape) : Shape :=
  .record [("responseHeader", .required, Header.shape),
    ("response", .required, Page.shape document)]

theorem restricts (documents : Restricts document (Document.decode : Decoder D) Document.encode) :
    Restricts (shape document) (decode (D := D)) encode := by
  apply restricts_closed (fun s : Selection D => _)
  · rfl
  · intro depth find s shallow read
    obtain ⟨header, page⟩ := built read
    simp only [restrictMembers, members_required Header.restricts shallow header,
      members_required (Page.restricts documents) shallow page, Option.bind_eq_bind,
      Option.bind_some, Option.pure_def]
    rfl

end Selection

namespace Group

def shape (document : Shape) : Shape :=
  .record [("groupValue", .required, .any), ("doclist", .required, Page.shape document)]

theorem restricts (documents : Restricts document (Document.decode : Decoder D) Document.encode) :
    Restricts (shape document) (decode (D := D)) encode := by
  apply restricts_closed (fun g : Group D => _)
  · rfl
  · intro depth find g shallow read
    obtain ⟨value, page⟩ := built read
    simp only [restrictMembers, members_required restricts_value shallow value,
      members_required (Page.restricts documents) shallow page, Option.bind_eq_bind,
      Option.bind_some, Option.pure_def]
    rfl

end Group

namespace Grouping

def shape (document : Shape) : Shape :=
  .record [("matches", .required, .nat64), ("ngroups", .optional, .nat64),
    ("groups", .required, .list (Group.shape document))]

theorem restricts (documents : Restricts document (Document.decode : Decoder D) Document.encode) :
    Restricts (shape document) (decode (D := D)) encode := by
  apply restricts_closed (fun g : Grouping D => _)
  · rfl
  · intro depth find g shallow read
    obtain ⟨found, count, groups⟩ := built read
    simp only [restrictMembers, members_required restricts_nat64 shallow found,
      members_optional restricts_nat64 shallow count,
      members_required (restricts_list (Group.restricts documents)) shallow groups,
      Option.bind_eq_bind, Option.bind_some, Option.pure_def]
    simp

end Grouping

namespace Grouped

def shape (document : Shape) : Shape :=
  .record [("responseHeader", .required, Header.shape),
    ("grouped", .required, .map (Grouping.shape document))]

theorem restricts (documents : Restricts document (Document.decode : Decoder D) Document.encode) :
    Restricts (shape document) (decode (D := D)) encode := by
  apply restricts_closed (fun g : Grouped D => _)
  · rfl
  · intro depth find g shallow read
    obtain ⟨header, groupings⟩ := built read
    simp only [restrictMembers, members_required Header.restricts shallow header,
      members_required (restricts_map (Grouping.restricts documents)) shallow groupings,
      Option.bind_eq_bind, Option.bind_some, Option.pure_def]
    rfl

end Grouped
end Documents

/-- What is written for an answer that was read is read as the same answer, if each double in
it is. -/
def Stable {α : Type} (decode : Decoder α) (encode : α → Json) : Prop :=
  ∀ text a, decodeText decode .service text = .ok a → (encode a).Every Number.isSteady →
    decodeText decode .service (encode a).compact = .ok a

/-- What is written for an answer that was read is what the shape leaves of the text; where the
shape leaves nothing, the text is not read. -/
def Trimmed {α : Type} (shape : Shape) (decode : Decoder α) (encode : α → Json) : Prop :=
  ∀ text a, decodeText decode .service text = .ok a →
    shape.restrict (outline .service text).root = some (encode a)

theorem stable_of_recodes {α : Type} {decode : Decoder α} {encode : α → Json}
    (codes : Recodes 127 decode encode) : Stable decode encode :=
  fun _ _ read steady => decodeText_compact codes read steady

theorem trimmed_of_restricts {α : Type} {shape : Shape} {decode : Decoder α}
    {encode : α → Json} (restricts : Restricts shape decode encode) :
    Trimmed shape decode encode := by
  intro text a read
  exact restricts 127 _ a (within_outline text) (decodeText_eq_ok.mp read).1

/-- Answers of all kinds are stable, over documents that are. Those that list free documents
are what their shapes leave of the texts: all else is taken away, and nothing is changed. -/
theorem answers_restated (D : Type) [Document D] [Document.Lawful D] :
    (Stable Header.decode Header.encode ∧ Stable Acknowledgement.decode Acknowledgement.encode ∧
      Stable (Page.decode (D := D)) Page.encode ∧
      Stable (Selection.decode (D := D)) Selection.encode ∧
      Stable (Grouped.decode (D := D)) Grouped.encode ∧
      Stable (FacetedGroups.decode (D := D)) FacetedGroups.encode ∧
      Stable FacetCounts.decode FacetCounts.encode ∧ Stable FacetNode.decode FacetNode.encode ∧
      Stable Bucket.decode Bucket.encode) ∧
    Trimmed (Selection.shape .any) (Selection.decode (D := Json)) Selection.encode ∧
    Trimmed (Grouped.shape .any) (Grouped.decode (D := Json)) Grouped.encode := by
  have documents (depth : Nat) (deep : 120 ≤ depth) :
      Recodes depth (Document.decode : Decoder D) Document.encode :=
    Document.Lawful.recodes depth deep
  have free : Restricts .any (Document.decode : Decoder Json) Document.encode := restricts_value
  refine ⟨⟨?_, ?_, ?_, ?_, ?_, ?_, ?_, ?_, ?_⟩, ?_, ?_⟩
  · exact stable_of_recodes (Header.recodes 125)
  · exact stable_of_recodes (Acknowledgement.recodes 124)
  · exact stable_of_recodes (Page.recodes (documents 125 (by decide)))
  · exact stable_of_recodes (Selection.recodes (documents 124 (by decide)))
  · exact stable_of_recodes (Grouped.recodes (documents 120 (by decide)))
  · exact stable_of_recodes (FacetedGroups.recodes (documents 120 (by decide)))
  · exact stable_of_recodes (FacetCounts.recodes 126)
  · exact stable_of_recodes (FacetNode.recodes 124)
  · exact stable_of_recodes (Bucket.recodes 126)
  · exact trimmed_of_restricts (Selection.restricts free)
  · exact trimmed_of_restricts (Grouped.restricts free)

/-- A header in the form of an array, a score that is whole, and one that is not. -/
theorem answers_restated_film :
    ∃ s : Selection Film,
      decodeText Selection.decode .service (Json.object
        [("responseHeader", .array [.ofNat 0, .ofNat 3]), ("response", .object
          [("numFound", .ofNat 1), ("maxScore", .ofNat 7), ("start", .ofNat 0), ("docs", .array
            [.object [("name", .string "Alpha"), ("score", .ofDouble (.ofDecimal false ⟨15, -1⟩)),
              ("id", .string "1")]])])]).compact = .ok s ∧
      decodeText Selection.decode .service s.encode.compact = .ok s := by
  let film : Film := ⟨"1", "Alpha", [], none, some (.ofDecimal false ⟨15, -1⟩)⟩
  let s : Selection Film := ⟨⟨0, 3, []⟩, ⟨1, 0, [film], some (.ofInt 7), none⟩⟩
  have steady : s.encode.Every Number.isSteady := by decide +kernel
  have again {text : String} (read : decodeText Selection.decode .service text = .ok s) :
      _ ∧ decodeText Selection.decode .service s.encode.compact = .ok s :=
    ⟨read, (answers_restated Film).1.2.2.2.1 text s read steady⟩
  exact ⟨s, again (by decide +kernel)⟩

end Solr.Answer
