import Solr.Document
import Solr.Proofs.Json.Records

/-! Documents that can be read, written, and read again. -/
namespace Solr

open Json Members

/-- What is read as a document is written as one, and read again as the same. It is enough
that this holds at the depths at which documents stand in an answer. -/
class Document.Lawful (D : Type) [Document D] : Prop where
  recodes : ∀ depth, 120 ≤ depth → Recodes depth (Document.decode : Decoder D) Document.encode

instance : Document.Lawful Json where
  recodes depth _ := recodes_value depth

theorem recodes_strings (depth : Nat) :
    Recodes (depth + 1) (Decode.list Decode.string) Json.ofStrings :=
  recodes_list recodes_string

namespace Boosted

variable {α : Type} {depth : Nat} {d : Decoder α} {write : α → Json}

theorem recodes (codes : Recodes depth d write) : Recodes depth (decode d) (encode write) := by
  intro n b within read
  obtain ⟨a, plainly, rfl⟩ := map_eq_ok.mp read
  obtain ⟨within, again⟩ := codes n a within plainly
  exact ⟨within, map_eq_ok.mpr ⟨a, again, rfl⟩⟩

end Boosted

namespace Film

theorem built {find : String → Option Node} {f : Film} (built : members.build find = .ok f) :
    (Members.required "id" Decode.string).build find = .ok f.id ∧
      (Members.required "name" Decode.string).build find = .ok f.name ∧
      (Members.defaulted "genre" [] (Decode.list Decode.string)).build find = .ok f.genre ∧
      (Members.optional "year" Decode.int64).build find = .ok f.year ∧
      (Members.optional "score" Decode.double).build find = .ok f.score := by
  obtain ⟨_, score, toYear, fifth, rfl⟩ := build_seq_eq_ok.mp built
  obtain ⟨_, year, toGenre, fourth, rfl⟩ := build_seq_eq_ok.mp toYear
  obtain ⟨_, genre, toName, third, rfl⟩ := build_seq_eq_ok.mp toGenre
  obtain ⟨_, name, toId, second, rfl⟩ := build_seq_eq_ok.mp toName
  obtain ⟨id, first, rfl⟩ := build_map_eq_ok.mp toId
  exact ⟨first, second, third, fourth, fifth⟩

theorem rebuilds_genre {depth : Nat} {find : String → Option Node}
    (shallow : Shallow (depth + 1) find) {genre : List String}
    (built : (Members.defaulted "genre" [] (Decode.list Decode.string)).build find = .ok genre) :
    (Members.defaulted "genre" [] (Decode.list Decode.string)).Rebuilds (depth + 1) genre
      (if genre = [] then [] else [("genre", .ofStrings genre)]) := by
  by_cases empty : genre = []
  · rw [if_pos empty, empty]
    exact rebuilds_nothing "genre" [] _
  · rw [if_neg empty]
    exact rebuilds_defaulted (recodes_strings depth) (fun same => absurd same empty) shallow built

theorem recodes (depth : Nat) :
    Recodes (depth + 2) (Document.decode : Decoder Film) Document.encode := by
  apply recodes_closed (fun f : Film => _)
  · decide
  · intro find f shallow read
    obtain ⟨id, name, genre, year, score⟩ := built read
    have years : Recodes (depth + 1) (Decode.optional Decode.int64) (.ofOption .ofInt) :=
      recodes_ofOption recodes_int64 (Decode.integer_null _ _ _)
    exact ((((rebuilds_required recodes_string shallow id).map mk).seq
      (rebuilds_required recodes_string shallow name)).seq
      (rebuilds_genre shallow genre)).seq
      (rebuilds_defaulted years (fun same => same ▸ ⟨trivial, rfl⟩) shallow year) |>.seq
      (rebuilds_optional recodes_double Decode.double_null shallow score)

instance : Document.Lawful Film where
  recodes depth deep := by
    obtain ⟨less, rfl⟩ : ∃ less, depth = less + 2 := ⟨depth - 2, by omega⟩
    exact recodes less

end Film

namespace Article

theorem built {find : String → Option Node} {a : Article} (built : members.build find = .ok a) :
    (Members.required "id" Decode.string).build find = .ok a.id ∧
      (Members.required "title" (Boosted.decode Decode.string)).build find = .ok a.title ∧
      (Members.required "tags" (Boosted.decode (Decode.list Decode.string))).build find =
        .ok a.tags := by
  obtain ⟨_, tags, toTitle, third, rfl⟩ := build_seq_eq_ok.mp built
  obtain ⟨_, title, toId, second, rfl⟩ := build_seq_eq_ok.mp toTitle
  obtain ⟨id, first, rfl⟩ := build_map_eq_ok.mp toId
  exact ⟨first, second, third⟩

theorem recodes (depth : Nat) :
    Recodes (depth + 2) (Document.decode : Decoder Article) Document.encode := by
  apply recodes_closed (fun a : Article => _)
  · decide
  · intro find a shallow read
    obtain ⟨id, title, tags⟩ := built read
    exact (((rebuilds_required recodes_string shallow id).map mk).seq
      (rebuilds_required (Boosted.recodes recodes_string) shallow title)).seq
      (rebuilds_required (Boosted.recodes (recodes_strings depth)) shallow tags)

instance : Document.Lawful Article where
  recodes depth deep := by
    obtain ⟨less, rfl⟩ : ∃ less, depth = less + 2 := ⟨depth - 2, by omega⟩
    exact recodes less

end Article
end Solr
