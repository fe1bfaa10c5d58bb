import Solr.Answer.Facets
import Solr.Proofs.Document.Lawful

/-! Answers of every kind can be read, written, and read again, over documents that can. -/
namespace Solr.Answer

open Json Members Record

namespace Header

theorem built {find : String → Option Node} {h : Header} (built : members.build find = .ok h) :
    (Members.required "status" Decode.int64).build find = .ok h.status ∧
      (Members.required "QTime" Decode.nat64).build find = .ok h.queryTime ∧
      (Members.defaulted "params" [] (Decode.map Decode.value)).build find = .ok h.parameters := by
  obtain ⟨_, parameters, toTime, third, rfl⟩ := build_seq_eq_ok.mp built
  obtain ⟨_, time, toStatus, second, rfl⟩ := build_seq_eq_ok.mp toTime
  obtain ⟨status, first, rfl⟩ := build_map_eq_ok.mp toStatus
  exact ⟨first, second, third⟩

/-- Parameters are written even where there are none. -/
theorem recodes (depth : Nat) : Recodes (depth + 2) decode encode := by
  apply recodes_closed (fun h : Header => _)
  · decide
  · intro find h shallow read
    obtain ⟨status, time, parameters⟩ := built read
    have echoed : Recodes (depth + 1) (Decode.map Decode.value) Json.object := by
      simpa using recodes_map (recodes_value depth)
    have none : h.parameters = [] → (Node.ofJson (.object h.parameters)).Within (depth + 1) ∧
        Decode.map Decode.value (.ofJson (.object h.parameters)) = .ok h.parameters := by
      intro empty
      rw [empty]
      exact ⟨within_ofObject.mpr (by simp), rfl⟩
    exact (((rebuilds_required recodes_int64 shallow status).map mk).seq
      (rebuilds_required recodes_nat64 shallow time)).seq
      (rebuilds_defaulted echoed none shallow parameters)

end Header

namespace Acknowledgement

theorem recodes (depth : Nat) : Recodes (depth + 3) decode encode := by
  apply recodes_closed (fun a : Acknowledgement => _)
  · decide
  · intro find a shallow read
    obtain ⟨header, first, rfl⟩ := build_map_eq_ok.mp read
    exact (rebuilds_required (Header.recodes depth) shallow first).map mk

end Acknowledgement

section Documents

variable {D : Type} [Document D] {depth : Nat}

namespace Page

theorem built {find : String → Option Node} {p : Page D} (built : members.build find = .ok p) :
    (Members.required "numFound" Decode.nat64).build find = .ok p.found ∧
      (Members.required "start" Decode.nat64).build find = .ok p.start ∧
      (Members.required "docs" (Decode.list Document.decode)).build find = .ok p.documents ∧
      (Members.optional "maxScore" Decode.double).build find = .ok p.maxScore ∧
      (Members.optional "numFoundExact" Decode.boolean).build find = .ok p.foundExactly := by
  obtain ⟨_, exact, toScore, fifth, rfl⟩ := build_seq_eq_ok.mp built
  obtain ⟨_, score, toDocuments, fourth, rfl⟩ := build_seq_eq_ok.mp toScore
  obtain ⟨_, documents, toStart, third, rfl⟩ := build_seq_eq_ok.mp toDocuments
  obtain ⟨_, start, toFound, second, rfl⟩ := build_seq_eq_ok.mp toStart
  obtain ⟨found, first, rfl⟩ := build_map_eq_ok.mp toFound
  exact ⟨first, second, third, fourth, fifth⟩

theorem recodes (documents : Recodes depth (Document.decode : Decoder D) Document.encode) :
    Recodes (depth + 2) (decode (D := D)) encode := by
  apply recodes_closed (fun p : Page D => _)
  · change ["numFound", "start", "docs", "maxScore", "numFoundExact"].Nodup
    decide
  · intro find p shallow read
    obtain ⟨found, start, listed, score, exactly⟩ := built read
    exact ((((rebuilds_required recodes_nat64 shallow found).map mk).seq
      (rebuilds_required recodes_nat64 shallow start)).seq
      (rebuilds_required (recodes_list documents) shallow listed)).seq
      (rebuilds_optional recodes_double Decode.double_null shallow score) |>.seq
      (rebuilds_optional recodes_boolean Decode.boolean_null shallow exactly)

end Page

namespace Selection

theorem built {find : String → Option Node} {s : Selection D}
    (built : members.build find = .ok s) :
    (Members.required "responseHeader" Header.decode).build find = .ok s.header ∧
      (Members.required "response" (Page.decode (D := D))).build find = .ok s.page := by
  obtain ⟨_, page, toHeader, second, rfl⟩ := build_seq_eq_ok.mp built
  obtain ⟨header, first, rfl⟩ := build_map_eq_ok.mp toHeader
  exact ⟨first, second⟩

theorem recodes (documents : Recodes depth (Document.decode : Decoder D) Document.encode) :
    Recodes (depth + 3) (decode (D := D)) encode := by
  apply recodes_closed (fun s : Selection D => _)
  · change ["responseHeader", "response"].Nodup
    decide
  · intro find s shallow read
    obtain ⟨header, page⟩ := built read
    exact ((rebuilds_required (Header.recodes depth) shallow header).map mk).seq
      (rebuilds_required (Page.recodes documents) shallow page)

end Selection

namespace Group

theorem built {find : String → Option Node} {g : Group D} (built : members.build find = .ok g) :
    (Members.required "groupValue" Decode.value).build find = .ok g.value ∧
      (Members.required "doclist" (Page.decode (D := D))).build find = .ok g.page := by
  obtain ⟨_, page, toValue, second, rfl⟩ := build_seq_eq_ok.mp built
  obtain ⟨value, first, rfl⟩ := build_map_eq_ok.mp toValue
  exact ⟨first, second⟩

theorem recodes (documents : Recodes depth (Document.decode : Decoder D) Document.encode) :
    Recodes (depth + 3) (decode (D := D)) encode := by
  apply recodes_closed (fun g : Group D => _)
  · change ["groupValue", "doclist"].Nodup
    decide
  · intro find g shallow read
    obtain ⟨value, page⟩ := built read
    exact ((rebuilds_required (recodes_value _) shallow value).map mk).seq
      (rebuilds_required (Page.recodes documents) shallow page)

end Group

namespace Grouping

theorem built {find : String → Option Node} {g : Grouping D} (built : members.build find = .ok g) :
    (Members.required "matches" Decode.nat64).build find = .ok g.found ∧
      (Members.optional "ngroups" Decode.nat64).build find = .ok g.groupCount ∧
      (Members.required "groups" (Decode.list (Group.decode (D := D)))).build find =
        .ok g.groups := by
  obtain ⟨_, groups, toCount, third, rfl⟩ := build_seq_eq_ok.mp built
  obtain ⟨_, count, toFound, second, rfl⟩ := build_seq_eq_ok.mp toCount
  obtain ⟨found, first, rfl⟩ := build_map_eq_ok.mp toFound
  exact ⟨first, second, third⟩

theorem recodes (documents : Recodes depth (Document.decode : Decoder D) Document.encode) :
    Recodes (depth + 5) (decode (D := D)) encode := by
  apply recodes_closed (fun g : Grouping D => _)
  · change ["matches", "ngroups", "groups"].Nodup
    decide
  · intro find g shallow read
    obtain ⟨found, count, groups⟩ := built read
    exact (((rebuilds_required recodes_nat64 shallow found).map mk).seq
      (rebuilds_optional recodes_nat64 Decode.nat64_null shallow count)).seq
      (rebuilds_required (recodes_list (Group.recodes documents)) shallow groups)

end Grouping

namespace Grouped

theorem built {find : String → Option Node} {g : Grouped D} (built : members.build find = .ok g) :
    (Members.required "responseHeader" Header.decode).build find = .ok g.header ∧
      (Members.required "grouped" (Decode.map (Grouping.decode (D := D)))).build find =
        .ok g.groupings := by
  obtain ⟨_, groupings, toHeader, second, rfl⟩ := build_seq_eq_ok.mp built
  obtain ⟨header, first, rfl⟩ := build_map_eq_ok.mp toHeader
  exact ⟨first, second⟩

theorem recodes (documents : Recodes depth (Document.decode : Decoder D) Document.encode) :
    Recodes (depth + 7) (decode (D := D)) encode := by
  apply recodes_closed (fun g : Grouped D => _)
  · change ["responseHeader", "grouped"].Nodup
    decide
  · intro find g shallow read
    obtain ⟨header, groupings⟩ := built read
    exact ((rebuilds_required (Header.recodes (depth + 4)) shallow header).map mk).seq
      (rebuilds_required (recodes_map (Grouping.recodes documents)) shallow groupings)

end Grouped
end Documents

namespace Bucket

theorem recodes (depth : Nat) : Recodes (depth + 1) decode encode := by
  apply recodes_opened
  · decide
  · intro find make shallow read
    obtain ⟨_, count, toValue, second, rfl⟩ := build_seq_eq_ok.mp read
    obtain ⟨value, first, rfl⟩ := build_map_eq_ok.mp toValue
    exact ⟨_, ((rebuilds_required (recodes_value depth) shallow first).map _).seq
      (rebuilds_required recodes_nat64 shallow second), fun _ => rfl⟩

end Bucket

namespace FacetNode

theorem recodes (depth : Nat) : Recodes (depth + 3) decode encode := by
  apply recodes_opened
  · decide
  · intro find make shallow read
    obtain ⟨_, buckets, toCount, second, rfl⟩ := build_seq_eq_ok.mp read
    obtain ⟨count, first, rfl⟩ := build_map_eq_ok.mp toCount
    have none : buckets = [] →
        (Node.ofJson (.array (buckets.map Bucket.encode))).Within (depth + 2) ∧
        Decode.list Bucket.decode (.ofJson (.array (buckets.map Bucket.encode))) = .ok buckets := by
      intro empty
      rw [empty]
      exact ⟨within_ofArray.mpr (by simp), rfl⟩
    exact ⟨_, ((rebuilds_optional recodes_nat64 Decode.nat64_null shallow first).map _).seq
      (rebuilds_defaulted (recodes_list (Bucket.recodes depth)) none shallow second),
      fun _ => by simp [encode, List.append_assoc]⟩

end FacetNode

namespace FacetCounts

theorem recodes (depth : Nat) : Recodes (depth + 1) decode encode := by
  apply recodes_opened
  · decide
  · intro find make shallow read
    obtain ⟨count, first, rfl⟩ := build_map_eq_ok.mp read
    have none : count = 0 → (Node.ofJson (.ofNat count)).Within depth ∧
        Decode.nat64 (.ofJson (.ofNat count)) = .ok count := by
      rintro rfl
      exact ⟨⟨by decide, by decide⟩, rfl⟩
    exact ⟨_, (rebuilds_defaulted recodes_nat64 none shallow first).map _, fun _ => rfl⟩

end FacetCounts

namespace FacetedGroups

variable {D : Type} [Document D] {depth : Nat}

/-- The groups are read from the members that are not declared. -/
theorem decode_eq_ok {n : Node} {g : FacetedGroups D} :
    decode n = .ok g ↔ ∃ others, Record.opened "FacetGroupResponse" members n =
      .ok (g.facets, others) ∧ Grouped.decode (.object (named others) .closed) = .ok g.grouped := by
  simp only [decode, bind_eq_ok, mapError_eq_ok]
  constructor
  · rintro ⟨⟨facets, others⟩, opened, grouped, read, same⟩
    obtain rfl := Except.ok.inj same
    exact ⟨others, opened, read⟩
  · rintro ⟨others, opened, read⟩
    exact ⟨_, opened, _, read, rfl⟩

theorem empty_recodes (depth : Nat) :
    (Node.ofJson FacetCounts.empty.encode).Within (depth + 1) ∧
      FacetCounts.decode (.ofJson FacetCounts.empty.encode) = .ok FacetCounts.empty := by
  refine ⟨within_ofObject.mpr ?_, rfl⟩
  intro p member
  obtain rfl := List.mem_singleton.mp member
  exact ⟨by decide, by decide⟩

/-- The groups stand beside the facets, which are written even where there are none. -/
theorem recodes (documents : Recodes depth (Document.decode : Decoder D) Document.encode) :
    Recodes (depth + 7) (decode (D := D)) encode := by
  intro n g within read
  obtain ⟨others, opened, readGroups⟩ := decode_eq_ok.mp read
  obtain ⟨found, rfl, built, rfl⟩ := opened_eq_ok opened
  have inside := within_named within
  have rebuilds : members.Rebuilds (depth + 6) g.facets [("facets", g.facets.encode)] :=
    rebuilds_defaulted (FacetCounts.recodes (depth + 5))
      (fun same => same ▸ empty_recodes (depth + 5)) (shallow_find? inside) built
  have left : (Node.object (named (found.filter fun p => !declares members.slots p.1))
      .closed).Within (depth + 7) := by
    refine ⟨Nat.succ_pos _, withinMembers_iff.mpr ?_⟩
    intro m member
    obtain ⟨p, kept, rfl⟩ := List.mem_map.mp member
    exact inside p (List.mem_filter.mp kept).1
  obtain ⟨groupsWithin, groupsAgain⟩ := Grouped.recodes documents _ g.grouped left readGroups
  refine ⟨within_ofObject.mpr (List.forall_mem_append.mpr
    ⟨within_ofObject.mp groupsWithin, rebuilds.within⟩), ?_⟩
  have once : ((g.grouped.fields ++ [("facets", g.facets.encode)]).map (·.1)).Nodup := by
    change ["responseHeader", "grouped", "facets"].Nodup
    decide
  have reopened : Record.opened "FacetGroupResponse" members (.ofJson g.encode) =
      .ok (g.facets, g.grouped.fields.map fun p => (p.1, Node.ofJson p.2)) :=
    opened_ofObject "FacetGroupResponse" (by decide) once rebuilds fun p _ _ => value_ofJson p.2
  refine decode_eq_ok.mpr ⟨_, reopened, ?_⟩
  rw [← named_ofMembers]
  exact groupsAgain

end FacetedGroups

end Solr.Answer
