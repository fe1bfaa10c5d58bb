import Solr.Http.Request
import Solr.Proofs.Url.Parse

/-! The target of a request as its receiver takes it apart: no path runs on into the query, and
the parameters are received as they were given, behind what the URL has of its own. -/
namespace Solr

namespace Url

theorem question_notMem_escapePath (s : List Char) : '?' ∉ escapePath s := by
  intro member
  obtain ⟨c, -, member⟩ := List.mem_flatMap.mp member
  split at member
  · rename_i plain
    rw [← List.mem_singleton.mp member] at plain
    exact absurd plain (by decide)
  · obtain ⟨b, -, member⟩ := List.mem_flatMap.mp member
    exact escapeByte_chars member (by decide)

theorem question_notMem_path {url : List Char} {u : Parts} (parsed : parse? url = some u) :
    '?' ∉ u.path := by
  obtain ⟨_, more, -, path, -⟩ := parse?_eq_some_iff.mp parsed
  rw [path, pathOf]
  split
  · decide
  · exact question_notMem_escapePath _

namespace Parts

theorem decode_lead (u : Parts) (pairs : List (String × String)) :
    Form.decode (u.lead ++ Form.encode pairs) = u.pairs ++ pairs := by
  unfold lead Parts.pairs
  cases u.query with
  | none => exact Form.decode_encode pairs
  | some query =>
    cases query with
    | nil => exact Form.decode_encode pairs
    | cons c query =>
      dsimp only
      rw [List.append_assoc, List.singleton_append, Form.decode_append, Form.decode_encode]

end Parts
end Url

namespace Http

/-- The pairs after the path of a target, if there are any. -/
def received (target : List Char) : Parameters :=
  match Text.splitOnce? '?' target with
  | some (_, query) => Url.Form.decode query
  | none => []

/-- The pairs that the URL of a request has of its own. -/
def Request.ownPairs (r : Request) : Parameters :=
  match Url.parse? r.url.toList with
  | some u => u.pairs
  | none => []

section Targets

variable {r : Request} {target : List Char}

theorem Request.target?_eq_some_iff : r.target? = some target ↔
    ∃ u, Url.parse? r.url.toList = some u ∧ u.target r.parameters = target :=
  Option.map_eq_some_iff

/-- A target is divided where its path ends, and only if a query follows. -/
theorem splitOnce?_target {u : Url.Parts} (path : '?' ∉ u.path) (pairs : Parameters) :
    Text.splitOnce? '?' (u.target pairs) =
      if pairs = [] then u.query.map (u.path, ·)
      else some (u.path, u.lead ++ Url.Form.encode pairs) := by
  unfold Url.Parts.target
  by_cases empty : pairs = []
  · rw [if_pos empty, if_pos empty]
    cases u.query with
    | none => exact Text.splitOnce?_of_notMem path
    | some query => exact Text.splitOnce?_append path query
  · rw [if_neg empty, if_neg empty, Text.splitOnce?_append path]

/-- Only the first question mark begins the query. -/
example : (Request.withParameters (.get "http://h/solr?y=z/a?b/select#c") [("q", "x")]).target? =
    some "/solr?y=z/a?b/select&q=x".toList := by
  decide +kernel

/-- A request is received with the parameters that it was given, after those of its URL. -/
theorem received_target (sent : r.target? = some target) :
    received target = r.ownPairs ++ r.parameters := by
  obtain ⟨u, parsed, rfl⟩ := Request.target?_eq_some_iff.mp sent
  have own : r.ownPairs = u.pairs := by rw [Request.ownPairs, parsed]
  rw [received, own, splitOnce?_target (Url.question_notMem_path parsed)]
  by_cases empty : r.parameters = []
  · rw [if_pos empty, empty, List.append_nil]
    unfold Url.Parts.pairs
    cases u.query <;> rfl
  · rw [if_neg empty]
    exact u.decode_lead r.parameters

theorem ownPairs_eq_nil (noMark : '?' ∉ r.url.toList) : r.ownPairs = [] := by
  unfold Request.ownPairs
  cases parsed : Url.parse? r.url.toList with
  | none => rfl
  | some u =>
    dsimp only
    rw [Url.Parts.pairs, Url.query_eq_none parsed noMark]

/-- A target whose URL has no question mark has one only in front of parameters. -/
theorem question_mem_target_iff (noMark : '?' ∉ r.url.toList) (sent : r.target? = some target) :
    '?' ∈ target ↔ r.parameters ≠ [] := by
  obtain ⟨u, parsed, rfl⟩ := Request.target?_eq_some_iff.mp sent
  have path := Url.question_notMem_path parsed
  unfold Url.Parts.target
  by_cases empty : r.parameters = []
  · simp [empty, Url.query_eq_none parsed noMark, path]
  · simp [empty]

end Targets
end Http
end Solr
