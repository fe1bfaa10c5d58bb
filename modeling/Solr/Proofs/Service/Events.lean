import Mathlib.Algebra.Group.Prod
import Solr.Proofs.Service.Sending

/-! The events of a session against what its steps did. Their lines in the log are not looked
at, nor the time at which they are written. -/
namespace Solr

namespace Service

/-- The event that goes with a request: method, URL, and how many parameters it has. -/
def Event.ofRequest (r : Http.Request) : Event :=
  .sending r.method r.url r.parameters.length

namespace Event

def isSending : Event → Bool
  | .sending .. => true
  | _ => false

def isRefused : Event → Bool
  | .refused .. => true
  | _ => false

def isCommitted : Event → Bool
  | .committed _ => true
  | _ => false

end Event

/-- The warning that goes with a refusal. -/
def Failure.warnings (url : String) : Failure → List Event
  | .status code _ => [.refused code url]
  | _ => []

namespace Outcome

variable {α β : Type}

/-- The service answered, and refused. -/
def isRefused (o : Outcome α) : Bool :=
  match o.result with
  | .error (.status ..) => true
  | _ => false

def warnings (url : String) (o : Outcome α) : List Event :=
  match o.result with
  | .error f => f.warnings url
  | .ok _ => []

theorem warnings_map (url : String) (f : α → β) (o : Outcome α) :
    (o.map f).warnings url = o.warnings url := by
  unfold warnings map
  cases o.result <;> rfl

end Outcome

namespace Collection

variable {α D : Type}

theorem send_events (c : Collection) (decode : Json.Decoder α) (r : Http.Request)
    (delivery : Http.Delivery) :
    (c.send decode r delivery).events =
      Event.ofRequest r :: (c.send decode r delivery).warnings r.url := by
  rw [Event.ofRequest, send, Outcome.warnings]
  cases delivery.receive (c.limit r) with
  | error fault => rfl
  | ok reply =>
    dsimp only [read]
    split
    · cases Json.decodeText decode .service reply.text <;> rfl
    · rfl

theorem ask_events (c : Collection) (decode : Json.Decoder α) (query : Json) (o : Http.Options)
    (delivery : Http.Delivery) :
    (c.ask decode query o delivery).events =
      (c.ask decode query o delivery).request.toList.map Event.ofRequest ++
        (c.ask decode query o delivery).warnings (c.url "select") := by
  unfold ask
  cases Parameters.flatten query with
  | error e => rfl
  | ok parameters =>
    dsimp only
    rw [send_events, send_request]
    rfl

/-- What is told of a change, with the acknowledgement that it is told from. -/
theorem change_events (c : Collection) (body : String) (o : Http.Options)
    (delivery : Http.Delivery) :
    (∃ a, (c.send Answer.Acknowledgement.decode (c.changeRequest body o) delivery).result = .ok a ∧
      (c.change body o delivery).result = .ok () ∧
      (c.change body o delivery).events =
        [.ofRequest (c.changeRequest body o), .committed a.header.queryTime]) ∨
    (∃ e, (c.change body o delivery).result = .error e ∧
      (c.change body o delivery).events =
        Event.ofRequest (c.changeRequest body o) ::
          (c.change body o delivery).warnings (c.url "update")) := by
  have events := c.send_events Answer.Acknowledgement.decode (c.changeRequest body o) delivery
  unfold change
  dsimp only
  generalize sent : c.send Answer.Acknowledgement.decode (c.changeRequest body o) delivery = outcome
    at events ⊢
  cases result : outcome.result with
  | ok a =>
    refine .inl ⟨a, rfl, rfl, ?_⟩
    rw [events, Outcome.warnings, result]
    rfl
  | error e =>
    refine .inr ⟨e, rfl, ?_⟩
    rw [events, Outcome.warnings, result]
    rfl

end Collection

variable {D : Type} [Document D]

/-- What is told of an operation before anything else. -/
def Operation.opening (c : Collection) : Operation D → List Event
  | .update updates => [.updating c.name updates.length]
  | .remove _ => [.removing c.name]
  | .select _ | .selectGroups _ | .selectFacets _ => []

/-- Whether a step is a change that succeeded, by what came of it. -/
def Step.changes (s : Step D) (o : Outcome (Option Json)) : Bool :=
  s.operation.isChange && o.result.isOk

/-- The last event of a step: the time of the acknowledgement of a change that succeeded. -/
inductive Committed (c : Collection) (s : Step D) (o : Outcome (Option Json)) :
    List Event → Prop
  | acknowledged {reply : Http.Reply} {a : Answer.Acknowledgement} (changes : s.changes o = true)
    (received : s.Receives c reply) (status : 200 ≤ reply.status ∧ reply.status ≤ 299)
    (read : Json.decodeText Answer.Acknowledgement.decode .service reply.text = .ok a) :
    Committed c s o [.committed a.header.queryTime]
  | nothing (unchanged : s.changes o = false) : Committed c s o []

/-- What a step tells, in this order. -/
def Told (c : Collection) (s : Step D) (o : Outcome (Option Json)) : Prop :=
  ∃ committed, Committed c s o committed ∧
    o.events = s.operation.opening c ++ o.request.toList.map Event.ofRequest ++
      o.warnings (c.url s.operation.handler) ++ committed

section Steps

variable (c : Collection) (s : Step D)

theorem told_query {α : Type} (decode : Json.Decoder α) (encode : α → Option Json) (query : Json)
    (isQuery : s.operation.isChange = false) (silent : s.operation.opening c = [])
    (performed : s.perform c = (c.ask decode query s.options s.delivery).map encode) :
    Told c s (s.perform c) := by
  refine ⟨[], .nothing ?_, ?_⟩
  · rw [Step.changes, isQuery, Bool.false_and]
  · have handler : s.operation.handler = "select" := by
      rw [Operation.handler, isQuery]
      rfl
    rw [performed, silent, handler, List.append_nil, List.nil_append]
    have events := c.ask_events decode query s.options s.delivery
    generalize c.ask decode query s.options s.delivery = asked at events ⊢
    rw [Outcome.warnings_map]
    exact events

theorem told_change (body : String) (isChange : s.operation.isChange = true)
    (performed : s.perform c = ((c.change body s.options s.delivery).after
      (s.operation.opening c)).map fun _ => none) :
    Told c s (s.perform c) := by
  have handler : s.operation.handler = "update" := by
    rw [Operation.handler, isChange]
    rfl
  have request := c.change_request body s.options s.delivery
  obtain ⟨a, sent, result, events⟩ | ⟨e, result, events⟩ :=
    c.change_events body s.options s.delivery
  · rw [Collection.send_result, Collection.limit_changeRequest, ← Step.patience_eq] at sent
    obtain ⟨reply, received, status, read⟩ := resultOf_eq_ok_iff.mp sent
    refine ⟨_, .acknowledged ?_ (Http.Delivery.receive_eq_ok_iff.mp received) status read, ?_⟩
    · rw [Step.changes, isChange, performed, Outcome.map, Outcome.after, result]
      rfl
    · simp [performed, Outcome.map, Outcome.after, Outcome.warnings, Except.map, result, events,
        request]
  · refine ⟨[], .nothing ?_, ?_⟩
    · rw [Step.changes, isChange, performed, Outcome.map, Outcome.after, result]
      rfl
    · rw [performed, handler, Outcome.warnings_map]
      simp [Outcome.map, Outcome.after, Outcome.warnings, result, events, request]

/-- What one step tells. -/
theorem Step.told : Told c s (s.perform c) := by
  obtain ⟨operation, options, delivery⟩ := s
  cases operation with
  | select query =>
    exact told_query c _ (Answer.Selection.decode (D := D)) _ query rfl rfl rfl
  | selectGroups query =>
    exact told_query c _ (Answer.Grouped.decode (D := D)) _ query rfl rfl rfl
  | selectFacets query =>
    exact told_query c _ (Answer.FacetedGroups.decode (D := D)) _ query rfl rfl rfl
  | update updates => exact told_change c _ (Update.body updates) rfl rfl
  | remove deletion => exact told_change c _ deletion.body rfl rfl

end Steps

section Counts

/-- How many requests, refusals and acknowledgements are told. -/
def tally (events : List Event) : Nat × Nat × Nat :=
  (events.countP Event.isSending, events.countP Event.isRefused, events.countP Event.isCommitted)

theorem tally_append (first second : List Event) :
    tally (first ++ second) = tally first + tally second := by
  simp only [tally, List.countP_append, Prod.mk_add_mk]

theorem tally_sendings (requests : List Http.Request) :
    tally (requests.map Event.ofRequest) = (requests.length, 0, 0) := by
  simp [tally, List.countP_map, List.countP_eq_length, List.countP_eq_zero, Event.ofRequest,
    Event.isSending, Event.isRefused, Event.isCommitted]

variable {c : Collection} {s : Step D} {o : Outcome (Option Json)}

omit [Document D] in
theorem tally_opening (operation : Operation D) : tally (operation.opening c) = 0 := by
  cases operation <;> rfl

theorem tally_warnings (url : String) : tally (o.warnings url) = (0, o.isRefused.toNat, 0) := by
  unfold Outcome.warnings Failure.warnings Outcome.isRefused
  cases o.result with
  | ok a => rfl
  | error f => cases f <;> rfl

omit [Document D] in
theorem Committed.tally_eq {events : List Event} (committed : Committed c s o events) :
    tally events = (0, 0, (s.changes o).toNat) := by
  cases committed with
  | acknowledged changes =>
    rw [changes]
    rfl
  | nothing unchanged =>
    rw [unchanged]
    rfl

omit [Document D] in
theorem Told.tally_eq (told : Told c s o) :
    tally o.events = (o.request.toList.length, o.isRefused.toNat, (s.changes o).toNat) := by
  obtain ⟨last, committed, events⟩ := told
  rw [events, tally_append, tally_append, tally_append, tally_opening, tally_sendings,
    tally_warnings, committed.tally_eq]
  simp

/-- The requests that were issued. -/
def issued (outcomes : List (Outcome (Option Json))) : List Http.Request :=
  outcomes.flatMap fun o => o.request.toList

/-- The steps that are changes and succeeded. -/
def changed (steps : List (Step D)) (outcomes : List (Outcome (Option Json))) : Nat :=
  (steps.zip outcomes).countP fun p => p.1.changes p.2

omit [Document D] in
/-- What holds of each step adds up over a run. -/
theorem tally_run {steps : List (Step D)} {outcomes : List (Outcome (Option Json))}
    (told : List.Forall₂ (Told c) steps outcomes) :
    tally (outcomes.flatMap Outcome.events) =
      ((issued outcomes).length, outcomes.countP Outcome.isRefused, changed steps outcomes) := by
  induction told with
  | nil => rfl
  | @cons s o steps outcomes first _ ih =>
    rw [List.flatMap_cons, tally_append, first.tally_eq, ih, issued, issued, List.flatMap_cons,
      List.length_append, changed, changed, List.zip_cons_cons, List.countP_cons, List.countP_cons]
    cases o.isRefused <;> cases s.changes o <;> simp [Nat.add_comm]

end Counts

/-- Each step of a session tells what it does, in order. Over the whole session as many
requests are told as were issued, as many warnings as there were refusals, and as many
acknowledgements as changes that succeeded. -/
theorem session_told (c : Collection) (steps : List (Step D)) :
    List.Forall₂ (Told c) steps (session c steps) ∧
    ((session c steps).flatMap Outcome.events).countP Event.isSending =
      (issued (session c steps)).length ∧
    ((session c steps).flatMap Outcome.events).countP Event.isRefused =
      (session c steps).countP Outcome.isRefused ∧
    ((session c steps).flatMap Outcome.events).countP Event.isCommitted =
      changed steps (session c steps) := by
  have told : List.Forall₂ (Told c) steps (session c steps) :=
    List.forall₂_map_right_iff.mpr (List.forall₂_same.mpr fun s _ => s.told c)
  have counts := tally_run told
  simp only [tally, Prod.mk.injEq] at counts
  exact ⟨told, counts⟩

end Service
end Solr
