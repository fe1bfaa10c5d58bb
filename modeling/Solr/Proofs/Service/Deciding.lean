import Mathlib.Data.List.Forall2
import Solr.Proofs.Service.Asking
import Solr.Service.Session

/-! What comes of an operation. Its query is looked at first, then how the request fares,
then the status of the reply, and last the body. -/
namespace Solr

namespace Http.Delivery

theorem receive_eq_ok_iff {limit : Option Nat} {d : Delivery} {reply : Reply} :
    d.receive limit = .ok reply ↔
      ∃ delay, d = .answered reply delay ∧ ∀ most, limit = some most → delay ≤ most := by
  cases d with
  | unreachable | dropped => simp [receive]
  | answered other delay =>
    cases limit with
    | none => simp [receive]
    | some most =>
      by_cases late : most < delay
      · simp [receive, late]
      · simp [receive, late]
        omega

theorem receive_late {reply : Reply} {delay most : Nat} (late : most < delay) :
    (answered reply delay).receive (some most) = .error .timeout := by
  simp [receive, late]

end Http.Delivery

namespace Service

variable {D : Type} [Document D]

/-- The parameters that an operation is sent with; those of all changes are the same. -/
def Operation.parameters : Operation D → Except FlattenError Parameters
  | .select query | .selectGroups query | .selectFacets query => Parameters.flatten query
  | .update _ | .remove _ => .ok [("commit", "true")]

def Operation.isChange : Operation D → Bool
  | .update _ | .remove _ => true
  | _ => false

/-- What an operation makes of the text of a body. -/
def Operation.answer (o : Operation D) (text : String) :
    Except Json.ReadError (Option Json) :=
  match o with
  | .select _ =>
    (Json.decodeText Answer.Selection.decode .service text).map
      fun (a : Answer.Selection D) => some a.encode
  | .selectGroups _ =>
    (Json.decodeText Answer.Grouped.decode .service text).map
      fun (a : Answer.Grouped D) => some a.encode
  | .selectFacets _ =>
    (Json.decodeText Answer.FacetedGroups.decode .service text).map
      fun (a : Answer.FacetedGroups D) => some a.encode
  | .update _ | .remove _ =>
    (Json.decodeText Answer.Acknowledgement.decode .service text).map fun _ => none

omit [Document D] in
theorem Operation.parameters_change {o : Operation D} (change : o.isChange = true) :
    o.parameters = .ok [("commit", "true")] := by
  cases o with
  | select | selectGroups | selectFacets => cases change
  | update | remove => rfl

theorem Operation.answer_change {o : Operation D} (change : o.isChange = true) (text : String) :
    o.answer text =
      (Json.decodeText Answer.Acknowledgement.decode .service text).map fun _ => none := by
  cases o with
  | select | selectGroups | selectFacets => cases change
  | update | remove => rfl

namespace Step

/-- How long a step waits for a reply: the limit of its own options, even if it is the
longer one, or else that of the settings. -/
def patience (c : Collection) (s : Step D) : Option Nat :=
  match s.options.timeout with
  | some milliseconds => some milliseconds
  | none => c.settings.requestTimeout

/-- A reply comes, and in time. -/
def Receives (c : Collection) (s : Step D) (reply : Http.Reply) : Prop :=
  ∃ delay, s.delivery = .answered reply delay ∧ ∀ most, s.patience c = some most → delay ≤ most

end Step

/-- What comes of a step: how many requests reach the service, and the result. -/
inductive Decided (c : Collection) (s : Step D) : Nat → Except Failure (Option Json) → Prop
  | unsent {e : FlattenError} (flattened : s.operation.parameters = .error e) :
    Decided c s 0 (.error (.parameters e))
  /-- No connection is made. -/
  | unreachable {p : Parameters} (flattened : s.operation.parameters = .ok p)
    (delivery : s.delivery = .unreachable) : Decided c s 0 (.error (.transport .connection))
  | dropped {p : Parameters} (flattened : s.operation.parameters = .ok p)
    (delivery : s.delivery = .dropped) : Decided c s 1 (.error (.transport .connection))
  | late {p : Parameters} {reply : Http.Reply} {delay most : Nat}
    (flattened : s.operation.parameters = .ok p) (delivery : s.delivery = .answered reply delay)
    (patience : s.patience c = some most) (late : most < delay) :
    Decided c s 1 (.error (.transport .timeout))
  | status {p : Parameters} {reply : Http.Reply} (flattened : s.operation.parameters = .ok p)
    (received : s.Receives c reply) (status : reply.status < 200 ∨ 299 < reply.status) :
    Decided c s 1 (.error (.status reply.status reply.text))
  | unreadable {p : Parameters} {reply : Http.Reply} {e : Json.ReadError}
    (flattened : s.operation.parameters = .ok p) (received : s.Receives c reply)
    (status : 200 ≤ reply.status ∧ reply.status ≤ 299)
    (answer : s.operation.answer reply.text = .error e) : Decided c s 1 (.error (.unreadable e))
  | answered {p : Parameters} {reply : Http.Reply} {a : Option Json}
    (flattened : s.operation.parameters = .ok p) (received : s.Receives c reply)
    (status : 200 ≤ reply.status ∧ reply.status ≤ 299)
    (answer : s.operation.answer reply.text = .ok a) : Decided c s 1 (.ok a)

section Results

variable {α β : Type}

/-- A reply counts by its status, and only then by its body. -/
def judge (read : String → Except Json.ReadError α) (reply : Http.Reply) : Except Failure α :=
  if reply.succeeded then (read reply.text).mapError .unreadable
  else .error (.status reply.status reply.text)

/-- The result of a request for whose reply so much time is given. -/
def resultOf (read : String → Except Json.ReadError α) (limit : Option Nat)
    (delivery : Http.Delivery) : Except Failure α :=
  match delivery.receive limit with
  | .error fault => .error (.transport fault)
  | .ok reply => judge read reply

theorem judge_failed {reply : Http.Reply} (status : reply.status < 200 ∨ 299 < reply.status)
    (read : String → Except Json.ReadError α) :
    judge read reply = .error (.status reply.status reply.text) := by
  have failed : reply.succeeded ≠ true := by
    simp only [Http.Reply.succeeded, ne_eq, Bool.and_eq_true, decide_eq_true_eq]
    omega
  exact if_neg failed

theorem judge_succeeded {reply : Http.Reply}
    (status : 200 ≤ reply.status ∧ reply.status ≤ 299)
    (read : String → Except Json.ReadError α) :
    judge read reply = (read reply.text).mapError .unreadable := by
  have succeeded : reply.succeeded = true := by
    simpa only [Http.Reply.succeeded, Bool.and_eq_true, decide_eq_true_eq] using status
  exact if_pos succeeded

theorem judge_eq_ok_iff {read : String → Except Json.ReadError α} {reply : Http.Reply} {a : α} :
    judge read reply = .ok a ↔
      (200 ≤ reply.status ∧ reply.status ≤ 299) ∧ read reply.text = .ok a := by
  by_cases status : 200 ≤ reply.status ∧ reply.status ≤ 299
  · rw [judge_succeeded status]
    cases read reply.text <;> simp [Except.mapError, status]
  · rw [judge_failed (by omega)]
    simp [status]

theorem resultOf_eq_ok_iff {read : String → Except Json.ReadError α} {limit : Option Nat}
    {delivery : Http.Delivery} {a : α} :
    resultOf read limit delivery = .ok a ↔
      ∃ reply, delivery.receive limit = .ok reply ∧
        (200 ≤ reply.status ∧ reply.status ≤ 299) ∧ read reply.text = .ok a := by
  unfold resultOf
  cases delivery.receive limit with
  | error fault => simp
  | ok reply => simp [judge_eq_ok_iff]

theorem map_resultOf (f : α → β) (read : String → Except Json.ReadError α) (limit : Option Nat)
    (delivery : Http.Delivery) :
    (resultOf read limit delivery).map f =
      resultOf (fun text => (read text).map f) limit delivery := by
  unfold resultOf
  cases delivery.receive limit with
  | error fault => rfl
  | ok reply =>
    dsimp only [judge]
    split
    · cases read reply.text <;> rfl
    · rfl

end Results

namespace Collection

variable {α β : Type}

theorem send_result (c : Collection) (decode : Json.Decoder α) (r : Http.Request)
    (delivery : Http.Delivery) :
    (c.send decode r delivery).result =
      resultOf (Json.decodeText decode .service) (c.limit r) delivery := by
  unfold send resultOf
  cases delivery.receive (c.limit r) with
  | error fault => rfl
  | ok reply =>
    dsimp only [read, judge]
    split <;> rfl

theorem limit_queryRequest (c : Collection) (parameters : Parameters) (o : Http.Options) :
    c.limit (c.queryRequest parameters o) = o.timeout.or c.settings.requestTimeout := by
  simp [limit, queryRequest, Http.Request.withOptions, Http.Request.withParameters,
    Http.Request.get]

theorem limit_changeRequest (c : Collection) (body : String) (o : Http.Options) :
    c.limit (c.changeRequest body o) = o.timeout.or c.settings.requestTimeout := by
  simp [limit, changeRequest, Http.Request.withOptions, Http.Request.withParameters,
    Http.Request.postJson]

theorem ask_result (c : Collection) (decode : Json.Decoder α) (f : α → β) (query : Json)
    (o : Http.Options) (delivery : Http.Delivery) :
    ((c.ask decode query o delivery).map f).result =
      match Parameters.flatten query with
      | .error e => .error (.parameters e)
      | .ok _ => resultOf (fun text => (Json.decodeText decode .service text).map f)
          (o.timeout.or c.settings.requestTimeout) delivery := by
  unfold ask
  cases Parameters.flatten query with
  | error e => rfl
  | ok parameters =>
    dsimp only [Outcome.map]
    rw [send_result, limit_queryRequest, map_resultOf]

theorem change_result (c : Collection) (f : Unit → β) (body : String) (o : Http.Options)
    (delivery : Http.Delivery) :
    (c.change body o delivery).result.map f =
      resultOf (fun text => (Json.decodeText Answer.Acknowledgement.decode .service text).map
        fun _ => f ()) (o.timeout.or c.settings.requestTimeout) delivery := by
  rw [← map_resultOf, ← limit_changeRequest c body o, ← send_result]
  unfold change
  dsimp only
  cases (c.send Answer.Acknowledgement.decode (c.changeRequest body o) delivery).result <;> rfl

theorem isSome_ask_request (c : Collection) (decode : Json.Decoder α) (query : Json)
    (o : Http.Options) (delivery : Http.Delivery) :
    (c.ask decode query o delivery).request.isSome = (Parameters.flatten query).isOk := by
  cases flat : Parameters.flatten query with
  | error e =>
    rw [ask, flat]
    rfl
  | ok parameters =>
    rw [c.ask_request decode flat]
    rfl

theorem isSome_change_request (c : Collection) (body : String) (o : Http.Options)
    (delivery : Http.Delivery) :
    (c.change body o delivery).request.isSome = true := by
  rw [change_request]
  rfl

end Collection

namespace Step

section Receiving

omit [Document D]

theorem Receives.receive {c : Collection} {s : Step D} {reply : Http.Reply}
    (received : s.Receives c reply) : s.delivery.receive (s.patience c) = .ok reply :=
  Http.Delivery.receive_eq_ok_iff.mpr received

theorem Receives.arrives {c : Collection} {s : Step D} {reply : Http.Reply}
    (received : s.Receives c reply) : s.delivery.arrives = true := by
  obtain ⟨delay, delivery, -⟩ := received
  rw [delivery]
  rfl

theorem patience_eq (c : Collection) (s : Step D) :
    s.patience c = s.options.timeout.or c.settings.requestTimeout := by
  unfold patience
  cases s.options.timeout <;> rfl

end Receiving

/-- Nothing but the parameters, the delivery and the time given decides on a result. -/
theorem perform_result (c : Collection) (s : Step D) :
    (s.perform c).result =
      match s.operation.parameters with
      | .error e => .error (.parameters e)
      | .ok _ => resultOf s.operation.answer (s.patience c) s.delivery := by
  rw [patience_eq]
  obtain ⟨operation, options, delivery⟩ := s
  cases operation with
  | select query => exact c.ask_result _ _ query options delivery
  | selectGroups query => exact c.ask_result _ _ query options delivery
  | selectFacets query => exact c.ask_result _ _ query options delivery
  | update updates => exact c.change_result _ (Update.body updates) options delivery
  | remove deletion => exact c.change_result _ deletion.body options delivery

/-- One request is issued, unless there are no parameters for it. -/
theorem isSome_perform_request (c : Collection) (s : Step D) :
    (s.perform c).request.isSome = s.operation.parameters.isOk := by
  obtain ⟨operation, options, delivery⟩ := s
  cases operation with
  | select query =>
    exact c.isSome_ask_request (α := Answer.Selection D) _ query options delivery
  | selectGroups query =>
    exact c.isSome_ask_request (α := Answer.Grouped D) _ query options delivery
  | selectFacets query =>
    exact c.isSome_ask_request (α := Answer.FacetedGroups D) _ query options delivery
  | update updates => exact c.isSome_change_request (Update.body updates) options delivery
  | remove deletion => exact c.isSome_change_request deletion.body options delivery

theorem length_seen (c : Collection) (s : Step D) :
    (s.seen c).length =
      if s.delivery.arrives && s.operation.parameters.isOk then 1 else 0 := by
  rw [← isSome_perform_request c s, seen]
  cases s.delivery.arrives with
  | false => rfl
  | true => cases (s.perform c).request <;> rfl

end Step

/-- What is decided of a step is what the step does. -/
theorem Decided.sound {c : Collection} {s : Step D} {n : Nat}
    {result : Except Failure (Option Json)} (decided : Decided c s n result) :
    n = (s.seen c).length ∧ result = (s.perform c).result := by
  rw [s.length_seen, s.perform_result]
  cases decided with
  | unsent flattened =>
    rw [flattened]
    simp [Except.isOk, Except.toBool]
  | unreachable flattened delivery =>
    rw [flattened, delivery]
    exact ⟨rfl, rfl⟩
  | dropped flattened delivery =>
    rw [flattened, delivery]
    exact ⟨rfl, rfl⟩
  | late flattened delivery patience late =>
    rw [flattened, delivery, patience]
    refine ⟨rfl, ?_⟩
    dsimp only [resultOf]
    rw [Http.Delivery.receive_late late]
  | status flattened received status =>
    rw [flattened, received.arrives]
    refine ⟨rfl, ?_⟩
    dsimp only [resultOf]
    rw [received.receive]
    exact (judge_failed status _).symm
  | unreadable flattened received status answer =>
    rw [flattened, received.arrives]
    refine ⟨rfl, ?_⟩
    dsimp only [resultOf]
    rw [received.receive]
    dsimp only
    rw [judge_succeeded status, answer]
    rfl
  | answered flattened received status answer =>
    rw [flattened, received.arrives]
    refine ⟨rfl, ?_⟩
    dsimp only [resultOf]
    rw [received.receive]
    dsimp only
    rw [judge_succeeded status, answer]
    rfl

/-- Something is decided of every step. -/
theorem Step.decided (c : Collection) (s : Step D) :
    ∃ n result, Decided c s n result := by
  cases flattened : s.operation.parameters with
  | error e => exact ⟨_, _, .unsent flattened⟩
  | ok p =>
    cases delivery : s.delivery with
    | unreachable => exact ⟨_, _, .unreachable flattened delivery⟩
    | dropped => exact ⟨_, _, .dropped flattened delivery⟩
    | answered reply delay =>
      by_cases late : ∃ most, s.patience c = some most ∧ most < delay
      · obtain ⟨most, patience, late⟩ := late
        exact ⟨_, _, .late flattened delivery patience late⟩
      · have received : s.Receives c reply := by
          refine ⟨delay, delivery, fun most patience => ?_⟩
          by_contra longer
          exact late ⟨most, patience, by omega⟩
        by_cases status : 200 ≤ reply.status ∧ reply.status ≤ 299
        · cases answer : s.operation.answer reply.text with
          | error e => exact ⟨_, _, .unreadable flattened received status answer⟩
          | ok a => exact ⟨_, _, .answered flattened received status answer⟩
        · exact ⟨_, _, .status flattened received (by omega)⟩

theorem decided_iff (c : Collection) (s : Step D) (n : Nat)
    (result : Except Failure (Option Json)) :
    Decided c s n result ↔ n = (s.seen c).length ∧ result = (s.perform c).result := by
  constructor
  · exact Decided.sound
  · rintro ⟨rfl, rfl⟩
    obtain ⟨n, result, decided⟩ := s.decided c
    obtain ⟨rfl, rfl⟩ := decided.sound
    exact decided

/-- A change succeeds exactly when it is acknowledged in time. -/
theorem Step.change_succeeds_iff (c : Collection) (s : Step D)
    (change : s.operation.isChange = true) :
    (∃ a, (s.perform c).result = .ok a) ↔
      ∃ reply, s.Receives c reply ∧ (200 ≤ reply.status ∧ reply.status ≤ 299) ∧
        ∃ a, Json.decodeText Answer.Acknowledgement.decode .service reply.text = .ok a := by
  have answers (text : String) : s.operation.answer text =
      (Json.decodeText Answer.Acknowledgement.decode .service text).map fun _ => none :=
    Operation.answer_change change text
  constructor
  · rintro ⟨a, succeeded⟩
    have decided := (decided_iff c s _ _).mpr ⟨rfl, succeeded.symm⟩
    generalize (s.seen c).length = n at decided
    cases decided with
    | @answered _ reply _ flattened received status answer =>
      rw [answers] at answer
      cases read : Json.decodeText Answer.Acknowledgement.decode .service reply.text with
      | error e =>
        rw [read] at answer
        cases answer
      | ok acknowledgement => exact ⟨reply, received, status, acknowledgement, read⟩
  · rintro ⟨reply, received, status, acknowledgement, read⟩
    have answer : s.operation.answer reply.text = .ok none := by
      rw [answers, read]
      rfl
    have decided := Decided.answered (Operation.parameters_change change) received status answer
    exact ⟨none, decided.sound.2.symm⟩

/-- In a session each step is decided on by itself, and in one way. One request is issued, and
none without parameters. A change succeeds exactly when it is acknowledged in time. -/
theorem session_decided (c : Collection) (steps : List (Step D)) :
    List.Forall₂ (fun s o =>
      o.request.isSome = s.operation.parameters.isOk ∧
      (∀ n result, Decided c s n result ↔ n = (s.seen c).length ∧ result = o.result) ∧
      (s.operation.isChange = true → ((∃ a, o.result = .ok a) ↔
        ∃ reply, s.Receives c reply ∧ (200 ≤ reply.status ∧ reply.status ≤ 299) ∧
          ∃ a, Json.decodeText Answer.Acknowledgement.decode .service reply.text = .ok a)))
      steps (session c steps) := by
  apply List.forall₂_map_right_iff.mpr
  apply List.forall₂_same.mpr
  intro s _
  exact ⟨s.isSome_perform_request c, decided_iff c s, s.change_succeeds_iff c⟩

end Service
end Solr
