import Solr.Proofs.Http.Headers

/-! A request that is built up call by call. Options that come later add headers and no more:
a name keeps the value that it has, and what the request says itself goes before all of them.
Limits are the other way round, and the last one counts. -/
namespace Solr.Http

/-- A header that passes the checks on its name and on its value. -/
structure Header where
  name : String
  value : String
  named : (headerName? name).isSome
  valued : isHeaderValue value

/-- A type of body that no request has of its own. -/
def Header.plainText : Header where
  name := "Content-Type"
  value := "text/plain"
  named := by decide
  valued := by decide

/-- One thing that a caller says in making up options. -/
inductive Setting where
  | header (h : Header)
  | limit (milliseconds : Nat)

/-- One call on a request. -/
inductive Call where
  | parameters (parameters : Parameters)
  | options (settings : List Setting)

namespace Options

def apply (o : Options) : Setting → Except HeaderFault Options
  | .header h => o.addHeader h.name h.value
  | .limit milliseconds => .ok (o.limitTo milliseconds)

def build (settings : List Setting) : Except HeaderFault Options :=
  settings.foldlM apply .empty

end Options

namespace Request

/-- A request with a body, or without one. -/
def start (url : String) : Option String → Request
  | none => get url
  | some body => postJson url body

def apply (r : Request) : Call → Except HeaderFault Request
  | .parameters parameters => .ok (r.withParameters parameters)
  | .options settings => (Options.build settings).map r.withOptions

def build (r : Request) (calls : List Call) : Except HeaderFault Request :=
  calls.foldlM apply r

end Request

/-- What the last of the steps that say anything of a matter says of it. -/
def lastOf {α β : Type} (said : α → Option β) (steps : List α) : Option β :=
  steps.reverse.findSome? said

def Setting.given? : Setting → Option (String × String)
  | .header h => some (h.name, h.value)
  | .limit _ => none

def Setting.limit? : Setting → Option Nat
  | .header _ => none
  | .limit milliseconds => some milliseconds

/-- The headers that settings give, in order. -/
def headersOf (settings : List Setting) : List (String × String) :=
  settings.filterMap Setting.given?

namespace Call

def parameters? : Call → Option Parameters
  | .parameters given => some given
  | .options _ => none

def headers? : Call → Option (List (String × String))
  | .parameters _ => none
  | .options settings => some (headersOf settings)

def limit? : Call → Option Nat
  | .parameters _ => none
  | .options settings => lastOf Setting.limit? settings

end Call

/-- What a request says of itself: the type of its body. -/
def ownHeaders : Option String → List (String × String)
  | none => []
  | some _ => [("content-type", "application/json")]

/-- What the headers of a request come from: itself, and then its options in order. -/
def layers (body : Option String) (calls : List Call) : List (List (String × String)) :=
  ownHeaders body :: calls.filterMap Call.headers?

/-- The value of a name in the first layer that names it. Within a layer the last one counts. -/
def firstGiven (layers : List (List (String × String))) (name : String) : Option String :=
  layers.findSome? fun given => lastGiven given name

theorem lastOf_concat {α β : Type} (said : α → Option β) (steps : List α) (last : α) :
    lastOf said (steps ++ [last]) = (said last).or (lastOf said steps) := by
  rw [lastOf, List.reverse_append, List.findSome?_append, List.reverse_singleton,
    List.findSome?_singleton, ← lastOf]

/-- One step more, if those before it went through. -/
theorem foldlM_concat {ε α β : Type} (step : β → α → Except ε β) (start : β) (steps : List α)
    (last : α) : (steps ++ [last]).foldlM step start =
      (steps.foldlM step start).bind fun reached => step reached last := by
  rw [List.foldlM_append]
  simp only [List.foldlM_cons, List.foldlM_nil, bind_pure]
  rfl

theorem firstGiven_concat (layers : List (List (String × String)))
    (given : List (String × String)) (name : String) :
    firstGiven (layers ++ [given]) name = (firstGiven layers name).or (lastGiven given name) := by
  rw [firstGiven, List.findSome?_append, ← firstGiven, List.findSome?_singleton]

theorem layers_concat (body : Option String) (calls : List Call) (c : Call) :
    layers body (calls ++ [c]) = layers body calls ++ c.headers?.toList := by
  rw [layers, List.filterMap_append, ← List.cons_append, ← layers]
  cases c <;> rfl

theorem lastGiven_eq_none_iff (given : List (String × String)) (name : String) :
    lastGiven given name = none ↔ ∀ p ∈ given, ¬ SameName p.1 name := by
  simp [lastGiven]

theorem firstGiven_eq_none_iff (layers : List (List (String × String))) (name : String) :
    firstGiven layers name = none ↔ ∀ given ∈ layers, ∀ p ∈ given, ¬ SameName p.1 name := by
  rw [firstGiven, List.findSome?_eq_none_iff]
  exact forall₂_congr fun given _ => lastGiven_eq_none_iff given name

namespace Options

theorem addHeader_header (o : Options) (h : Header) : o.addHeader h.name h.value =
    .ok { o with headers := o.headers.insert (lowered h.name) h.value } := by
  obtain ⟨key, valid⟩ := Option.isSome_iff_exists.mp h.named
  rw [addHeader, valid, headerName?_eq_some valid]
  exact if_pos h.valued

/-- Settings make options: the headers are the ones given, the limit is the last one named. -/
theorem build_given (settings : List Setting) :
    ∃ o, build settings = .ok o ∧ Given (headersOf settings) o ∧
      o.timeout = lastOf Setting.limit? settings := by
  induction settings using List.reverseRecOn with
  | nil => exact ⟨.empty, rfl, .empty, rfl⟩
  | append_singleton settings s ih =>
    obtain ⟨o, built, reached, limit⟩ := ih
    rw [build, foldlM_concat, ← build, built, lastOf_concat, ← limit, headersOf,
      List.filterMap_append]
    cases s with
    | header h =>
      have added := o.addHeader_header h
      exact ⟨_, added, reached.header added, rfl⟩
    | limit milliseconds =>
      refine ⟨o.limitTo milliseconds, rfl, ?_, rfl⟩
      exact (List.append_nil (headersOf settings)).symm ▸ reached.limit milliseconds

end Options

namespace Headers

/-- Headers that come from several layers. -/
structure Layered (layers : List (List (String × String))) (h : Headers) : Prop where
  kept : h.Kept
  values : ∀ name, h.values name = (firstGiven layers name).toList

theorem Kept.addAll {h own : Headers} (kept : h.Kept) (ownKept : own.Kept) :
    Kept (Entries.addAll h own) where
  sorted := Entries.addAll_sorted own kept.sorted
  lower := by
    intro p member
    rcases Entries.mem_addAll member with inside | inside
    · exact ownKept.lower p inside
    · exact kept.lower p inside

/-- What a request has of a name goes before what it is given. -/
theorem Kept.values_addAll {h own : Headers} (kept : h.Kept) (ownKept : own.Kept) (name : String) :
    values (Entries.addAll h own) name =
      if own.values name = [] then h.values name else own.values name := by
  have once := List.nodup_iff_count_le_one.mp ownKept.sorted.nodup_keys (lowered name)
  rw [(kept.addAll ownKept).values_eq, kept.values_eq, ownKept.values_eq, Entries.get?_addAll,
    Entries.get?_reverse once]
  cases Entries.get? own (lowered name) <;> simp

/-- Options are one layer more, below the others. -/
theorem Layered.addAll {layers : List (List (String × String))} {given : List (String × String)}
    {own : Headers} {o : Options} (layered : own.Layered layers) (reached : o.Given given) :
    Layered (layers ++ [given]) (Entries.addAll o.headers own) where
  kept := reached.kept.addAll layered.kept
  values := by
    intro name
    rw [reached.kept.values_addAll layered.kept, reached.values, layered.values, firstGiven_concat]
    cases firstGiven layers name <;> simp

end Headers

namespace Request

/-- What a request is after some calls: what they leave alone, and what they say. -/
structure Built (address : String) (content : Option String) (calls : List Call) (r : Request) :
    Prop where
  url : r.url = address
  method : r.method = if content.isSome then .post else .get
  body : r.body = content
  parameters : r.parameters = (lastOf Call.parameters? calls).getD []
  headers : r.headers.Layered (layers content calls)
  timeout : r.timeout = lastOf Call.limit? calls

theorem built_start (address : String) (content : Option String) :
    Built address content [] (start address content) := by
  cases content with
  | none => exact ⟨rfl, rfl, rfl, rfl, ⟨⟨.nil, by simp [start, get]⟩, fun _ => rfl⟩, rfl⟩
  | some body =>
    refine ⟨rfl, rfl, rfl, rfl, ⟨⟨List.pairwise_singleton _ _, ?_⟩, fun name => ?_⟩, rfl⟩
    · exact List.forall_mem_singleton.mpr (by decide)
    · by_cases same : SameName "content-type" name <;>
        simp [start, postJson, Headers.values, layers, ownHeaders, firstGiven, lastGiven, same]

/-- A call says one thing, and takes nothing back but parameters and limits. -/
theorem Built.step {address : String} {content : Option String} {calls : List Call} {r : Request}
    (built : Built address content calls r) (c : Call) :
    ∃ r', r.apply c = .ok r' ∧ Built address content (calls ++ [c]) r' := by
  cases c with
  | parameters given =>
    refine ⟨r.withParameters given, rfl, built.url, built.method, built.body, ?_, ?_, ?_⟩
    · rw [lastOf_concat]
      rfl
    · rw [layers_concat]
      exact (List.append_nil (layers content calls)).symm ▸ built.headers
    · rw [lastOf_concat]
      exact built.timeout
  | options settings =>
    obtain ⟨o, said, reached, limit⟩ := Options.build_given settings
    have applied : r.apply (.options settings) = .ok (r.withOptions o) := by
      rw [apply, said]
      rfl
    refine ⟨r.withOptions o, applied, built.url, built.method, built.body, ?_, ?_, ?_⟩
    · rw [lastOf_concat]
      exact built.parameters
    · rw [layers_concat]
      exact built.headers.addAll reached
    · rw [lastOf_concat, ← built.timeout]
      exact congrArg (Option.or · r.timeout) limit

theorem built_calls (address : String) (content : Option String) (calls : List Call) :
    ∃ r, (start address content).build calls = .ok r ∧ Built address content calls r := by
  induction calls using List.reverseRecOn with
  | nil => exact ⟨_, rfl, built_start address content⟩
  | append_singleton calls c ih =>
    obtain ⟨r, reached, built⟩ := ih
    rw [build, foldlM_concat, ← build, reached]
    exact built.step c

/-- Whatever calls there are on a request, all of them go through. They leave alone where it goes
and what it carries; each name has one value at most, that of the first to name it, and has one
if anybody does. -/
theorem calls_layered (address : String) (content : Option String) (calls : List Call) :
    ∃ r, (start address content).build calls = .ok r ∧
      r.url = address ∧ r.method = (if content.isSome then .post else .get) ∧ r.body = content ∧
      r.parameters = (lastOf Call.parameters? calls).getD [] ∧
      (∀ name, r.headers.values name = (firstGiven (layers content calls) name).toList ∧
        (r.headers.values name = [] ↔
          ∀ given ∈ layers content calls, ∀ p ∈ given, ¬ SameName p.1 name)) ∧
      r.timeout = lastOf Call.limit? calls := by
  obtain ⟨r, reached, built⟩ := built_calls address content calls
  refine ⟨r, reached, built.url, built.method, built.body, built.parameters, fun name => ?_,
    built.timeout⟩
  refine ⟨built.headers.values name, ?_⟩
  rw [built.headers.values, ← firstGiven_eq_none_iff]
  cases firstGiven (layers content calls) name <;> simp

/-- A body stays what it is, however the caller names its type. -/
example : (start "http://solr/films" (some "{}")).build [.options [.header .plainText]] =
    .ok (start "http://solr/films" (some "{}")) := by
  decide

end Request
end Solr.Http
