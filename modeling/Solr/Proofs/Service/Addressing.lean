import Solr.Proofs.Service.Events
import Solr.Proofs.Service.Sending
import Solr.Proofs.Url.Paths

/-! Where the requests of a client go. Base URL and name are put together as the texts that they
are, so collections are told apart by what their names stand for in a path, not by the names
themselves: a name may end the path, lead out of it, or hold escapes. -/
namespace Solr

open Text (utf8)
open Url (HoldsEscape Kept unescape)

/-- Scheme, host and base path of a URL, for whatever slashes the path ends in. -/
structure BaseUrl where
  scheme : String
  host : String
  path : String
  web : Url.isWeb scheme.toList = true
  host_ne_nil : host.toList ≠ []
  host_chars : ∀ c ∈ host.toList, Url.endsAuthority c = false ∧ Url.isMargin c = false
  path_rooted : path.toList = [] ∨ ∃ rest, path.toList = '/' :: rest

namespace Settings

theorem toList_trimSlashes (s : String) :
    (trimSlashes s).toList = (s.toList.reverse.dropWhile (· = '/')).reverse :=
  String.toList_ofList

/-- Slashes are trimmed from what follows a text that does not end in one. -/
theorem trimSlashes_append {s : String} {c : Char} (last : s.toList.getLast? = some c)
    (noSlash : c ≠ '/') (path : String) : trimSlashes (s ++ path) = s ++ trimSlashes path := by
  obtain ⟨front, whole⟩ := List.getLast?_eq_some_iff.mp last
  apply String.toList_inj.mp
  rw [toList_trimSlashes, String.toList_append, String.toList_append, toList_trimSlashes,
    List.reverse_append, whole, List.dropWhile_append]
  cases trimmed : List.dropWhile (fun d => decide (d = '/')) path.toList.reverse with
  | nil => simp [noSlash]
  | cons d rest => simp

theorem trimSlashes_slashes (s : String) (n : Nat) :
    trimSlashes (s ++ String.ofList (List.replicate n '/')) = trimSlashes s := by
  unfold trimSlashes
  congr 2
  rw [String.toList_append, String.toList_ofList, List.reverse_append, List.reverse_replicate]
  exact List.dropWhile_append_of_pos (by simp)

end Settings

namespace BaseUrl

variable (b : BaseUrl)

def text : String :=
  b.scheme ++ "://" ++ b.host ++ b.path

/-- The base URL of a service that is named nowhere. -/
def standard : BaseUrl where
  scheme := "http"
  host := "localhost:8983"
  path := "/solr"
  web := by decide
  host_ne_nil := by decide
  host_chars := by simp [Url.endsAuthority, Url.slashed, Url.endsPath, Url.isMargin]
  path_rooted := .inr ⟨"solr".toList, rfl⟩

theorem text_standard : standard.text = Settings.defaultBaseUrl := by
  decide

/-- The base path without the slashes at its end. -/
def root : String :=
  Settings.trimSlashes b.path

theorem trimSlashes_text :
    Settings.trimSlashes b.text = b.scheme ++ "://" ++ b.host ++ b.root := by
  have last : (b.scheme ++ "://" ++ b.host).toList.getLast? =
      some (b.host.toList.getLast b.host_ne_nil) := by
    rw [String.toList_append, List.getLast?_append_of_ne_nil _ b.host_ne_nil,
      List.getLast?_eq_getLast_of_ne_nil b.host_ne_nil]
  have inside := (b.host_chars _ (List.getLast_mem b.host_ne_nil)).1
  refine Settings.trimSlashes_append last (fun slash => ?_) b.path
  rw [slash] at inside
  cases inside

theorem root_cases : b.root.toList = [] ∨ ∃ rest, b.root.toList = '/' :: rest := by
  have initial : b.root.toList <+: b.path.toList := by
    rw [root, Settings.toList_trimSlashes, ← List.reverse_suffix, List.reverse_reverse]
    exact List.dropWhile_suffix _
  rcases b.path_rooted with empty | ⟨rest, rooted⟩
  · rw [empty, List.prefix_nil] at initial
    exact .inl initial
  · rw [rooted, List.prefix_cons_iff] at initial
    rcases initial with empty | ⟨trimmed, root, -⟩
    · exact .inl empty
    · exact .inr ⟨trimmed, root⟩

/-- What follows the host begins with a slash. -/
theorem root_rooted (more : List Char) : ∃ rest, b.root.toList ++ '/' :: more = '/' :: rest := by
  rcases b.root_cases with empty | ⟨rest, rooted⟩
  · exact ⟨more, by rw [empty, List.nil_append]⟩
  · exact ⟨rest ++ '/' :: more, by rw [rooted, List.cons_append]⟩

theorem front_root (kept : Kept b.root.toList) : Url.front b.root.toList = b.root.toList := by
  rcases b.root_cases with empty | ⟨rest, rooted⟩
  · rw [empty, Url.front_nil]
  · rw [rooted] at kept ⊢
    exact Url.front_cons (Url.kept_cons.mp kept)

/-- What stands in front of the path. -/
def origin : List Char :=
  b.scheme.toList ++ ':' :: '/' :: '/' :: b.host.toList

theorem origin_chars : ∀ c ∈ b.origin, Url.isMargin c = false := by
  have signs : ∀ c ∈ [':', '/', '/'], Url.isMargin c = false := by
    simp [Url.isMargin]
  have whole : b.origin = b.scheme.toList ++ ([':', '/', '/'] ++ b.host.toList) := rfl
  rw [whole, List.forall_mem_append, List.forall_mem_append]
  exact ⟨fun c member => (Url.isWeb_chars b.web member).2, signs,
    fun c member => (b.host_chars c member).2⟩

theorem cleaned_origin {path : List Char} (some : path ≠ [])
    (ends : ∀ c ∈ path.getLast?, Url.isMargin c = false) :
    Url.cleaned (b.origin ++ path) = b.origin ++ path.filter (!Url.isSkipped ·) := by
  have begins : ∀ c ∈ (b.origin ++ path).head?, Url.isMargin c = false := by
    intro c first
    have begun : b.origin ≠ [] := by simp [origin]
    rw [List.head?_append_of_ne_nil _ begun] at first
    exact b.origin_chars c (List.mem_of_head? first)
  have kept : b.origin.filter (!Url.isSkipped ·) = b.origin :=
    List.filter_eq_self.mpr fun c member => by
      simp [Url.isSkipped_of_not_isMargin (b.origin_chars c member)]
  rw [← List.getLast?_append_of_ne_nil b.origin some] at ends
  rw [Url.cleaned_eq begins ends, List.filter_append, kept]

/-- What follows the origin is the path, up to its end. -/
theorem parse?_origin {path rest : List Char} (rooted : path = '/' :: rest)
    (ends : ∀ c ∈ path.getLast?, Url.isMargin c = false) :
    ∃ u, Url.parse? (b.origin ++ path) = some u ∧ u.path = Url.pathOf (Url.cut path) := by
  let more := path.filter (!Url.isSkipped ·)
  have cleaned : Url.cleaned (b.origin ++ path) =
      b.scheme.toList ++ ':' :: (['/', '/'] ++ (b.host.toList ++ more)) := by
    rw [b.cleaned_origin (by simp [rooted]) ends, origin, List.append_assoc]
    rfl
  have laid : Url.Laid (Url.cleaned (b.origin ++ path)) b.scheme.toList b.host.toList more :=
    { whole := ⟨['/', '/'], cleaned, by simp [Url.slashed]⟩
      web := b.web
      some := b.host_ne_nil
      inside := fun c member => (b.host_chars c member).1
      ends := by
        intro c first
        have slash : more = '/' :: rest.filter (!Url.isSkipped ·) := by
          simp only [more]
          rw [rooted]
          rfl
        rw [slash] at first
        obtain rfl := Option.some.inj first
        rfl }
  exact ⟨⟨b.host.toList, Url.pathOf (more.takeWhile (!Url.endsPath ·)),
    Url.queryOf (more.dropWhile (!Url.endsPath ·))⟩,
    Url.parse?_eq_some_iff.mpr ⟨_, more, laid, rfl, rfl⟩, rfl⟩

end BaseUrl

namespace Http

/-- The path of a target as it is sent. -/
def sentPath (target : List Char) : List Char :=
  match Text.splitOnce? '?' target with
  | some (path, _) => path
  | none => target

/-- The path of a request as its receiver decodes it. -/
def Request.address? (r : Request) : Option (List UInt8) :=
  r.target?.map fun target => unescape (sentPath target)

theorem sentPath_target {u : Url.Parts} (path : '?' ∉ u.path) (pairs : Parameters) :
    sentPath (u.target pairs) = u.path := by
  rw [sentPath, splitOnce?_target path]
  by_cases empty : pairs = []
  · rw [if_pos empty, empty]
    cases query : u.query with
    | none => simp [Url.Parts.target, query]
    | some query => rfl
  · rw [if_neg empty]

theorem Request.address?_of_parse {r : Request} {u : Url.Parts}
    (parsed : Url.parse? r.url.toList = some u) : r.address? = some (unescape u.path) := by
  rw [address?, target?, parsed, Option.map_some, Option.map_some,
    sentPath_target (Url.question_notMem_path parsed)]

end Http

namespace Service

open Http (Request)

variable {D E : Type} [Document D] [Document E]

section Issuing

variable {c : Collection} {s : Step D} {r : Request}

/-- A request that a step issued is the one that it has for its parameters. -/
theorem Step.request_of_perform (issued : (s.perform c).request = some r) :
    ∃ parameters, r = s.request c parameters := by
  cases flattened : s.operation.parameters with
  | error e =>
    have unsent := s.isSome_perform_request c
    rw [issued, flattened] at unsent
    cases unsent
  | ok parameters =>
    rw [s.perform_request c flattened] at issued
    exact ⟨parameters, (Option.some.inj issued).symm⟩

theorem Step.url_of_perform (issued : (s.perform c).request = some r) :
    r.url = c.url s.operation.handler := by
  obtain ⟨parameters, rfl⟩ := s.request_of_perform issued
  obtain ⟨operation, options, delivery⟩ := s
  cases operation <;> rfl

theorem Step.method_of_perform (issued : (s.perform c).request = some r) :
    r.method = if s.operation.isChange then .post else .get := by
  obtain ⟨parameters, rfl⟩ := s.request_of_perform issued
  obtain ⟨operation, options, delivery⟩ := s
  cases operation <;> rfl

omit [Document D] in
theorem Operation.length_handler (o : Operation D) : (utf8 o.handler.toList).length = 6 := by
  unfold handler
  cases o.isChange <;> decide

omit [Document D] in
theorem Operation.handler_literal (o : Operation D) : ¬HoldsEscape o.handler.toList := by
  apply Url.unescape_eq_utf8_iff.mp
  unfold handler
  cases o.isChange <;> decide

omit [Document D] [Document E] in
theorem Operation.handler_eq_iff (o : Operation D) (o' : Operation E) :
    utf8 o.handler.toList = utf8 o'.handler.toList ↔ o.isChange = o'.isChange := by
  unfold handler
  cases o.isChange <;> cases o'.isChange <;> decide

end Issuing

/-- The client of a collection, with any limits of time. -/
def client (url : String) (limits : Option Nat × Option Nat) (name : String) : Collection :=
  ⟨name, { Settings.ofBaseUrl url with connectTimeout := limits.1, requestTimeout := limits.2 }⟩

/-- Where a request of a step goes. -/
structure Addressed (b : BaseUrl) (name : String) (s : Step D) (r : Request) : Prop where
  decoded : Kept b.root.toList → Kept name.toList → r.address? = some (unescape b.root.toList ++
    0x2f :: (unescape name.toList ++ 0x2f :: utf8 s.operation.handler.toList))
  literal : r.address? = some (utf8 (b.root ++ "/" ++ name ++ "/" ++ s.operation.handler).toList) ↔
    (Kept b.root.toList ∧ Kept name.toList) ∧ ¬HoldsEscape b.root.toList ∧
      ¬HoldsEscape name.toList

/-- How the requests of two clients under one base URL compare. -/
structure Apart (name other : String) (r r' : Request) : Prop where
  address : r.address? = r'.address? ↔
    unescape name.toList = unescape other.toList ∧ r.method = r'.method
  names : ¬HoldsEscape name.toList → ¬HoldsEscape other.toList → r.address? = r'.address? →
    name = other

section Clients

variable {b : BaseUrl} {limits limits' : Option Nat × Option Nat} {name other : String}
  {s : Step D} {s' : Step E} {r r' : Request}

omit [Document D] in
theorem Operation.kept_handler (o : Operation D) : Kept o.handler.toList := by
  unfold handler
  cases o.isChange <;> exact ⟨by simp, by decide⟩

/-- What follows the host in the URL of a request. -/
def pathText (b : BaseUrl) (name : String) (o : Operation D) : List Char :=
  b.root.toList ++ '/' :: (name.toList ++ '/' :: o.handler.toList)

omit [Document D] in
theorem pathText_rooted (b : BaseUrl) (name : String) (o : Operation D) :
    ∃ rest, pathText b name o = '/' :: rest :=
  b.root_rooted _

omit [Document D] in
/-- Nothing is cut off the end of the URL of a request. -/
theorem pathText_ends (b : BaseUrl) (name : String) (o : Operation D) :
    ∀ c ∈ (pathText b name o).getLast?, Url.isMargin c = false := by
  have divided : pathText b name o = (b.root.toList ++ '/' :: (name.toList ++ ['/'])) ++
      o.handler.toList := by
    simp [pathText]
  have some : o.handler.toList ≠ [] := by
    unfold Operation.handler
    cases o.isChange <;> decide
  rw [divided, List.getLast?_append_of_ne_nil _ some]
  unfold Operation.handler
  cases o.isChange <;> simp [Url.isMargin]

theorem address?_of_perform (issued : (s.perform (client b.text limits name)).request = some r) :
    r.address? = some (unescape
      (Url.joined (Url.resolve (Url.pieces (Url.cut (pathText b name s.operation)))))) := by
  obtain ⟨rest, rooted⟩ := pathText_rooted b name s.operation
  have url : r.url.toList = b.origin ++ pathText b name s.operation := by
    rw [s.url_of_perform issued]
    simp [client, Collection.url, Settings.ofBaseUrl, b.trimSlashes_text, BaseUrl.origin, pathText]
  obtain ⟨u, parsed, path⟩ := b.parse?_origin rooted (pathText_ends b name s.operation)
  have some : Url.cut (pathText b name s.operation) ≠ [] := by
    rw [rooted]
    exact List.cons_ne_nil _ _
  rw [Http.Request.address?_of_parse (url ▸ parsed), path, Url.pathOf, if_neg some,
    Url.unescape_escapePath]

/-- A name that is kept stands for itself behind the base path, up to escapes. -/
theorem address?_of_kept (issued : (s.perform (client b.text limits name)).request = some r)
    (unended : ∀ c ∈ b.root.toList, Url.endsPath c = false) (kept : Kept name.toList) :
    r.address? = some (unescape (Url.front b.root.toList) ++
      0x2f :: (unescape name.toList ++ 0x2f :: utf8 s.operation.handler.toList)) := by
  have slash : Text.hexValue? '/' = none := by decide
  have noSign : '/' ≠ '%' := by decide
  have behind := Url.kept_append.mpr ⟨kept, s.operation.kept_handler⟩
  rw [address?_of_perform issued, pathText, Url.resolve_cut_append unended behind,
    Url.unescape_append_cons slash, Url.unescape_cons noSign, Url.unescape_append_cons slash,
    Url.unescape_cons noSign, Url.unescape_eq_utf8_iff.mpr s.operation.handler_literal]
  rfl

theorem Step.addressed (issued : (s.perform (client b.text limits name)).request = some r) :
    Addressed b name s r := by
  have slash : Text.hexValue? '/' = none := by decide
  have noSign : '/' ≠ '%' := by decide
  constructor
  · intro base kept
    rw [address?_of_kept issued (fun c member => ?_) kept, b.front_root base]
    have plain := base.characters c member
    simp only [List.mem_cons, List.not_mem_nil, or_false, not_or] at plain
    simp [Url.endsPath, plain]
  · obtain ⟨rest, rooted⟩ := pathText_rooted b name s.operation
    have whole : (b.root ++ "/" ++ name ++ "/" ++ s.operation.handler).toList =
        pathText b name s.operation := by
      simp [pathText]
    rw [address?_of_perform issued, whole, Option.some.injEq, Url.unescape_resolve_eq_iff rooted,
      pathText, Url.kept_append, Url.kept_append, and_iff_left s.operation.kept_handler,
      Url.holdsEscape_append_cons slash noSign, Url.holdsEscape_append_cons slash noSign,
      or_iff_left s.operation.handler_literal, not_or]

/-- Both handlers are named with as many letters, so the name ends in one place. -/
theorem Step.apart (issued : (s.perform (client b.text limits name)).request = some r)
    (issued' : (s'.perform (client b.text limits' other)).request = some r')
    (unended : ∀ c ∈ b.root.toList, Url.endsPath c = false) (kept : Kept name.toList)
    (kept' : Kept other.toList) : Apart name other r r' := by
  have methods : r.method = r'.method ↔ s.operation.isChange = s'.operation.isChange := by
    rw [s.method_of_perform issued, s'.method_of_perform issued']
    cases s.operation.isChange <;> cases s'.operation.isChange <;> decide
  have address : r.address? = r'.address? ↔
      unescape name.toList = unescape other.toList ∧ r.method = r'.method := by
    rw [address?_of_kept issued unended kept, address?_of_kept issued' unended kept',
      Option.some.injEq, List.append_right_inj, List.cons_inj_right, methods,
      ← Operation.handler_eq_iff]
    constructor
    · intro same
      obtain ⟨names, handlers⟩ := List.append_inj' same
        (by simp [s.operation.length_handler, s'.operation.length_handler])
      exact ⟨names, List.cons_inj_right 0x2f |>.mp handlers⟩
    · rintro ⟨names, handlers⟩
      rw [names, handlers]
  refine ⟨address, fun literal literal' same => ?_⟩
  have bytes := (address.mp same).1
  rw [Url.unescape_eq_utf8_iff.mpr literal, Url.unescape_eq_utf8_iff.mpr literal'] at bytes
  exact String.toList_inj.mp (Text.utf8_injective bytes)

theorem exists_perform_of_issued {c : Collection} {steps : List (Step D)}
    (member : r ∈ issued (session c steps)) : ∃ s : Step D, (s.perform c).request = some r := by
  obtain ⟨o, performed, request⟩ := List.mem_flatMap.mp member
  obtain ⟨s, -, rfl⟩ := List.mem_map.mp performed
  exact ⟨s, Option.mem_toList.mp request⟩

end Clients

/-- The path of a request is the base path, the name and the handler as they are written exactly
if base path and name hold nothing with a meaning in a path; up to escapes, if they hold nothing
else. Clients with such names under one base URL share a path exactly if the names stand for the
same text, and slashes at the end of a base URL make no difference. -/
theorem session_addressed (b : BaseUrl) (limits : Option Nat × Option Nat) (name : String)
    (steps : List (Step D)) :
    List.Forall₂ (fun s o => ∀ r, o.request = some r → Addressed b name s r) steps
      (session (client b.text limits name) steps) ∧
    ((∀ c ∈ b.root.toList, Url.endsPath c = false) → Kept name.toList →
      ∀ (limits' : Option Nat × Option Nat) (other : String) (steps' : List (Step E)),
        Kept other.toList → ∀ r ∈ issued (session (client b.text limits name) steps),
          ∀ r' ∈ issued (session (client b.text limits' other) steps'), Apart name other r r') ∧
    ∀ (url : String) (slashes : Nat),
      session (client (url ++ String.ofList (List.replicate slashes '/')) limits name) steps =
        session (client url limits name) steps := by
  refine ⟨?_, ?_, ?_⟩
  · apply List.forall₂_map_right_iff.mpr
    apply List.forall₂_same.mpr
    intro s _ r issued
    exact s.addressed issued
  · intro unended kept limits' other steps' kept' r member r' member'
    obtain ⟨s, issued⟩ := exists_perform_of_issued member
    obtain ⟨s', issued'⟩ := exists_perform_of_issued member'
    exact s.apart issued issued' unended kept kept'
  · intro url slashes
    have same : client (url ++ String.ofList (List.replicate slashes '/')) limits name =
        client url limits name := by
      rw [client, Settings.ofBaseUrl, Settings.trimSlashes_slashes]
      rfl
    rw [same]

/-- A name with a blank at the service that is named nowhere: the blank is escaped on its way, and
the path stands for what was written. -/
theorem session_addressed_verbatim :
    ∃ r : Request,
      (session (client BaseUrl.standard.text (none, none) "my films")
        [(⟨.remove (.matching "*:*"), .empty, .dropped⟩ : Step Json)]).map Outcome.request =
        [some r] ∧
      r.target? = some "/solr/my%20films/update?commit=true".toList ∧
      r.address? = some (utf8 "/solr/my films/update".toList) := by
  have sent := (session_addressed (E := Json) BaseUrl.standard (none, none) "my films"
    [(⟨.remove (.matching "*:*"), .empty, .dropped⟩ : Step Json)]).1
  have base : Kept BaseUrl.standard.root.toList :=
    ⟨by simp [show BaseUrl.standard.root = "/solr" by decide +kernel], by decide +kernel⟩
  have name : Kept "my films".toList := ⟨by simp, by decide +kernel⟩
  refine ⟨_, rfl, by decide +kernel, ?_⟩
  exact ((List.forall₂_cons.mp sent).1 _ rfl).literal.mpr
    ⟨⟨base, name⟩, Url.unescape_eq_utf8_iff.mp (by decide +kernel),
      Url.unescape_eq_utf8_iff.mp (by decide +kernel)⟩

/-- Where a client goes that removes everything. -/
def removal (name : String) : List (Option (List Char)) :=
  (session (client "http://solr/solr" (none, none) name)
    [(⟨.remove (.matching "*:*"), .empty, .unreachable⟩ : Step Json)]).map
    fun o => o.request.bind Request.target?

/-- A name with a blank and the name with its escape lead to one path, and so do a name and a way
around to it; behind a question mark a name is no part of the path. -/
theorem session_shares_path :
    removal "a b" = [some "/solr/a%20b/update?commit=true".toList] ∧
    removal "a%20b" = removal "a b" ∧
    removal "films" = [some "/solr/films/update?commit=true".toList] ∧
    removal "x/../films" = removal "films" ∧
    removal "a?b" = [some "/solr/a?b/update&commit=true".toList] := by
  refine ⟨?_, ?_, ?_, ?_, ?_⟩ <;> decide +kernel

end Service
end Solr
