import Solr.Proofs.CommandLine.Ending

/-! What an update sends of its file: all documents, in their order, each with the values that
it has in the file. What is sent can be a file itself, and is sent again as it is. -/
namespace Solr

namespace Json

/-- The same value, but for objects: of the members of one key the last one is kept. -/
inductive SentAs : Json → Json → Prop
  | null : SentAs .null .null
  | boolean (b : Bool) : SentAs (.boolean b) (.boolean b)
  | number (n : Number) : SentAs (.number n) (.number n)
  | string (s : String) : SentAs (.string s) (.string s)
  | array {items sent : List Json} (each : List.Forall₂ SentAs items sent) :
    SentAs (.array items) (.array sent)
  | object {members : List (String × Json)} {sent : Entries Json} (sorted : sent.Sorted)
    (last : ∀ key, Option.Rel SentAs (Entries.get? members.reverse key) (sent.get? key)) :
    SentAs (.object members) (.object sent)

theorem sentAs_object {members : List (String × Json)}
    (each : ∀ p ∈ members, SentAs p.2 p.2.canonical) :
    SentAs (.object members) (canonical (.object members)) := by
  rw [canonical]
  refine .object (Entries.ofList_sorted _) fun key => ?_
  rw [Entries.get?_ofList, canonicalMembers_eq_map, ← List.map_reverse, Entries.get?_map]
  cases found : Entries.get? members.reverse key with
  | none => exact .none
  | some j =>
    have member : (key, j) ∈ members := List.mem_reverse.mp (Entries.mem_of_get? found)
    exact .some (each _ member)

mutual

theorem sentAs_canonical : ∀ {depth : Nat} {j : Json}, (Node.ofJson j).Within depth →
    SentAs j j.canonical
  | _, .null, _ => .null
  | _, .boolean b, _ => .boolean b
  | _, .string s, _ => .string s
  | _, .number (.integer i), _ => .number (.integer i)
  | _, .number (.double x), _ => .number (.double x)
  | _, .number (.single _), plain => plain.elim
  | _, .array _, ⟨_, within⟩ => by
    rw [canonical]
    exact .array (sentAs_canonicalItems within)
  | _, .object _, ⟨_, within⟩ => sentAs_object (sentAs_canonicalMembers within)

theorem sentAs_canonicalItems : ∀ {depth : Nat} {items : List Json},
    WithinItems depth (ofItems items) → List.Forall₂ SentAs items (canonicalItems items)
  | _, [], _ => .nil
  | _, _ :: _, ⟨first, others⟩ => .cons (sentAs_canonical first) (sentAs_canonicalItems others)

theorem sentAs_canonicalMembers : ∀ {depth : Nat} {members : List (String × Json)},
    WithinMembers depth (ofMembers members) → ∀ p ∈ members, SentAs p.2 p.2.canonical
  | _, [], _ => by simp
  | _, (_, _) :: _, ⟨first, others⟩ => List.forall_mem_cons.mpr
      ⟨sentAs_canonical first, sentAs_canonicalMembers others⟩

end

section Texts

variable {text : String} {j : Json}

/-- The canonical form of what is read is no deeper than its text, and its numbers are plain. -/
theorem within_canonical (read : readIn? .service text = some j) :
    (Node.ofJson j.canonical).Within 127 :=
  (recodes_value 127 _ _ (within_read read) (value_canonical (within_read read))).1

theorem read?_canonical (read : readIn? .service text = some j) :
    read? j.canonical.compact = some j.canonical :=
  read?_compact (unbounded_of_within (within_canonical read))

theorem readIn?_canonical (read : readIn? .service text = some j)
    (steady : j.canonical.Every Number.isSteady) :
    readIn? .service j.canonical.compact = some j.canonical :=
  readIn?_eq_some_iff.mpr (outline_service (within_canonical read) steady)

end Texts

end Json

namespace CommandLine

open Json (readIn?)
open Service (Operation)

/-- The arguments are those of an update, and the file that they name holds this text. -/
def Updates (s : Surroundings) (arguments : List String) (collection text : String) : Prop :=
  ∃ baseUrl name, Arguments.read arguments = .ok ⟨collection, baseUrl, .update name⟩ ∧
    s.file name = .ok text

/-- One body is posted, and what is printed after success is known. -/
structure Posts (s : Surroundings) (arguments : List String) (body report : String) : Prop where
  issued : ∃ r, (run s arguments).request = some r ∧ r.method = .post ∧ r.body = some body ∧
    (run s arguments).seen s = if s.delivery.arrives then [r] else []
  reported : ∀ output, (run s arguments).ending = .succeeded output → output = report

section Files

variable {s : Surroundings} {arguments : List String} {collection text : String}

theorem Updates.line (updates : Updates s arguments collection text) :
    ∃ l n, Line.Spells l arguments ∧ l.Formed n ∧ l.verb = .update ∧
      s.file l.file = .ok text ∧ (l.target s).name = collection := by
  obtain ⟨baseUrl, name, read, found⟩ := updates
  obtain ⟨l, n, spelled, formed, same⟩ := Line.read_eq_ok_iff.mp read
  obtain ⟨rfl, -, command⟩ := Arguments.mk.inj same
  obtain ⟨globals, verb, given⟩ := l
  cases verb with
  | update =>
    obtain rfl := Command.update.inj command
    exact ⟨_, n, spelled, formed, rfl, found, rfl⟩
  | select | ranked | grouped | remove => cases command

theorem Updates.orders (updates : Updates s arguments collection text) {items : List Json}
    (shown : readIn? .service text = some (.array items)) :
    ∃ l n, l.verb = .update ∧ s.file l.file = .ok text ∧ (l.target s).name = collection ∧
      Line.Orders l n s arguments (.update (items.map fun j => .document j.canonical)) := by
  obtain ⟨l, n, spelled, formed, verb, found, named⟩ := updates.line
  exact ⟨l, n, verb, found, named, spelled, formed,
    (orders_update verb).mpr ⟨text, items, found, shown, rfl⟩⟩

/-- What is sent of documents is the array of them. -/
theorem change_documents (items : List Json) :
    (Operation.update (items.map fun j => Update.document j.canonical)).change =
      some (Json.canonical (.array items)) := by
  rw [Operation.change, Update.encodeAll, List.map_map, Json.canonical,
    Json.canonicalItems_eq_map]
  rfl

theorem posts_of_updates (updates : Updates s arguments collection text) {items : List Json}
    (shown : readIn? .service text = some (.array items)) :
    Posts s arguments (Json.canonical (.array items)).compact
      (updated items.length collection) where
  issued := by
    obtain ⟨l, n, -, -, -, orders⟩ := updates.orders shown
    obtain ⟨parameters, -, request⟩ := request_orders orders
    have due := (stepOf s (.update (items.map fun j => .document j.canonical))).due (l.target s)
      .empty parameters
    refine ⟨_, request, due.method, ?_, ?_⟩
    · rw [Service.Step.request_body, stepOf, change_documents]
      rfl
    · rw [Run.seen, request]
      rfl
  reported := by
    intro output succeeded
    obtain ⟨l, n, verb, found, rfl, orders⟩ := updates.orders shown
    obtain ⟨reply, delay, -, -, prints⟩ := (succeeded_iff orders).mp succeeded
    cases prints with
    | selected other => exact absurd verb (by obtain other | other := other <;> simp [other])
    | grouped other | removed other => exact absurd verb (by simp [other])
    | updated _ _ there also =>
      obtain rfl := Except.ok.inj (found.symm.trans there)
      obtain rfl := Json.array.inj (Option.some.inj (shown.symm.trans also))
      rfl

theorem nothing_posted (updates : Updates s arguments collection text)
    (other : ∀ items, readIn? .service text ≠ some (.array items)) :
    (run s arguments).request = none := by
  obtain ⟨l, n, spelled, -, verb, found, -⟩ := updates.line
  exact unissued spelled (.format verb found other)

end Files

/-- Of a file that holds an array one body is posted, with the same documents, and they are
counted once they are accepted; whole numbers of 64 bits are exact. The body, as a file, is
posted again as it is, if each double in it is read as itself. Of any other file nothing is
posted. -/
theorem update_posted {s : Surroundings} {arguments : List String} {collection text : String}
    (updates : Updates s arguments collection text) :
    (∀ items sent, readIn? .service text = some (.array items) →
      sent = Json.canonical (.array items) →
        Posts s arguments sent.compact (updated items.length collection) ∧
        Json.read? sent.compact = some sent ∧ Json.SentAs (.array items) sent ∧
        (∃ held, readIn? (.rounding .double .double) text = some held ∧
          held.Keeps (.array items)) ∧
        (sent.Every Number.isSteady → ∀ s' arguments' collection',
          Updates s' arguments' collection' sent.compact →
            Posts s' arguments' sent.compact (updated items.length collection'))) ∧
    ((∀ items, readIn? .service text ≠ some (.array items)) →
      (run s arguments).request = none) := by
  refine ⟨?_, nothing_posted updates⟩
  rintro items _ shown rfl
  refine ⟨posts_of_updates updates shown, Json.read?_canonical shown,
    Json.sentAs_canonical (Json.within_read shown), Json.readIn?_keeps shown,
    fun steady s' arguments' collection' again => ?_⟩
  -- What was sent is canonical already, and so it does not change when it is sent again.
  have posted := posts_of_updates again (Json.readIn?_canonical shown steady)
  have settled : Json.canonical (.array (Json.canonicalItems items)) =
      Json.canonical (.array items) :=
    Json.isCanonical_canonical (.array items)
  have count : (Json.canonicalItems items).length = items.length := by
    rw [Json.canonicalItems_eq_map, List.length_map]
  rwa [settled, count] at posted

/-- A file with a repeated key, a whole number of 64 bits, a fraction and an escape, and then
the file of what was sent. -/
theorem update_posted_again :
    let first := "[\x7b\"b\": 1, \"a\": 18446744073709551615, \"b\": 2.50\x7d, \"\\u00e9\"]\n"
    let body := "[\x7b\"a\":18446744073709551615,\"b\":2.5\x7d,\"é\"]"
    let s : Surroundings :=
      ⟨none, fun name => .ok (if name = "first" then first else body), .dropped⟩
    Posts s ["-c", "films", "update", "--file", "first"] body "Updated 2 documents in films\n" ∧
      Posts s ["-c", "films", "update", "-f=sent"] body "Updated 2 documents in films\n" := by
  intro first body s
  let fraction : Double := .ofDecimal false ⟨25, -1⟩
  let items : List Json := [.object [("b", .ofInt 1), ("a", .ofInt 0xffffffffffffffff),
    ("b", .number (.double fraction))], .string "é"]
  have updates : Updates s ["-c", "films", "update", "--file", "first"] "films" first :=
    ⟨none, "first", by decide +kernel, rfl⟩
  have again : Updates s ["-c", "films", "update", "-f=sent"] "films" body :=
    ⟨none, "sent", by decide +kernel, rfl⟩
  have shown : readIn? .service first = some (.array items) := by decide +kernel
  have text : (Json.canonical (.array items)).compact = body := by decide +kernel
  have report : updated items.length "films" = "Updated 2 documents in films\n" := by
    decide +kernel
  obtain ⟨posted, -, -, -, settles⟩ := (update_posted updates).1 items _ shown rfl
  have postedAgain := settles (by decide +kernel) s ["-c", "films", "update", "-f=sent"] "films"
  rw [text, report] at posted postedAgain
  exact ⟨posted, postedAgain again⟩

end CommandLine
end Solr
