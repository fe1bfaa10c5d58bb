import Mathlib.Data.List.TakeWhile
import Solr.Proofs.Url.Form
import Solr.Url.Parse

/-! The texts that are parsed as URLs, by their parts. What is written behind a URL never makes it
one that cannot be parsed, and a query needs a question mark in the text. -/
namespace Solr.Url

section Cleaning

variable {url : List Char}

theorem mem_of_mem_cleaned {c : Char} (member : c ∈ cleaned url) : c ∈ url := by
  have inside := (List.mem_filter.mp member).1
  have trimmed := (List.dropWhile_sublist _).mem (List.mem_reverse.mp inside)
  exact (List.dropWhile_sublist _).mem (List.mem_reverse.mp trimmed)

/-- What follows a URL takes nothing from it. -/
theorem cleaned_append (some : cleaned url ≠ []) (more : List Char) :
    cleaned url <+: cleaned (url ++ more) := by
  have begun : url.dropWhile isMargin ≠ [] := by
    intro empty
    rw [cleaned, empty] at some
    exact some rfl
  apply List.IsPrefix.filter
  rw [List.dropWhile_append, if_neg (by simpa using begun), List.reverse_append,
    List.dropWhile_append]
  split
  · exact List.prefix_refl _
  · rw [List.reverse_append, List.reverse_reverse]
    apply List.IsPrefix.trans _ (List.prefix_append _ _)
    rw [← List.reverse_suffix, List.reverse_reverse]
    exact List.dropWhile_suffix _

theorem dropWhile_eq_self {p : Char → Bool} {s : List Char} (begins : ∀ c ∈ s.head?, p c = false) :
    s.dropWhile p = s := by
  cases s with
  | nil => rfl
  | cons c s => exact List.dropWhile_cons_of_neg (by simp [begins c rfl])

/-- Between two characters that count, tabs and line breaks are left out, and nothing else. -/
theorem cleaned_eq (begins : ∀ c ∈ url.head?, isMargin c = false)
    (ends : ∀ c ∈ url.getLast?, isMargin c = false) :
    cleaned url = url.filter (!isSkipped ·) := by
  rw [← List.head?_reverse] at ends
  rw [cleaned, dropWhile_eq_self begins, dropWhile_eq_self ends, List.reverse_reverse]

end Cleaning

section Schemes

theorem margin_lowered : ∀ n < 33, (Char.ofNat n).toLower ∉ ['h', 't', 'p', 's'] := by
  decide

theorem isMargin_of_isSkipped {c : Char} (skipped : isSkipped c = true) : isMargin c = true := by
  simp only [isSkipped, Bool.or_eq_true, decide_eq_true_eq] at skipped
  rcases skipped with (rfl | rfl) | rfl <;> rfl

theorem isSkipped_of_not_isMargin {c : Char} (inner : isMargin c = false) :
    isSkipped c = false := by
  rw [Bool.eq_false_iff]
  intro skipped
  rw [isMargin_of_isSkipped skipped] at inner
  cases inner

theorem isWeb_chars {scheme : List Char} (web : isWeb scheme = true) {c : Char}
    (member : c ∈ scheme) : c ≠ ':' ∧ isMargin c = false := by
  have letter : c.toLower ∈ ['h', 't', 'p', 's'] := by
    have inside : c.toLower ∈ scheme.map Char.toLower := List.mem_map_of_mem member
    have letters : ∀ name ∈ ["http", "https"].map String.toList, name ⊆ ['h', 't', 'p', 's'] := by
      decide
    exact letters _ (List.contains_iff_mem.mp web) inside
  constructor
  · intro colon
    rw [colon] at letter
    exact absurd letter (by decide)
  · rw [Bool.eq_false_iff]
    intro margin
    have small : c.toNat < 33 := by
      have bound : c ≤ ' ' := of_decide_eq_true margin
      exact Nat.lt_succ_of_le bound
    have outside := margin_lowered c.toNat small
    rw [Char.ofNat_toNat] at outside
    exact outside letter

end Schemes

/-- The text of a URL, divided into its parts. -/
structure Laid (text scheme authority more : List Char) : Prop where
  whole : ∃ slashes, text = scheme ++ ':' :: (slashes ++ (authority ++ more)) ∧
    ∀ c ∈ slashes, slashed c = '/'
  web : isWeb scheme = true
  some : authority ≠ []
  inside : ∀ c ∈ authority, endsAuthority c = false
  ends : ∀ c ∈ more.head?, endsAuthority c = true

section Locating

variable {authority more : List Char}

theorem takeWhile_authority (inside : ∀ c ∈ authority, endsAuthority c = false)
    (ends : ∀ c ∈ more.head?, endsAuthority c = true) :
    (authority ++ more).takeWhile (!endsAuthority ·) = authority := by
  rw [List.takeWhile_append_of_pos fun c member => by simp [inside c member]]
  cases more with
  | nil => exact List.append_nil authority
  | cons c more => simp [ends c rfl]

theorem dropWhile_authority (inside : ∀ c ∈ authority, endsAuthority c = false)
    (ends : ∀ c ∈ more.head?, endsAuthority c = true) :
    (authority ++ more).dropWhile (!endsAuthority ·) = more := by
  rw [List.dropWhile_append_of_pos fun c member => by simp [inside c member]]
  cases more with
  | nil => rfl
  | cons c more => simp [ends c rfl]

end Locating

theorem locate?_eq_some_iff {rest : List Char} {u : Parts} :
    locate? rest = some u ↔ ∃ slashes more, rest = slashes ++ (u.authority ++ more) ∧
      (∀ c ∈ slashes, slashed c = '/') ∧ u.authority ≠ [] ∧
      (∀ c ∈ u.authority, endsAuthority c = false) ∧ (∀ c ∈ more.head?, endsAuthority c = true) ∧
      u.path = pathOf (more.takeWhile (!endsPath ·)) ∧
      u.query = queryOf (more.dropWhile (!endsPath ·)) := by
  constructor
  · intro located
    unfold locate? at located
    dsimp only at located
    split at located
    · cases located
    · rename_i some
      obtain rfl := Option.some.inj located
      refine ⟨rest.takeWhile (slashed · = '/'), _, ?_, ?_, some, ?_, ?_, rfl, rfl⟩
      · dsimp only
        rw [List.takeWhile_append_dropWhile, List.takeWhile_append_dropWhile]
      · exact fun c member => by simpa using List.mem_takeWhile_imp member
      · exact fun c member => by simpa using List.mem_takeWhile_imp member
      · intro c first
        have stop := List.head?_dropWhile_not (!endsAuthority ·) (rest.dropWhile (slashed · = '/'))
        rw [Option.mem_def.mp first] at stop
        simpa using stop
  · rintro ⟨slashes, more, rfl, skipped, some, inside, ends, path, query⟩
    have begins : ∀ c ∈ (u.authority ++ more).head?, decide (slashed c = '/') = false := by
      obtain ⟨first, others, found⟩ := List.exists_cons_of_ne_nil some
      have within := inside first (found ▸ List.mem_cons_self)
      rw [endsAuthority, Bool.or_eq_false_iff] at within
      rw [found]
      intro c member
      obtain rfl := Option.some.inj member
      exact within.1
    have left : (slashes ++ (u.authority ++ more)).dropWhile (slashed · = '/') =
        u.authority ++ more := by
      rw [List.dropWhile_append_of_pos fun c member => by simp [skipped c member],
        dropWhile_eq_self begins]
    rw [locate?, left, takeWhile_authority inside ends, dropWhile_authority inside ends,
      if_neg some, ← path, ← query]

theorem parse?_eq_some_iff {url : List Char} {u : Parts} :
    parse? url = some u ↔ ∃ scheme more, Laid (cleaned url) scheme u.authority more ∧
      u.path = pathOf (more.takeWhile (!endsPath ·)) ∧
      u.query = queryOf (more.dropWhile (!endsPath ·)) := by
  constructor
  · intro parsed
    unfold parse? at parsed
    split at parsed
    · rename_i scheme rest divided
      obtain ⟨whole, -⟩ := Text.splitOnce?_eq_some_iff.mp divided
      split at parsed
      · rename_i web
        obtain ⟨slashes, more, rfl, skipped, some, inside, ends, path, query⟩ :=
          locate?_eq_some_iff.mp parsed
        exact ⟨scheme, more, ⟨⟨slashes, whole, skipped⟩, web, some, inside, ends⟩, path, query⟩
      · cases parsed
    · cases parsed
  · rintro ⟨scheme, more, ⟨⟨slashes, whole, skipped⟩, web, some, inside, ends⟩, path, query⟩
    have noColon : ':' ∉ scheme := fun member => (isWeb_chars web member).1 rfl
    rw [parse?, whole, Text.splitOnce?_append noColon]
    dsimp only
    rw [if_pos web]
    exact locate?_eq_some_iff.mpr
      ⟨slashes, more, rfl, skipped, some, inside, ends, path, query⟩

section Texts

variable {url : List Char}

/-- The authority may get longer by what follows the text. -/
theorem Laid.append {text scheme authority more : List Char}
    (laid : Laid text scheme authority more) (tail : List Char) :
    ∃ authority' more', Laid (text ++ tail) scheme authority' more' := by
  obtain ⟨⟨slashes, rfl, skipped⟩, web, some, inside, -⟩ := laid
  obtain ⟨first, others, rfl⟩ := List.exists_cons_of_ne_nil some
  let rest := first :: others ++ (more ++ tail)
  refine ⟨rest.takeWhile (!endsAuthority ·), rest.dropWhile (!endsAuthority ·),
    ⟨slashes, ?_, skipped⟩, web, ?_, fun c member => ?_, fun c found => ?_⟩
  · rw [List.takeWhile_append_dropWhile]
    simp [rest]
  · have begins : (!endsAuthority first) = true := by simp [inside first List.mem_cons_self]
    simp [rest, begins]
  · simpa using List.mem_takeWhile_imp member
  · have stop := List.head?_dropWhile_not (!endsAuthority ·) rest
    rw [Option.mem_def.mp found] at stop
    simpa using stop

theorem isSome_parse?_append (valid : (parse? url).isSome) (more : List Char) :
    (parse? (url ++ more)).isSome := by
  obtain ⟨u, parsed⟩ := Option.isSome_iff_exists.mp valid
  obtain ⟨scheme, rest, laid, -, -⟩ := parse?_eq_some_iff.mp parsed
  have some : cleaned url ≠ [] := by
    obtain ⟨slashes, whole, -⟩ := laid.whole
    simp [whole]
  obtain ⟨tail, longer⟩ := cleaned_append some more
  obtain ⟨authority, rest', laid⟩ := laid.append tail
  rw [longer] at laid
  let longerUrl : Parts :=
    ⟨authority, pathOf (rest'.takeWhile (!endsPath ·)), queryOf (rest'.dropWhile (!endsPath ·))⟩
  have reparsed : parse? (url ++ more) = Option.some longerUrl :=
    parse?_eq_some_iff.mpr ⟨scheme, rest', laid, rfl, rfl⟩
  exact Option.isSome_of_eq_some reparsed

theorem query_eq_none {u : Parts} (parsed : parse? url = some u) (noMark : '?' ∉ url) :
    u.query = none := by
  obtain ⟨scheme, more, laid, -, query⟩ := parse?_eq_some_iff.mp parsed
  obtain ⟨slashes, whole, -⟩ := laid.whole
  rw [query]
  unfold queryOf
  split
  · rename_i begins
    have inside : '?' ∈ more := (List.dropWhile_sublist _).mem (begins ▸ List.mem_cons_self)
    have cleaned : '?' ∈ cleaned url := by simp [whole, inside]
    exact absurd (mem_of_mem_cleaned cleaned) noMark
  · rfl

end Texts
end Solr.Url
