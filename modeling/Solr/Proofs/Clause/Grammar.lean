import Solr.Clause
import Solr.Text.Blank

/-! The grammar in which the service reads the values of a clause: bare tokens and quoted
phrases, lists of them, and ranges between two of them. It is stated without the writer;
no text can be read in two ways. -/
namespace Solr.Clause

/-- What one value is read as. -/
inductive Reading where
  | bare (token : List Char)
  | phrase (content : List Char)
  deriving DecidableEq

/-- The characters that end a bare token: white space, a quote, and the delimiters. -/
def Stops (delimiters : List Char) (c : Char) : Prop :=
  Text.isWhiteSpace c ∨ c = '\"' ∨ c ∈ delimiters

instance (delimiters : List Char) (c : Char) : Decidable (Stops delimiters c) :=
  inferInstanceAs (Decidable (_ ∨ _))

/-- What stands between the quotes of a phrase, and the content that it stands for. A
backslash protects the character after it. -/
inductive Quotes : List Char → List Char → Prop where
  | nil : Quotes [] []
  | plain {c : Char} {s content : List Char} : c ≠ '\"' → c ≠ '\\' → Quotes s content →
      Quotes (c :: s) (c :: content)
  | guarded {c : Char} {s content : List Char} : Quotes s content →
      Quotes ('\\' :: c :: s) (c :: content)

/-- The texts of one value. -/
inductive Spells (delimiters : List Char) : List Char → Reading → Prop where
  | bare {token : List Char} : token ≠ [] → (∀ c ∈ token, ¬ Stops delimiters c) →
      Spells delimiters token (.bare token)
  | phrase {s content : List Char} : Quotes s content →
      Spells delimiters ('\"' :: s ++ ['\"']) (.phrase content)

def parentheses : List Char := ['(', ')']

def brackets : List Char := ['[', ']', '{', '}']

/-- One or more values with one space between them. -/
inductive Spaced : List Char → List Reading → Prop where
  | last {s : List Char} {r : Reading} : Spells parentheses s r → Spaced s [r]
  | next {s rest : List Char} {r : Reading} {rs : List Reading} : Spells parentheses s r →
      Spaced rest rs → Spaced (s ++ ' ' :: rest) (r :: rs)

/-- Any number of values in parentheses. -/
inductive SpellsList : List Char → List Reading → Prop where
  | empty : SpellsList ['(', ')'] []
  | some {s : List Char} {rs : List Reading} : Spaced s rs → SpellsList ('(' :: s ++ [')']) rs

/-- What a range is read as: whether each end belongs to it, and the two ends. -/
structure RangeReading where
  fromIncluded : Bool
  lower : Reading
  toIncluded : Bool
  upper : Reading
  deriving DecidableEq

inductive SpellsRange : List Char → RangeReading → Prop where
  | between (fromIncluded toIncluded : Bool) {s t : List Char} {a b : Reading} :
      Spells brackets s a → Spells brackets t b →
      SpellsRange ((if fromIncluded then '[' else '{') :: s ++ [' ', 'T', 'O', ' '] ++ t ++
        [if toIncluded then ']' else '}']) ⟨fromIncluded, a, toIncluded, b⟩

variable {delimiters s t u v : List Char} {a b : Reading}

/-- A text that begins with a character at which a bare token stops. -/
def Stopped (delimiters : List Char) : List Char → Prop
  | [] => True
  | c :: _ => Stops delimiters c

theorem stopped_cons {c : Char} : Stopped delimiters (c :: s) ↔ Stops delimiters c :=
  Iff.rfl

/-- The closing quote of a phrase is the first one that no backslash protects. -/
theorem Quotes.split {x y : List Char} (first : Quotes s x) (second : Quotes t y)
    (same : s ++ '\"' :: u = t ++ '\"' :: v) : s = t ∧ x = y ∧ u = v := by
  induction first generalizing t y with
  | nil =>
    cases second with
    | nil => exact ⟨rfl, rfl, by simpa using same⟩
    | plain notQuote _ _ =>
      simp only [List.nil_append, List.cons_append, List.cons.injEq] at same
      exact absurd same.1.symm notQuote
    | guarded _ => simp at same
  | plain notQuote notBackslash _ ih =>
    cases second with
    | nil =>
      simp only [List.nil_append, List.cons_append, List.cons.injEq] at same
      exact absurd same.1 notQuote
    | plain _ _ second =>
      simp only [List.cons_append, List.cons.injEq] at same
      obtain ⟨rfl, rfl, rest⟩ := ih second same.2
      exact ⟨by rw [same.1], by rw [same.1], rest⟩
    | guarded _ =>
      simp only [List.cons_append, List.cons.injEq] at same
      exact absurd same.1 notBackslash
  | guarded _ ih =>
    cases second with
    | nil => simp at same
    | plain _ notBackslash _ =>
      simp only [List.cons_append, List.cons.injEq] at same
      exact absurd same.1.symm notBackslash
    | guarded second =>
      simp only [List.cons_append, List.cons.injEq, true_and] at same
      obtain ⟨rfl, rfl, rest⟩ := ih second same.2
      exact ⟨by rw [same.1], by rw [same.1], rest⟩

/-- A bare token goes on as far as it can. -/
theorem token_split (first : ∀ c ∈ s, ¬ Stops delimiters c)
    (second : ∀ c ∈ t, ¬ Stops delimiters c) (stopsFirst : Stopped delimiters u)
    (stopsSecond : Stopped delimiters v) (same : s ++ u = t ++ v) : s = t ∧ u = v := by
  induction s generalizing t with
  | nil =>
    cases t with
    | nil => exact ⟨rfl, same⟩
    | cons d t =>
      simp only [List.nil_append, List.cons_append] at same
      rw [same, stopped_cons] at stopsFirst
      exact absurd stopsFirst (second d (List.mem_cons_self ..))
  | cons c s ih =>
    cases t with
    | nil =>
      simp only [List.nil_append, List.cons_append] at same
      rw [← same, stopped_cons] at stopsSecond
      exact absurd stopsSecond (first c (List.mem_cons_self ..))
    | cons d t =>
      simp only [List.cons_append, List.cons.injEq] at same
      obtain ⟨rfl, rest⟩ := ih (fun x member => first x (List.mem_cons_of_mem _ member))
        (fun x member => second x (List.mem_cons_of_mem _ member)) same.2
      exact ⟨by rw [same.1], rest⟩

theorem stops_quote : Stops delimiters '\"' :=
  .inr (.inl rfl)

/-- A bare token and a phrase cannot begin alike. -/
theorem bare_ne_phrase (notEmpty : s ≠ []) (bare : ∀ c ∈ s, ¬ Stops delimiters c) :
    s ++ u ≠ '\"' :: v := by
  cases s with
  | nil => exact absurd rfl notEmpty
  | cons c s =>
    intro same
    have quote : c = '\"' := (List.cons.inj same).1
    exact bare c (List.mem_cons_self ..) (quote ▸ stops_quote)

/-- Two values that begin the same text are the same value, if both are followed by a
character at which a bare token stops. -/
theorem Spells.split (first : Spells delimiters s a) (second : Spells delimiters t b)
    (stopsFirst : Stopped delimiters u) (stopsSecond : Stopped delimiters v)
    (same : s ++ u = t ++ v) : s = t ∧ a = b ∧ u = v := by
  cases first with
  | bare notEmpty bare =>
    cases second with
    | bare _ bare' =>
      obtain ⟨rfl, rest⟩ := token_split bare bare' stopsFirst stopsSecond same
      exact ⟨rfl, rfl, rest⟩
    | phrase _ => exact absurd same (bare_ne_phrase notEmpty bare)
  | phrase quotes =>
    cases second with
    | bare notEmpty bare => exact absurd same.symm (bare_ne_phrase notEmpty bare)
    | phrase quotes' =>
      simp only [List.cons_append, List.append_assoc, List.nil_append, List.cons.injEq,
        true_and] at same
      obtain ⟨rfl, rfl, rest⟩ := quotes.split quotes' same
      exact ⟨rfl, rfl, rest⟩

/-- A text is at most one value. -/
theorem Spells.unique (first : Spells delimiters s a) (second : Spells delimiters s b) :
    a = b :=
  (first.split (u := []) (v := []) second trivial trivial rfl).2.1

theorem stopped_space : Stopped parentheses (' ' :: s) :=
  .inl (by decide)

theorem stopped_close : Stopped parentheses (')' :: s) :=
  .inr (.inr (by decide))

/-- The values before a closing parenthesis, which stands at the end of none of them. -/
theorem Spaced.split {rs qs : List Reading} (first : Spaced s rs) (second : Spaced t qs)
    (same : s ++ [')'] = t ++ [')']) : rs = qs := by
  induction first generalizing t qs with
  | last spells =>
    cases second with
    | last spells' => rw [(spells.split spells' stopped_close stopped_close same).2.1]
    | next spells' _ =>
      rw [List.append_assoc, List.cons_append] at same
      have rest := (spells.split spells' stopped_close stopped_space same).2.2
      simp at rest
  | next spells _ ih =>
    rw [List.append_assoc, List.cons_append] at same
    cases second with
    | last spells' =>
      have rest := (spells.split spells' stopped_space stopped_close same).2.2
      simp at rest
    | next spells' others =>
      rw [List.append_assoc, List.cons_append] at same
      obtain ⟨-, rfl, rest⟩ := spells.split spells' stopped_space stopped_space same
      rw [ih others (List.cons.inj rest).2]

theorem Spaced.ne_nil {rs : List Reading} (spaced : Spaced s rs) : s ≠ [] := by
  cases spaced with
  | last spells =>
    cases spells with
    | bare notEmpty _ => exact notEmpty
    | phrase _ => simp
  | next _ _ => simp

/-- A text is at most one list of values. -/
theorem SpellsList.unique {rs qs : List Reading} (first : SpellsList s rs)
    (second : SpellsList s qs) : rs = qs := by
  cases first with
  | empty =>
    generalize same : ['(', ')'] = text at second
    cases second with
    | empty => rfl
    | some spaced =>
      have empty := congrArg List.length same
      simp only [List.length_cons, List.length_append, List.length_nil] at empty
      exact absurd (List.eq_nil_of_length_eq_zero (by omega)) spaced.ne_nil
  | some spaced =>
    generalize same : '(' :: _ ++ [')'] = text at second
    cases second with
    | empty =>
      have empty := congrArg List.length same
      simp only [List.length_cons, List.length_append, List.length_nil] at empty
      exact absurd (List.eq_nil_of_length_eq_zero (by omega)) spaced.ne_nil
    | some spaced' =>
      simp only [List.cons_append, List.cons.injEq, true_and] at same
      exact spaced.split spaced' same

theorem stopped_blank : Stopped brackets (' ' :: s) :=
  .inl (by decide)

theorem stopped_end (included : Bool) : Stopped brackets [if included then ']' else '}'] := by
  cases included <;> exact .inr (.inr (by decide))

/-- A text is at most one range. -/
theorem SpellsRange.unique {r q : RangeReading} (first : SpellsRange s r)
    (second : SpellsRange s q) : r = q := by
  obtain ⟨f, e, lower, upper⟩ := first
  generalize same : _ ++ [if e then ']' else '}'] = text at second
  obtain ⟨f', e', lower', upper'⟩ := second
  simp only [List.cons_append, List.append_assoc, List.nil_append, List.cons.injEq] at same
  obtain ⟨opening, same⟩ := same
  obtain ⟨-, rfl, same⟩ := lower.split lower' stopped_blank stopped_blank same
  simp only [List.cons.injEq, true_and] at same
  obtain ⟨-, rfl, closing⟩ := upper.split upper' (stopped_end e) (stopped_end e') same
  have sameOpening : f = f' := by cases f <;> cases f' <;> simp_all
  have sameClosing : e = e' := by cases e <;> cases e' <;> simp_all
  rw [sameOpening, sameClosing]

end Solr.Clause
