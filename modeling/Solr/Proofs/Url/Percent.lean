import Solr.Proofs.Url.Form

/-! What a text with percent escapes stands for. A path stands for the same as it is sent,
and for its own bytes only if it holds no escape. -/
namespace Solr.Url

open Text (hexValue? utf8)

/-- The byte that two hexadecimal digits at the start denote. -/
def hexByte? : List Char → Option UInt8
  | a :: b :: _ =>
    match hexValue? a, hexValue? b with
    | some x, some y => some (UInt8.ofNat (16 * x + y))
    | _, _ => none
  | _ => none

/-- Somewhere two hexadecimal digits follow a percent sign. -/
def HoldsEscape (s : List Char) : Prop :=
  ∃ t, '%' :: t <:+ s ∧ (hexByte? t).isSome = true

section Digits

variable {t : List Char} {b : UInt8}

theorem hexByte?_eq_some_iff :
    hexByte? t = some b ↔ ∃ c d rest x y, t = c :: d :: rest ∧ hexValue? c = some x ∧
      hexValue? d = some y ∧ b = UInt8.ofNat (16 * x + y) := by
  constructor
  · intro byte
    match t, byte with
    | c :: d :: rest, byte =>
      rw [hexByte?] at byte
      split at byte
      · rename_i x y first second
        exact ⟨c, d, rest, x, y, rfl, first, second, (Option.some.inj byte).symm⟩
      · contradiction
  · rintro ⟨c, d, rest, x, y, rfl, first, second, rfl⟩
    rw [hexByte?, first, second]

theorem hexByte?_cons {c : Char} (noDigit : hexValue? c = none) (rest : List Char) :
    hexByte? (c :: rest) = none := by
  cases rest with
  | nil => rfl
  | cons d rest => rw [hexByte?, noDigit]

theorem hexByte?_cons_cons {d : Char} (noDigit : hexValue? d = none) (c : Char)
    (rest : List Char) : hexByte? (c :: d :: rest) = none := by
  rw [hexByte?, noDigit]
  cases hexValue? c <;> rfl

/-- What follows something that is no digit does not count. -/
theorem hexByte?_append_cons {c : Char} (noDigit : hexValue? c = none) (t more : List Char) :
    hexByte? (t ++ c :: more) = hexByte? t := by
  match t with
  | [] => exact hexByte?_cons noDigit more
  | [d] => exact hexByte?_cons_cons noDigit d more
  | _ :: _ :: _ => rfl

end Digits

theorem unescape_escape {t : List Char} {b : UInt8} (byte : hexByte? t = some b) :
    unescape ('%' :: t) = b :: unescape (t.drop 2) := by
  obtain ⟨c, d, rest, x, y, rfl, first, second, rfl⟩ := hexByte?_eq_some_iff.mp byte
  rw [unescape, first, second]
  rfl

theorem unescape_percent {t : List Char} (noByte : hexByte? t = none) :
    unescape ('%' :: t) = 0x25 :: unescape t := by
  match t, noByte with
  | [], _ => rfl
  | [_], _ => rfl
  | c :: d :: rest, noByte =>
    rw [unescape]
    cases first : hexValue? c with
    | none => rfl
    | some x =>
      cases second : hexValue? d with
      | none => rfl
      | some y =>
        rw [hexByte?, first, second] at noByte
        cases noByte

/-- A text is taken apart from the front: characters, escapes, and percent signs that open
no escape. -/
theorem escapeInduction {P : List Char → Prop} (nil : P [])
    (character : ∀ c rest, c ≠ '%' → P rest → P (c :: rest))
    (escape : ∀ t b, hexByte? t = some b → P (t.drop 2) → P ('%' :: t))
    (percent : ∀ t, hexByte? t = none → P t → P ('%' :: t)) (s : List Char) : P s := by
  match s with
  | [] => exact nil
  | c :: rest =>
    have later := escapeInduction nil character escape percent rest
    by_cases sign : c = '%'
    · subst sign
      cases byte : hexByte? rest with
      | none => exact percent rest byte later
      | some b =>
        exact escape rest b byte
          (escapeInduction nil character escape percent (rest.drop 2))
    · exact character c rest sign later
termination_by s.length
decreasing_by all_goals simp only [List.length_cons, List.length_drop]; omega

/-- What stands before something that is no digit is read on its own. -/
theorem unescape_append_cons {c : Char} (noDigit : hexValue? c = none) (s more : List Char) :
    unescape (s ++ c :: more) = unescape s ++ unescape (c :: more) := by
  induction s using escapeInduction with
  | nil => rfl
  | character d rest sign ih =>
    rw [List.cons_append, unescape_cons sign, unescape_cons sign, ih, List.append_assoc]
  | escape t b byte ih =>
    have enough : 2 ≤ t.length := by
      obtain ⟨_, _, rest, _, _, rfl, _⟩ := hexByte?_eq_some_iff.mp byte
      simp
    have same := hexByte?_append_cons noDigit t more
    rw [List.cons_append, unescape_escape (same.trans byte),
      List.drop_append_of_le_length enough, ih, unescape_escape byte, List.cons_append]
  | percent t noByte ih =>
    have same := hexByte?_append_cons noDigit t more
    rw [List.cons_append, unescape_percent (same.trans noByte), ih, unescape_percent noByte,
      List.cons_append]

section Paths

theorem escapePath_append (s t : List Char) :
    escapePath (s ++ t) = escapePath s ++ escapePath t :=
  List.flatMap_append

theorem escapePath_cons (c : Char) (rest : List Char) :
    escapePath (c :: rest) = escapePath [c] ++ escapePath rest :=
  escapePath_append [c] rest

theorem escapePath_cons_plain {c : Char} (plain : plainInPath c = true) (rest : List Char) :
    escapePath (c :: rest) = c :: escapePath rest := by
  simp [escapePath, escape, plain]

theorem escapePath_special {c : Char} (special : plainInPath c = false) :
    escapePath [c] = (String.utf8EncodeChar c).flatMap escapeByte := by
  simp [escapePath, escape, special]

theorem escapePath_cons_special {c : Char} (special : plainInPath c = false)
    (rest : List Char) : ∃ more, escapePath (c :: rest) = '%' :: more := by
  obtain ⟨b, bytes, encoded⟩ := List.exists_cons_of_ne_nil (String.utf8EncodeChar_ne_nil (c := c))
  rw [escapePath_cons, escapePath_special special, encoded]
  exact ⟨_, rfl⟩

theorem hexDigits_plain :
    ∀ n < 128, (hexValue? (Char.ofNat n)).isSome = true → plainInPath (Char.ofNat n) = true := by
  decide +kernel

theorem plainInPath_of_hexValue? {c : Char} {n : Nat} (digit : hexValue? c = some n) :
    plainInPath c = true := by
  have small : c.toNat < 128 := by
    have below (d : Char) (ascii : d.toNat < 128) (notAbove : c ≤ d) : c.toNat < 128 :=
      Nat.lt_of_le_of_lt notAbove ascii
    unfold hexValue? at digit
    split at digit
    · rename_i range
      exact below '9' (by decide) range.2
    split at digit
    · rename_i range
      exact below 'f' (by decide) range.2
    split at digit
    · rename_i range
      exact below 'F' (by decide) range.2
    · cases digit
  have same : Char.ofNat c.toNat = c := Char.ofNat_toNat c
  have plain := hexDigits_plain c.toNat small
  rw [same, digit] at plain
  exact plain rfl

theorem hexValue?_special {c : Char} (special : plainInPath c = false) : hexValue? c = none := by
  cases digit : hexValue? c with
  | none => rfl
  | some n =>
    rw [plainInPath_of_hexValue? digit] at special
    cases special

/-- A text opens with the same digits as it is sent. -/
theorem hexByte?_escapePath (t : List Char) : hexByte? (escapePath t) = hexByte? t := by
  have percent : hexValue? '%' = none := by decide
  match t with
  | [] => rfl
  | c :: rest =>
    cases first : plainInPath c with
    | false =>
      obtain ⟨more, sent⟩ := escapePath_cons_special first rest
      rw [sent, hexByte?_cons percent, hexByte?_cons (hexValue?_special first)]
    | true =>
      rw [escapePath_cons_plain first]
      match rest with
      | [] => rfl
      | d :: rest =>
        cases second : plainInPath d with
        | false =>
          obtain ⟨more, sent⟩ := escapePath_cons_special second rest
          rw [sent, hexByte?_cons_cons percent, hexByte?_cons_cons (hexValue?_special second)]
        | true => rw [escapePath_cons_plain second, hexByte?, hexByte?]

theorem drop_escapePath {t : List Char} {b : UInt8} (byte : hexByte? t = some b) :
    (escapePath t).drop 2 = escapePath (t.drop 2) := by
  obtain ⟨c, d, rest, x, y, rfl, first, second, -⟩ := hexByte?_eq_some_iff.mp byte
  rw [escapePath_cons_plain (plainInPath_of_hexValue? first),
    escapePath_cons_plain (plainInPath_of_hexValue? second)]
  rfl

theorem unescape_flatMap_escapeByte (bytes : List UInt8) (rest : List Char) :
    unescape (bytes.flatMap escapeByte ++ rest) = bytes ++ unescape rest := by
  induction bytes with
  | nil => rfl
  | cons b bytes ih =>
    rw [List.flatMap_cons, List.append_assoc, unescape_escapeByte, ih, List.cons_append]

/-- A text stands for the same as it is sent. -/
theorem unescape_escapePath (s : List Char) : unescape (escapePath s) = unescape s := by
  induction s using escapeInduction with
  | nil => rfl
  | character c rest sign ih =>
    cases plain : plainInPath c with
    | true => rw [escapePath_cons_plain plain, unescape_cons sign, unescape_cons sign, ih]
    | false =>
      rw [escapePath_cons, escapePath_special plain, unescape_flatMap_escapeByte,
        unescape_cons sign, ih]
  | escape t b byte ih =>
    rw [escapePath_cons_plain (by decide), unescape_escape ((hexByte?_escapePath t).trans byte),
      drop_escapePath byte, ih, unescape_escape byte]
  | percent t noByte ih =>
    rw [escapePath_cons_plain (by decide), unescape_percent ((hexByte?_escapePath t).trans noByte),
      ih, unescape_percent noByte]

end Paths

section Literal

theorem not_holdsEscape_nil : ¬HoldsEscape [] := by
  rintro ⟨t, suffix, -⟩
  exact absurd (List.suffix_nil.mp suffix) (List.cons_ne_nil _ _)

theorem holdsEscape_cons {c : Char} (sign : c ≠ '%') (rest : List Char) :
    HoldsEscape (c :: rest) ↔ HoldsEscape rest := by
  unfold HoldsEscape
  simp only [List.suffix_cons_iff, List.cons.injEq, Ne.symm sign, false_and, false_or]

theorem holdsEscape_percent (t : List Char) :
    HoldsEscape ('%' :: t) ↔ (hexByte? t).isSome = true ∨ HoldsEscape t := by
  unfold HoldsEscape
  simp only [List.suffix_cons_iff, List.cons.injEq, true_and, or_and_right, exists_or,
    exists_eq_left]

/-- No escape reaches over something that is no part of one. -/
theorem holdsEscape_append_cons {c : Char} (noDigit : hexValue? c = none) (noSign : c ≠ '%')
    (s more : List Char) : HoldsEscape (s ++ c :: more) ↔ HoldsEscape s ∨ HoldsEscape more := by
  induction s with
  | nil => rw [List.nil_append, holdsEscape_cons noSign, or_iff_right not_holdsEscape_nil]
  | cons d rest ih =>
    by_cases sign : d = '%'
    · rw [sign, List.cons_append, holdsEscape_percent, holdsEscape_percent,
        hexByte?_append_cons noDigit, ih, or_assoc]
    · rw [List.cons_append, holdsEscape_cons sign, holdsEscape_cons sign, ih]

theorem utf8_cons (c : Char) (rest : List Char) :
    utf8 (c :: rest) = String.utf8EncodeChar c ++ utf8 rest :=
  List.flatMap_cons

/-- No more bytes than a text has are denoted by it, and fewer if there is an escape. -/
theorem unescape_literal (s : List Char) :
    ¬HoldsEscape s ∧ unescape s = utf8 s ∨
      HoldsEscape s ∧ (unescape s).length < (utf8 s).length := by
  induction s using escapeInduction with
  | nil => exact .inl ⟨not_holdsEscape_nil, rfl⟩
  | character c rest sign ih =>
    rw [holdsEscape_cons sign, unescape_cons sign, utf8_cons, List.append_right_inj,
      List.length_append, List.length_append, Nat.add_lt_add_iff_left]
    exact ih
  | escape t b byte ih =>
    refine .inr ⟨(holdsEscape_percent t).mpr (.inl (Option.isSome_of_eq_some byte)), ?_⟩
    obtain ⟨c, d, rest, x, y, rfl, -⟩ := hexByte?_eq_some_iff.mp byte
    have notLonger : (unescape rest).length ≤ (utf8 rest).length := by
      rcases ih with ⟨-, same⟩ | ⟨-, shorter⟩
      · exact Nat.le_of_eq (congrArg List.length same)
      · exact Nat.le_of_lt shorter
    have first := List.length_pos_iff.mpr (String.utf8EncodeChar_ne_nil (c := c))
    have second := List.length_pos_iff.mpr (String.utf8EncodeChar_ne_nil (c := d))
    rw [unescape_escape byte, List.length_cons, utf8_cons, utf8_cons, utf8_cons]
    simp only [List.length_append, List.drop_succ_cons, List.drop_zero]
    omega
  | percent t noByte ih =>
    have sign : utf8 ('%' :: t) = 0x25 :: utf8 t := rfl
    rw [holdsEscape_percent, noByte, unescape_percent noByte, sign, List.cons_inj_right,
      List.length_cons, List.length_cons, Nat.add_lt_add_iff_right]
    simpa using ih

theorem unescape_eq_utf8_iff {s : List Char} : unescape s = utf8 s ↔ ¬HoldsEscape s := by
  rcases unescape_literal s with ⟨literal, same⟩ | ⟨holds, shorter⟩
  · exact iff_of_true same literal
  · exact iff_of_false (fun same => by rw [same] at shorter; omega) (not_not_intro holds)

end Literal

end Solr.Url
