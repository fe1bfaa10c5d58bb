import Solr.Proofs.Text.Utf8
import Solr.Url.Form

/-! A form is read back as the pairs that it was made of, whatever texts these are. -/
namespace Solr

namespace Text

variable {separator : Char}

theorem splitAt_of_notMem {s : List Char} (absent : separator ∉ s) :
    splitAt separator s = [s] := by
  induction s with
  | nil => rfl
  | cons c rest ih =>
    rw [List.mem_cons, not_or] at absent
    rw [splitAt, if_neg (Ne.symm absent.1), ih absent.2]

theorem splitAt_append (s rest : List Char) :
    splitAt separator (s ++ separator :: rest) = splitAt separator s ++ splitAt separator rest := by
  induction s with
  | nil => simp [splitAt]
  | cons c s ih =>
    rw [List.cons_append, splitAt, splitAt, ih]
    by_cases same : c = separator
    · rw [if_pos same, if_pos same, List.cons_append]
    · rw [if_neg same, if_neg same]
      cases pieces : splitAt separator s with
      | nil => exact absurd pieces (splitAt_ne_nil separator s)
      | cons piece others => rfl

/-- Pieces without the separator are found again. -/
theorem splitAt_intercalate {pieces : List (List Char)} (notEmpty : pieces ≠ [])
    (absent : ∀ p ∈ pieces, separator ∉ p) :
    splitAt separator (List.intercalate [separator] pieces) = pieces := by
  induction pieces with
  | nil => exact absurd rfl notEmpty
  | cons p others ih =>
    obtain ⟨here, later⟩ := List.forall_mem_cons.mp absent
    cases others with
    | nil => simpa using splitAt_of_notMem here
    | cons q others =>
      rw [List.intercalate_cons_cons, List.append_assoc, List.singleton_append,
        splitAt_append, splitAt_of_notMem here, ih (List.cons_ne_nil q others) later,
        List.singleton_append]

theorem splitOnce?_of_notMem {s : List Char} (absent : separator ∉ s) :
    splitOnce? separator s = none := by
  induction s with
  | nil => rfl
  | cons c s ih =>
    rw [List.mem_cons, not_or] at absent
    rw [splitOnce?, if_neg (Ne.symm absent.1), ih absent.2, Option.map_none]

theorem splitOnce?_eq_none_iff {s : List Char} : splitOnce? separator s = none ↔ separator ∉ s := by
  refine ⟨fun undivided => ?_, splitOnce?_of_notMem⟩
  induction s with
  | nil => exact List.not_mem_nil
  | cons c s ih =>
    by_cases same : c = separator
    · rw [splitOnce?, if_pos same] at undivided
      cases undivided
    · rw [splitOnce?, if_neg same, Option.map_eq_none_iff] at undivided
      exact List.not_mem_cons_of_ne_of_not_mem (Ne.symm same) (ih undivided)

theorem splitOnce?_append {before : List Char} (absent : separator ∉ before) (after : List Char) :
    splitOnce? separator (before ++ separator :: after) = some (before, after) :=
  splitOnce?_eq_some_iff.mpr ⟨rfl, absent⟩

end Text

namespace Url

theorem unescape_cons {c : Char} (notPercent : c ≠ '%') (rest : List Char) :
    unescape (c :: rest) = String.utf8EncodeChar c ++ unescape rest := by
  rw [unescape]
  intro a b s same
  exact absurd same notPercent

/-- An escape is a percent sign and digits, none of which has another meaning. -/
theorem escapeByte_chars {b : UInt8} {c : Char} (member : c ∈ escapeByte b) :
    c ∉ ['+', '&', '=', '?'] := by
  have digit : ∀ n < 16, upperHexDigit n ∉ ['+', '&', '=', '?'] := by decide
  simp only [escapeByte, List.mem_cons, List.not_mem_nil, or_false] at member
  rcases member with rfl | rfl | rfl
  · decide
  · exact digit _ (by have := b.toNat_lt; omega)
  · exact digit _ (by omega)

namespace Form

def plusToBlank (c : Char) : Char :=
  if c = '+' then ' ' else c

theorem plain_chars : ∀ n < 256, plain (UInt8.ofNat n) = true →
    Char.ofNat n ∉ ['+', '%', '&', '='] ∧
      String.utf8EncodeChar (Char.ofNat n) = [UInt8.ofNat n] := by
  decide +kernel

theorem plain_byte {b : UInt8} (isPlain : plain b = true) :
    Char.ofNat b.toNat ∉ ['+', '%', '&', '='] ∧
      String.utf8EncodeChar (Char.ofNat b.toNat) = [b] := by
  have same : UInt8.ofNat b.toNat = b := UInt8.ofNat_toNat
  have facts := plain_chars b.toNat b.toNat_lt (by rw [same, isPlain])
  rwa [same] at facts

theorem unescape_encodeByte (b : UInt8) (rest : List Char) :
    unescape ((encodeByte b).map plusToBlank ++ rest) = b :: unescape rest := by
  unfold encodeByte
  split
  · rename_i isPlain
    obtain ⟨char, bytes⟩ := plain_byte isPlain
    simp only [List.mem_cons, List.not_mem_nil, or_false, not_or] at char
    rw [List.map_singleton, plusToBlank, if_neg char.1, List.singleton_append,
      unescape_cons char.2.1, bytes, List.singleton_append]
  · split
    · rename_i blank
      subst blank
      exact unescape_cons (by decide) rest
    · have kept : (escapeByte b).map plusToBlank = escapeByte b := by
        refine (List.map_congr_left fun c member => ?_).trans (List.map_id _)
        have char := escapeByte_chars member
        simp only [List.mem_cons, not_or] at char
        exact if_neg char.1
      rw [kept, unescape_escapeByte]

theorem encodeByte_chars {b : UInt8} {c : Char} (member : c ∈ encodeByte b) :
    c ≠ '&' ∧ c ≠ '=' := by
  unfold encodeByte at member
  split at member
  · rename_i isPlain
    obtain ⟨char, -⟩ := plain_byte isPlain
    rw [List.mem_singleton.mp member]
    simp only [List.mem_cons, List.not_mem_nil, or_false, not_or] at char
    exact char.2.2
  · split at member
    · rw [List.mem_singleton.mp member]
      decide
    · have char := escapeByte_chars member
      simp only [List.mem_cons, List.not_mem_nil, or_false, not_or] at char
      exact ⟨char.2.1, char.2.2.1⟩

theorem encodeText_chars {s : List Char} {c : Char} (member : c ∈ encodeText s) :
    c ≠ '&' ∧ c ≠ '=' := by
  obtain ⟨b, -, member⟩ := List.mem_flatMap.mp member
  exact encodeByte_chars member

theorem unescape_encodeText (bytes : List UInt8) :
    unescape ((bytes.flatMap encodeByte).map plusToBlank) = bytes := by
  induction bytes with
  | nil => rfl
  | cons b bytes ih => rw [List.flatMap_cons, List.map_append, unescape_encodeByte, ih]

theorem decodeText_encodeText (s : String) : decodeText (encodeText s.toList) = s := by
  have bytes := unescape_encodeText (Text.utf8 s.toList)
  unfold decodeText encodeText
  change String.ofList (Text.readUtf8 (unescape (List.map plusToBlank _))) = s
  rw [bytes, Text.readUtf8_utf8, String.ofList_toList]

theorem decodePair_encodePair (p : String × String) : decodePair (encodePair p) = p := by
  have split : Text.splitOnce? '=' (encodePair p) =
      some (encodeText p.1.toList, encodeText p.2.toList) :=
    Text.splitOnce?_append (fun member => (encodeText_chars member).2 rfl) _
  rw [decodePair, split]
  simp only [decodeText_encodeText]

/-- What is encoded as a form is decoded to the same pairs in the same order. -/
theorem decode_encode (pairs : List (String × String)) : decode (encode pairs) = pairs := by
  by_cases empty : pairs = []
  · subst empty
    rfl
  · have absent : ∀ piece ∈ pairs.map encodePair, '&' ∉ piece := by
      intro piece member
      obtain ⟨p, -, rfl⟩ := List.mem_map.mp member
      simp only [encodePair, List.mem_append, List.mem_cons, not_or]
      exact ⟨fun member => (encodeText_chars member).1 rfl, by decide,
        fun member => (encodeText_chars member).1 rfl⟩
    have kept : (pairs.map encodePair).filter (· ≠ []) = pairs.map encodePair := by
      rw [List.filter_eq_self]
      intro piece member
      obtain ⟨p, -, rfl⟩ := List.mem_map.mp member
      simp [encodePair]
    rw [decode, encode, Text.splitAt_intercalate (by simpa using empty) absent, kept, List.map_map]
    simp [Function.comp_def, decodePair_encodePair]

theorem decode_append (query rest : List Char) :
    decode (query ++ '&' :: rest) = decode query ++ decode rest := by
  rw [decode, Text.splitAt_append, List.filter_append, List.map_append, ← decode, ← decode]

end Form
end Url
end Solr
