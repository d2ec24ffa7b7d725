import HttpStub.Text.Utf8
import Mathlib.Tactic.SplitIfs
import Mathlib.Data.List.Basic

namespace HttpStub
namespace Utf8

/-!
# Decoding what was encoded

The decoder reads back every character the encoder writes, whatever bytes
follow it, so the encoding of text decodes to its scalar values, and well
formed text, which holds no lone surrogate, decodes to itself.  This rests
on one lemma per length of sequence: the bytes the encoder writes for a
character of that length pass the decoder's checks on the lead byte and on
each continuation byte, and the value it assembles is the character's.

The bytes of a sequence of two or more are all `0x80` or more, so a byte
below `0x80` in encoded text is one of its characters: a CR or LF byte comes
only from a CR or LF.  And the encoding of text that does not start with
U+FEFF has no byte order mark for a reader of text to drop.
-/

/-- A character is a scalar value: below the surrogates, or above them and
at most U+10FFFF. -/
theorem toNat_scalar (c : Char) :
    c.toNat < 0xD800 ∨ (0xDFFF < c.toNat ∧ c.toNat < 0x110000) := by
  have valid := c.valid
  simpa [UInt32.isValidChar, Nat.isValidChar] using valid

theorem toNat_secondLow (b : UInt8) :
    (secondLow b).toNat =
      if b.toNat = 0xE0 then 0xA0 else if b.toNat = 0xF0 then 0x90 else 0x80 := by
  by_cases e0 : b.toNat = 0xE0 <;> by_cases f0 : b.toNat = 0xF0 <;>
    simp [secondLow, ← UInt8.toNat_inj, e0, f0]

theorem toNat_secondHigh (b : UInt8) :
    (secondHigh b).toNat =
      if b.toNat = 0xED then 0x9F else if b.toNat = 0xF4 then 0x8F else 0xBF := by
  by_cases ed : b.toNat = 0xED <;> by_cases f4 : b.toNat = 0xF4 <;>
    simp [secondHigh, ← UInt8.toNat_inj, ed, f4]

theorem ofNat_eq_of_toNat {c : Char} {n : Nat} (same : n = c.toNat) : Char.ofNat n = c := by
  subst same
  exact Char.ofNat_toNat c

theorem encodeChar_one {c : Char} (size : c.toNat ≤ 0x7F) :
    String.utf8EncodeChar c = [UInt8.ofNat c.toNat] := by
  simp [String.utf8EncodeChar, size]

theorem encodeChar_two {c : Char} (size : 0x7F < c.toNat ∧ c.toNat ≤ 0x7FF) :
    String.utf8EncodeChar c =
      [UInt8.ofNat (c.toNat / 64 % 32 + 0xC0), UInt8.ofNat (c.toNat % 64 + 0x80)] := by
  simp [String.utf8EncodeChar, size.2, Nat.not_le.2 size.1]

theorem encodeChar_three {c : Char} (size : 0x7FF < c.toNat ∧ c.toNat ≤ 0xFFFF) :
    String.utf8EncodeChar c =
      [UInt8.ofNat (c.toNat / 4096 % 16 + 0xE0), UInt8.ofNat (c.toNat / 64 % 64 + 0x80),
        UInt8.ofNat (c.toNat % 64 + 0x80)] := by
  have one : ¬ c.toNat ≤ 0x7F := by omega
  simp [String.utf8EncodeChar, size.2, Nat.not_le.2 size.1, one]

theorem encodeChar_four {c : Char} (size : 0xFFFF < c.toNat) :
    String.utf8EncodeChar c =
      [UInt8.ofNat (c.toNat / 262144 % 8 + 0xF0), UInt8.ofNat (c.toNat / 4096 % 64 + 0x80),
        UInt8.ofNat (c.toNat / 64 % 64 + 0x80), UInt8.ofNat (c.toNat % 64 + 0x80)] := by
  have two : ¬ c.toNat ≤ 0x7FF := by omega
  have one : ¬ c.toNat ≤ 0x7F := by omega
  simp [String.utf8EncodeChar, Nat.not_le.2 size, one, two]

theorem decodeChars_one {b : UInt8} (rest : List UInt8) (lead : b.toNat < 0x80) :
    decodeChars (b :: rest) = Char.ofNat b.toNat :: decodeChars rest := by
  rw [decodeChars.eq_def]
  simp [UInt8.lt_iff_toNat_lt, lead]

theorem decodeChars_two {b0 b1 : UInt8} (rest : List UInt8)
    (lead : 0xC2 ≤ b0.toNat ∧ b0.toNat ≤ 0xDF) (tail : 0x80 ≤ b1.toNat ∧ b1.toNat ≤ 0xBF) :
    decodeChars (b0 :: b1 :: rest) = scalar2 b0 b1 :: decodeChars rest := by
  have notOne : ¬ b0.toNat < 0x80 := by omega
  rw [decodeChars.eq_def]
  simp [UInt8.lt_iff_toNat_lt, UInt8.le_iff_toNat_le, within, lead, tail, notOne]

theorem decodeChars_three {b0 b1 b2 : UInt8} (rest : List UInt8)
    (lead : 0xE0 ≤ b0.toNat ∧ b0.toNat ≤ 0xEF)
    (second : (secondLow b0).toNat ≤ b1.toNat ∧ b1.toNat ≤ (secondHigh b0).toNat)
    (tail : 0x80 ≤ b2.toNat ∧ b2.toNat ≤ 0xBF) :
    decodeChars (b0 :: b1 :: b2 :: rest) = scalar3 b0 b1 b2 :: decodeChars rest := by
  have notOne : ¬ b0.toNat < 0x80 := by omega
  have notTwo : ¬ (0xC2 ≤ b0.toNat ∧ b0.toNat ≤ 0xDF) := by omega
  rw [decodeChars.eq_def]
  simp [UInt8.lt_iff_toNat_lt, UInt8.le_iff_toNat_le, within, lead, tail, second, notOne, notTwo]

theorem decodeChars_four {b0 b1 b2 b3 : UInt8} (rest : List UInt8)
    (lead : 0xF0 ≤ b0.toNat ∧ b0.toNat ≤ 0xF4)
    (second : (secondLow b0).toNat ≤ b1.toNat ∧ b1.toNat ≤ (secondHigh b0).toNat)
    (third : 0x80 ≤ b2.toNat ∧ b2.toNat ≤ 0xBF) (fourth : 0x80 ≤ b3.toNat ∧ b3.toNat ≤ 0xBF) :
    decodeChars (b0 :: b1 :: b2 :: b3 :: rest) = scalar4 b0 b1 b2 b3 :: decodeChars rest := by
  have notOne : ¬ b0.toNat < 0x80 := by omega
  have notTwo : ¬ (0xC2 ≤ b0.toNat ∧ b0.toNat ≤ 0xDF) := by omega
  have notThree : ¬ (0xE0 ≤ b0.toNat ∧ b0.toNat ≤ 0xEF) := by omega
  rw [decodeChars.eq_def]
  simp [UInt8.lt_iff_toNat_lt, UInt8.le_iff_toNat_le, within, lead, second, third, fourth,
    notOne, notTwo, notThree]

theorem decode_encodeChar_four {c : Char} (rest : List UInt8) (size : 0xFFFF < c.toNat) :
    decodeChars (String.utf8EncodeChar c ++ rest) = c :: decodeChars rest := by
  have scalar := toNat_scalar c
  rw [encodeChar_four size, List.cons_append, List.cons_append, List.cons_append,
    List.singleton_append, decodeChars_four rest]
  · congr 1
    exact ofNat_eq_of_toNat (by simp only [UInt8.toNat_ofNat']; omega)
  case second =>
    simp only [UInt8.toNat_ofNat', toNat_secondLow, toNat_secondHigh]
    split_ifs <;> omega
  all_goals simp only [UInt8.toNat_ofNat']; omega

theorem decode_encodeChar_three {c : Char} (rest : List UInt8)
    (size : 0x7FF < c.toNat ∧ c.toNat ≤ 0xFFFF) :
    decodeChars (String.utf8EncodeChar c ++ rest) = c :: decodeChars rest := by
  have scalar := toNat_scalar c
  rw [encodeChar_three size, List.cons_append, List.cons_append, List.singleton_append,
    decodeChars_three rest]
  · congr 1
    exact ofNat_eq_of_toNat (by simp only [UInt8.toNat_ofNat']; omega)
  case second =>
    simp only [UInt8.toNat_ofNat', toNat_secondLow, toNat_secondHigh]
    split_ifs <;> omega
  all_goals simp only [UInt8.toNat_ofNat']; omega

theorem decode_encodeChar_two {c : Char} (rest : List UInt8)
    (size : 0x7F < c.toNat ∧ c.toNat ≤ 0x7FF) :
    decodeChars (String.utf8EncodeChar c ++ rest) = c :: decodeChars rest := by
  rw [encodeChar_two size, List.cons_append, List.singleton_append, decodeChars_two rest]
  · congr 1
    exact ofNat_eq_of_toNat (by simp only [UInt8.toNat_ofNat']; omega)
  all_goals simp only [UInt8.toNat_ofNat']; omega

theorem decode_encodeChar_one {c : Char} (rest : List UInt8) (size : c.toNat ≤ 0x7F) :
    decodeChars (String.utf8EncodeChar c ++ rest) = c :: decodeChars rest := by
  rw [encodeChar_one size, List.singleton_append, decodeChars_one rest]
  · congr 1
    exact ofNat_eq_of_toNat (by simp only [UInt8.toNat_ofNat']; omega)
  · simp only [UInt8.toNat_ofNat']
    omega

theorem decodeChars_encodeChar_append (c : Char) (rest : List UInt8) :
    decodeChars (String.utf8EncodeChar c ++ rest) = c :: decodeChars rest := by
  rcases Nat.lt_or_ge 0x7F c.toNat with wide | narrow
  · rcases Nat.lt_or_ge 0x7FF c.toNat with wider | middle
    · rcases Nat.lt_or_ge 0xFFFF c.toNat with widest | upper
      · exact decode_encodeChar_four rest widest
      · exact decode_encodeChar_three rest ⟨wider, upper⟩
    · exact decode_encodeChar_two rest ⟨wide, middle⟩
  · exact decode_encodeChar_one rest narrow

/-- Decoding the UTF-8 bytes of scalar values gives them back, whatever
follows. -/
theorem decodeChars_flatMap_append (cs : List Char) (rest : List UInt8) :
    decodeChars (cs.flatMap String.utf8EncodeChar ++ rest) = cs ++ decodeChars rest := by
  induction cs with
  | nil => rfl
  | cons c cs ih =>
    rw [List.flatMap_cons, List.append_assoc, decodeChars_encodeChar_append, ih]
    rfl

theorem decodeChars_flatMap (cs : List Char) :
    decodeChars (cs.flatMap String.utf8EncodeChar) = cs := by
  simpa [decodeChars] using decodeChars_flatMap_append cs []

/-- A byte below `0x80` in the encoding of a character is the whole of
it: the bytes of a longer sequence are all `0x80` or more. -/
theorem eq_of_mem_encodeChar {c : Char} {b : UInt8} (mem : b ∈ String.utf8EncodeChar c)
    (ascii : b.toNat < 0x80) : c = Char.ofNat b.toNat := by
  rcases Nat.lt_or_ge 0x7F c.toNat with wide | narrow
  · rcases Nat.lt_or_ge 0x7FF c.toNat with wider | middle
    · rcases Nat.lt_or_ge 0xFFFF c.toNat with widest | upper
      · rw [encodeChar_four widest] at mem
        simp only [List.mem_cons, List.not_mem_nil, or_false] at mem
        rcases mem with rfl | rfl | rfl | rfl <;> simp only [UInt8.toNat_ofNat'] at ascii <;> omega
      · rw [encodeChar_three ⟨wider, upper⟩] at mem
        simp only [List.mem_cons, List.not_mem_nil, or_false] at mem
        rcases mem with rfl | rfl | rfl <;> simp only [UInt8.toNat_ofNat'] at ascii <;> omega
    · rw [encodeChar_two ⟨wide, middle⟩] at mem
      simp only [List.mem_cons, List.not_mem_nil, or_false] at mem
      rcases mem with rfl | rfl <;> simp only [UInt8.toNat_ofNat'] at ascii <;> omega
  · rw [encodeChar_one narrow, List.mem_singleton] at mem
    subst mem
    exact (ofNat_eq_of_toNat (by simp only [UInt8.toNat_ofNat']; omega)).symm

theorem toNat_ofNat_of_valid {n : Nat} (valid : n < 0xD800 ∨ (0xDFFF < n ∧ n < 0x110000)) :
    (Char.ofNat n).toNat = n := by
  rw [Char.ofNat, dif_pos valid]
  rfl

/-! ## Text and its scalar values

Text holds a lone surrogate as the mark and a stand-in, and a mark of its
own as two marks, so the text of scalar values is their `escape`, and their
scalars read it back (`scalars_escape`).  Well formed text, free of lone
surrogates, is the text of its scalar values; text without a mark is the
text of itself.  Scalar values follow text through concatenation when no
mark reaches across the seam: after well formed text, and before text that
starts with a plain character, one that is neither the mark nor a
stand-in.
-/

theorem ne_mark_of_ascii {c : Char} (ascii : c.toNat < 0x80) : c ≠ mark ∧ c ≠ replacement := by
  constructor <;> rintro rfl <;> exact absurd ascii (by decide)

theorem escape_append (cs ds : List Char) : escape (cs ++ ds) = escape cs ++ escape ds := by
  induction cs with
  | nil => rfl
  | cons c cs ih => by_cases marked : c = mark <;> simp [escape, marked, ih]

theorem escape_of_not_mem {cs : List Char} (unmarked : mark ∉ cs) : escape cs = cs := by
  induction cs with
  | nil => rfl
  | cons c cs ih =>
    have other : c ≠ mark := fun same => unmarked (same ▸ List.mem_cons_self)
    rw [escape, if_neg other, ih (fun mem => unmarked (List.mem_cons_of_mem c mem))]

theorem head?_escape (cs : List Char) : (escape cs).head? = cs.head? := by
  cases cs with
  | nil => rfl
  | cons c cs => by_cases marked : c = mark <;> simp [escape, marked]

theorem escape_eq_nil_iff {cs : List Char} : escape cs = [] ↔ cs = [] := by
  rw [← List.head?_eq_none_iff, head?_escape, List.head?_eq_none_iff]

/-- The text of scalar values that starts with an unmarked part is the text
of scalar values that start with that part. -/
theorem escape_eq_append_of_not_mem {cs p rest : List Char} (unmarked : mark ∉ p)
    (split : escape cs = p ++ rest) : ∃ ds, cs = p ++ ds ∧ escape ds = rest := by
  induction p generalizing cs with
  | nil => exact ⟨cs, rfl, split⟩
  | cons c p ih =>
    have other : c ≠ mark := fun same => unmarked (same ▸ List.mem_cons_self)
    cases cs with
    | nil => simp [escape] at split
    | cons d ds =>
      by_cases marked : d = mark
      · rw [escape, if_pos marked, List.cons_append, List.cons.injEq] at split
        exact absurd split.1.symm other
      · rw [escape, if_neg marked, List.cons_append, List.cons.injEq] at split
        obtain ⟨rfl, tail⟩ := split
        obtain ⟨es, rfl, escaped⟩ := ih (fun mem => unmarked (List.mem_cons_of_mem d mem)) tail
        exact ⟨es, rfl, escaped⟩

/-- The scalar values of text that starts as the text of `cs` are `cs`, then
those of the rest. -/
theorem scalars_escape_append (cs ds : List Char) :
    scalars (escape cs ++ ds) = cs ++ scalars ds := by
  unfold scalars
  induction cs with
  | nil => rfl
  | cons c cs ih =>
    by_cases marked : c = mark
    · subst marked
      simp [escape, scalarsAfter, ih]
    · simp [escape, scalarsAfter, marked, ih]

theorem scalars_escape (cs : List Char) : scalars (escape cs) = cs := by
  simpa [scalars, scalarsAfter] using scalars_escape_append cs []

theorem scalars_of_not_mem {cs : List Char} (unmarked : mark ∉ cs) : scalars cs = cs := by
  have read := scalars_escape cs
  rwa [escape_of_not_mem unmarked] at read

/-- After a mark the scalar values start with the mark or with U+FFFD. -/
theorem head?_scalarsAfter_true (cs : List Char) :
    (scalarsAfter true cs).head? = some mark ∨ (scalarsAfter true cs).head? = some replacement := by
  cases cs with
  | nil => simp [scalarsAfter]
  | cons c cs =>
    unfold scalarsAfter
    split_ifs <;> simp

theorem scalarsAfter_true_of_plain {ds : List Char}
    (plain : ∀ d ∈ ds.head?, d ≠ mark ∧ isStandIn d = false) :
    scalarsAfter true ds = mark :: scalarsAfter false ds := by
  cases ds with
  | nil => rfl
  | cons d ds =>
    obtain ⟨other, kept⟩ := plain d rfl
    simp [scalarsAfter, other, kept]

/-- Before text that starts with a plain character, the scalar values of
text are its own, then the rest's. -/
theorem scalarsAfter_append_of_plain (marked : Bool) (cs : List Char) {ds : List Char}
    (plain : ∀ d ∈ ds.head?, d ≠ mark ∧ isStandIn d = false) :
    scalarsAfter marked (cs ++ ds) = scalarsAfter marked cs ++ scalarsAfter false ds := by
  induction cs generalizing marked with
  | nil =>
    cases marked
    · rfl
    · rw [List.nil_append, scalarsAfter_true_of_plain plain]
      rfl
  | cons c cs ih =>
    cases marked <;> simp only [List.cons_append, scalarsAfter, ih] <;> split_ifs <;> rfl

theorem mem_of_mem_scalarsAfter {marked : Bool} {cs : List Char} {c : Char}
    (mem : c ∈ scalarsAfter marked cs) : c ∈ cs ∨ c = mark ∨ c = replacement := by
  induction cs generalizing marked with
  | nil => cases marked <;> simp_all [scalarsAfter]
  | cons d ds ih =>
    cases marked <;> simp only [scalarsAfter] at mem <;> split_ifs at mem <;> grind

theorem mem_of_mem_scalars {cs : List Char} {c : Char} (ascii : c.toNat < 0x80)
    (mem : c ∈ scalars cs) : c ∈ cs := by
  obtain ⟨other, plain⟩ := ne_mark_of_ascii ascii
  rcases mem_of_mem_scalarsAfter mem with inText | marked | replaced
  · exact inText
  · exact absurd marked other
  · exact absurd replaced plain

theorem scalars_ne_nil {cs : List Char} (nonempty : cs ≠ []) : scalars cs ≠ [] := by
  obtain ⟨c, cs, rfl⟩ := List.exists_cons_of_ne_nil nonempty
  by_cases marked : c = mark
  · intro empty
    have first := head?_scalarsAfter_true cs
    rw [scalars, scalarsAfter, if_pos marked] at empty
    rw [empty] at first
    simp at first
  · simp [scalars, scalarsAfter, marked]

/-- Scalar values that start with a character other than the mark and
U+FFFD are those of text that starts with it. -/
theorem head?_of_head?_scalars {cs : List Char} {c : Char} (other : c ≠ mark)
    (plain : c ≠ replacement) (first : (scalars cs).head? = some c) : cs.head? = some c := by
  cases cs with
  | nil => simp [scalars, scalarsAfter] at first
  | cons d ds =>
    by_cases marked : d = mark
    · rw [scalars, scalarsAfter, if_pos marked] at first
      rcases head?_scalarsAfter_true ds with after | after <;> rw [after, Option.some.injEq] at first
      · exact absurd first.symm other
      · exact absurd first.symm plain
    · simpa [scalars, scalarsAfter, marked] using first

/-- Scalar values with neither the mark nor U+FFFD are those of themselves
only. -/
theorem eq_of_scalars_eq {cs ds : List Char} (unmarked : mark ∉ ds) (plain : replacement ∉ ds)
    (same : scalars cs = ds) : cs = ds := by
  induction cs generalizing ds with
  | nil => exact same
  | cons c cs ih =>
    by_cases marked : c = mark
    · rw [scalars, scalarsAfter, if_pos marked] at same
      rcases head?_scalarsAfter_true cs with first | first <;> rw [same] at first
      · exact absurd (List.mem_of_mem_head? first) unmarked
      · exact absurd (List.mem_of_mem_head? first) plain
    · rw [scalars, scalarsAfter, if_neg marked] at same
      subst same
      exact congrArg (c :: ·) (ih (fun mem => unmarked (List.mem_cons_of_mem c mem))
        (fun mem => plain (List.mem_cons_of_mem c mem)) rfl)

/-- Text is well formed when it holds no lone surrogate: it is the text of
its scalar values. -/
def WellFormed (s : String) : Prop :=
  escape (scalars s.toList) = s.toList

instance (s : String) : Decidable (WellFormed s) :=
  inferInstanceAs (Decidable (escape (scalars s.toList) = s.toList))

theorem wellFormed_iff {s : String} : WellFormed s ↔ ∃ cs, s.toList = escape cs :=
  ⟨fun wf => ⟨scalars s.toList, wf.symm⟩,
    fun ⟨cs, text⟩ => by rw [WellFormed, text, scalars_escape]⟩

theorem wellFormed_ofList_escape (cs : List Char) : WellFormed (String.ofList (escape cs)) :=
  wellFormed_iff.2 ⟨cs, String.toList_ofList⟩

theorem wellFormed_of_not_mem {s : String} (unmarked : mark ∉ s.toList) : WellFormed s :=
  wellFormed_iff.2 ⟨s.toList, (escape_of_not_mem unmarked).symm⟩

theorem WellFormed.append {s t : String} (left : WellFormed s) (right : WellFormed t) :
    WellFormed (s ++ t) := by
  obtain ⟨cs, leftText⟩ := wellFormed_iff.1 left
  obtain ⟨ds, rightText⟩ := wellFormed_iff.1 right
  exact wellFormed_iff.2 ⟨cs ++ ds, by rw [String.toList_append, leftText, rightText, escape_append]⟩

/-- Well formed text stays well formed when an unmarked part is taken off
its front. -/
theorem WellFormed.drop_unmarked {s : String} (wf : WellFormed s) {p rest : List Char}
    (unmarked : mark ∉ p) (split : s.toList = p ++ rest) : WellFormed (String.ofList rest) := by
  obtain ⟨cs, text⟩ := wellFormed_iff.1 wf
  obtain ⟨ds, -, escaped⟩ := escape_eq_append_of_not_mem unmarked (text.symm.trans split)
  exact wellFormed_iff.2 ⟨ds, by rw [String.toList_ofList, escaped]⟩

theorem decodeChars_encode (s : String) : decodeChars (encode s) = scalars s.toList :=
  decodeChars_flatMap _

/-- Well formed text is what its encoding decodes to. -/
theorem decode_encode {s : String} (wf : WellFormed s) : decode (encode s) = s := by
  rw [decode, decodeChars_encode, wf, String.ofList_toList]

theorem wellFormed_decode (bytes : List UInt8) : WellFormed (decode bytes) :=
  wellFormed_ofList_escape _

theorem encode_append_of_wellFormed {s : String} (wf : WellFormed s) (t : String) :
    encode (s ++ t) = encode s ++ encode t := by
  obtain ⟨cs, text⟩ := wellFormed_iff.1 wf
  rw [encode, encode, encode, String.toList_append, text, scalars_escape_append, scalars_escape,
    List.flatMap_append]

theorem encode_append_of_plain (s : String) {t : String} {c : Char} (first : t.toList.head? = some c)
    (plain : c ≠ mark ∧ isStandIn c = false) : encode (s ++ t) = encode s ++ encode t := by
  have plainHead : ∀ d ∈ t.toList.head?, d ≠ mark ∧ isStandIn d = false := by
    intro d mem
    rw [Option.mem_def, first, Option.some.injEq] at mem
    exact mem ▸ plain
  rw [encode, String.toList_append, scalars, scalarsAfter_append_of_plain false _ plainHead,
    List.flatMap_append]
  rfl

/-- Parts joined by an unmarked separator that starts with a plain character
encode as their encodings joined by the separator's. -/
theorem encode_intercalate {sep : String} {c : Char} (first : sep.toList.head? = some c)
    (plain : c ≠ mark ∧ isStandIn c = false) (unmarked : mark ∉ sep.toList) (parts : List String) :
    encode (sep.intercalate parts) = (encode sep).intercalate (parts.map encode) := by
  have firstAfter : ∀ t : String, (sep ++ t).toList.head? = some c := by
    intro t
    rw [String.toList_append, List.head?_append, first]
    rfl
  induction parts with
  | nil => rfl
  | cons p ps ih =>
    cases ps with
    | nil => simp
    | cons q qs =>
      rw [String.intercalate_cons_cons, String.append_assoc,
        encode_append_of_plain _ (firstAfter _) plain,
        encode_append_of_wellFormed (wellFormed_of_not_mem unmarked), ih, List.map_cons,
        List.map_cons, List.map_cons, List.intercalate_cons_cons, List.append_assoc]

/-- An ASCII byte of encoded text is one of the text's characters. -/
theorem mem_of_mem_encode {s : String} {b : UInt8} (mem : b ∈ encode s)
    (ascii : b.toNat < 0x80) : Char.ofNat b.toNat ∈ s.toList := by
  obtain ⟨c, inScalars, inChar⟩ := List.mem_flatMap.1 mem
  have same := eq_of_mem_encodeChar inChar ascii
  subst same
  exact mem_of_mem_scalars (by rw [toNat_ofNat_of_valid (.inl (by omega))]; exact ascii) inScalars

theorem encode_ne_nil {s : String} (nonempty : s ≠ "") : encode s ≠ [] := by
  have listed : s.toList ≠ [] := by simpa using nonempty
  obtain ⟨c, cs, split⟩ := List.exists_cons_of_ne_nil (scalars_ne_nil listed)
  rw [encode, split, List.flatMap_cons]
  exact List.append_ne_nil_of_left_ne_nil String.utf8EncodeChar_ne_nil _

theorem cr_not_mem_encode {s : String} (noCR : '\r' ∉ s.toList) : (13 : UInt8) ∉ encode s :=
  fun mem => noCR (mem_of_mem_encode mem (by decide))

/-- Text with neither the mark nor U+FFFD shares its encoding with no other
text: a lone surrogate elsewhere would decode to a U+FFFD it lacks. -/
theorem eq_of_encode_eq {s t : String} (unmarked : mark ∉ t.toList)
    (plain : replacement ∉ t.toList) (same : encode s = encode t) : s = t := by
  have decoded := congrArg decodeChars same
  rw [decodeChars_encode, decodeChars_encode, scalars_of_not_mem unmarked] at decoded
  exact String.toList_inj.1 (eq_of_scalars_eq unmarked plain decoded)

theorem decodeChars_byteOrderMark (rest : List UInt8) :
    decodeChars (byteOrderMark ++ rest) = '﻿' :: decodeChars rest := by
  rw [byteOrderMark, List.cons_append, List.cons_append, List.singleton_append,
    decodeChars_three rest]
  · rfl
  all_goals decide

/-- The encoding of text that does not start with U+FEFF has no byte order
mark to drop. -/
theorem dropByteOrderMark_encode {s : String} (noOrderMark : s.toList.head? ≠ some '﻿') :
    dropByteOrderMark (encode s) = encode s := by
  unfold dropByteOrderMark
  split
  · rename_i rest marked
    have decoded := decodeChars_encode s
    have leading : decodeChars (0xEF :: 0xBB :: 0xBF :: rest) = '﻿' :: decodeChars rest :=
      decodeChars_byteOrderMark rest
    rw [marked, leading] at decoded
    exact absurd (head?_of_head?_scalars (by decide) (by decide) (by rw [← decoded]; rfl))
      noOrderMark
  · rfl

end Utf8
end HttpStub
