import HttpStub.Proofs.RequestLine

/-!
# The first line, cut before or after decoding

The reader of a request cuts the raw bytes at their first CR LF and decodes
the bytes before it.  Decoding first and cutting the text at its first CR LF
gives the same line, for every byte string, well formed or not
(`decodeText_firstLine`), so the request line read from bytes is the one read
from their text (`RequestLine.parse?_eq_ofText_lineOfText`).

Three facts about the decoder carry this.

* It resynchronises at every ASCII byte: a byte below `0x80` is never taken
  as part of a longer sequence, and a sequence it cuts short gives one
  U+FFFD, just as when the input ends there.  So decoding splits at such a
  byte (`Utf8.decodeChars_append_ascii`).
* Bytes of `0x80` and above decode only to characters of U+0080 and above
  (`Utf8.high_of_mem_decodeChars`): the decoder assembles scalar values
  only, and a lead byte that starts a longer sequence puts bits above the
  ASCII range into it.  So a CR in the text comes from a CR byte.
* A LF at the head of the text comes from a LF byte
  (`Utf8.head?_decodeChars_lf`).

A byte order mark holds no CR, so dropping it and cutting the line commute.
-/

namespace HttpStub

/-- The part of a sequence before the first `a` that is directly followed by
`b`, or all of it when there is none. -/
def beforePair {α : Type} [DecidableEq α] (a b : α) : List α → List α
  | [] => []
  | x :: xs => if x = a ∧ xs.head? = some b then [] else x :: beforePair a b xs

/-- The first line of a text: its part before the first CR LF, or all of it. -/
def lineOfText (text : String) : String :=
  String.ofList (beforePair '\r' '\n' text.toList)

section beforePair

variable {α : Type} [DecidableEq α] {a b : α}

@[simp] theorem beforePair_pair (xs : List α) : beforePair a b (a :: b :: xs) = [] := by
  simp [beforePair]

theorem beforePair_cons {x : α} {xs : List α} (apart : ¬ (x = a ∧ xs.head? = some b)) :
    beforePair a b (x :: xs) = x :: beforePair a b xs := by
  rw [beforePair, if_neg apart]

theorem beforePair_append_of_not_mem {xs : List α} (absent : a ∉ xs) (ys : List α) :
    beforePair a b (xs ++ ys) = xs ++ beforePair a b ys := by
  induction xs with
  | nil => rfl
  | cons x xs ih =>
    have differ : x ≠ a := fun same => absent (same ▸ List.mem_cons_self)
    rw [List.cons_append, beforePair_cons (fun both => differ both.1),
      ih (fun mem => absent (List.mem_cons_of_mem _ mem)), List.cons_append]

theorem beforePair_of_not_mem {xs : List α} (absent : a ∉ xs) : beforePair a b xs = xs := by
  simpa [beforePair] using beforePair_append_of_not_mem (b := b) absent []

theorem isPrefix_beforePair (xs : List α) : beforePair a b xs <+: xs := by
  induction xs with
  | nil => exact List.prefix_refl _
  | cons x xs ih =>
    unfold beforePair
    split
    · exact List.nil_prefix
    · exact (List.prefix_cons_inj x).2 ih

end beforePair

namespace Utf8

theorem within_ascii {lo hi x : UInt8} (low : 0x80 ≤ lo.toNat) (ascii : x.toNat < 0x80) :
    within lo hi x = false := by
  simp only [within, UInt8.le_iff_toNat_le, Bool.and_eq_false_iff, decide_eq_false_iff_not]
  omega

theorem secondLow_high (b : UInt8) : 0x80 ≤ (secondLow b).toNat := by
  rw [toNat_secondLow]
  split_ifs <;> omega

/-- Decoding splits at an ASCII byte: a sequence that the byte cuts short
decodes as it does at the end of the input. -/
theorem decodeChars_append_ascii {x : UInt8} (ascii : x.toNat < 0x80) (rest : List UInt8)
    (bytes : List UInt8) :
    decodeChars (bytes ++ x :: rest) = decodeChars bytes ++ decodeChars (x :: rest) := by
  have tail : within 0x80 0xBF x = false := within_ascii (by decide) ascii
  have second : ∀ b, within (secondLow b) (secondHigh b) x = false :=
    fun b => within_ascii (secondLow_high b) ascii
  fun_induction decodeChars bytes <;> simp only [List.cons_append, List.nil_append] at *
  all_goals (rw [decodeChars.eq_def]; simp [*])

theorem replacement_high : 0x80 ≤ replacement.toNat := by decide

theorem scalar2_high {b0 : UInt8} (b1 : UInt8) (lead : (0xC2 ≤ b0 && b0 ≤ 0xDF) = true) :
    0x80 ≤ (scalar2 b0 b1).toNat := by
  simp only [Bool.and_eq_true, decide_eq_true_eq, UInt8.le_iff_toNat_le] at lead
  have low : b1.toNat % 64 < 64 := Nat.mod_lt _ (by decide)
  rw [scalar2, toNat_ofNat_of_valid (by simp only [UInt8.toNat_ofNat] at lead; omega)]
  simp only [UInt8.toNat_ofNat] at lead
  omega

/-- A three-byte sequence assembles a value of U+0800 and above, outside the
surrogates: the bounds on the second byte exclude both. -/
theorem scalar3_high {b0 b1 : UInt8} (b2 : UInt8) (lead : (0xE0 ≤ b0 && b0 ≤ 0xEF) = true)
    (second : within (secondLow b0) (secondHigh b0) b1 = true) :
    0x80 ≤ (scalar3 b0 b1 b2).toNat := by
  simp only [Bool.and_eq_true, decide_eq_true_eq, UInt8.le_iff_toNat_le, within] at lead second
  rw [toNat_secondLow, toNat_secondHigh] at second
  simp only [UInt8.toNat_ofNat] at lead
  have low : b2.toNat % 64 < 64 := Nat.mod_lt _ (by decide)
  rw [scalar3, toNat_ofNat_of_valid (by split_ifs at second <;> omega)]
  split_ifs at second <;> omega

theorem scalar4_high {b0 b1 : UInt8} (b2 b3 : UInt8) (lead : (0xF0 ≤ b0 && b0 ≤ 0xF4) = true)
    (second : within (secondLow b0) (secondHigh b0) b1 = true) :
    0x80 ≤ (scalar4 b0 b1 b2 b3).toNat := by
  simp only [Bool.and_eq_true, decide_eq_true_eq, UInt8.le_iff_toNat_le, within] at lead second
  rw [toNat_secondLow, toNat_secondHigh] at second
  simp only [UInt8.toNat_ofNat] at lead
  have third : b2.toNat % 64 < 64 := Nat.mod_lt _ (by decide)
  have fourth : b3.toNat % 64 < 64 := Nat.mod_lt _ (by decide)
  rw [scalar4, toNat_ofNat_of_valid (by split_ifs at second <;> omega)]
  split_ifs at second <;> omega

theorem high_of_mem_decodeChars {bytes : List UInt8} (high : ∀ b ∈ bytes, 0x80 ≤ b.toNat) :
    ∀ c ∈ decodeChars bytes, 0x80 ≤ c.toNat := by
  fun_induction decodeChars bytes
  case case1 => simp
  case case2 b0 rest ascii _ =>
    have : b0.toNat < 0x80 := by simpa [UInt8.lt_iff_toNat_lt] using ascii
    exact absurd (high b0 List.mem_cons_self) (by omega)
  case case3 | case6 | case7 | case11 | case12 | case13 => simpa using replacement_high
  case case4 lead b1 rest1 _ ih =>
    exact List.forall_mem_cons.2 ⟨scalar2_high b1 lead, ih fun b mem => high b (by simp [mem])⟩
  case case8 lead b1 second b2 rest2 _ ih =>
    exact List.forall_mem_cons.2
      ⟨scalar3_high b2 lead second, ih fun b mem => high b (by simp [mem])⟩
  case case14 lead b1 second b2 _ b3 rest3 _ ih =>
    exact List.forall_mem_cons.2
      ⟨scalar4_high b2 b3 lead second, ih fun b mem => high b (by simp [mem])⟩
  all_goals
    rename_i ih
    exact List.forall_mem_cons.2 ⟨replacement_high, ih fun b mem => high b (by simp [mem])⟩

theorem ne_of_high {c d : Char} (high : 0x80 ≤ c.toNat) (low : d.toNat < 0x80) : c ≠ d :=
  fun same => absurd (same ▸ high) (by omega)

theorem head?_decodeChars_lf {bytes : List UInt8} (lf : (decodeChars bytes).head? = some '\n') :
    bytes.head? = some 10 := by
  fun_induction decodeChars bytes
  case case1 => simp at lf
  case case2 b0 rest ascii _ =>
    have : b0.toNat < 0x80 := by simpa [UInt8.lt_iff_toNat_lt] using ascii
    have same := congrArg Char.toNat (Option.some.inj lf)
    rw [toNat_ofNat_of_valid (by omega)] at same
    simp [← UInt8.toNat_inj, same]
  case case4 lead b1 _ _ _ =>
    exact absurd (Option.some.inj lf) (ne_of_high (scalar2_high b1 lead) (by decide))
  case case8 lead b1 second b2 _ _ _ =>
    exact absurd (Option.some.inj lf) (ne_of_high (scalar3_high b2 lead second) (by decide))
  case case14 lead b1 second b2 _ b3 _ _ _ =>
    exact absurd (Option.some.inj lf) (ne_of_high (scalar4_high b2 b3 lead second) (by decide))
  all_goals exact absurd (Option.some.inj lf) (ne_of_high replacement_high (by decide))

theorem ofNat_eq_cr_iff {x : UInt8} (ascii : x.toNat < 0x80) :
    Char.ofNat x.toNat = '\r' ↔ x = 13 := by
  constructor
  · intro same
    have code := congrArg Char.toNat same
    rw [toNat_ofNat_of_valid (by omega)] at code
    simp [← UInt8.toNat_inj, code]
  · rintro rfl
    rfl

/-- Every byte string either starts with a byte order mark, which the
reader of text drops, or is read as it is. -/
theorem dropByteOrderMark_cases (bytes : List UInt8) :
    (∃ rest, bytes = byteOrderMark ++ rest ∧ dropByteOrderMark bytes = rest) ∨
      (¬ byteOrderMark <+: bytes ∧ dropByteOrderMark bytes = bytes) := by
  unfold dropByteOrderMark
  split
  · exact .inl ⟨_, rfl, rfl⟩
  · rename_i unmarked
    exact .inr ⟨fun ⟨rest, marked⟩ => unmarked rest marked.symm, rfl⟩

theorem noCR_of_high {high : List UInt8} (above : ∀ b ∈ high, 0x80 ≤ b.toNat) :
    (13 : UInt8) ∉ high ∧ '\r' ∉ decodeChars high :=
  ⟨fun mem => absurd (above 13 mem) (by decide),
    fun mem => ne_of_high (high_of_mem_decodeChars above _ mem) (by decide) rfl⟩

/-- Cutting text before a pair of characters other than the mark cuts the
text of scalar values where it cuts them. -/
theorem beforePair_escape {a b : Char} (first : a ≠ mark) (cs : List Char) :
    beforePair a b (escape cs) = escape (beforePair a b cs) := by
  induction cs with
  | nil => rfl
  | cons c cs ih =>
    by_cases marked : c = mark
    · subst marked
      have apart : ∀ xs : List Char, ¬ (mark = a ∧ xs.head? = some b) := fun _ both => first both.1.symm
      rw [escape, if_pos rfl, beforePair_cons (apart _), beforePair_cons (apart _), ih,
        beforePair_cons (apart _), escape, if_pos rfl]
    · rw [escape, if_neg marked]
      by_cases pair : c = a ∧ cs.head? = some b
      · rw [beforePair, if_pos (by rwa [head?_escape]), beforePair, if_pos pair]
        rfl
      · rw [beforePair_cons (by rwa [head?_escape]), beforePair_cons pair, ih, escape,
          if_neg marked]

end Utf8

open Utf8 in
/-- Cutting bytes at their first CR LF and decoding gives the decoded text
cut at its first CR LF, after any stretch `high` of bytes of `0x80` and
above.  The induction runs over the bytes after that stretch: a byte of
`0x80` or above joins it, and at an ASCII byte decoding splits. -/
theorem decodeChars_beforePair_high (rest : List UInt8) :
    ∀ high : List UInt8, (∀ b ∈ high, 0x80 ≤ b.toNat) →
      decodeChars (beforePair 13 10 (high ++ rest)) =
        beforePair '\r' '\n' (decodeChars (high ++ rest)) := by
  induction rest with
  | nil =>
    intro high above
    obtain ⟨noCR, noCRChar⟩ := noCR_of_high above
    rw [List.append_nil, beforePair_of_not_mem noCR, beforePair_of_not_mem noCRChar]
  | cons x r ih =>
    intro high above
    by_cases wide : 0x80 ≤ x.toNat
    · have extended : ∀ b ∈ high ++ [x], 0x80 ≤ b.toNat :=
        List.forall_mem_append.2 ⟨above, List.forall_mem_singleton.2 wide⟩
      simpa using ih (high ++ [x]) extended
    · have ascii : x.toNat < 0x80 := by omega
      obtain ⟨noCR, noCRChar⟩ := noCR_of_high above
      rw [beforePair_append_of_not_mem noCR, decodeChars_append_ascii ascii,
        decodeChars_one r ascii, beforePair_append_of_not_mem noCRChar]
      by_cases pair : x = 13 ∧ r.head? = some 10
      · obtain ⟨rfl, lf⟩ := pair
        obtain ⟨r', rfl⟩ : ∃ r', r = 10 :: r' := by
          cases r with
          | nil => simp at lf
          | cons y r' => exact ⟨r', by simpa using lf⟩
        have cr : Char.ofNat (UInt8.toNat 13) = '\r' := rfl
        have lf : Char.ofNat (UInt8.toNat 10) = '\n' := rfl
        rw [decodeChars_one r' (by decide), cr, lf, beforePair_pair, beforePair_pair,
          List.append_nil, List.append_nil]
      · have apart : ¬ (Char.ofNat x.toNat = '\r' ∧ (decodeChars r).head? = some '\n') :=
          fun both => pair ⟨(ofNat_eq_cr_iff ascii).1 both.1, head?_decodeChars_lf both.2⟩
        have tail := ih [] (by simp)
        rw [List.nil_append] at tail
        rw [beforePair_cons pair, decodeChars_append_ascii ascii, decodeChars_one _ ascii,
          beforePair_cons apart, tail]

theorem decodeChars_beforePair (bytes : List UInt8) :
    Utf8.decodeChars (beforePair 13 10 bytes) = beforePair '\r' '\n' (Utf8.decodeChars bytes) := by
  have cut := decodeChars_beforePair_high bytes [] (fun _ mem => absurd mem List.not_mem_nil)
  rwa [List.nil_append] at cut

/-- A lead byte that CR LF cuts short gives one U+FFFD whether the bytes are
cut first or decoded first. -/
example : Utf8.decodeChars (beforePair 13 10 [0xE0, 0xA0, 13, 10, 0x41]) = [Utf8.replacement] ∧
    beforePair '\r' '\n' (Utf8.decodeChars [0xE0, 0xA0, 13, 10, 0x41]) = [Utf8.replacement] := by
  decide +kernel

namespace Bytes

theorem findFrom_succ (needle : List UInt8) (pos : Nat) (hay : List UInt8) :
    findFrom needle (pos + 1) hay = (findFrom needle pos hay).map (· + 1) := by
  induction hay generalizing pos with
  | nil => by_cases empty : needle.isEmpty <;> simp [findFrom, empty]
  | cons h hs ih =>
    rw [findFrom, findFrom, ih]
    split <;> rfl

theorem startsWith_crlf_cons (h : UInt8) (hs : List UInt8) :
    startsWith crlf (h :: hs) = true ↔ h = 13 ∧ hs.head? = some 10 := by
  cases hs with
  | nil => simp [crlf, startsWith]
  | cons y ys =>
    simp only [crlf, startsWith, Bool.and_true, Bool.and_eq_true, beq_iff_eq, List.head?_cons,
      Option.some.injEq]
    exact ⟨fun both => ⟨both.1.symm, both.2.symm⟩, fun both => ⟨both.1.symm, both.2.symm⟩⟩

end Bytes

theorem firstLine_cons {h : UInt8} {hs : List UInt8} (apart : ¬ (h = 13 ∧ hs.head? = some 10)) :
    firstLine (h :: hs) = h :: firstLine hs := by
  have later : Bytes.find? crlf (h :: hs) = (Bytes.find? crlf hs).map (· + 1) := by
    rw [Bytes.find?, Bytes.findFrom, if_neg (by rwa [Bytes.startsWith_crlf_cons]),
      Bytes.findFrom_succ]
    rfl
  rw [firstLine, firstLine, later]
  cases Bytes.find? crlf hs <;> rfl

theorem firstLine_eq_beforePair (raw : List UInt8) : firstLine raw = beforePair 13 10 raw := by
  induction raw with
  | nil => rfl
  | cons h hs ih =>
    by_cases pair : h = 13 ∧ hs.head? = some 10
    · have found : Bytes.find? crlf (h :: hs) = some 0 := by
        rw [Bytes.find?, Bytes.findFrom, if_pos ((Bytes.startsWith_crlf_cons h hs).2 pair)]
      rw [firstLine, found, beforePair, if_pos pair]
      rfl
    · rw [firstLine_cons pair, beforePair_cons pair, ih]

/-- A byte order mark holds no CR, and the line of bytes without one starts
with none: dropping the mark and cutting the line commute. -/
theorem dropByteOrderMark_beforePair (raw : List UInt8) :
    Utf8.dropByteOrderMark (beforePair 13 10 raw) = beforePair 13 10 (Utf8.dropByteOrderMark raw) := by
  rcases Utf8.dropByteOrderMark_cases raw with ⟨rest, rfl, dropped⟩ | ⟨unmarked, kept⟩
  · rw [dropped, beforePair_append_of_not_mem (by decide)]
    rfl
  · rw [kept]
    rcases Utf8.dropByteOrderMark_cases (beforePair 13 10 raw) with ⟨rest, marked, -⟩ | ⟨-, same⟩
    · exact absurd (List.IsPrefix.trans ⟨rest, marked.symm⟩ (isPrefix_beforePair raw)) unmarked
    · exact same

/-- Decoding the bytes before the first CR LF gives the decoded text before
its first CR LF. -/
theorem decodeText_firstLine (raw : List UInt8) :
    Utf8.decodeText (firstLine raw) = lineOfText (Utf8.decodeText raw) := by
  rw [firstLine_eq_beforePair, Utf8.decodeText, dropByteOrderMark_beforePair, Utf8.decode,
    decodeChars_beforePair, lineOfText, Utf8.decodeText, Utf8.decode, String.toList_ofList,
    Utf8.beforePair_escape (by decide)]

/-- The request line read from bytes is the one read from the first line of
their text. -/
theorem RequestLine.parse?_eq_ofText_lineOfText (raw : List UInt8) :
    RequestLine.parse? raw = RequestLine.ofText (lineOfText (Utf8.decodeText raw)) := by
  rw [RequestLine.parse?, decodeText_firstLine]

end HttpStub
