import HttpStub.Proofs.Utf8
import HttpStub.Http.Request

namespace HttpStub

/-!
# Reading a request line back

A request line written as text, `<method> <target> HTTP/<version>`, encoded
and followed by CR LF and anything at all, reads back as the three parts it
was written from, provided the method is not empty, the target starts with
a slash and no part holds a blank or a lone surrogate; without the version
word the version reads as empty.  Conversely every request line the reader produces meets
these conditions, so writing it out again and reading gives it back.

The reader is non-null exactly when the words of the decoded first line
include a second one that starts with a slash.

The proof follows the reader: the CR LF search stops at the written CR LF
because encoded text without a CR has no CR byte; decoding gives back the
text because it is well formed and does not start with a byte order mark;
and the words of the text are its three parts because each is a maximal run
of non-blanks.  The words of decoded text are well formed, since the mark
that carries a lone surrogate is not a blank.
-/

namespace Bytes

theorem startsWith_append (needle rest : List UInt8) : startsWith needle (needle ++ rest) = true := by
  induction needle with
  | nil => rfl
  | cons n ns ih => simp [startsWith, ih]

theorem findFrom_needle_append (needle rest : List UInt8) (pos : Nat) :
    findFrom needle pos (needle ++ rest) = some pos := by
  cases needle with
  | nil => cases rest <;> simp [findFrom, startsWith]
  | cons n ns =>
    rw [List.cons_append, findFrom, ← List.cons_append, startsWith_append, if_pos rfl]

theorem findFrom_append_of_not_mem {b : UInt8} {ns xs : List UInt8} (absent : b ∉ xs)
    (rest : List UInt8) (pos : Nat) :
    findFrom (b :: ns) pos (xs ++ rest) = findFrom (b :: ns) (pos + xs.length) rest := by
  induction xs generalizing pos with
  | nil => rfl
  | cons x xs ih =>
    have differ : x ≠ b := fun same => absent (same ▸ List.mem_cons_self)
    have notHere : startsWith (b :: ns) (x :: (xs ++ rest)) = false := by
      simp [startsWith, Ne.symm differ]
    rw [List.cons_append, findFrom, notHere, if_neg Bool.false_ne_true,
      ih (fun mem => absent (List.mem_cons_of_mem _ mem)), List.length_cons]
    congr 1
    omega

end Bytes

theorem firstLine_append_crlf {line : List UInt8} (noCR : (13 : UInt8) ∉ line) (rest : List UInt8) :
    firstLine (line ++ crlf ++ rest) = line := by
  have found : Bytes.find? crlf (line ++ crlf ++ rest) = some line.length := by
    rw [Bytes.find?, List.append_assoc, crlf, Bytes.findFrom_append_of_not_mem noCR,
      Bytes.findFrom_needle_append, Nat.zero_add]
  rw [firstLine, found]
  simp

namespace Blank

/-- Text holds no blank. -/
def NoBlank (s : String) : Prop :=
  ∀ c ∈ s.toList, isBlank c = false

instance (s : String) : Decidable (NoBlank s) :=
  decidable_of_iff (s.toList.all fun c => !isBlank c) (by simp [NoBlank])

theorem wordsFrom_append_of_noBlank (pending : List Char) {xs : List Char}
    (solid : ∀ c ∈ xs, isBlank c = false) (rest : List Char) :
    wordsFrom pending (xs ++ rest) = wordsFrom (xs.reverse ++ pending) rest := by
  induction xs generalizing pending with
  | nil => rfl
  | cons x xs ih =>
    rw [List.cons_append, wordsFrom, if_neg (by simp [solid x List.mem_cons_self]),
      ih (x :: pending) (fun c mem => solid c (List.mem_cons_of_mem _ mem))]
    simp

theorem wordsFrom_blank {pending : List Char} (started : pending ≠ []) {c : Char}
    (blank : isBlank c = true) (rest : List Char) :
    wordsFrom pending (c :: rest) = pending.reverse :: wordsFrom [] rest := by
  simp [wordsFrom, blank, started]

theorem wordsFrom_nil {pending : List Char} (started : pending ≠ []) :
    wordsFrom pending [] = [pending.reverse] := by
  simp [wordsFrom, started]

theorem wordsFrom_noBlank (pending cs : List Char) (solid : ∀ c ∈ pending, isBlank c = false) :
    ∀ w ∈ wordsFrom pending cs, w ≠ [] ∧ ∀ c ∈ w, isBlank c = false := by
  induction cs generalizing pending with
  | nil =>
    intro w mem
    by_cases empty : pending = []
    · simp [wordsFrom, empty] at mem
    · rw [wordsFrom_nil empty, List.mem_singleton] at mem
      subst mem
      exact ⟨by simpa using empty, fun c inWord => solid c (List.mem_reverse.1 inWord)⟩
  | cons c cs ih =>
    intro w mem
    unfold wordsFrom at mem
    split at mem
    · split at mem
      · exact ih [] (by simp) w mem
      · rcases List.mem_cons.1 mem with here | later
        · subst here
          rename_i started
          exact ⟨by simpa using started, fun c inWord => solid c (List.mem_reverse.1 inWord)⟩
        · exact ih [] (by simp) w later
    · rename_i notBlank
      refine ih (c :: pending) (fun d inPending => ?_) w mem
      rcases List.mem_cons.1 inPending with rfl | earlier
      · simpa using notBlank
      · exact solid d earlier

theorem wordsFrom_intercalate {gap : Char} (blank : isBlank gap = true) {parts : List (List Char)}
    (solid : ∀ p ∈ parts, p ≠ [] ∧ ∀ c ∈ p, isBlank c = false) :
    wordsFrom [] ([gap].intercalate parts) = parts := by
  induction parts with
  | nil => rfl
  | cons p ps ih =>
    have first := solid p List.mem_cons_self
    have others := fun q mem => solid q (List.mem_cons_of_mem p mem)
    cases ps with
    | nil =>
      have whole := wordsFrom_append_of_noBlank [] first.2 []
      rw [List.append_nil, List.append_nil] at whole
      rw [List.intercalate_singleton, whole, wordsFrom_nil (by simpa using first.1),
        List.reverse_reverse]
    | cons q qs =>
      rw [List.intercalate_cons_cons, List.append_assoc, wordsFrom_append_of_noBlank [] first.2,
        List.append_nil, List.singleton_append, wordsFrom_blank (by simpa using first.1) blank,
        List.reverse_reverse, ih others]

theorem words_spaced {parts : List String} (solid : ∀ p ∈ parts, p ≠ "" ∧ NoBlank p) :
    words (" ".intercalate parts) = parts := by
  have lists : ∀ p ∈ parts.map String.toList, p ≠ [] ∧ ∀ c ∈ p, isBlank c = false := by
    intro p mem
    obtain ⟨q, inParts, rfl⟩ := List.mem_map.1 mem
    exact ⟨by simpa using (solid q inParts).1, (solid q inParts).2⟩
  rw [words, String.toList_intercalate, show " ".toList = [' '] from rfl,
    wordsFrom_intercalate (by decide) lists]
  simp

/-- Every character of texts without blanks, one space apart, is a space
or not a blank. -/
theorem spaced_intercalate {parts : List String} (solid : ∀ p ∈ parts, NoBlank p) :
    ∀ c ∈ (" ".intercalate parts).toList, c = ' ' ∨ isBlank c = false := by
  induction parts with
  | nil => simp
  | cons p ps ih =>
    intro c mem
    have first := solid p List.mem_cons_self
    cases ps with
    | nil =>
      rw [String.intercalate_singleton] at mem
      exact .inr (first c mem)
    | cons q qs =>
      rw [String.intercalate_cons_cons, String.toList_append, String.toList_append,
        List.mem_append, List.mem_append] at mem
      rcases mem with (inFirst | space) | later
      · exact .inr (first c inFirst)
      · exact .inl (by simpa using space)
      · exact ih (fun r mem => solid r (List.mem_cons_of_mem p mem)) c later

theorem words_noBlank (s : String) : ∀ w ∈ words s, w ≠ "" ∧ NoBlank w := by
  intro w mem
  obtain ⟨cs, inWords, rfl⟩ := List.mem_map.1 mem
  obtain ⟨started, solid⟩ := wordsFrom_noBlank [] s.toList (by simp) cs inWords
  exact ⟨by simpa using started, by simpa [NoBlank] using solid⟩

/-- Splitting the text of scalar values into words splits the scalar values
into words: the mark is not a blank. -/
theorem wordsFrom_escape (p cs : List Char) :
    wordsFrom (Utf8.escape p).reverse (Utf8.escape cs) = (wordsFrom p.reverse cs).map Utf8.escape := by
  have solid : isBlank Utf8.mark = false := by decide
  induction cs generalizing p with
  | nil =>
    by_cases empty : p = []
    · subst empty
      rfl
    · have escaped : Utf8.escape p ≠ [] := mt Utf8.escape_eq_nil_iff.1 empty
      have ended : Utf8.escape [] = [] := rfl
      rw [ended, wordsFrom_nil (by simpa using escaped), wordsFrom_nil (by simpa using empty)]
      simp
  | cons c cs ih =>
    by_cases blank : isBlank c = true
    · have other : c ≠ Utf8.mark := fun same => absurd blank (by rw [same, solid]; decide)
      have next := ih []
      simp only [Utf8.escape, List.reverse_nil] at next
      by_cases empty : p = []
      · subst empty
        simpa [Utf8.escape, other, wordsFrom, blank] using next
      · have escaped : Utf8.escape p ≠ [] := mt Utf8.escape_eq_nil_iff.1 empty
        simp [Utf8.escape, other, wordsFrom, blank, empty, escaped, next]
    · have word : ∀ d ∈ Utf8.escape [c], isBlank d = false := by
        by_cases marked : c = Utf8.mark <;> simp [Utf8.escape, marked, solid, blank]
      rw [show Utf8.escape (c :: cs) = Utf8.escape [c] ++ Utf8.escape cs from Utf8.escape_append [c] cs,
        wordsFrom_append_of_noBlank _ word, ← List.reverse_append, ← Utf8.escape_append, ih,
        wordsFrom, if_neg blank]
      simp

/-- The words of well formed text are well formed. -/
theorem words_wellFormed {s : String} (wf : Utf8.WellFormed s) : ∀ w ∈ words s, Utf8.WellFormed w := by
  obtain ⟨cs, text⟩ := Utf8.wellFormed_iff.1 wf
  have split : wordsFrom [] (Utf8.escape cs) = (wordsFrom [] cs).map Utf8.escape :=
    wordsFrom_escape [] cs
  intro w mem
  rw [words, text, split, List.map_map] at mem
  obtain ⟨v, -, rfl⟩ := List.mem_map.1 mem
  exact Utf8.wellFormed_ofList_escape v

end Blank

namespace RequestLine

/-- The text of a request line: method, target and protocol word, one
space apart. -/
def render (line : RequestLine) : String :=
  line.method ++ " " ++ line.target ++ " HTTP/" ++ line.version

/-- What every request line the reader gives satisfies: a method, a target
that starts with a slash, and neither a blank nor a lone surrogate in any
part. -/
structure WellFormed (line : RequestLine) : Prop where
  method_ne_empty : line.method ≠ ""
  target_slash : line.target.startsWith "/" = true
  method_noBlank : Blank.NoBlank line.method
  target_noBlank : Blank.NoBlank line.target
  version_noBlank : Blank.NoBlank line.version
  method_text : Utf8.WellFormed line.method
  target_text : Utf8.WellFormed line.target
  version_text : Utf8.WellFormed line.version

theorem render_eq_intercalate (line : RequestLine) :
    line.render = " ".intercalate [line.method, line.target, "HTTP/" ++ line.version] := by
  rw [← String.toList_inj]
  simp [render]

theorem versionOf_protocol (version : String) : versionOf (some ("HTTP/" ++ version)) = version := by
  simp [versionOf]

theorem ne_empty_of_slash {target : String} (slash : target.startsWith "/" = true) : target ≠ "" := by
  intro empty
  simp [empty] at slash

theorem protocol_noBlank {version : String} (solid : Blank.NoBlank version) :
    Blank.NoBlank ("HTTP/" ++ version) := by
  intro c mem
  rw [String.toList_append, List.mem_append] at mem
  rcases mem with protocol | inVersion
  · have word : "HTTP/".toList = ['H', 'T', 'T', 'P', '/'] := rfl
    rw [word] at protocol
    simp only [List.mem_cons, List.not_mem_nil, or_false] at protocol
    rcases protocol with rfl | rfl | rfl | rfl | rfl <;> decide
  · exact solid c inVersion

theorem ofText_render {line : RequestLine} (wf : line.WellFormed) : ofText line.render = some line := by
  have parts : ∀ p ∈ [line.method, line.target, "HTTP/" ++ line.version], p ≠ "" ∧ Blank.NoBlank p := by
    simp only [List.mem_cons, List.not_mem_nil, or_false]
    rintro p (rfl | rfl | rfl)
    · exact ⟨wf.method_ne_empty, wf.method_noBlank⟩
    · exact ⟨ne_empty_of_slash wf.target_slash, wf.target_noBlank⟩
    · exact ⟨by simp, protocol_noBlank wf.version_noBlank⟩
  rw [ofText, render_eq_intercalate, Blank.words_spaced parts]
  simp [ofWords, wf.target_slash, versionOf_protocol]

theorem ofText_versionless {line : RequestLine} (wf : line.WellFormed) :
    ofText (line.method ++ " " ++ line.target) = some { line with version := "" } := by
  have parts : ∀ p ∈ [line.method, line.target], p ≠ "" ∧ Blank.NoBlank p := by
    simp only [List.mem_cons, List.not_mem_nil, or_false]
    rintro p (rfl | rfl)
    · exact ⟨wf.method_ne_empty, wf.method_noBlank⟩
    · exact ⟨ne_empty_of_slash wf.target_slash, wf.target_noBlank⟩
  have spaced : line.method ++ " " ++ line.target = " ".intercalate [line.method, line.target] := by
    simp
  rw [ofText, spaced, Blank.words_spaced parts]
  simp [ofWords, wf.target_slash, versionOf]

/-- Encoded well formed text with no CR, not starting with U+FEFF, then
CR LF: the reader reads the text. -/
theorem parse?_encode {text : String} (wf : Utf8.WellFormed text) (noCR : '\r' ∉ text.toList)
    (noOrderMark : text.toList.head? ≠ some '\uFEFF') (rest : List UInt8) :
    parse? (Utf8.encode text ++ crlf ++ rest) = ofText text := by
  rw [parse?, firstLine_append_crlf (Utf8.cr_not_mem_encode noCR), Utf8.decodeText,
    Utf8.dropByteOrderMark_encode noOrderMark, Utf8.decode_encode wf]

/-- Text whose characters are spaces and non-blanks has no CR, and so
encodes without a CR byte. -/
theorem noCR_of_spaced {text : String}
    (spaced : ∀ c ∈ text.toList, c = ' ' ∨ Blank.isBlank c = false) : '\r' ∉ text.toList := by
  intro mem
  rcases spaced '\r' mem with space | solid
  · exact absurd space (by decide)
  · exact absurd solid (by decide)

theorem noOrderMark_of_method {line : RequestLine} (wf : line.WellFormed) {text : String}
    (lead : text.toList.head? = line.method.toList.head?) : text.toList.head? ≠ some '\uFEFF' := by
  obtain ⟨c, cs, split⟩ : ∃ c cs, line.method.toList = c :: cs :=
    List.exists_cons_of_ne_nil (by simpa using wf.method_ne_empty)
  have solid : Blank.isBlank c = false := wf.method_noBlank c (by simp [split])
  rw [lead, split, List.head?_cons]
  intro same
  rw [Option.some.inj same] at solid
  exact absurd solid (by decide)

theorem render_spaced {line : RequestLine} (wf : line.WellFormed) :
    ∀ c ∈ line.render.toList, c = ' ' ∨ Blank.isBlank c = false := by
  rw [render_eq_intercalate]
  refine Blank.spaced_intercalate fun p mem => ?_
  simp only [List.mem_cons, List.not_mem_nil, or_false] at mem
  rcases mem with rfl | rfl | rfl
  · exact wf.method_noBlank
  · exact wf.target_noBlank
  · exact protocol_noBlank wf.version_noBlank

theorem render_wellFormed {line : RequestLine} (wf : line.WellFormed) : Utf8.WellFormed line.render :=
  (((wf.method_text.append (by decide)).append wf.target_text).append (by decide)).append
    wf.version_text

theorem parse?_render {line : RequestLine} (wf : line.WellFormed) (rest : List UInt8) :
    parse? (Utf8.encode line.render ++ crlf ++ rest) = some line := by
  have lead : line.render.toList.head? = line.method.toList.head? := by
    obtain ⟨c, cs, split⟩ : ∃ c cs, line.method.toList = c :: cs :=
      List.exists_cons_of_ne_nil (by simpa using wf.method_ne_empty)
    simp [render, split]
  rw [parse?_encode (render_wellFormed wf) (noCR_of_spaced (render_spaced wf))
    (noOrderMark_of_method wf lead), ofText_render wf]

theorem parse?_versionless {line : RequestLine} (wf : line.WellFormed) (rest : List UInt8) :
    parse? (Utf8.encode (line.method ++ " " ++ line.target) ++ crlf ++ rest) =
      some { line with version := "" } := by
  have spaced : line.method ++ " " ++ line.target = " ".intercalate [line.method, line.target] := by
    simp
  have chars : ∀ c ∈ (line.method ++ " " ++ line.target).toList, c = ' ' ∨ Blank.isBlank c = false := by
    rw [spaced]
    refine Blank.spaced_intercalate fun p mem => ?_
    simp only [List.mem_cons, List.not_mem_nil, or_false] at mem
    rcases mem with rfl | rfl
    · exact wf.method_noBlank
    · exact wf.target_noBlank
  have lead : (line.method ++ " " ++ line.target).toList.head? = line.method.toList.head? := by
    obtain ⟨c, cs, split⟩ : ∃ c cs, line.method.toList = c :: cs :=
      List.exists_cons_of_ne_nil (by simpa using wf.method_ne_empty)
    simp [split]
  have text : Utf8.WellFormed (line.method ++ " " ++ line.target) :=
    (wf.method_text.append (by decide)).append wf.target_text
  rw [parse?_encode text (noCR_of_spaced chars) (noOrderMark_of_method wf lead),
    ofText_versionless wf]

theorem versionOf_noBlank (word : Option String) (solid : ∀ w ∈ word, Blank.NoBlank w) :
    Blank.NoBlank (versionOf word) := by
  cases word with
  | none => simp [versionOf, Blank.NoBlank]
  | some w =>
    by_cases protocol : w.startsWith "HTTP/" = true
    · intro c mem
      simp only [versionOf, protocol, if_true, String.toList_ofList] at mem
      exact solid w rfl c (List.mem_of_mem_drop mem)
    · simp [versionOf, protocol, Blank.NoBlank]

theorem versionOf_wellFormed (word : Option String) (wf : ∀ w ∈ word, Utf8.WellFormed w) :
    Utf8.WellFormed (versionOf word) := by
  cases word with
  | none => decide
  | some w =>
    by_cases protocol : w.startsWith "HTTP/" = true
    · obtain ⟨rest, split⟩ := String.startsWith_string_iff.1 protocol
      have dropped : ("HTTP/".toList ++ rest).drop 5 = rest := List.drop_left' (by decide)
      simp only [versionOf, protocol, if_true]
      rw [← split, dropped]
      exact (wf w rfl).drop_unmarked (by decide) split.symm
    · simp only [versionOf, protocol, Bool.false_eq_true, if_false]
      decide

theorem wellFormed_of_ofWords {words : List String} {line : RequestLine}
    (solid : ∀ w ∈ words, w ≠ "" ∧ Blank.NoBlank w ∧ Utf8.WellFormed w)
    (read : ofWords words = some line) : line.WellFormed := by
  rcases words with _ | ⟨m, _ | ⟨t, rest⟩⟩
  · simp [ofWords] at read
  · simp [ofWords] at read
  · by_cases slash : t.startsWith "/" = true
    · simp only [ofWords, slash, if_true, Option.some.injEq] at read
      subst read
      exact {
        method_ne_empty := (solid m List.mem_cons_self).1
        target_slash := slash
        method_noBlank := (solid m List.mem_cons_self).2.1
        target_noBlank := (solid t (by simp)).2.1
        version_noBlank := versionOf_noBlank rest.head? fun w mem =>
          (solid w (by simp [List.mem_of_mem_head? mem])).2.1
        method_text := (solid m List.mem_cons_self).2.2
        target_text := (solid t (by simp)).2.2
        version_text := versionOf_wellFormed rest.head? fun w mem =>
          (solid w (by simp [List.mem_of_mem_head? mem])).2.2 }
    · simp [ofWords, slash] at read

theorem wellFormed_of_parse? {raw : List UInt8} {line : RequestLine} (read : parse? raw = some line) :
    line.WellFormed := by
  have decoded := Utf8.wellFormed_decode (Utf8.dropByteOrderMark (firstLine raw))
  refine wellFormed_of_ofWords (fun w mem => ?_) read
  exact ⟨(Blank.words_noBlank _ w mem).1, (Blank.words_noBlank _ w mem).2,
    Blank.words_wellFormed decoded w mem⟩

/-- The reader gives a line exactly when the decoded first line has a second
word, and that word starts with a slash. -/
theorem parse?_isSome_iff (raw : List UInt8) :
    (parse? raw).isSome ↔ ∃ method target rest,
      Blank.words (Utf8.decodeText (firstLine raw)) = method :: target :: rest ∧
        target.startsWith "/" = true := by
  rw [parse?, ofText]
  rcases Blank.words (Utf8.decodeText (firstLine raw)) with _ | ⟨m, _ | ⟨t, rest⟩⟩
  · simp [ofWords]
  · simp [ofWords]
  · rw [ofWords]
    by_cases slash : t.startsWith "/" = true
    · rw [if_pos slash]
      exact ⟨fun _ => ⟨m, t, rest, rfl, slash⟩, fun _ => rfl⟩
    · rw [if_neg slash]
      constructor
      · intro found
        cases found
      · rintro ⟨m', t', rest', same, slash'⟩
        cases same
        exact absurd slash' slash

/-- Reading request lines inverts writing them.  The reader gives a line
exactly when the decoded first line has a second word, and that word starts
with a slash.  A method, a target starting with a slash and a version, none
with a blank or a lone surrogate, written one space apart with `HTTP/` before the version,
encoded as UTF-8 and ended by CR LF, read back whatever follows, and so
does the line without the version, with an empty version; the request read
from those bytes has the target's path.  And every line the reader gives
is of that form, so writing it out and reading gives it back. -/
theorem parse_round_trip :
    (∀ raw : List UInt8, (parse? raw).isSome ↔ ∃ method target rest,
      Blank.words (Utf8.decodeText (firstLine raw)) = method :: target :: rest ∧
        target.startsWith "/" = true) ∧
    (∀ (m t v : String) (rest : List UInt8), m ≠ "" → t.startsWith "/" = true →
      Blank.NoBlank m → Blank.NoBlank t → Blank.NoBlank v →
      Utf8.WellFormed m → Utf8.WellFormed t → Utf8.WellFormed v →
      parse? (Utf8.encode (m ++ " " ++ t ++ " HTTP/" ++ v) ++ crlf ++ rest) = some ⟨m, t, v⟩ ∧
      parse? (Utf8.encode (m ++ " " ++ t) ++ crlf ++ rest) = some ⟨m, t, ""⟩ ∧
      Request.parse? (Utf8.encode (m ++ " " ++ t ++ " HTTP/" ++ v) ++ crlf ++ rest) =
        some ⟨⟨m, t, v⟩, pathOf t, Utf8.encode (m ++ " " ++ t ++ " HTTP/" ++ v) ++ crlf ++ rest⟩) ∧
    (∀ (raw : List UInt8) (line : RequestLine), parse? raw = some line →
      line.WellFormed ∧
        ∀ rest, parse? (Utf8.encode line.render ++ crlf ++ rest) = some line) := by
  refine ⟨parse?_isSome_iff, ?_, fun raw line read =>
    ⟨wellFormed_of_parse? read, parse?_render (wellFormed_of_parse? read)⟩⟩
  intro m t v rest method slash methodSolid targetSolid versionSolid methodText targetText
    versionText
  have wf : (⟨m, t, v⟩ : RequestLine).WellFormed :=
    ⟨method, slash, methodSolid, targetSolid, versionSolid, methodText, targetText, versionText⟩
  have read : parse? (Utf8.encode (m ++ " " ++ t ++ " HTTP/" ++ v) ++ crlf ++ rest) =
      some ⟨m, t, v⟩ :=
    parse?_render wf rest
  refine ⟨read, parse?_versionless wf rest, ?_⟩
  rw [Request.parse?, if_neg (by simp [crlf]), read]
  rfl

/-- A target with a query and a character of two bytes, and a version that
ends with U+FD800, a well formed character of four bytes, with bytes after
the line. -/
theorem parse_round_trip_query :
    let v := "1.1" ++ String.singleton (Char.ofNat 0xFD800)
    "/café?q=1".startsWith "/" = true ∧ Blank.NoBlank "/café?q=1" ∧ Blank.NoBlank v ∧
      Utf8.WellFormed "/café?q=1" ∧ Utf8.WellFormed v ∧
      parse? (Utf8.encode ("GET" ++ " " ++ "/café?q=1" ++ " HTTP/" ++ v) ++ crlf ++ [0x58]) =
        some ⟨"GET", "/café?q=1", v⟩ :=
  ⟨by simp, by decide, by decide, by decide, by decide,
    (parse_round_trip.2.1 "GET" "/café?q=1" _ [0x58] (by decide) (by simp) (by decide)
      (by decide) (by decide) (by decide) (by decide) (by decide)).1⟩

end RequestLine
end HttpStub
