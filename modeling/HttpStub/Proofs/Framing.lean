import HttpStub.Proofs.RequestLine
import HttpStub.Http.Route

namespace HttpStub

/-!
# The bytes of a response

A response is written as its head, CR LF twice, and its body.  For a
response whose reason and headers hold no CR and whose header names hold no
colon, those bytes read back: the first CR LF CR LF is the end of the head,
exactly the body follows it, the head's first line is the status line, and
each other line splits at its first colon and space into one header, in the
order the writer promises (`Response.promisedHeaders`): the response's own
headers, the body's byte count as the `Content-Length` value in place of a
given one or after the others, then `Connection: close` unless the response
names a connection.

The reading back rests on three facts about the head's text.  The status is
printed with digits, signs, a point and an exponent mark only, so no line
holds a CR.  Every line is non-empty, so the CR LF between two lines is
never followed by another CR LF.  And a header name without a colon ends
where its line's first colon and space stand.

The reader of lines and fields here is the one a client applies to the
bytes; it is not part of the server.
-/

namespace Double

/-- A character numerals are written with: a digit, a sign, the point, the
exponent mark, or a letter of `Infinity`. -/
def numeralChar (c : Char) : Bool :=
  c.isDigit || "+-.eInfinity".toList.contains c

/-- Text written with numeral characters only. -/
def Numeral (s : String) : Prop :=
  ∀ c ∈ s.toList, numeralChar c = true

instance (s : String) : Decidable (Numeral s) :=
  decidable_of_iff (s.toList.all numeralChar) (by simp [Numeral])

theorem Numeral.append {a b : String} (left : Numeral a) (right : Numeral b) : Numeral (a ++ b) := by
  intro c mem
  rw [String.toList_append, List.mem_append] at mem
  rcases mem with inLeft | inRight
  · exact left c inLeft
  · exact right c inRight

theorem Numeral.take {s : String} (whole : Numeral s) (k : Nat) :
    Numeral (String.ofList (s.toList.take k)) := by
  intro c mem
  rw [String.toList_ofList] at mem
  exact whole c (List.mem_of_mem_take mem)

theorem Numeral.drop {s : String} (whole : Numeral s) (k : Nat) :
    Numeral (String.ofList (s.toList.drop k)) := by
  intro c mem
  rw [String.toList_ofList] at mem
  exact whole c (List.mem_of_mem_drop mem)

theorem numeral_zeros (k : Nat) : Numeral (String.ofList (List.replicate k '0')) := by
  intro c mem
  rw [String.toList_ofList, List.mem_replicate] at mem
  rw [mem.2]
  decide

theorem numeral_toString (n : Nat) : Numeral (toString n) := by
  intro c mem
  rw [Nat.toString_eq_ofList_toDigits, String.toList_ofList] at mem
  simp [numeralChar, Nat.isDigit_of_mem_toDigits (by decide) (by decide) mem]

/-- Laying out digits keeps to numeral characters: zeros, a point, an
exponent mark and sign, and the digits of the exponent are added. -/
theorem layout_numeral {s : String} (digits : Numeral s) (n : Int) : Numeral (layout s n) := by
  unfold layout
  dsimp only
  split
  · exact digits.append (numeral_zeros _)
  split
  · exact ((digits.take _).append (by decide)).append (digits.drop _)
  split
  · exact ((by decide : Numeral "0.").append (numeral_zeros _)).append digits
  refine Numeral.append (Numeral.append (Numeral.append ?_ (by decide)) ?_) (numeral_toString _)
  · split
    · exact digits.take _
    · exact ((digits.take _).append (by decide)).append (digits.drop _)
  · split
    · decide
    · decide

theorem render_numeral (d : Double) : Numeral d.render := by
  cases d with
  | infinite negative =>
    cases negative
    · exact (by decide : Numeral "Infinity")
    · exact (by decide : Numeral "-Infinity")
  | finite negative m e =>
    rw [render]
    split
    · decide
    · generalize shortest m e = digits
      obtain ⟨d, j⟩ := digits
      refine Numeral.append ?_ (layout_numeral (numeral_toString d) _)
      cases negative
      · exact (by decide : Numeral "")
      · exact (by decide : Numeral "-")

end Double

namespace Bytes

/-- Split bytes at every CR LF; `current` holds the line read so far,
backwards. -/
def linesFrom (current : List UInt8) : List UInt8 → List (List UInt8)
  | [] => [current.reverse]
  | [b] => [(b :: current).reverse]
  | b :: c :: rest =>
    if b = 13 ∧ c = 10 then current.reverse :: linesFrom [] rest
    else linesFrom (b :: current) (c :: rest)

/-- The lines of bytes, split at every CR LF. -/
def lines (bytes : List UInt8) : List (List UInt8) :=
  linesFrom [] bytes

/-- A header line split at its first colon and space: name and value. -/
def field? (line : List UInt8) : Option (List UInt8 × List UInt8) :=
  (find? [58, 32] line).map fun n => (line.take n, line.drop (n + 2))

theorem linesFrom_append_of_not_mem (current : List UInt8) {xs : List UInt8}
    (noCR : (13 : UInt8) ∉ xs) (rest : List UInt8) :
    linesFrom current (xs ++ rest) = linesFrom (xs.reverse ++ current) rest := by
  induction xs generalizing current with
  | nil => rfl
  | cons x xs ih =>
    have notCR : x ≠ 13 := fun same => noCR (same ▸ List.mem_cons_self)
    rw [List.cons_append, List.reverse_cons, List.append_assoc, List.singleton_append,
      ← ih (x :: current) (fun mem => noCR (List.mem_cons_of_mem x mem))]
    cases tail : xs ++ rest with
    | nil => rfl
    | cons c more => simp [linesFrom, notCR]

theorem linesFrom_crlf (current rest : List UInt8) :
    linesFrom current (crlf ++ rest) = current.reverse :: linesFrom [] rest := by
  simp [crlf, linesFrom]

theorem lines_intercalate {ls : List (List UInt8)} (noCR : ∀ l ∈ ls, (13 : UInt8) ∉ l)
    (nonempty : ls ≠ []) : lines (crlf.intercalate ls) = ls := by
  induction ls with
  | nil => exact absurd rfl nonempty
  | cons l more ih =>
    have first := noCR l List.mem_cons_self
    cases more with
    | nil =>
      have whole := linesFrom_append_of_not_mem [] first []
      rw [List.append_nil, List.append_nil] at whole
      rw [List.intercalate_singleton, lines, whole, linesFrom, List.reverse_reverse]
    | cons l' rest =>
      rw [List.intercalate_cons_cons, lines, List.append_assoc, linesFrom_append_of_not_mem [] first,
        List.append_nil, linesFrom_crlf, List.reverse_reverse, ← lines,
        ih (fun m mem => noCR m (List.mem_cons_of_mem l mem)) (List.cons_ne_nil _ _)]

/-- The end of a head: CR LF twice, an empty line after the last header. -/
def headEnd : List UInt8 := [13, 10, 13, 10]

theorem findFrom_headEnd_crlf {x : UInt8} (notCR : x ≠ 13) (tail : List UInt8) (pos : Nat) :
    findFrom headEnd pos (13 :: 10 :: x :: tail) = findFrom headEnd (pos + 2) (x :: tail) := by
  have notAtCR : startsWith headEnd (13 :: 10 :: x :: tail) = false := by
    simp [startsWith, headEnd, Ne.symm notCR]
  have notAtLF : startsWith headEnd (10 :: x :: tail) = false := by
    simp [startsWith, headEnd]
  rw [findFrom, notAtCR, if_neg Bool.false_ne_true, findFrom, notAtLF, if_neg Bool.false_ne_true]

/-- Non-empty lines without a CR, joined by CR LF and then followed by an
empty line: the first end of a head is that empty line. -/
theorem findFrom_headEnd {ls : List (List UInt8)} (clean : ∀ l ∈ ls, (13 : UInt8) ∉ l ∧ l ≠ [])
    (nonempty : ls ≠ []) (rest : List UInt8) (pos : Nat) :
    findFrom headEnd pos (crlf.intercalate ls ++ headEnd ++ rest) =
      some (pos + (crlf.intercalate ls).length) := by
  induction ls generalizing pos with
  | nil => exact absurd rfl nonempty
  | cons l more ih =>
    have first := clean l List.mem_cons_self
    cases more with
    | nil =>
      rw [List.intercalate_singleton, List.append_assoc]
      calc findFrom headEnd pos (l ++ (headEnd ++ rest))
          = findFrom headEnd (pos + l.length) (headEnd ++ rest) :=
            findFrom_append_of_not_mem first.1 _ _
        _ = some (pos + l.length) := findFrom_needle_append _ _ _
    | cons l' others =>
      obtain ⟨x, xs, rfl⟩ := List.exists_cons_of_ne_nil (clean l' (by simp)).2
      have notCR : x ≠ 13 := fun same => (clean (x :: xs) (by simp)).1 (same ▸ List.mem_cons_self)
      set joined := crlf.intercalate ((x :: xs) :: others) with joined_def
      have split : crlf.intercalate (l :: (x :: xs) :: others) = l ++ 13 :: 10 :: joined := by
        rw [List.intercalate_cons_cons, joined_def]
        simp [crlf]
      have lead : joined = x :: crlf.intercalate (xs :: others) := List.intercalate_cons_cons_left
      rw [split]
      calc findFrom headEnd pos (l ++ 13 :: 10 :: joined ++ headEnd ++ rest)
          = findFrom headEnd (pos + l.length) (13 :: 10 :: (joined ++ headEnd ++ rest)) := by
            simp only [List.append_assoc, List.cons_append]
            exact findFrom_append_of_not_mem first.1 _ _
        _ = findFrom headEnd (pos + l.length + 2) (joined ++ headEnd ++ rest) := by
            rw [lead]
            exact findFrom_headEnd_crlf notCR _ _
        _ = some (pos + l.length + 2 + joined.length) :=
            ih (fun m mem => clean m (List.mem_cons_of_mem l mem)) (by simp) _
        _ = some (pos + (l ++ 13 :: 10 :: joined).length) := by
            simp only [List.length_append, List.length_cons]
            congr 1
            omega

/-- A header line splits at its first colon and space into the name and
value it was written from, when the name has no colon. -/
theorem field?_encode {name value : String} (noColon : ':' ∉ name.toList) :
    field? (Utf8.encode (name ++ ": " ++ value)) = some (Utf8.encode name, Utf8.encode value) := by
  have separator : Utf8.encode ": " = [58, 32] := by decide
  have absent : (58 : UInt8) ∉ Utf8.encode name :=
    fun mem => noColon (Utf8.mem_of_mem_encode mem (by decide))
  have found : find? [58, 32] (Utf8.encode name ++ ([58, 32] ++ Utf8.encode value)) =
      some (Utf8.encode name).length := by
    rw [find?, findFrom_append_of_not_mem absent, findFrom_needle_append, Nat.zero_add]
  have colon : (": " ++ value).toList.head? = some ':' := by
    rw [String.toList_append, List.head?_append_of_ne_nil _ (by decide)]
    rfl
  rw [String.append_assoc, Utf8.encode_append_of_plain _ colon ⟨by decide, by decide⟩,
    Utf8.encode_append_of_wellFormed (by decide), separator, field?, found]
  simp

end Bytes

namespace Response

/-- The headers a response is written with, as the writer promises them:
the response's own, in order, with the body's byte count as the value of a
`Content-Length` header in its place or after them, and then
`Connection: close` unless the response names a connection. -/
def promisedHeaders (r : Response) : Headers :=
  let length := toString r.body.length
  let sized :=
    if r.headers.any (·.1 == "Content-Length") then
      r.headers.map fun h => if h.1 = "Content-Length" then (h.1, length) else h
    else r.headers ++ [("Content-Length", length)]
  if r.headers.any (·.1 == "Connection") then sized else sized ++ [("Connection", "close")]

theorem contains_set_of_ne (hs : Headers) {name key : String} (other : name ≠ key) (value : String) :
    (hs.set name value).contains key = hs.contains key := by
  unfold Headers.set Headers.contains
  split
  · rw [List.any_map]
    congr 1
    funext h
    by_cases same : h.1 = name
    · simp [same]
    · simp [same]
  · simp [other]

/-- Setting a header replaces the value of every header of that name in
place, or appends the header when there is none. -/
theorem set_eq (hs : Headers) (name value : String) :
    hs.set name value =
      if hs.any (·.1 == name) then hs.map fun h => if h.1 = name then (h.1, value) else h
      else hs ++ [(name, value)] := by
  unfold Headers.set Headers.contains
  split
  · congr 1
    funext h
    by_cases same : h.1 = name
    · simp [same]
    · simp [same]
  · rfl

theorem wireHeaders_eq_promised (r : Response) : r.wireHeaders = r.promisedHeaders := by
  have connection := contains_set_of_ne r.headers
    (show "Content-Length" ≠ "Connection" by decide) (toString r.body.length)
  unfold wireHeaders promisedHeaders
  dsimp only
  rw [connection, ← set_eq]
  by_cases named : r.headers.contains "Connection" = true
  · rw [if_pos named, if_pos (show r.headers.any (·.1 == "Connection") = true from named)]
  · rw [if_neg named, if_neg (show ¬ r.headers.any (·.1 == "Connection") = true from named),
      Headers.set, if_neg (by rwa [connection])]

/-- A header the writer can frame: no CR in its name or value, and no
colon in its name. -/
def Framable (h : String × String) : Prop :=
  '\r' ∉ h.1.toList ∧ '\r' ∉ h.2.toList ∧ ':' ∉ h.1.toList

instance (h : String × String) : Decidable (Framable h) :=
  decidable_of_iff (!h.1.toList.contains '\r' && !h.2.toList.contains '\r' && !h.1.toList.contains ':')
    (by simp [Framable, and_assoc])

theorem noCR_of_numeral {s : String} (numeral : Double.Numeral s) : '\r' ∉ s.toList :=
  fun mem => absurd (numeral _ mem) (by decide)

/-- The headers added by the writer are framable, so all are when the
response's own are. -/
theorem promisedHeaders_framable {r : Response} (own : ∀ h ∈ r.headers, Framable h) :
    ∀ h ∈ r.promisedHeaders, Framable h := by
  have length : Framable ("Content-Length", toString r.body.length) :=
    ⟨(by decide : '\r' ∉ "Content-Length".toList), noCR_of_numeral (Double.numeral_toString _),
      (by decide : ':' ∉ "Content-Length".toList)⟩
  have sized : ∀ h ∈ (if r.headers.any (·.1 == "Content-Length") then
      r.headers.map fun h => if h.1 = "Content-Length" then (h.1, toString r.body.length) else h
      else r.headers ++ [("Content-Length", toString r.body.length)]), Framable h := by
    intro h mem
    split at mem
    · obtain ⟨g, inOwn, rfl⟩ := List.mem_map.1 mem
      split
      · rename_i named
        exact ⟨(own g inOwn).1, length.2.1, (own g inOwn).2.2⟩
      · exact own g inOwn
    · rcases List.mem_append.1 mem with inOwn | added
      · exact own h inOwn
      · rw [List.mem_singleton.1 added]
        exact length
  intro h mem
  unfold promisedHeaders at mem
  dsimp only at mem
  split at mem
  · exact sized h mem
  · rcases List.mem_append.1 mem with inSized | added
    · exact sized h inSized
    · rw [List.mem_singleton.1 added]
      exact ⟨by decide, by decide, by decide⟩

/-- A response's head: the status line and one line per promised header,
joined by CR LF, then an empty line. -/
theorem head_eq (r : Response) :
    r.head = "\r\n".intercalate (("HTTP/1.1 " ++ r.status.render ++ " " ++ r.reason) ::
      r.promisedHeaders.map fun h => h.1 ++ ": " ++ h.2) ++ "\r\n" ++ "\r\n" := by
  rw [head, wireHeaders_eq_promised, String.intercalate_append_of_ne_nil (by simp) (by simp)]
  simp [String.append_assoc]
  rfl

/-- The bytes of a response: the head's lines, joined by CR LF, the end of
the head, and the body. -/
theorem serialize_eq (r : Response) :
    r.serialize = crlf.intercalate ((("HTTP/1.1 " ++ r.status.render ++ " " ++ r.reason) ::
      r.promisedHeaders.map fun h => h.1 ++ ": " ++ h.2).map Utf8.encode) ++ Bytes.headEnd ++ r.body := by
  have ending : Utf8.encode "\r\n" = crlf := by decide
  have first : "\r\n".toList.head? = some '\r' := rfl
  have plain : '\r' ≠ Utf8.mark ∧ Utf8.isStandIn '\r' = false := ⟨by decide, by decide⟩
  rw [serialize, head_eq, Utf8.encode_append_of_plain _ first plain,
    Utf8.encode_append_of_plain _ first plain, Utf8.encode_intercalate first plain (by decide), ending]
  simp only [List.append_assoc]
  rfl

/-- The bytes of a response with framable reason and headers: the head's
lines come first, then the first CR LF CR LF, then only the body; the first
line is the status line, and the others split at their first colon and
space into exactly the promised headers. -/
theorem serialize_frames (r : Response) (reasonText : '\r' ∉ r.reason.toList)
    (framable : ∀ h ∈ r.headers, Framable h) :
    ∃ block headerLines,
      Bytes.find? Bytes.headEnd r.serialize = some block.length ∧
      r.serialize = block ++ Bytes.headEnd ++ r.body ∧
      Bytes.lines block = Utf8.encode ("HTTP/1.1 " ++ r.status.render ++ " " ++ r.reason) :: headerLines ∧
      headerLines.map Bytes.field? =
        r.promisedHeaders.map fun h => some (Utf8.encode h.1, Utf8.encode h.2) := by
  have promised := promisedHeaders_framable framable
  set status := "HTTP/1.1 " ++ r.status.render ++ " " ++ r.reason with status_def
  set lines := (status :: r.promisedHeaders.map fun h => h.1 ++ ": " ++ h.2).map Utf8.encode
  have clean : ∀ l ∈ lines, (13 : UInt8) ∉ l ∧ l ≠ [] := by
    intro l mem
    simp only [lines, List.map_cons, List.map_map, List.mem_cons, List.mem_map] at mem
    rcases mem with rfl | ⟨h, inPromised, rfl⟩
    · refine ⟨Utf8.cr_not_mem_encode ?_, Utf8.encode_ne_nil (by simp [status_def])⟩
      simp only [status_def, String.toList_append, List.mem_append, not_or]
      exact ⟨⟨⟨by decide, noCR_of_numeral (Double.render_numeral _)⟩, by decide⟩, reasonText⟩
    · obtain ⟨nameText, valueText, -⟩ := promised h inPromised
      refine ⟨Utf8.cr_not_mem_encode ?_, Utf8.encode_ne_nil (by simp)⟩
      simp only [String.toList_append, List.mem_append, not_or]
      exact ⟨⟨nameText, by decide⟩, valueText⟩
  refine ⟨crlf.intercalate lines, (r.promisedHeaders.map fun h => h.1 ++ ": " ++ h.2).map Utf8.encode,
    ?_, serialize_eq r, ?_, ?_⟩
  · rw [serialize_eq, Bytes.find?, Bytes.findFrom_headEnd clean (by simp [lines]), Nat.zero_add]
  · rw [Bytes.lines_intercalate (fun l mem => (clean l mem).1) (by simp [lines])]
    simp [lines]
  · rw [List.map_map, List.map_map]
    refine List.map_congr_left fun h mem => ?_
    exact Bytes.field?_encode (promised h mem).2.2

theorem reasonPhrase_noCR (status : Double) : '\r' ∉ (reasonPhrase status).toList := by
  unfold reasonPhrase
  split_ifs <;> decide

/-- A route's response is written with its content type, the byte count of
its body, and `Connection: close`. -/
theorem promisedHeaders_route (route : Route) :
    route.response.promisedHeaders =
      [("Content-Type", route.contentType),
        ("Content-Length", toString (Utf8.encode route.body).length), ("Connection", "close")] := by
  have type : ("Content-Type" == "Content-Length") = false := by decide
  have connection : ("Content-Type" == "Connection") = false := by decide
  simp [Route.response, text, promisedHeaders, type, connection]

/-- The bytes a response is written as.  For a response whose reason and
headers hold no CR and whose header names hold no colon, the first CR LF
CR LF ends the head and exactly the body follows it; the head's first line
is `HTTP/1.1 <status> <reason>`, and the others split at their first colon
and space into the response's headers in order, with the body's byte count
as the `Content-Length` value, in place or appended, and then
`Connection: close` unless a connection header is there.  So the response
of a route states the byte count of the route's body as its length. -/
theorem written_response_layout :
    (∀ r : Response, '\r' ∉ r.reason.toList → (∀ h ∈ r.headers, Framable h) →
      ∃ block headerLines,
        Bytes.find? Bytes.headEnd r.serialize = some block.length ∧
        r.serialize = block ++ Bytes.headEnd ++ r.body ∧
        Bytes.lines block =
          Utf8.encode ("HTTP/1.1 " ++ r.status.render ++ " " ++ r.reason) :: headerLines ∧
        headerLines.map Bytes.field? =
          r.promisedHeaders.map fun h => some (Utf8.encode h.1, Utf8.encode h.2)) ∧
    (∀ route : Route, '\r' ∉ route.contentType.toList →
      ∃ block headerLines,
        Bytes.find? Bytes.headEnd route.response.serialize = some block.length ∧
        route.response.serialize = block ++ Bytes.headEnd ++ Utf8.encode route.body ∧
        (Bytes.lines block).tail = headerLines ∧
        headerLines.map Bytes.field? =
          [some (Utf8.encode "Content-Type", Utf8.encode route.contentType),
            some (Utf8.encode "Content-Length", Utf8.encode (toString (Utf8.encode route.body).length)),
            some (Utf8.encode "Connection", Utf8.encode "close")]) := by
  refine ⟨serialize_frames, fun route typeText => ?_⟩
  have framable : ∀ h ∈ route.response.headers, Framable h := by
    intro h mem
    simp only [Route.response, text, List.mem_singleton] at mem
    subst mem
    exact ⟨(by decide : '\r' ∉ "Content-Type".toList), typeText,
      (by decide : ':' ∉ "Content-Type".toList)⟩
  obtain ⟨block, headerLines, found, split, lines, fields⟩ :=
    serialize_frames route.response (reasonPhrase_noCR _) framable
  refine ⟨block, headerLines, found, split, by rw [lines]; rfl, ?_⟩
  rw [fields, promisedHeaders_route]
  rfl

/-- A response whose `Content-Length` header comes first, with a wrong
value, and whose body has a character of two bytes. -/
theorem written_response_layout_sample :
    let r : Response :=
      ⟨200, "OK", [("Content-Length", "99"), ("Server", "canned")], Utf8.encode "é!"⟩
    '\r' ∉ r.reason.toList ∧ (∀ h ∈ r.headers, Framable h) ∧
      ∃ block headerLines,
        Bytes.find? Bytes.headEnd r.serialize = some block.length ∧
        r.serialize = block ++ Bytes.headEnd ++ r.body ∧
        Bytes.lines block =
          Utf8.encode ("HTTP/1.1 " ++ r.status.render ++ " " ++ r.reason) :: headerLines ∧
        headerLines.map Bytes.field? =
          r.promisedHeaders.map fun h => some (Utf8.encode h.1, Utf8.encode h.2) :=
  have reason : '\r' ∉ "OK".toList := by decide
  have headers : ∀ h ∈ [("Content-Length", "99"), ("Server", "canned")], Framable h := by decide
  ⟨reason, headers, written_response_layout.1 _ reason headers⟩

end Response

/-! ## Each framing header once

Header names are compared exactly, as the keys of the response's header
map.  Among headers with distinct names, the writer's `Content-Length` and
`Connection` headers are each written once: the first takes the place of a
given one, the second is added only when none is given.  A header whose name
differs from these only in letter case is a header of another name, and it
is written beside them (`lowercase_length_header_kept`).
-/

namespace Headers

theorem lookup_isSome (hs : Headers) (name : String) :
    (hs.lookup name).isSome = hs.any (·.1 == name) := by
  induction hs with
  | nil => rfl
  | cons h hs ih =>
    obtain ⟨key, value⟩ := h
    by_cases same : key = name
    · simp [same]
    · simp [List.lookup_cons, beq_eq_false_iff_ne.2 (Ne.symm same), beq_eq_false_iff_ne.2 same, ih]

theorem lookup_of_any {hs : Headers} {name : String} (named : hs.any (·.1 == name) = true) :
    ∃ value, hs.lookup name = some value :=
  Option.isSome_iff_exists.1 ((lookup_isSome hs name).trans named)

theorem lookup_of_not_any {hs : Headers} {name : String}
    (unnamed : ¬ hs.any (·.1 == name) = true) : hs.lookup name = none :=
  Option.not_isSome_iff_eq_none.1 (by rw [lookup_isSome]; exact unnamed)

/-- Among headers with distinct names, those of one name are the one the
name looks up, if any. -/
theorem filter_name {hs : Headers} (distinct : (hs.map Prod.fst).Nodup) (name : String) :
    hs.filter (·.1 = name) = ((hs.lookup name).map fun v => (name, v)).toList := by
  induction hs with
  | nil => rfl
  | cons h hs ih =>
    obtain ⟨key, value⟩ := h
    rw [List.map_cons, List.nodup_cons] at distinct
    by_cases same : key = name
    · subst same
      have none : hs.filter (·.1 = key) = [] :=
        List.filter_eq_nil_iff.2 fun h mem named =>
          distinct.1 (List.mem_map.2 ⟨h, mem, by simpa using named⟩)
      simp [none]
    · simp [List.lookup_cons, beq_eq_false_iff_ne.2 (Ne.symm same), same, ih distinct.2]

end Headers

namespace Response

theorem fst_sized (h : String × String) (length : String) :
    (if h.1 = "Content-Length" then (h.1, length) else h).1 = h.1 := by
  split <;> rfl

theorem filter_length_sized {hs : Headers} (distinct : (hs.map Prod.fst).Nodup) (length : String) :
    (if hs.any (·.1 == "Content-Length") then
        hs.map fun h => if h.1 = "Content-Length" then (h.1, length) else h
      else hs ++ [("Content-Length", length)]).filter (·.1 = "Content-Length") =
      [("Content-Length", length)] := by
  split
  · rename_i named
    obtain ⟨value, found⟩ := Headers.lookup_of_any named
    rw [List.filter_map]
    simp only [Function.comp_def, fst_sized]
    rw [Headers.filter_name distinct, found]
    simp
  · rename_i unnamed
    rw [List.filter_append, Headers.filter_name distinct, Headers.lookup_of_not_any unnamed]
    simp

theorem filter_connection_sized (hs : Headers) (length : String) :
    (if hs.any (·.1 == "Content-Length") then
        hs.map fun h => if h.1 = "Content-Length" then (h.1, length) else h
      else hs ++ [("Content-Length", length)]).filter (·.1 = "Connection") =
      hs.filter (·.1 = "Connection") := by
  split
  · rw [List.filter_map]
    simp only [Function.comp_def, fst_sized]
    refine (List.map_congr_left fun h mem => ?_).trans (List.map_id _)
    have named : h.1 = "Connection" := by simpa using (List.mem_filter.1 mem).2
    simp [named]
  · rw [List.filter_append]
    simp

/-- Of the headers a response is written with, exactly one is named
`Content-Length`, and its value is the body's byte count. -/
theorem promisedHeaders_length {r : Response} (distinct : (r.headers.map Prod.fst).Nodup) :
    r.promisedHeaders.filter (·.1 = "Content-Length") =
      [("Content-Length", toString r.body.length)] := by
  unfold promisedHeaders
  dsimp only
  split
  · exact filter_length_sized distinct _
  · rw [List.filter_append, filter_length_sized distinct]
    rfl

/-- Of the headers a response is written with, exactly one is named
`Connection`: the response's own, or `close`. -/
theorem promisedHeaders_connection {r : Response} (distinct : (r.headers.map Prod.fst).Nodup) :
    r.promisedHeaders.filter (·.1 = "Connection") =
      [("Connection", (r.headers.lookup "Connection").getD "close")] := by
  unfold promisedHeaders
  dsimp only
  split
  · rename_i named
    obtain ⟨value, found⟩ := Headers.lookup_of_any named
    rw [filter_connection_sized, Headers.filter_name distinct, found]
    rfl
  · rename_i unnamed
    rw [List.filter_append, filter_connection_sized, Headers.filter_name distinct,
      Headers.lookup_of_not_any unnamed]
    rfl

/-- Picking encoded headers by an encoded name picks the headers of that
name, when no other name encodes the same. -/
theorem filter_encoded (hs : Headers) {name : String} (unmarked : Utf8.mark ∉ name.toList)
    (plain : Utf8.replacement ∉ name.toList) :
    (hs.map fun h => (Utf8.encode h.1, Utf8.encode h.2)).filter (·.1 = Utf8.encode name) =
      (hs.filter (·.1 = name)).map fun h => (Utf8.encode h.1, Utf8.encode h.2) := by
  rw [List.filter_map]
  congr 1
  refine List.filter_congr fun h _ => ?_
  simp only [Function.comp_apply, decide_eq_decide]
  exact ⟨Utf8.eq_of_encode_eq unmarked plain, fun same => same ▸ rfl⟩

/-- The framing headers of a response are written once each.  For a
response whose header names are distinct and whose reason and headers can
be framed, the header lines of its bytes hold exactly one field named
`Content-Length`, whose value is the body's byte count, and exactly one
named `Connection`, whose value is the response's own or `close`. -/
theorem framing_headers_written_once :
    ∀ r : Response, (r.headers.map Prod.fst).Nodup → '\r' ∉ r.reason.toList →
      (∀ h ∈ r.headers, Framable h) →
      ∃ block headerLines,
        Bytes.find? Bytes.headEnd r.serialize = some block.length ∧
        r.serialize = block ++ Bytes.headEnd ++ r.body ∧
        Bytes.lines block =
          Utf8.encode ("HTTP/1.1 " ++ r.status.render ++ " " ++ r.reason) :: headerLines ∧
        (headerLines.filterMap Bytes.field?).filter (·.1 = Utf8.encode "Content-Length") =
          [(Utf8.encode "Content-Length", Utf8.encode (toString r.body.length))] ∧
        (headerLines.filterMap Bytes.field?).filter (·.1 = Utf8.encode "Connection") =
          [(Utf8.encode "Connection", Utf8.encode ((r.headers.lookup "Connection").getD "close"))] := by
  intro r distinct reasonText framable
  obtain ⟨block, headerLines, found, split, lines, fields⟩ := serialize_frames r reasonText framable
  have read : headerLines.filterMap Bytes.field? =
      r.promisedHeaders.map fun h => (Utf8.encode h.1, Utf8.encode h.2) := by
    simpa [List.filterMap_map] using congrArg (List.filterMap id) fields
  refine ⟨block, headerLines, found, split, lines, ?_, ?_⟩
  · rw [read, filter_encoded _ (by decide) (by decide), promisedHeaders_length distinct]
    rfl
  · rw [read, filter_encoded _ (by decide) (by decide), promisedHeaders_connection distinct]
    rfl

/-- The response with a lowercase `content-length` header meets the
conditions: its own header is kept beside the writer's, which is the only
one of that exact name. -/
theorem framing_headers_written_once_beside_lowercase :
    let r : Response := ⟨200, "OK", [("content-length", "99")], Utf8.encode "x"⟩
    (r.headers.map Prod.fst).Nodup ∧ '\r' ∉ r.reason.toList ∧ (∀ h ∈ r.headers, Framable h) ∧
      ∃ block headerLines,
        Bytes.find? Bytes.headEnd r.serialize = some block.length ∧
        r.serialize = block ++ Bytes.headEnd ++ r.body ∧
        Bytes.lines block =
          Utf8.encode ("HTTP/1.1 " ++ r.status.render ++ " " ++ r.reason) :: headerLines ∧
        (headerLines.filterMap Bytes.field?).filter (·.1 = Utf8.encode "Content-Length") =
          [(Utf8.encode "Content-Length", Utf8.encode (toString r.body.length))] ∧
        (headerLines.filterMap Bytes.field?).filter (·.1 = Utf8.encode "Connection") =
          [(Utf8.encode "Connection", Utf8.encode ((r.headers.lookup "Connection").getD "close"))] :=
  have distinct : ([("content-length", "99")].map Prod.fst).Nodup := by decide
  have reason : '\r' ∉ "OK".toList := by decide
  have headers : ∀ h ∈ [("content-length", "99")], Framable h := by decide
  ⟨distinct, reason, headers, framing_headers_written_once _ distinct reason headers⟩

/-- A response with a lowercase `content-length` header of its own is
written with two length headers, its own and the body's byte count. -/
theorem lowercase_length_header_kept :
    let r : Response := ⟨200, "OK", [("content-length", "99")], Utf8.encode "x"⟩
    r.serialize = Utf8.encode
        "HTTP/1.1 200 OK\r\ncontent-length: 99\r\nContent-Length: 1\r\nConnection: close\r\n\r\nx" ∧
      r.promisedHeaders.filter (fun h => h.1.toLower = "content-length") =
        [("content-length", "99"), ("Content-Length", "1")] :=
  ⟨by decide +kernel, by decide +kernel⟩

end Response
end HttpStub
