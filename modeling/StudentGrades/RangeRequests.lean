import StudentGrades.HttpReplies

/-!
# Requests for parts of a page

A client takes the positions and the bytes of each part out of a response, whether it is one
part or several. What it gets are bytes of the page at these positions, and the positions
are those that it has asked for.
-/

namespace StudentGrades
open ByteText IntervalUnion

namespace Httplib

/-- First and last position of a part, and its bytes. -/
abbrev Part := (ℕ × ℕ) × Bytes

def readPositions (text : Bytes) : ℕ × ℕ :=
  let rest := text.dropWhile fun b => !isDigit b
  (digitsValue (rest.takeWhile isDigit), digitsValue (((rest.dropWhile isDigit).drop 1).takeWhile isDigit))

def delimiter (boundary : Bytes) : Bytes := utf8 "--" ++ boundary

def readPart (boundary text : Bytes) : Option (Part × Bytes) :=
  if !(delimiter boundary ++ crlf).isPrefixOf text then none
  else
    match readHead [] [] (text.drop ((delimiter boundary).length + 2)) with
    | none => none
    | some (fields, rest) =>
      match fields.find? fun line => caseEqual (fieldName line) (utf8 "Content-Range") with
      | none => none
      | some line =>
        let (first, last) := readPositions line
        let length := last + 1 - first
        if rest.length < length + 2 then none
        else some (((first, last), rest.take length), rest.drop (length + 2))

def readParts (boundary : Bytes) : ℕ → Bytes → Option (List Part)
  | 0, _ => none
  | fuel+1, text =>
    if text = delimiter boundary ++ utf8 "--" then some []
    else
      match readPart boundary text with
      | none => none
      | some (part, rest) => (readParts boundary fuel rest).map (part :: ·)

def Reply.parts (r : Reply) : Option (List Part) :=
  let type := firstValue r.headers (utf8 "Content-Type")
  let multipart := utf8 "multipart/byteranges; boundary="
  if multipart.isPrefixOf type then readParts (type.drop multipart.length) r.body.length r.body
  else some [(readPositions (firstValue r.headers (utf8 "Content-Range")), r.body)]

def part (page : Bytes) (r : ByteRange) : Part := ((r.1.toNat, r.2.toNat), partOf page r)

theorem readPositions_field {text : Bytes} (htext : text.all (fun b => !isDigit b) = true) {len : ℤ}
    {r : ByteRange} (hr : within len r) (n : ℕ) :
    readPositions (text ++ contentRangeField r n) = (r.1.toNat, r.2.toNat) := by
  rw [within_iff] at hr
  have hdigits (m : ℕ) : ∀ b ∈ natText m, isDigit b := fun b => isDigit_of_mem_natText
  have hlast : r.1.toNat + ((r.2 - r.1).toNat + 1) - 1 = r.2.toNat := by omega
  have hfield : contentRangeField r n = utf8 "bytes " ++ (natText r.1.toNat ++ (45 ::
      (natText r.2.toNat ++ (47 :: natText n)))) := by
    simp only [contentRangeField, rangeOffsetAndLength, hlast, List.append_assoc]
    rfl
  have hskip : ((text ++ contentRangeField r n).dropWhile fun b => !isDigit b) =
      natText r.1.toNat ++ (45 :: (natText r.2.toNat ++ (47 :: natText n))) := by
    have hfixed : (utf8 "bytes ").all (fun b => !isDigit b) = true := rfl
    rw [hfield, List.dropWhile_append_of_pos (List.all_eq_true.1 htext),
      List.dropWhile_append_of_pos (List.all_eq_true.1 hfixed)]
    obtain ⟨d, ds, hds⟩ := List.exists_cons_of_ne_nil (natText_ne_nil r.1.toNat)
    have hd : isDigit d := hdigits r.1.toNat d (by simp [hds])
    rw [hds, List.cons_append, List.dropWhile_cons, hd]
    rfl
  have hminus : ∀ b ∈ (45 :: (natText r.2.toNat ++ (47 :: natText n)) : Bytes).head?, isDigit b = false := by
    simp [show isDigit 45 = false from rfl]
  have hslash : ∀ b ∈ (47 :: natText n : Bytes).head?, isDigit b = false := by
    simp [show isDigit 47 = false from rfl]
  rw [readPositions, hskip, takeWhile_digits (hdigits _) hminus, dropWhile_digits (hdigits _) hminus,
    List.drop_one, List.tail_cons, takeWhile_digits (hdigits _) hslash, digitsValue_natText,
    digitsValue_natText]

theorem partOf_length {page : Bytes} {r : ByteRange} (hr : within page.length r) :
    (partOf page r).length = r.2.toNat + 1 - r.1.toNat := by
  rw [within_iff] at hr
  simp only [partOf, rangeOffsetAndLength, List.length_take, List.length_drop]
  omega

theorem writePart_eq (boundary page : Bytes) (r : ByteRange) (rest : Bytes) :
    writePart boundary contentType page r ++ rest = (delimiter boundary ++ crlf) ++
      ([headerLine (utf8 "Content-Type", contentType),
        headerLine (utf8 "Content-Range", contentRangeField r page.length)].flatMap (· ++ crlf) ++ crlf ++
        (partOf page r ++ (crlf ++ rest))) := by
  have hfields : fieldLine = fun h => headerLine h ++ crlf := rfl
  have htype : contentType ≠ [] := by decide
  simp only [writePart, delimiter, hfields, if_neg htype, List.flatMap_cons, List.flatMap_nil,
    List.append_assoc, List.append_nil]

theorem readPart_writePart (boundary : Bytes) {page : Bytes} {r : ByteRange} (hr : within page.length r)
    (rest : Bytes) :
    readPart boundary (writePart boundary contentType page r ++ rest) = some (part page r, rest) := by
  have hcolon : (58 : UInt8) ∉ utf8 "Content-Type" ∧ (58 : UInt8) ∉ utf8 "Content-Range" := by decide
  have hname : (utf8 "Content-Range" ++ utf8 ": ").all (fun b => !isDigit b) = true := rfl
  have hother : caseEqual (utf8 "Content-Type") (utf8 "Content-Range") = false := by decide
  have hsame : caseEqual (utf8 "Content-Range") (utf8 "Content-Range") = true := by decide
  have hclean : ∀ line ∈ [headerLine (utf8 "Content-Type", contentType),
      headerLine (utf8 "Content-Range", contentRangeField r page.length)],
      (13 : UInt8) ∉ line ∧ line ≠ [] := by
    refine List.forall_mem_cons.2 ⟨by decide, List.forall_mem_singleton.2 ⟨?_, by
      simp [headerLine, show utf8 ": " ≠ [] by decide]⟩⟩
    have hfixed : (13 : UInt8) ∉ utf8 "Content-Range" ++ utf8 ": " := by decide
    rw [headerLine, List.mem_append, not_or]
    exact ⟨hfixed, contentRangeField_clean r _⟩
  have hpositions := readPositions_field hname hr page.length
  have hlen := partOf_length hr
  have hcrlf (text : Bytes) : text.length + 2 = (text ++ crlf).length := by
    rw [List.length_append]
    rfl
  have hhead := readHead_lines _ hclean [] (partOf page r ++ (crlf ++ rest))
  have hrest : ¬((partOf page r ++ crlf) ++ rest).length < (partOf page r).length + 2 := by
    rw [hcrlf, List.length_append]
    omega
  rw [writePart_eq, readPart, if_neg (by simp), hcrlf, List.drop_left, hhead]
  dsimp only [List.nil_append]
  rw [List.find?_cons, fieldName_headerLine hcolon.1, hother, List.find?_cons, fieldName_headerLine hcolon.2,
    hsame]
  dsimp only
  rw [headerLine, hpositions]
  dsimp only
  rw [← hlen, ← List.append_assoc, if_neg hrest, hcrlf, List.drop_left,
    List.append_assoc, List.take_left]
  rfl

theorem writePart_ne_end (boundary page : Bytes) (r : ByteRange) (rest : Bytes) :
    writePart boundary contentType page r ++ rest ≠ delimiter boundary ++ utf8 "--" := by
  rw [writePart_eq, List.append_assoc]
  intro h
  have hhead := congrArg List.head? (List.append_cancel_left h)
  simp [crlf, show utf8 "--" = [45, 45] from rfl] at hhead

theorem readParts_write (boundary : Bytes) {page : Bytes} {served : List ByteRange}
    (h : ∀ r ∈ served, within page.length r) {fuel : ℕ}
    (hfuel : (multipartRangesData boundary contentType page served).length ≤ fuel) :
    readParts boundary fuel (multipartRangesData boundary contentType page served) =
      some (served.map (part page)) := by
  induction served generalizing fuel with
  | nil =>
    have hlen : 0 < (utf8 "--").length := by decide
    simp only [multipartRangesData, List.flatMap_nil, List.nil_append, List.length_append] at hfuel
    obtain ⟨fuel, rfl⟩ : ∃ n, fuel = n + 1 := ⟨fuel - 1, by omega⟩
    rw [readParts, multipartRangesData, List.flatMap_nil, List.nil_append, delimiter, if_pos rfl]
    rfl
  | cons r served ih =>
    obtain ⟨hr, hrest⟩ := List.forall_mem_cons.1 h
    have htext : multipartRangesData boundary contentType page (r :: served) =
        writePart boundary contentType page r ++ multipartRangesData boundary contentType page served := by
      simp only [multipartRangesData, List.flatMap_cons, List.append_assoc]
    have hpart : 0 < (writePart boundary contentType page r).length :=
      List.length_pos_iff.2 (by simp [writePart, crlf])
    rw [htext, List.length_append] at hfuel
    obtain ⟨fuel, rfl⟩ : ∃ n, fuel = n + 1 := ⟨fuel - 1, by omega⟩
    rw [htext, readParts, if_neg (writePart_ne_end boundary page r _), readPart_writePart boundary hr]
    dsimp only
    rw [ih hrest (by omega)]
    rfl

theorem setUnlessThere_append (headers : Headers) (key val : Bytes) :
    headers <+: setUnlessThere headers key val := by
  rw [setUnlessThere]
  split_ifs
  · exact List.prefix_rfl
  · exact List.prefix_append _ _

theorem append_ite {p : Prop} [Decidable p] {headers more others : Headers} (h : headers <+: more)
    (h' : headers <+: others) : headers <+: if p then more else others := by
  split_ifs
  · exact h
  · exact h'

theorem writeResponseCore_headers (o : FieldOrder) (closeConnection : Bool) (req : Request) (status : ℕ)
    (headers : Headers) (body : Bytes) (withContent : Bool) :
    headers <+: (writeResponseCore o closeConnection req status headers body withContent).headers := by
  rw [writeResponseCore]
  have hlength : headers <+: if withContent = true ∧ body ≠ [] then
      headers ++ [(utf8 "Content-Length", natText body.length)] else headers :=
    append_ite (List.prefix_append _ _) List.prefix_rfl
  have hconnection := hlength.trans (List.prefix_append _
    [if closeConnection ∨ getHeaderValue o req.headers (utf8 "Connection") = utf8 "close" then
      (utf8 "Connection", utf8 "close") else (utf8 "Keep-Alive", utf8 "timeout=5, max=100")])
  have hcontent := append_ite (p := body ≠ [])
    (hconnection.trans (setUnlessThere_append _ (utf8 "Content-Type") (utf8 "text/plain")))
    (hconnection.trans (setUnlessThere_append _ (utf8 "Content-Length") (utf8 "0")))
  exact append_ite (hcontent.trans (setUnlessThere_append _ _ _)) hcontent

theorem firstValue_append {headers more : Headers} (hmore : headers <+: more) {key name val : Bytes}
    (hfound : headers.find? (fun x => caseEqual x.1 key) = some (name, val)) :
    firstValue more key = cstr val := by
  obtain ⟨tail, rfl⟩ := hmore
  rw [firstValue, List.find?_append, hfound]
  rfl

theorem nulFree_contentRangeField (r : ByteRange) (n : ℕ) : NulFree (contentRangeField r n) := by
  simp only [contentRangeField, nulFree_append, nulFree_natText]
  decide

theorem nulFree_boundary (pf : Platform) (n : ℕ) : NulFree (pf.boundary n) := by
  have hfixed : NulFree (utf8 "--cpp-httplib-multipart-data-") := by decide
  have halnum := List.all_eq_true.1 (pf.alnum n)
  exact nulFree_append.2 ⟨hfixed, fun hm => absurd (halnum 0 hm) (by decide)⟩

theorem parts_applyRanges (pf : Platform) (n : ℕ) {page : Bytes} {served : List ByteRange}
    (hne : served ≠ []) (hserved : ∀ r ∈ served, within page.length r) {reply : Reply}
    (hheaders : (applyRanges (pf.boundary n) contentHeaders page served).1 <+: reply.headers)
    (hbody : reply.body = (applyRanges (pf.boundary n) contentHeaders page served).2) :
    reply.parts = some (served.map (part page)) := by
  match served with
  | [] => exact absurd rfl hne
  | [r] =>
    have htype : firstValue reply.headers (utf8 "Content-Type") = cstr contentType :=
      firstValue_append hheaders rfl
    have hrange : firstValue reply.headers (utf8 "Content-Range") =
        cstr (contentRangeField r page.length) := firstValue_append hheaders rfl
    have hpage : (utf8 "multipart/byteranges; boundary=").isPrefixOf (cstr contentType) = false := by decide
    have hpositions := @readPositions_field [] rfl _ r (hserved r (by simp)) page.length
    rw [Reply.parts, htype, hrange, cstr_eq_self (nulFree_contentRangeField r _)]
    rw [hpage, if_neg (by simp), hbody]
    rw [List.nil_append] at hpositions
    rw [hpositions]
    rfl
  | r :: s :: rest =>
    have hnul : NulFree (utf8 "multipart/byteranges; boundary=") := by decide
    have htype : firstValue reply.headers (utf8 "Content-Type") =
        cstr (utf8 "multipart/byteranges; boundary=" ++ pf.boundary n) := firstValue_append hheaders rfl
    have hdata : reply.body = multipartRangesData (pf.boundary n) contentType page (r :: s :: rest) := hbody
    rw [Reply.parts, htype, cstr_eq_self (nulFree_append.2 ⟨hnul, nulFree_boundary pf n⟩)]
    rw [if_pos (by simp), List.drop_left, hdata, readParts_write _ hserved le_rfl]

theorem nulFree_writeRanges (ranges : List ByteRange) : NulFree (writeRanges ranges) := by
  have hranges : NulFree (List.intercalate [44] (ranges.map writeRange)) :=
    nulFree_intercalate (by decide) (List.forall_mem_map.2 fun r _ hm => absurd (writeRange_bytes hm) (by decide))
  exact nulFree_append.2 ⟨by decide, hranges⟩

theorem requestRanges_write {o : FieldOrder} {headers : Headers} {name : Bytes} {ranges : List ByteRange}
    (hfield : (o.order headers).find? (fun h => caseEqual h.1 (utf8 "Range")) =
      some (name, writeRanges ranges))
    (hne : ranges ≠ []) (h : ∀ r ∈ ranges, Writable r) : requestRanges o headers = some ranges := by
  have hname := List.find?_some (p := fun h : Bytes × Bytes => caseEqual h.1 (utf8 "Range")) hfield
  have hthere : hasHeader headers (utf8 "Range") = true :=
    List.any_eq_true.2 ⟨_, (o.perm headers).mem_iff.1 (List.mem_of_find?_eq_some hfield), hname⟩
  rw [requestRanges, hthere, if_pos rfl, getHeaderValue, firstValue, hfield]
  dsimp only
  rw [cstr_eq_self (nulFree_writeRanges ranges), parseRangeHeader_write hne h]

structure Covers (page : Bytes) (ranges : List ByteRange) (parts : List Part) : Prop where
  some_part : parts ≠ []
  bytes : ∀ p ∈ parts, p.1.1 ≤ p.1.2 ∧ p.1.2 < page.length ∧
    p.2 = (page.drop p.1.1).take (p.1.2 + 1 - p.1.1)
  positions : ∀ i : ℕ, (∃ p ∈ parts, p.1.1 ≤ i ∧ i ≤ p.1.2) ↔ ∃ r ∈ ranges, Asks page.length r i

theorem covers_served (rangeSort : RangeSort) {page : Bytes} {ranges served : List ByteRange}
    (hgiven : ∀ r ∈ ranges, ¬(r.1 = -1 ∧ r.2 = -1)) (hne : ranges ≠ [])
    (h : servedRanges rangeSort page.length ranges = some served) :
    Covers page ranges (served.map (part page)) := by
  obtain ⟨hcovered, hwithin, hserved⟩ := servedRanges_spec rangeSort hgiven h
  have hbounds : ∀ r ∈ served, 0 ≤ r.1 ∧ r.1 ≤ r.2 ∧ r.2 ≤ page.length - 1 := fun r hr =>
    within_iff.1 (hwithin r hr)
  refine ⟨by simpa using hserved hne, List.forall_mem_map.2 fun r hr => ?_, fun i => ?_⟩
  · obtain ⟨hfirst, hle, hlast⟩ := hbounds r hr
    have hlen : r.2.toNat + 1 - r.1.toNat = (r.2 - r.1).toNat + 1 := by omega
    dsimp only [part]
    exact ⟨by omega, by omega, by rw [hlen]; rfl⟩
  · rw [← hcovered i, mem_covered]
    simp only [List.mem_map, exists_exists_and_eq_and, part]
    refine exists_congr fun r => and_congr_right fun hr => ?_
    have hr := hbounds r hr
    omega

/-- A request for parts of the page gets no bytes, or in one part or several exactly the
bytes at the positions that it asks for; ranges in the page that are apart from each
other are served. -/
theorem routing_ranges (pf : Platform) (n : ℕ) (g_conn : Option Exec) (closeConnection : Bool)
    {req : Request} (hget : req.method = utf8 "GET") (hroot : req.path = utf8 "/")
    {ranges : List ByteRange} (hranges : requestRanges pf.fields req.headers = some ranges) (hne : ranges ≠ []) :
    let page := MainA.handler g_conn req
    let reply := routing pf n g_conn closeConnection req ranges
    ((reply.status = 416 ∧ reply.body = []) ∨
      (reply.status = 206 ∧ ∃ parts, reply.parts = some parts ∧ Covers page ranges parts)) ∧
      (ranges.length ≤ rangeMaxCount → (∀ r ∈ ranges, within page.length (placed page.length r)) →
        ((ranges.map (placed page.length)).Pairwise fun a b => overlaps b a = false) →
        reply.status = 206) := by
  intro page reply
  have hreply : reply = respondWith pf n closeConnection req contentHeaders page ranges := by
    simp only [reply, routing, hget, hroot, true_or, if_true]
    rfl
  have hgiven := requestRanges_given hranges
  rw [hreply, respondWith]
  cases hserved : servedRanges pf.rangeSort page.length ranges with
  | none =>
    refine ⟨.inl ⟨by simp [writeResponseCore], by simp [writeResponseCore]⟩, fun hcount hwithin hdisjoint => ?_⟩
    rw [servedRanges_disjoint pf.rangeSort hcount hwithin hdisjoint] at hserved
    cases hserved
  | some served =>
    obtain ⟨-, hwithin, hsome⟩ := servedRanges_spec pf.rangeSort hgiven hserved
    have hstatus : (if ranges = [] then 200 else 206) = 206 := if_neg hne
    dsimp only
    rw [hstatus]
    exact ⟨.inr ⟨rfl, _, parts_applyRanges pf n (hsome hne) hwithin
      (writeResponseCore_headers pf.fields closeConnection req 206 _ _ true) rfl,
      covers_served pf.rangeSort hgiven hne hserved⟩, fun _ _ _ => rfl⟩

def sampleRanges : List ByteRange := [(-1, 20), (0, 9)]

def sampleRequest : Request where
  method := utf8 "GET"
  target := utf8 "/"
  version := utf8 "HTTP/1.1"
  path := utf8 "/"
  params := []
  headers := [(utf8 "Range", writeRanges sampleRanges)]

theorem routing_ranges_sample :
    let page := MainA.handler none sampleRequest
    let reply := routing .plain 7 none false sampleRequest sampleRanges
    ((reply.status = 416 ∧ reply.body = []) ∨
      (reply.status = 206 ∧ ∃ parts, reply.parts = some parts ∧ Covers page sampleRanges parts)) ∧
      (sampleRanges.length ≤ rangeMaxCount →
        (∀ r ∈ sampleRanges, within page.length (placed page.length r)) →
        ((sampleRanges.map (placed page.length)).Pairwise fun a b => overlaps b a = false) →
        reply.status = 206) := by
  have hwritable : ∀ r ∈ sampleRanges, Writable r := by
    refine List.forall_mem_cons.2 ⟨?_, List.forall_mem_singleton.2 ?_⟩
    · exact ⟨by decide, by decide, by decide, by decide⟩
    · exact ⟨by decide, by decide, by decide, by decide⟩
  have hranges : requestRanges Platform.plain.fields sampleRequest.headers = some sampleRanges :=
    requestRanges_write rfl (by decide) hwritable
  exact routing_ranges .plain 7 none false rfl rfl hranges (by decide)

end Httplib
end StudentGrades
