import StudentGrades.HttpServer

/-!
# Requests of a browser

A request line of three words and header fields of visible bytes are read back as
they were written, however they arrive. A submitted class is the filter of the page;
every other path than the root is not found.
-/

namespace StudentGrades
open ByteText FormEncoding ChunkedStream

namespace Httplib

theorem getlineFrom_line {eof : Bool} {line : Bytes} (hline : (10 : UInt8) ∉ line) {room : ℕ}
    (hroom : line.length + 2 ≤ room) (prevByte : UInt8) (acc : Bytes) {s t : Socket}
    (h : Reads s (line ++ crlf) t) :
    getlineFrom eof room prevByte acc s = (some (acc ++ (line ++ crlf)), t) := by
  induction line generalizing room prevByte acc s with
  | nil =>
    obtain ⟨u, hu, v, hv, rfl⟩ := h
    obtain ⟨room, rfl⟩ : ∃ n, room = n + 2 := ⟨room - 2, by simp at hroom; omega⟩
    simp [getlineFrom, hu, hv, crlf]
  | cons b line ih =>
    obtain ⟨u, hu, hrest⟩ := h
    obtain ⟨room, rfl⟩ : ∃ n, room = n + 1 := ⟨room - 1, by simp at hroom; omega⟩
    have hb : b ≠ 10 := fun hb => hline (by simp [hb])
    have hnext := ih (fun hm => hline (by simp [hm])) (by simp at hroom; omega) b (acc ++ [b]) hrest
    rw [getlineFrom, hu]
    dsimp only
    rw [if_neg fun h => hb h.2, hnext, List.append_assoc]
    rfl

theorem getline_line (eof : Bool) {line : Bytes} (hline : (10 : UInt8) ∉ line)
    (hlen : line.length + 2 ≤ maxLineLength) {s t : Socket} (h : Reads s (line ++ crlf) t) :
    getline eof s = (some (line ++ crlf), t) :=
  getlineFrom_line hline hlen 0 [] h

theorem endWithCrlf_line (line : Bytes) : endWithCrlf (line ++ crlf) = true :=
  List.isSuffixOf_iff_suffix.2 (List.suffix_append _ _)

theorem length_line (line : Bytes) : (line ++ crlf).length = line.length + 2 := by
  rw [List.length_append]
  rfl

theorem take_line (line : Bytes) : (line ++ crlf).take ((line ++ crlf).length - 2) = line := by
  simp [crlf]

structure Field where
  name : Bytes
  value : Bytes
  token : isFieldName name
  visible : isFieldValue value
  short : (fieldLine (name, value)).length ≤ headerMaxLength

namespace Field
variable (f : Field)

def line : Bytes := fieldLine (f.name, f.value)

/-- The field as the server stores it. -/
def received : Bytes × Bytes :=
  if caseEqual f.name (utf8 "Location") || caseEqual f.name (utf8 "Referer") then (f.name, f.value)
  else (f.name, decodePath f.value false)

end Field

theorem visible_ne {b x : UInt8} (h : isFieldVchar b) (hx : isFieldVchar x = false) : b ≠ x := by
  rintro rfl
  simp [h] at hx

theorem visible_not_blank {b : UInt8} (h : isFieldVchar b) : isSpaceOrTab b = false := by
  simp [isSpaceOrTab, visible_ne h (x := 32) rfl, visible_ne h (x := 9) rfl]

theorem alnum_visible {b : UInt8} (h : isAlnum b) : isFieldVchar b ∧ b ≠ 58 ∧ b ≠ 35 := by
  have hne {x : UInt8} (hx : isAlnum x = false) : b ≠ x := by
    rintro rfl
    simp [h] at hx
  refine ⟨?_, hne rfl, hne rfl⟩
  simp only [isAlnum, isFieldVchar, Bool.or_eq_true, Bool.and_eq_true, decide_eq_true_eq,
    UInt8.le_iff_toNat_le] at h ⊢
  simp at h ⊢
  omega

theorem token_visible {b : UInt8} (h : isTokenChar b) : isFieldVchar b ∧ b ≠ 58 := by
  have hmarks : (utf8 "!#$%&'*+-.^_`|~").all (fun b => isFieldVchar b && b != 58) = true := rfl
  rcases Bool.or_eq_true_iff.1 h with h | h
  · exact ⟨(alnum_visible h).1, (alnum_visible h).2.1⟩
  · simpa using List.all_eq_true.1 hmarks b (by simpa using h)

theorem trimRight_eq_self {s : Bytes} (h : ∀ x, s.getLast? = some x → isSpaceOrTab x = false) :
    trimRight s = s := by
  have hdrop : s.reverse.dropWhile isSpaceOrTab = s.reverse := by
    cases hs : s.reverse with
    | nil => rfl
    | cons x xs =>
      have hx : s.getLast? = some x := by rw [← List.head?_reverse, hs]; rfl
      rw [List.dropWhile_cons, h x hx]
      rfl
  rw [trimRight, hdrop, List.reverse_reverse]

theorem isFieldValue_ends {v : Bytes} (h : isFieldValue v) :
    (∀ x, v.head? = some x → isSpaceOrTab x = false) ∧
      ∀ x, v.getLast? = some x → isSpaceOrTab x = false := by
  simp only [isFieldValue, Bool.and_eq_true] at h
  constructor
  · intro x hx
    have hv := h.1.2
    rw [hx] at hv
    exact visible_not_blank hv
  · intro x hx
    have hv := h.2
    rw [hx] at hv
    exact visible_not_blank hv

theorem trimRight_field (name : Bytes) {value : Bytes} (hvalue : isFieldValue value) :
    ∃ rest, trimRight (name ++ utf8 ": " ++ value) = name ++ 58 :: rest ∧
      rest.dropWhile isSpaceOrTab = value := by
  obtain ⟨hhead, hlast⟩ := isFieldValue_ends hvalue
  cases value with
  | nil =>
    refine ⟨[], ?_, rfl⟩
    have hsep : utf8 ": " = [58, 32] := rfl
    simp [trimRight, hsep, isSpaceOrTab]
  | cons x xs =>
    refine ⟨32 :: x :: xs, ?_, ?_⟩
    · rw [trimRight_eq_self]
      · simp [show utf8 ": " = [58, 32] from rfl]
      · intro y hy
        rw [List.getLast?_append_of_ne_nil _ (List.cons_ne_nil x xs)] at hy
        exact hlast y hy
    · have hx : isSpaceOrTab x = false := hhead x rfl
      simp [hx, show isSpaceOrTab 32 = true from rfl]

theorem parseHeader_field (f : Field) :
    parseHeader (f.name ++ utf8 ": " ++ f.value) = some f.received := by
  obtain ⟨rest, htrim, hrest⟩ := trimRight_field f.name f.visible
  have hname : ∀ b ∈ f.name, (b ≠ 58) = true := fun b hb => by
    have htoken := f.token
    simp only [isFieldName, Bool.and_eq_true, List.all_eq_true] at htoken
    simpa using (token_visible (htoken.2 b hb)).2
  have htake : (f.name ++ 58 :: rest).takeWhile (· ≠ 58) = f.name := by
    rw [List.takeWhile_append_of_pos (by simpa using hname)]
    simp
  have hdrop : (f.name ++ 58 :: rest).dropWhile (· ≠ 58) = 58 :: rest := by
    rw [List.dropWhile_append_of_pos (by simpa using hname)]
    simp
  have htoken := f.token
  have hvisible := f.visible
  simp only [parseHeader, htrim, htake, hdrop, hrest, htoken, hvisible, Bool.not_true,
    Bool.false_eq_true, if_false, Field.received]
  split_ifs <;> rfl

theorem field_no_newline (f : Field) : (10 : UInt8) ∉ f.name ++ utf8 ": " ++ f.value := by
  have htoken := f.token
  have hvisible := f.visible
  simp only [isFieldName, isFieldValue, Bool.and_eq_true, List.all_eq_true, Bool.or_eq_true]
    at htoken hvisible
  simp only [List.mem_append, not_or]
  refine ⟨⟨fun h => ?_, by decide⟩, fun h => ?_⟩
  · have := htoken.2 10 h
    revert this
    decide
  · have := hvisible.1.1 10 h
    revert this
    decide

theorem readHeadersFrom_fields (eof : Bool) {fields : List Field} {left : ℕ}
    (hleft : fields.length ≤ left) {s t : Socket}
    (h : Reads s (fields.flatMap Field.line ++ crlf) t) :
    readHeadersFrom eof left s = ⟨true, fields.map Field.received, t⟩ := by
  induction fields generalizing left s with
  | nil =>
    have hline := @getline_line eof [] (by simp) (by decide) _ _ h
    rw [List.nil_append] at hline
    rw [readHeadersFrom.eq_def]
    dsimp only
    rw [hline]
    rfl
  | cons f fields ih =>
    rw [List.flatMap_cons, List.append_assoc, reads_append] at h
    obtain ⟨u, hf, hrest⟩ := h
    obtain ⟨left, rfl⟩ : ∃ n, left = n + 1 := ⟨left - 1, by simp at hleft; omega⟩
    have hshort : (f.name ++ utf8 ": " ++ f.value ++ crlf).length ≤ headerMaxLength := f.short
    have hline := getline_line eof (field_no_newline f)
      (by rw [← length_line]; exact hshort.trans (by decide)) hf
    have hlong : (f.name ++ utf8 ": " ++ f.value ++ crlf).length ≠ 2 := by
      simp [crlf, show utf8 ": " = [58, 32] from rfl]
      omega
    rw [readHeadersFrom.eq_def]
    dsimp only
    rw [hline]
    dsimp only
    rw [endWithCrlf_line, if_neg (by simp), if_neg hlong, if_neg (not_lt.2 hshort), take_line,
      parseHeader_field]
    dsimp only
    rw [ih (by simpa using hleft) hrest]
    rfl

theorem split_words {a b c : Bytes} (ha : ∀ x ∈ a, isFieldVchar x) (hb : ∀ x ∈ b, isFieldVchar x)
    (hc : ∀ x ∈ c, isFieldVchar x) (hane : a ≠ []) (hbne : b ≠ []) (hcne : c ≠ []) :
    split 32 (a ++ 32 :: (b ++ 32 :: c)) = [a, b, c] := by
  have hword {w : Bytes} (hw : ∀ x ∈ w, isFieldVchar x) (hne : w ≠ []) :
      w ≠ [] ∧ (32 : UInt8) ∉ w ∧ ∀ x ∈ w, isSpaceOrTab x = false :=
    ⟨hne, fun h => absurd (hw 32 h) (by decide), fun x hx => visible_not_blank (hw x hx)⟩
  have hsplit := @split_intercalate 32 [a, b, c] (by simp)
    (by simpa using ⟨hword ha hane, hword hb hbne, hword hc hcne⟩)
  simpa [List.intercalate_cons_cons] using hsplit

def versionText (http10 : Bool) : Bytes := if http10 then utf8 "HTTP/1.0" else utf8 "HTTP/1.1"

theorem versionText_visible (http10 : Bool) : (versionText http10).all isFieldVchar = true := by
  cases http10 <;> rfl

def getLine (target : Bytes) (http10 : Bool) : Bytes :=
  utf8 "GET" ++ 32 :: (target ++ 32 :: versionText http10)

theorem parseRequestLine_get {target : Bytes} (hvisible : ∀ x ∈ target, isFieldVchar x)
    (hne : target ≠ []) (hfragment : (35 : UInt8) ∉ target) (http10 : Bool) :
    parseRequestLine (getLine target http10 ++ crlf) = (true, {
      method := utf8 "GET"
      target := target
      version := versionText http10
      path := decodePath (divide 63 target).1 false
      params := parseQueryText (divide 63 target).2
      headers := [] }) := by
  have hversion := List.all_eq_true.1 (versionText_visible http10)
  have hnul : NulFree (getLine target http10 ++ crlf) := by
    have htarget : NulFree target := fun h => absurd (hvisible 0 h) (by decide)
    have htext : NulFree (versionText http10) := fun h => absurd (hversion 0 h) (by decide)
    simp only [getLine, nulFree_append, nulFree_cons, htarget, htext]
    decide
  have hends : (utf8 "GET").all isFieldVchar = true := rfl
  have hwords : split 32 (getLine target http10) = [utf8 "GET", target, versionText http10] :=
    split_words (List.all_eq_true.1 hends) hvisible hversion (List.cons_ne_nil _ _) hne
      (by cases http10 <;> exact List.cons_ne_nil _ _)
  have hcut : target.takeWhile (fun x => !decide (x = 35)) = target := by
    rw [List.takeWhile_eq_self_iff]
    intro x hx
    simpa using fun he : x = 35 => hfragment (he ▸ hx)
  have hmethod : utf8 "GET" ∈ methods :=
    List.contains_iff_mem.1 (rfl : methods.contains (utf8 "GET") = true)
  have hknown : ¬(versionText http10 ≠ utf8 "HTTP/1.1" ∧ versionText http10 ≠ utf8 "HTTP/1.0") := by
    cases http10 <;> simp [versionText]
  rw [parseRequestLine, cstr_eq_self hnul, endWithCrlf_line, take_line, hwords]
  simp only [List.getD_cons_zero, List.getD_cons_succ, if_neg hknown]
  simp [hcut, Request.empty, hmethod]

theorem processRequest_read {pf : Platform} {n : ℕ} {g_conn : Option Exec} {eof closeConnection : Bool}
    {s t u : Socket} {line : Bytes} {req : Request} {headers : Headers}
    (hline : getline eof s = (some line, u)) (hparsed : parseRequestLine line = (true, req))
    (hfields : readHeaders eof u = ⟨true, headers, t⟩) (hshort : req.target.length ≤ uriMaxLength)
    (haccept : hasHeader headers (utf8 "Accept") →
      pf.accepts (getHeaderValue pf.fields headers (utf8 "Accept")))
    {ranges : List ByteRange} (hranges : requestRanges pf.fields headers = some ranges)
    (hleft : ({ req with headers := headers } : Request).leftOut pf.fields = false) :
    processRequest pf n g_conn eof closeConnection s =
      .replied (routing pf n g_conn closeConnection { req with headers := headers } ranges) t
        (({ req with headers := headers } : Request).closes pf.fields) := by
  have hacceptable : ¬ ((hasHeader headers (utf8 "Accept") &&
      !pf.accepts (getHeaderValue pf.fields headers (utf8 "Accept"))) = true) := by
    simpa using haccept
  rw [processRequest, hline]
  dsimp only
  rw [hparsed]
  dsimp only
  rw [hfields]
  dsimp only
  rw [if_neg (by simp), if_neg (by simp), if_neg (not_lt.2 hshort), if_neg hacceptable, answerRequest]
  dsimp only
  rw [hranges]
  dsimp only
  rw [hleft, if_neg (by simp)]

/-- The root with a submitted class, the root alone, what the server takes for the root with
any query, or what it takes for another path. -/
inductive Target (k : Kept)
  | form (c : Bytes)
  | home
  | page (text : Bytes) (visible : ∀ x ∈ text, isFieldVchar x ∧ x ≠ 35)
      (atHome : decodePath (divide 63 text).1 false = utf8 "/")
  | other (text : Bytes) (visible : ∀ x ∈ text, isFieldVchar x ∧ x ≠ 35) (ne : text ≠ [])
      (notHome : decodePath (divide 63 text).1 false ≠ utf8 "/")

namespace Target
variable {k : Kept}

def text : Target k → Bytes
  | form c => utf8 "/?" ++ formQuery k c
  | home => utf8 "/"
  | page text _ _ => text
  | other text _ _ _ => text

def wanted : Target k → Option Bytes
  | form c => some c
  | home => some []
  | page text _ _ => some (MainA.classFilter (divide 63 text).2)
  | other _ _ _ _ => none

theorem text_ne : (t : Target k) → t.text ≠ []
  | form _ => by simp [text, show utf8 "/?" = [47, 63] from rfl]
  | home => List.cons_ne_nil _ _
  | page _ _ atHome => by
    rintro rfl
    cases atHome
  | other _ _ ne _ => ne

theorem unreserved_visible {b : UInt8} (h : FormEncoding.unreserved b) : isFieldVchar b ∧ b ≠ 35 := by
  simp only [FormEncoding.unreserved, Bool.or_eq_true, beq_iff_eq] at h
  rcases h with (((((h | rfl) | rfl) | rfl) | rfl) | rfl)
  · exact ⟨(alnum_visible h).1, (alnum_visible h).2.2⟩
  all_goals decide

theorem text_visible (t : Target k) : ∀ x ∈ t.text, isFieldVchar x ∧ x ≠ 35 := by
  cases t with
  | form c =>
    intro x hx
    have hfixed : (utf8 "/?" ++ utf8 "class=").all (fun x => isFieldVchar x && x != 35) = true := rfl
    rw [text, formQuery, ← List.append_assoc, List.mem_append] at hx
    rcases hx with hx | hx
    · simpa using List.all_eq_true.1 hfixed x hx
    · rcases k.mem_urlencode hx with hu | rfl | rfl
      · exact unreserved_visible hu
      · decide
      · decide
  | home =>
    have hroot : (utf8 "/").all (fun x => isFieldVchar x && x != 35) = true := rfl
    exact fun x hx => by simpa using List.all_eq_true.1 hroot x hx
  | page text visible _ => exact visible
  | other text visible _ _ => exact visible

theorem wanted_eq (t : Target k) :
    t.wanted = if decodePath (divide 63 t.text).1 false = utf8 "/" then
      some (MainA.classFilter (divide 63 t.text).2) else none := by
  cases t with
  | form c =>
    have hdivide : divide 63 (text (form c : Target k)) = (utf8 "/", formQuery k c) := rfl
    rw [hdivide, if_pos (show decodePath (utf8 "/") false = utf8 "/" from rfl), classFilter_formQuery]
    rfl
  | home => rfl
  | page text visible atHome => exact (if_pos atHome).symm
  | other text visible ne notHome => exact (if_neg notHome).symm

end Target

/-- A request with fields that the server reads and that ask for nothing but a page. -/
structure GetRequest (k : Kept) (pf : Platform) where
  target : Target k
  http10 : Bool
  fields : List Field
  short : target.text.length ≤ uriMaxLength
  few : fields.length ≤ headerMaxCount
  acceptable : hasHeader (fields.map Field.received) (utf8 "Accept") →
    pf.accepts (getHeaderValue pf.fields (fields.map Field.received) (utf8 "Accept"))
  noRange : hasHeader (fields.map Field.received) (utf8 "Range") = false
  noExpect : getHeaderValue pf.fields (fields.map Field.received) (utf8 "Expect") ≠ utf8 "100-continue"
  noLength : hasHeader (fields.map Field.received) (utf8 "Content-Length") = false
  noEncoding : hasHeader (fields.map Field.received) (utf8 "Transfer-Encoding") = false

namespace GetRequest
variable {k : Kept} {pf : Platform} (r : GetRequest k pf)

def bytes : Bytes := (getLine r.target.text r.http10 ++ crlf) ++ (r.fields.flatMap Field.line ++ crlf)

def received : Request where
  method := utf8 "GET"
  target := r.target.text
  version := versionText r.http10
  path := decodePath (divide 63 r.target.text).1 false
  params := parseQueryText (divide 63 r.target.text).2
  headers := r.fields.map Field.received

def closes : Bool := r.received.closes pf.fields

def reply (g_conn : Option Exec) (closeConnection : Bool) : Reply :=
  match r.target.wanted with
  | some classFilter => writeResponseCore pf.fields closeConnection r.received 200
      [(utf8 "Content-Type", contentType)] (Handler.handleIndex g_conn classFilter) true
  | none => writeError pf.fields closeConnection r.received 404

theorem routing_received (n : ℕ) (g_conn : Option Exec) (closeConnection : Bool) :
    routing pf n g_conn closeConnection r.received [] = r.reply g_conn closeConnection := by
  have hmethod : r.received.method = utf8 "GET" := rfl
  have hhandler : MainA.handler g_conn r.received =
      Handler.handleIndex g_conn (MainA.classFilter (divide 63 r.target.text).2) := rfl
  have hpath : r.received.path = decodePath (divide 63 r.target.text).1 false := rfl
  rw [routing, if_pos (.inl hmethod), hhandler, hpath, reply, Target.wanted_eq, respondWith_nil]
  by_cases hroot : decodePath (divide 63 r.target.text).1 false = utf8 "/"
  · simp only [if_pos hroot]
  · simp only [if_neg hroot]

theorem leftOut_received : r.received.leftOut pf.fields = false := by
  have hmethod : (["POST", "PUT", "PATCH", "DELETE"].map utf8).contains (utf8 "GET") = false := rfl
  simp only [Request.leftOut, received, r.noLength, r.noEncoding, hmethod]
  simpa using r.noExpect

theorem line_no_newline : (10 : UInt8) ∉ getLine r.target.text r.http10 := by
  have hget : (10 : UInt8) ∉ utf8 "GET" := by decide
  have hversion := List.all_eq_true.1 (versionText_visible r.http10)
  simp only [getLine, List.mem_append, List.mem_cons, not_or]
  exact ⟨hget, by decide, fun hm => visible_ne (r.target.text_visible 10 hm).1 rfl rfl, by decide,
    fun hm => visible_ne (hversion 10 hm) rfl rfl⟩

theorem line_length : (getLine r.target.text r.http10).length + 2 ≤ maxLineLength := by
  have hshort := r.short
  have hget : (utf8 "GET").length = 3 := rfl
  have hversion : (versionText r.http10).length = 8 := by cases r.http10 <;> rfl
  simp only [getLine, List.length_append, List.length_cons, uriMaxLength, maxLineLength] at hshort ⊢
  omega

theorem processRequest_bytes (n : ℕ) (g_conn : Option Exec) (eof closeConnection : Bool) {s t : Socket}
    (h : Reads s r.bytes t) :
    processRequest pf n g_conn eof closeConnection s =
      .replied (r.reply g_conn closeConnection) t r.closes := by
  obtain ⟨u, hline, hfields⟩ := reads_append.1 h
  have hvisible := r.target.text_visible
  have hparsed := parseRequestLine_get (fun x hx => (hvisible x hx).1) r.target.text_ne
    (fun hm => (hvisible 35 hm).2 rfl) r.http10
  have hranges : requestRanges pf.fields (r.fields.map Field.received) = some [] := by
    rw [requestRanges, r.noRange, if_neg (by simp)]
  have hread : readHeaders eof u = ⟨true, r.fields.map Field.received, t⟩ :=
    readHeadersFrom_fields eof r.few hfields
  rw [processRequest_read (getline_line eof r.line_no_newline r.line_length hline) hparsed hread
    r.short r.acceptable hranges r.leftOut_received]
  exact congrArg (Outcome.replied · t r.closes) (r.routing_received n g_conn closeConnection)

end GetRequest

end Httplib
end StudentGrades
