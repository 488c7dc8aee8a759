import StudentGrades.HttpServer

/-!
# Responses as a client reads them

A client reads lines up to an empty one and then as many bytes as the one length
field announces. In whatever order the table hands out its fields, the responses of
the server are read back one after the other, and nothing is left over.
-/

namespace StudentGrades
open ByteText

namespace Httplib

def readHead : List Bytes → Bytes → Bytes → Option (List Bytes × Bytes)
  | lines, line, 13 :: 10 :: rest =>
    if line = [] then some (lines, rest) else readHead (lines ++ [line]) [] rest
  | lines, line, b :: rest => readHead lines (line ++ [b]) rest
  | _, _, [] => none

def fieldName (line : Bytes) : Bytes := line.takeWhile (· ≠ 58)

def fieldValue (line : Bytes) : Bytes := trim ((line.dropWhile (· ≠ 58)).drop 1)

def announced (fields : List Bytes) : Option ℕ :=
  match fields.filter fun line => caseEqual (fieldName line) (utf8 "Content-Length") with
  | [line] => some (digitsValue (fieldValue line))
  | _ => none

def readReply (text : Bytes) : Option ((ℕ × Bytes) × Bytes) :=
  match readHead [] [] text with
  | some (statusLine :: fields, rest) =>
    match announced fields with
    | some length =>
      if rest.length < length then none
      else some ((digitsValue ((split 32 statusLine).getD 1 []), rest.take length), rest.drop length)
    | none => none
  | _ => none

def readReplies : ℕ → Bytes → Option (List (ℕ × Bytes))
  | _, [] => some []
  | 0, _ :: _ => none
  | fuel+1, b :: text =>
    match readReply (b :: text) with
    | some (reply, rest) => (readReplies fuel rest).map (reply :: ·)
    | none => none

/-- The responses up to the end of the connection, if nothing is left over. -/
def readAll (text : Bytes) : Option (List (ℕ × Bytes)) := readReplies text.length text

theorem readHead_line (lines : List Bytes) {line : Bytes} (hline : (13 : UInt8) ∉ line) (acc rest : Bytes) :
    readHead lines acc (line ++ crlf ++ rest) =
      if acc ++ line = [] then some (lines, rest) else readHead (lines ++ [acc ++ line]) [] rest := by
  induction line generalizing acc with
  | nil => simp [crlf, readHead]
  | cons b line ih =>
    have hb : b ≠ 13 := fun hb => hline (by simp [hb])
    have hnext := ih (fun hm => hline (by simp [hm])) (acc ++ [b])
    rw [List.cons_append, List.cons_append, readHead, hnext, List.append_assoc]
    · rfl
    · intro tail hb13
      exact absurd hb13 hb

theorem readHead_lines (lines : List Bytes) (hlines : ∀ line ∈ lines, (13 : UInt8) ∉ line ∧ line ≠ [])
    (seen : List Bytes) (rest : Bytes) :
    readHead seen [] (lines.flatMap (· ++ crlf) ++ crlf ++ rest) = some (seen ++ lines, rest) := by
  induction lines generalizing seen with
  | nil => simp [crlf, readHead]
  | cons line lines ih =>
    have hline := hlines line (by simp)
    have hnext := ih (fun l hl => hlines l (by simp [hl])) (seen ++ [line])
    simp only [List.flatMap_cons, List.append_assoc] at hnext ⊢
    rw [← List.append_assoc line crlf, readHead_line seen hline.1 [], List.nil_append, if_neg hline.2, hnext]
    rfl

def Clean (h : Bytes × Bytes) : Prop := ((13 : UInt8) ∉ h.1 ∧ (58 : UInt8) ∉ h.1) ∧ (13 : UInt8) ∉ h.2

instance (h : Bytes × Bytes) : Decidable (Clean h) := inferInstanceAs (Decidable (_ ∧ _))

def lengths (headers : Headers) : Headers :=
  headers.filter fun h => caseEqual h.1 (utf8 "Content-Length")

structure Reply.Framed (r : Reply) : Prop where
  clean : ∀ h ∈ r.headers, Clean h
  length : lengths r.headers = [(utf8 "Content-Length", natText r.body.length)]
  sent : r.omitsBody → r.body = []

def headerLine (h : Bytes × Bytes) : Bytes := h.1 ++ utf8 ": " ++ h.2

def statusLine (status : ℕ) : Bytes := utf8 "HTTP/1.1 " ++ natText status ++ utf8 " " ++ statusMessage status

theorem divide_headerLine {h : Bytes × Bytes} (hname : (58 : UInt8) ∉ h.1) :
    divide 58 (headerLine h) = (h.1, 32 :: h.2) := by
  rw [headerLine, List.append_assoc]
  exact divide_append hname (32 :: h.2)

theorem fieldName_headerLine {h : Bytes × Bytes} (hname : (58 : UInt8) ∉ h.1) :
    fieldName (headerLine h) = h.1 :=
  congrArg Prod.fst (divide_headerLine hname)

theorem fieldValue_headerLine {h : Bytes × Bytes} (hname : (58 : UInt8) ∉ h.1) :
    fieldValue (headerLine h) = trim (32 :: h.2) :=
  congrArg (fun parts : Bytes × Bytes => trim parts.2) (divide_headerLine hname)

theorem digits_ne {n : ℕ} {b x : UInt8} (hb : b ∈ natText n) (hx : isDigit x = false) : b ≠ x :=
  ne_of_digit (isDigit_of_mem_natText hb) hx

theorem trim_natText (n : ℕ) : trim (natText n) = natText n :=
  trim_eq_self fun _ hx => not_blank_of_digit (isDigit_of_mem_natText hx)

theorem Reply.Framed.announced {r : Reply} (h : r.Framed) (o : FieldOrder) :
    announced ((o.order r.headers).map headerLine) = some r.body.length := by
  have hperm := o.perm r.headers
  have hfilter : (o.order r.headers).filter (fun h => caseEqual h.1 (utf8 "Content-Length")) =
      [(utf8 "Content-Length", natText r.body.length)] :=
    List.perm_singleton.1 (h.length ▸ hperm.filter _)
  have hlines : ((o.order r.headers).map headerLine).filter
      (fun line => caseEqual (fieldName line) (utf8 "Content-Length")) =
        [headerLine (utf8 "Content-Length", natText r.body.length)] := by
    rw [List.filter_map, List.filter_congr (q := fun h => caseEqual h.1 (utf8 "Content-Length"))
      fun x hx => ?_, hfilter]
    · rfl
    · rw [Function.comp_apply, fieldName_headerLine (h.clean x (hperm.mem_iff.1 hx)).1.2]
  have hvalue : fieldValue (headerLine (utf8 "Content-Length", natText r.body.length)) =
      natText r.body.length := by
    have hblank : trim (32 :: natText r.body.length) = trim (natText r.body.length) := by
      simp [trim, show isSpaceOrTab 32 = true from rfl]
    rw [fieldValue_headerLine (show (58 : UInt8) ∉ utf8 "Content-Length" by decide), hblank, trim_natText]
  rw [Httplib.announced, hlines]
  simp only [hvalue, digitsValue_natText]

theorem statusMessage_clean (status : ℕ) : (13 : UInt8) ∉ statusMessage status := by
  unfold statusMessage
  split <;> decide

theorem statusLine_clean (status : ℕ) : (13 : UInt8) ∉ statusLine status := by
  have hfixed : (13 : UInt8) ∉ utf8 "HTTP/1.1 " ∧ (13 : UInt8) ∉ utf8 " " := by decide
  simp only [statusLine, List.mem_append, not_or]
  exact ⟨⟨⟨hfixed.1, fun hm => digits_ne hm rfl rfl⟩, hfixed.2⟩, statusMessage_clean status⟩

theorem split_statusLine (status : ℕ) :
    digitsValue ((split 32 (statusLine status)).getD 1 []) = status := by
  have hversion : (32 : UInt8) ∉ utf8 "HTTP/1.1" := by decide
  have hstatus : (32 : UInt8) ∉ natText status := fun hm => digits_ne hm rfl rfl
  have hwords : statusLine status =
      utf8 "HTTP/1.1" ++ 32 :: (natText status ++ 32 :: statusMessage status) := by
    simp only [statusLine, List.append_assoc]
    rfl
  have hfirst : trim (utf8 "HTTP/1.1") = utf8 "HTTP/1.1" := rfl
  rw [split, hwords, List.splitOn_append_cons_self_of_not_mem hversion,
    List.splitOn_append_cons_self_of_not_mem hstatus]
  simp [hfirst, trim_natText, natText_ne_nil, digitsValue_natText, show utf8 "HTTP/1.1" ≠ [] by decide]

theorem Reply.write_eq (o : FieldOrder) (r : Reply) :
    r.write o = (statusLine r.status :: (o.order r.headers).map headerLine).flatMap (· ++ crlf) ++ crlf ++
      if r.omitsBody then [] else r.body := by
  have hfields : fieldLine = fun h => headerLine h ++ crlf := rfl
  simp only [Reply.write, statusLine, List.flatMap_cons, List.flatMap_map, hfields, List.append_assoc]

theorem readReply_write {r : Reply} (h : r.Framed) (o : FieldOrder) (rest : Bytes) :
    readReply (r.write o ++ rest) = some ((r.status, r.body), rest) := by
  have hbody : (if r.omitsBody then [] else r.body) = r.body := by
    split_ifs with homits
    · exact (h.sent homits).symm
    · rfl
  have hlines : ∀ line ∈ statusLine r.status :: (o.order r.headers).map headerLine,
      (13 : UInt8) ∉ line ∧ line ≠ [] := by
    intro line hline
    rcases List.mem_cons.1 hline with rfl | hline
    · exact ⟨statusLine_clean _, by simp [statusLine, natText_ne_nil]⟩
    · obtain ⟨x, hx, rfl⟩ := List.mem_map.1 hline
      have hclean := h.clean x ((o.perm r.headers).mem_iff.1 hx)
      have hfixed : (13 : UInt8) ∉ utf8 ": " := by decide
      refine ⟨?_, by simp [headerLine, show utf8 ": " ≠ [] by decide]⟩
      simp only [headerLine, List.mem_append, not_or]
      exact ⟨⟨hclean.1.1, hfixed⟩, hclean.2⟩
  have hhead := readHead_lines _ hlines [] (r.body ++ rest)
  rw [Reply.write_eq, hbody, List.append_assoc, readReply, hhead]
  dsimp only [List.nil_append]
  rw [h.announced o]
  dsimp only
  rw [split_statusLine, if_neg (by simp), List.take_left, List.drop_left]

theorem Reply.write_ne (o : FieldOrder) (r : Reply) : r.write o ≠ [] := by
  simp [Reply.write, crlf]

theorem readAll_write (o : FieldOrder) {replies : List Reply} (h : ∀ r ∈ replies, r.Framed) :
    readAll (replies.flatMap (Reply.write o)) = some (replies.map fun r => (r.status, r.body)) := by
  suffices hfuel : ∀ fuel, (replies.flatMap (Reply.write o)).length ≤ fuel →
      readReplies fuel (replies.flatMap (Reply.write o)) = some (replies.map fun r => (r.status, r.body)) from
    hfuel _ le_rfl
  intro fuel hfuel
  induction replies generalizing fuel with
  | nil => simp [readReplies]
  | cons r replies ih =>
    obtain ⟨b, text, htext⟩ := List.exists_cons_of_ne_nil (Reply.write_ne o r)
    have hread := readReply_write (h r (by simp)) o (replies.flatMap (Reply.write o))
    rw [List.flatMap_cons, htext] at hfuel ⊢
    rw [htext] at hread
    simp only [List.cons_append, List.length_cons, List.length_append] at hfuel hread ⊢
    obtain ⟨fuel, rfl⟩ : ∃ n, fuel = n + 1 := ⟨fuel - 1, by omega⟩
    rw [readReplies, hread]
    dsimp only
    rw [ih (fun x hx => h x (by simp [hx])) fuel (by omega)]
    rfl

theorem clean_setUnlessThere {headers : Headers} {key val : Bytes} (h : ∀ x ∈ headers, Clean x)
    (hset : Clean (key, val)) : ∀ x ∈ setUnlessThere headers key val, Clean x := by
  rw [setUnlessThere]
  split_ifs with hthere
  · exact h
  · intro x hx
    rcases List.mem_append.1 hx with hx | hx
    · exact h x hx
    · exact List.mem_singleton.1 hx ▸ hset

theorem lengths_setUnlessThere (headers : Headers) {key : Bytes} (val : Bytes)
    (hkey : caseEqual key (utf8 "Content-Length") = false) :
    lengths (setUnlessThere headers key val) = lengths headers := by
  rw [setUnlessThere]
  split_ifs with hthere
  · rfl
  · simp [lengths, hkey]

theorem lengths_setLength {headers : Headers} (h : lengths headers = []) (val : Bytes) :
    lengths (setUnlessThere headers (utf8 "Content-Length") val) = [(utf8 "Content-Length", val)] := by
  have hthere : hasHeader headers (utf8 "Content-Length") = false := by
    simpa [hasHeader, lengths, List.filter_eq_nil_iff] using h
  have hkey : caseEqual (utf8 "Content-Length") (utf8 "Content-Length") = true := by decide
  have hnone : headers.filter (fun h => caseEqual h.1 (utf8 "Content-Length")) = [] := h
  rw [setUnlessThere, hthere, if_neg (by simp), lengths, List.filter_append, hnone]
  simp [hkey]

theorem connectionField {p : Prop} [Decidable p] :
    Clean (if p then (utf8 "Connection", utf8 "close") else (utf8 "Keep-Alive", utf8 "timeout=5, max=100")) ∧
      caseEqual (if p then (utf8 "Connection", utf8 "close")
        else (utf8 "Keep-Alive", utf8 "timeout=5, max=100")).1 (utf8 "Content-Length") = false := by
  split_ifs <;> decide

theorem clean_length (n : ℕ) : Clean (utf8 "Content-Length", natText n) := by
  have hname : (13 : UInt8) ∉ utf8 "Content-Length" ∧ (58 : UInt8) ∉ utf8 "Content-Length" := by decide
  exact ⟨hname, fun hm => digits_ne hm rfl rfl⟩

theorem framed_of_fields (status : ℕ) {method : Bytes} {headers : Headers} {body : Bytes}
    (hclean : ∀ h ∈ headers, Clean h)
    (hlengths : lengths headers = [(utf8 "Content-Length", natText body.length)])
    (hsent : method = utf8 "HEAD" → body = []) :
    Reply.Framed ⟨status, if method = utf8 "HEAD" then
        setUnlessThere headers (utf8 "Accept-Ranges") (utf8 "bytes")
      else headers, body, method = utf8 "HEAD"⟩ where
  clean := by
    split_ifs
    · exact clean_setUnlessThere hclean (by decide)
    · exact hclean
  length := by
    rw [← hlengths]
    split_ifs
    · exact lengths_setUnlessThere _ _ (by decide)
    · rfl
  sent := fun homits => hsent (by simpa using homits)

theorem writeResponseCore_framed (o : FieldOrder) (closeConnection : Bool) {req : Request} (status : ℕ) {headers : Headers}
    {body : Bytes} {withContent : Bool} (hclean : ∀ h ∈ headers, Clean h) (hlengths : lengths headers = [])
    (hcontent : body ≠ [] → withContent) (hsent : req.method = utf8 "HEAD" → body = []) :
    (writeResponseCore o closeConnection req status headers body withContent).Framed := by
  obtain ⟨hfield, hother⟩ := connectionField
    (p := closeConnection ∨ getHeaderValue o req.headers (utf8 "Connection") = utf8 "close")
  have htype : Clean (utf8 "Content-Type", utf8 "text/plain") := by decide
  have hzero : Clean (utf8 "Content-Length", utf8 "0") := by decide
  by_cases hbody : body = []
  · have hplain : ¬(withContent = true ∧ body ≠ []) := fun h => h.2 hbody
    rw [writeResponseCore, if_neg hplain, if_neg (not_not.2 hbody)]
    have hfields := List.forall_mem_append.2 ⟨hclean, List.forall_mem_singleton.2 hfield⟩
    refine framed_of_fields status (clean_setUnlessThere hfields hzero) ?_ hsent
    rw [lengths_setLength, hbody]
    · rfl
    · simpa [lengths, hother] using hlengths
  · have hboth : withContent = true ∧ body ≠ [] := ⟨hcontent hbody, hbody⟩
    rw [writeResponseCore, if_pos hboth, if_pos hbody]
    have hfields := List.forall_mem_append.2 ⟨List.forall_mem_append.2
      ⟨hclean, List.forall_mem_singleton.2 (clean_length body.length)⟩, List.forall_mem_singleton.2 hfield⟩
    refine framed_of_fields status (clean_setUnlessThere hfields htype) ?_ hsent
    have hkey : caseEqual (utf8 "Content-Length") (utf8 "Content-Length") = true := by decide
    have hnone : headers.filter (fun h => caseEqual h.1 (utf8 "Content-Length")) = [] := hlengths
    rw [lengths_setUnlessThere _ _ (by decide), lengths, List.filter_append, List.filter_append, hnone]
    simp [hkey, hother]

theorem writeError_framed (o : FieldOrder) (closeConnection : Bool) (req : Request) (status : ℕ) :
    (writeError o closeConnection req status).Framed :=
  writeResponseCore_framed o closeConnection status (by simp) rfl (by simp) fun _ => rfl

def contentHeaders : Headers := [(utf8 "Content-Type", contentType)]

def PartsOf (page body : Bytes) : Prop :=
  ∃ boundary served, served ≠ [] ∧ (∀ r ∈ served, within page.length r) ∧
    body = (applyRanges boundary contentHeaders page served).2

def Reply.Proper (g_conn : Option Exec) (r : Reply) : Prop :=
  (r.status = 200 ∧ ∃ classFilter, r.body = Handler.handleIndex g_conn classFilter) ∨
    (r.status = 206 ∧ ∃ classFilter, PartsOf (Handler.handleIndex g_conn classFilter) r.body) ∨
    ((r.status = 400 ∨ r.status = 404 ∨ r.status = 414 ∨ r.status = 416) ∧ r.body = [])

structure Reply.Sound (g_conn : Option Exec) (r : Reply) : Prop where
  proper : r.Proper g_conn
  framed : r.omitsBody = false → r.Framed

theorem contentRangeField_clean (r : ByteRange) (n : ℕ) : (13 : UInt8) ∉ contentRangeField r n := by
  have hfixed : (13 : UInt8) ∉ utf8 "bytes " ∧ (13 : UInt8) ∉ utf8 "-" ∧ (13 : UInt8) ∉ utf8 "/" := by decide
  simp only [contentRangeField, List.mem_append, not_or]
  exact ⟨⟨⟨⟨⟨hfixed.1, fun hm => digits_ne hm rfl rfl⟩, hfixed.2.1⟩, fun hm => digits_ne hm rfl rfl⟩,
    hfixed.2.2⟩, fun hm => digits_ne hm rfl rfl⟩

theorem requestRanges_given {o : FieldOrder} {headers : Headers} {ranges : List ByteRange}
    (h : requestRanges o headers = some ranges) : ∀ r ∈ ranges, ¬(r.1 = -1 ∧ r.2 = -1) := by
  rw [requestRanges] at h
  split_ifs at h
  · exact (parseRangeHeader_given h).2
  · cases h
    simp

theorem processRequest_silent (pf : Platform) (n : ℕ) (g_conn : Option Exec) (eof closeConnection : Bool) :
    processRequest pf n g_conn eof closeConnection ⟨[], []⟩ = .closed := by
  simp [processRequest, getline, getlineFrom, maxLineLength, ChunkedStream.Stream.next]

end Httplib
end StudentGrades
