import StudentGrades.ContentPage
import StudentGrades.HttpConversation

/-!
# Browsing the pages of the first entry

A browser asks for the root, reads the options of the page that it gets and submits the
form once with each of them, all over one connection. What it reads back is one page for
each class, with the students of that class; the pages together show every student of the
first page once, with the same marks.
-/

namespace StudentGrades
open ByteText FormEncoding Sql Dao Httplib

open Template (ShownRow decodePage)

variable {k : Kept} {pf : Platform} {db : Tables} {col : Collation}

namespace Httplib

def Target.answer (g_conn : Option Exec) (t : Target k) : ℕ × Bytes :=
  match t.wanted with
  | some classFilter => (200, Handler.handleIndex g_conn classFilter)
  | none => (404, [])

def Message.target : Message k pf → Option (Target k)
  | .get r => some r.target
  | .garbage _ _ _ _ => none

theorem Message.answer_target (m : Message k pf) (g_conn : Option Exec) :
    m.answer g_conn = m.target.elim (400, []) (Target.answer g_conn) := by
  cases m with
  | get r => rfl
  | garbage line oneLine short refused => rfl

theorem answered_all {messages : List (Message k pf)} {count : ℕ} (hcount : messages.length ≤ count)
    (hopen : ∀ m ∈ messages.dropLast, m.closes = false) : answered count messages = messages := by
  induction messages generalizing count with
  | nil => cases count <;> rfl
  | cons m messages ih =>
    obtain ⟨count, rfl⟩ : ∃ n, count = n + 1 := ⟨count - 1, by simp at hcount; omega⟩
    rw [answered, untilClosed]
    cases messages with
    | nil => cases m.closes <;> cases count <;> rfl
    | cons m' messages =>
      rw [List.dropLast_cons_of_ne_nil (List.cons_ne_nil _ _), List.forall_mem_cons] at hopen
      rw [hopen.1, if_neg (by simp)]
      exact congrArg (m :: ·) (ih (by simpa using hcount) hopen.2)

end Httplib

def tour (home : Bytes) : List (Target k) := .home :: (decodePage home).options.map fun o => .form o.1

theorem options_home (session : Session col db) :
    (decodePage (Handler.handleIndex (some session.exec) [])).options.map Prod.fst =
      queryClasses (some session.exec) := by
  obtain ⟨ss, -, -, hpage⟩ := decodePage_handleIndex session []
  rw [hpage, List.map_map]
  exact List.map_id _

theorem options_selected (session : Session col db) {c : Bytes} (hc : c ∈ queryClasses (some session.exec)) :
    (decodePage (Handler.handleIndex (some session.exec) c)).options.filter Prod.snd = [(c, true)] := by
  obtain ⟨ss, -, -, hpage⟩ := decodePage_handleIndex session c
  have hone : (queryClasses (some session.exec)).filter (· = c) = [c] := by
    rw [List.filter_eq, List.count_eq_one_of_mem (queryClasses_nodup session) hc]
    rfl
  rw [hpage]
  dsimp only
  rw [List.filter_map, Function.comp_def, hone]
  simp

theorem rows_of_class (session : Session col db) {c : Bytes} (hc : c ∈ queryClasses (some session.exec))
    (hne : c ≠ []) :
    (decodePage (Handler.handleIndex (some session.exec) c)).rows.Perm
      ((studentsOfClass db c).map (pageRow db)) := by
  obtain ⟨ss, hperm, -, hpage⟩ := decodePage_handleIndex session c
  rw [hpage, ← shownStudents_of_named (nulFree_of_mem_getClasses session hc) hne]
  exact hperm.map _

theorem rows_of_classes (session : Session col db) (hnamed : ∀ s ∈ db.students, s.className.bytes ≠ []) :
    ((queryClasses (some session.exec)).flatMap fun c =>
        (decodePage (Handler.handleIndex (some session.exec) c)).rows).Perm
      (decodePage (Handler.handleIndex (some session.exec) [])).rows := by
  obtain ⟨ss, hperm, -, hpage⟩ := decodePage_handleIndex session []
  rw [shownStudents_nil] at hperm
  have hclass : ∀ c ∈ queryClasses (some session.exec), c ≠ [] := by
    intro c hc
    obtain ⟨s, hs, rfl⟩ := (mem_queryClasses session).1 hc
    exact hnamed s hs
  have hpages := List.Perm.flatMap_left (queryClasses (some session.exec)) fun c hc =>
    rows_of_class session hc (hclass c hc)
  have hparts := (@flatMap_filter_perm _ _ _ (fun s : Student => s.className.bytes) _
    (queryClasses_nodup session) db.students).trans
      (.of_eq (List.filter_eq_self.2 fun s hs => by simpa using (mem_queryClasses session).2 ⟨s, hs, rfl⟩))
  have hrows := hparts.map (pageRow db)
  rw [List.map_flatMap] at hrows
  rw [hpage]
  exact (hpages.trans hrows).trans (hperm.map (pageRow db)).symm

/-- Following every option of the first page, over one connection whose client side stays open,
and whatever the chunks: the browser reads one page for each class, with that option selected and with students of
that class only, and the pages together have the rows of the first page. -/
theorem browse (session : Session col db) (hnamed : ∀ s ∈ db.students, s.className.bytes ≠ [])
    (o : FieldOrder) (cut : ℕ) {deliveries : List (Delivery k pf)}
    (htargets : (deliveries.map fun d => d.message.target) =
      (tour (Handler.handleIndex (some session.exec) [])).map some)
    (hopen : ∀ d ∈ deliveries.dropLast, d.message.closes = false)
    (hcount : deliveries.length ≤ keepaliveMaxCount) :
    let home := Handler.handleIndex (some session.exec) []
    ∃ pages : List Bytes,
      readAll (sent o cut (serve pf (some session.exec) false (deliveries.flatMap Delivery.chunks))) =
        some ((200, home) :: pages.map fun page => (200, page)) ∧
      List.Forall₂ (fun (option : Bytes × Bool) page =>
        (decodePage page).options.filter Prod.snd = [(option.1, true)] ∧
          ∀ row ∈ (decodePage page).rows, row.className = option.1) (decodePage home).options pages ∧
      (pages.flatMap fun page => (decodePage page).rows).Perm (decodePage home).rows := by
  intro home
  have hoptions : (decodePage home).options.map Prod.fst = queryClasses (some session.exec) :=
    options_home session
  refine ⟨(decodePage home).options.map fun p => Handler.handleIndex (some session.exec) p.1, ?_, ?_, ?_⟩
  · have hanswers : (deliveries.map Delivery.message).map (Message.answer (some session.exec)) =
        ((tour home : List (Target k)).map some).map fun t =>
          t.elim (400, []) (Target.answer (some session.exec)) := by
      rw [← htargets, List.map_map, List.map_map]
      exact List.map_congr_left fun d _ => d.message.answer_target _
    have hall : answered keepaliveMaxCount (deliveries.map Delivery.message) =
        deliveries.map Delivery.message := by
      refine answered_all (by simpa using hcount) ?_
      rw [← List.map_dropLast, List.forall_mem_map]
      exact hopen
    rw [sent_deliveries, readAll_write o (replies_framed _ _ _), replies_answers, hall, hanswers]
    simp only [tour, List.map_cons, List.map_map]
    rfl
  · rw [List.forall₂_map_right_iff, List.forall₂_same]
    intro p hp
    have hc : p.1 ∈ queryClasses (some session.exec) := hoptions ▸ List.mem_map_of_mem hp
    obtain ⟨s, hs, hclass⟩ := (mem_queryClasses session).1 hc
    refine ⟨options_selected session hc, fun row hrow => ?_⟩
    have hmem := (rows_of_class session hc (hclass ▸ hnamed s hs)).mem_iff.1 hrow
    obtain ⟨t, ht, rfl⟩ := List.mem_map.1 hmem
    exact of_decide_eq_true (List.mem_filter.1 ht).2
  · have hrows := rows_of_classes session hnamed
    rw [← hoptions, List.flatMap_map] at hrows
    rw [List.flatMap_map]
    exact hrows

namespace Httplib

theorem no_header (key : Bytes) : hasHeader [] key = false := rfl

theorem no_value (o : FieldOrder) (key : Bytes) : getHeaderValue o [] key = [] := by
  rw [getHeaderValue, (o.perm []).eq_nil]
  rfl

def GetRequest.plain (t : Target k) (h : t.text.length ≤ uriMaxLength) : GetRequest k pf where
  target := t
  http10 := false
  fields := []
  short := h
  few := Nat.zero_le _
  acceptable := fun hthere => absurd hthere (Bool.false_ne_true)
  noRange := no_header _
  noExpect := by
    rw [List.map_nil, no_value]
    decide
  noLength := no_header _
  noEncoding := no_header _

theorem plain_closes (t : Target k) (h : t.text.length ≤ uriMaxLength) :
    (GetRequest.plain t h : GetRequest k pf).closes = false := by
  have hvalue := no_value pf.fields (utf8 "Connection")
  have hclose : (([] : Bytes) == utf8 "close") = false := rfl
  have hversion : (utf8 "HTTP/1.1" == utf8 "HTTP/1.0") = false := rfl
  simp [GetRequest.closes, Request.closes, GetRequest.received, GetRequest.plain, versionText, hvalue, hclose,
    hversion]

theorem plain_fits (t : Target k) (h : t.text.length ≤ uriMaxLength) (hshort : t.text.length ≤ 4000) :
    (GetRequest.plain t h : GetRequest k pf).bytes.length ≤ readBuffSize := by
  have hfixed : (utf8 "GET").length = 3 ∧ (utf8 "HTTP/1.1").length = 8 := ⟨rfl, rfl⟩
  simp only [GetRequest.bytes, GetRequest.plain, getLine, versionText, crlf, readBuffSize, List.length_append,
    List.length_cons, List.length_nil, List.flatMap_nil, Bool.false_eq_true, if_false]
  omega

theorem plain_ne (r : GetRequest k pf) : r.bytes ≠ [] := by
  simp [GetRequest.bytes, crlf]

def GetRequest.delivery (r : GetRequest k pf) (hfits : r.bytes.length ≤ readBuffSize) : Delivery k pf :=
  ⟨.get r, [], [⟨r.bytes, plain_ne r, hfits⟩],
    ⟨[], _, rfl, by simp [ChunkedStream.items, Message.bytes], List.length_pos_iff.2 (plain_ne r)⟩⟩

def visits (targets : List (Target k)) (h : ∀ t ∈ targets, t.text.length ≤ 4000) : List (Delivery k pf) :=
  targets.attach.map fun t =>
    have huri := (h t.1 t.2).trans (by decide : 4000 ≤ uriMaxLength)
    (GetRequest.plain t.1 huri).delivery (plain_fits t.1 huri (h t.1 t.2))

theorem visits_targets {targets : List (Target k)} (h : ∀ t ∈ targets, t.text.length ≤ 4000) :
    ((visits targets h : List (Delivery k pf)).map fun d => d.message.target) =
      targets.map some := by
  rw [visits, List.map_map]
  exact @List.attach_map_val _ _ targets some

theorem visits_open {targets : List (Target k)} (h : ∀ t ∈ targets, t.text.length ≤ 4000) :
    ∀ d ∈ (visits targets h : List (Delivery k pf)), d.message.closes = false := by
  rw [visits, List.forall_mem_map]
  exact fun t _ => plain_closes t.1 _

end Httplib

theorem tour_short (session : Session col db) (hshort : ∀ s ∈ db.students, s.className.bytes.length ≤ 1300) :
    ∀ t ∈ (tour (Handler.handleIndex (some session.exec) []) : List (Target k)), t.text.length ≤ 4000 := by
  have hfixed : (utf8 "/?").length = 2 ∧ (utf8 "class=").length = 6 := ⟨rfl, rfl⟩
  refine List.forall_mem_cons.2 ⟨by simp [Target.text, show (utf8 "/").length = 1 from rfl], ?_⟩
  rw [List.forall_mem_map]
  intro p hp
  obtain ⟨s, hs, hclass⟩ := (mem_queryClasses session).1 (options_home session ▸ List.mem_map_of_mem hp)
  have hc := hshort s hs
  have hlen := k.urlencode_length_le p.1
  rw [hclass] at hc
  simp only [Target.text, formQuery, List.length_append]
  omega

theorem tour_length (session : Session col db) :
    (tour (Handler.handleIndex (some session.exec) []) : List (Target k)).length =
      (classNames db).length + 1 := by
  rw [tour, List.length_cons, List.length_map, ← (queryClasses_rows session).1.length_eq,
    ← options_home session, List.length_map]

theorem browse_sample :
    let session := Session.sorting .bytewise sampleTables
    let home := Handler.handleIndex (some session.exec) []
    ∃ pages : List Bytes,
      readAll (sent .asStored 0 (serve .plain (some session.exec) false
          ((visits (tour home) (tour_short session (by decide)) :
            List (Delivery .form .plain)).flatMap Delivery.chunks))) =
        some ((200, home) :: pages.map fun page => (200, page)) ∧
      List.Forall₂ (fun (option : Bytes × Bool) page =>
        (decodePage page).options.filter Prod.snd = [(option.1, true)] ∧
          ∀ row ∈ (decodePage page).rows, row.className = option.1) (decodePage home).options pages ∧
      (pages.flatMap fun page => (decodePage page).rows).Perm (decodePage home).rows := by
  intro session home
  refine browse session (by decide) .asStored 0 (visits_targets _) ?_ ?_
  · exact fun d hd => visits_open _ d (List.mem_of_mem_dropLast hd)
  · rw [visits, List.length_map, List.length_attach, tour_length]
    decide

end StudentGrades
