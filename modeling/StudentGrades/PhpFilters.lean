import StudentGrades.PhpCells
import StudentGrades.QueryParams

/-!
# The filters of the program and of the page it replaces

Both versions send statements of one meaning, so they show the students that pass
their filters. The page trims its parameter first; the difference shows when the
text or the trimmed text is a class of the content, or when nothing is left.
-/

namespace StudentGrades
open ByteText Sql Dao

namespace MainA
open Httplib

/-- The filter of the first entry from the decoded parameter, `none` where it is absent. -/
def decodedFilter (param : Option Bytes) : Bytes := param.getD []

theorem classFilter_eq_decodedFilter (query : Bytes) :
    classFilter query = decodedFilter ((parseQueryText query).lookup (utf8 "class")) := by
  simp only [classFilter, getParamValue, decodedFilter]
  split_ifs with hparam
  · rfl
  · have hnone : (parseQueryText query).lookup (utf8 "class") = none := by
      rw [List.lookup_eq_none_iff]
      intro p hp
      have hne : p.1 ≠ utf8 "class" := by
        simp only [hasParam, List.any_eq_true, beq_iff_eq, not_exists, not_and] at hparam
        exact hparam p hp
      exact bne_iff_ne.2 hne.symm
    rw [hnone, Option.getD_none]

end MainA

theorem parse_php_pivotSql (f : Bytes) :
    parse (IndexPhp.pivotSql (utf8 "$1") f) = some (pivotStatement !f.isEmpty) := by
  cases f with
  | nil =>
    exact (by decide +kernel :
      parse (IndexPhp.pivotSql (utf8 "$1") []) = some (pivotStatement false))
  | cons b bs =>
    exact (by decide +kernel :
      parse (IndexPhp.pivotSql (utf8 "$1") [0]) = some (pivotStatement true))

theorem php_params (f : Bytes) : (IndexPhp.pivotQuery f).params = (pivotQuery f).params := by
  cases f <;> rfl

section Page
variable {db : Tables} {col : Collation}

theorem fetchAll_ofRows {α : Type} {names : List Bytes} {l : List α} {g : α → List Value} :
    IndexPhp.fetchAll names (some (.ofRows (l.map g))) =
      some ((List.range l.length).map (IndexPhp.assocRow names (some (.ofRows (l.map g))))) := by
  have hstatus : PQresultStatus (some (.ofRows (l.map g))) = .PGRES_TUPLES_OK := rfl
  have hcount : PQntuples (some (.ofRows (l.map g))) = l.length := by
    simp [PQntuples, PGresult.ofRows]
  simp [IndexPhp.fetchAll, hstatus, hcount]

theorem map_column_ofRows {α β : Type} {l : List α} {g : α → List Value} {e : α → β}
    (names : List Bytes) (f : Option Bytes → β) (c : ℕ) (hd : names.Nodup) (hc : c < names.length)
    (h : ∀ a ∈ l, f (((g a)[c]?).bind Value.output) = e a) :
    ((List.range l.length).map (IndexPhp.assocRow names (some (.ofRows (l.map g))))).map
      (fun row => f (row.column (names.getD c []))) = l.map e := by
  rw [List.map_map]
  refine List.ext_getElem (by simp) fun r h1 h2 => ?_
  have hr : r < (l.map g).length := by simpa using h2
  rw [List.getElem_map, List.getElem_map, List.getElem_range, Function.comp_apply,
    column_assocRow hd _ _ hc, cell_ofRows hr, List.getElem_map]
  exact h _ (List.getElem_mem _)

theorem pivot_answer_php (session : Session col db) (f : Bytes) :
    ∃ ss : List Student, ss.Perm (shownStudents db f) ∧
      session.exec (IndexPhp.pivotQuery f) = some (.ofRows (ss.map (pivotCells db))) := by
  obtain ⟨rows, ha, he⟩ := session.answers (IndexPhp.pivotQuery f) _ (parse_php_pivotSql f)
  rw [php_params] at ha
  obtain ⟨ss, hp, -, rfl⟩ := pivot_answer ha
  exact ⟨ss, hp, he⟩

end Page

namespace IndexPhp

def shownIds (rows : List AssocRow) : List ℤ :=
  rows.map fun row => atoi ((row.column (utf8 "id")).getD [])

end IndexPhp

section Filters
variable {db : Tables} {col : Collation}

theorem page_answer (session : Session col db) (param : Option Bytes) :
    ∃ page, IndexPhp.page session.exec param = some page ∧
      (∃ cs : List Bytes, cs.Perm (classNames db) ∧ cs.Pairwise (fun a b => col.le a b) ∧
        page.options = cs.map fun c => (c, decide (c = IndexPhp.classFilter param))) ∧
      (IndexPhp.shownIds page.rows).Perm
        (idsOf (shownStudents db (IndexPhp.classFilter param))) := by
  obtain ⟨cs, hcs, hsorted, hclasses⟩ := classes_answer session
  obtain ⟨ss, hss, hpivot⟩ := pivot_answer_php session (IndexPhp.classFilter param)
  have hclasses' : session.exec IndexPhp.classesQuery =
      some (.ofRows (cs.map fun c => [.text c])) := hclasses
  have hpage : IndexPhp.page session.exec param = some
      ⟨((List.range cs.length).map (IndexPhp.assocRow [utf8 "class"]
          (some (.ofRows (cs.map fun c => [.text c]))))).map fun c =>
          ((c.column (utf8 "class")).getD [],
            decide ((c.column (utf8 "class")).getD [] = IndexPhp.classFilter param)),
        (List.range ss.length).map (IndexPhp.assocRow IndexPhp.columnNames
          (some (.ofRows (ss.map (pivotCells db)))))⟩ := by
    simp only [IndexPhp.page, hclasses', hpivot, fetchAll_ofRows]
    rfl
  refine ⟨_, hpage, ⟨cs, hcs, hsorted, ?_⟩, ?_⟩
  · exact map_column_ofRows [utf8 "class"]
      (fun text => (text.getD [], decide (text.getD [] = IndexPhp.classFilter param))) 0
      (by decide) (by decide) fun c _ => rfl
  · have hids : IndexPhp.shownIds ((List.range ss.length).map (IndexPhp.assocRow
        IndexPhp.columnNames (some (.ofRows (ss.map (pivotCells db)))))) = ss.map Student.id :=
      map_column_ofRows IndexPhp.columnNames (fun text => atoi (text.getD [])) 0 (by decide)
        (by decide) fun s _ => atoi_intText s.id
    rw [hids]
    exact hss.map _

theorem queryClasses_unique (session : Session col db) {cs : List Bytes}
    (hcs : cs.Perm (classNames db)) (hsorted : cs.Pairwise fun a b => col.le a b) :
    queryClasses (some session.exec) = cs := by
  obtain ⟨hp, ho⟩ := queryClasses_rows session
  exact (hp.trans hcs.symm).eq_of_pairwise (fun a b _ _ => col.antisymm a b) ho hsorted

/-- Trimming leaves the filter, or what it changes is not to be seen: neither text
is a class, and the empty rest filters nothing out of no students. -/
def TrimUnseen (db : Tables) (f : Bytes) : Prop :=
  IndexPhp.trim f = f ∨
    (∀ s ∈ db.students, s.className.bytes ≠ f ∧ s.className.bytes ≠ IndexPhp.trim f) ∧
      (IndexPhp.trim f = [] → db.students = [])

theorem trim_subset (f : Bytes) : IndexPhp.trim f ⊆ f := by
  intro b hb
  rw [IndexPhp.trim, List.mem_reverse] at hb
  have hinner := List.mem_reverse.1 ((List.dropWhile_sublist _).subset hb)
  exact (List.dropWhile_sublist _).subset hinner

theorem mem_shownStudents {f : Bytes} (hf : NulFree f) {s : Student} :
    s ∈ shownStudents db f ↔ s ∈ db.students ∧ (f = [] ∨ s.className.bytes = f) := by
  cases f <;> simp [shownStudents, passes, cstr_eq_self hf]

theorem shownStudents_eq_nil {f : Bytes} (hf : NulFree f) (hnil : f = [] → db.students = [])
    (hclass : ∀ s ∈ db.students, s.className.bytes ≠ f) : shownStudents db f = [] := by
  rw [List.eq_nil_iff_forall_not_mem]
  intro s hs
  obtain ⟨hmem, hpass⟩ := (mem_shownStudents hf).1 hs
  rcases hpass with hempty | hc
  · rw [hnil hempty] at hmem
    simp at hmem
  · exact hclass s hmem hc

theorem selected_iff {cs : List Bytes} (hcs : cs.Perm (classNames db)) {f g : Bytes} :
    (cs.map fun c => (c, decide (c = f))) = (cs.map fun c => (c, decide (c = g))) ↔
      ∀ s ∈ db.students, s.className.bytes = f ↔ s.className.bytes = g := by
  rw [List.map_inj_left]
  constructor
  · intro h s hs
    have hc : s.className.bytes ∈ cs := hcs.mem_iff.2 (mem_classNames.2 ⟨s, hs, rfl⟩)
    simpa using h _ hc
  · intro h c hc
    obtain ⟨s, hs, rfl⟩ := mem_classNames.1 (hcs.mem_iff.1 hc)
    simp [h s hs]

theorem mem_idsOf_shown {f : Bytes} (hf : NulFree f) {s : Student} (hs : s ∈ db.students) :
    s.id ∈ idsOf (shownStudents db f) ↔ f = [] ∨ s.className.bytes = f := by
  rw [idsOf, List.mem_map]
  constructor
  · intro h
    obtain ⟨t, ht, hid⟩ := h
    obtain ⟨hmem, hpass⟩ := (mem_shownStudents hf).1 ht
    have heq : t = s := List.inj_on_of_nodup_map db.primaryKey hmem hs hid
    exact heq ▸ hpass
  · intro h
    exact ⟨s, (mem_shownStudents hf).2 ⟨hs, h⟩, rfl⟩

theorem shown_iff_trimUnseen {f : Bytes} (hf : NulFree f) :
    ((∀ i, i ∈ idsOf (shownStudents db f) ↔ i ∈ idsOf (shownStudents db (IndexPhp.trim f))) ∧
      ∀ s ∈ db.students, s.className.bytes = f ↔ s.className.bytes = IndexPhp.trim f) ↔
    TrimUnseen db f := by
  have htrim : NulFree (IndexPhp.trim f) := hf.mono (trim_subset f)
  constructor
  · intro ⟨hids, hselected⟩
    by_cases heq : IndexPhp.trim f = f
    · exact .inl heq
    · refine .inr ⟨fun s hs => ⟨fun hc => ?_, fun hc => ?_⟩, fun hnil => ?_⟩
      · exact heq (((hselected s hs).1 hc).symm.trans hc)
      · exact heq (hc.symm.trans ((hselected s hs).2 hc))
      · rw [List.eq_nil_iff_forall_not_mem]
        intro s hs
        have hshown := (hids s.id).2 ((mem_idsOf_shown htrim hs).2 (.inl hnil))
        rcases (mem_idsOf_shown hf hs).1 hshown with hempty | hc
        · exact heq (by rw [hnil, hempty])
        · exact heq (((hselected s hs).1 hc).symm.trans hc)
  · intro h
    rcases h with heq | ⟨hclass, hnil⟩
    · rw [heq]
      exact ⟨fun _ => Iff.rfl, fun _ _ => Iff.rfl⟩
    · have hfnil : f = [] → db.students = [] := by
        intro hf'
        exact hnil (by rw [hf']; rfl)
      rw [shownStudents_eq_nil hf hfnil fun s hs => (hclass s hs).1,
        shownStudents_eq_nil htrim hnil fun s hs => (hclass s hs).2]
      refine ⟨fun _ => Iff.rfl, fun s hs => ?_⟩
      exact iff_of_false (hclass s hs).1 (hclass s hs).2

/-- The two versions show the same students and mark the same options. -/
def SameFilter (session php : Session col db) (param : Option Bytes) : Prop :=
  ∃ page, IndexPhp.page php.exec param = some page ∧
    (∀ i, i ∈ shownIds (Service.getStudentScores (some session.exec) (MainA.decodedFilter param)) ↔
      i ∈ IndexPhp.shownIds page.rows) ∧
    (Template.decodePage (MainA.respond (some session.exec)
      (MainA.decodedFilter param)).document).options = page.options

theorem sameFilter_iff_shown (session php : Session col db) (param : Option Bytes) :
    SameFilter session php param ↔
      (∀ i, i ∈ idsOf (shownStudents db (MainA.decodedFilter param)) ↔
        i ∈ idsOf (shownStudents db (IndexPhp.classFilter param))) ∧
      ∀ s ∈ db.students,
        s.className.bytes = MainA.decodedFilter param ↔ s.className.bytes = IndexPhp.classFilter param := by
  obtain ⟨page, hpage, ⟨cs, hcs, hsorted, hoptions⟩, hrows⟩ := page_answer php param
  have hclasses := queryClasses_unique session hcs hsorted
  have hshown := shownIds_perm session (MainA.decodedFilter param)
  have hmarked : (Template.decodePage (MainA.respond (some session.exec)
      (MainA.decodedFilter param)).document).options =
        cs.map fun c => (c, decide (c = MainA.decodedFilter param)) := by
    have hdocument : (MainA.respond (some session.exec) (MainA.decodedFilter param)).document =
        Handler.handleIndex (some session.exec) (MainA.decodedFilter param) := rfl
    rw [hdocument, Handler.handleIndex, Template.decodePage_renderPage, Service.getClasses, hclasses]
  simp only [SameFilter, hpage, Option.some.injEq, exists_eq_left', hmarked, hoptions,
    hshown.mem_iff, hrows.mem_iff, selected_iff hcs]

theorem sameFilter_iff_trimUnseen (session php : Session col db) {param : Option Bytes}
    (hparam : NulFree (MainA.decodedFilter param)) :
    SameFilter session php param ↔ TrimUnseen db (MainA.decodedFilter param) :=
  (sameFilter_iff_shown session php param).trans (shown_iff_trimUnseen hparam)

/-- A class name with a blank in front shows its class there and nothing here. -/
theorem padded_filter_differs :
    NulFree (MainA.decodedFilter (some (utf8 " 一年一班"))) ∧
      ¬ SameFilter (Session.sorting .bytewise sampleTables) (Session.sorting .bytewise sampleTables)
        (some (utf8 " 一年一班")) := by
  refine ⟨by decide, fun h => ?_⟩
  have hids := ((sameFilter_iff_shown _ _ _).1 h).1 2
  exact absurd hids (by decide +kernel)

theorem sameFilter_iff_trimUnseen_sample :
    NulFree (MainA.decodedFilter (some (utf8 "一年一班"))) ∧
      SameFilter (Session.sorting .bytewise sampleTables) (Session.sorting .bytewise sampleTables)
        (some (utf8 "一年一班")) := by
  have hnul : NulFree (MainA.decodedFilter (some (utf8 "一年一班"))) := by decide
  exact ⟨hnul, (sameFilter_iff_trimUnseen _ _ hnul).2 (.inl (by decide))⟩

end Filters

end StudentGrades
