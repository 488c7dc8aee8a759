import StudentGrades.PhpDocument
import StudentGrades.PhpFilters
import StudentGrades.Handler

/-!
# When the two versions show the same page

On one content and one class parameter, the documents of the two pages are the
same exactly when the database takes the parameter, trimming it is not to be seen,
every text shown is UTF-8, and no score shown has decimals that end in a single zero.
-/

namespace StudentGrades
open ByteText Sql Dao Markup

namespace IndexPhp

theorem validUtf8_of_ascii {text : Bytes} (h : ∀ b ∈ text, b < 128) : validUtf8 text = true := by
  induction text with
  | nil => rfl
  | cons b bs ih =>
    have hb : afterLead b = some [] := if_pos (h b (by simp))
    simp only [validUtf8, validFrom, hb] at ih ⊢
    exact ih fun c hc => h c (by simp [hc])

theorem least_afterLead {b : UInt8} {expected : Expected} (h : afterLead b = some expected) :
    ∀ range ∈ expected, 128 ≤ range.1 := by
  simp only [afterLead] at h
  split_ifs at h <;> simp only [Option.some.injEq] at h <;> subst h <;>
    simp [tail, UInt8.le_iff_toNat_le]

theorem validFrom_concat {b : UInt8} (hb : b < 128) {expected : Expected}
    (hleast : ∀ range ∈ expected, 128 ≤ range.1) (text : Bytes) :
    validFrom expected (text ++ [b]) = validFrom expected text := by
  induction text generalizing expected with
  | nil =>
    cases expected with
    | nil =>
      have hlead : afterLead b = some [] := if_pos hb
      simp [validFrom, hlead]
    | cons range expected =>
      have hlow : ¬ range.1 ≤ b := by
        have hrange := hleast range (by simp)
        rw [UInt8.le_iff_toNat_le] at hrange ⊢
        rw [UInt8.lt_iff_toNat_lt] at hb
        simp at hb hrange ⊢
        omega
      simp [validFrom, hlow]
  | cons c text ih =>
    cases expected with
    | nil =>
      rw [List.cons_append, validFrom, validFrom]
      cases hlead : afterLead c with
      | none => rfl
      | some expected => exact ih (least_afterLead hlead)
    | cons range expected =>
      rw [List.cons_append, validFrom, validFrom, ih fun r hr => hleast r (by simp [hr])]

def utf8Encoding : Encoding where
  accepts := validUtf8
  accepts_nil := rfl
  accepts_cons b hb text := by
    have hlead : afterLead b = some [] := if_pos hb
    simp [validUtf8, validFrom, hlead]
  accepts_concat b hb text := validFrom_concat hb (by simp) text

theorem trimByte_lt {b : UInt8} (h : isTrimByte b = true) : b < 128 := by
  simp only [isTrimByte, Bool.or_eq_true, beq_iff_eq] at h
  rcases h with ((((rfl | rfl) | rfl) | rfl) | rfl) | rfl <;> decide

theorem accepts_trim (e : Encoding) (text : Bytes) : e.accepts (trim text) = e.accepts text := by
  have hfront (t : Bytes) : e.accepts (t.dropWhile isTrimByte) = e.accepts t := by
    induction t with
    | nil => rfl
    | cons b t ih =>
      rw [List.dropWhile_cons]
      split_ifs with hb
      · rw [ih, e.accepts_cons b (trimByte_lt hb)]
      · rfl
  have hback (t : Bytes) : e.accepts (t.dropWhile isTrimByte).reverse = e.accepts t.reverse := by
    induction t with
    | nil => rfl
    | cons b t ih =>
      rw [List.dropWhile_cons]
      split_ifs with hb
      · rw [ih, List.reverse_cons, e.accepts_concat b (trimByte_lt hb)]
      · rfl
  rw [trim, hback, List.reverse_reverse, hfront]

theorem takes_pivotQuery (e : Encoding) {filter : Bytes} (hf : NulFree filter) :
    e.takes (pivotQuery filter) ↔ e.accepts filter = true := by
  cases filter with
  | nil => simp [Encoding.takes, pivotQuery, e.accepts_nil]
  | cons b bs => simp [Encoding.takes, pivotQuery, cstr_eq_self hf]

theorem seen_of_valid {text : Bytes} (h : validUtf8 text = true) : seen text = text := if_pos h

theorem isSpace_lt {b : UInt8} (h : isSpace b = true) : b < 128 := by
  simp only [isSpace, Bool.or_eq_true, Bool.and_eq_true, beq_iff_eq, decide_eq_true_eq,
    UInt8.le_iff_toNat_le, ← UInt8.toNat_inj] at h
  rw [UInt8.lt_iff_toNat_lt]
  simp at h ⊢
  omega

theorem shownText_seen_iff {text : Bytes} :
    shownText text = shownText (seen text) ↔ validUtf8 text = true := by
  constructor
  · intro h
    by_contra hinvalid
    have hblank : text.all isSpace = false := by
      by_contra hspace
      rw [Bool.not_eq_false, List.all_eq_true] at hspace
      exact hinvalid (validUtf8_of_ascii fun b hb => isSpace_lt (hspace b hb))
    rw [shownText_inj hblank, seen, if_neg hinvalid] at h
    exact hinvalid (h ▸ rfl)
  · intro h
    rw [seen_of_valid h]

end IndexPhp

theorem all_isSpace_of_digit {text : Bytes} {b : UInt8} (hb : b ∈ text) (hd : isDigit b = true) :
    text.all isSpace = false := by
  rw [List.all_eq_false]
  refine ⟨b, hb, fun hs => ?_⟩
  simp only [isSpace, isDigit, Bool.or_eq_true, Bool.and_eq_true, beq_iff_eq, decide_eq_true_eq,
    UInt8.le_iff_toNat_le, ← UInt8.toNat_inj] at hs hd
  simp at hs hd
  omega

theorem isDigit_lt {b : UInt8} (h : isDigit b = true) : b < 128 := by
  simp only [isDigit, Bool.and_eq_true, decide_eq_true_eq, UInt8.le_iff_toNat_le] at h
  rw [UInt8.lt_iff_toNat_lt]
  simp at h ⊢
  omega

theorem exists_digit_wholeText (h : ℤ) : ∃ b ∈ wholeText h, isDigit b = true := by
  obtain ⟨b, bs, hb⟩ := List.exists_cons_of_ne_nil (natText_ne_nil (h.natAbs / 100))
  have hmem : b ∈ natText (h.natAbs / 100) := by simp [hb]
  refine ⟨b, ?_, isDigit_of_mem_natText hmem⟩
  rw [wholeText]
  split_ifs
  · exact List.mem_cons_of_mem _ hmem
  · exact hmem

theorem wholeText_ascii {h : ℤ} {b : UInt8} (hb : b ∈ wholeText h) : b < 128 := by
  rw [wholeText] at hb
  split_ifs at hb
  · rcases List.mem_cons.1 hb with rfl | hb
    · decide
    · exact isDigit_lt (isDigit_of_mem_natText hb)
  · exact isDigit_lt (isDigit_of_mem_natText hb)

theorem fixedText_two_ascii {h : ℤ} {b : UInt8} (hb : b ∈ fixedText 2 h) : b < 128 := by
  rw [fixedText_two, List.mem_append, List.mem_cons] at hb
  rcases hb with hb | rfl | hb
  · exact wholeText_ascii hb
  · decide
  · exact isDigit_lt (isDigit_of_mem_padText hb)

theorem scoreText_subset (h : ℤ) :
    wholeText h ⊆ Template.scoreText h ∧ Template.scoreText h ⊆ fixedText 2 h := by
  rw [scoreText_eq, fixedText_two, Template.withFraction]
  have htrim := (Template.trimZeros_initial (padText 2 h.natAbs)).subset
  split_ifs
  · exact ⟨List.Subset.refl _, List.subset_append_left _ _⟩
  · refine ⟨List.subset_append_left _ _, ?_⟩
    intro b hb
    rw [List.mem_append, List.mem_cons] at hb ⊢
    exact hb.imp_right (.imp_right fun h => htrim h)

/-- A cell of the program for the best score in hundredths. -/
def programCell : Option ℤ → Bytes
  | none => utf8 "-"
  | some h => Template.scoreText h

def phpCell (best : Option ℤ) : Bytes := IndexPhp.formatScore (ofNumeric 2 best).output

theorem phpCell_some (h : ℤ) :
    phpCell (some h) = if h % 100 = 0 then Template.scoreText h else fixedText 2 h :=
  formatScore_fixedText h

theorem programCell_not_blank (best : Option ℤ) : (programCell best).all isSpace = false := by
  cases best with
  | none => rfl
  | some h =>
    obtain ⟨b, hb, hd⟩ := exists_digit_wholeText h
    exact all_isSpace_of_digit ((scoreText_subset h).1 hb) hd

theorem seen_phpCell (best : Option ℤ) : IndexPhp.seen (phpCell best) = phpCell best := by
  apply IndexPhp.seen_of_valid
  cases best with
  | none => rfl
  | some h =>
    apply IndexPhp.validUtf8_of_ascii
    intro b hb
    rw [phpCell_some] at hb
    split_ifs at hb
    · exact fixedText_two_ascii ((scoreText_subset h).2 hb)
    · exact fixedText_two_ascii hb

theorem programCell_eq_phpCell_iff (best : Option ℤ) :
    programCell best = phpCell best ↔ ∀ h ∈ best, h % 10 = 0 → h % 100 = 0 := by
  cases best with
  | none => simp [programCell, phpCell, ofNumeric, Value.output, IndexPhp.formatScore]
  | some h =>
    have hmem : (∀ i ∈ some h, i % 10 = 0 → i % 100 = 0) ↔ (h % 10 = 0 → h % 100 = 0) := by simp
    rw [phpCell_some, programCell, hmem]
    split_ifs with hwhole
    · exact iff_of_true rfl fun _ => hwhole
    · rw [scoreText_eq_fixedText_iff]
      exact ⟨fun h hten => absurd hten h, fun h hten => hwhole (h hten)⟩

theorem shownText_cells_iff (best : Option ℤ) :
    shownText (programCell best) = shownText (IndexPhp.seen (phpCell best)) ↔
      ∀ h ∈ best, h % 10 = 0 → h % 100 = 0 := by
  rw [seen_phpCell, shownText_inj (programCell_not_blank best), programCell_eq_phpCell_iff]

section Documents
variable {db : Tables} {col : Collation}

def programTexts (db : Tables) (s : Student) : List Bytes :=
  s.name.bytes :: s.className.bytes :: kSubjects.map fun k => programCell (bestScore db s k)

def phpTexts (db : Tables) (s : Student) : List Bytes :=
  s.name.bytes :: s.className.bytes :: kSubjects.map fun k => phpCell (bestScore db s k)

theorem formatScore_rowOf (s : Student) {k : Bytes} (hk : k ∈ kSubjects) :
    Template.formatScore (rowOf db s).scores k = programCell (bestScore db s k) := by
  have hlookup := lookup_rowOf db s k
  rw [if_pos hk, bestValue] at hlookup
  cases hbest : bestScore db s k with
  | none =>
    rw [hbest] at hlookup
    exact Template.formatScore_missing hlookup
  | some h =>
    obtain ⟨hmem, -⟩ := List.max?_eq_some_iff.1 hbest
    obtain ⟨-, -, -, -, x, -, rfl⟩ := Tables.mem_subjectScores.1 hmem
    rw [hbest] at hlookup
    exact Template.formatScore_stored hlookup

theorem rowTexts_rowOf (s : Student) : Template.rowTexts (rowOf db s) = programTexts db s := by
  rw [Template.rowTexts, programTexts]
  refine congrArg (fun cells => s.name.bytes :: s.className.bytes :: cells) ?_
  exact List.map_congr_left fun k hk => formatScore_rowOf s hk

theorem rowTexts_assocRow {ss : List Student} {r : ℕ} (hr : r < ss.length) :
    IndexPhp.rowTexts (IndexPhp.assocRow IndexPhp.columnNames
      (some (.ofRows (ss.map (pivotCells db)))) r) = some (phpTexts db ss[r]) := by
  let res : Option PGresult := some (.ofRows (ss.map (pivotCells db)))
  have hcell (c : ℕ) : cell res r c = ((pivotCells db ss[r])[c]?).bind Value.output := by
    rw [cell_ofRows (by simpa using hr), List.getElem_map]
  have hname : (IndexPhp.assocRow IndexPhp.columnNames res r).column (utf8 "name") =
      some ss[r].name.bytes :=
    (@column_assocRow IndexPhp.columnNames (by decide) res r 1 (by decide)).trans (hcell 1)
  have hclass : (IndexPhp.assocRow IndexPhp.columnNames res r).column (utf8 "class") =
      some ss[r].className.bytes :=
    (@column_assocRow IndexPhp.columnNames (by decide) res r 2 (by decide)).trans (hcell 2)
  have hscores : (kSubjects.map fun s => IndexPhp.formatScore
      ((IndexPhp.assocRow IndexPhp.columnNames res r).column s)) =
        kSubjects.map fun k => phpCell (bestScore db ss[r] k) := by
    refine List.ext_getElem (by simp) fun i h1 h2 => ?_
    have hi : i < kSubjects.length := by simpa using h2
    have hsubject : kSubjects[i] = kSubjects.getD i [] := by
      simp [List.getD_eq_getElem?_getD, hi]
    have hvalue : (pivotCells db ss[r])[3 + i]? =
        some (ofNumeric 2 (bestScore db ss[r] (kSubjects.getD i []))) := by
      rw [pivotCells, List.getElem?_append_right (by simp)]
      simp [hi]
    rw [List.getElem_map, List.getElem_map, hsubject, column_subject res r hi, hcell, hvalue]
    rfl
  have hsubjects : IndexPhp.subjects = kSubjects := rfl
  simp only [IndexPhp.rowTexts, phpTexts]
  rw [hname, hclass, hsubjects, hscores]
  rfl

theorem program_document (session : Session col db) (f : Bytes) :
    ∃ ss : List Student, ss.Perm (shownStudents db f) ∧ ss.Pairwise (ClassNameOrder col) ∧
      document (Handler.handleIndex (some session.exec) f) =
        pageView ((queryClasses (some session.exec)).map fun c => (c, decide (c = f)))
          (ss.map (programTexts db)) := by
  obtain ⟨ss, hperm, hsorted, hrows⟩ := queryPivot_rows session f
  refine ⟨ss, hperm, hsorted.imp classNameOrder_of_lexLe, ?_⟩
  rw [Handler.handleIndex, Template.document_renderPage, Service.getClasses,
    Service.getStudentScores, hrows, List.map_map]
  refine congrArg (pageView _) (List.map_congr_left fun s _ => rowTexts_rowOf s)

theorem php_document (php : Session col db) (param : Option Bytes) :
    ∃ (html : Bytes) (cs : List Bytes) (ss : List Student),
      IndexPhp.script true (some php.exec) param = .page 200 html ∧
      cs.Perm (classNames db) ∧ cs.Pairwise (fun a b => col.le a b) ∧
      ss.Perm (shownStudents db (IndexPhp.classFilter param)) ∧ ss.Pairwise (ClassNameOrder col) ∧
      document html = pageView (cs.map fun c => (IndexPhp.seen c, decide (c = IndexPhp.classFilter param)))
        (ss.map fun s => (phpTexts db s).map IndexPhp.seen) := by
  obtain ⟨cs, hcs, hcsorted, hclasses⟩ := classes_answer php
  obtain ⟨rows, ha, hpivot⟩ :=
    php.answers (IndexPhp.pivotQuery (IndexPhp.classFilter param)) _ (parse_php_pivotSql _)
  rw [php_params] at ha
  obtain ⟨ss, hss, hsorted, rfl⟩ := pivot_answer ha
  have hclasses' : php.exec IndexPhp.classesQuery = some (.ofRows (cs.map fun c => [.text c])) :=
    hclasses
  obtain ⟨page, hpage, hoptions, hrows⟩ : ∃ page, IndexPhp.page php.exec param = some page ∧
      page.options = (cs.map fun c => (c, decide (c = IndexPhp.classFilter param))) ∧
      page.rows = (List.range ss.length).map (IndexPhp.assocRow IndexPhp.columnNames
        (some (.ofRows (ss.map (pivotCells db))))) := by
    refine ⟨_, by simp only [IndexPhp.page, hclasses', hpivot, fetchAll_ofRows]; rfl, ?_, rfl⟩
    exact map_column_ofRows [utf8 "class"]
      (fun text => (text.getD [], decide (text.getD [] = IndexPhp.classFilter param))) 0
      (by decide) (by decide) fun c _ => rfl
  have htexts : page.rows.map IndexPhp.rowTexts = (ss.map (phpTexts db)).map some := by
    rw [hrows, List.map_map, List.map_map]
    refine List.ext_getElem (by simp) fun r h1 h2 => ?_
    have hr : r < ss.length := by simpa using h2
    rw [List.getElem_map, List.getElem_map, List.getElem_range]
    exact rowTexts_assocRow hr
  obtain ⟨html, hrender, hdocument⟩ := IndexPhp.document_render htexts
  refine ⟨html, cs, ss, ?_, hcs, hcsorted, hss, hsorted.imp classNameOrder_of_lexLe, ?_⟩
  · simp [IndexPhp.script, hpage, hrender]
  · rw [hdocument, hoptions, List.map_map, List.map_map]
    rfl

def classAndName (s : Student) : Bytes × Bytes := (s.className.bytes, s.name.bytes)

theorem shown_unique {ss ts : List Student} (hperm : ss.Perm ts)
    (hdistinct : (ts.map classAndName).Nodup) (hs : ss.Pairwise (ClassNameOrder col))
    (ht : ts.Pairwise (ClassNameOrder col)) : ss = ts :=
  SortedBlocks.eq_of_keyOrder col.antisymm hperm hdistinct hs ht

theorem options_agree_iff {cs : List Bytes} (hcs : cs.Perm (classNames db)) (f g : Bytes) :
    (cs.map fun c => (IndexPhp.seen c, decide (c = g))) = (cs.map fun c => (c, decide (c = f))) ↔
      ∀ s ∈ db.students, IndexPhp.validUtf8 s.className.bytes = true ∧
        (s.className.bytes = g ↔ s.className.bytes = f) := by
  have hseen (c : Bytes) : IndexPhp.seen c = c ↔ IndexPhp.validUtf8 c = true := by
    constructor
    · intro h
      rw [← IndexPhp.shownText_seen_iff, h]
    · exact IndexPhp.seen_of_valid
  simp only [List.map_inj_left, Prod.mk.injEq, hseen, decide_eq_decide, hcs.mem_iff, mem_classNames,
    forall_exists_index, and_imp]
  constructor
  · intro h s hs
    exact h _ s hs rfl
  · intro h c s hs hc
    exact hc ▸ h s hs

/-- The texts of a row are seen the same in both versions. -/
def SameTexts (db : Tables) (s : Student) : Prop :=
  IndexPhp.validUtf8 s.name.bytes = true ∧ IndexPhp.validUtf8 s.className.bytes = true ∧
    ∀ k ∈ kSubjects, ∀ h ∈ bestScore db s k, h % 10 = 0 → h % 100 = 0

theorem texts_agree_iff (s : Student) :
    ((phpTexts db s).map IndexPhp.seen).map shownText = (programTexts db s).map shownText ↔
      SameTexts db s := by
  simp only [phpTexts, programTexts, List.map_cons, List.map_map, List.cons.injEq, List.map_inj_left,
    Function.comp_apply, SameTexts]
  refine and_congr (eq_comm.trans IndexPhp.shownText_seen_iff)
    (and_congr (eq_comm.trans IndexPhp.shownText_seen_iff) ?_)
  exact forall₂_congr fun k _ => eq_comm.trans (shownText_cells_iff _)

theorem rows_agree_iff (ss : List Student) :
    (ss.map fun s => (phpTexts db s).map IndexPhp.seen).map (List.map shownText) =
        (ss.map (programTexts db)).map (List.map shownText) ↔ ∀ s ∈ ss, SameTexts db s := by
  rw [List.map_map, List.map_map, List.map_inj_left]
  exact forall₂_congr fun s _ => texts_agree_iff s

/-- The page is delivered, and both versions show the same. -/
def SamePage (session php : Exec) (param : Option Bytes) : Prop :=
  ∃ html, IndexPhp.script true (some php) param = .page 200 html ∧
    document html =
      document (MainA.respond (some session) (MainA.decodedFilter param)).document

theorem samePage_total (session php : Session col db) {param : Option Bytes}
    (hparam : NulFree (MainA.decodedFilter param))
    (hdistinct : ((shownStudents db (MainA.decodedFilter param)).map classAndName).Nodup) :
    SamePage session.exec php.exec param ↔
      TrimUnseen db (MainA.decodedFilter param) ∧
        (∀ s ∈ db.students, IndexPhp.validUtf8 s.className.bytes = true) ∧
        ∀ s ∈ shownStudents db (MainA.decodedFilter param), SameTexts db s := by
  let f := MainA.decodedFilter param
  have hg : IndexPhp.classFilter param = IndexPhp.trim f := rfl
  obtain ⟨ss, hss, hsorted, hprogram⟩ := program_document session f
  obtain ⟨html, cs, ts, hscript, hcs, hcsorted, hts, htsorted, hphp⟩ := php_document php param
  have hclasses := queryClasses_unique session hcs hcsorted
  have hrespond : (MainA.respond (some session.exec) f).document =
      Handler.handleIndex (some session.exec) f := rfl
  have hsame : SamePage session.exec php.exec param ↔
      (∀ s ∈ db.students, IndexPhp.validUtf8 s.className.bytes = true ∧
        (s.className.bytes = IndexPhp.trim f ↔ s.className.bytes = f)) ∧
      (ts.map fun s => (phpTexts db s).map IndexPhp.seen).map (List.map shownText) =
        (ss.map (programTexts db)).map (List.map shownText) := by
    rw [← options_agree_iff hcs, ← hg, ← pageView_inj]
    simp only [SamePage, hscript, IndexPhp.Outcome.page.injEq, true_and, exists_eq_left', hphp]
    rw [hrespond, hprogram, hclasses]
  rw [hsame]
  rw [hg] at hts
  by_cases htrim : IndexPhp.trim f = f
  · rw [htrim] at hts
    have heq : ts = ss := shown_unique (hts.trans hss.symm)
      ((hss.map _).nodup_iff.2 hdistinct) htsorted hsorted
    rw [heq, rows_agree_iff, htrim]
    simp only [iff_self, and_true, hss.mem_iff]
    exact (and_iff_right (.inl htrim)).symm
  · have hne : f ≠ [] := fun h => htrim (by rw [h]; rfl)
    constructor
    · intro ⟨hoptions, hrows⟩
      have hclass : ∀ s ∈ db.students,
          s.className.bytes ≠ f ∧ s.className.bytes ≠ IndexPhp.trim f := by
        intro s hs
        refine ⟨fun hc => ?_, fun hc => ?_⟩
        · exact htrim (((hoptions s hs).2.2 hc).symm.trans hc)
        · exact htrim (hc.symm.trans ((hoptions s hs).2.1 hc))
      have hshown := shownStudents_eq_nil hparam (fun h => absurd h hne) fun s hs => (hclass s hs).1
      rw [hshown] at hss
      have hsnil : ss = [] := hss.eq_nil
      have htnil : ts = [] := by simpa [hsnil] using hrows
      have hnil : IndexPhp.trim f = [] → db.students = [] := by
        intro h
        rw [h, shownStudents_nil, htnil] at hts
        exact hts.symm.eq_nil
      exact ⟨.inr ⟨hclass, hnil⟩, fun s hs => (hoptions s hs).1, by simp [hshown]⟩
    · intro h
      obtain ⟨hunseen, hvalid, -⟩ := h
      obtain ⟨hclass, hnil⟩ := hunseen.resolve_left htrim
      have hshown := shownStudents_eq_nil hparam (fun h => absurd h hne) fun s hs => (hclass s hs).1
      have hshown' := shownStudents_eq_nil (hparam.mono (trim_subset f)) hnil fun s hs =>
        (hclass s hs).2
      refine ⟨fun s hs => ⟨hvalid s hs, iff_of_false (hclass s hs).2 (hclass s hs).1⟩, ?_⟩
      rw [hshown] at hss
      rw [hshown'] at hts
      rw [hss.eq_nil, hts.eq_nil]
      rfl

theorem respond_congr {exec exec' : Exec} {f : Bytes} (hclasses : exec classesQuery = exec' classesQuery)
    (hpivot : exec (pivotQuery f) = exec' (pivotQuery f)) :
    MainA.respond (some exec) f = MainA.respond (some exec') f := by
  simp only [MainA.respond, Handler.handleIndex, Service.getClasses, Service.getStudentScores,
    queryClasses, queryPivot, hclasses, hpivot]

theorem script_congr {exec exec' : Exec} {param : Option Bytes}
    (hclasses : exec IndexPhp.classesQuery = exec' IndexPhp.classesQuery)
    (hpivot : exec (IndexPhp.pivotQuery (IndexPhp.classFilter param)) =
      exec' (IndexPhp.pivotQuery (IndexPhp.classFilter param))) (loaded : Bool) :
    IndexPhp.script loaded (some exec) param = IndexPhp.script loaded (some exec') param := by
  simp only [IndexPhp.script, IndexPhp.page, hclasses, hpivot]

theorem takes_classesQuery (e : Encoding) :
    e.takes classesQuery ∧ e.takes IndexPhp.classesQuery := by
  simp [Encoding.takes, classesQuery, IndexPhp.classesQuery]

theorem script_rejected {e : Encoding} (php : EncodedSession e col db) {param : Option Bytes}
    (h : ¬ e.takes (IndexPhp.pivotQuery (IndexPhp.classFilter param))) :
    IndexPhp.script true (some php.exec) param = .uncaught := by
  have hfetch : IndexPhp.fetchAll IndexPhp.columnNames
      (php.exec (IndexPhp.pivotQuery (IndexPhp.classFilter param))) = none := by
    rw [php.rejects _ h]
    rfl
  have hpage : IndexPhp.page php.exec param = none := by
    simp only [IndexPhp.page, hfetch]
    cases IndexPhp.fetchAll [utf8 "class"] (php.exec IndexPhp.classesQuery) <;> rfl
  simp [IndexPhp.script, hpage]

theorem samePage_iff {e : Encoding} (session php : EncodedSession e col db) {param : Option Bytes}
    (hparam : NulFree (MainA.decodedFilter param))
    (hdistinct : ((shownStudents db (MainA.decodedFilter param)).map classAndName).Nodup) :
    SamePage session.exec php.exec param ↔
      e.accepts (MainA.decodedFilter param) = true ∧
        TrimUnseen db (MainA.decodedFilter param) ∧
        (∀ s ∈ db.students, IndexPhp.validUtf8 s.className.bytes = true) ∧
        ∀ s ∈ shownStudents db (MainA.decodedFilter param), SameTexts db s := by
  let f := MainA.decodedFilter param
  have hg : IndexPhp.classFilter param = IndexPhp.trim f := rfl
  obtain ⟨hclasses, hclasses'⟩ := takes_classesQuery e
  have htakes : e.takes (IndexPhp.pivotQuery (IndexPhp.classFilter param)) ↔ e.accepts f = true := by
    rw [hg, IndexPhp.takes_pivotQuery e (hparam.mono (trim_subset f)), IndexPhp.accepts_trim]
  have htakes' : e.takes (pivotQuery f) ↔ e.takes (IndexPhp.pivotQuery f) := by
    rw [Encoding.takes, Encoding.takes, php_params]
  cases haccepts : e.accepts f with
  | false =>
    have hrejected : IndexPhp.script true (some php.exec) param = .uncaught := by
      apply script_rejected
      rw [htakes, haccepts]
      exact Bool.false_ne_true
    refine iff_of_false ?_ fun h => Bool.false_ne_true h.1
    intro ⟨html, hscript, _⟩
    rw [hrejected] at hscript
    cases hscript
  | true =>
    have hpivot : e.takes (pivotQuery f) :=
      htakes'.2 ((IndexPhp.takes_pivotQuery e hparam).2 haccepts)
    have hrespond := respond_congr (session.exec_total hclasses) (session.exec_total hpivot)
    have hscript := script_congr (php.exec_total hclasses') (php.exec_total (htakes.2 haccepts)) true
    have htotal := samePage_total session.total php.total hparam hdistinct
    simp only [SamePage, hscript] at htotal
    rw [hrespond] at htotal
    exact htotal.trans (and_iff_right rfl).symm

theorem samePage_iff_sample :
    NulFree (MainA.decodedFilter (some (utf8 "一年一班"))) ∧
      ((shownStudents sampleTables (MainA.decodedFilter (some (utf8 "一年一班")))).map
        classAndName).Nodup ∧
      SamePage (EncodedSession.sorting IndexPhp.utf8Encoding .bytewise sampleTables).exec
        (EncodedSession.sorting IndexPhp.utf8Encoding .bytewise sampleTables).exec
        (some (utf8 "一年一班")) := by
  have hnul : NulFree (MainA.decodedFilter (some (utf8 "一年一班"))) := by decide
  have hdistinct : ((shownStudents sampleTables (MainA.decodedFilter (some (utf8 "一年一班")))).map
      classAndName).Nodup := by decide
  refine ⟨hnul, hdistinct, (samePage_iff _ _ hnul hdistinct).2
    ⟨by decide, .inl (by decide), by decide, ?_⟩⟩
  simp only [SameTexts]
  decide

end Documents

end StudentGrades
