import StudentGrades.Dao

/-!
# The rows of the pivot query

The assembled text parses to one statement with or without its filter. On a
content its groups are the students that pass the filter, each with the block of
its joined score rows, and the decoded columns are the student's fields and the
maximum of its scores in each subject.
-/

namespace StudentGrades
open ByteText Sql

namespace Dao

def studentLabel : Bytes := utf8 "s"
def scoreLabel : Bytes := utf8 "sc"

def idColumn : Column := ⟨studentLabel, utf8 "id"⟩
def nameColumn : Column := ⟨studentLabel, utf8 "name"⟩
def classColumn : Column := ⟨studentLabel, utf8 "class"⟩
def studentIdColumn : Column := ⟨scoreLabel, utf8 "student_id"⟩
def subjectOfColumn : Column := ⟨scoreLabel, utf8 "subject"⟩
def scoreColumn : Column := ⟨scoreLabel, utf8 "score"⟩

def subjectScalar (k : Bytes) : Scalar :=
  .caseWhen ⟨.column subjectOfColumn, .literal k⟩ (.column scoreColumn)

def joinOn : Equality := ⟨.column idColumn, .column studentIdColumn⟩

def classFilterOn : Equality := ⟨.column classColumn, .param 1⟩

def pivotStatement (filtered : Bool) : Select where
  distinct := false
  items := [.scalar (.operand (.column idColumn)), .scalar (.operand (.column nameColumn)),
    .scalar (.operand (.column classColumn))] ++ kSubjects.map fun k => .max (subjectScalar k)
  source := ⟨utf8 "students", studentLabel⟩
  leftJoin := some (⟨utf8 "scores", scoreLabel⟩, joinOn)
  filter := if filtered then some classFilterOn else none
  groupBy := [idColumn, nameColumn, classColumn]
  orderBy := [classColumn, nameColumn]

theorem parse_pivotSql (classFilter : Bytes) :
    parse (pivotSql classFilter) = some (pivotStatement !classFilter.isEmpty) := by
  cases classFilter with
  | nil => exact (by decide +kernel : parse (pivotSql []) = some (pivotStatement false))
  | cons b bs => exact (by decide +kernel : parse (pivotSql [0]) = some (pivotStatement true))

end Dao

open Dao Tables

section Scopes
variable (db : Tables)

def studentScope (s : Student) (r : Row) : Scope := [(studentLabel, studentRow s), (scoreLabel, r)]

def pivotBlock (s : Student) : List Scope :=
  let found := (db.scores.filter fun sc => sc.studentId = s.id).map fun sc =>
    studentScope s (scoreRow sc)
  if found = [] then [studentScope s []] else found

def studentKey (s : Student) : List Value :=
  [.int s.id, .text s.name.bytes, .text s.className.bytes]

def orderKey (s : Student) : List Value := [.text s.className.bytes, .text s.name.bytes]

variable {db}

theorem studentScope_of_mem_pivotBlock {s : Student} {t : Scope} (h : t ∈ pivotBlock db s) :
    ∃ r, t = studentScope s r := by
  simp only [pivotBlock] at h
  split_ifs at h
  · exact ⟨[], List.mem_singleton.1 h⟩
  · obtain ⟨sc, -, rfl⟩ := List.mem_map.1 h
    exact ⟨scoreRow sc, rfl⟩

theorem pivotBlock_ne_nil (s : Student) : pivotBlock db s ≠ [] := by
  simp only [pivotBlock]
  split_ifs with h
  · simp
  · exact h

theorem leftJoinRows_eq (params : List (Option Bytes)) (s : Student) :
    leftJoinRows db.catalog params ⟨utf8 "scores", scoreLabel⟩ joinOn
      [(studentLabel, studentRow s)] = pivotBlock db s := by
  have hc : db.catalog (utf8 "scores") = db.scores.map scoreRow := rfl
  have hon (sc : Score) : joinOn.holds params (studentScope s (scoreRow sc)) =
      decide (sc.studentId = s.id) := by
    have h : joinOn.holds params (studentScope s (scoreRow sc)) =
      decide (Value.int s.id ≠ .null ∧ Value.int s.id = .int sc.studentId) := rfl
    simp [h, eq_comm]
  have hf : (((Source.scan db.catalog ⟨utf8 "scores", scoreLabel⟩).map fun r =>
      [(studentLabel, studentRow s)] ++ [r]).filter fun t => joinOn.holds params t) =
      (db.scores.filter fun sc => sc.studentId = s.id).map fun sc =>
        studentScope s (scoreRow sc) := by
    simp only [Source.scan, hc, List.map_map, List.filter_map]
    congr 1
    exact List.filter_congr fun sc _ => hon sc
  simp only [leftJoinRows, pivotBlock, hf]
  rfl

theorem pivot_joined (filtered : Bool) (params : List (Option Bytes)) :
    (pivotStatement filtered).joined db.catalog params = db.students.flatMap (pivotBlock db) := by
  have hc : db.catalog (utf8 "students") = db.students.map studentRow := rfl
  simp only [Select.joined, pivotStatement, Source.scan, hc, List.map_map, List.flatMap_map]
  exact List.flatMap_congr fun s _ => leftJoinRows_eq params s

def passes (classFilter : Bytes) (s : Student) : Bool :=
  classFilter.isEmpty || s.className.bytes = cstr classFilter

def shownStudents (db : Tables) (classFilter : Bytes) : List Student :=
  db.students.filter (passes classFilter)

theorem pivot_scopes (classFilter : Bytes) :
    (pivotStatement !classFilter.isEmpty).scopes db.catalog (pivotQuery classFilter).params =
      (shownStudents db classFilter).flatMap (pivotBlock db) := by
  cases classFilter with
  | nil =>
    have hp : shownStudents db [] = db.students := List.filter_eq_self.2 fun s _ => rfl
    rw [hp]
    exact pivot_joined false []
  | cons b bs =>
    simp only [Select.scopes, pivot_joined]
    apply filter_flatMap_const
    intro s _ t ht
    obtain ⟨r, rfl⟩ := studentScope_of_mem_pivotBlock ht
    have h : classFilterOn.holds (pivotQuery (b :: bs)).params (studentScope s r) =
      decide (Value.text s.className.bytes ≠ .null ∧
        Value.text s.className.bytes = .text (cstr (b :: bs))) := rfl
    simp [h, passes]

theorem shownStudents_nodup (db : Tables) (classFilter : Bytes) :
    ((shownStudents db classFilter).map studentKey).Nodup := by
  have hid : ((shownStudents db classFilter).map Student.id).Nodup :=
    db.primaryKey.sublist (List.filter_sublist.map _)
  apply List.Nodup.of_map (fun k : List Value => k.head?)
  have he : ((shownStudents db classFilter).map studentKey).map (fun k => k.head?) =
      ((shownStudents db classFilter).map Student.id).map fun i => some (Value.int i) := by
    simp [studentKey]
  rw [he]
  exact hid.map fun a b h => by simpa using h

theorem pivot_groups (classFilter : Bytes) :
    ((pivotStatement !classFilter.isEmpty).groups db.catalog
      (pivotQuery classFilter).params).Perm
      ((shownStudents db classFilter).map (pivotBlock db)) := by
  have hg : (pivotStatement !classFilter.isEmpty).groupBy ≠ [] := by simp [pivotStatement]
  rw [Select.groups, if_neg hg, pivot_scopes]
  refine groupsBy_flatMap (k := studentKey) (shownStudents_nodup db classFilter)
    (fun s _ => pivotBlock_ne_nil s) fun s _ t ht => ?_
  obtain ⟨r, rfl⟩ := studentScope_of_mem_pivotBlock ht
  rfl

end Scopes

section Output
variable {db : Tables} {col : Collation}

def bestScore (db : Tables) (s : Student) (subject : Bytes) : Option ℤ :=
  (db.subjectScores s.id subject).max?

def pivotCells (db : Tables) (s : Student) : List Value :=
  [.int s.id, .text s.name.bytes, .text s.className.bytes] ++
    kSubjects.map fun k => ofNumeric 2 (bestScore db s k)

theorem subjectScalar_values (params : List (Option Bytes)) (s : Student) (k : Bytes) :
    ∃ us : List (Option ℤ), us.filterMap id = db.subjectScores s.id k ∧
      (pivotBlock db s).map (fun t => (subjectScalar k).value params t) = us.map (ofNumeric 2) := by
  have hv (sc : Score) : (subjectScalar k).value params (studentScope s (scoreRow sc)) =
      ofNumeric 2 (if sc.subject.bytes = k then sc.score.map Numeric52.hundredths else none) := by
    have h : (subjectScalar k).value params (studentScope s (scoreRow sc)) =
      if decide (Value.text sc.subject.bytes ≠ .null ∧ Value.text sc.subject.bytes = .text k) then
        ofNumeric 2 (sc.score.map Numeric52.hundredths) else .null := rfl
    simp only [h, ne_eq, reduceCtorEq, not_false_eq_true, Value.text.injEq, true_and,
      decide_eq_true_eq]
    split_ifs <;> rfl
  have hs : db.subjectScores s.id k = (((db.scores.filter fun sc => sc.studentId = s.id).map
      fun sc => if sc.subject.bytes = k then sc.score.map Numeric52.hundredths else none).filterMap
        id) := by
    simp only [Tables.subjectScores, List.filterMap_map, List.filterMap_filter, id_eq,
      ite_and, decide_eq_true_eq, Function.comp_def]
  by_cases hf : (db.scores.filter fun sc => sc.studentId = s.id) = []
  · refine ⟨[none], by rw [hs, hf]; rfl, ?_⟩
    simp only [pivotBlock, hf, List.map_nil, ↓reduceIte]
    rfl
  · refine ⟨_, hs.symm, ?_⟩
    simp only [pivotBlock, List.map_eq_nil_iff, hf, ↓reduceIte, List.map_map]
    exact List.map_congr_left fun sc _ => hv sc

theorem pivot_output (filtered : Bool) (params : List (Option Bytes)) (s : Student) :
    (pivotStatement filtered).output params col (pivotBlock db s) =
      (orderKey s, pivotCells db s) := by
  obtain ⟨t, ts, ht⟩ := List.exists_cons_of_ne_nil (l := pivotBlock db s) (pivotBlock_ne_nil s)
  obtain ⟨r, rfl⟩ := studentScope_of_mem_pivotBlock (show t ∈ pivotBlock db s by simp [ht])
  have hmax (k : Bytes) : Item.value col params (pivotBlock db s) (.max (subjectScalar k)) =
      ofNumeric 2 (bestScore db s k) := by
    obtain ⟨us, hus, hm⟩ := @subjectScalar_values db params s k
    simp only [Item.value, hm, maxValue_numeric, hus, bestScore]
  have hcols : (pivotStatement filtered).orderBy.map (groupColumn (pivotBlock db s)) =
      orderKey s := by rw [ht]; rfl
  have hplain : [Item.scalar (.operand (.column idColumn)), .scalar (.operand (.column nameColumn)),
      .scalar (.operand (.column classColumn))].map (Item.value col params (pivotBlock db s)) =
      [.int s.id, .text s.name.bytes, .text s.className.bytes] := by rw [ht]; rfl
  simp only [Select.output, hcols, Prod.mk.injEq, true_and]
  simp only [pivotStatement, List.map_append, hplain, pivotCells, List.map_map, Function.comp_def,
    hmax]

theorem pivot_answer {classFilter : Bytes} {rows : List (List Value)}
    (h : (pivotStatement !classFilter.isEmpty).Answer db.catalog (pivotQuery classFilter).params
      col rows) :
    ∃ ss : List Student, ss.Perm (shownStudents db classFilter) ∧
      ss.Pairwise (fun a b => lexLe col (orderKey a) (orderKey b)) ∧
      rows = ss.map (pivotCells db) := by
  have ho : ((pivotStatement !classFilter.isEmpty).outputs db.catalog
      (pivotQuery classFilter).params col).Perm
      ((shownStudents db classFilter).map fun s => (orderKey s, pivotCells db s)) := by
    have hm := (@pivot_groups db classFilter).map
      ((pivotStatement !classFilter.isEmpty).output (pivotQuery classFilter).params col)
    simpa only [Select.outputs, pivotStatement, Bool.false_eq_true, ↓reduceIte, List.map_map,
      Function.comp_def, ← @pivot_output db col (!classFilter.isEmpty) (pivotQuery classFilter).params] using hm
  exact h.exists_perm ho

end Output
end StudentGrades
