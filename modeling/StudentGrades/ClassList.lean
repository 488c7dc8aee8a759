import StudentGrades.PivotQuery
import StudentGrades.SortedBlocks

/-!
# The class list and its agreement with the pivot rows

The class query lists the classes of the students once each, sorted. The classes
of the unfiltered pivot rows form one block for each listed class, in the order
of the list; a listed class that is not empty filters to exactly its students.
-/

namespace StudentGrades
open ByteText Sql Dao

namespace Dao

def plainClassColumn : Column := ⟨[], utf8 "class"⟩

def classesStatement : Select where
  distinct := true
  items := [.scalar (.operand (.column plainClassColumn))]
  source := ⟨utf8 "students", utf8 "students"⟩
  leftJoin := none
  filter := none
  groupBy := []
  orderBy := [plainClassColumn]

theorem parse_classesSql : parse classesSql = some classesStatement := by decide +kernel

end Dao

def classNames (db : Tables) : List Bytes := (db.students.map fun s => s.className.bytes).dedup

theorem mem_classNames {db : Tables} {c : Bytes} :
    c ∈ classNames db ↔ ∃ s ∈ db.students, s.className.bytes = c := by
  simp [classNames]

variable {db : Tables} {col : Collation}

theorem classes_outputs (params : List (Option Bytes)) :
    classesStatement.outputs db.catalog params col =
      (classNames db).map fun c => ([.text c], [.text c]) := by
  have hc : db.catalog (utf8 "students") = db.students.map Tables.studentRow := rfl
  have ho : (classesStatement.groups db.catalog params).map
      (classesStatement.output params col) =
      db.students.map fun s =>
        ([Value.text s.className.bytes], [Value.text s.className.bytes]) := by
    simp only [Select.groups, classesStatement, Select.scopes, Select.joined, Source.scan, hc,
      List.map_map, ↓reduceIte]
    rfl
  have hi : Function.Injective fun c : Bytes => ([Value.text c], [Value.text c]) :=
    fun a b h => by simpa using h
  rw [Select.outputs, ho]
  simp only [classNames, ← List.dedup_map_of_injective hi, List.map_map]
  rfl

theorem classes_answer (session : Session col db) :
    ∃ cs : List Bytes, cs.Perm (classNames db) ∧ cs.Pairwise (fun a b => col.le a b) ∧
      session.exec classesQuery = some (.ofRows (cs.map fun c => [.text c])) := by
  obtain ⟨rows, ha, he⟩ := session.answers classesQuery _ parse_classesSql
  obtain ⟨cs, hp, ho, rfl⟩ := ha.exists_perm (.of_eq (classes_outputs classesQuery.params))
  refine ⟨cs, hp, ho.imp fun h => ?_, he⟩
  simpa [lexLe, Value.le] using h

theorem queryClasses_rows (session : Session col db) :
    (queryClasses (some session.exec)).Perm (classNames db) ∧
      (queryClasses (some session.exec)).Pairwise fun a b => col.le a b := by
  obtain ⟨cs, hp, ho, he⟩ := classes_answer session
  have hq : queryClasses (some session.exec) = cs := by
    simp only [queryClasses, he]
    refine (map_range_ofRows (f := fun res r => getString res r 0) (e := id) fun r hr => ?_).trans
      (List.map_id cs)
    obtain ⟨s, -, hs⟩ := mem_classNames.1 (hp.mem_iff.1 (List.getElem_mem hr))
    exact getString_ofRows (by simpa using hr) (by simp [Value.output]) (hs ▸ s.className.nulFree)
  rw [hq]
  exact ⟨hp, ho⟩

theorem mem_queryClasses (session : Session col db) {c : Bytes} :
    c ∈ queryClasses (some session.exec) ↔ ∃ s ∈ db.students, s.className.bytes = c :=
  (queryClasses_rows session).1.mem_iff.trans mem_classNames

theorem queryClasses_nodup (session : Session col db) :
    (queryClasses (some session.exec)).Nodup :=
  (queryClasses_rows session).1.nodup_iff.2 (List.nodup_dedup _)

theorem shownStudents_nil (db : Tables) : shownStudents db [] = db.students :=
  List.filter_eq_self.2 fun _ _ => rfl

/-- The class names of the unfiltered table, with consecutive repetitions
removed, are the class list: one contiguous block for each option, in the order
of the options, and no row outside them. -/
theorem queryPivot_blocks (session : Session col db) :
    ((queryPivot (some session.exec) []).map PivotRow.className).destutter (· ≠ ·) =
        queryClasses (some session.exec) ∧
      (queryClasses (some session.exec)).Nodup ∧
      ∀ c, c ∈ queryClasses (some session.exec) ↔
        ∃ row ∈ queryPivot (some session.exec) [], row.className = c := by
  obtain ⟨ss, hp, ho, hr⟩ := queryPivot_rows session []
  rw [shownStudents_nil] at hp
  have hnames : (queryPivot (some session.exec) []).map PivotRow.className =
      ss.map fun s => s.className.bytes := by simp [hr, rowOf, Function.comp_def]
  have hmem (c : Bytes) : c ∈ (queryPivot (some session.exec) []).map PivotRow.className ↔
      c ∈ queryClasses (some session.exec) := by
    rw [hnames, mem_queryClasses]
    simp [hp.mem_iff]
  have hsorted : ((queryPivot (some session.exec) []).map PivotRow.className).Pairwise
      fun a b => col.le a b := by
    rw [hnames, List.pairwise_map]
    apply ho.imp
    intro a b h
    simp only [orderKey, lexLe, Value.le, Bool.and_eq_true] at h
    exact h.1
  refine ⟨SortedBlocks.destutter_eq (fun a b => col.antisymm a b) hsorted
    (queryClasses_rows session).2 (queryClasses_nodup session) hmem, queryClasses_nodup session,
    fun c => ?_⟩
  rw [← hmem, List.mem_map]

end StudentGrades
