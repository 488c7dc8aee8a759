import StudentGrades.IndexPhp
import StudentGrades.ScoreFormat

/-!
# The cells of the program and of the page it replaces

For one result of the pivot statement the two versions print the same cells,
except where the decimals of a score end in a single zero: the stream format
drops it and the suffix surgery keeps it.
-/

namespace StudentGrades
open ByteText Sql Dao

theorem lookup_columns {β : Type*} {names : List Bytes} (hd : names.Nodup) (f : ℕ → β) {i : ℕ}
    (hi : i < names.length) :
    ((List.range names.length).map fun c => (names.getD c [], f c)).lookup (names.getD i []) =
      some (f i) := by
  apply lookup_of_mem
  · have hkeys : (List.range names.length).map (fun c => names.getD c []) = names := by
      refine List.ext_getElem (by simp) fun c h1 h2 => ?_
      simp [h2]
    rw [List.map_map]
    change ((List.range names.length).map fun c => names.getD c []).Nodup
    rwa [hkeys]
  · exact List.mem_map.2 ⟨i, List.mem_range.2 hi, rfl⟩

theorem lookup_subjectScores (res : Option PGresult) (r : ℕ) {i : ℕ} (hi : i < kSubjects.length) :
    (subjectScores res r).lookup (kSubjects.getD i []) = (cell res r (3 + i)).map atof := by
  let cells := (List.range kSubjects.length).map fun i =>
    (kSubjects.getD i [], (cell res r (3 + i)).map atof)
  have hd : (cells.map Prod.fst).Nodup := by
    simp only [cells, List.map_map, Function.comp_def]
    decide
  have hfold : subjectScores res r = cells.foldl (fun m c => insertScore m c.1 c.2) ∅ := by
    rw [List.foldl_map, subjectScores]
    rfl
  have hcell : cells.lookup (kSubjects.getD i []) = some ((cell res r (3 + i)).map atof) :=
    lookup_columns (by decide) (fun i => (cell res r (3 + i)).map atof) hi
  rw [hfold, lookup_insertScores hd, hcell]
  simp

theorem column_assocRow {names : List Bytes} (hd : names.Nodup) (res : Option PGresult) (r : ℕ)
    {c : ℕ} (hc : c < names.length) :
    (IndexPhp.assocRow names res r).column (names.getD c []) = cell res r c := by
  rw [IndexPhp.AssocRow.column, IndexPhp.assocRow, lookup_columns hd (cell res r) hc]
  rfl

theorem column_subject (res : Option PGresult) (r : ℕ) {i : ℕ} (hi : i < kSubjects.length) :
    (IndexPhp.assocRow IndexPhp.columnNames res r).column (kSubjects.getD i []) =
      cell res r (3 + i) := by
  have hname : IndexPhp.columnNames.getD (3 + i) [] = kSubjects.getD i [] := by
    rw [IndexPhp.columnNames, List.getD_eq_getElem?_getD, List.getElem?_append_right (by simp),
      show 3 + i - [utf8 "id", utf8 "name", utf8 "class"].length = i by simp]
    rfl
  have hlen : 3 + i < IndexPhp.columnNames.length := by
    simp only [IndexPhp.columnNames, List.length_append, List.length_cons, List.length_nil]
    have : IndexPhp.subjects.length = kSubjects.length := rfl
    omega
  rw [← hname]
  exact column_assocRow (by decide) res r hlen

theorem padText_two (n : ℕ) : padText 2 n = natText (n / 10 % 10) ++ natText (n % 10) := rfl

theorem natText_digit_eq_zero {d : ℕ} : natText d = zeros 1 ↔ d = 0 := by
  constructor
  · intro h
    have := congrArg digitsValue h
    rwa [digitsValue_natText] at this
  · intro h
    rw [h]
    rfl

theorem padText_two_eq_zeros {n : ℕ} : padText 2 n = zeros 2 ↔ n % 100 = 0 := by
  constructor
  · intro h
    have := congrArg digitsValue h
    rwa [digitsValue_padText] at this
  · intro h
    have hten : n / 10 % 10 = 0 := by omega
    have hone : n % 10 = 0 := by omega
    rw [padText_two, hten, hone]
    rfl

/-- The part of a text with two decimals in front of its point. -/
def wholeText (h : ℤ) : Bytes :=
  if h < 0 then minus :: natText (h.natAbs / 100) else natText (h.natAbs / 100)

theorem fixedText_two (h : ℤ) : fixedText 2 h = wholeText h ++ point :: padText 2 h.natAbs := by
  simp only [fixedText, wholeText, OfNat.ofNat_ne_zero, ↓reduceIte]
  split_ifs <;> rfl

theorem scoreText_eq (h : ℤ) :
    Template.scoreText h = Template.withFraction (wholeText h) (padText 2 h.natAbs) := by
  simp only [Template.scoreText, Template.withFraction, wholeText]
  split_ifs <;> rfl

theorem strEndsWith_fixedText (h : ℤ) :
    IndexPhp.strEndsWith (fixedText 2 h) (utf8 ".00") = decide (h % 100 = 0) := by
  have hdot : utf8 ".00" = point :: zeros 2 := by decide
  have hwhole : h % 100 = 0 ↔ h.natAbs % 100 = 0 := by omega
  rw [IndexPhp.strEndsWith, Bool.eq_iff_iff, List.isSuffixOf_iff_suffix, decide_eq_true_eq, hwhole,
    ← padText_two_eq_zeros, fixedText_two, hdot]
  constructor
  · intro hs
    have hlast : point :: padText 2 h.natAbs <:+ wholeText h ++ point :: padText 2 h.natAbs :=
      List.suffix_append _ _
    have hsuffix := List.suffix_of_suffix_length_le hs hlast (by simp [zeros, padText_length])
    have heq := hsuffix.eq_of_length (by simp [zeros, padText_length])
    exact (List.cons.inj heq).2.symm
  · intro heq
    rw [heq]
    exact List.suffix_append _ _

theorem formatScore_fixedText (h : ℤ) :
    IndexPhp.formatScore (some (fixedText 2 h)) =
      if h % 100 = 0 then Template.scoreText h else fixedText 2 h := by
  rw [IndexPhp.formatScore, strEndsWith_fixedText]
  by_cases hwhole : h % 100 = 0
  · have hlen : (fixedText 2 h).length - 3 = (wholeText h).length := by
      simp [fixedText_two, padText_length]
    simp only [hwhole, decide_true, ↓reduceIte]
    rw [hlen, fixedText_two, List.take_left, scoreText_eq, Template.withFraction_whole (by omega)]
  · simp only [hwhole, decide_false, Bool.false_eq_true, ↓reduceIte]

theorem trimZeros_padText_two (n : ℕ) :
    Template.trimZeros (padText 2 n) = padText 2 n ↔ n % 10 ≠ 0 := by
  obtain ⟨b, hb⟩ := List.length_eq_one_iff.1 (natText_length (Nat.mod_lt n (by decide : 0 < 10)))
  have hzero : b = 48 ↔ n % 10 = 0 := by
    rw [← natText_digit_eq_zero, hb]
    simp [zeros]
  rw [padText_two, hb]
  change List.rdropWhile (· = (48 : UInt8)) _ = _ ↔ _
  rw [List.rdropWhile_eq_self_iff]
  simp [hzero]

theorem withFraction_eq_iff {whole frac : Bytes} (hne : frac ≠ []) :
    Template.withFraction whole frac = whole ++ point :: frac ↔ Template.trimZeros frac = frac := by
  rw [Template.withFraction]
  split_ifs with hnil
  · constructor
    · intro h
      simp at h
    · intro h
      exact absurd (h.symm.trans hnil) hne
  · constructor
    · intro h
      exact (List.cons.inj (List.append_cancel_left h)).2
    · intro h
      rw [h]

theorem scoreText_eq_fixedText_iff (h : ℤ) :
    Template.scoreText h = fixedText 2 h ↔ h % 10 ≠ 0 := by
  have hne : padText 2 h.natAbs ≠ [] := List.ne_nil_of_length_pos (by simp [padText_length])
  have hten : h % 10 ≠ 0 ↔ h.natAbs % 10 ≠ 0 := by omega
  rw [hten, ← trimZeros_padText_two, scoreText_eq, fixedText_two, withFraction_eq_iff hne]

/-- The text of a pivot column for the maximum of its scores. -/
def columnText (score : Option Numeric52) : Option Bytes :=
  (ofNumeric 2 (score.map Numeric52.hundredths)).output

theorem formatScore_subjectScores {res : Option PGresult} {r i : ℕ} (hi : i < kSubjects.length)
    {x : Numeric52} (hcell : cell res r (3 + i) = columnText (some x)) :
    Template.formatScore (subjectScores res r) (kSubjects.getD i []) =
      Template.scoreText x.hundredths := by
  apply Template.formatScore_stored
  have hx : columnText (some x) = some (fixedText 2 x.hundredths) := rfl
  rw [lookup_subjectScores res r hi, hcell, hx, Option.map_some, atof_fixedText]
  norm_num [Numeric52.value]

/-- The two cells of a subject, for one result, are the same except for a score
whose decimals end in a single zero. -/
theorem scoreCell_agrees_iff {res : Option PGresult} {r i : ℕ} (hi : i < kSubjects.length)
    {score : Option Numeric52} (hcell : cell res r (3 + i) = columnText score) :
    Template.formatScore (subjectScores res r) (kSubjects.getD i []) =
        IndexPhp.formatScore
          ((IndexPhp.assocRow IndexPhp.columnNames res r).column (kSubjects.getD i [])) ↔
      ∀ x ∈ score, x.hundredths % 10 = 0 → x.hundredths % 100 = 0 := by
  rw [column_subject res r hi]
  cases score with
  | none =>
    have hnull : cell res r (3 + i) = none := hcell
    have hlookup := lookup_subjectScores res r hi
    rw [hnull] at hlookup
    rw [Template.formatScore_missing hlookup, hnull]
    simp [IndexPhp.formatScore]
  | some x =>
    have hx : columnText (some x) = some (fixedText 2 x.hundredths) := rfl
    rw [formatScore_subjectScores hi hcell, hcell, hx, formatScore_fixedText]
    have hcond : (∀ y ∈ some x, y.hundredths % 10 = 0 → y.hundredths % 100 = 0) ↔
        (x.hundredths % 10 = 0 → x.hundredths % 100 = 0) :=
      ⟨fun h => h x rfl, fun h y hy => by cases hy; exact h⟩
    rw [hcond]
    by_cases hwhole : x.hundredths % 100 = 0
    · rw [if_pos hwhole]
      exact iff_of_true rfl fun _ => hwhole
    · rw [if_neg hwhole, scoreText_eq_fixedText_iff]
      exact ⟨fun h hten => absurd hten h, fun h hten => hwhole (h hten)⟩

def oneScoreResult (score : String) : Option PGresult :=
  some ⟨.PGRES_TUPLES_OK, [[some (utf8 "1"), some (utf8 "张三"), some (utf8 "一年一班"),
    some (utf8 score), none, none, none]]⟩

/-- A half mark is printed with one decimal here and with two there. -/
theorem scoreCell_halfMark :
    columnText (some ⟨8550, by decide⟩) = some (utf8 "85.50") ∧
      Template.formatScore (subjectScores (oneScoreResult "85.50") 0) (kSubjects.getD 0 []) ≠
        IndexPhp.formatScore ((IndexPhp.assocRow IndexPhp.columnNames
          (oneScoreResult "85.50") 0).column (kSubjects.getD 0 [])) := by
  have htext : columnText (some ⟨8550, by decide⟩) = some (utf8 "85.50") := by decide
  have hcell : cell (oneScoreResult "85.50") 0 (3 + 0) = columnText (some ⟨8550, by decide⟩) :=
    htext.symm
  refine ⟨htext, fun h => ?_⟩
  rw [formatScore_subjectScores (by decide) hcell, column_subject _ _ (by decide)] at h
  exact absurd h (by decide +kernel)

theorem scoreCell_agrees_iff_sample :
    cell (oneScoreResult "85.05") 0 (3 + 0) = columnText (some ⟨8505, by decide⟩) ∧
      Template.formatScore (subjectScores (oneScoreResult "85.05") 0) (kSubjects.getD 0 []) =
        IndexPhp.formatScore ((IndexPhp.assocRow IndexPhp.columnNames
          (oneScoreResult "85.05") 0).column (kSubjects.getD 0 [])) := by
  have htext : cell (oneScoreResult "85.05") 0 (3 + 0) = columnText (some ⟨8505, by decide⟩) := by
    decide
  exact ⟨htext, (scoreCell_agrees_iff (by decide) htext).2 (by simp)⟩

end StudentGrades
