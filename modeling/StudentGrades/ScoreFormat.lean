import StudentGrades.DecimalText
import StudentGrades.PageDecoder
import StudentGrades.PivotQuery

/-!
# Printed scores

The default stream format is exact on decimals of at most six significant
digits: it prints the whole part, and behind a point the decimals without their
trailing zeros. A score of `NUMERIC(5,2)` has five, so every cell of the table
denotes the score it was printed from.
-/

namespace StudentGrades
open ByteText

namespace Template

theorem trimZeros_append_zeros (b : Bytes) (k : ℕ) : trimZeros (b ++ zeros k) = trimZeros b := by
  rw [trimZeros, trimZeros, zeros, List.reverse_append, List.reverse_replicate,
    List.dropWhile_append_of_pos (by simp)]

theorem withFraction_append_zeros (whole frac : Bytes) (k : ℕ) :
    withFraction whole (frac ++ zeros k) = withFraction whole frac := by
  simp only [withFraction, trimZeros_append_zeros]

theorem roundEven_natCast (n : ℕ) : roundEven n = n := by
  simp [roundEven]

theorem log_decimal {n k : ℕ} (s : ℕ) (hlow : 10^k ≤ n) (hhigh : n < 10^(k+1)) :
    Int.log 10 ((n : ℚ) / 10^s) = (k : ℤ) - s := by
  have hpos : (0:ℚ) < 10^s := by positivity
  have hn : (0:ℚ) < n := by
    have : 0 < n := lt_of_lt_of_le (by positivity) hlow
    exact_mod_cast this
  have hval : (0:ℚ) < n / 10^s := div_pos hn hpos
  have hlowQ : (10:ℚ)^k ≤ n := by exact_mod_cast hlow
  have hhighQ : (n:ℚ) < 10^(k+1) := by exact_mod_cast hhigh
  have hpow (j : ℕ) : ((10:ℕ):ℚ)^((j:ℤ) - s) = 10^j / 10^s := by
    rw [Nat.cast_ofNat, zpow_sub₀ (by norm_num), zpow_natCast, zpow_natCast]
  apply le_antisymm
  · have hlt : (n:ℚ) / 10^s < ((10:ℕ):ℚ)^(((k+1:ℕ):ℤ) - s) := by
      rw [hpow]
      exact div_lt_div_of_pos_right hhighQ hpos
    have := (Int.lt_zpow_iff_log_lt (by decide) hval).1 hlt
    push_cast at this
    omega
  · apply (Int.zpow_le_iff_le_log (by decide) hval).1
    rw [hpow]
    exact div_le_div_of_nonneg_right hlowQ hpos.le

theorem sixDigits_decimal {n k s : ℕ} (hlow : 10^k ≤ n) (hhigh : n < 10^(k+1)) (hk : k ≤ 5) :
    sixDigits ((n : ℚ) / 10^s) = (n * 10^(5-k), (k : ℤ) - s) := by
  have hexact : (n : ℚ) / 10^s / 10^((k : ℤ) - s - 5) = ((n * 10^(5-k) : ℕ) : ℚ) := by
    have he : (k : ℤ) - s - 5 = -(s : ℤ) - ((5 - k : ℕ) : ℤ) := by omega
    rw [he, zpow_sub₀ (by norm_num), zpow_neg, zpow_natCast, zpow_natCast]
    push_cast
    field_simp
  have hsix : n * 10^(5-k) ≠ 1000000 := by
    have hlt : n * 10^(5-k) < 10^(k+1) * 10^(5-k) := Nat.mul_lt_mul_of_pos_right hhigh (by positivity)
    rw [← pow_add, show k + 1 + (5 - k) = 6 by omega] at hlt
    omega
  simp only [sixDigits, log_decimal s hlow hhigh, hexact, roundEven_natCast, if_neg hsix]

theorem positiveText_decimal {n k s : ℕ} (hlow : 10^k ≤ n) (hhigh : n < 10^(k+1)) (hk : k ≤ 5)
    (hs : s ≤ k + 4) :
    positiveText ((n : ℚ) / 10^s) = withFraction (natText (n / 10^s)) (padText s n) := by
  have hn : 0 < n := lt_of_lt_of_le (by positivity) hlow
  have hlen := natText_length_of_bounds hlow hhigh
  have hplain : ¬ ((k : ℤ) - s < -4 ∨ 6 ≤ (k : ℤ) - s) := by omega
  rw [positiveText, sixDigits_decimal hlow hhigh hk]
  simp only [natText_mul_pow hn, if_neg hplain]
  split_ifs with hwhole
  · -- the whole part has `k - s + 1` of the digits
    have hsk : s ≤ k := by omega
    have hsplit := natText_split ((Nat.pow_le_pow_right (by decide) hsk).trans hlow)
    have hcount : ((k : ℤ) - s).toNat + 1 = (natText (n / 10^s)).length := by
      have hl := congrArg List.length hsplit
      rw [List.length_append, padText_length, hlen] at hl
      omega
    rw [hsplit, List.append_assoc, hcount, List.take_left, List.drop_left,
      withFraction_append_zeros]
  · have hks : k < s := by omega
    have hzero : n / 10^s = 0 :=
      Nat.div_eq_of_lt (hhigh.trans_le (Nat.pow_le_pow_right (by decide) hks))
    have hpad : padText s n = zeros (((k : ℤ) - s).natAbs - 1) ++ natText n := by
      have hv : s = (((k : ℤ) - s).natAbs - 1) + (k + 1) := by omega
      conv_lhs => rw [hv]
      rw [padText_of_lt hhigh, padText_full hlow hhigh]
    rw [hzero, hpad, ← List.append_assoc]
    exact withFraction_append_zeros _ _ _

theorem castInt_hundredths {h : ℤ} (hh : h.natAbs ≤ 99999) :
    castInt ((h : ℚ) / 100) = h.tdiv 100 := by
  have hcross : ((h : ℚ) / 100).num * 100 = h * ((h : ℚ) / 100).den := by
    have hq : (((h : ℚ) / 100).num : ℚ) / ((h : ℚ) / 100).den = h / 100 := Rat.num_div_den _
    have hden : (((h : ℚ) / 100).den : ℚ) ≠ 0 := by exact_mod_cast Rat.den_ne_zero _
    rw [div_eq_div_iff hden (by norm_num)] at hq
    exact_mod_cast hq
  have hdenpos : (0 : ℤ) < ((h : ℚ) / 100).den := by exact_mod_cast Rat.den_pos _
  have ht : ((h : ℚ) / 100).num.tdiv ((h : ℚ) / 100).den = h.tdiv 100 := by
    rw [← Int.mul_tdiv_mul_of_pos_left _ _ (show (0 : ℤ) < 100 by decide), hcross, mul_comm _ (100 : ℤ),
      Int.mul_tdiv_mul_of_pos_left _ _ hdenpos]
  have habs : (h.tdiv 100).natAbs = h.natAbs / 100 := Int.natAbs_tdiv h 100
  have hrange : -2147483648 ≤ h.tdiv 100 ∧ h.tdiv 100 ≤ 2147483647 := by omega
  simp only [castInt, ht, if_pos hrange]

def scoreText (h : ℤ) : Bytes :=
  let body := withFraction (natText (h.natAbs / 100)) (padText 2 h.natAbs)
  if h < 0 then minus :: body else body

theorem withFraction_whole {n : ℕ} (h : n % 100 = 0) (whole : Bytes) :
    withFraction whole (padText 2 n) = whole := by
  have hten : n / 10 % 10 = 0 := by omega
  have hone : n % 10 = 0 := by omega
  have hpad : padText 2 n = zeros 2 := by simp [padText, hten, hone, zeros]; rfl
  have h0 := withFraction_append_zeros whole [] 2
  rw [hpad]
  exact h0

theorem positiveText_hundredths {n : ℕ} (hpos : 0 < n) (hn : n ≤ 99999) :
    positiveText ((n : ℚ) / 100) = withFraction (natText (n / 100)) (padText 2 n) := by
  have hlow : 10^(Nat.log 10 n) ≤ n := Nat.pow_log_le_self 10 hpos.ne'
  have hhigh : n < 10^(Nat.log 10 n + 1) := Nat.lt_pow_succ_log_self (by decide) n
  have hk : Nat.log 10 n ≤ 5 := by
    have : Nat.log 10 n < 6 := Nat.log_lt_of_lt_pow hpos.ne' (by omega)
    omega
  have htext := positiveText_decimal (s := 2) hlow hhigh hk (by omega)
  norm_num at htext
  exact htext

theorem doubleText_hundredths {h : ℤ} (h0 : h ≠ 0) (hh : h.natAbs ≤ 99999) :
    doubleText ((h : ℚ) / 100) = scoreText h := by
  have hval : (h : ℚ) / 100 ≠ 0 := by
    have : (h : ℚ) ≠ 0 := by exact_mod_cast h0
    positivity
  have htext := positiveText_hundredths (Int.natAbs_pos.2 h0) hh
  rw [Nat.cast_natAbs] at htext
  rw [doubleText, if_neg hval, scoreText]
  by_cases hneg : h < 0
  · have hnegQ : (h : ℚ) / 100 < 0 := by
      have : (h : ℚ) < 0 := by exact_mod_cast hneg
      linarith
    rw [abs_of_neg hneg] at htext
    rw [if_pos hnegQ, if_pos hneg, ← htext, Int.cast_neg, neg_div]
  · have hposQ : ¬ (h : ℚ) / 100 < 0 := by
      have : (0 : ℚ) ≤ h := by exact_mod_cast not_lt.1 hneg
      linarith
    rw [abs_of_nonneg (not_lt.1 hneg)] at htext
    rw [if_neg hposQ, if_neg hneg, ← htext]

theorem intText_hundredths {h : ℤ} (hdvd : h % 100 = 0) :
    intText (h.tdiv 100) = scoreText h := by
  have hexact : 100 * h.tdiv 100 = h := Int.mul_tdiv_cancel' (Int.dvd_of_emod_eq_zero hdvd)
  have habs : (h.tdiv 100).natAbs = h.natAbs / 100 := Int.natAbs_tdiv h 100
  have hsign : h.tdiv 100 < 0 ↔ h < 0 := by omega
  rw [intText, scoreText, habs, withFraction_whole (by omega)]
  simp only [hsign]

theorem formatScore_stored {scores : Finmap fun _ : Bytes => ℚ} {subject : Bytes} {x : Numeric52}
    (h : scores.lookup subject = some x.value) :
    formatScore scores subject = scoreText x.hundredths := by
  have hcast := castInt_hundredths x.fits
  simp only [formatScore, h, Numeric52.value, hcast]
  split_ifs with hwhole
  · rw [div_eq_iff (by norm_num)] at hwhole
    have hexact : x.hundredths = x.hundredths.tdiv 100 * 100 := by exact_mod_cast hwhole
    exact intText_hundredths (by omega)
  · have h0 : x.hundredths ≠ 0 := by
      intro h0
      simp [h0] at hwhole
    exact doubleText_hundredths h0 x.fits

example : [8550, 8505, -5, 10000, 0, -99999].map scoreText =
    [utf8 "85.5", utf8 "85.05", utf8 "-0.05", utf8 "100", utf8 "0", utf8 "-999.99"] := by
  decide +kernel

theorem formatScore_missing {scores : Finmap fun _ : Bytes => ℚ} {subject : Bytes}
    (h : scores.lookup subject = none) : formatScore scores subject = utf8 "-" := by
  simp [formatScore, h]

theorem trimZeros_initial (b : Bytes) : trimZeros b <+: b :=
  List.rdropWhile_prefix (· = (48 : UInt8)) b

theorem trimZeros_zeros (b : Bytes) : ∃ k, b = trimZeros b ++ zeros k := by
  refine ⟨(b.rtakeWhile (· = (48 : UInt8))).length, ?_⟩
  have hall : ∀ x ∈ b.rtakeWhile (· = (48 : UInt8)), x = 48 := by
    intro x hx
    simpa using List.mem_rtakeWhile_imp hx
  rw [zeros, ← List.eq_replicate_of_mem hall]
  exact List.rdropWhile_append_rtakeWhile.symm

theorem trimZeros_getLast (b : Bytes) : (trimZeros b).getLast? ≠ some 48 := by
  intro h
  have hne : trimZeros b ≠ [] := by
    intro hn
    simp [hn] at h
  have hlast : (trimZeros b).getLast hne = 48 := by
    simpa [List.getLast?_eq_some_getLast hne] using h
  exact List.rdropWhile_last_not (· = (48 : UInt8)) b hne (decide_eq_true hlast)

theorem digitsValue_trimZeros (b : Bytes) :
    (digitsValue (trimZeros b) : ℚ) / 10^(trimZeros b).length = digitsValue b / 10^b.length := by
  obtain ⟨k, hk⟩ := trimZeros_zeros b
  have hvalue := congrArg digitsValue hk
  have hlen := congrArg List.length hk
  rw [digitsValue_append_zeros] at hvalue
  rw [List.length_append, zeros, List.length_replicate] at hlen
  rw [hvalue, hlen, pow_add]
  push_cast
  field_simp

def scoreNumeral (x : Numeric52) : Numeral 2 where
  negative := decide (x.hundredths < 0)
  whole := natText (x.hundredths.natAbs / 100)
  frac := trimZeros (padText 2 x.hundredths.natAbs)
  whole_ne_nil := natText_ne_nil _
  whole_digits _ := isDigit_of_mem_natText
  frac_digits _ hb := isDigit_of_mem_padText ((trimZeros_initial _).subset hb)
  frac_short := (trimZeros_initial _).length_le.trans (padText_length 2 _).le
  frac_trimmed := trimZeros_getLast _

theorem scoreNumeral_text (x : Numeric52) : (scoreNumeral x).text = scoreText x.hundredths := by
  have hbody : (scoreNumeral x).unsigned =
      withFraction (natText (x.hundredths.natAbs / 100)) (padText 2 x.hundredths.natAbs) :=
    (scoreNumeral x).unsigned_eq
  rw [Numeral.text, hbody, scoreText]
  simp [scoreNumeral]

theorem scoreNumeral_value (x : Numeric52) : (scoreNumeral x).value = x.value := by
  have hdecimals := digitsValue_trimZeros (padText 2 x.hundredths.natAbs)
  rw [digitsValue_padText, padText_length] at hdecimals
  have habs : ((x.hundredths.natAbs / 100 : ℕ) : ℚ) + ((x.hundredths.natAbs % 10^2 : ℕ) : ℚ) / 10^2 =
      |(x.hundredths : ℚ)| / 100 := by
    have h := Nat.div_add_mod x.hundredths.natAbs 100
    have hq : (100 : ℚ) * ((x.hundredths.natAbs / 100 : ℕ) : ℚ) +
        ((x.hundredths.natAbs % 100 : ℕ) : ℚ) = x.hundredths.natAbs := by exact_mod_cast h
    rw [Nat.cast_natAbs, Int.cast_abs] at hq
    norm_num
    linarith
  simp only [Numeral.value, scoreNumeral, digitsValue_natText, hdecimals, habs, Numeric52.value,
    decide_eq_true_eq]
  split_ifs with h
  · have hneg : (x.hundredths : ℚ) < 0 := by exact_mod_cast h
    rw [abs_of_neg hneg]
    ring
  · have hpos : (0 : ℚ) ≤ x.hundredths := by exact_mod_cast not_lt.1 h
    rw [abs_of_nonneg hpos]

theorem escapeHtml_numeral {scale : ℕ} (n : Numeral scale) : escapeHtml n.text = n.text := by
  apply escapeHtml_eq_self
  intro b hb
  rcases n.mem_text hb with h | rfl | rfl
  · refine ⟨⟨?_, ?_, ?_, ?_⟩, ?_⟩ <;>
    · intro he
      rw [he] at h
      exact absurd h (by decide)
  · simp [Unmarked, minus]
  · simp [Unmarked, point]

theorem numeral_ne_placeholder {scale : ℕ} (n : Numeral scale) : n.text ≠ utf8 "-" := by
  intro h
  obtain ⟨b, hb, hd⟩ := n.exists_digit
  have hmem : b ∈ utf8 "-" := h ▸ hb
  have hb' : b = 45 := by simpa [show utf8 "-" = [45] from rfl] using hmem
  rw [hb'] at hd
  exact absurd hd (by decide)

def Stored (row : PivotRow) : Prop :=
  ∀ subject v, row.scores.lookup subject = some v → ∃ x : Numeric52, v = x.value

theorem rowOf_stored (db : Tables) (s : Student) : Stored (rowOf db s) := by
  intro subject v hv
  obtain ⟨⟨-, -, -, -, x, -, hx⟩, -⟩ := (rowOf_isPivotRow db s).maximum subject v hv
  exact ⟨x, hx⟩

theorem formatScore_numeral {row : PivotRow} (hrow : Stored row) {subject : Bytes} {v : ℚ}
    (hv : row.scores.lookup subject = some v) :
    ∃ n : Numeral 2, formatScore row.scores subject = n.text ∧ n.value = v := by
  obtain ⟨x, rfl⟩ := hrow subject v hv
  exact ⟨scoreNumeral x, (formatScore_stored hv).trans (scoreNumeral_text x).symm,
    scoreNumeral_value x⟩

theorem formatScore_placeholder_iff {row : PivotRow} (hrow : Stored row) (subject : Bytes) :
    formatScore row.scores subject = utf8 "-" ↔ row.scores.lookup subject = none := by
  constructor
  · intro h
    cases hv : row.scores.lookup subject with
    | none => rfl
    | some v =>
      obtain ⟨n, hn, -⟩ := formatScore_numeral hrow hv
      exact absurd (hn.symm.trans h) (numeral_ne_placeholder n)
  · exact formatScore_missing

theorem formatScore_eq_iff {row row' : PivotRow} (hrow : Stored row) (hrow' : Stored row')
    (subject : Bytes) :
    formatScore row.scores subject = formatScore row'.scores subject ↔
      row.scores.lookup subject = row'.scores.lookup subject := by
  constructor
  · intro h
    cases hv : row.scores.lookup subject with
    | none =>
      rw [formatScore_missing hv] at h
      exact ((formatScore_placeholder_iff hrow' subject).1 h.symm).symm
    | some v =>
      obtain ⟨n, hn, rfl⟩ := formatScore_numeral hrow hv
      cases hv' : row'.scores.lookup subject with
      | none =>
        rw [formatScore_missing hv', hn] at h
        exact absurd h (numeral_ne_placeholder n)
      | some v' =>
        obtain ⟨n', hn', rfl⟩ := formatScore_numeral hrow' hv'
        have htext : n.text = n'.text := hn.symm.trans (h.trans hn')
        rw [Numeral.value_eq_of_text htext]
  · intro h
    simp only [formatScore, h]

/-- The table shows the scores without loss. -/
theorem cells_show_scores (rows : List PivotRow) (hrows : ∀ row ∈ rows, Stored row) :
    (∀ row ∈ rows, ∀ subject ∈ kSubjects,
      (formatScore row.scores subject = utf8 "-" ↔ row.scores.lookup subject = none) ∧
      (∀ v, row.scores.lookup subject = some v →
        ∃ n : Numeral 2, formatScore row.scores subject = n.text ∧ n.value = v) ∧
      escapeHtml (formatScore row.scores subject) = formatScore row.scores subject) ∧
    ∀ row ∈ rows, ∀ row' ∈ rows, (shown row).cells = (shown row').cells ↔
      ∀ subject ∈ kSubjects, row.scores.lookup subject = row'.scores.lookup subject := by
  constructor
  · intro row hrow subject _
    refine ⟨formatScore_placeholder_iff (hrows row hrow) subject,
      fun v hv => formatScore_numeral (hrows row hrow) hv, ?_⟩
    cases hv : row.scores.lookup subject with
    | none => simp [formatScore_missing hv, show escapeHtml (utf8 "-") = utf8 "-" by decide]
    | some v =>
      obtain ⟨n, hn, -⟩ := formatScore_numeral (hrows row hrow) hv
      rw [hn, escapeHtml_numeral]
  · intro row hrow row' hrow'
    rw [shown, shown, List.map_inj_left]
    exact forall₂_congr fun subject _ => formatScore_eq_iff (hrows row hrow) (hrows row' hrow') subject

def sampleRows : List PivotRow := sampleTables.students.map (rowOf sampleTables)

theorem cells_show_scores_sample :
    (∀ row ∈ sampleRows, Stored row) ∧
      ∀ row ∈ sampleRows, ∀ row' ∈ sampleRows, (shown row).cells = (shown row').cells ↔
        ∀ subject ∈ kSubjects, row.scores.lookup subject = row'.scores.lookup subject := by
  have hrows : ∀ row ∈ sampleRows, Stored row := by
    intro row hrow
    obtain ⟨s, -, rfl⟩ := List.mem_map.1 hrow
    exact rowOf_stored sampleTables s
  exact ⟨hrows, (cells_show_scores sampleRows hrows).2⟩

end Template
end StudentGrades
