import Mathlib.Data.List.DropRight
import StudentGrades.ByteText

/-!
# Digits of decimal numerals

A numeral splits into the numeral of its quotient by a power of ten and the
padded digits behind it. Multiplying by a power of ten appends zeros, and the
padded digits of a short number are its own behind zeros.
-/

namespace ByteText

def zeros (k : ℕ) : Bytes := List.replicate k 48

theorem natText_append_digit {q r : ℕ} (hq : 0 < q) (hr : r < 10) :
    natText (10*q + r) = natText q ++ natText r := by
  rw [natText, ← Nat.toDigits_append_toDigits (by decide) hq hr, List.map_append, natText, natText]

theorem natText_of_ten_le {n : ℕ} (h : 10 ≤ n) :
    natText n = natText (n / 10) ++ natText (n % 10) := by
  have hpos : 0 < n / 10 := by omega
  conv_lhs => rw [← Nat.div_add_mod n 10]
  exact natText_append_digit hpos (Nat.mod_lt n (by decide))

theorem ten_pow_le_div {n k : ℕ} (h : 10^(k+1) ≤ n) : 10^k ≤ n / 10 := by
  rw [Nat.le_div_iff_mul_le (by decide), ← pow_succ]
  exact h

theorem div_lt_ten_pow {n k : ℕ} (h : n < 10^(k+1)) : n / 10 < 10^k := by
  rw [Nat.div_lt_iff_lt_mul (by decide), ← pow_succ]
  exact h

theorem ten_le_of_pow_le {n k : ℕ} (h : 10^(k+1) ≤ n) : 10 ≤ n :=
  (Nat.le_self_pow k.succ_ne_zero 10).trans h

theorem natText_mul_pow {n : ℕ} (hn : 0 < n) (k : ℕ) : natText (n * 10^k) = natText n ++ zeros k := by
  induction k with
  | zero => simp [zeros]
  | succ k ih =>
    have hstep : n * 10^(k+1) = 10 * (n * 10^k) + 0 := by ring
    have hpos : 0 < n * 10^k := by positivity
    rw [hstep, natText_append_digit hpos (by decide), ih, List.append_assoc, zeros, zeros,
      List.replicate_succ']
    rfl

theorem natText_split {w n : ℕ} (h : 10^w ≤ n) :
    natText n = natText (n / 10^w) ++ padText w n := by
  induction w generalizing n with
  | zero => simp [padText]
  | succ w ih =>
    rw [natText_of_ten_le (ten_le_of_pow_le h), ih (ten_pow_le_div h), padText,
      Nat.div_div_eq_div_mul, pow_succ', List.append_assoc]

theorem natText_length_of_bounds {n k : ℕ} (hlow : 10^k ≤ n) (hhigh : n < 10^(k+1)) :
    (natText n).length = k + 1 := by
  have hdigit : n / 10^k < 10 := by
    rw [Nat.div_lt_iff_lt_mul (by positivity), ← pow_succ']
    exact hhigh
  rw [natText_split hlow, List.length_append, natText_length hdigit, padText_length, add_comm]

theorem digitsValue_lt {b : Bytes} (h : ∀ x ∈ b, isDigit x) : digitsValue b < 10^b.length := by
  induction b using List.reverseRecOn with
  | nil => simp [digitsValue]
  | append_singleton b x ih =>
    have hb := ih fun y hy => h y (by simp [hy])
    have hx := h x (by simp)
    simp only [isDigit, Bool.and_eq_true, decide_eq_true_eq, UInt8.le_iff_toNat_le] at hx
    have hx9 : x.toNat ≤ 57 := hx.2
    simp only [digitsValue] at hb
    rw [digitsValue, List.foldl_append, List.length_append, List.length_singleton, pow_succ]
    simp only [List.foldl_cons, List.foldl_nil]
    omega

theorem natText_length_le {n w : ℕ} (hw : 0 < w) (h : n < 10^w) : (natText n).length ≤ w := by
  rw [natText, List.length_map]
  exact (Nat.length_toDigits_le_iff (by decide) hw).2 h

theorem readSign_length (b : Bytes) :
    (readSign b).2.length + (if (readSign b).1 then 1 else 0) ≤ b.length := by
  cases b with
  | nil => simp [readSign]
  | cons x b =>
    rw [readSign]
    split_ifs <;> simp_all

theorem intText_natCast (n : ℕ) : intText n = natText n := by
  rw [intText, if_neg (by omega), Int.natAbs_natCast]

theorem readSign_sublist (b : Bytes) : (readSign b).2.Sublist b := by
  cases b with
  | nil => exact List.Sublist.refl _
  | cons x b =>
    rw [readSign]
    split_ifs
    · exact List.sublist_cons_self _ _
    · exact List.sublist_cons_self _ _
    · exact List.Sublist.refl _

/-- A number of no greater size takes no more room than the text, but for a sign in front
of as many digits. -/
theorem intText_le_text {b : Bytes} (hne : b ≠ []) {i : ℤ} (hi : i.natAbs ≤ (atoi b).natAbs) :
    (intText i).length ≤ b.length ∨
      (intText i).length ≤ b.length + 1 ∧ b.count minus < (intText i).count minus := by
  have hpos : 0 < b.length := List.length_pos_iff.2 hne
  have hspace := List.dropWhile_sublist (l := b) isSpace
  have hsign := readSign_length (b.dropWhile isSpace)
  have hsub := (readSign_sublist (b.dropWhile isSpace)).trans hspace
  rcases hread : readSign (b.dropWhile isSpace) with ⟨neg, rest⟩
  rw [hread] at hsign hsub
  dsimp only at hsign hsub
  have htaken : (rest.takeWhile isDigit).Sublist b := (List.takeWhile_sublist _).trans hsub
  have hdigits : ∀ x ∈ rest.takeWhile isDigit, isDigit x := fun x hx => List.mem_takeWhile_imp hx
  have hvalue := digitsValue_lt hdigits
  have hsize : i.natAbs ≤ digitsValue (rest.takeWhile isDigit) := by
    refine hi.trans (Nat.le_of_eq ?_)
    simp only [atoi, hread]
    split_ifs <;> simp
  generalize rest.takeWhile isDigit = ds at htaken hdigits hvalue hsize
  cases ds with
  | nil =>
    have hzero : i = 0 := Int.natAbs_eq_zero.1 (Nat.le_zero.1 hsize)
    subst hzero
    exact .inl hpos
  | cons x ds =>
    have hlen := natText_length_le (List.length_pos_iff.2 (List.cons_ne_nil x ds)) (hsize.trans_lt hvalue)
    have hle := htaken.length_le
    by_cases hneg : i < 0
    · rw [intText, if_pos hneg, List.length_cons]
      by_cases hshort : (x :: ds).length < b.length
      · exact .inl (by omega)
      · have hall : x :: ds = b := htaken.eq_of_length (by omega)
        refine .inr ⟨by omega, ?_⟩
        have hnone : b.count minus = 0 := by
          rw [List.count_eq_zero, ← hall]
          exact fun hm => absurd (hdigits minus hm) (by decide)
        rw [hnone, List.count_cons_self]
        omega
    · rw [intText, if_neg hneg]
      exact .inl (hlen.trans hle)

theorem padText_zero (w : ℕ) : padText w 0 = zeros w := by
  induction w with
  | zero => rfl
  | succ w ih =>
    rw [padText, Nat.zero_div, ih, zeros, zeros, List.replicate_succ']
    rfl

theorem padText_of_lt {n w : ℕ} (h : n < 10^w) (v : ℕ) :
    padText (v + w) n = zeros v ++ padText w n := by
  induction w generalizing n with
  | zero =>
    have hn : n = 0 := by omega
    rw [hn, padText_zero, padText, List.append_nil, add_zero]
  | succ w ih => rw [← add_assoc, padText, ih (div_lt_ten_pow h), padText, List.append_assoc]

theorem padText_full {n k : ℕ} (hlow : 10^k ≤ n) (hhigh : n < 10^(k+1)) :
    padText (k+1) n = natText n := by
  induction k generalizing n with
  | zero =>
    have hlt : n < 10 := by simpa using hhigh
    rw [padText, padText, Nat.mod_eq_of_lt hlt, List.nil_append]
  | succ k ih =>
    rw [padText, ih (ten_pow_le_div hlow) (div_lt_ten_pow hhigh),
      ← natText_of_ten_le (ten_le_of_pow_le hlow)]

theorem digitsValue_append_zeros (b : Bytes) (k : ℕ) :
    digitsValue (b ++ zeros k) = digitsValue b * 10^k := by
  induction k with
  | zero => simp [zeros]
  | succ k ih =>
    simp only [digitsValue] at ih
    rw [zeros, List.replicate_succ', ← List.append_assoc, digitsValue, List.foldl_append]
    change 10 * (List.foldl _ 0 (b ++ zeros k)) + 0 = _
    rw [ih, digitsValue]
    ring

/-- A plain decimal numeral: a sign, digits, and at most `scale` decimals of which
the last is not zero. -/
structure Numeral (scale : ℕ) where
  negative : Bool
  whole : Bytes
  frac : Bytes
  whole_ne_nil : whole ≠ []
  whole_digits : ∀ b ∈ whole, isDigit b
  frac_digits : ∀ b ∈ frac, isDigit b
  frac_short : frac.length ≤ scale
  frac_trimmed : frac.getLast? ≠ some 48

namespace Numeral
variable {scale : ℕ} (n : Numeral scale)

def unsigned : Bytes := n.whole ++ if n.frac = [] then [] else point :: n.frac

theorem unsigned_eq : n.unsigned = if n.frac = [] then n.whole else n.whole ++ point :: n.frac := by
  rw [unsigned]
  split_ifs <;> simp

def text : Bytes := if n.negative then minus :: n.unsigned else n.unsigned

def value : ℚ :=
  let v : ℚ := digitsValue n.whole + digitsValue n.frac / 10 ^ n.frac.length
  if n.negative then -v else v

theorem readSign_text : readSign (n.text.dropWhile isSpace) = (n.negative, n.unsigned) := by
  obtain ⟨d, ds, hds⟩ := List.exists_cons_of_ne_nil n.whole_ne_nil
  have hd : isDigit d := n.whole_digits d (by simp [hds])
  have hhead : n.unsigned = d :: (ds ++ if n.frac = [] then [] else point :: n.frac) := by
    rw [unsigned, hds, List.cons_append]
  rw [text, hhead]
  exact readSign_signed n.negative hd _

theorem atof_text : atof n.text = n.value := by
  have hstop : ∀ b ∈ (if n.frac = [] then [] else point :: n.frac : Bytes).head?,
      isDigit b = false := by
    split_ifs <;> simp [show isDigit point = false by decide]
  have hfrac : readFraction (if n.frac = [] then [] else point :: n.frac) = n.frac := by
    split_ifs with h
    · rw [h]; rfl
    · simpa [readFraction] using List.takeWhile_eq_self_iff.2 n.frac_digits
  simp only [atof, n.readSign_text]
  simp only [unsigned, takeWhile_digits n.whole_digits hstop,
    dropWhile_digits n.whole_digits hstop, hfrac, value]

theorem value_eq_of_text {m n : Numeral scale} (h : m.text = n.text) : m.value = n.value := by
  rw [← m.atof_text, ← n.atof_text, h]

theorem mem_text {b : UInt8} (h : b ∈ n.text) : isDigit b ∨ b = minus ∨ b = point := by
  have hunsigned (hb : b ∈ n.unsigned) : isDigit b ∨ b = point := by
    rw [unsigned, List.mem_append] at hb
    rcases hb with hb | hb
    · exact .inl (n.whole_digits b hb)
    · split_ifs at hb
      · simp at hb
      · rcases List.mem_cons.1 hb with rfl | hb
        · exact .inr rfl
        · exact .inl (n.frac_digits b hb)
  rw [text] at h
  split_ifs at h
  · rcases List.mem_cons.1 h with rfl | h
    · exact .inr (.inl rfl)
    · exact (hunsigned h).imp_right .inr
  · exact (hunsigned h).imp_right .inr

theorem exists_digit : ∃ b ∈ n.text, isDigit b := by
  obtain ⟨d, ds, hds⟩ := List.exists_cons_of_ne_nil n.whole_ne_nil
  refine ⟨d, ?_, n.whole_digits d (by simp [hds])⟩
  rw [text]
  split_ifs <;> simp [unsigned, hds]

end Numeral

end ByteText
