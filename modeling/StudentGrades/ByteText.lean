import Mathlib.Algebra.Order.Field.Rat
import Mathlib.Data.List.TakeWhile
import Mathlib.Tactic.FieldSimp
import Mathlib.Tactic.Linarith
import Mathlib.Tactic.Ring

/-!
# Byte strings, C strings and decimal text

A string is its list of bytes. `utf8` gives the bytes of a literal, `cstr` the
part of a byte string that a reader of a NUL-terminated pointer sees. Decimal
numerals are written digit by digit and read back by `atoi` and `atof`, which
stop at the first byte that does not belong to the numeral.
-/

namespace ByteText

abbrev Bytes := List UInt8

def utf8 (s : String) : Bytes := s.toByteArray.data.toList

def NulFree (b : Bytes) : Prop := 0 ∉ b

instance (b : Bytes) : Decidable (NulFree b) := inferInstanceAs (Decidable (0 ∉ b))

/-- What `c_str()` hands to a callee: everything before the first NUL. -/
def cstr (b : Bytes) : Bytes := b.takeWhile (· ≠ 0)

theorem cstr_eq_self {b : Bytes} (h : NulFree b) : cstr b = b := by
  rw [cstr, List.takeWhile_eq_self_iff]
  intro x hx
  simpa using fun h0 : x = 0 => h (h0 ▸ hx)

theorem cstr_nulFree (b : Bytes) : NulFree (cstr b) := by
  intro h
  simpa using List.mem_takeWhile_imp h

theorem nulFree_cons {x : UInt8} {b : Bytes} : NulFree (x :: b) ↔ x ≠ 0 ∧ NulFree b := by
  simp [NulFree, eq_comm]

theorem nulFree_append {a b : Bytes} : NulFree (a ++ b) ↔ NulFree a ∧ NulFree b := by
  simp [NulFree]

theorem nulFree_flatMap {γ : Type*} {f : γ → Bytes} {cs : List γ} :
    NulFree (cs.flatMap f) ↔ ∀ c ∈ cs, NulFree (f c) := by
  simp [NulFree, List.mem_flatMap]

theorem nulFree_intercalate {sep : Bytes} (hsep : NulFree sep) {parts : List Bytes}
    (h : ∀ p ∈ parts, NulFree p) : NulFree (List.intercalate sep parts) := by
  induction parts with
  | nil => exact List.not_mem_nil
  | cons p parts ih =>
    obtain ⟨hp, hparts⟩ := List.forall_mem_cons.1 h
    cases parts with
    | nil => rwa [List.intercalate_singleton]
    | cons q parts =>
      rw [List.intercalate_cons_cons, nulFree_append, nulFree_append]
      exact ⟨⟨hp, hsep⟩, ih hparts⟩

theorem NulFree.mono {a b : Bytes} (h : NulFree b) (hs : a ⊆ b) : NulFree a := fun h0 => h (hs h0)

theorem utf8_ofList (l : List Char) : utf8 (String.ofList l) = l.flatMap String.utf8EncodeChar := by
  simp [utf8, String.ofList, List.utf8Encode]

theorem mem_utf8EncodeChar {c : Char} {b : UInt8} (hb : b.toNat < 128)
    (h : b ∈ String.utf8EncodeChar c) : c.toNat = b.toNat := by
  have hv : c.val.toNat = c.toNat := rfl
  simp only [String.utf8EncodeChar] at h
  split_ifs at h <;>
  · simp only [List.mem_cons, List.not_mem_nil, or_false] at h
    rcases h with rfl | rfl | rfl | rfl <;>
    · simp only [UInt8.toNat_ofNat'] at hb ⊢
      omega

theorem not_mem_utf8 {b : UInt8} {l : List Char} (hb : b.toNat < 128)
    (h : l.all (fun c => c.toNat != b.toNat)) : b ∉ utf8 (String.ofList l) := by
  rw [utf8_ofList, List.mem_flatMap]
  intro ⟨c, hc, hm⟩
  have hne := List.all_eq_true.1 h c hc
  exact absurd (mem_utf8EncodeChar hb hm) (by simpa using hne)

def digitByte (c : Char) : UInt8 := UInt8.ofNat c.toNat

def isDigit (b : UInt8) : Bool := 48 ≤ b && b ≤ 57

def natText (n : ℕ) : Bytes := (Nat.toDigits 10 n).map digitByte

def minus : UInt8 := 45
def point : UInt8 := 46

def intText (i : ℤ) : Bytes := if i < 0 then minus :: natText i.natAbs else natText i.natAbs

/-- A text that is written with square brackets for its braces. -/
def withBraces (text : Bytes) : Bytes :=
  text.map fun b => if b = 91 then 123 else if b = 93 then 125 else b

theorem not_mem_withBraces {b : UInt8} (hb : b ≠ 123 ∧ b ≠ 125) {text : Bytes} (h : b ∉ text) :
    b ∉ withBraces text := by
  intro hm
  obtain ⟨c, hc, he⟩ := List.mem_map.1 hm
  split_ifs at he
  · exact hb.1 he.symm
  · exact hb.2 he.symm
  · exact h (he ▸ hc)

/-- The last `w` decimal digits of `n`, leading zeros kept. -/
def padText : ℕ → ℕ → Bytes
  | 0, _ => []
  | w+1, n => padText w (n/10) ++ natText (n%10)

def fixedText (scale : ℕ) (u : ℤ) : Bytes :=
  let body := natText (u.natAbs / 10^scale) ++
    if scale = 0 then [] else point :: padText scale u.natAbs
  if u < 0 then minus :: body else body

def digitsValue (b : Bytes) : ℕ := b.foldl (fun v d => 10*v + (d.toNat - 48)) 0

def isSpace (b : UInt8) : Bool := b == 32 || (9 ≤ b && b ≤ 13)

def readSign : Bytes → Bool × Bytes
  | [] => (false, [])
  | b :: bs => if b = minus then (true, bs) else if b = 43 then (false, bs) else (false, b :: bs)

def atoi (b : Bytes) : ℤ :=
  let (neg, rest) := readSign (b.dropWhile isSpace)
  let v : ℤ := digitsValue (rest.takeWhile isDigit)
  if neg then -v else v

def readFraction : Bytes → Bytes
  | [] => []
  | b :: bs => if b = point then bs.takeWhile isDigit else []

/-- `atof` on the plain decimal forms (sign, digits, point, digits). -/
def atof (b : Bytes) : ℚ :=
  let (neg, rest) := readSign (b.dropWhile isSpace)
  let frac := readFraction (rest.dropWhile isDigit)
  let v : ℚ := digitsValue (rest.takeWhile isDigit) + digitsValue frac / 10 ^ frac.length
  if neg then -v else v

theorem digitByte_toNat {c : Char} (h : c.isDigit) : (digitByte c).toNat = c.toNat := by
  have hc : c.toNat ≤ 57 := by
    simp only [Char.isDigit, Bool.and_eq_true, decide_eq_true_eq] at h
    exact h.2
  simp only [digitByte, UInt8.toNat_ofNat']
  omega

theorem isDigit_digitByte {c : Char} (h : c.isDigit) : isDigit (digitByte c) := by
  have hn := digitByte_toNat h
  simp only [Char.isDigit, Bool.and_eq_true, decide_eq_true_eq] at h
  have h1 : 48 ≤ c.toNat := h.1
  have h2 : c.toNat ≤ 57 := h.2
  simp only [isDigit, Bool.and_eq_true, decide_eq_true_eq, UInt8.le_iff_toNat_le]
  change 48 ≤ (digitByte c).toNat ∧ (digitByte c).toNat ≤ 57
  omega

theorem isDigit_of_mem_natText {n : ℕ} {b : UInt8} (h : b ∈ natText n) : isDigit b := by
  obtain ⟨c, hc, rfl⟩ := List.mem_map.1 h
  exact isDigit_digitByte (Nat.isDigit_of_mem_toDigits (by decide) (by decide) hc)

theorem natText_ne_nil (n : ℕ) : natText n ≠ [] := by
  simp [natText, Nat.toDigits_ne_nil]

theorem foldl_digitByte (l : List Char) (h : ∀ c ∈ l, c.isDigit) (v : ℕ) :
    (l.map digitByte).foldl (fun v d => 10*v + (d.toNat - 48)) v = Nat.ofDigitChars 10 l v := by
  induction l generalizing v with
  | nil => rfl
  | cons c l ih =>
    have hc : (digitByte c).toNat = c.toNat := digitByte_toNat (h c (by simp))
    simp only [List.map_cons, List.foldl_cons, Nat.ofDigitChars_cons, hc]
    exact ih (fun d hd => h d (by simp [hd])) _

theorem foldl_natText (n v : ℕ) (h : n < 10) :
    (natText n).foldl (fun v d => 10*v + (d.toNat - 48)) v = 10*v + n := by
  rw [natText, foldl_digitByte _ fun c hc => Nat.isDigit_of_mem_toDigits (by decide) (by decide) hc,
    Nat.toDigits_of_lt_base h, Nat.ofDigitChars_cons_digitChar_of_lt_ten h, Nat.ofDigitChars_nil]

theorem digitsValue_natText (n : ℕ) : digitsValue (natText n) = n := by
  rw [digitsValue, natText,
    foldl_digitByte _ fun c hc => Nat.isDigit_of_mem_toDigits (by decide) (by decide) hc]
  exact Nat.ofDigitChars_ten_toDigits

theorem isDigit_of_mem_padText {w n : ℕ} {b : UInt8} (h : b ∈ padText w n) : isDigit b := by
  induction w generalizing n with
  | zero => simp [padText] at h
  | succ w ih =>
    rcases List.mem_append.1 h with h | h
    · exact ih h
    · exact isDigit_of_mem_natText h

theorem natText_length {n : ℕ} (h : n < 10) : (natText n).length = 1 := by
  simp [natText, Nat.toDigits_of_lt_base h]

theorem padText_length (w n : ℕ) : (padText w n).length = w := by
  induction w generalizing n with
  | zero => rfl
  | succ w ih => simp [padText, ih, natText_length (Nat.mod_lt n (by decide))]

theorem digitsValue_padText (w n : ℕ) : digitsValue (padText w n) = n % 10^w := by
  induction w generalizing n with
  | zero => simp [padText, digitsValue, Nat.mod_one]
  | succ w ih =>
    have hlow : n % 10 < 10 := Nat.mod_lt n (by decide)
    have hi := ih (n/10)
    simp only [digitsValue] at hi
    rw [padText, digitsValue, List.foldl_append, hi, foldl_natText _ _ hlow, pow_succ, mul_comm,
      Nat.mul_comm (10^w) 10, Nat.mod_mul]
    ring

theorem takeWhile_digits {ds rest : Bytes} (hd : ∀ b ∈ ds, isDigit b)
    (hr : ∀ b ∈ rest.head?, isDigit b = false) : (ds ++ rest).takeWhile isDigit = ds := by
  rw [List.takeWhile_append_of_pos hd]
  cases rest with
  | nil => simp
  | cons b bs => simp [hr b rfl]

theorem dropWhile_digits {ds rest : Bytes} (hd : ∀ b ∈ ds, isDigit b)
    (hr : ∀ b ∈ rest.head?, isDigit b = false) : (ds ++ rest).dropWhile isDigit = rest := by
  rw [List.dropWhile_append_of_pos hd]
  cases rest with
  | nil => simp
  | cons b bs => simp [hr b rfl]

theorem ne_of_digit {b x : UInt8} (hb : isDigit b) (hx : isDigit x = false) : b ≠ x := by
  rintro rfl
  simp [hb] at hx

theorem not_space_of_digit {b : UInt8} (h : isDigit b) : isSpace b = false := by
  simp only [isDigit, isSpace, Bool.and_eq_true, decide_eq_true_eq, UInt8.le_iff_toNat_le,
    Bool.or_eq_false_iff, beq_eq_false_iff_ne, Bool.and_eq_false_iff, decide_eq_false_iff_not] at h ⊢
  refine ⟨?_, ?_⟩
  · rintro rfl; exact absurd h.1 (by decide)
  · right
    have h1 : 48 ≤ b.toNat := h.1
    change ¬ b.toNat ≤ 13
    omega

theorem nulFree_natText (n : ℕ) : NulFree (natText n) :=
  fun h => absurd (isDigit_of_mem_natText h) (by decide)

theorem nulFree_intText (i : ℤ) : NulFree (intText i) := by
  rw [intText]
  split_ifs
  · exact nulFree_cons.2 ⟨by decide, nulFree_natText _⟩
  · exact nulFree_natText _

theorem readSign_digit {b : UInt8} (h : isDigit b) (bs : Bytes) :
    readSign (b :: bs) = (false, b :: bs) := by
  have hm : b ≠ minus := by rintro rfl; exact absurd h (by decide)
  have hp : b ≠ 43 := by rintro rfl; exact absurd h (by decide)
  simp [readSign, hm, hp]

theorem readSign_signed (neg : Bool) {b : UInt8} (hb : isDigit b) (bs : Bytes) :
    readSign ((if neg then minus :: b :: bs else b :: bs).dropWhile isSpace) = (neg, b :: bs) := by
  have hspace : isSpace minus = false := rfl
  cases neg with
  | false => simp [not_space_of_digit hb, readSign_digit hb]
  | true => simp [readSign, hspace]

theorem readSign_numeral (neg : Bool) (n : ℕ) (rest : Bytes) :
    readSign ((if neg then minus :: (natText n ++ rest) else natText n ++ rest).dropWhile isSpace) =
      (neg, natText n ++ rest) := by
  obtain ⟨d, ds, hds⟩ := List.exists_cons_of_ne_nil (natText_ne_nil n)
  have hd : isDigit d := isDigit_of_mem_natText (n := n) (by simp [hds])
  rw [hds]
  exact readSign_signed neg hd (ds ++ rest)

theorem atoi_intText (i : ℤ) : atoi (intText i) = i := by
  have hs := readSign_numeral (decide (i < 0)) i.natAbs []
  simp only [decide_eq_true_eq, List.append_nil] at hs
  have ht : (natText i.natAbs).takeWhile isDigit = natText i.natAbs :=
    List.takeWhile_eq_self_iff.2 fun b hb => isDigit_of_mem_natText hb
  simp only [atoi, intText, hs, ht, digitsValue_natText, decide_eq_true_eq]
  split_ifs <;> omega

theorem readFraction_fixed (scale n : ℕ) :
    readFraction (if scale = 0 then [] else point :: padText scale n) = padText scale n := by
  split_ifs with h
  · subst h; rfl
  · simpa [readFraction] using
      List.takeWhile_eq_self_iff.2 fun b hb => isDigit_of_mem_padText hb

theorem atof_fixedText (scale : ℕ) (u : ℤ) : atof (fixedText scale u) = u / 10^scale := by
  have hs := readSign_numeral (decide (u < 0)) (u.natAbs / 10^scale)
    (if scale = 0 then [] else point :: padText scale u.natAbs)
  simp only [decide_eq_true_eq] at hs
  have hr : ∀ b ∈ (if scale = 0 then [] else point :: padText scale u.natAbs : Bytes).head?,
      isDigit b = false := by
    split_ifs <;> simp [show isDigit point = false by decide]
  have hd : ∀ b ∈ natText (u.natAbs / 10^scale), isDigit b := fun b => isDigit_of_mem_natText
  simp only [atof, fixedText, hs, takeWhile_digits hd hr, dropWhile_digits hd hr,
    readFraction_fixed, padText_length, digitsValue_natText, digitsValue_padText, decide_eq_true_eq]
  have hdiv : ((u.natAbs / 10^scale : ℕ) : ℚ) + ((u.natAbs % 10^scale : ℕ) : ℚ) / 10^scale =
      (u.natAbs : ℚ) / 10^scale := by
    have h := Nat.div_add_mod u.natAbs (10^scale)
    have hq : ((10:ℚ)^scale) * ((u.natAbs / 10^scale : ℕ) : ℚ) + ((u.natAbs % 10^scale : ℕ) : ℚ) =
        (u.natAbs : ℚ) := by exact_mod_cast h
    field_simp
    linarith
  rw [hdiv, Nat.cast_natAbs]
  split_ifs with h
  · rw [abs_of_neg h, Int.cast_neg]
    ring
  · rw [abs_of_nonneg (le_of_not_gt h)]

theorem lookup_of_mem {β : Type*} {l : List (Bytes × β)} (hd : (l.map Prod.fst).Nodup) {k : Bytes}
    {v : β} (h : (k, v) ∈ l) : l.lookup k = some v := by
  obtain ⟨front, rest, rfl⟩ := List.append_of_mem h
  rw [List.lookup_eq_some_iff]
  refine ⟨front, rest, rfl, fun p hp => bne_iff_ne.2 fun he => ?_⟩
  rw [List.map_append, List.nodup_append] at hd
  exact hd.2.2 p.1 (List.mem_map_of_mem hp) k (by simp) he.symm

end ByteText
