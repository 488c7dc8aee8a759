import StudentGrades.ByteText

/-!
# Form encoding of query values

A browser sends a form value with its unreserved bytes kept, a space as a plus
sign and every other byte as a percent sign and two hexadecimal digits. Which
bytes are unreserved differs between descriptions; all of them keep only letters,
digits and a few marks.
-/

namespace FormEncoding
open ByteText

def percent : UInt8 := 37
def plus : UInt8 := 43
def ampersand : UInt8 := 38
def space : UInt8 := 32

def isAlnum (b : UInt8) : Bool :=
  (48 ≤ b && b ≤ 57) || (65 ≤ b && b ≤ 90) || (97 ≤ b && b ≤ 122)

def unreserved (b : UInt8) : Bool := isAlnum b || b == 42 || b == 45 || b == 46 || b == 95 || b == 126

structure Kept where
  keep : UInt8 → Bool
  unreserved : ∀ b, keep b → unreserved b

/-- The bytes kept by the form submission of browsers. -/
def Kept.form : Kept where
  keep b := isAlnum b || b == 42 || b == 45 || b == 46 || b == 95
  unreserved b h := by simp only [FormEncoding.unreserved, h, Bool.true_or]

def hexDigit (n : ℕ) : UInt8 := UInt8.ofNat (if n < 10 then 48 + n else 55 + n)

def Kept.encodeByte (k : Kept) (b : UInt8) : Bytes :=
  if k.keep b then [b]
  else if b = space then [plus]
  else [percent, hexDigit (b.toNat / 16), hexDigit (b.toNat % 16)]

def Kept.urlencode (k : Kept) (c : Bytes) : Bytes := c.flatMap k.encodeByte

theorem Kept.keep_ne {k : Kept} {b x : UInt8} (h : k.keep b) (hx : FormEncoding.unreserved x = false) :
    b ≠ x := by
  rintro rfl
  simp [k.unreserved b h] at hx

theorem isAlnum_hexDigit : ∀ n < 16, isAlnum (hexDigit n) := by decide

theorem Kept.mem_urlencode {k : Kept} {c : Bytes} {x : UInt8} (h : x ∈ k.urlencode c) :
    FormEncoding.unreserved x ∨ x = plus ∨ x = percent := by
  obtain ⟨b, -, hx⟩ := List.mem_flatMap.1 h
  have hb := b.toNat_lt
  have hhex (n : ℕ) (hn : n < 16) : FormEncoding.unreserved (hexDigit n) := by
    simp [FormEncoding.unreserved, isAlnum_hexDigit n hn]
  rw [encodeByte] at hx
  split_ifs at hx with hkeep
  · rw [List.mem_singleton] at hx
    exact .inl (hx ▸ k.unreserved b hkeep)
  · exact .inr (.inl (List.mem_singleton.1 hx))
  · simp only [List.mem_cons, List.not_mem_nil, or_false] at hx
    rcases hx with rfl | rfl | rfl
    · exact .inr (.inr rfl)
    · exact .inl (hhex _ (by omega))
    · exact .inl (hhex _ (by omega))

theorem Kept.not_mem_urlencode (k : Kept) (c : Bytes) {x : UInt8}
    (hx : FormEncoding.unreserved x = false) (hplus : x ≠ plus) (hpercent : x ≠ percent) :
    x ∉ k.urlencode c := by
  intro h
  rcases k.mem_urlencode h with hu | hp | hp
  · simp [hu] at hx
  · exact hplus hp
  · exact hpercent hp

theorem Kept.length_le_urlencode (k : Kept) (c : Bytes) : c.length ≤ (k.urlencode c).length := by
  induction c with
  | nil => simp
  | cons b c ih =>
    have hb : 1 ≤ (k.encodeByte b).length := by
      rw [encodeByte]
      split_ifs <;> simp
    simp only [urlencode] at ih
    simp only [urlencode, List.flatMap_cons, List.length_append, List.length_cons]
    omega

theorem Kept.urlencode_length_le (k : Kept) (c : Bytes) : (k.urlencode c).length ≤ 3 * c.length := by
  induction c with
  | nil => simp [urlencode]
  | cons b c ih =>
    have hb : (k.encodeByte b).length ≤ 3 := by
      rw [encodeByte]
      split_ifs <;> simp
    simp only [urlencode] at ih
    simp only [urlencode, List.flatMap_cons, List.length_append, List.length_cons]
    omega

theorem Kept.urlencode_eq_self_iff (k : Kept) (c : Bytes) :
    k.urlencode c = c ↔ ∀ b ∈ c, k.keep b := by
  induction c with
  | nil => simp [urlencode]
  | cons b c ih =>
    simp only [urlencode] at ih
    have hlen := k.length_le_urlencode c
    rw [urlencode, List.flatMap_cons, List.forall_mem_cons, encodeByte]
    split_ifs with hkeep hspace
    · simp [hkeep, ih]
    · exact iff_of_false (by simp [hspace, plus, space]) (by simp [hkeep])
    · refine iff_of_false (fun h => ?_) (by simp [hkeep])
      have hl := congrArg List.length h
      simp only [urlencode] at hlen
      simp only [List.length_append, List.length_cons, List.length_nil] at hl
      omega

end FormEncoding
