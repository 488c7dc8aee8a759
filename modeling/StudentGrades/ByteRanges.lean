import StudentGrades.IntervalUnion
import StudentGrades.QueryParams

/-!
# Byte ranges of a page

A request can ask for parts of a page by the positions of their bytes. The server
checks them against the page, sorts them and puts touching ones together; it refuses too many,
ranges outside of the page and overlaps that are too many. What it serves covers the positions
that were asked for, and no others.
-/

namespace StudentGrades
open ByteText IntervalUnion

namespace Httplib

/-- First and last position, `-1` for one that is not given. -/
abbrev ByteRange := ℤ × ℤ

def rangeMaxCount : ℕ := 1024

/-- `stoll`, which throws beyond its type. -/
def stoll (digits : Bytes) : Option ℤ :=
  if digitsValue digits < 2^63 then some (digitsValue digits) else none

def readPosition (s : Bytes) : Option ℤ :=
  if !s.all isDigit then none else if s = [] then some (-1) else stoll s

def readRange (part : Bytes) : Option ByteRange :=
  if !part.contains 45 then none
  else
    let (lhs, rhs) := divide 45 part
    match readPosition lhs, readPosition rhs with
    | some first, some last =>
      if (first = -1 ∧ last = -1) ∨ (first ≠ -1 ∧ last ≠ -1 ∧ last < first) then none
      else some (first, last)
    | _, _ => none

def parseRangeHeader (s : Bytes) : Option (List ByteRange) :=
  if 7 < s.length ∧ (utf8 "bytes=").isPrefixOf s then
    match (split 44 (s.drop 6)).mapM readRange with
    | some [] => none
    | ranges => ranges
  else none

def writePosition (i : ℤ) : Bytes := if i = -1 then [] else natText i.toNat

def writeRange (r : ByteRange) : Bytes := writePosition r.1 ++ 45 :: writePosition r.2

def writeRanges (ranges : List ByteRange) : Bytes :=
  utf8 "bytes=" ++ List.intercalate [44] (ranges.map writeRange)

structure Writable (r : ByteRange) : Prop where
  first : -1 ≤ r.1 ∧ r.1 < 2^63
  last : -1 ≤ r.2 ∧ r.2 < 2^63
  given : ¬(r.1 = -1 ∧ r.2 = -1)
  ordered : r.1 ≤ r.2 ∨ r.2 = -1

theorem digit_of_mem_writePosition {i : ℤ} {b : UInt8} (h : b ∈ writePosition i) : isDigit b := by
  rw [writePosition] at h
  split_ifs at h
  · cases h
  · exact isDigit_of_mem_natText h

theorem readPosition_write {i : ℤ} (h : -1 ≤ i ∧ i < 2^63) : readPosition (writePosition i) = some i := by
  have hdigits : (writePosition i).all isDigit = true :=
    List.all_eq_true.2 fun b hb => digit_of_mem_writePosition hb
  rw [readPosition, hdigits, if_neg (by simp), writePosition]
  by_cases hi : i = -1
  · simp [hi]
  · have hvalue : ((i.toNat : ℕ) : ℤ) = i := by omega
    rw [if_neg hi, if_neg (natText_ne_nil _), stoll, digitsValue_natText, if_pos (by omega), hvalue]

theorem readRange_write {r : ByteRange} (h : Writable r) : readRange (writeRange r) = some r := by
  have hminus : (45 : UInt8) ∉ writePosition r.1 := fun hx =>
    absurd (digit_of_mem_writePosition hx) (by decide)
  have hdivide : divide 45 (writeRange r) = (writePosition r.1, writePosition r.2) := divide_append hminus _
  have hbad : ¬((r.1 = -1 ∧ r.2 = -1) ∨ (r.1 ≠ -1 ∧ r.2 ≠ -1 ∧ r.2 < r.1)) := by
    have hgiven := h.given
    have hordered := h.ordered
    omega
  rw [readRange, if_neg (by simp [writeRange]), hdivide]
  dsimp only
  rw [readPosition_write h.first, readPosition_write h.last]
  dsimp only
  rw [if_neg hbad]

theorem writeRange_bytes {r : ByteRange} {b : UInt8} (h : b ∈ writeRange r) : isDigit b ∨ b = 45 := by
  rw [writeRange, List.mem_append, List.mem_cons] at h
  rcases h with h | h | h
  · exact .inl (digit_of_mem_writePosition h)
  · exact .inr h
  · exact .inl (digit_of_mem_writePosition h)

theorem writeRange_length {r : ByteRange} (h : Writable r) : 2 ≤ (writeRange r).length := by
  have hpos (i : ℤ) (hi : i ≠ -1) : 0 < (writePosition i).length := by
    rw [writePosition, if_neg hi]
    exact List.length_pos_iff.2 (natText_ne_nil _)
  rw [writeRange, List.length_append, List.length_cons]
  by_cases hfirst : r.1 = -1
  · have hlast := hpos r.2 fun he => h.given ⟨hfirst, he⟩
    omega
  · have hfirst := hpos r.1 hfirst
    omega

theorem mapM_writeRange {ranges : List ByteRange} (h : ∀ r ∈ ranges, Writable r) :
    (ranges.map writeRange).mapM readRange = some ranges := by
  induction ranges with
  | nil => rfl
  | cons r ranges ih =>
    obtain ⟨hr, hrest⟩ := List.forall_mem_cons.1 h
    rw [List.map_cons, List.mapM_cons, readRange_write hr, ih hrest]
    rfl

theorem parseRangeHeader_write {ranges : List ByteRange} (hne : ranges ≠ []) (h : ∀ r ∈ ranges, Writable r) :
    parseRangeHeader (writeRanges ranges) = some ranges := by
  obtain ⟨r, rest, rfl⟩ := List.exists_cons_of_ne_nil hne
  have hlen : 2 ≤ (List.intercalate [44] ((r :: rest).map writeRange)).length := by
    have hr := writeRange_length (h r (by simp))
    cases rest with
    | nil => simpa [List.intercalate] using hr
    | cons s rest =>
      simp only [List.map_cons, List.intercalate_cons_cons, List.length_append]
      omega
  have hsplit : split 44 (List.intercalate [44] ((r :: rest).map writeRange)) = (r :: rest).map writeRange := by
    refine split_intercalate (by simp) (List.forall_mem_map.2 fun s _ => ⟨by simp [writeRange], ?_, ?_⟩)
    · exact fun hx => absurd (writeRange_bytes hx) (by decide)
    · intro x hx
      rcases writeRange_bytes hx with hdigit | rfl
      · exact not_blank_of_digit hdigit
      · rfl
  have hlong : 7 < (writeRanges (r :: rest)).length := by
    rw [writeRanges, List.length_append, show (utf8 "bytes=").length = 6 from rfl]
    omega
  have hrest : (writeRanges (r :: rest)).drop 6 = List.intercalate [44] ((r :: rest).map writeRange) :=
    List.drop_left' rfl
  rw [parseRangeHeader, if_pos ⟨hlong, by simp [writeRanges]⟩, hrest, hsplit, mapM_writeRange h]

/-- The positions as they are in a content of length `len`. -/
def placed (len : ℤ) (r : ByteRange) : ByteRange :=
  let (first, last) := if r.1 = -1 ∧ r.2 = -1 then (0, len) else r
  let (first, last) := if first = -1 then (len - last, len - 1) else (first, last)
  if last = -1 ∨ len ≤ last then (first, len - 1) else (first, last)

def within (len : ℤ) (r : ByteRange) : Bool := 0 ≤ r.1 && r.1 ≤ r.2 && r.2 ≤ len - 1

def overlaps (r processed : ByteRange) : Bool := !(r.2 < processed.1 || processed.2 < r.1)

def checkRanges (len : ℤ) : List ByteRange → List ByteRange → ℕ → Option (List ByteRange)
  | [], processed, _ => some processed
  | r :: ranges, processed, overlapping =>
    let r := placed len r
    if !within len r then none
    else
      let overlapping := if processed.any (overlaps r) then overlapping + 1 else overlapping
      if 2 < overlapping then none else checkRanges len ranges (processed ++ [r]) overlapping

/-- The order of ranges that start together is the library's. -/
structure RangeSort where
  sort : List ByteRange → List ByteRange
  perm : ∀ ranges, (sort ranges).Perm ranges
  sorted : ∀ ranges, (sort ranges).Pairwise fun a b => a.1 ≤ b.1

def startsFirst (a b : ByteRange) : Bool := a.1 ≤ b.1

theorem mergeSort_startsFirst (ranges : List ByteRange) :
    (ranges.mergeSort startsFirst).Pairwise fun a b => a.1 ≤ b.1 := by
  have htrans : ∀ a b c, startsFirst a b → startsFirst b c → startsFirst a c := by
    simp only [startsFirst, decide_eq_true_eq]
    omega
  have htotal : ∀ a b, (startsFirst a b || startsFirst b a) = true := by
    simp only [startsFirst, Bool.or_eq_true, decide_eq_true_eq]
    omega
  simpa [startsFirst] using List.pairwise_mergeSort htrans htotal ranges

def RangeSort.stable : RangeSort where
  sort ranges := ranges.mergeSort startsFirst
  perm ranges := List.mergeSort_perm ranges startsFirst
  sorted := mergeSort_startsFirst

/-- Touching ranges are put together, identical ones are not. -/
def apart (prev r : ByteRange) : Bool := !(r.1 ≤ prev.2 + 1 && !(r == prev))

def coalesceStep (len : ℤ) (coalesced : List ByteRange) (r : ByteRange) : List ByteRange :=
  let r := placed len r
  if !within len r then coalesced else absorb apart coalesced r

def coalesceRanges (rangeSort : RangeSort) (len : ℤ) (ranges : List ByteRange) : List ByteRange :=
  if ranges.length ≤ 1 then ranges
  else ((rangeSort.sort ranges).foldl (coalesceStep len) []).reverse

def servedRanges (rangeSort : RangeSort) (len : ℤ) (ranges : List ByteRange) : Option (List ByteRange) :=
  if rangeMaxCount < ranges.length then none
  else (checkRanges len ranges [] 0).map (coalesceRanges rangeSort len)

theorem readRange_given {part : Bytes} {r : ByteRange} (h : readRange part = some r) :
    ¬(r.1 = -1 ∧ r.2 = -1) := by
  rw [readRange] at h
  split_ifs at h
  dsimp only at h
  split at h
  · split_ifs at h with hempty
    cases h
    exact fun hboth => hempty (.inl hboth)
  · cases h

theorem mem_of_mapM {α β : Type*} {f : α → Option β} {l : List α} {ys : List β} (h : l.mapM f = some ys) :
    ∀ y ∈ ys, ∃ a ∈ l, f a = some y := by
  induction l generalizing ys with
  | nil =>
    cases h
    simp
  | cons a l ih =>
    rw [List.mapM_cons] at h
    obtain ⟨b, hb, hrest⟩ := Option.bind_eq_some_iff.1 h
    obtain ⟨bs, hbs, hys⟩ := Option.bind_eq_some_iff.1 hrest
    cases hys
    refine List.forall_mem_cons.2 ⟨⟨a, by simp, hb⟩, fun y hy => ?_⟩
    obtain ⟨x, hx, hfx⟩ := ih hbs y hy
    exact ⟨x, by simp [hx], hfx⟩

theorem parseRangeHeader_given {s : Bytes} {ranges : List ByteRange} (h : parseRangeHeader s = some ranges) :
    ranges ≠ [] ∧ ∀ r ∈ ranges, ¬(r.1 = -1 ∧ r.2 = -1) := by
  rw [parseRangeHeader] at h
  split_ifs at h
  split at h
  · cases h
  · next hne =>
    refine ⟨fun he => hne (he ▸ h), fun r hr => ?_⟩
    obtain ⟨part, -, hpart⟩ := mem_of_mapM h r hr
    exact readRange_given hpart

theorem servedRanges_nil (rangeSort : RangeSort) (len : ℤ) : servedRanges rangeSort len [] = some [] := rfl

/-- What a range asks for: the last bytes, or those from a first one on, to a last one if there is one. -/
def Asks (len : ℤ) (r : ByteRange) (p : ℤ) : Prop :=
  0 ≤ p ∧ p < len ∧ if r.1 = -1 then len - r.2 ≤ p else r.1 ≤ p ∧ (r.2 = -1 ∨ p ≤ r.2)

theorem within_iff {len : ℤ} {r : ByteRange} : within len r ↔ 0 ≤ r.1 ∧ r.1 ≤ r.2 ∧ r.2 ≤ len - 1 := by
  simp [within, and_assoc]

theorem placed_asks {len : ℤ} {r : ByteRange} (hgiven : ¬(r.1 = -1 ∧ r.2 = -1))
    (hr : within len (placed len r)) (p : ℤ) :
    (placed len r).1 ≤ p ∧ p ≤ (placed len r).2 ↔ Asks len r p := by
  rw [within_iff] at hr
  simp only [placed, Asks, if_neg hgiven] at hr ⊢
  split_ifs at hr ⊢ <;> dsimp only at hr ⊢ <;> omega

theorem placed_within {len : ℤ} {r : ByteRange} (hr : within len r) : placed len r = r := by
  rw [within_iff] at hr
  have hfirst : r.1 ≠ -1 := by omega
  have hlast : ¬(r.2 = -1 ∨ len ≤ r.2) := by omega
  simp only [placed, hfirst, hlast, false_and, if_false]

theorem checkRanges_some {len : ℤ} {ranges processed rs : List ByteRange} {overlapping : ℕ}
    (h : checkRanges len ranges processed overlapping = some rs) :
    rs = processed ++ ranges.map (placed len) ∧ ∀ r ∈ ranges, within len (placed len r) := by
  induction ranges generalizing processed overlapping with
  | nil =>
    cases h
    simp
  | cons r ranges ih =>
    simp only [checkRanges] at h
    split_ifs at h with hwithin hcount hcount
    · obtain ⟨rfl, hall⟩ := ih h
      exact ⟨by simp, List.forall_mem_cons.2 ⟨by simpa using hwithin, hall⟩⟩
    · obtain ⟨rfl, hall⟩ := ih h
      exact ⟨by simp, List.forall_mem_cons.2 ⟨by simpa using hwithin, hall⟩⟩

theorem checkRanges_disjoint {len : ℤ} {ranges processed : List ByteRange} {overlapping : ℕ}
    (hwithin : ∀ r ∈ ranges, within len (placed len r))
    (hdisjoint : (processed ++ ranges.map (placed len)).Pairwise fun a b => overlaps b a = false)
    (hfew : overlapping ≤ 2) :
    checkRanges len ranges processed overlapping = some (processed ++ ranges.map (placed len)) := by
  induction ranges generalizing processed with
  | nil => simp [checkRanges]
  | cons r ranges ih =>
    obtain ⟨hr, hrest⟩ := List.forall_mem_cons.1 hwithin
    have hnone : processed.any (overlaps (placed len r)) = false := by
      rw [List.any_eq_false]
      intro p hp
      simpa using (List.pairwise_append.1 hdisjoint).2.2 p hp (placed len r) (by simp)
    have hnext := @ih (processed ++ [placed len r]) hrest (by simpa using hdisjoint)
    simp only [checkRanges, hr, hnone, Bool.not_true, Bool.false_eq_true, if_false, if_neg (not_lt.2 hfew), hnext]
    simp

theorem coalesce_eq {len : ℤ} {ranges : List ByteRange} (h : ∀ r ∈ ranges, within len r)
    (coalesced : List ByteRange) :
    ranges.foldl (coalesceStep len) coalesced = ranges.foldl (absorb apart) coalesced := by
  refine List.foldl_ext _ _ _ fun coalesced r hr => ?_
  simp only [coalesceStep, placed_within (h r hr), h r hr]
  rfl

theorem apart_touching (prev r : ByteRange) (h : apart prev r = false) : r.1 ≤ prev.2 + 1 := by
  simp only [apart, Bool.not_eq_false', Bool.and_eq_true, decide_eq_true_eq] at h
  exact h.1

theorem coalesceRanges_spec (rangeSort : RangeSort) {len : ℤ} {ranges : List ByteRange}
    (h : ∀ r ∈ ranges, within len r) :
    covered (coalesceRanges rangeSort len ranges) = covered ranges ∧
      (∀ r ∈ coalesceRanges rangeSort len ranges, within len r) ∧
        (ranges ≠ [] → coalesceRanges rangeSort len ranges ≠ []) := by
  rw [coalesceRanges]
  split_ifs with hone
  · exact ⟨rfl, h, id⟩
  · have hperm := rangeSort.perm ranges
    have hwithin : ∀ r ∈ rangeSort.sort ranges, within len r := fun r hr => h r (hperm.mem_iff.1 hr)
    have hcovered := @covered_absorbAll apart apart_touching _ (rangeSort.sorted ranges) [] (by simp)
    have hbounds := @bounds_absorbAll apart 0 (len - 1) _ [] (fun r hr => within_iff.1 (hwithin r hr))
      (List.forall_mem_nil _)
    rw [coalesce_eq hwithin]
    refine ⟨?_, fun r hr => within_iff.2 (hbounds r (List.mem_reverse.1 hr)), fun hne => ?_⟩
    · rw [covered_perm (List.reverse_perm _), hcovered, covered_perm hperm]
      simp [covered]
    · have hsort : rangeSort.sort ranges ≠ [] := fun he => hne (List.perm_nil.1 (he ▸ hperm).symm)
      simpa using absorbAll_ne_nil (.inl hsort)

theorem servedRanges_disjoint (rangeSort : RangeSort) {len : ℤ} {ranges : List ByteRange}
    (hcount : ranges.length ≤ rangeMaxCount) (hwithin : ∀ r ∈ ranges, within len (placed len r))
    (hdisjoint : (ranges.map (placed len)).Pairwise fun a b => overlaps b a = false) :
    servedRanges rangeSort len ranges = some (coalesceRanges rangeSort len (ranges.map (placed len))) := by
  rw [servedRanges, if_neg (not_lt.2 hcount), checkRanges_disjoint hwithin hdisjoint (Nat.zero_le _)]
  rfl

theorem servedRanges_spec (rangeSort : RangeSort) {len : ℤ} {ranges served : List ByteRange}
    (hgiven : ∀ r ∈ ranges, ¬(r.1 = -1 ∧ r.2 = -1)) (h : servedRanges rangeSort len ranges = some served) :
    (∀ p, p ∈ covered served ↔ ∃ r ∈ ranges, Asks len r p) ∧ (∀ r ∈ served, within len r) ∧
      (ranges ≠ [] → served ≠ []) := by
  rw [servedRanges] at h
  split_ifs at h
  obtain ⟨rs, hchecked, rfl⟩ := Option.map_eq_some_iff.1 h
  obtain ⟨rfl, hwithin⟩ := checkRanges_some hchecked
  rw [List.nil_append]
  obtain ⟨hcovered, hall, hne⟩ := coalesceRanges_spec rangeSort (List.forall_mem_map.2 hwithin)
  refine ⟨fun p => ?_, hall, fun hranges => hne (by simpa using hranges)⟩
  rw [hcovered, mem_covered]
  simp only [List.mem_map, exists_exists_and_eq_and]
  exact exists_congr fun r => and_congr_right fun hr => placed_asks (hgiven r hr) (hwithin r hr) p

end Httplib
end StudentGrades
