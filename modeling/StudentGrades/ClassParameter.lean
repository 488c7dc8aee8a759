import StudentGrades.QueryParams

/-!
# The class parameter among others

The second entry looks for the text `class=` and not for a parameter of that key.
The first parameter that contains the text decides: its own key may only end in
`class`, and the text may stand inside a value.
-/

namespace StudentGrades
open ByteText FormEncoding

namespace MainD

section Search
variable {pat word : Bytes} {b c : UInt8} {bs : Bytes}

theorem findAfter_of_start (h : pat <+: b :: bs) :
    findAfter pat (b :: bs) = some ((b :: bs).drop pat.length) := by
  rw [findAfter, if_pos (List.isPrefixOf_iff_prefix.2 h)]

theorem findAfter_of_not_start (h : ¬ pat <+: b :: bs) :
    findAfter pat (b :: bs) = findAfter pat bs := by
  rw [findAfter, if_neg (fun hp => h (List.isPrefixOf_iff_prefix.1 hp))]

theorem findAfter_eq_none_iff (hpat : pat ≠ []) (text : Bytes) :
    findAfter pat text = none ↔ ¬ pat <:+: text := by
  induction text with
  | nil => simp [findAfter, hpat]
  | cons b bs ih =>
    rw [List.infix_cons_iff]
    by_cases hpre : pat <+: b :: bs
    · simp [findAfter_of_start hpre, hpre]
    · simp [findAfter_of_not_start hpre, hpre, ih]

theorem findAfter_eq_some_iff (text rest : Bytes) :
    findAfter (word ++ [c]) text = some rest ↔
      ∃ front, text = front ++ (word ++ c :: rest) ∧ ¬ word ++ [c] <:+: front ++ word := by
  induction text with
  | nil => simp [findAfter]
  | cons b bs ih =>
    by_cases hpre : word ++ [c] <+: b :: bs
    · obtain ⟨tail, htail⟩ := id hpre
      rw [findAfter_of_start hpre, ← htail, List.drop_left, Option.some.injEq]
      constructor
      · intro h
        refine ⟨[], by simp [h], fun hin => ?_⟩
        have hlen := hin.length_le
        simp only [List.nil_append, List.length_append, List.length_singleton] at hlen
        omega
      · intro ⟨front, hfront, hfirst⟩
        cases front with
        | nil => simpa using hfront
        | cons f front =>
          -- the occurrence at the very front ends before the one behind `f :: front`
          have hother : f :: front ++ word <+: b :: bs := ⟨c :: rest, by simp [← htail, hfront]⟩
          have hshort : word ++ [c] <+: f :: front ++ word :=
            List.prefix_of_prefix_length_le hpre hother (by simp)
          exact absurd hshort.isInfix hfirst
    · rw [findAfter_of_not_start hpre, ih]
      constructor
      · intro ⟨front, hfront, hfirst⟩
        refine ⟨b :: front, by simp [hfront], fun hin => ?_⟩
        rcases List.infix_cons_iff.1 hin with hp | hi
        · exact hpre (hp.trans ⟨c :: rest, by simp [hfront]⟩)
        · exact hfirst hi
      · intro ⟨front, hfront, hfirst⟩
        cases front with
        | nil => exact absurd ⟨rest, by simp [hfront]⟩ hpre
        | cons f front =>
          obtain ⟨rfl, hbs⟩ := List.cons.inj hfront
          exact ⟨front, hbs, fun hin => hfirst (List.infix_cons hin)⟩

theorem findAfter_append (hpat : pat ≠ []) (hc : c ∉ pat) (xs ys : Bytes) :
    findAfter pat (xs ++ c :: ys) =
      match findAfter pat xs with
      | some rest => some (rest ++ c :: ys)
      | none => findAfter pat ys := by
  induction xs with
  | nil =>
    have hpre : ¬ pat <+: c :: ys := by
      obtain ⟨p, ps, rfl⟩ := List.exists_cons_of_ne_nil hpat
      intro h
      obtain ⟨rfl, -⟩ := List.cons_prefix_cons.1 h
      exact hc (by simp)
    rw [List.nil_append, findAfter_of_not_start hpre]
    simp [findAfter, hpat]
  | cons x xs ih =>
    rw [List.cons_append]
    by_cases hpre : pat <+: x :: xs
    · have hlong : pat <+: x :: (xs ++ c :: ys) := hpre.trans ⟨c :: ys, rfl⟩
      rw [findAfter_of_start hlong, findAfter_of_start hpre]
      have hdrop : (x :: xs ++ c :: ys).drop pat.length = (x :: xs).drop pat.length ++ c :: ys :=
        List.drop_append_of_le_length hpre.length_le
      exact congrArg some hdrop
    · have hlong : ¬ pat <+: x :: (xs ++ c :: ys) := by
        intro h
        rcases List.prefix_or_prefix_of_prefix h (⟨c :: ys, rfl⟩ : x :: xs <+: _) with hp | ⟨t, rfl⟩
        · exact hpre hp
        · cases t with
          | nil => exact hpre (by simp)
          | cons d t =>
            have hd := (List.prefix_append_right_inj (x :: xs)).1 (h : _ <+: x :: xs ++ c :: ys)
            obtain ⟨rfl, -⟩ := List.cons_prefix_cons.1 hd
            exact hc (by simp)
      rw [findAfter_of_not_start hlong, findAfter_of_not_start hpre, ih]

theorem eq_of_first_occurrence {xs ys rest : Bytes} (hxs : c ∉ xs) (hys : c ∉ ys)
    (h : xs ++ [c] <+: ys ++ c :: rest) : xs = ys := by
  induction xs generalizing ys with
  | nil =>
    cases ys with
    | nil => rfl
    | cons y ys => exact absurd (List.cons_prefix_cons.1 h).1 (fun he => hys (by simp [he]))
  | cons x xs ih =>
    cases ys with
    | nil => exact absurd (List.cons_prefix_cons.1 h).1 (fun he => hxs (by simp [he]))
    | cons y ys =>
      obtain ⟨rfl, ht⟩ := List.cons_prefix_cons.1 h
      simp only [List.mem_cons, not_or] at hxs hys
      rw [ih hxs.2 hys.2 ht]

theorem findAfter_last (hword : c ∉ word) {xs : Bytes} (hxs : c ∉ xs) (ys : Bytes) :
    findAfter (word ++ [c]) (xs ++ c :: ys) =
      if word <:+ xs then some ys else findAfter (word ++ [c]) ys := by
  split_ifs with hend
  · obtain ⟨stem, rfl⟩ := hend
    rw [findAfter_eq_some_iff]
    exact ⟨stem, by simp, fun hin => hxs (hin.subset (by simp))⟩
  · have hpre : ¬ word ++ [c] <+: xs ++ c :: ys :=
      fun h => hend ⟨[], eq_of_first_occurrence hword hxs h⟩
    induction xs with
    | nil => exact findAfter_of_not_start hpre
    | cons x xs ih =>
      have hxs' : c ∉ xs := fun h => hxs (by simp [h])
      have hend' : ¬ word <:+ xs := fun h => hend (h.trans (List.suffix_cons x xs))
      refine (findAfter_of_not_start hpre).trans (ih hxs' hend' fun h =>
        hend' ⟨[], eq_of_first_occurrence hword hxs' h⟩)

end Search

def equals : UInt8 := 61

def keyByte (b : UInt8) : Bool :=
  b != 0 && b != ampersand && b != equals && b != percent && b != plus

def valueByte (b : UInt8) : Bool := b != 0 && b != ampersand && b != percent && b != plus

/-- A parameter of a query string, which is a C string; nothing in it is URL-encoded. -/
structure Param where
  key : Bytes
  value : Bytes
  key_plain : key.all keyByte = true
  value_plain : value.all valueByte = true

namespace Param

def text (p : Param) : Bytes := p.key ++ equals :: p.value

theorem keyByte_of_mem (p : Param) {b : UInt8} (h : b ∈ p.key) : keyByte b = true :=
  List.all_eq_true.1 p.key_plain b h

theorem valueByte_of_mem (p : Param) {b : UInt8} (h : b ∈ p.value) : valueByte b = true :=
  List.all_eq_true.1 p.value_plain b h

theorem equals_not_mem_key (p : Param) : equals ∉ p.key :=
  fun h => absurd (p.keyByte_of_mem h) (by decide)

theorem not_mem_text (p : Param) {b : UInt8} (hk : keyByte b = false) (hv : valueByte b = false)
    (he : b ≠ equals) : b ∉ p.text := by
  intro h
  rw [text, List.mem_append, List.mem_cons] at h
  rcases h with h | h | h
  · simp [p.keyByte_of_mem h] at hk
  · exact he h
  · simp [p.valueByte_of_mem h] at hv

theorem ampersand_not_mem_text (p : Param) : ampersand ∉ p.text :=
  p.not_mem_text (by decide) (by decide) (by decide)

theorem nulFree_text (p : Param) : NulFree p.text :=
  p.not_mem_text (by decide) (by decide) (by decide)

end Param

def joinQuery (ps : List Param) : Bytes := List.intercalate [ampersand] (ps.map Param.text)

def className : Bytes := utf8 "class"

def classValue (ps : List Param) : Bytes :=
  ((ps.find? fun p => p.key = className).map Param.value).getD []

theorem key_eq : key = className ++ [equals] := by decide

theorem findAfter_text (p : Param) :
    findAfter key p.text =
      if className <:+ p.key then some p.value else findAfter key p.value := by
  rw [key_eq, Param.text, findAfter_last (by decide) p.equals_not_mem_key]

theorem joinQuery_cons (p q : Param) (ps : List Param) :
    joinQuery (p :: q :: ps) = p.text ++ ampersand :: joinQuery (q :: ps) := by
  simp [joinQuery, List.intercalate]

theorem nulFree_joinQuery (ps : List Param) : NulFree (joinQuery ps) :=
  nulFree_intercalate (by decide) (List.forall_mem_map.2 fun p _ => p.nulFree_text)

theorem takeWhile_text (p : Param) {rest : Bytes} (h : findAfter key p.text = some rest)
    (tail : Bytes) :
    rest.takeWhile (· ≠ ampersand) = rest ∧
      (rest ++ ampersand :: tail).takeWhile (· ≠ ampersand) = rest := by
  rw [key_eq, findAfter_eq_some_iff] at h
  obtain ⟨front, hfront, -⟩ := h
  have hrest : ∀ b ∈ rest, (b ≠ ampersand : Bool) := by
    intro b hb
    have hmem : b ∈ p.text := by simp [hfront, hb]
    simpa using fun he : b = ampersand => p.ampersand_not_mem_text (he ▸ hmem)
  constructor
  · exact List.takeWhile_eq_self_iff.2 hrest
  · rw [List.takeWhile_append_of_pos hrest, List.takeWhile_cons_of_neg (by decide), List.append_nil]

theorem parseClassParam_joinQuery (ps : List Param) :
    parseClassParam (some (joinQuery ps)) =
      (ps.findSome? fun p => findAfter key p.text).getD [] := by
  rw [parseClassParam, cstr_eq_self (nulFree_joinQuery ps)]
  induction ps with
  | nil => rfl
  | cons p ps ih =>
    rw [List.findSome?_cons]
    cases ps with
    | nil =>
      simp only [joinQuery, List.map_cons, List.map_nil, List.intercalate_singleton]
      cases h : findAfter key p.text with
      | none => rfl
      | some rest => exact (takeWhile_text p h []).1
    | cons q ps =>
      rw [joinQuery_cons, findAfter_append (by decide) (by decide)]
      cases h : findAfter key p.text with
      | none => exact ih
      | some rest => exact (takeWhile_text p h _).2

/-- No parameter in front of the class parameter passes for it: none has a key
that ends in `class` or a value that contains `class=`, or else what stands behind
is the same. -/
def Unmistaken : List Param → Prop
  | [] => True
  | p :: ps =>
    if p.key = className then True
    else if className <:+ p.key then p.value = classValue ps
    else if key <:+: p.value then
      ∃ front, p.value = front ++ (key ++ classValue ps) ∧ ¬ key <:+: front ++ className
    else Unmistaken ps

theorem classValue_cons (p : Param) (ps : List Param) :
    classValue (p :: ps) = if p.key = className then p.value else classValue ps := by
  by_cases h : p.key = className
  · simp [classValue, h]
  · simp [classValue, h]

theorem parseClassParam_eq_classValue_iff (ps : List Param) :
    parseClassParam (some (joinQuery ps)) = classValue ps ↔ Unmistaken ps := by
  rw [parseClassParam_joinQuery]
  induction ps with
  | nil => simp [classValue, Unmistaken]
  | cons p ps ih =>
    rw [Unmistaken, List.findSome?_cons, findAfter_text, classValue_cons]
    by_cases hkey : p.key = className
    · simp [hkey]
    · rw [if_neg hkey, if_neg hkey]
      by_cases hend : className <:+ p.key
      · simp [hend]
      · rw [if_neg hend, if_neg hend]
        by_cases hin : key <:+: p.value
        · obtain ⟨rest, hrest⟩ := Option.ne_none_iff_exists'.1 fun hn =>
            (findAfter_eq_none_iff (by decide) _).1 hn hin
          rw [if_pos hin, hrest]
          rw [key_eq] at hrest ⊢
          constructor
          · intro h
            obtain ⟨front, hfront, hfirst⟩ := (findAfter_eq_some_iff _ _).1 hrest
            have hrest' : rest = classValue ps := h
            exact ⟨front, by simp [hfront, hrest'], hfirst⟩
          · intro ⟨front, hfront, hfirst⟩
            have h := (findAfter_eq_some_iff _ _).2 ⟨front, by simpa using hfront, hfirst⟩
            exact Option.some.inj (hrest.symm.trans h)
        · rw [if_neg hin, (findAfter_eq_none_iff (by decide) _).2 hin]
          exact ih

/-- A key that ends in `class` is taken for the class parameter. -/
theorem subclass_taken_for_class :
    parseClassParam (some (utf8 "subclass=x&class=y")) = utf8 "x" ∧
      ∃ p q : Param, joinQuery [p, q] = utf8 "subclass=x&class=y" ∧
        classValue [p, q] = utf8 "y" ∧
        parseClassParam (some (joinQuery [p, q])) ≠ classValue [p, q] := by
  refine ⟨by decide +kernel, ⟨utf8 "subclass", utf8 "x", rfl, rfl⟩,
    ⟨utf8 "class", utf8 "y", rfl, rfl⟩, ?_⟩
  decide +kernel

end MainD
end StudentGrades
