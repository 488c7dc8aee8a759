import StudentGrades.MarkupTokens

/-!
# What a page says

Two pages say the same when they differ only in layout and style: blank texts
between tags, comments, the spelling of character references, and the text of a
style sheet. The document of a page is its token list with these differences
removed; it is read off by a machine, so that the documents of appended blocks are
appended.
-/

namespace Markup
open ByteText

def references : List (Bytes × UInt8) :=
  [(utf8 "&amp;", 38), (utf8 "&lt;", 60), (utf8 "&gt;", 62), (utf8 "&quot;", 34),
    (utf8 "&#39;", 39), (utf8 "&#039;", 39)]

def referenceAt (text : Bytes) : Option (Bytes × UInt8) :=
  references.find? fun r => r.1.isPrefixOf text

def decodeRefsFrom : ℕ → Bytes → Bytes
  | _, [] => []
  | skip+1, _ :: bs => decodeRefsFrom skip bs
  | 0, b :: bs =>
    match referenceAt (b :: bs) with
    | some r => r.2 :: decodeRefsFrom (r.1.length - 1) bs
    | none => b :: decodeRefsFrom 0 bs

def decodeRefs (text : Bytes) : Bytes := decodeRefsFrom 0 text

theorem references_head : ∀ r ∈ references, r.1.head? = some 38 := by decide

theorem referenceAt_other {b : UInt8} (h : b ≠ 38) (bs : Bytes) : referenceAt (b :: bs) = none := by
  rw [referenceAt, List.find?_eq_none]
  intro r hr hp
  have hhead := references_head r hr
  cases hr1 : r.1 with
  | nil => simp [hr1] at hhead
  | cons x xs =>
    rw [hr1] at hp hhead
    have hx : x = 38 := by simpa using hhead
    have hxb : x = b := by
      simp only [List.isPrefixOf_cons_cons, Bool.and_eq_true, beq_iff_eq] at hp
      exact hp.1
    exact h (hxb ▸ hx)

theorem decodeRefs_other {b : UInt8} (h : b ≠ 38) (rest : Bytes) :
    decodeRefs (b :: rest) = b :: decodeRefs rest := by
  simp [decodeRefs, decodeRefsFrom, referenceAt_other h]

theorem decodeRefs_flatMap {enc : UInt8 → Bytes}
    (h : ∀ b rest, decodeRefs (enc b ++ rest) = b :: decodeRefs rest) (text : Bytes) :
    decodeRefs (text.flatMap enc) = text := by
  induction text with
  | nil => rfl
  | cons b bs ih => rw [List.flatMap_cons, h, ih]

/-- A blank text shows nothing. -/
def shownText (t : Bytes) : List Token := if t.all isSpace then [] else [.text t]

def viewText (t : Bytes) : List Token := shownText (decodeRefs t)

def viewTag (t : Tag) : Token :=
  .tag { t with attrs := t.attrs.map fun a => (a.1, decodeRefs a.2) }

def isStyle (t : Tag) : Bool := !t.closing && t.name == utf8 "style"

def isComment (d : Bytes) : Bool := (utf8 "--").isPrefixOf d

/-- The state says whether the text of a style sheet follows. -/
def viewStep : Bool → Token → Bool × List Token
  | true, .text _ => (true, [])
  | false, .text t => (false, viewText t)
  | _, .tag t => (isStyle t, [viewTag t])
  | inStyle, .declaration d => (inStyle, if isComment d then [] else [.declaration d])

def view (inStyle : Bool) (ts : List Token) : Bool × List Token := Transducer.run viewStep inStyle ts

def document (page : Bytes) : List Token := (view false (tokens page)).2

theorem view_append {s t u : Bool} {ts us : List Token} {o p : List Token}
    (hts : view s ts = (t, o)) (hus : view t us = (u, p)) : view s (ts ++ us) = (u, o ++ p) :=
  Transducer.run_append_of hts hus

/-- Outside of every style sheet, the block is whole lines and reads as `seen`. -/
structure Reads (block : Bytes) (seen : List Token) : Prop where
  lines : WholeLines block
  viewed : view false (lineTokens block) = (false, seen)

theorem Reads.append {p q : Bytes} {s t : List Token} (hp : Reads p s) (hq : Reads q t) :
    Reads (p ++ q) (s ++ t) where
  lines := hp.lines.append hq.lines
  viewed := by
    rw [lineTokens_append hp.lines]
    exact view_append hp.viewed hq.viewed

theorem Reads.flatMap {γ : Type*} {body : γ → Bytes} {seen : γ → List Token}
    (h : ∀ c, Reads (body c) (seen c)) (cs : List γ) : Reads (cs.flatMap body) (cs.flatMap seen) where
  lines := .flatMap (fun c => (h c).lines) cs
  viewed := by
    rw [lineTokens_flatMap fun c => (h c).lines]
    exact Transducer.run_flatMap (fun c => (h c).viewed) cs

theorem reads_of_scan {block : Bytes} {ts seen : List Token}
    (h : scan (.text [newline]) block = (.text [newline], ts)) (hv : view false ts = (false, seen)) :
    Reads block seen := by
  obtain ⟨hlines, htokens⟩ := wholeLines_of_scan h
  exact ⟨hlines, by rw [htokens, hv]⟩

theorem document_append {head rest : Bytes} {ts seen more : List Token}
    (hhead : scan (.text []) head = (.text [newline], ts)) (hseen : view false ts = (false, seen))
    (hrest : Reads rest more) : document (head ++ rest) = seen ++ more := by
  rw [document, tokens, scan_append_lines hhead]
  exact congrArg Prod.snd (view_append hseen hrest.viewed)

structure Delimited {γ β : Type*} (block : γ → List β) (stop : β) : Prop where
  split : ∀ x y r s, block x ++ r = block y ++ s → block x = block y ∧ r = s
  first : ∀ x r s, block x ++ r ≠ stop :: s

theorem Delimited.flatMap_inj {γ β : Type*} {block : γ → List β} {stop : β}
    (h : Delimited block stop) {xs ys : List γ} {r s : List β}
    (heq : xs.flatMap block ++ stop :: r = ys.flatMap block ++ stop :: s) :
    xs.map block = ys.map block ∧ r = s := by
  induction xs generalizing ys with
  | nil =>
    cases ys with
    | nil => exact ⟨rfl, (List.cons.inj heq).2⟩
    | cons y ys =>
      rw [List.flatMap_cons, List.append_assoc] at heq
      exact absurd heq.symm (h.first y _ r)
  | cons x xs ih =>
    rw [List.flatMap_cons, List.append_assoc] at heq
    cases ys with
    | nil => exact absurd heq (h.first x _ s)
    | cons y ys =>
      rw [List.flatMap_cons, List.append_assoc] at heq
      obtain ⟨hxy, hrest⟩ := h.split x y _ _ heq
      obtain ⟨hmap, hrs⟩ := ih hrest
      exact ⟨by rw [List.map_cons, List.map_cons, hxy, hmap], hrs⟩

theorem map_eq_map_iff {γ β δ : Type*} {f : γ → β} {g : γ → δ}
    (h : ∀ x y, f x = f y ↔ g x = g y) {xs ys : List γ} :
    xs.map f = ys.map f ↔ xs.map g = ys.map g := by
  induction xs generalizing ys with
  | nil => cases ys <;> simp
  | cons x xs ih =>
    cases ys with
    | nil => simp
    | cons y ys => simp only [List.map_cons, List.cons.injEq, h, ih]

def closingTag (name : Bytes) : Token := .tag ⟨true, name, []⟩

def element (opened : Tag) (t : Bytes) : List Token :=
  .tag opened :: (shownText t ++ [closingTag opened.name])

theorem shownText_append_inj {t u : Bytes} {a b : Tag} {r s : List Token}
    (h : shownText t ++ .tag a :: r = shownText u ++ .tag b :: s) :
    shownText t = shownText u ∧ a = b ∧ r = s := by
  simp only [shownText] at h ⊢
  split_ifs at h ⊢ <;> simp_all

theorem element_append_inj {o p : Tag} {t u : Bytes} {r s : List Token}
    (h : element o t ++ r = element p u ++ s) : o = p ∧ shownText t = shownText u ∧ r = s := by
  simp only [element, List.cons_append, List.append_assoc, List.cons.injEq, Token.tag.injEq] at h
  obtain ⟨ho, hrest⟩ := h
  obtain ⟨ht, -, hrs⟩ := shownText_append_inj hrest
  exact ⟨ho, ht, hrs⟩

theorem element_inj {o p : Tag} {t u : Bytes} :
    element o t = element p u ↔ o = p ∧ shownText t = shownText u := by
  constructor
  · intro h
    obtain ⟨ho, ht, -⟩ := element_append_inj (congrArg (· ++ []) h)
    exact ⟨ho, ht⟩
  · intro ⟨ho, ht⟩
    rw [element, element, ho, ht]

theorem shownText_inj {t u : Bytes} (ht : t.all isSpace = false) :
    shownText t = shownText u ↔ t = u := by
  constructor
  · intro h
    simp only [shownText, ht, Bool.false_eq_true, ↓reduceIte] at h
    split_ifs at h
    simpa using h
  · intro h
    rw [h]

inductive Spelled : List String → List (List Char) → Prop
  | nil : Spelled [] []
  | cons {ss : List String} {ls : List (List Char)} (l : List Char) :
    Spelled ss ls → Spelled (String.ofList l :: ss) (l :: ls)

theorem Spelled.not_mem {ss : List String} {ls : List (List Char)} (h : Spelled ss ls) {b : UInt8}
    (hb : b.toNat < 128) (hl : ls.all fun l => l.all fun c => c.toNat != b.toNat) :
    b ∉ ss.flatMap utf8 := by
  induction h with
  | nil => simp
  | cons l _ ih =>
    rw [List.all_cons, Bool.and_eq_true] at hl
    rw [List.flatMap_cons, List.mem_append]
    exact not_or.2 ⟨not_mem_utf8 hb hl.1, ih hl.2⟩

end Markup
