import StudentGrades.ByteText
import StudentGrades.Transducer

/-!
# Tags and texts of a markup page

A tokenizer for start tags with attributes (quoted, bare or without a value),
end tags, declarations and the texts between them. A text token, possibly
empty, precedes every tag. Only a left angle bracket ends a text and only its
delimiter ends a quoted value, so data without these bytes is read back whole.
The skeleton of a page keeps the tags and the names of their attributes.
-/

namespace Markup
open ByteText Transducer

def lt : UInt8 := 60
def gt : UInt8 := 62
def slash : UInt8 := 47
def equals : UInt8 := 61
def bang : UInt8 := 33
def dquote : UInt8 := 34
def squote : UInt8 := 39

structure Tag where
  closing : Bool
  name : Bytes
  attrs : List (Bytes × Bytes)
deriving DecidableEq

def Tag.add (t : Tag) (name value : Bytes) : Tag := { t with attrs := t.attrs ++ [(name, value)] }

inductive Token
  | text (t : Bytes)
  | tag (t : Tag)
  | declaration (d : Bytes)
deriving DecidableEq

/-- Where the tokenizer stands; collected bytes are newest first. -/
inductive Scan
  | text (acc : Bytes)
  | tagOpen (acc : Bytes)
  | endTagOpen (acc : Bytes)
  | declaration (acc : Bytes)
  | tagName (closing : Bool) (acc : Bytes)
  | beforeAttr (t : Tag)
  | attrName (t : Tag) (acc : Bytes)
  | afterAttr (t : Tag) (name : Bytes)
  | beforeValue (t : Tag) (name : Bytes)
  | quoted (t : Tag) (name : Bytes) (delim : UInt8) (acc : Bytes)
  | bare (t : Tag) (name : Bytes) (acc : Bytes)
deriving DecidableEq

def isLetter (b : UInt8) : Bool := (97 ≤ b && b ≤ 122) || (65 ≤ b && b ≤ 90)

def Scan.emit (t : Tag) : Scan × List Token := (.text [], [.tag t])

def Scan.step : Scan → UInt8 → Scan × List Token
  | .text acc, b => if b = lt then (.tagOpen acc, []) else (.text (b :: acc), [])
  | .tagOpen acc, b =>
    if isLetter b then (.tagName false [b], [.text acc.reverse])
    else if b = slash then (.endTagOpen acc, [])
    else if b = bang then (.declaration [], [.text acc.reverse])
    else if b = lt then (.tagOpen (lt :: acc), [])
    else (.text (b :: lt :: acc), [])
  | .endTagOpen acc, b =>
    if isLetter b then (.tagName true [b], [.text acc.reverse])
    else (.text (b :: slash :: lt :: acc), [])
  | .declaration acc, b =>
    if b = gt then (.text [], [.declaration acc.reverse]) else (.declaration (b :: acc), [])
  | .tagName closing acc, b =>
    if b = gt then emit ⟨closing, acc.reverse, []⟩
    else if isSpace b then (.beforeAttr ⟨closing, acc.reverse, []⟩, [])
    else (.tagName closing (b :: acc), [])
  | .beforeAttr t, b =>
    if b = gt then emit t
    else if isSpace b then (.beforeAttr t, [])
    else (.attrName t [b], [])
  | .attrName t acc, b =>
    if b = gt then emit (t.add acc.reverse [])
    else if b = equals then (.beforeValue t acc.reverse, [])
    else if isSpace b then (.afterAttr t acc.reverse, [])
    else (.attrName t (b :: acc), [])
  | .afterAttr t name, b =>
    if b = gt then emit (t.add name [])
    else if b = equals then (.beforeValue t name, [])
    else if isSpace b then (.afterAttr t name, [])
    else (.attrName (t.add name []) [b], [])
  | .beforeValue t name, b =>
    if b = gt then emit (t.add name [])
    else if b = dquote ∨ b = squote then (.quoted t name b [], [])
    else if isSpace b then (.beforeValue t name, [])
    else (.bare t name [b], [])
  | .quoted t name delim acc, b =>
    if b = delim then (.beforeAttr (t.add name acc.reverse), [])
    else (.quoted t name delim (b :: acc), [])
  | .bare t name acc, b =>
    if b = gt then emit (t.add name acc.reverse)
    else if isSpace b then (.beforeAttr (t.add name acc.reverse), [])
    else (.bare t name (b :: acc), [])

def scan (s : Scan) (page : Bytes) : Scan × List Token := run Scan.step s page

def tokens (page : Bytes) : List Token := (scan (.text []) page).2

theorem scan_text {t : Bytes} (h : lt ∉ t) (acc : Bytes) :
    scan (.text acc) t = (.text (t.reverse ++ acc), []) := by
  refine run_collect (fun b hb acc => ?_) acc
  have hne : b ≠ lt := fun he => h (he ▸ hb)
  simp [Scan.step, hne]

theorem scan_quoted {v : Bytes} {delim : UInt8} (h : delim ∉ v) (t : Tag) (name acc : Bytes) :
    scan (.quoted t name delim acc) v = (.quoted t name delim (v.reverse ++ acc), []) := by
  refine @run_collect _ _ _ _ (Scan.quoted t name delim) v (fun b hb acc => ?_) acc
  have hne : b ≠ delim := fun he => h (he ▸ hb)
  simp [Scan.step, hne]

def newline : UInt8 := 10

def WholeLines (page : Bytes) : Prop := (scan (.text [newline]) page).1 = .text [newline]

instance (page : Bytes) : Decidable (WholeLines page) := inferInstanceAs (Decidable (_ = _))

def lineTokens (page : Bytes) : List Token := (scan (.text [newline]) page).2

theorem WholeLines.scan_eq {p : Bytes} (h : WholeLines p) :
    scan (.text [newline]) p = (.text [newline], lineTokens p) := Prod.ext h rfl

theorem wholeLines_of_scan {p : Bytes} {ts : List Token}
    (h : scan (.text [newline]) p = (.text [newline], ts)) : WholeLines p ∧ lineTokens p = ts :=
  ⟨congrArg Prod.fst h, congrArg Prod.snd h⟩

theorem scan_append_lines {s : Scan} {p q : Bytes} {ts : List Token}
    (hp : scan s p = (.text [newline], ts)) :
    (scan s (p ++ q)).2 = ts ++ lineTokens q := by
  simp only [scan] at hp
  rw [scan, run_append, hp]
  rfl

theorem WholeLines.append {p q : Bytes} (hp : WholeLines p) (hq : WholeLines q) :
    WholeLines (p ++ q) :=
  congrArg Prod.fst (run_append_of hp.scan_eq hq.scan_eq)

theorem lineTokens_append {p : Bytes} (hp : WholeLines p) (q : Bytes) :
    lineTokens (p ++ q) = lineTokens p ++ lineTokens q :=
  scan_append_lines hp.scan_eq

theorem WholeLines.flatMap {γ : Type*} {body : γ → Bytes} (h : ∀ c, WholeLines (body c))
    (cs : List γ) : WholeLines (cs.flatMap body) :=
  congrArg Prod.fst (run_flatMap (fun c => (h c).scan_eq) cs)

theorem lineTokens_flatMap {γ : Type*} {body : γ → Bytes} (h : ∀ c, WholeLines (body c))
    (cs : List γ) : lineTokens (cs.flatMap body) = cs.flatMap fun c => lineTokens (body c) :=
  congrArg Prod.snd (run_flatMap (fun c => (h c).scan_eq) cs)

def Token.skeleton : Token → Option Token
  | .text _ => none
  | .tag t => some (.tag { t with attrs := t.attrs.map fun a => (a.1, []) })
  | .declaration d => some (.declaration d)

def skeletonOf (ts : List Token) : List Token := ts.filterMap Token.skeleton

def skeleton (page : Bytes) : List Token := skeletonOf (tokens page)

@[simp] theorem skeletonOf_append (ts us : List Token) :
    skeletonOf (ts ++ us) = skeletonOf ts ++ skeletonOf us := List.filterMap_append

theorem skeletonOf_flatMap {γ : Type*} (f : γ → List Token) (cs : List γ) :
    skeletonOf (cs.flatMap f) = cs.flatMap fun c => skeletonOf (f c) := by
  induction cs with
  | nil => rfl
  | cons c cs ih => rw [List.flatMap_cons, skeletonOf_append, ih, List.flatMap_cons]

end Markup
