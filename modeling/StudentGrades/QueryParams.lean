import StudentGrades.FormEncoding
import StudentGrades.Handler

/-!
# The class parameter in the two entries

The first entry takes the parameter from the query parser of its HTTP library,
which splits at `&` and `=`, drops blanks around a pair and repeated pairs, and
decodes keys and values. The second entry cuts the text behind the first
`class=` out of the query string and decodes nothing.
-/

namespace StudentGrades
open ByteText FormEncoding

namespace Httplib

def isHex (c : UInt8) : Option ℕ :=
  if 48 ≤ c ∧ c ≤ 57 then some (c.toNat - 48)
  else if 65 ≤ c ∧ c ≤ 70 then some (c.toNat - 65 + 10)
  else if 97 ≤ c ∧ c ≤ 102 then some (c.toNat - 97 + 10)
  else none

/-- The value of exactly `cnt` hexadecimal digits at the start of the text. -/
def fromHexToI : ℕ → Bytes → ℕ → Option ℕ
  | 0, _, val => some val
  | _+1, [], _ => none
  | cnt+1, c :: cs, val => (isHex c).bind fun v => fromHexToI cnt cs (val * 16 + v)

def toUtf8 (code : ℕ) : Bytes :=
  if code < 0x80 then [UInt8.ofNat code]
  else if code < 0x800 then
    [UInt8.ofNat (0xC0 + code / 64 % 32), UInt8.ofNat (0x80 + code % 64)]
  else if code < 0xD800 then
    [UInt8.ofNat (0xE0 + code / 4096 % 16), UInt8.ofNat (0x80 + code / 64 % 64),
      UInt8.ofNat (0x80 + code % 64)]
  else if code < 0xE000 then []
  else if code < 0x10000 then
    [UInt8.ofNat (0xE0 + code / 4096 % 16), UInt8.ofNat (0x80 + code / 64 % 64),
      UInt8.ofNat (0x80 + code % 64)]
  else if code < 0x110000 then
    [UInt8.ofNat (0xF0 + code / 262144 % 8), UInt8.ofNat (0x80 + code / 4096 % 64),
      UInt8.ofNat (0x80 + code / 64 % 64), UInt8.ofNat (0x80 + code % 64)]
  else []

/-- The bytes an escape at the start of the text stands for, and how many bytes
follow its percent sign; without one the first byte stands for itself. -/
def escapeAt (plusToSpace : Bool) (c : UInt8) (rest : Bytes) : Bytes × ℕ :=
  if c = percent ∧ rest ≠ [] then
    if rest.head? = some 117 then
      match fromHexToI 4 rest.tail 0 with
      | some val => (toUtf8 val, 5)
      | none => ([c], 0)
    else
      match fromHexToI 2 rest 0 with
      | some val => ([UInt8.ofNat val], 2)
      | none => ([c], 0)
  else if plusToSpace ∧ c = plus then ([space], 0)
  else ([c], 0)

/-- The decoding loop with the number of bytes it has already consumed ahead. -/
def decodeFrom (plusToSpace : Bool) : ℕ → Bytes → Bytes
  | _, [] => []
  | skip+1, _ :: cs => decodeFrom plusToSpace skip cs
  | 0, c :: cs =>
    let e := escapeAt plusToSpace c cs
    e.1 ++ decodeFrom plusToSpace e.2 cs

def decodePath (s : Bytes) (plusToSpace : Bool) : Bytes := decodeFrom plusToSpace 0 s

def isSpaceOrTab (c : UInt8) : Bool := c == 32 || c == 9

def trim (s : Bytes) : Bytes :=
  ((s.dropWhile isSpaceOrTab).reverse.dropWhile isSpaceOrTab).reverse

/-- The parts between the delimiters, trimmed, the empty ones left out. -/
def split (d : UInt8) (s : Bytes) : List Bytes := ((s.splitOn d).map trim).filter (· ≠ [])

def divide (d : UInt8) (s : Bytes) : Bytes × Bytes :=
  (s.takeWhile (· ≠ d), (s.dropWhile (· ≠ d)).drop 1)

abbrev Params := List (Bytes × Bytes)

def addParam (st : List Bytes × Params) (kv : Bytes) : List Bytes × Params :=
  if kv ∈ st.1 then st
  else
    let (key, val) := divide 61 kv
    (kv :: st.1, if key = [] then st.2 else st.2 ++ [(decodePath key true, decodePath val true)])

def parseQueryText (s : Bytes) : Params := ((split ampersand s).foldl addParam ([], [])).2

def hasParam (params : Params) (key : Bytes) : Bool := params.any fun p => p.1 == key

def getParamValue (params : Params) (key : Bytes) : Bytes := (params.lookup key).getD []

end Httplib

namespace MainA
open Httplib

def classFilter (query : Bytes) : Bytes :=
  let params := parseQueryText query
  if hasParam params (utf8 "class") then getParamValue params (utf8 "class") else []

end MainA

namespace MainD

def key : Bytes := utf8 "class="

/-- The text behind the first occurrence of a key. -/
def findAfter (key : Bytes) : Bytes → Option Bytes
  | [] => if key = [] then some [] else none
  | b :: bs => if key.isPrefixOf (b :: bs) then some ((b :: bs).drop key.length) else findAfter key bs

def parseClassParam : Option Bytes → Bytes
  | none => []
  | some queryString =>
    match findAfter key (cstr queryString) with
    | none => []
    | some rest => rest.takeWhile (· ≠ ampersand)

end MainD

section Decoding
variable (k : Kept)
open Httplib

theorem isHex_hexDigit : ∀ n < 16, isHex (hexDigit n) = some n := by decide

theorem hexDigit_ne_u : ∀ n < 16, hexDigit n ≠ 117 := by decide

theorem decode_encodeByte (b : UInt8) (rest : Bytes) :
    decodePath (k.encodeByte b ++ rest) true = b :: decodePath rest true := by
  have hb := b.toNat_lt
  rw [Kept.encodeByte]
  split_ifs with hkeep hspace
  · have hpercent : b ≠ percent := k.keep_ne hkeep (by decide)
    have hplus : b ≠ plus := k.keep_ne hkeep (by decide)
    simp [decodePath, decodeFrom, escapeAt, hpercent, hplus]
  · subst hspace
    rfl
  · have hhi : b.toNat / 16 < 16 := by omega
    have hlo : b.toNat % 16 < 16 := by omega
    have hval : b.toNat / 16 * 16 + b.toNat % 16 = b.toNat := by omega
    simp [decodePath, decodeFrom, escapeAt, fromHexToI, hexDigit_ne_u _ hhi, isHex_hexDigit _ hhi,
      isHex_hexDigit _ hlo, hval]

theorem decode_urlencode (c : Bytes) : decodePath (k.urlencode c) true = c := by
  induction c with
  | nil => rfl
  | cons b c ih =>
    rw [Kept.urlencode, List.flatMap_cons, decode_encodeByte]
    exact congrArg (b :: ·) ih

def formQuery (c : Bytes) : Bytes := utf8 "class=" ++ k.urlencode c

theorem not_mem_formQuery (c : Bytes) {x : UInt8} (hx : FormEncoding.unreserved x = false)
    (hne : x ∉ utf8 "class=" ++ [plus, percent]) : x ∉ formQuery k c := by
  simp only [List.mem_append, List.mem_cons, List.not_mem_nil, or_false, not_or] at hne
  rw [formQuery, List.mem_append, not_or]
  exact ⟨hne.1, k.not_mem_urlencode c hx hne.2.1 hne.2.2⟩

theorem trim_eq_self {s : Bytes} (h : ∀ x ∈ s, isSpaceOrTab x = false) : trim s = s := by
  have hdrop {l : Bytes} (hl : ∀ x ∈ l, isSpaceOrTab x = false) : l.dropWhile isSpaceOrTab = l := by
    cases l with
    | nil => rfl
    | cons x xs => simp [hl x (by simp)]
  rw [trim, hdrop h, hdrop (by simpa using h), List.reverse_reverse]

theorem not_blank_of_digit {b : UInt8} (hb : isDigit b) : isSpaceOrTab b = false := by
  simp [isSpaceOrTab, ne_of_digit hb (x := 32) rfl, ne_of_digit hb (x := 9) rfl]

theorem split_intercalate {d : UInt8} {parts : List Bytes} (hne : parts ≠ [])
    (h : ∀ s ∈ parts, s ≠ [] ∧ d ∉ s ∧ ∀ x ∈ s, isSpaceOrTab x = false) :
    split d (List.intercalate [d] parts) = parts := by
  have htrim : parts.map trim = parts := by
    rw [List.map_congr_left fun s hs => trim_eq_self (h s hs).2.2, List.map_id']
  rw [split, List.splitOn_intercalate d (fun s hs => (h s hs).2.1) hne, htrim,
    List.filter_eq_self.2 fun s hs => decide_eq_true (h s hs).1]

theorem divide_append {d : UInt8} {a : Bytes} (ha : d ∉ a) (b : Bytes) : divide d (a ++ d :: b) = (a, b) := by
  have hall : ∀ x ∈ a, (decide (x ≠ d)) = true := fun x hx => by
    simpa using fun he : x = d => ha (he ▸ hx)
  rw [divide, List.takeWhile_append_of_pos hall, List.dropWhile_append_of_pos hall]
  simp

theorem split_formQuery (c : Bytes) : split ampersand (formQuery k c) = [formQuery k c] := by
  have hamp : ampersand ∉ formQuery k c := not_mem_formQuery k c (by decide) (by decide)
  have htrim : ∀ x ∈ formQuery k c, isSpaceOrTab x = false := by
    intro x hx
    by_contra hs
    simp only [isSpaceOrTab, Bool.not_eq_false, Bool.or_eq_true, beq_iff_eq] at hs
    rcases hs with rfl | rfl
    · exact not_mem_formQuery k c (by decide) (by decide) hx
    · exact not_mem_formQuery k c (by decide) (by decide) hx
  have hne : formQuery k c ≠ [] := List.append_ne_nil_of_left_ne_nil (by decide) _
  have hsplit := @split_intercalate ampersand [formQuery k c] (by simp) (by simpa using ⟨hne, hamp, htrim⟩)
  rwa [List.intercalate_singleton] at hsplit

theorem divide_formQuery (c : Bytes) : divide 61 (formQuery k c) = (utf8 "class", k.urlencode c) :=
  rfl

theorem classFilter_formQuery (c : Bytes) : MainA.classFilter (formQuery k c) = c := by
  have hkey : decodePath (utf8 "class") true = utf8 "class" := by decide
  have hparams : parseQueryText (formQuery k c) = [(utf8 "class", c)] := by
    rw [parseQueryText, split_formQuery]
    simp [addParam, divide_formQuery, decode_urlencode, hkey, show utf8 "class" ≠ [] by decide]
  simp [MainA.classFilter, hparams, hasParam, getParamValue]

theorem parseClassParam_formQuery (c : Bytes) :
    MainD.parseClassParam (some (formQuery k c)) = k.urlencode c := by
  have hnul : NulFree (formQuery k c) := not_mem_formQuery k c (by decide) (by decide)
  have hamp : ampersand ∉ k.urlencode c := k.not_mem_urlencode c (by decide) (by decide) (by decide)
  have hfind : MainD.findAfter MainD.key (formQuery k c) = some (k.urlencode c) := rfl
  simp only [MainD.parseClassParam, cstr_eq_self hnul, hfind]
  rw [List.takeWhile_eq_self_iff]
  intro x hx
  simpa using fun he : x = ampersand => hamp (he ▸ hx)

/-- The second entry takes a submitted class name as it is, and hence the filter
of the first entry, exactly when the form sends all its bytes unchanged. -/
theorem formQuery_filters (c : Bytes) :
    MainA.classFilter (formQuery k c) = c ∧
      (MainD.parseClassParam (some (formQuery k c)) = c ↔ ∀ b ∈ c, k.keep b) := by
  rw [parseClassParam_formQuery]
  exact ⟨classFilter_formQuery k c, k.urlencode_eq_self_iff c⟩

/-- A class name in Chinese is found by the first entry and not by the second. -/
theorem chinese_class_not_decoded :
    MainA.classFilter (formQuery .form (utf8 "一年一班")) = utf8 "一年一班" ∧
      MainD.parseClassParam (some (formQuery .form (utf8 "一年一班"))) =
        utf8 "%E4%B8%80%E5%B9%B4%E4%B8%80%E7%8F%AD" ∧
      MainD.parseClassParam (some (formQuery .form (utf8 "一年一班"))) ≠ utf8 "一年一班" := by
  decide +kernel

end Decoding
end StudentGrades
