import Mathlib.Data.List.Sort
import Mathlib.Data.List.Dedup
import StudentGrades.SqlSyntax

/-!
# The relational meaning of a select statement

A statement denotes a bag of output rows, each with its `ORDER BY` key; an answer
is any arrangement of that bag that is sorted by the keys, so rows with equal
keys may come in any order. Comparison with NULL is never true, `MAX` skips NULL,
`CASE` without `ELSE` gives NULL and NULL sorts last. Texts are compared by a
collation, a total order on byte strings.
-/

namespace Sql
open ByteText

/-- A total order on texts in which only identical texts are equal. -/
structure Collation where
  le : Bytes → Bytes → Bool
  total : ∀ a b, le a b ∨ le b a
  trans : ∀ a b c, le a b → le b c → le a c
  antisymm : ∀ a b, le a b → le b a → a = b

def Collation.bytewise : Collation where
  le a b := decide (a ≤ b)
  total a b := by simpa using List.le_total a b
  trans a b c hab hbc := by simpa using List.le_trans (by simpa using hab) (by simpa using hbc)
  antisymm a b hab hba := List.le_antisymm (by simpa using hab) (by simpa using hba)

inductive Value
  | null
  | int (i : ℤ)
  | numeric (scale : ℕ) (unscaled : ℤ)
  | text (b : Bytes)
deriving DecidableEq

def Value.output : Value → Option Bytes
  | .null => none
  | .int i => some (intText i)
  | .numeric scale u => some (fixedText scale u)
  | .text b => some b

def Value.rank : Value → ℕ
  | .int _ => 0
  | .numeric _ _ => 1
  | .text _ => 2
  | .null => 3

def Value.le (col : Collation) : Value → Value → Bool
  | .int a, .int b => decide (a ≤ b)
  | .numeric s u, .numeric t v => decide ((u : ℚ) / 10^s ≤ (v : ℚ) / 10^t)
  | .text a, .text b => col.le a b
  | a, b => decide (a.rank ≤ b.rank)

theorem Value.total_le (col : Collation) (a b : Value) : a.le col b ∨ b.le col a := by
  cases a <;> cases b <;> simp [Value.le, Value.rank, le_total, col.total]

theorem Value.trans_le (col : Collation) {a b c : Value} (hab : a.le col b) (hbc : b.le col c) :
    a.le col c := by
  cases a <;> cases b <;> cases c <;> simp [Value.le, Value.rank] at hab hbc ⊢
  case int.int.int => exact le_trans hab hbc
  case numeric.numeric.numeric => exact le_trans hab hbc
  case text.text.text => exact col.trans _ _ _ hab hbc

def lexLe (col : Collation) : List Value → List Value → Bool
  | [], _ => true
  | _ :: _, [] => false
  | a :: as, b :: bs => a.le col b && (!b.le col a || lexLe col as bs)

theorem lexLe_total (col : Collation) (as bs : List Value) :
    lexLe col as bs ∨ lexLe col bs as := by
  induction as generalizing bs with
  | nil => simp [lexLe]
  | cons a as ih =>
    cases bs with
    | nil => simp [lexLe]
    | cons b bs =>
      have ht := Value.total_le col a b
      have hi := ih bs
      simp only [lexLe, Bool.and_eq_true, Bool.or_eq_true, Bool.not_eq_true']
      grind

theorem lexLe_trans (col : Collation) {as bs cs : List Value} (hab : lexLe col as bs)
    (hbc : lexLe col bs cs) : lexLe col as cs := by
  induction as generalizing bs cs with
  | nil => simp [lexLe]
  | cons a as ih =>
    cases bs with
    | nil => simp [lexLe] at hab
    | cons b bs =>
      cases cs with
      | nil => simp [lexLe] at hbc
      | cons c cs =>
        simp only [lexLe, Bool.and_eq_true, Bool.or_eq_true, Bool.not_eq_true'] at hab hbc ⊢
        refine ⟨Value.trans_le col hab.1 hbc.1, ?_⟩
        by_cases hca : c.le col a
        · have hba : b.le col a := Value.trans_le col hbc.1 hca
          have hcb : c.le col b := Value.trans_le col hca hab.1
          exact Or.inr (ih (by simpa [hba] using hab.2) (by simpa [hcb] using hbc.2))
        · exact Or.inl (by simpa using hca)

abbrev Row := List (Bytes × Value)

abbrev Catalog := Bytes → List Row

abbrev Scope := List (Bytes × Row)

/-- A column that the scope does not have reads as NULL, so the row that a left
join adds for a missing match is the empty row. -/
def Scope.value (s : Scope) (c : Column) : Value :=
  let rows := s.filterMap fun r => if c.table = [] ∨ r.1 = c.table then r.2.lookup c.column else none
  rows.head?.getD .null

def Operand.value (params : List (Option Bytes)) (s : Scope) : Operand → Value
  | .column c => s.value c
  | .literal b => .text b
  | .param n => match params[n-1]? with
    | some (some b) => .text b
    | _ => .null

def Equality.holds (params : List (Option Bytes)) (s : Scope) (e : Equality) : Bool :=
  let a := e.left.value params s
  decide (a ≠ .null ∧ a = e.right.value params s)

def Scalar.value (params : List (Option Bytes)) (s : Scope) : Scalar → Value
  | .operand o => o.value params s
  | .caseWhen c o => if c.holds params s then o.value params s else .null

def maxValue (col : Collation) (vs : List Value) : Value :=
  vs.foldl (fun m v => if v = .null then m else if m = .null ∨ m.le col v then v else m) .null

def groupColumn (g : List Scope) (c : Column) : Value := (g.head?.map (·.value c)).getD .null

def Item.value (col : Collation) (params : List (Option Bytes)) (g : List Scope) : Item → Value
  | .scalar e => (g.head?.map fun s => e.value params s).getD .null
  | .max e => maxValue col (g.map fun s => e.value params s)

section Statement
variable (cat : Catalog) (params : List (Option Bytes))

def Source.scan (s : Source) : List (Bytes × Row) := (cat s.table).map fun r => (s.label, r)

/-- A left row stays, with the empty row, when no right row satisfies the condition. -/
def leftJoinRows (right : Source) (on : Equality) (s : Scope) : List Scope :=
  let found := ((right.scan cat).map fun r => s ++ [r]).filter fun t => on.holds params t
  if found = [] then [s ++ [(right.label, [])]] else found

def Select.joined (q : Select) : List Scope :=
  let base := (q.source.scan cat).map fun r => [r]
  match q.leftJoin with
  | none => base
  | some (right, on) => base.flatMap (leftJoinRows cat params right on)

def Select.scopes (q : Select) : List Scope :=
  match q.filter with
  | none => q.joined cat params
  | some e => (q.joined cat params).filter fun s => e.holds params s

def groupsBy {α κ : Type*} [DecidableEq κ] (key : α → κ) (l : List α) : List (List α) :=
  (l.map key).dedup.map fun k => l.filter fun a => key a = k

def Select.groups (q : Select) : List (List Scope) :=
  if q.groupBy = [] then (q.scopes cat params).map fun s => [s]
  else groupsBy (fun s => q.groupBy.map s.value) (q.scopes cat params)

def Select.output (col : Collation) (q : Select) (g : List Scope) : List Value × List Value :=
  (q.orderBy.map (groupColumn g), q.items.map (Item.value col params g))

def Select.outputs (col : Collation) (q : Select) : List (List Value × List Value) :=
  let out := (q.groups cat params).map (q.output params col)
  if q.distinct then out.dedup else out

def Select.Answer (col : Collation) (q : Select) (rows : List (List Value)) : Prop :=
  ∃ out : List (List Value × List Value), out.Perm (q.outputs cat params col) ∧
    out.Pairwise (fun a b => lexLe col a.1 b.1) ∧ rows = out.map Prod.snd

def Select.answer (col : Collation) (q : Select) : List (List Value) :=
  ((q.outputs cat params col).insertionSort fun a b => lexLe col a.1 b.1).map Prod.snd

theorem Select.answer_sound (col : Collation) (q : Select) :
    q.Answer cat params col (q.answer cat params col) := by
  refine ⟨_, List.perm_insertionSort _ _, ?_, rfl⟩
  have : Std.Total fun a b : List Value × List Value => (lexLe col a.1 b.1 : Prop) :=
    ⟨fun a b => lexLe_total col a.1 b.1⟩
  have : IsTrans (List Value × List Value) fun a b => lexLe col a.1 b.1 :=
    ⟨fun _ _ _ => lexLe_trans col⟩
  exact List.pairwise_insertionSort _ _

theorem Select.Answer.exists_perm {α : Type} {cat : Catalog} {params : List (Option Bytes)}
    {col : Collation} {q : Select} {rows : List (List Value)} {l : List α}
    {out : α → List Value × List Value} (ha : q.Answer cat params col rows)
    (h : (q.outputs cat params col).Perm (l.map out)) :
    ∃ m : List α, m.Perm l ∧ m.Pairwise (fun a b => lexLe col (out a).1 (out b).1) ∧
      rows = m.map fun a => (out a).2 := by
  obtain ⟨o, ho, hs, rfl⟩ := ha
  have hm : Relation.Comp (· = List.map out ·) (·.Perm ·) o l := by
    rw [List.eq_map_comp_perm]
    exact ho.trans h
  obtain ⟨m, rfl, hp⟩ := hm
  exact ⟨m, hp, List.pairwise_map.1 hs, by simp⟩

end Statement

section Groups
variable {α β κ : Type*} [DecidableEq κ] {key : α → κ} {k : β → κ} {block : β → List α}

theorem filter_flatMap_block {l : List β} (hd : (l.map k).Nodup)
    (hk : ∀ b ∈ l, ∀ a ∈ block b, key a = k b) {b : β} (hb : b ∈ l) :
    (l.flatMap block).filter (fun a => key a = k b) = block b := by
  induction l with
  | nil => simp at hb
  | cons c l ih =>
    rw [List.map_cons, List.nodup_cons] at hd
    have hself : (block c).filter (fun a => key a = k b) = if k c = k b then block c else [] := by
      split_ifs with h
      · exact List.filter_eq_self.2 fun a ha => by simp [hk c (by simp) a ha, h]
      · exact List.filter_eq_nil_iff.2 fun a ha => by simp [hk c (by simp) a ha, h]
    have hrest : k c = k b → (l.flatMap block).filter (fun a => key a = k b) = [] := by
      intro h
      rw [List.filter_eq_nil_iff]
      intro a ha
      obtain ⟨e, he, hae⟩ := List.mem_flatMap.1 ha
      simp only [hk e (by simp [he]) a hae, decide_eq_true_eq, ← h]
      exact fun hc => hd.1 (hc ▸ List.mem_map_of_mem he)
    rw [List.flatMap_cons, List.filter_append, hself]
    rcases List.mem_cons.1 hb with rfl | hb
    · simp [hrest rfl]
    · have hne : k c ≠ k b := fun h => hd.1 (h ▸ List.mem_map_of_mem hb)
      simpa [hne] using ih hd.2 (fun e he => hk e (by simp [he])) hb

omit [DecidableEq κ] in
theorem filter_flatMap_const {p : α → Bool} {P : β → Bool} {l : List β}
    (h : ∀ b ∈ l, ∀ a ∈ block b, p a = P b) :
    (l.flatMap block).filter p = (l.filter P).flatMap block := by
  induction l with
  | nil => rfl
  | cons c l ih =>
    have hi := ih fun b hb => h b (by simp [hb])
    have hc : (block c).filter p = if P c then block c else [] := by
      split_ifs with hP
      · exact List.filter_eq_self.2 fun a ha => by simp [h c (by simp) a ha, hP]
      · exact List.filter_eq_nil_iff.2 fun a ha => by simp [h c (by simp) a ha, hP]
    rw [List.flatMap_cons, List.filter_append, hc, hi, List.filter_cons]
    split_ifs <;> simp

theorem groupsBy_flatMap {l : List β} (hd : (l.map k).Nodup) (hn : ∀ b ∈ l, block b ≠ [])
    (hk : ∀ b ∈ l, ∀ a ∈ block b, key a = k b) :
    (groupsBy key (l.flatMap block)).Perm (l.map block) := by
  have hkeys : ((l.flatMap block).map key).dedup.Perm (l.map k) := by
    rw [List.perm_ext_iff_of_nodup (List.nodup_dedup _) hd]
    intro x
    simp only [List.mem_dedup, List.mem_map, List.mem_flatMap]
    constructor
    · rintro ⟨a, ⟨b, hb, ha⟩, rfl⟩
      exact ⟨b, hb, (hk b hb a ha).symm⟩
    · rintro ⟨b, hb, rfl⟩
      obtain ⟨a, ha⟩ := List.exists_mem_of_ne_nil _ (hn b hb)
      exact ⟨a, ⟨b, hb, ha⟩, hk b hb a ha⟩
  have hm := hkeys.map fun x => (l.flatMap block).filter fun a => key a = x
  rw [List.map_map] at hm
  exact hm.trans (.of_eq (List.map_congr_left fun b hb => filter_flatMap_block hd hk hb))

theorem flatMap_filter_perm {ks : List κ} (hd : ks.Nodup) (l : List α) :
    (ks.flatMap fun k => l.filter fun a => key a = k).Perm (l.filter fun a => key a ∈ ks) := by
  induction ks with
  | nil => simp
  | cons k ks ih =>
    rw [List.nodup_cons] at hd
    have hsplit := List.filter_append_perm (fun a => decide (key a = k))
      (l.filter fun a => decide (key a ∈ k :: ks))
    have hk : (l.filter fun a => decide (key a ∈ k :: ks)).filter (fun a => key a = k) =
        l.filter fun a => key a = k := by
      rw [List.filter_filter]
      apply List.filter_congr
      intro a _
      by_cases h : key a = k <;> simp [h]
    have hrest : (l.filter fun a => decide (key a ∈ k :: ks)).filter (fun a => !key a = k) =
        l.filter fun a => key a ∈ ks := by
      rw [List.filter_filter]
      apply List.filter_congr
      intro a _
      by_cases h : key a = k
      · simp [h, hd.1]
      · simp [h]
    rw [hk, hrest] at hsplit
    rw [List.flatMap_cons]
    exact ((List.Perm.refl _).append (ih hd.2)).trans hsplit

end Groups

def ofNumeric (scale : ℕ) : Option ℤ → Value
  | none => .null
  | some u => .numeric scale u

theorem numeric_le {col : Collation} {scale : ℕ} {u v : ℤ} :
    (Value.numeric scale u).le col (.numeric scale v) = decide (u ≤ v) := by
  have hp : (0:ℚ) < 10^scale := by positivity
  simp only [Value.le, div_le_div_iff_of_pos_right hp, Int.cast_le]

theorem maxValue_numeric (col : Collation) (scale : ℕ) (us : List (Option ℤ)) :
    maxValue col (us.map (ofNumeric scale)) = ofNumeric scale (us.filterMap id).max? := by
  have hsome : ∀ (us : List (Option ℤ)) (m : ℤ),
      (us.map (ofNumeric scale)).foldl
        (fun m v => if v = .null then m else if m = .null ∨ m.le col v then v else m)
        (.numeric scale m) = .numeric scale ((us.filterMap id).foldl max m) := by
    intro us
    induction us with
    | nil => intro m; rfl
    | cons u us ih =>
      intro m
      cases u with
      | none => simpa [ofNumeric] using ih m
      | some u =>
        by_cases hmu : m ≤ u
        · simpa [ofNumeric, numeric_le, hmu] using ih u
        · simpa [ofNumeric, numeric_le, hmu, max_eq_left (le_of_not_ge hmu)] using ih m
  unfold maxValue
  induction us with
  | nil => rfl
  | cons u us ih =>
    cases u with
    | none => simpa [ofNumeric] using ih
    | some u =>
      rw [List.filterMap_cons_some (by rfl), List.max?_cons']
      exact hsome us u

end Sql
