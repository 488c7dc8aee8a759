import Mathlib.Data.List.Nodup
import Mathlib.Data.List.Perm.Subperm
import StudentGrades.ByteText
import StudentGrades.Potential

/-!
# Connection strings

The documented grammar of connection strings, as a machine that reads one byte
at a time: settings `keyword = value` between blanks, with optional blanks around
the equals sign, values up to the next blank or in single quotes, and a backslash
before a byte that is taken as it is. A later setting of a keyword overrides an
earlier one. Settings written without any quoting are read back exactly when
their values need none.
-/

namespace Conninfo
open ByteText

abbrev Setting := Bytes × Bytes

def equals : UInt8 := 61
def quote : UInt8 := 39
def backslash : UInt8 := 92
def blank : UInt8 := 32

@[simp] theorem isSpace_equals : isSpace equals = false := rfl
@[simp] theorem isSpace_quote : isSpace quote = false := rfl
@[simp] theorem isSpace_backslash : isSpace backslash = false := rfl
@[simp] theorem isSpace_blank : isSpace blank = true := rfl
@[simp] theorem backslash_ne_quote : backslash ≠ quote := by decide

inductive Scan
  | between
  | name (acc : Bytes)
  | afterName (keyword : Bytes)
  | beforeValue (keyword : Bytes)
  | plain (keyword acc : Bytes)
  | plainEscape (keyword acc : Bytes)
  | quoted (keyword acc : Bytes)
  | quotedEscape (keyword acc : Bytes)
  | failed
deriving DecidableEq

def Scan.step : Scan → UInt8 → Scan × List Setting
  | .between, b =>
    if isSpace b then (.between, []) else if b = equals then (.beforeValue [], []) else (.name [b], [])
  | .name acc, b =>
    if b = equals then (.beforeValue acc.reverse, [])
    else if isSpace b then (.afterName acc.reverse, [])
    else (.name (b :: acc), [])
  | .afterName k, b =>
    if isSpace b then (.afterName k, []) else if b = equals then (.beforeValue k, []) else (.failed, [])
  | .beforeValue k, b =>
    if isSpace b then (.beforeValue k, [])
    else if b = quote then (.quoted k [], [])
    else if b = backslash then (.plainEscape k [], [])
    else (.plain k [b], [])
  | .plain k acc, b =>
    if isSpace b then (.between, [(k, acc.reverse)])
    else if b = backslash then (.plainEscape k acc, [])
    else (.plain k (b :: acc), [])
  | .plainEscape k acc, b => (.plain k (b :: acc), [])
  | .quoted k acc, b =>
    if b = backslash then (.quotedEscape k acc, [])
    else if b = quote then (.between, [(k, acc.reverse)])
    else (.quoted k (b :: acc), [])
  | .quotedEscape k acc, b => (.quoted k (b :: acc), [])
  | .failed, _ => (.failed, [])

/-- What the end of the text adds to the settings read, `none` for an error. -/
def Scan.finish : Scan → Option (List Setting)
  | .between => some []
  | .beforeValue k => some [(k, [])]
  | .plain k acc => some [(k, acc.reverse)]
  | .plainEscape k acc => some [(k, acc.reverse)]
  | _ => none

/-- The settings of a text in their order; an unknown keyword is an error. -/
def parse (known : Bytes → Bool) (text : Bytes) : Option (List Setting) :=
  let (st, settings) := Transducer.run Scan.step .between text
  match st.finish with
  | none => none
  | some last =>
    if (settings ++ last).all fun s => known s.1 then some (settings ++ last) else none

def effective (settings : List Setting) (keyword : Bytes) : Option Bytes :=
  settings.reverse.lookup keyword

def Yields (known : Bytes → Bool) (text : Bytes) (settings : List Setting) : Prop :=
  ∃ read, parse known text = some read ∧ ∀ k, effective read k = settings.lookup k

def writeSetting (s : Setting) : Bytes := s.1 ++ equals :: s.2

def write (settings : List Setting) : Bytes := List.intercalate [blank] (settings.map writeSetting)

def Name (k : Bytes) : Prop := k ≠ [] ∧ ∀ b ∈ k, isSpace b = false ∧ b ≠ equals

def Plain (v : Bytes) : Prop := (∀ b ∈ v, isSpace b = false ∧ b ≠ backslash) ∧ v.head? ≠ some quote

def Keywords (settings : List Setting) : Prop :=
  (settings.map Prod.fst).Nodup ∧ ∀ s ∈ settings, Name s.1 ∧ s.2 ≠ []

theorem run_keyword {k : Bytes} (hk : Name k) :
    Transducer.run Scan.step .between (k ++ [equals]) = (.beforeValue k, []) := by
  obtain ⟨hne, hbytes⟩ := hk
  obtain ⟨b, bs, rfl⟩ := List.exists_cons_of_ne_nil hne
  have hb := hbytes b (by simp)
  have hfirst : Transducer.run Scan.step .between [b] = (.name [b], []) := by
    simp [Transducer.run, Scan.step, hb.1, hb.2]
  have hrest : Transducer.run Scan.step (.name [b]) bs = (.name (bs.reverse ++ [b]), []) := by
    apply Transducer.run_collect
    intro c hc acc
    have := hbytes c (by simp [hc])
    simp [Scan.step, this.1, this.2]
  have hend : Transducer.run Scan.step (.name (bs.reverse ++ [b])) [equals] =
      (.beforeValue (b :: bs), []) := by
    simp [Transducer.run, Scan.step]
  exact Transducer.run_append_of (Transducer.run_append_of hfirst hrest) hend

theorem run_value {v : Bytes} (hv : Plain v) (hne : v ≠ []) (k : Bytes) :
    Transducer.run Scan.step (.beforeValue k) v = (.plain k v.reverse, []) := by
  obtain ⟨hbytes, hquote⟩ := hv
  obtain ⟨b, bs, rfl⟩ := List.exists_cons_of_ne_nil hne
  have hb := hbytes b (by simp)
  have hbquote : b ≠ quote := by simpa using hquote
  have hfirst : Transducer.run Scan.step (.beforeValue k) [b] = (.plain k [b], []) := by
    simp [Transducer.run, Scan.step, hb.1, hb.2, hbquote]
  have hrest : Transducer.run Scan.step (.plain k [b]) bs = (.plain k (bs.reverse ++ [b]), []) := by
    apply Transducer.run_collect
    intro c hc acc
    have := hbytes c (by simp [hc])
    simp [Scan.step, this.1, this.2]
  simpa using Transducer.run_append_of hfirst hrest

theorem run_setting {s : Setting} (hk : Name s.1) (hv : Plain s.2) (hne : s.2 ≠ []) :
    Transducer.run Scan.step .between (writeSetting s) = (.plain s.1 s.2.reverse, []) := by
  have h := Transducer.run_append_of (run_keyword hk) (run_value hv hne s.1)
  simpa [writeSetting] using h

theorem write_cons (s t : Setting) (rest : List Setting) :
    write (s :: t :: rest) = writeSetting s ++ blank :: write (t :: rest) := by
  simp [write, List.intercalate]

theorem run_write {s : Setting} {rest : List Setting}
    (h : ∀ t ∈ s :: rest, Name t.1 ∧ Plain t.2 ∧ t.2 ≠ []) :
    ∃ last : Setting, ∃ front, Transducer.run Scan.step .between (write (s :: rest)) =
      (.plain last.1 last.2.reverse, front) ∧ front ++ [last] = s :: rest := by
  induction rest generalizing s with
  | nil =>
    obtain ⟨hk, hv, hne⟩ := h s (by simp)
    exact ⟨s, [], by simpa [write] using run_setting hk hv hne, rfl⟩
  | cons t rest ih =>
    obtain ⟨hk, hv, hne⟩ := h s (by simp)
    obtain ⟨last, front, hrun, hlist⟩ := @ih t fun u hu => h u (by simp [hu])
    have hblank : Transducer.run Scan.step (.plain s.1 s.2.reverse) [blank] = (.between, [s]) := by
      simp [Transducer.run, Scan.step]
    have hall := Transducer.run_append_of (run_setting hk hv hne)
      (Transducer.run_append_of hblank hrun)
    refine ⟨last, s :: front, ?_, by simp [hlist]⟩
    rw [write_cons]
    simpa using hall

theorem parse_write {known : Bytes → Bool} {settings : List Setting}
    (h : ∀ s ∈ settings, Name s.1 ∧ Plain s.2 ∧ s.2 ≠ []) (hknown : ∀ s ∈ settings, known s.1) :
    parse known (write settings) = some settings := by
  cases settings with
  | nil => rfl
  | cons s rest =>
    obtain ⟨last, front, hrun, hlist⟩ := run_write h
    have hall : ((front ++ [last]).all fun s => known s.1) = true := by
      rw [hlist, List.all_eq_true]
      exact hknown
    simp only [parse, hrun, Scan.finish, List.reverse_reverse]
    rw [if_pos hall, hlist]

theorem effective_of_nodup {settings : List Setting} (hd : (settings.map Prod.fst).Nodup)
    (k : Bytes) : effective settings k = settings.lookup k := by
  rw [effective]
  cases h : settings.lookup k with
  | none => simpa using h
  | some v =>
    obtain ⟨front, rest, rfl, -⟩ := List.lookup_eq_some_iff.1 h
    apply lookup_of_mem
    · rw [List.map_reverse]
      exact List.pairwise_reverse.2 (hd.imp Ne.symm)
    · simp

def Scan.potential : Scan → ℕ
  | .between => 0
  | .name acc => acc.length
  | .afterName k => k.length
  | .beforeValue k => k.length + 1
  | .plain k acc => k.length + 1 + acc.length
  | .plainEscape k acc => k.length + 1 + acc.length
  | .quoted k acc => k.length + 1 + acc.length
  | .quotedEscape k acc => k.length + 1 + acc.length
  | .failed => 0

def cost (s : Setting) : ℕ := s.1.length + s.2.length + 2

abbrev Tight : Scan → Bytes → Prop := Transducer.Tight Scan.step Scan.potential cost

theorem step_bounded : Transducer.Bounded Scan.step Scan.potential cost := by
  intro st b
  cases st with
  | between =>
    simp only [Scan.step]
    split_ifs <;> simp [Scan.potential]
  | name acc =>
    simp only [Scan.step]
    split_ifs <;> simp [Scan.potential]
  | afterName k =>
    simp only [Scan.step]
    split_ifs <;> simp [Scan.potential]
  | beforeValue k =>
    simp only [Scan.step]
    split_ifs <;> simp [Scan.potential]
  | plain k acc =>
    simp only [Scan.step]
    split_ifs <;> simp only [Scan.potential, cost, Transducer.totalWeight_cons,
      Transducer.totalWeight_nil, List.length_reverse, List.length_cons] <;> omega
  | plainEscape k acc => simp [Scan.step, Scan.potential, ← add_assoc]
  | quoted k acc =>
    simp only [Scan.step]
    split_ifs <;> simp only [Scan.potential, cost, Transducer.totalWeight_cons,
      Transducer.totalWeight_nil, List.length_reverse, List.length_cons] <;> omega
  | quotedEscape k acc => simp [Scan.step, Scan.potential, ← add_assoc]
  | failed => simp [Scan.step, Scan.potential]

theorem finish_cost {st : Scan} {last : List Setting} (h : st.finish = some last) :
    Transducer.totalWeight cost last ≤ st.potential + 1 ∧
      (Transducer.totalWeight cost last = st.potential + 1 → last.length = 1) := by
  cases st <;> simp only [Scan.finish, Option.some.injEq, reduceCtorEq] at h <;>
  · subst h
    simp [Scan.potential, cost]
    try omega

def Scan.Calm : Scan → Prop
  | .between => True
  | .name _ => True
  | .beforeValue _ => True
  | .plain _ _ => True
  | _ => False

theorem tight_step {st : Scan} (hst : st.Calm) {b : UInt8}
    (h : (st.step b).1.potential + Transducer.totalWeight cost (st.step b).2 = st.potential + 1) :
    (st.step b).1.Calm ∧ (st.step b).2.length = if isSpace b then 1 else 0 := by
  cases st with
  | between =>
    simp only [Scan.step] at h ⊢
    split_ifs at h ⊢ <;> simp_all [Scan.potential, Scan.Calm]
  | name acc =>
    simp only [Scan.step] at h ⊢
    split_ifs at h ⊢ <;> simp_all [Scan.potential, Scan.Calm]
  | beforeValue k =>
    simp only [Scan.step] at h ⊢
    split_ifs at h ⊢ <;> simp_all [Scan.potential, Scan.Calm]
  | plain k acc =>
    simp only [Scan.step] at h ⊢
    split_ifs at h ⊢ <;> simp_all [Scan.potential, Scan.Calm]
  | afterName k => exact hst.elim
  | plainEscape k acc => exact hst.elim
  | quoted k acc => exact hst.elim
  | quotedEscape k acc => exact hst.elim
  | failed => exact hst.elim

theorem tight_countP {st : Scan} (hst : st.Calm) {text : Bytes} (h : Tight st text) :
    (Transducer.run Scan.step st text).2.length = text.countP isSpace := by
  induction text generalizing st with
  | nil => rfl
  | cons b text ih =>
    obtain ⟨hstep, hrest⟩ := h
    obtain ⟨hcalm, hlen⟩ := tight_step hst hstep
    rw [Transducer.run, List.length_append, hlen, ih hcalm hrest, List.countP_cons, add_comm]

theorem length_write (s : Setting) (rest : List Setting) :
    (write (s :: rest)).length + 1 = Transducer.totalWeight cost (s :: rest) := by
  induction rest generalizing s with
  | nil => simp [write, writeSetting, cost]; omega
  | cons t rest ih =>
    have ht := ih t
    rw [write_cons, List.length_append, List.length_cons, Transducer.totalWeight_cons, ← ht]
    simp [writeSetting, cost]
    omega

theorem countP_name {k : Bytes} (hk : Name k) : k.countP isSpace = 0 := by
  rw [List.countP_eq_zero]
  intro b hb
  simp [(hk.2 b hb).1]

theorem countP_write {s : Setting} {rest : List Setting} (h : ∀ t ∈ s :: rest, Name t.1) :
    (write (s :: rest)).countP isSpace =
      rest.length + ((s :: rest).map fun t => t.2.countP isSpace).sum := by
  induction rest generalizing s with
  | nil => simp [write, writeSetting, countP_name (h s (by simp))]
  | cons t rest ih =>
    have ht := @ih t fun u hu => h u (by simp [hu])
    rw [write_cons, List.countP_append, List.countP_cons, ht]
    simp [writeSetting, countP_name (h s (by simp))]
    omega

theorem tight_plain {k acc v : Bytes} (hv : ∀ b ∈ v, isSpace b = false)
    (h : Tight (.plain k acc) v) : ∀ b ∈ v, b ≠ backslash := by
  induction v generalizing acc with
  | nil => simp
  | cons b v ih =>
    obtain ⟨hstep, hrest⟩ := h
    have hspace : isSpace b = false := hv b (by simp)
    have hb : b ≠ backslash := by
      intro he
      simp [Scan.step, he, Scan.potential] at hstep
    have hnext : Scan.step (.plain k acc) b = (.plain k (b :: acc), []) := by
      simp [Scan.step, hspace, hb]
    rw [hnext] at hrest
    intro c hc
    rcases List.mem_cons.1 hc with rfl | hc
    · exact hb
    · exact ih (fun d hd => hv d (by simp [hd])) hrest c hc

theorem tight_value {k v : Bytes} (hne : v ≠ []) (hv : ∀ b ∈ v, isSpace b = false)
    (h : Tight (.beforeValue k) v) : Plain v := by
  obtain ⟨b, bs, rfl⟩ := List.exists_cons_of_ne_nil hne
  obtain ⟨hstep, hrest⟩ := h
  have hspace : isSpace b = false := hv b (by simp)
  have hquote : b ≠ quote := by
    intro he
    simp [Scan.step, he, Scan.potential] at hstep
  have hb : b ≠ backslash := by
    intro he
    simp [Scan.step, he, Scan.potential] at hstep
  have hnext : Scan.step (.beforeValue k) b = (.plain k [b], []) := by
    simp [Scan.step, hspace, hquote, hb]
  rw [hnext] at hrest
  have hbs := tight_plain (fun c hc => hv c (by simp [hc])) hrest
  refine ⟨fun c hc => ⟨hv c hc, ?_⟩, by simpa using hquote⟩
  rcases List.mem_cons.1 hc with rfl | hc
  · exact hb
  · exact hbs c hc

theorem tight_setting {s : Setting} {tail : Bytes} (hs : Name s.1 ∧ s.2 ≠ [])
    (hv : ∀ b ∈ s.2, isSpace b = false) (h : Tight .between (writeSetting s ++ tail)) :
    Plain s.2 := by
  have htext : writeSetting s ++ tail = s.1 ++ [equals] ++ (s.2 ++ tail) := by simp [writeSetting]
  rw [htext] at h
  have hrest := (Transducer.tight_append.1 h).2
  rw [run_keyword hs.1] at hrest
  exact tight_value hs.2 hv (Transducer.tight_append.1 hrest).1

theorem tight_write {s : Setting} {rest : List Setting} (hk : ∀ t ∈ s :: rest, Name t.1 ∧ t.2 ≠ [])
    (hv : ∀ t ∈ s :: rest, ∀ b ∈ t.2, isSpace b = false) (h : Tight .between (write (s :: rest))) :
    ∀ t ∈ s :: rest, Plain t.2 := by
  induction rest generalizing s with
  | nil =>
    have hplain := @tight_setting s [] (hk s (by simp)) (hv s (by simp)) (by simpa [write] using h)
    simpa using hplain
  | cons t rest ih =>
    rw [write_cons] at h
    have hs := hk s (by simp)
    have hplain := tight_setting hs (hv s (by simp)) h
    have hrest := (Transducer.tight_append.1 h).2
    rw [run_setting hs.1 hplain hs.2] at hrest
    have hblank : (Scan.step (.plain s.1 s.2.reverse) blank).1 = .between := by
      simp [Scan.step]
    have htail : Tight .between (write (t :: rest)) := hblank ▸ hrest.2
    have hothers := ih (fun u hu => hk u (by simp [hu])) (fun u hu => hv u (by simp [hu])) htail
    intro u hu
    rcases List.mem_cons.1 hu with rfl | hu
    · exact hplain
    · exact hothers u hu

theorem parse_eq_some {known : Bytes → Bool} {text : Bytes} {read : List Setting}
    (h : parse known text = some read) :
    ∃ last, (Transducer.run Scan.step .between text).1.finish = some last ∧
      read = (Transducer.run Scan.step .between text).2 ++ last := by
  simp only [parse] at h
  split at h
  · cases h
  · next last hlast =>
    split_ifs at h
    exact ⟨last, hlast, (Option.some.inj h).symm⟩

theorem mem_of_effective {read : List Setting} {k v : Bytes} (h : effective read k = some v) :
    (k, v) ∈ read := by
  obtain ⟨front, rest, hread, -⟩ := List.lookup_eq_some_iff.1 h
  exact List.mem_reverse.1 (hread ▸ by simp)

/-- All settings are read, and they leave no room for another. -/
theorem read_perm {known : Bytes → Bool} {s : Setting} {rest settings read : List Setting}
    (hk : Keywords settings)
    (hlong : Transducer.totalWeight cost (s :: rest) ≤ Transducer.totalWeight cost settings + 1)
    (hparse : parse known (write (s :: rest)) = some read)
    (heff : ∀ k, effective read k = settings.lookup k) : read.Perm settings := by
  obtain ⟨last, hlast, hread⟩ := parse_eq_some hparse
  have hsub : List.Subperm settings read := by
    apply List.subperm_of_subset (List.Nodup.of_map _ hk.1)
    intro t ht
    exact mem_of_effective ((heff t.1).trans (lookup_of_mem hk.1 ht))
  obtain ⟨mid, hmid, hsublist⟩ := hsub
  obtain ⟨extra, hextra⟩ := hsublist.exists_perm_append
  have hperm : read.Perm (settings ++ extra) := hextra.trans (hmid.append_right extra)
  have hcost : Transducer.totalWeight cost read =
      Transducer.totalWeight cost settings + Transducer.totalWeight cost extra := by
    rw [← Transducer.totalWeight_append]
    exact Transducer.totalWeight_perm cost hperm
  have hwritten := length_write s rest
  have hrun := Transducer.run_potential step_bounded .between (write (s :: rest))
  have hfinish := (finish_cost hlast).1
  rw [hread, Transducer.totalWeight_append] at hcost
  have hstart : Scan.between.potential = 0 := rfl
  cases extra with
  | nil => simpa using hperm
  | cons e extra =>
    have hpositive : 2 ≤ Transducer.totalWeight cost (e :: extra) := by
      rw [Transducer.totalWeight_cons, cost]
      omega
    omega

theorem tight_of_yields {known : Bytes → Bool} {s : Setting} {rest settings : List Setting}
    (hk : Keywords settings) (hlen : settings.length = (s :: rest).length)
    (hlong : Transducer.totalWeight cost (s :: rest) ≤ Transducer.totalWeight cost settings)
    (h : Yields known (write (s :: rest)) settings) :
    Tight .between (write (s :: rest)) ∧
      (Transducer.run Scan.step .between (write (s :: rest))).2.length = rest.length := by
  obtain ⟨read, hparse, heff⟩ := h
  have hperm := read_perm hk (by omega) hparse heff
  obtain ⟨last, hlast, hread⟩ := parse_eq_some hparse
  have hcost := Transducer.totalWeight_perm cost hperm
  have hwritten := length_write s rest
  have hrun := Transducer.run_potential step_bounded .between (write (s :: rest))
  obtain ⟨hfinish, hone⟩ := finish_cost hlast
  rw [hread, Transducer.totalWeight_append] at hcost
  have hstart : Scan.between.potential = 0 := rfl
  refine ⟨Transducer.tight_of_potential step_bounded (by omega), ?_⟩
  have hcount := hperm.length_eq
  rw [hread, List.length_append, hone (by omega), hlen] at hcount
  simpa using hcount

def Scan.marks (b : UInt8) : Scan → ℕ
  | .between => 0
  | .name acc => acc.count b
  | .afterName k => k.count b
  | .beforeValue k => k.count b
  | .plain k acc => k.count b + acc.count b
  | .plainEscape k acc => k.count b + acc.count b
  | .quoted k acc => k.count b + acc.count b
  | .quotedEscape k acc => k.count b + acc.count b
  | .failed => 0

def marks (b : UInt8) (s : Setting) : ℕ := s.1.count b + s.2.count b

/-- A byte without a meaning of its own in the grammar. -/
def Ordinary (b : UInt8) : Prop := isSpace b = false ∧ b ≠ equals ∧ b ≠ quote ∧ b ≠ backslash

theorem ordinary_minus : Ordinary minus := by
  simp [Ordinary, isSpace, minus, equals, quote, backslash]

theorem step_marks {b : UInt8} (hb : Ordinary b) (st : Scan) (c : UInt8) (h : (st.step c).1 ≠ .failed) :
    (st.step c).1.marks b + Transducer.totalWeight (marks b) (st.step c).2 =
      st.marks b + if c = b then 1 else 0 := by
  obtain ⟨hspace, hequals, hquote, hbackslash⟩ := hb
  by_cases hc : c = b
  · subst hc
    cases st <;> simp_all [Scan.step, Scan.marks, ← add_assoc]
  · cases st <;> simp only [Scan.step] at h ⊢ <;>
      split_ifs at h ⊢ <;> simp_all [Scan.marks, marks]

theorem run_failed (text : Bytes) : (Transducer.run Scan.step .failed text).1 = .failed := by
  induction text with
  | nil => rfl
  | cons c text ih => exact ih

/-- An ordinary byte is never lost. -/
theorem run_marks {b : UInt8} (hb : Ordinary b) {st : Scan} {text : Bytes}
    (h : (Transducer.run Scan.step st text).1 ≠ .failed) :
    (Transducer.run Scan.step st text).1.marks b +
        Transducer.totalWeight (marks b) (Transducer.run Scan.step st text).2 =
      st.marks b + text.count b := by
  induction text generalizing st with
  | nil => simp [Transducer.run]
  | cons c text ih =>
    have hstep : (st.step c).1 ≠ .failed := by
      intro hfail
      rw [Transducer.run, hfail] at h
      exact h (run_failed text)
    have hnow := step_marks hb st c hstep
    have hrest := @ih (st.step c).1 h
    simp only [Transducer.run, Transducer.totalWeight_append, List.count_cons, beq_iff_eq] at hrest ⊢
    omega

theorem parse_marks {b : UInt8} (hb : Ordinary b) {known : Bytes → Bool} {text : Bytes}
    {read : List Setting} (h : parse known text = some read) :
    Transducer.totalWeight (marks b) read = text.count b := by
  obtain ⟨last, hlast, hread⟩ := parse_eq_some h
  have hrun := @run_marks b hb .between text fun hfail => by simp [hfail, Scan.finish] at hlast
  have hfinish : Transducer.totalWeight (marks b) last =
      (Transducer.run Scan.step .between text).1.marks b := by
    cases hst : (Transducer.run Scan.step .between text).1 <;>
      simp only [hst, Scan.finish, Option.some.injEq, reduceCtorEq] at hlast <;>
      simp [← hlast, marks, Scan.marks]
  have hstart : Scan.between.marks b = 0 := rfl
  rw [hread, Transducer.totalWeight_append]
  omega

theorem count_write {b : UInt8} (hb : Ordinary b) (s : Setting) (rest : List Setting) :
    (write (s :: rest)).count b = Transducer.totalWeight (marks b) (s :: rest) := by
  have hequals : (equals == b) = false := beq_eq_false_iff_ne.2 hb.2.1.symm
  have hblank : (blank == b) = false := beq_eq_false_iff_ne.2 fun h => by simp [← h, Ordinary] at hb
  induction rest generalizing s with
  | nil => simp [write, writeSetting, marks, List.count_cons, hequals]
  | cons t rest ih =>
    rw [write_cons, List.count_append, List.count_cons, ih, Transducer.totalWeight_cons]
    simp [writeSetting, marks, List.count_cons, hequals, hblank]

/-- What is yielded has the ordinary bytes of what was written. -/
theorem marks_of_yields {b : UInt8} (hb : Ordinary b) {known : Bytes → Bool} {s : Setting}
    {rest settings : List Setting} (hk : Keywords settings)
    (hlong : Transducer.totalWeight cost (s :: rest) ≤ Transducer.totalWeight cost settings + 1)
    (h : Yields known (write (s :: rest)) settings) :
    Transducer.totalWeight (marks b) settings = Transducer.totalWeight (marks b) (s :: rest) := by
  obtain ⟨read, hparse, heff⟩ := h
  have hperm := read_perm hk hlong hparse heff
  rw [← count_write hb, ← parse_marks hb hparse, Transducer.totalWeight_perm (marks b) hperm]

theorem eq_map_lookup {settings : List Setting} (hd : (settings.map Prod.fst).Nodup) :
    settings = (settings.map Prod.fst).map fun k => (k, (settings.lookup k).getD []) := by
  rw [List.map_map]
  refine (List.map_id settings).symm.trans (List.map_congr_left fun s hs => ?_)
  simp [lookup_of_mem hd hs]

theorem yields_iff_of_longer {known : Bytes → Bool} {settings others : List Setting}
    (hk : Keywords settings) (hk' : Keywords others) (hkeys : others.map Prod.fst = settings.map Prod.fst)
    (hlong : Transducer.totalWeight cost settings ≤ Transducer.totalWeight cost others)
    (hknown : ∀ s ∈ settings, known s.1) :
    Yields known (write settings) others ↔ others = settings ∧ ∀ s ∈ settings, Plain s.2 := by
  have hread (hplain : ∀ s ∈ settings, Plain s.2) : parse known (write settings) = some settings :=
    parse_write (fun s hs => ⟨(hk.2 s hs).1, hplain s hs, (hk.2 s hs).2⟩) hknown
  constructor
  · intro h
    have hplain : ∀ s ∈ settings, Plain s.2 := by
      cases settings with
      | nil => simp
      | cons s rest =>
        have hlen := congrArg List.length hkeys
        rw [List.length_map, List.length_map] at hlen
        obtain ⟨htight, hcount⟩ := tight_of_yields hk' hlen hlong h
        rw [@tight_countP .between trivial _ htight,
          countP_write fun t ht => (hk.2 t ht).1] at hcount
        have hzero : ((s :: rest).map fun t => t.2.countP isSpace).sum = 0 := by omega
        have hspaces : ∀ t ∈ s :: rest, ∀ b ∈ t.2, isSpace b = false := by
          intro t ht b hb
          have ht0 := List.sum_eq_zero_iff_forall_eq_nat.1 hzero _ (List.mem_map_of_mem ht)
          simpa using List.countP_eq_zero.1 ht0 b hb
        exact tight_write (fun t ht => hk.2 t ht) hspaces htight
    refine ⟨?_, hplain⟩
    obtain ⟨read, hparse, heff⟩ := h
    rw [hread hplain, Option.some.injEq] at hparse
    subst hparse
    rw [eq_map_lookup hk'.1, eq_map_lookup hk.1, hkeys]
    exact List.map_congr_left fun k _ => by rw [← heff k, effective_of_nodup hk.1]
  · rintro ⟨rfl, hplain⟩
    exact ⟨others, hread hplain, effective_of_nodup hk.1⟩

theorem yields_write_iff {known : Bytes → Bool} {settings : List Setting} (hk : Keywords settings)
    (hknown : ∀ s ∈ settings, known s.1) :
    Yields known (write settings) settings ↔ ∀ s ∈ settings, Plain s.2 :=
  (yields_iff_of_longer hk hk rfl le_rfl hknown).trans (and_iff_right rfl)

theorem parse_shorter {known : Bytes → Bool} {text : Bytes} {read : List Setting}
    (h : parse known text = some read) : ∀ s ∈ read, s.2.length < text.length := by
  obtain ⟨last, hlast, hread⟩ := parse_eq_some h
  have hrun := Transducer.run_potential step_bounded .between text
  have hfinish := (finish_cost hlast).1
  have hstart : Scan.between.potential = 0 := rfl
  intro s hs
  obtain ⟨front, back, hsplit⟩ := List.append_of_mem hs
  have hcost := congrArg (Transducer.totalWeight cost) (hread.symm.trans hsplit)
  simp only [Transducer.totalWeight_append, Transducer.totalWeight_cons] at hcost
  rw [cost] at hcost
  omega

end Conninfo
