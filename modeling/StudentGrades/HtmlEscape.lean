import StudentGrades.MarkupTokens
import StudentGrades.Template

/-!
# Escaped text and its decoder

`escapeHtml` replaces five bytes by entities. The decoder replaces exactly these
five entities, scanning once from left to right; after an entity it skips the
entity's remaining bytes. Escaped text contains no byte that could end a text or
a quoted value.
-/

namespace StudentGrades
open ByteText

namespace Template

def entities : List (Bytes × UInt8) :=
  [(utf8 "&amp;", 38), (utf8 "&lt;", 60), (utf8 "&gt;", 62), (utf8 "&quot;", 34), (utf8 "&#39;", 39)]

def entityAt (text : Bytes) : Option (Bytes × UInt8) :=
  entities.find? fun e => e.1.isPrefixOf text

def unescapeFrom : ℕ → Bytes → Bytes
  | _, [] => []
  | skip+1, _ :: bs => unescapeFrom skip bs
  | 0, b :: bs =>
    match entityAt (b :: bs) with
    | some e => e.2 :: unescapeFrom (e.1.length - 1) bs
    | none => b :: unescapeFrom 0 bs

def unescapeHtml (text : Bytes) : Bytes := unescapeFrom 0 text

theorem entities_head : ∀ e ∈ entities, e.1.head? = some 38 := by decide

theorem entityAt_other {b : UInt8} (h : b ≠ 38) (bs : Bytes) : entityAt (b :: bs) = none := by
  rw [entityAt, List.find?_eq_none]
  intro e he hp
  obtain ⟨rest, hrest⟩ := List.isPrefixOf_iff_prefix.1 hp
  have hhead := entities_head e he
  obtain ⟨x, xs, hx⟩ := List.exists_cons_of_ne_nil (fun hn : e.1 = [] => by simp [hn] at hhead)
  simp only [hx, List.head?_cons, Option.some.injEq, List.cons_append, List.cons.injEq] at hhead hrest
  exact h (hrest.1 ▸ hhead)

theorem unescapeHtml_escapeByte (b : UInt8) (rest : Bytes) :
    unescapeHtml (escapeByte b ++ rest) = b :: unescapeHtml rest := by
  rw [escapeByte]
  split_ifs with hamp hlt hgt hquot hapos
  · subst hamp; rfl
  · subst hlt; rfl
  · subst hgt; rfl
  · subst hquot; rfl
  · subst hapos; rfl
  · simp [unescapeHtml, unescapeFrom, entityAt_other hamp]

theorem unescapeHtml_escapeHtml (text : Bytes) : unescapeHtml (escapeHtml text) = text := by
  induction text with
  | nil => rfl
  | cons b bs ih =>
    simp only [escapeHtml] at ih
    rw [escapeHtml, List.flatMap_cons, unescapeHtml_escapeByte, ih]

theorem escapeByte_plain (b : UInt8) :
    (escapeByte b).all fun x => x != 60 && x != 62 && x != 34 && x != 39 := by
  rw [escapeByte]
  split_ifs with hamp hlt hgt hquot hapos
  · decide
  · decide
  · decide
  · decide
  · decide
  · simp [hlt, hgt, hquot, hapos]

theorem escapeHtml_plain {text : Bytes} {x : UInt8} (h : x ∈ escapeHtml text) :
    x ≠ 60 ∧ x ≠ 62 ∧ x ≠ 34 ∧ x ≠ 39 := by
  obtain ⟨b, -, hb⟩ := List.mem_flatMap.1 h
  simpa [and_assoc] using List.all_eq_true.1 (escapeByte_plain b) x hb

theorem lt_not_mem_escapeHtml (text : Bytes) : Markup.lt ∉ escapeHtml text :=
  fun h => (escapeHtml_plain h).1 rfl

theorem dquote_not_mem_escapeHtml (text : Bytes) : Markup.dquote ∉ escapeHtml text :=
  fun h => (escapeHtml_plain h).2.2.1 rfl

def Unmarked (b : UInt8) : Prop := b ≠ 60 ∧ b ≠ 62 ∧ b ≠ 34 ∧ b ≠ 39

theorem escapeByte_eq_self {b : UInt8} (hb : Unmarked b) (hamp : b ≠ 38) : escapeByte b = [b] := by
  obtain ⟨hlt, hgt, hquot, hapos⟩ := hb
  simp [escapeByte, hamp, hlt, hgt, hquot, hapos]

theorem escapeHtml_eq_self {text : Bytes} (h : ∀ b ∈ text, Unmarked b ∧ b ≠ 38) :
    escapeHtml text = text := by
  induction text with
  | nil => rfl
  | cons b text ih =>
    have hb := h b (by simp)
    have htext := ih fun c hc => h c (by simp [hc])
    rw [escapeHtml, List.flatMap_cons, escapeByte_eq_self hb.1 hb.2, ← escapeHtml, htext]
    rfl

/-- Text without markup bytes in which an ampersand always begins an entity. -/
def Escaped (text : Bytes) : Prop :=
  ∀ front b rest, text = front ++ b :: rest →
    Unmarked b ∧ (b = 38 → ∃ e ∈ entities, e.1 <+: b :: rest)

theorem Escaped.suffix {front text : Bytes} (h : Escaped (front ++ text)) : Escaped text := by
  intro mid b rest htext
  exact h (front ++ mid) b rest (by simp [htext])

theorem escaped_cons {b : UInt8} {text : Bytes} (hb : Unmarked b)
    (hamp : b = 38 → ∃ e ∈ entities, e.1 <+: b :: text) (h : Escaped text) :
    Escaped (b :: text) := by
  intro front c rest htext
  cases front with
  | nil =>
    obtain ⟨rfl, rfl⟩ := List.cons.inj htext
    exact ⟨hb, hamp⟩
  | cons f front => exact h front c rest (List.cons.inj htext).2

theorem escaped_append {bytes text : Bytes} (hb : ∀ b ∈ bytes, Unmarked b ∧ b ≠ 38)
    (h : Escaped text) : Escaped (bytes ++ text) := by
  induction bytes with
  | nil => exact h
  | cons b bytes ih =>
    have hhead := hb b (by simp)
    exact escaped_cons hhead.1 (fun he => absurd he hhead.2) (ih fun c hc => hb c (by simp [hc]))

theorem entities_shape : entities.all (fun e => e.1.head? == some 38 &&
    e.1.tail.all (fun b => b != 60 && b != 62 && b != 34 && b != 39 && b != 38) &&
    escapeByte e.2 == e.1) = true := by decide

theorem entity_eq {e : Bytes × UInt8} (he : e ∈ entities) :
    ∃ tail, e.1 = 38 :: tail ∧ (∀ b ∈ tail, Unmarked b ∧ b ≠ 38) ∧ escapeByte e.2 = e.1 := by
  have hshape := List.all_eq_true.1 entities_shape e he
  simp only [Bool.and_eq_true, beq_iff_eq, List.all_eq_true, bne_iff_ne] at hshape
  obtain ⟨⟨hhead, htail⟩, hescape⟩ := hshape
  refine ⟨e.1.tail, (List.cons_head?_tail hhead).symm, fun b hb => ?_, hescape⟩
  simpa [Unmarked, and_assoc] using htail b hb

theorem escapeByte_cases (b : UInt8) :
    (∃ e ∈ entities, escapeByte b = e.1) ∨ escapeByte b = [b] ∧ Unmarked b ∧ b ≠ 38 := by
  rw [escapeByte]
  split_ifs with hamp hlt hgt hquot hapos
  · exact .inl ⟨(utf8 "&amp;", 38), by decide, rfl⟩
  · exact .inl ⟨(utf8 "&lt;", 60), by decide, rfl⟩
  · exact .inl ⟨(utf8 "&gt;", 62), by decide, rfl⟩
  · exact .inl ⟨(utf8 "&quot;", 34), by decide, rfl⟩
  · exact .inl ⟨(utf8 "&#39;", 39), by decide, rfl⟩
  · exact .inr ⟨rfl, ⟨hlt, hgt, hquot, hapos⟩, hamp⟩

theorem escaped_escapeHtml (text : Bytes) : Escaped (escapeHtml text) := by
  induction text with
  | nil =>
    intro front b rest h
    simp [escapeHtml] at h
  | cons b text ih =>
    rw [escapeHtml, List.flatMap_cons]
    rcases escapeByte_cases b with ⟨e, he, hb⟩ | ⟨hb, hplain, hamp⟩
    · obtain ⟨tail, htail, hplain, -⟩ := entity_eq he
      have hrest : Escaped (tail ++ escapeHtml text) := escaped_append hplain ih
      rw [hb, htail]
      exact escaped_cons (by simp [Unmarked]) (fun _ => ⟨e, he, by simp [htail]⟩) hrest
    · rw [hb]
      exact escaped_cons hplain (fun h => absurd h hamp) ih

theorem Escaped.exists_escapeHtml {text : Bytes} (h : Escaped text) : ∃ s, escapeHtml s = text := by
  induction hn : text.length using Nat.strong_induction_on generalizing text with
  | _ n ih =>
    cases text with
    | nil => exact ⟨[], rfl⟩
    | cons b rest =>
      obtain ⟨hplain, hentity⟩ := h [] b rest rfl
      by_cases hamp : b = 38
      · obtain ⟨e, he, after, hafter⟩ := hentity hamp
        obtain ⟨tail, htail, -, hescape⟩ := entity_eq he
        have hlen : after.length < n := by
          have := congrArg List.length hafter
          simp only [htail, List.length_append, List.length_cons] at this hn
          omega
        obtain ⟨s, hs⟩ := ih after.length hlen (Escaped.suffix (hafter ▸ h)) rfl
        exact ⟨e.2 :: s, by rw [escapeHtml, List.flatMap_cons, hescape, ← hafter, ← hs, escapeHtml]⟩
      · obtain ⟨s, hs⟩ := ih rest.length (by simp [← hn])
          (@Escaped.suffix [b] rest h) rfl
        exact ⟨b :: s, by
          rw [escapeHtml, List.flatMap_cons, escapeByte_eq_self hplain hamp, ← hs, escapeHtml]
          rfl⟩

theorem escapeHtml_unescapeHtml {text : Bytes} (h : Escaped text) :
    escapeHtml (unescapeHtml text) = text := by
  obtain ⟨s, rfl⟩ := h.exists_escapeHtml
  rw [unescapeHtml_escapeHtml]

theorem escapeHtml_inverse :
    (∀ s, unescapeHtml (escapeHtml s) = s ∧ Escaped (escapeHtml s)) ∧
      (∀ t, Escaped t → escapeHtml (unescapeHtml t) = t) ∧
      Function.Injective escapeHtml ∧ Set.range escapeHtml = {t | Escaped t} := by
  refine ⟨fun s => ⟨unescapeHtml_escapeHtml s, escaped_escapeHtml s⟩,
    fun t => escapeHtml_unescapeHtml, Function.LeftInverse.injective unescapeHtml_escapeHtml, ?_⟩
  ext t
  constructor
  · intro ⟨s, hs⟩
    exact hs ▸ escaped_escapeHtml s
  · exact Escaped.exists_escapeHtml

end Template
end StudentGrades
