import Mathlib.Data.List.Basic

/-!
# Streams that are read in chunks

Each read of a socket takes a chunk of what has arrived, at most as much as the reader's
buffer holds, and the reader keeps the part that it has not used yet. What is read depends
only on the sequence that arrives; which part of it a reader has taken and not used depends
on the chunks.
-/

namespace ChunkedStream

structure Chunk (α : Type*) (size : ℕ) where
  items : List α
  nonempty : items ≠ []
  fits : items.length ≤ size

/-- What the reader has taken and not used, and what is still to arrive. -/
structure Stream (α : Type*) (size : ℕ) where
  buffer : List α
  chunks : List (Chunk α size)

variable {α : Type*} {size : ℕ}

def items (chunks : List (Chunk α size)) : List α := chunks.flatMap Chunk.items

def Stream.next : Stream α size → Option (α × Stream α size)
  | ⟨b :: bs, chunks⟩ => some (b, ⟨bs, chunks⟩)
  | ⟨[], ⟨b :: bs, _, _⟩ :: chunks⟩ => some (b, ⟨bs, chunks⟩)
  | ⟨[], ⟨[], h, _⟩ :: _⟩ => absurd rfl h
  | ⟨[], []⟩ => none

/-- A new reader on the same socket: what the last one has taken is gone. -/
def Stream.renew (s : Stream α size) : Stream α size := ⟨[], s.chunks⟩

def Reads : Stream α size → List α → Stream α size → Prop
  | s, [], t => s = t
  | s, b :: bs, t => ∃ u, s.next = some (b, u) ∧ Reads u bs t

theorem reads_append {s t : Stream α size} {as bs : List α} :
    Reads s (as ++ bs) t ↔ ∃ u, Reads s as u ∧ Reads u bs t := by
  induction as generalizing s with
  | nil => simp [Reads]
  | cons a as ih =>
    simp only [List.cons_append, Reads, ih]
    constructor
    · rintro ⟨v, hv, u, hu, hbs⟩
      exact ⟨u, ⟨v, hv, hu⟩, hbs⟩
    · rintro ⟨u, ⟨v, hv, hu⟩, hbs⟩
      exact ⟨v, hv, u, hu, hbs⟩

theorem reads_buffer (bs lost : List α) (chunks : List (Chunk α size)) :
    Reads ⟨bs ++ lost, chunks⟩ bs ⟨lost, chunks⟩ := by
  induction bs with
  | nil => rfl
  | cons b bs ih => exact ⟨_, rfl, ih⟩

theorem reads_chunk {c : Chunk α size} {bs lost : List α} (h : c.items = bs ++ lost) (hne : bs ≠ [])
    (rest : List (Chunk α size)) : Reads ⟨[], c :: rest⟩ bs ⟨lost, rest⟩ := by
  obtain ⟨items, hitems, hfits⟩ := c
  cases bs with
  | nil => exact absurd rfl hne
  | cons b bs =>
    dsimp only at h
    subst h
    exact ⟨_, rfl, reads_buffer bs lost rest⟩

theorem reads_chunks (chunks rest : List (Chunk α size)) :
    Reads ⟨[], chunks ++ rest⟩ (items chunks) ⟨[], rest⟩ := by
  induction chunks with
  | nil => rfl
  | cons c chunks ih =>
    rw [items, List.flatMap_cons, reads_append]
    exact ⟨_, reads_chunk (List.append_nil _).symm c.nonempty _, ih⟩

/-- A message arrives in chunks, the last of which may hold more than its end. -/
structure Arrives (message lost : List α) (chunks : List (Chunk α size)) : Prop where
  arrives : ∃ front last, chunks = front ++ [last] ∧ items chunks = message ++ lost ∧
    (items front).length < message.length

theorem Arrives.reads {message lost : List α} {chunks : List (Chunk α size)} (h : Arrives message lost chunks)
    (rest : List (Chunk α size)) : Reads ⟨[], chunks ++ rest⟩ message ⟨lost, rest⟩ := by
  obtain ⟨front, last, rfl, hitems, hlen⟩ := h.arrives
  have hlast : items front ++ last.items = message ++ lost := by
    simpa [items] using hitems
  obtain ⟨tail, rfl, htail⟩ : ∃ tail, message = items front ++ tail ∧ last.items = tail ++ lost := by
    rcases List.append_eq_append_iff.1 hlast with ⟨tail, hm, hl⟩ | ⟨tail, hm, hl⟩
    · exact ⟨tail, hm, hl⟩
    · have := congrArg List.length hm
      simp only [List.length_append] at this
      omega
  have hne : tail ≠ [] := by
    rintro rfl
    simp at hlen
  rw [List.append_assoc, reads_append]
  exact ⟨_, reads_chunks front _, reads_chunk htail hne rest⟩

end ChunkedStream
