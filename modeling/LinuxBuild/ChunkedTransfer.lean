import Mathlib.Data.List.Basic

/-!
# Transfers in chunks

A library hands a message over by calling a write callback once for each chunk, in
order. The callback answers how many bytes it has taken, and the transfer is cut off
when it takes another number than it was given.
-/
namespace ChunkedTransfer

universe u v
variable {State : Type u} {Byte : Type v} {write : State → List Byte → Option (State × Nat)}
variable {chunks : List (List Byte)} {s t : State} {text : List Byte}

def deliver (write : State → List Byte → Option (State × Nat)) :
    List (List Byte) → State → Option State
  | [], s => some s
  | chunk :: chunks, s => do
    let (s, taken) ← write s chunk
    if taken = chunk.length then deliver write chunks s else some s

theorem deliver_cons {chunk : List Byte} (h : write s chunk = some (t, chunk.length)) :
    deliver write (chunk :: chunks) s = deliver write chunks t := by
  simp only [deliver, h, Option.bind_eq_bind, Option.bind_some, if_pos]

/-- A callback that takes every chunk and keeps a property keeps it over a transfer. -/
theorem deliver_keeps {P : State → Prop}
    (hwrite : ∀ s chunk, P s → ∃ t, write s chunk = some (t, chunk.length) ∧ P t)
    (chunks : List (List Byte)) (hs : P s) : ∃ t, deliver write chunks s = some t ∧ P t := by
  induction chunks generalizing s with
  | nil => exact ⟨s, rfl, hs⟩
  | cons chunk chunks ih =>
    obtain ⟨t, ht, hPt⟩ := hwrite s chunk hs
    rw [deliver_cons ht]
    exact ih hPt

/-- A callback that appends every chunk, as long as the text stays below a bound, has
appended the whole message in the end. -/
theorem deliver_appends {Holds : State → List Byte → Prop} {bound : Nat}
    (hwrite : ∀ s text chunk, Holds s text → (text ++ chunk).length < bound →
      ∃ t, write s chunk = some (t, chunk.length) ∧ Holds t (text ++ chunk))
    (hs : Holds s text) (hbound : (text ++ chunks.flatten).length < bound) :
    ∃ t, deliver write chunks s = some t ∧ Holds t (text ++ chunks.flatten) := by
  induction chunks generalizing s text with
  | nil => exact ⟨s, rfl, by simpa using hs⟩
  | cons chunk chunks ih =>
    rw [List.flatten_cons, ← List.append_assoc] at hbound ⊢
    have hchunk : (text ++ chunk).length < bound := by
      rw [List.length_append] at hbound
      omega
    obtain ⟨t, ht, hholds⟩ := hwrite s text chunk hs hchunk
    rw [deliver_cons ht]
    exact ih hholds hbound

end ChunkedTransfer
