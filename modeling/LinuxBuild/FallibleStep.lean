import Mathlib.Data.List.Basic

/-!
# Steps that may fail and may fault

A step answers a state with a new one and with its success, or faults. A failure ends the
steps behind it; a fault has no answer at all.
-/
namespace FallibleStep

universe u
variable {State : Type u}

abbrev Step (State : Type u) := State → Option (Bool × State)

def done : Step State := fun s => some (true, s)

def Step.andThen (a b : Step State) : Step State := fun s =>
  match a s with
  | none => none
  | some (true, s) => b s
  | some (false, s) => some (false, s)

/-- From a state with `P` there is no fault: either `Q` holds behind a success or `E` behind a
failure. -/
def Triple (P : State → Prop) (a : Step State) (Q E : State → Prop) : Prop :=
  ∀ s, P s → (∃ t, a s = some (true, t) ∧ Q t) ∨ ∃ t, a s = some (false, t) ∧ E t

variable {P P' Q Q' R E E' : State → Prop} {a b : Step State}

theorem triple_done : Triple P done P E := fun s hs => Or.inl ⟨s, rfl, hs⟩

/-- A step that cannot fail -/
theorem triple_of_succeeds (h : ∀ s, P s → ∃ t, a s = some (true, t) ∧ Q t) : Triple P a Q E :=
  fun s hs => Or.inl (h s hs)

theorem Triple.andThen (ha : Triple P a Q E) (hb : Triple Q b R E) :
    Triple P (a.andThen b) R E := by
  intro s hs
  rcases ha s hs with ⟨t, ht, hq⟩ | ⟨t, ht, he⟩
  · rcases hb t hq with ⟨u, hu, hr⟩ | ⟨u, hu, he⟩
    · exact Or.inl ⟨u, by rw [Step.andThen, ht]; exact hu, hr⟩
    · exact Or.inr ⟨u, by rw [Step.andThen, ht]; exact hu, he⟩
  · exact Or.inr ⟨t, by rw [Step.andThen, ht], he⟩

theorem Triple.mono (h : Triple P a Q E) (hp : ∀ s, P' s → P s) (hq : ∀ s, Q s → Q' s)
    (he : ∀ s, E s → E' s) : Triple P' a Q' E' := by
  intro s hs
  rcases h s (hp s hs) with ⟨t, ht, h'⟩ | ⟨t, ht, h'⟩
  · exact Or.inl ⟨t, ht, hq t h'⟩
  · exact Or.inr ⟨t, ht, he t h'⟩

theorem Triple.failure (h : Triple P a Q E) (he : ∀ s, E s → E' s) : Triple P a Q E' :=
  h.mono (fun _ => id) (fun _ => id) he

end FallibleStep
