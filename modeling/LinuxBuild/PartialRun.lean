import Mathlib.Data.List.Basic

/-!
# Runs of a machine that can fault

A machine answers each input with a new state and an output, or faults. A run is
the list of the inputs it has taken with the outputs it has given; `ok` may hold
every input to a condition on the state and on the run so far.
-/
namespace PartialRun

universe u v w
variable {State : Type u} {Input : Type v} {Output : Type w}

/-- `Run step ok start trace s`: from `start` the machine reaches `s` by `trace`. -/
inductive Run (step : State → Input → Option (State × Output))
    (ok : List (Input × Output) → State → Input → Prop) (start : State) :
    List (Input × Output) → State → Prop where
  | start : Run step ok start [] start
  | snoc {trace : List (Input × Output)} {s t : State} {i : Input} {o : Output} :
      Run step ok start trace s → ok trace s i → step s i = some (t, o) →
      Run step ok start (trace ++ [(i, o)]) t

variable {step : State → Input → Option (State × Output)}
variable {ok : List (Input × Output) → State → Input → Prop} {start : State}

/-- What holds at the start and is kept by every admitted step holds along a run. -/
theorem Run.invariant {Inv : List (Input × Output) → State → Prop} (hstart : Inv [] start)
    (hstep : ∀ {trace s t i o}, Inv trace s → ok trace s i → step s i = some (t, o) →
      Inv (trace ++ [(i, o)]) t)
    {trace : List (Input × Output)} {s : State} (h : Run step ok start trace s) :
    Inv trace s := by
  induction h with
  | start => exact hstart
  | snoc _ hok hs ih => exact hstep ih hok hs

/-- An invariant of a run may help to admit its steps by another condition. -/
theorem Run.restrict {ok' : List (Input × Output) → State → Input → Prop}
    {Inv : List (Input × Output) → State → Prop} (hstart : Inv [] start)
    (hstep : ∀ {trace s t i o}, Inv trace s → ok trace s i → step s i = some (t, o) →
      Inv (trace ++ [(i, o)]) t)
    (hok : ∀ {trace s i}, Inv trace s → ok trace s i → ok' trace s i)
    {trace : List (Input × Output)} {s : State} (h : Run step ok start trace s) :
    Run step ok' start trace s := by
  induction h with
  | start => exact .start
  | snoc hrun hoks hs ih => exact ih.snoc (hok (hrun.invariant hstart hstep) hoks) hs

/-- A run whose steps meet a condition meets every weaker one. -/
theorem Run.weaken {ok' : List (Input × Output) → State → Input → Prop}
    (hok : ∀ {trace s i}, ok trace s i → ok' trace s i) {trace : List (Input × Output)}
    {s : State} (h : Run step ok start trace s) : Run step ok' start trace s :=
  @Run.restrict _ _ _ _ _ _ _ (fun _ _ => True) trivial (fun _ _ _ => trivial) (fun _ => hok) _ _ h

/-- If a step from a good state leads to a good state exactly when it meets a condition,
the runs through good states are the runs whose steps meet the condition. -/
theorem Run.good_iff {Good : State → Prop} {ok : State → Input → Prop} (hstart : Good start)
    (hstep : ∀ {trace s t i o}, Run step (fun _ _ _ => True) start trace s → Good s →
      step s i = some (t, o) → (Good t ↔ ok s i))
    {trace : List (Input × Output)} {s : State} :
    Run step (fun _ s _ => Good s) start trace s ∧ Good s ↔
      Run step (fun _ => ok) start trace s := by
  constructor
  · rintro ⟨h, hgood⟩
    induction h with
    | start => exact .start
    | snoc hrun hs hstep' ih =>
      have hany := hrun.weaken fun _ => trivial
      exact (ih hs).snoc ((hstep hany hs hstep').mp hgood) hstep'
  · intro h
    induction h with
    | start => exact ⟨.start, hstart⟩
    | snoc hrun hok hstep' ih =>
      have hany := hrun.weaken fun _ => trivial
      exact ⟨ih.1.snoc ih.2 hstep', (hstep hany ih.2 hstep').mpr hok⟩

/-- If a law of the steps comes down to a condition as long as the invariant holds, and
lawful steps keep the invariant, the runs of lawful steps are the runs whose steps meet the
condition. -/
theorem Run.law_iff {Inv : List (Input × Output) → State → Prop}
    {Law ok : State → Input → Prop} (hstart : Inv [] start)
    (hstep : ∀ {trace s t i o}, Inv trace s → Law s i → step s i = some (t, o) →
      Inv (trace ++ [(i, o)]) t)
    (hlaw : ∀ {trace s i}, Inv trace s → (Law s i ↔ ok s i))
    {trace : List (Input × Output)} {s : State} :
    Run step (fun _ => Law) start trace s ↔ Run step (fun _ => ok) start trace s := by
  constructor
  · exact Run.restrict hstart hstep fun hs => (hlaw hs).mp
  · exact Run.restrict hstart (fun hs hok => hstep hs ((hlaw hs).mpr hok)) fun hs => (hlaw hs).mpr

/-- Every entry of a run is a step from a state that the run has passed. -/
theorem Run.step_at {trace : List (Input × Output)} {s : State}
    (h : Run step ok start trace s) {before after : List (Input × Output)} {i : Input} {o : Output}
    (htrace : trace = before ++ (i, o) :: after) :
    ∃ s' t, Run step ok start before s' ∧ ok before s' i ∧ step s' i = some (t, o) := by
  induction h generalizing after with
  | start => exact absurd htrace (by simp)
  | @snoc trace s t i' o' hrun hok hs ih =>
    rcases List.eq_nil_or_concat after with rfl | ⟨after', last, rfl⟩
    · obtain ⟨rfl, hlast⟩ := List.append_inj' htrace rfl
      cases hlast
      exact ⟨s, t, hrun, hok, hs⟩
    · rw [List.concat_eq_append, ← List.cons_append, ← List.append_assoc] at htrace
      exact ih (List.append_inj' htrace rfl).1

end PartialRun
