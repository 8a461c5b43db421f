import Mathlib.Data.List.Basic
import Mathlib.Algebra.Order.Group.Int

/-!
# A one-entry cache of answers

A request that is sent leaves its key behind, and its answer, if it is kept, is
stored with the time. A later request with the same key may be served from the
store for a while. A request that is sent without touching the store must not
change the key of what is stored.
-/
namespace RequestCache

universe u v
variable {Key : Type u} {Value : Type v}

/-- What a request that is sent does to the store. -/
inductive Effect (Value : Type v) where
  | keeps
  | clears
  | stores (value : Value) (time : Int)

inductive Event (Key : Type u) (Value : Type v) where
  | sent (key : Key) (effect : Effect Value)
  | served (key : Key) (value : Value) (time : Int)
  | idle

structure Cache (Key : Type u) (Value : Type v) where
  key : Option Key
  entry : Option (Value × Int)

def empty : Cache Key Value := ⟨none, none⟩

def Cache.apply (c : Cache Key Value) : Event Key Value → Cache Key Value
  | .sent key .keeps => ⟨some key, c.entry⟩
  | .sent key .clears => ⟨some key, none⟩
  | .sent key (.stores value time) => ⟨some key, some (value, time)⟩
  | .served _ _ _ => c
  | .idle => c

/-- The cache after a list of events. -/
def after (events : List (Event Key Value)) : Cache Key Value := events.foldl Cache.apply empty

/-- The discipline of one event, for a store that is good for `window` seconds. -/
def Cache.Allows (window : Int) (c : Cache Key Value) : Event Key Value → Prop
  | .sent key .keeps => c.entry = none ∨ c.key = some key
  | .sent _ _ => True
  | .served key value time =>
    c.key = some key ∧ ∃ t, c.entry = some (value, t) ∧ 0 ≤ time - t ∧ time - t ≤ window
  | .idle => True

inductive Disciplined (window : Int) : List (Event Key Value) → Prop where
  | nil : Disciplined window []
  | snoc {events : List (Event Key Value)} {e : Event Key Value} :
      Disciplined window events → (after events).Allows window e →
      Disciplined window (events ++ [e])

theorem after_append (events : List (Event Key Value)) (e : Event Key Value) :
    after (events ++ [e]) = (after events).apply e := by
  simp [after]

variable {window : Int} {events : List (Event Key Value)}

/-- What is stored was stored by a request that was sent with the present key. -/
theorem Disciplined.stored (h : Disciplined window events) {value : Value} {time : Int}
    (hentry : (after events).entry = some (value, time)) :
    ∃ key, (after events).key = some key ∧ .sent key (.stores value time) ∈ events := by
  induction h with
  | nil => cases hentry
  | @snoc events e _ hallows ih =>
    rw [after_append] at hentry ⊢
    match e with
    | .sent key .keeps =>
      obtain ⟨key', hkey, hmem⟩ := ih hentry
      have hsame : key' = key := by
        rcases hallows with hnone | hsome
        · exact absurd (hentry.symm.trans hnone) (by simp)
        · exact Option.some.inj (hkey.symm.trans hsome)
      exact ⟨key, rfl, List.mem_append_left _ (hsame ▸ hmem)⟩
    | .sent key .clears => cases hentry
    | .sent key (.stores value' time') =>
      cases hentry
      exact ⟨key, rfl, List.mem_append_right _ (List.mem_singleton.mpr rfl)⟩
    | .served _ _ _ | .idle =>
      obtain ⟨key, hkey, hmem⟩ := ih hentry
      exact ⟨key, hkey, List.mem_append_left _ hmem⟩

/-- What is served was stored for the same key, at most `window` seconds ago. -/
theorem Disciplined.served (h : Disciplined window events) {key : Key} {value : Value}
    {now : Int} (hserved : (after events).Allows window (.served key value now)) :
    ∃ time, .sent key (.stores value time) ∈ events ∧ 0 ≤ now - time ∧ now - time ≤ window := by
  obtain ⟨hkey, time, hentry, hlow, hhigh⟩ := hserved
  obtain ⟨key', hkey', hmem⟩ := h.stored hentry
  cases Option.some.inj (hkey'.symm.trans hkey)
  exact ⟨time, hmem, hlow, hhigh⟩

/-- How a concrete back end shows its steps as events and its state as a cache. The
saved key of the state may tell less than the key does. -/
structure View (State : Type*) (Step : Type*) (Key : Type u) (Value : Type v) where
  event : Step → Event Key Value
  entry : State → Option (Value × Int)
  saves : State → Key → Prop
  unsent : State → Prop

section View
variable {State Step : Type*} {V : View State Step Key Value} {trace : List Step} {s t : State}

def View.cache (V : View State Step Key Value) (trace : List Step) : Cache Key Value :=
  after (trace.map V.event)

/-- The state represents the cache after a disciplined trace. -/
structure View.Tracks (V : View State Step Key Value) (window : Int) (trace : List Step)
    (s : State) : Prop where
  disciplined : Disciplined window (trace.map V.event)
  entry : (V.cache trace).entry = V.entry s
  unsent : (V.cache trace).key = none → V.unsent s
  saves : ∀ key, (V.cache trace).key = some key → V.saves s key

theorem View.cache_append (V : View State Step Key Value) (trace : List Step) (step : Step) :
    V.cache (trace ++ [step]) = (V.cache trace).apply (V.event step) := by
  rw [View.cache, List.map_append, List.map_singleton, after_append, View.cache]

theorem View.Tracks.disciplined_append {step : Step} (h : V.Tracks window trace s)
    (hallows : (V.cache trace).Allows window (V.event step)) :
    Disciplined window ((trace ++ [step]).map V.event) := by
  rw [List.map_append]
  exact h.disciplined.snoc hallows

theorem apply_sent_key (c : Cache Key Value) (key : Key) (effect : Effect Value) :
    (c.apply (.sent key effect)).key = some key := by
  cases effect <;> rfl

/-- A step that sends a request and saves its key. -/
theorem View.Tracks.sent (h : V.Tracks window trace s) {step : Step} {key : Key}
    {effect : Effect Value} (hevent : V.event step = .sent key effect)
    (hallows : (V.cache trace).Allows window (.sent key effect))
    (hentry : ((V.cache trace).apply (.sent key effect)).entry = V.entry t)
    (hsaves : V.saves t key) : V.Tracks window (trace ++ [step]) t := by
  have hcache := V.cache_append trace step
  rw [hevent] at hcache
  constructor
  · exact h.disciplined_append (hevent ▸ hallows)
  · exact hcache ▸ hentry
  · rw [hcache, apply_sent_key]
    intro hnone
    cases hnone
  · rw [hcache, apply_sent_key]
    intro key' hkey
    cases hkey
    exact hsaves

/-- A step that does not touch the cache. -/
theorem View.Tracks.untouched (h : V.Tracks window trace s) {step : Step}
    (hcache : (V.cache trace).apply (V.event step) = V.cache trace)
    (hallows : (V.cache trace).Allows window (V.event step)) (hentry : V.entry t = V.entry s)
    (hunsent : V.unsent s → V.unsent t) (hsaves : ∀ key, V.saves s key → V.saves t key) :
    V.Tracks window (trace ++ [step]) t := by
  have hsame : V.cache (trace ++ [step]) = V.cache trace := (V.cache_append trace step).trans hcache
  constructor
  · exact h.disciplined_append hallows
  · rw [hsame, hentry]
    exact h.entry
  · rw [hsame]
    exact fun hnone => hunsent (h.unsent hnone)
  · rw [hsame]
    exact fun key hkey => hsaves key (h.saves key hkey)

/-- A state that has sent nothing tracks the empty trace. -/
theorem View.Tracks.nil (hentry : V.entry s = none) (hunsent : V.unsent s) :
    V.Tracks window [] s where
  disciplined := .nil
  entry := hentry.symm
  unsent _ := hunsent
  saves _ h := nomatch h

end View

section LastResult
variable {Step : Type*}

/-- What the last step with a result left behind; a result may be that there is nothing. -/
def lastResult (result : Step → Option (Option Value)) (steps : List Step) : Option Value :=
  (steps.reverse.findSome? result).join

theorem lastResult_append (result : Step → Option (Option Value)) (steps : List Step)
    (step : Step) : lastResult result (steps ++ [step]) =
      (result step).getD (lastResult result steps) := by
  simp only [lastResult, List.reverse_append, List.reverse_singleton, List.singleton_append,
    List.findSome?_cons]
  cases result step <;> rfl

/-- What is left behind comes from a step that no step with a result follows. -/
theorem lastResult_eq_some {result : Step → Option (Option Value)} {steps : List Step}
    {value : Value} (h : lastResult result steps = some value) :
    ∃ front step middle, steps = front ++ step :: middle ∧ result step = some (some value) ∧
      ∀ e ∈ middle, result e = none := by
  obtain ⟨later, step, earlier, hsplit, hresult, hnone⟩ :=
    List.findSome?_eq_some_iff.mp (Option.join_eq_some_iff.mp h)
  refine ⟨earlier.reverse, step, later.reverse, ?_, hresult, ?_⟩
  · rw [← List.reverse_reverse steps, hsplit]
    simp
  · intro e he
    apply hnone e
    rwa [List.mem_reverse] at he

end LastResult

end RequestCache
