import Mathlib.Data.List.Count

/-!
# A ledger of records

Records are numbered in the order in which they are obtained, and the ledger keeps
every release of a record. A release of a record that is not live is entered too, and
makes the ledger unsound for good.
-/
namespace RecordLedger

structure Ledger where
  obtained : Nat
  released : List Nat
  sound : Bool

variable {l : Ledger} {r : Nat}

def Ledger.empty : Ledger := ⟨0, [], true⟩

/-- A record that was obtained and has not been released. -/
def Ledger.Live (l : Ledger) (r : Nat) : Prop := r < l.obtained ∧ r ∉ l.released

instance : Decidable (l.Live r) := inferInstanceAs (Decidable (_ ∧ _))

/-- The next record, and the ledger with it. -/
def Ledger.obtain (l : Ledger) : Nat × Ledger := (l.obtained, { l with obtained := l.obtained + 1 })

/-- A null pointer is not a release. -/
def Ledger.release (l : Ledger) : Option Nat → Ledger
  | none => l
  | some r =>
    { l with released := l.released ++ [r], sound := l.sound && decide (l.Live r) }

/-- Every record was released exactly once, while it was live. -/
structure Ledger.Settled (l : Ledger) : Prop where
  sound : l.sound = true
  count : ∀ r, l.released.count r = if r < l.obtained then 1 else 0

theorem Ledger.Settled.empty : Ledger.empty.Settled where
  sound := rfl
  count r := by simp [Ledger.empty]

theorem release_sound_iff :
    (l.release (some r)).sound = true ↔ l.sound = true ∧ l.Live r := by
  simp [Ledger.release]

theorem not_live_release : ¬ (l.release (some r)).Live r := by
  rintro ⟨-, hmem⟩
  apply hmem
  simp [Ledger.release]

/-- Obtaining a record and releasing it once settles the ledger again. -/
theorem Ledger.Settled.obtain_release (h : l.Settled) :
    (l.obtain.2.release (some l.obtain.1)).Settled := by
  have hfresh : l.obtained ∉ l.released := by
    apply List.count_eq_zero.mp
    rw [h.count, if_neg (by omega)]
  constructor
  · apply release_sound_iff.mpr
    exact ⟨h.sound, Nat.lt_succ_self _, hfresh⟩
  · intro r
    change (l.released ++ [l.obtained]).count r = if r < l.obtained + 1 then 1 else 0
    rw [List.count_append, h.count, List.count_singleton]
    by_cases hr : l.obtained = r
    · subst hr
      simp
    · have hne : (l.obtained == r) = false := by simpa using hr
      simp only [hne, Bool.false_eq_true, if_false, Nat.add_zero]
      by_cases hlt : r < l.obtained
      · rw [if_pos hlt, if_pos (by omega)]
      · rw [if_neg hlt, if_neg (by omega)]

/-- A second release of a record leaves a ledger that is not settled. -/
theorem not_settled_release_release : ¬ ((l.release (some r)).release (some r)).Settled := by
  intro h
  have hlive := (release_sound_iff.mp h.sound).2
  exact not_live_release hlive

end RecordLedger
