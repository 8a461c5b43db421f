import Mathlib.Data.List.Basic
import Mathlib.Order.Bounds.Basic
import Mathlib.Order.Lattice

/-!
# The first gap of an ascending list

From its first number on, an ascending list is followed as long as its numbers are
consecutive. The number behind this run is the least one from the first number on that
is not in the list, and the list stays ascending when it is put in there.
-/
namespace GapSearch

/-- The number behind the run of consecutive numbers that starts with `x`. -/
def firstGap (x : Nat) : List Nat → Nat
  | [] => x + 1
  | y :: l => if x + 1 = y then firstGap y l else x + 1

/-- The list `x :: l` with that number in its place. -/
def insertGap (x : Nat) : List Nat → List Nat
  | [] => [x, x + 1]
  | y :: l => if x + 1 = y then x :: insertGap y l else x :: (x + 1) :: y :: l

abbrev Ascending (l : List Nat) : Prop := l.Pairwise (· < ·)

variable {x : Nat} {l : List Nat}

theorem lt_firstGap : x < firstGap x l := by
  induction l generalizing x with
  | nil => exact Nat.lt_succ_self x
  | cons y l ih =>
    rw [firstGap]
    split_ifs with h
    · have := @ih y
      omega
    · exact Nat.lt_succ_self x

theorem firstGap_le : firstGap x l ≤ x + l.length + 1 := by
  induction l generalizing x with
  | nil => exact Nat.le_refl _
  | cons y l ih =>
    rw [firstGap, List.length_cons]
    split_ifs with h
    · have := @ih y
      omega
    · omega

theorem firstGap_isLeast (h : Ascending (x :: l)) :
    IsLeast {k | x ≤ k ∧ k ∉ x :: l} (firstGap x l) := by
  induction l generalizing x with
  | nil =>
    refine ⟨⟨Nat.le_succ x, by simp [firstGap]⟩, ?_⟩
    rintro k ⟨hle, hnot⟩
    have hne : k ≠ x := by simpa using hnot
    simp only [firstGap]
    omega
  | cons y l ih =>
    obtain ⟨hx, hyl⟩ := List.pairwise_cons.mp h
    have hxy := hx y List.mem_cons_self
    have hy := (List.pairwise_cons.mp hyl).1
    rw [firstGap]
    split_ifs with heq
    · obtain ⟨⟨hge, hfree⟩, hleast⟩ := ih hyl
      refine ⟨⟨hxy.le.trans hge, ?_⟩, ?_⟩
      · rw [List.mem_cons, not_or]
        exact ⟨(hxy.trans_le hge).ne', hfree⟩
      · rintro k ⟨hle, hnot⟩
        rw [List.mem_cons, not_or] at hnot
        exact hleast ⟨by omega, hnot.2⟩
    · refine ⟨⟨Nat.le_succ x, ?_⟩, ?_⟩
      · intro hmem
        rcases List.mem_cons.mp hmem with h | h
        · omega
        · rcases List.mem_cons.mp h with h | h
          · exact heq h
          · have := hy _ h
            omega
      · rintro k ⟨hle, hnot⟩
        have hne : k ≠ x := fun h => hnot (h ▸ List.mem_cons_self)
        omega

theorem mem_insertGap {k : Nat} : k ∈ insertGap x l ↔ k = firstGap x l ∨ k ∈ x :: l := by
  induction l generalizing x with
  | nil => simp [insertGap, firstGap, or_comm]
  | cons y l ih =>
    rw [insertGap, firstGap]
    split_ifs with h
    · simp only [List.mem_cons, ih]
      tauto
    · simp only [List.mem_cons]
      tauto

theorem insertGap_ascending (h : Ascending (x :: l)) : Ascending (insertGap x l) := by
  induction l generalizing x with
  | nil => simp [insertGap]
  | cons y l ih =>
    obtain ⟨hx, hyl⟩ := List.pairwise_cons.mp h
    have hxy := hx y List.mem_cons_self
    rw [insertGap]
    split_ifs with heq
    · refine List.pairwise_cons.mpr ⟨?_, ih hyl⟩
      intro k hk
      rcases mem_insertGap.mp hk with rfl | hk
      · exact hxy.trans lt_firstGap
      · exact hx k hk
    · refine List.pairwise_cons.mpr ⟨?_, List.pairwise_cons.mpr ⟨?_, hyl⟩⟩
      · intro k hk
        rcases List.mem_cons.mp hk with rfl | hk
        · exact Nat.lt_succ_self x
        · exact hx k hk
      · intro k hk
        rcases List.mem_cons.mp hk with rfl | hk
        · omega
        · have := (List.pairwise_cons.mp hyl).1 k hk
          omega

end GapSearch
