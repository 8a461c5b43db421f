import Mathlib.Data.List.Sort
import Mathlib.Data.UInt

/-!
# Finite cycles and lists in cyclic order

A finite cycle is a type whose elements are met one after the other by `succ`
before the first one comes back; `dist a b` counts the steps from `a` to `b`.
A list is in cyclic order when, seen from its first element, the distances
increase. This order survives wrap-around, removal of any elements (the first
included) and insertion of a successor into a gap.
-/
namespace CyclicOrder

universe u

class FiniteCycle (H : Type u) where
  size : Nat
  succ : H → H
  dist : H → H → Nat
  dist_lt (a b : H) : dist a b < size
  dist_self (a : H) : dist a a = 0
  dist_inj {a b c : H} : dist a b = dist a c → b = c
  dist_succ {a b : H} : dist a b + 1 < size → dist a (succ b) = dist a b + 1
  dist_add {a b c : H} : dist a b ≤ dist a c → dist a c = dist a b + dist b c

open FiniteCycle

variable {H : Type u} [FiniteCycle H]

/-- The elements of the list are met in this order on the way round from `x`. -/
def SortedFrom (x : H) (l : List H) : Prop := l.Pairwise (fun a b => dist x a < dist x b)

/-- The list is sorted as seen from its own first element. -/
def CyclicSorted : List H → Prop
  | [] => True
  | x :: l => SortedFrom x (x :: l)

theorem SortedFrom.sublist {x : H} {l m : List H} (hm : SortedFrom x m) (hl : l.Sublist m) :
    SortedFrom x l := List.Pairwise.sublist hl hm

theorem SortedFrom.nodup {x : H} {l : List H} (hl : SortedFrom x l) : l.Nodup := by
  refine List.Pairwise.imp ?_ hl
  rintro a b hab rfl
  exact lt_irrefl _ hab

/-- Walking on to the first element of the list does not change the order of
those behind it. -/
theorem SortedFrom.rebase {x y : H} {l : List H} (h : SortedFrom x (y :: l)) :
    SortedFrom y (y :: l) := by
  have behind : ∀ a ∈ y :: l, dist x y ≤ dist x a := by
    intro a ha
    rcases List.mem_cons.mp ha with rfl | ha
    · exact le_rfl
    · exact le_of_lt (List.rel_of_pairwise_cons h ha)
  refine List.Pairwise.imp_of_mem ?_ h
  intro a b ha hb hab
  have := dist_add (behind a ha)
  have := dist_add (behind b hb)
  omega

theorem CyclicSorted.nodup {l : List H} (hl : CyclicSorted l) : l.Nodup := by
  cases l with
  | nil => exact List.nodup_nil
  | cons x l => exact SortedFrom.nodup hl

theorem CyclicSorted.sublist {l m : List H} (hm : CyclicSorted m) (hl : l.Sublist m) :
    CyclicSorted l := by
  cases l with
  | nil => trivial
  | cons y l =>
    cases m with
    | nil => cases hl
    | cons x m => exact (SortedFrom.sublist hm hl).rebase

theorem cyclicSorted_singleton (x : H) : CyclicSorted [x] := List.pairwise_singleton _ _

/-- A successor put into a gap: the element behind the gap, if there is one, is
not the successor, and the way round is not used up. -/
theorem SortedFrom.insert_gap {x b : H} {l r : List H} (h : SortedFrom x (l ++ b :: r))
    (room : dist x b + 1 < size H) (gap : ∀ c ∈ r.head?, c ≠ succ b) :
    SortedFrom x (l ++ b :: succ b :: r) := by
  have step := dist_succ room
  obtain ⟨hl, hbr, hlbr⟩ := List.pairwise_append.mp h
  obtain ⟨hb, hr⟩ := List.pairwise_cons.mp hbr
  have beyond : ∀ c ∈ r, dist x (succ b) < dist x c := by
    cases r with
    | nil => simp
    | cons d r =>
      have hd : dist x (succ b) < dist x d := by
        have : dist x b < dist x d := hb d List.mem_cons_self
        have : dist x d ≠ dist x (succ b) := fun he => gap d rfl (dist_inj he)
        omega
      intro c hc
      rcases List.mem_cons.mp hc with rfl | hc
      · exact hd
      · exact hd.trans (List.rel_of_pairwise_cons hr hc)
  refine List.pairwise_append.mpr ⟨hl, ?_, ?_⟩
  · refine List.pairwise_cons.mpr ⟨?_, List.pairwise_cons.mpr ⟨beyond, hr⟩⟩
    intro c hc
    rcases List.mem_cons.mp hc with rfl | hc
    · omega
    · exact hb c hc
  · intro a ha c hc
    have before : dist x a < dist x b := hlbr a ha b List.mem_cons_self
    rcases List.mem_cons.mp hc with rfl | hc
    · exact before
    rcases List.mem_cons.mp hc with rfl | hc
    · omega
    · exact hlbr a ha c (List.mem_cons_of_mem b hc)

theorem CyclicSorted.insert_gap {x b : H} {l r : List H} (h : CyclicSorted (l ++ b :: r))
    (first : (l ++ b :: r).head? = some x) (room : dist x b + 1 < size H)
    (gap : ∀ c ∈ r.head?, c ≠ succ b) : CyclicSorted (l ++ b :: succ b :: r) := by
  cases l with
  | nil =>
    obtain rfl : b = x := Option.some.inj first
    exact SortedFrom.insert_gap (l := []) h room gap
  | cons y l =>
    obtain rfl : y = x := Option.some.inj first
    exact SortedFrom.insert_gap (l := y :: l) h room gap

instance : FiniteCycle UInt32 where
  size := 2 ^ 32
  succ a := a + 1
  dist a b := (b - a).toNat
  dist_lt a b := (b - a).toNat_lt
  dist_self a := by simp
  dist_inj h := by
    have := UInt32.toNat_inj.mp h
    grind
  dist_succ := by
    intro a b h
    have hs : b + 1 - a = (b - a) + 1 := by grind
    rw [hs, UInt32.toNat_add]
    exact Nat.mod_eq_of_lt h
  dist_add := by
    intro a b c h
    have hs : c - b = (c - a) - (b - a) := by grind
    rw [hs, UInt32.toNat_sub_of_le _ _ (UInt32.le_iff_toNat_le.mpr h)]
    omega

end CyclicOrder
