import Mathlib.Data.List.Nodup
import Mathlib.Logic.Function.Basic

/-!
# Singly linked lists in a heap of cells

A heap maps addresses to cells; a freed or never allocated address holds
nothing. A segment relates two link fields and the cells met between them, and
a chain is a segment that ends in the null link. Unlinking, linking and in-place
update are stated on segments, so a program that walks such a list is verified
from the split of the list at the cell where it stops.
-/
namespace HeapList

universe u v

structure Cell (A : Type u) (V : Type v) where
  val : V
  next : Option A

abbrev Heap (A : Type u) (V : Type v) := A → Option (Cell A V)

variable {A : Type u} {V : Type v}

/-- The cells met when the links are followed from `p` until the link `q`. -/
def Seg (h : Heap A V) : Option A → List (A × V) → Option A → Prop
  | p, [], q => p = q
  | p, (a, v) :: l, q => p = some a ∧ ∃ n, h a = some ⟨v, n⟩ ∧ Seg h n l q

abbrev Chain (h : Heap A V) (p : Option A) (l : List (A × V)) : Prop := Seg h p l none

def addrs (l : List (A × V)) : List A := l.map Prod.fst

@[simp] theorem addrs_nil : addrs ([] : List (A × V)) = [] := rfl

@[simp] theorem addrs_cons (c : A × V) (l : List (A × V)) :
    addrs (c :: l) = c.1 :: addrs l := rfl

@[simp] theorem addrs_append (l m : List (A × V)) : addrs (l ++ m) = addrs l ++ addrs m :=
  List.map_append

@[simp] theorem seg_nil (h : Heap A V) (p q : Option A) : Seg h p [] q ↔ p = q := Iff.rfl

theorem seg_cons (h : Heap A V) (p q : Option A) (a : A) (v : V) (l : List (A × V)) :
    Seg h p ((a, v) :: l) q ↔ p = some a ∧ ∃ n, h a = some ⟨v, n⟩ ∧ Seg h n l q := Iff.rfl

theorem seg_append {h : Heap A V} {p q : Option A} {l m : List (A × V)} :
    Seg h p (l ++ m) q ↔ ∃ r, Seg h p l r ∧ Seg h r m q := by
  induction l generalizing p with
  | nil => simp
  | cons c l ih =>
    obtain ⟨a, v⟩ := c
    simp only [List.cons_append, seg_cons]
    constructor
    · rintro ⟨hp, n, ha, hs⟩
      obtain ⟨r, hl, hm⟩ := ih.mp hs
      exact ⟨r, ⟨hp, n, ha, hl⟩, hm⟩
    · rintro ⟨r, ⟨hp, n, ha, hl⟩, hm⟩
      exact ⟨hp, n, ha, ih.mpr ⟨r, hl, hm⟩⟩

/-- A segment depends on the cells it lists and on no other part of the heap. -/
theorem Seg.frame {h h' : Heap A V} {p q : Option A} {l : List (A × V)}
    (hs : Seg h p l q) (same : ∀ a ∈ addrs l, h' a = h a) : Seg h' p l q := by
  induction l generalizing p with
  | nil => exact hs
  | cons c l ih =>
    obtain ⟨a, v⟩ := c
    obtain ⟨hp, n, ha, hl⟩ := hs
    refine ⟨hp, n, ?_, ih hl (fun b hb => same b (List.mem_cons_of_mem a hb))⟩
    rw [same a List.mem_cons_self]
    exact ha

theorem Seg.allocated {h : Heap A V} {p q : Option A} {l : List (A × V)}
    (hs : Seg h p l q) {a : A} (ha : a ∈ addrs l) : h a ≠ none := by
  induction l generalizing p with
  | nil => simp at ha
  | cons c l ih =>
    obtain ⟨b, v⟩ := c
    obtain ⟨_, n, hb, hl⟩ := hs
    rcases List.mem_cons.mp ha with rfl | ha
    · rw [hb]; simp
    · exact ih hl ha

/-- The cell at an address of a segment holds the listed contents. -/
theorem Seg.cell {h : Heap A V} {p q : Option A} {l : List (A × V)} (hs : Seg h p l q)
    {c : A × V} (hc : c ∈ l) : ∃ n, h c.1 = some ⟨c.2, n⟩ := by
  induction l generalizing p with
  | nil => simp at hc
  | cons d l ih =>
    obtain ⟨b, v⟩ := d
    obtain ⟨-, n, hb, hl⟩ := hs
    rcases List.mem_cons.mp hc with rfl | hc
    · exact ⟨n, hb⟩
    · exact ih hl hc

theorem Chain.unique {h : Heap A V} {p : Option A} {l m : List (A × V)}
    (hl : Chain h p l) (hm : Chain h p m) : l = m := by
  induction l generalizing p m with
  | nil =>
    cases m with
    | nil => rfl
    | cons c m =>
      obtain ⟨a, v⟩ := c
      have : (none : Option A) = some a := hl.symm.trans hm.1
      cases this
  | cons c l ih =>
    obtain ⟨a, v⟩ := c
    obtain ⟨rfl, n, ha, hl⟩ := hl
    cases m with
    | nil => cases hm
    | cons d m =>
      obtain ⟨b, w⟩ := d
      obtain ⟨hp, n', hb, hm⟩ := hm
      obtain rfl := Option.some.inj hp
      obtain ⟨rfl, rfl⟩ := Cell.mk.inj (Option.some.inj (ha.symm.trans hb))
      rw [ih hl hm]

/-- A list that ends in null cannot come back to one of its cells: the cells
after the second visit would be the same as those after the first. -/
theorem Chain.nodup {h : Heap A V} {p : Option A} {l : List (A × V)}
    (hl : Chain h p l) : (addrs l).Nodup := by
  induction l generalizing p with
  | nil => exact List.nodup_nil
  | cons c l ih =>
    obtain ⟨a, v⟩ := c
    have whole : Chain h p ((a, v) :: l) := hl
    obtain ⟨rfl, n, ha, htail⟩ := hl
    refine List.nodup_cons.mpr ⟨?_, ih htail⟩
    intro hmem
    obtain ⟨⟨b, w⟩, hb, hba⟩ := List.mem_map.mp hmem
    obtain rfl : b = a := hba
    obtain ⟨s, t, rfl⟩ := List.append_of_mem hb
    obtain ⟨r, _, hrest⟩ := seg_append.mp htail
    obtain ⟨rfl, _⟩ := id hrest
    have same := congrArg List.length (Chain.unique whole hrest)
    simp only [List.length_cons, List.length_append] at same
    omega

/-- An address met by following links from `p`, whether or not it is allocated. -/
inductive Reach (h : Heap A V) : Option A → A → Prop where
  | here (a : A) : Reach h (some a) a
  | step {a b : A} {c : Cell A V} : h b = some c → Reach h c.next a → Reach h (some b) a

theorem Chain.reach_iff {h : Heap A V} {p : Option A} {l : List (A × V)}
    (hl : Chain h p l) (a : A) : Reach h p a ↔ a ∈ addrs l := by
  induction l generalizing p with
  | nil =>
    obtain rfl : p = none := hl
    simp only [addrs_nil, List.not_mem_nil, iff_false]
    intro hr
    cases hr
  | cons c l ih =>
    obtain ⟨b, v⟩ := c
    obtain ⟨rfl, n, hb, htail⟩ := hl
    simp only [addrs_cons, List.mem_cons]
    constructor
    · intro hr
      cases hr with
      | here => exact Or.inl rfl
      | step hc hr =>
        obtain rfl := Option.some.inj (hb.symm.trans hc)
        exact Or.inr ((ih htail).mp hr)
    · rintro (rfl | ha)
      · exact .here a
      · exact .step hb ((ih htail).mpr ha)

theorem Seg.reach {h : Heap A V} {p : Option A} {l : List (A × V)} {b : A}
    (hs : Seg h p l (some b)) : Reach h p b := by
  induction l generalizing p with
  | nil =>
    obtain rfl : p = some b := hs
    exact .here b
  | cons c l ih =>
    obtain ⟨a, v⟩ := c
    obtain ⟨rfl, n, ha, hl⟩ := hs
    exact .step ha (ih hl)

section Update
variable [DecidableEq A]

theorem Seg.update {h : Heap A V} {p q : Option A} {l : List (A × V)}
    (hs : Seg h p l q) {a : A} (ha : a ∉ addrs l) (c : Option (Cell A V)) :
    Seg (Function.update h a c) p l q := by
  refine hs.frame ?_
  intro b hb
  have hne : b ≠ a := by
    rintro rfl
    exact ha hb
  exact Function.update_of_ne hne c h

end Update

end HeapList
