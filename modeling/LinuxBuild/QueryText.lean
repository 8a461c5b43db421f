import Mathlib.Data.List.Basic
import Mathlib.Data.List.Infix

/-!
# Query texts

A query joins items with one separator, and an item is a key and a value joined by
another. Reading splits at every separator of the first kind, and each piece at its first
one of the second kind.
-/
namespace QueryText

variable {α : Type*} [DecidableEq α] {amp eq : α}

/-- An item of a query, a key and a value. -/
abbrev Item (α : Type*) := List α × List α

/-- A piece of a query as an item. -/
def cutItem (eq : α) (piece : List α) : Item α :=
  (piece.takeWhile (· ≠ eq), (piece.dropWhile (· ≠ eq)).drop 1)

/-- The items of a text. -/
def items (amp eq : α) (text : List α) : List (Item α) := (text.splitOn amp).map (cutItem eq)

def piece (eq : α) (item : Item α) : List α := item.1 ++ eq :: item.2

/-- The items joined to a text. -/
def render (amp eq : α) (l : List (Item α)) : List α :=
  List.intercalate [amp] (l.map (piece eq))

/-- Neither separator disturbs the item. -/
structure Clean (amp eq : α) (item : Item α) : Prop where
  key_amp : amp ∉ item.1
  key_eq : eq ∉ item.1
  value_amp : amp ∉ item.2

theorem cutItem_piece {item : Item α} (h : eq ∉ item.1) : cutItem eq (piece eq item) = item := by
  have hall : ∀ a ∈ item.1, decide (a ≠ eq) = true := by
    intro a ha
    simpa using ne_of_mem_of_not_mem ha h
  rw [cutItem, piece, List.takeWhile_append_of_pos hall, List.dropWhile_append_of_pos hall]
  simp

omit [DecidableEq α] in
theorem amp_notMem_piece {item : Item α} (hne : amp ≠ eq) (h : Clean amp eq item) :
    amp ∉ piece eq item := by
  simp only [piece, List.mem_append, List.mem_cons, not_or]
  exact ⟨h.key_amp, hne, h.value_amp⟩

/-- Reading undoes rendering. -/
theorem items_render (hne : amp ≠ eq) {l : List (Item α)} (hl : l ≠ [])
    (h : ∀ item ∈ l, Clean amp eq item) : items amp eq (render amp eq l) = l := by
  have hpieces : ∀ p ∈ l.map (piece eq), amp ∉ p := by
    intro p hp
    obtain ⟨item, hitem, rfl⟩ := List.mem_map.mp hp
    exact amp_notMem_piece hne (h item hitem)
  rw [items, render, List.splitOn_intercalate amp hpieces (by simpa using hl), List.map_map]
  calc l.map (cutItem eq ∘ piece eq) = l.map id :=
        List.map_congr_left fun item hitem => cutItem_piece (h item hitem).key_eq
    _ = l := List.map_id l

theorem items_append (s t : List α) :
    items amp eq (s ++ amp :: t) = items amp eq s ++ items amp eq t := by
  rw [items, List.splitOn_append_cons_self, List.map_append]
  rfl

theorem splitOn_append_of_notMem {s : List α} (h : amp ∉ s) (t : List α) :
    (s ++ t).splitOn amp = (t.splitOn amp).modifyHead (s ++ ·) := by
  induction s with
  | nil => cases ht : t.splitOn amp <;> simp [ht]
  | cons a s ih =>
    simp only [List.mem_cons, not_or] at h
    have hne : (a == amp) = false := by simpa using h.1 ∘ Eq.symm
    rw [List.cons_append, List.splitOn_cons_eq_if_modifyHead, hne, ih h.2]
    cases t.splitOn amp <;> rfl

/-- The first item of a text that starts with a key has this key. -/
theorem items_key (hne : amp ≠ eq) {key : List α} (hkey : amp ∉ key ∧ eq ∉ key) (t : List α) :
    ∃ value rest, items amp eq (key ++ eq :: t) = (key, value) :: rest := by
  have hfront : amp ∉ key ++ [eq] := by simpa using ⟨hkey.1, hne⟩
  cases ht : t.splitOn amp with
  | nil => exact absurd ht (List.splitOn_ne_nil amp t)
  | cons value rest =>
    have hsplit := splitOn_append_of_notMem hfront t
    rw [ht, List.append_assoc] at hsplit
    have hpiece : key ++ [eq] ++ value = piece eq (key, value) := by simp [piece]
    refine ⟨value, rest.map (cutItem eq), ?_⟩
    rw [items, ← List.singleton_append, hsplit, List.modifyHead_cons, List.map_cons, hpiece,
      cutItem_piece hkey.2]

omit [DecidableEq α] in
theorem render_singleton (item : Item α) : render amp eq [item] = piece eq item := by
  simp [render]

omit [DecidableEq α] in
theorem render_cons_cons (item next : Item α) (l : List (Item α)) :
    render amp eq (item :: next :: l) = piece eq item ++ amp :: render amp eq (next :: l) := by
  simp [render, List.intercalate_cons_cons]

omit [DecidableEq α] in
/-- Behind the first item every item brings its separator along. -/
theorem render_cons (item : Item α) (l : List (Item α)) :
    render amp eq (item :: l) = piece eq item ++ l.flatMap fun i => amp :: piece eq i := by
  induction l generalizing item with
  | nil => simp [render]
  | cons i l ih => rw [render_cons_cons, ih, List.flatMap_cons, List.cons_append]

section Occurrence

/-- The text in front of the first occurrence of a pattern and the text behind it. -/
def cutAt (pat : List α) : List α → Option (List α × List α)
  | [] => if pat = [] then some ([], []) else none
  | a :: text =>
    if pat <+: a :: text then some ([], (a :: text).drop pat.length)
    else (cutAt pat text).map fun r => (a :: r.1, r.2)

variable {pat s t : List α}

theorem cutAt_append_self (pat t : List α) : cutAt pat (pat ++ t) = some ([], t) := by
  have hdrop : (pat ++ t).drop pat.length = t := List.drop_left
  cases happ : pat ++ t with
  | nil =>
    obtain ⟨rfl, rfl⟩ := List.append_eq_nil_iff.mp happ
    rfl
  | cons a text =>
    rw [happ] at hdrop
    rw [cutAt, if_pos (happ ▸ List.prefix_append pat t), hdrop]

theorem cutAt_of_notPrefix {a : α} (h : ¬ pat <+: a :: t) :
    cutAt pat (a :: t) = (cutAt pat t).map fun r => (a :: r.1, r.2) := by
  rw [cutAt, if_neg h]

/-- No occurrence starts in a text without the first letter of the pattern. -/
theorem cutAt_append_of_notMem (h : amp ∉ s) (t : List α) :
    cutAt (amp :: pat) (s ++ t) = (cutAt (amp :: pat) t).map fun r => (s ++ r.1, r.2) := by
  induction s with
  | nil => simp
  | cons a s ih =>
    simp only [List.mem_cons, not_or] at h
    have hnot : ¬ amp :: pat <+: a :: (s ++ t) := by
      intro hprefix
      exact h.1 (List.cons_prefix_cons.mp hprefix).1
    rw [List.cons_append, cutAt_of_notPrefix hnot, ih h.2, Option.map_map]
    rfl

omit [DecidableEq α] in
/-- A pattern without the separator that starts a text ends in front of its first
separator. -/
theorem prefix_of_prefix_append (hpat : amp ∉ pat) (h : pat <+: s ++ amp :: t) : pat <+: s := by
  rcases Nat.lt_or_ge s.length pat.length with hlt | hle
  · have hmem : amp ∈ pat := by
      have hget : pat[s.length] = amp := by
        rw [h.getElem hlt]
        simp
      exact hget ▸ List.getElem_mem hlt
    exact absurd hmem hpat
  · exact List.prefix_of_prefix_length_le h (List.prefix_append s _) hle

/-- An item that starts with a key and the second separator has this key. -/
theorem key_eq_of_start {key : List α} {item : Item α} (hitem : eq ∉ item.1) (hkey : eq ∉ key)
    (h : key ++ [eq] <+: piece eq item) : item.1 = key := by
  obtain ⟨rest, hrest⟩ := h
  have hcut := congrArg (cutItem eq) hrest
  have hpiece : key ++ [eq] ++ rest = piece eq (key, rest) := by simp [piece]
  rw [cutItem_piece hitem, hpiece, @cutItem_piece _ _ _ (key, rest) hkey] at hcut
  rw [← hcut]

/-- Behind what starts with a key and the second separator stands an item with this key. -/
theorem key_eq_of_render_start {key : List α} {item : Item α} (l : List (Item α))
    (hne : amp ≠ eq) (hitem : eq ∉ item.1) (hkey : amp ∉ key ∧ eq ∉ key) (t : List α)
    (h : key ++ [eq] <+: render amp eq (item :: l) ++ amp :: t) : item.1 = key := by
  have hpat : amp ∉ key ++ [eq] := by simpa using ⟨hkey.1, hne⟩
  refine key_eq_of_start hitem hkey.2 ?_
  cases l with
  | nil =>
    rw [render_singleton] at h
    exact prefix_of_prefix_append hpat h
  | cons next l =>
    rw [render_cons_cons, List.append_assoc] at h
    exact prefix_of_prefix_append hpat h

/-- The first item with a key that the items in front of it do not have is found by its
key. -/
theorem cutAt_render {l : List (Item α)} {key : List α} (hne : amp ≠ eq)
    (hl : l ≠ []) (h : ∀ item ∈ l, Clean amp eq item) (hkey : amp ∉ key ∧ eq ∉ key)
    (hfresh : ∀ item ∈ l, item.1 ≠ key) (t : List α) :
    cutAt (amp :: (key ++ [eq])) (render amp eq l ++ amp :: (key ++ [eq]) ++ t) =
      some (render amp eq l, t) := by
  induction l with
  | nil => exact absurd rfl hl
  | cons item l ih =>
    have hitem : amp ∉ piece eq item := amp_notMem_piece hne (h item List.mem_cons_self)
    cases l with
    | nil =>
      rw [render_singleton, List.append_assoc, cutAt_append_of_notMem hitem, cutAt_append_self]
      simp
    | cons next l =>
      have hih := ih (List.cons_ne_nil _ _) (fun i hi => h i (List.mem_cons_of_mem _ hi))
        fun i hi => hfresh i (List.mem_cons_of_mem _ hi)
      have hmem : next ∈ item :: next :: l := List.mem_cons_of_mem _ List.mem_cons_self
      have hnot : ¬ amp :: (key ++ [eq]) <+:
          amp :: (render amp eq (next :: l) ++ amp :: (key ++ [eq]) ++ t) := by
        intro hstart
        rw [List.append_assoc] at hstart
        exact hfresh next hmem (key_eq_of_render_start l hne (h next hmem).key_eq hkey _
          (List.cons_prefix_cons.mp hstart).2)
      rw [render_cons_cons, List.append_assoc, List.append_assoc, cutAt_append_of_notMem hitem,
        List.cons_append, ← List.append_assoc, cutAt_of_notPrefix hnot, hih]
      simp

end Occurrence

end QueryText
