import Mathlib.Data.List.DropRight
import Mathlib.Logic.Function.Basic

/-!
# File trees and path names

An entry is found by the names on the way to it, the innermost first. Every entry but the
root stands in a directory. A path name is cut at its slashes, and each piece of it is one
step that is taken in a directory.
-/
namespace FileTree

universe u v

inductive Entry (Content : Type v) where
  | dir
  | file (content : Content)

/-- Where an entry stands. -/
abbrev Loc (Name : Type u) := List Name

@[ext] structure Tree (Name : Type u) (Content : Type v) where
  entry : Loc Name → Option (Entry Content)
  root : entry [] = some .dir
  parent : ∀ name above, entry (name :: above) ≠ none → entry above = some .dir

/-- One piece of a path name. -/
inductive Step (Name : Type u) where
  | stay
  | up
  | down (name : Name)

/-- The root is its own parent. -/
def Step.apply {Name : Type u} : Step Name → Loc Name → Loc Name
  | .stay, l => l
  | .up, l => l.tail
  | .down name, l => name :: l

section Trees
variable {Name : Type u} {Content : Type v} {t t' t'' : Tree Name Content}
  {l l' here : Loc Name} {s s' : List (Step Name)}

def Tree.isDir (t : Tree Name Content) (l : Loc Name) : Bool :=
  match t.entry l with
  | some .dir => true
  | _ => false

theorem Tree.isDir_iff : t.isDir l = true ↔ t.entry l = some .dir := by
  simp only [Tree.isDir]
  split
  · next h => simp [h]
  · next h => simpa using h

/-- Where the steps lead. -/
def Tree.walk (t : Tree Name Content) : Loc Name → List (Step Name) → Option (Loc Name)
  | l, [] => some l
  | l, step :: steps => if t.isDir l then t.walk (step.apply l) steps else none

theorem Tree.walk_cons {step : Step Name} (h : t.entry l = some .dir) :
    t.walk l (step :: s) = t.walk (step.apply l) s := by
  rw [Tree.walk, if_pos (Tree.isDir_iff.mpr h)]

theorem Tree.walk_append : t.walk l (s ++ s') = (t.walk l s).bind fun l' => t.walk l' s' := by
  induction s generalizing l with
  | nil => rfl
  | cons step s ih =>
    rw [List.cons_append, Tree.walk, Tree.walk]
    split
    · exact ih
    · rfl

theorem Tree.isDir_of_walk_cons {step : Step Name} (h : t.walk l (step :: s) = some l') :
    t.entry l = some .dir := by
  rw [Tree.walk] at h
  split at h
  · next hdir => exact Tree.isDir_iff.mp hdir
  · cases h

/-- Steps are taken in directories only. -/
theorem Tree.walk_congr (h : t.isDir = t'.isDir) : t.walk l s = t'.walk l s := by
  induction s generalizing l with
  | nil => rfl
  | cons step s ih => rw [Tree.walk, Tree.walk, h, ih]

/-- Every entry of the first tree is in the second one as it was. -/
def Tree.Within (t t' : Tree Name Content) : Prop :=
  ∀ l e, t.entry l = some e → t'.entry l = some e

theorem Tree.Within.refl (t : Tree Name Content) : t.Within t := fun _ _ h => h

theorem Tree.Within.trans (h : t.Within t') (h' : t'.Within t'') : t.Within t'' :=
  fun l e he => h' l e (h l e he)

/-- More entries do not lead the steps elsewhere. -/
theorem Tree.Within.walk (h : t.Within t') (hw : t.walk l s = some l') :
    t'.walk l s = some l' := by
  induction s generalizing l with
  | nil => exact hw
  | cons step s ih =>
    have hdir := Tree.isDir_of_walk_cons hw
    rw [Tree.walk_cons hdir] at hw
    rw [Tree.walk_cons (h l _ hdir)]
    exact ih hw

/-- A file can be put here: in a directory, and not over one. -/
def Tree.takesFile (t : Tree Name Content) : Loc Name → Bool
  | [] => false
  | name :: above => t.isDir above && !t.isDir (name :: above)

theorem Tree.takesFile_iff : t.takesFile l = true ↔
    t.entry l ≠ some .dir ∧ ∃ name above, l = name :: above ∧ t.entry above = some .dir := by
  cases l with
  | nil => simp [Tree.takesFile, t.root]
  | cons name above =>
    simp only [Tree.takesFile, Bool.and_eq_true, Bool.not_eq_true', ← Bool.not_eq_true,
      Tree.isDir_iff]
    constructor
    · rintro ⟨habove, hnot⟩
      exact ⟨hnot, name, above, rfl, habove⟩
    · rintro ⟨hnot, name', above', heq, habove⟩
      cases heq
      exact ⟨habove, hnot⟩

variable [DecidableEq Name]

def Tree.put (t : Tree Name Content) (l : Loc Name) (e : Entry Content) (h : t.takesFile l = true) :
    Tree Name Content where
  entry := Function.update t.entry l (some e)
  root := by
    obtain ⟨-, name, above, rfl, -⟩ := Tree.takesFile_iff.mp h
    rw [Function.update_of_ne (List.cons_ne_nil _ _).symm]
    exact t.root
  parent := by
    intro name above hne
    obtain ⟨hnot, name', above', rfl, hdir⟩ := Tree.takesFile_iff.mp h
    by_cases heq : name :: above = name' :: above'
    · cases heq
      rwa [Function.update_of_ne (List.cons_ne_self _ _).symm]
    · rw [Function.update_of_ne heq] at hne
      have habove := t.parent name above hne
      have hother : above ≠ name' :: above' := by
        rintro rfl
        exact hnot habove
      rwa [Function.update_of_ne hother]

@[simp] theorem Tree.put_entry_self {e : Entry Content} {h : t.takesFile l = true} :
    (t.put l e h).entry l = some e := Function.update_self _ _ _

theorem Tree.put_entry_of_ne {e : Entry Content} {h : t.takesFile l = true} (hne : l' ≠ l) :
    (t.put l e h).entry l' = t.entry l' := Function.update_of_ne hne _ _

/-- The file has this content now. -/
def Tree.setFile (t : Tree Name Content) (l : Loc Name) (content : Content) : Tree Name Content :=
  if h : t.takesFile l = true then t.put l (.file content) h else t

variable {content : Content}

theorem Tree.setFile_entry_self (h : t.takesFile l = true) :
    (t.setFile l content).entry l = some (.file content) := by
  rw [Tree.setFile, dif_pos h, Tree.put_entry_self]

theorem Tree.setFile_entry_of_ne (hne : l' ≠ l) :
    (t.setFile l content).entry l' = t.entry l' := by
  rw [Tree.setFile]
  split
  · exact Tree.put_entry_of_ne hne
  · rfl

/-- Files come and go without a change of the directories. -/
theorem Tree.setFile_isDir : (t.setFile l content).isDir = t.isDir := by
  by_cases h : t.takesFile l = true
  · funext l'
    by_cases heq : l' = l
    · subst heq
      have hnot := (Tree.takesFile_iff.mp h).1
      rw [Ne, ← Tree.isDir_iff, Bool.not_eq_true] at hnot
      rw [hnot, Tree.isDir, Tree.setFile_entry_self h]
    · rw [Tree.isDir, Tree.setFile_entry_of_ne heq, Tree.isDir]
  · rw [Tree.setFile, dif_neg h]

theorem Tree.setFile_takesFile : (t.setFile l content).takesFile l = t.takesFile l := by
  cases l with
  | nil => rfl
  | cons name above => simp only [Tree.takesFile, Tree.setFile_isDir]

@[simp] theorem Tree.setFile_setFile {first : Content} :
    (t.setFile l first).setFile l content = t.setFile l content := by
  by_cases h : t.takesFile l = true
  · ext1
    funext l'
    by_cases heq : l' = l
    · subst heq
      rw [Tree.setFile_entry_self (Tree.setFile_takesFile.trans h), Tree.setFile_entry_self h]
    · simp only [Tree.setFile_entry_of_ne heq]
  · have hkeep : ∀ content, t.setFile l content = t := fun content => dif_neg h
    simp only [hkeep]

/-- A directory is made where nothing is yet. -/
def Tree.mkdir (t : Tree Name Content) (l : Loc Name) : Option (Tree Name Content) :=
  if h : t.takesFile l = true ∧ (t.entry l).isNone = true then some (t.put l .dir h.1) else none

theorem Tree.mkdir_eq_some (h : t.mkdir l = some t') :
    t.entry l = none ∧ t'.entry l = some .dir ∧ ∀ l', l' ≠ l → t'.entry l' = t.entry l' := by
  simp only [Tree.mkdir] at h
  split at h
  · next hopen =>
    cases h
    exact ⟨Option.isNone_iff_eq_none.mp hopen.2, Tree.put_entry_self,
      fun _ hne => Tree.put_entry_of_ne hne⟩
  · cases h

theorem Tree.mkdir_isSome_iff : (t.mkdir l).isSome = true ↔
    t.entry l = none ∧ ∃ name above, l = name :: above ∧ t.entry above = some .dir := by
  simp only [Tree.mkdir]
  split
  · next h =>
    have hopen := Tree.takesFile_iff.mp h.1
    simp [Option.isNone_iff_eq_none.mp h.2, hopen.2]
  · next h =>
    simp only [Option.isSome_none, Bool.false_eq_true, false_iff]
    rintro ⟨hnone, hparent⟩
    refine h ⟨Tree.takesFile_iff.mpr ⟨?_, hparent⟩, Option.isNone_iff_eq_none.mpr hnone⟩
    simp [hnone]

theorem Tree.mkdir_within (h : t.mkdir l = some t') : t.Within t' := by
  obtain ⟨hnone, -, hother⟩ := Tree.mkdir_eq_some h
  intro l' e he
  have hne : l' ≠ l := by
    rintro rfl
    rw [hnone] at he
    cases he
  rw [hother l' hne]
  exact he

end Trees

/-- The two characters that path names give a meaning. -/
structure Signs (α : Type u) where
  slash : α
  dot : α

section PathNames
variable {α : Type u} [DecidableEq α] {Content : Type v} (σ : Signs α)

def Signs.step (piece : List α) : Step (List α) :=
  if piece = [] ∨ piece = [σ.dot] then .stay
  else if piece = [σ.dot, σ.dot] then .up
  else .down piece

def Signs.steps (path : List α) : List (Step (List α)) := (path.splitOn σ.slash).map σ.step

/-- An absolute path starts at the root, another one in the working directory. -/
def Signs.start (cwd : Loc (List α)) (path : List α) : Loc (List α) :=
  if path.head? = some σ.slash then [] else cwd

/-- Where a path name leads; the empty one leads nowhere. -/
def Signs.locate (t : Tree (List α) Content) (cwd : Loc (List α)) (path : List α) :
    Option (Loc (List α)) :=
  if path = [] then none else t.walk (σ.start cwd path) (σ.steps path)

/-- `access(path, F_OK) == 0` -/
def Signs.access (t : Tree (List α) Content) (cwd : Loc (List α)) (path : List α) : Bool :=
  match σ.locate t cwd path with
  | some l => (t.entry l).isSome
  | none => false

/-- A new directory may be named with slashes behind its name. -/
def Signs.mkdir (t : Tree (List α) Content) (cwd : Loc (List α)) (path : List α) :
    Option (Tree (List α) Content) :=
  if path = [] then none
  else (t.walk (σ.start cwd path) (σ.steps (path.rdropWhile (· = σ.slash)))).bind t.mkdir

variable {σ} {t t' : Tree (List α) Content} {cwd l : Loc (List α)} {p q path : List α}

theorem Signs.steps_append : σ.steps (p ++ σ.slash :: q) = σ.steps p ++ σ.steps q := by
  rw [Signs.steps, List.splitOn_append_cons_self, List.map_append]
  rfl

theorem Signs.steps_ne_nil : σ.steps path ≠ [] := by
  simp [Signs.steps, List.splitOn_ne_nil]

theorem Signs.steps_nil : σ.steps [] = [.stay] := by
  simp [Signs.steps, List.splitOn_nil, Signs.step]

theorem Signs.start_append (h : p ≠ []) : σ.start cwd (p ++ q) = σ.start cwd p := by
  rw [Signs.start, Signs.start, List.head?_append_of_ne_nil _ h]

theorem Signs.locate_setFile {at_ : Loc (List α)} {content : Content} :
    σ.locate (t.setFile at_ content) cwd path = σ.locate t cwd path := by
  rw [Signs.locate, Signs.locate, Tree.walk_congr Tree.setFile_isDir]

theorem Signs.access_iff :
    σ.access t cwd path = true ↔ ∃ l e, σ.locate t cwd path = some l ∧ t.entry l = some e := by
  simp only [Signs.access]
  cases σ.locate t cwd path with
  | none => simp
  | some l => simp [Option.isSome_iff_exists]

theorem Signs.locate_within (h : t.Within t') (hl : σ.locate t cwd path = some l) :
    σ.locate t' cwd path = some l := by
  rw [Signs.locate] at hl ⊢
  split at hl
  · cases hl
  · next hne =>
    rw [if_neg hne]
    exact h.walk hl

/-- What stands in front of a slash is a directory. -/
theorem Signs.access_front (hp : p ≠ []) (h : σ.access t cwd (p ++ σ.slash :: q) = true) :
    σ.access t cwd p = true := by
  obtain ⟨l, e, hl, -⟩ := Signs.access_iff.mp h
  rw [Signs.locate, if_neg (by simp), Signs.start_append hp, Signs.steps_append,
    Tree.walk_append] at hl
  obtain ⟨front, hfront, hrest⟩ := Option.bind_eq_some_iff.mp hl
  refine Signs.access_iff.mpr ⟨front, .dir, ?_, ?_⟩
  · rw [Signs.locate, if_neg hp]
    exact hfront
  · obtain ⟨step, steps, hsteps⟩ := List.exists_cons_of_ne_nil (@Signs.steps_ne_nil _ _ σ q)
    rw [hsteps] at hrest
    exact Tree.isDir_of_walk_cons hrest

/-- Slashes behind a directory lead to it. -/
theorem Signs.walk_trailing (hl : t.walk cwd (σ.steps (path.rdropWhile (· = σ.slash))) = some l)
    (hdir : t.entry l = some .dir) : t.walk cwd (σ.steps path) = some l := by
  induction path using List.reverseRecOn with
  | nil => exact hl
  | append_singleton path c ih =>
    rw [List.rdropWhile_concat] at hl
    split at hl
    · next hc =>
      obtain rfl : c = σ.slash := by simpa using hc
      rw [Signs.steps_append, Tree.walk_append, ih hl, Option.bind_some, Signs.steps_nil,
        Tree.walk_cons hdir]
      rfl
    · exact hl

/-- A directory that has been made is there afterwards, and nothing else has changed. -/
theorem Signs.mkdir_eq_some (h : σ.mkdir t cwd path = some t') :
    ∃ l, σ.locate t' cwd path = some l ∧ t.mkdir l = some t' := by
  simp only [Signs.mkdir] at h
  split at h
  · cases h
  · next hne =>
    obtain ⟨l, hl, hmkdir⟩ := Option.bind_eq_some_iff.mp h
    refine ⟨l, ?_, hmkdir⟩
    have hdir := (Tree.mkdir_eq_some hmkdir).2.1
    rw [Signs.locate, if_neg hne]
    exact Signs.walk_trailing ((Tree.mkdir_within hmkdir).walk hl) hdir

end PathNames

end FileTree
