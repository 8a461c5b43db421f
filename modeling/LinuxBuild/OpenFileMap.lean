import LinuxBuild.OpenFileOps
import Mathlib.Data.Set.Card
import Mathlib.Tactic.Tauto

/-!
# The open-file list as a map from handles to nodes

The abstract store maps a handle to the node opened under it. A run of the list
functions is simulated by a run on this map in which an insertion may choose any
free handle. The list itself keeps its handles in cyclic order, which is what
makes the gap search find a free handle after the counter has wrapped.
-/
namespace OpenFileMap
open HeapList CyclicOrder CString OpenFileList OpenFileOps

universe u

abbrev HandleMap (A : Type u) := UInt32 → Option (A × FsOpenFileInfo)

/-- The calls of a run. An insertion brings the address `malloc` returned and
the contents `at_MFOPEN_req` writes there. -/
inductive Op (A : Type u) where
  | insert (a : A) (fp : Stream) (fMode : UInt32) (fname : CStr)
  | remove (handle : UInt32)
  | find (handle : UInt32)

inductive Result (A : Type u) where
  | handle (h : UInt32)
  | removed
  | found (p : Option A)

variable {A : Type u} [DecidableEq A]

def step (fuel : Nat) (s : FileMem A) : Op A → Option (FileMem A × Result A)
  | .insert a fp fMode fname => do
    let (s', h) ← insertOpenflist fuel (allocNode s a (openInfo fp fMode fname)) a
    some (s', .handle h)
  | .remove handle => do
    let s' ← removeOpenflist fuel s handle
    some (s', .removed)
  | .find handle => do
    let p ← findOpenflistByHandle fuel s handle
    some (s, .found p)

def run (fuel : Nat) (s : FileMem A) : List (Op A) → Option (FileMem A × List (Result A))
  | [] => some (s, [])
  | op :: ops => do
    let (s₁, r) ← step fuel s op
    let (s₂, rs) ← run fuel s₁ ops
    some (s₂, r :: rs)

/-- The number of nodes that were allocated and not freed. -/
noncomputable def live (s : FileMem A) : Nat := Set.ncard {a | s.heap a ≠ none}

/-- `malloc` returns memory that is not in use, and fewer than 2^32 nodes are
live after the call. -/
def OpAllowed (s : FileMem A) : Op A → Prop
  | .insert a _ _ _ => s.heap a = none ∧ live s + 1 < 2 ^ 32
  | _ => True

def Admissible (fuel : Nat) : FileMem A → List (Op A) → Prop
  | _, [] => True
  | s, op :: ops => OpAllowed s op ∧
    match step fuel s op with
    | none => True
    | some (s', _) => Admissible fuel s' ops

/-- One call on the map: an insertion takes a handle that no node has, a removal
deletes that handle, a search returns the node under the handle. -/
inductive MapStep (m : HandleMap A) : Op A → Result A → HandleMap A → Prop where
  | insert (a : A) (fp : Stream) (fMode : UInt32) (fname : CStr) (h : UInt32) :
      m h = none →
      MapStep m (.insert a fp fMode fname) (.handle h)
        (Function.update m h (some (a, { openInfo fp fMode fname with fHandle := h })))
  | remove (h : UInt32) : MapStep m (.remove h) .removed (Function.update m h none)
  | find (h : UInt32) : MapStep m (.find h) (.found ((m h).map Prod.fst)) m

inductive MapRun : HandleMap A → List (Op A) → List (Result A) → HandleMap A → Prop where
  | nil (m : HandleMap A) : MapRun m [] [] m
  | cons {m m₁ m₂ : HandleMap A} {op : Op A} {r : Result A} {ops : List (Op A)}
      {rs : List (Result A)} :
      MapStep m op r m₁ → MapRun m₁ ops rs m₂ → MapRun m (op :: ops) (r :: rs) m₂

/-- The list holds exactly the nodes of the map, each handle once, and its
counter is their number. -/
structure Represents (s : FileMem A) (l : Nodes A) (m : HandleMap A) : Prop where
  holds : Holds s l
  distinct : (handles l).Nodup
  mapped : ∀ h c, m h = some c ↔ c ∈ l ∧ c.2.fHandle = h

/-- What the list functions keep true beyond the map: cyclic order, and no node
outside the list. -/
structure Valid (s : FileMem A) (l : Nodes A) (m : HandleMap A) : Prop
    extends Represents s l m where
  order : CyclicSorted (handles l)
  owned : ∀ a, s.heap a ≠ none ↔ a ∈ addrs l

omit [DecidableEq A] in
theorem emptyMem_valid : Valid (emptyMem A) [] (fun _ => none) where
  holds := ⟨rfl, rfl⟩
  distinct := List.nodup_nil
  mapped := by simp
  order := trivial
  owned := by simp [emptyMem]

omit [DecidableEq A] in
theorem live_eq_length {s : FileMem A} {l : Nodes A} {m : HandleMap A} (hv : Valid s l m) :
    live s = l.length := by
  classical
  have hnd : (addrs l).Nodup := Chain.nodup hv.holds.chain
  have hset : {a | s.heap a ≠ none} = ((addrs l).toFinset : Set A) := by
    ext a
    simpa using hv.owned a
  rw [live, hset, Set.ncard_coe_finset, List.toFinset_card_of_nodup hnd]
  simp [addrs]

omit [DecidableEq A] in
theorem Replaces.owned {s s' : FileMem A} {l l' : Nodes A} (hr : Replaces s s' l l')
    (ho : ∀ a, a ∉ addrs l' → (s.heap a ≠ none ↔ a ∈ addrs l)) (a : A) :
    s'.heap a ≠ none ↔ a ∈ addrs l' := by
  constructor
  · intro ha
    by_contra hn
    by_cases hl : a ∈ addrs l
    · exact ha (hr.freed a hl hn)
    · rw [hr.frame a hl hn] at ha
      exact hl ((ho a hn).mp ha)
  · exact Seg.allocated hr.holds.chain

omit [DecidableEq A] in
/-- In a list without repeated handles the search finds the node of the map. -/
theorem find?_eq_map {s : FileMem A} {l : Nodes A} {m : HandleMap A} (hr : Represents s l m)
    (h : UInt32) : l.find? (fun c => c.2.fHandle = h) = m h := by
  cases hm : m h with
  | none =>
    refine List.find?_eq_none.mpr fun c hc hch => ?_
    have := (hr.mapped h c).mpr ⟨hc, by simpa using hch⟩
    rw [hm] at this
    cases this
  | some c =>
    obtain ⟨hc, rfl⟩ := (hr.mapped h c).mp hm
    exact find?_handle hr.distinct hc

omit [DecidableEq A] in
theorem eraseP_eq_filter {l : Nodes A} (hnd : (handles l).Nodup) (h : UInt32) :
    l.eraseP (fun c => c.2.fHandle = h) = l.filter fun c => c.2.fHandle ≠ h := by
  induction l with
  | nil => rfl
  | cons c l ih =>
    obtain ⟨hc, hl⟩ := List.nodup_cons.mp hnd
    by_cases hch : c.2.fHandle = h
    · have hrest : ∀ d ∈ l, d.2.fHandle ≠ h := by
        intro d hd he
        exact hc (List.mem_map.mpr ⟨d, hd, he.trans hch.symm⟩)
      rw [List.eraseP_cons_of_pos (by simpa using hch),
        List.filter_cons_of_neg (by simpa using hch)]
      exact (List.filter_eq_self.mpr fun d hd => by simpa using hrest d hd).symm
    · rw [List.eraseP_cons_of_neg (by simpa using hch),
        List.filter_cons_of_pos (by simpa using hch), ih hl]

theorem find_valid {s : FileMem A} {l : Nodes A} {m : HandleMap A} (hv : Valid s l m)
    (h : UInt32) {fuel : Nat} (hf : l.length ≤ fuel) :
    step fuel s (.find h) = some (s, .found ((m h).map Prod.fst)) := by
  simp [step, findOpenflistByHandle_holds hv.holds h hf, find?_eq_map hv.toRepresents]

theorem remove_valid {s : FileMem A} {l : Nodes A} {m : HandleMap A} (hv : Valid s l m)
    (h : UInt32) {fuel : Nat} (hf : l.length ≤ fuel) :
    ∃ s' l', step fuel s (.remove h) = some (s', .removed) ∧ l'.length ≤ l.length ∧
      Valid s' l' (Function.update m h none) := by
  obtain ⟨s', hrun, hrep⟩ := removeOpenflist_replaces hv.holds h hf
  have hsub : (l.eraseP fun c => c.2.fHandle = h).Sublist l := List.eraseP_sublist
  have hsubH := handles_sublist hsub
  refine ⟨s', _, by simp [step, hrun], hsub.length_le, ?_⟩
  refine ⟨⟨hrep.holds, hv.distinct.sublist hsubH, ?_⟩, hv.order.sublist hsubH, ?_⟩
  · intro k c
    rw [eraseP_eq_filter hv.distinct, List.mem_filter]
    by_cases hk : k = h
    · subst hk
      rw [Function.update_self]
      simp
    · rw [Function.update_of_ne hk, hv.mapped]
      constructor
      · rintro ⟨hc, rfl⟩
        exact ⟨⟨hc, by simpa using hk⟩, rfl⟩
      · rintro ⟨⟨hc, -⟩, rfl⟩
        exact ⟨hc, rfl⟩
  · exact Replaces.owned hrep fun a _ => hv.owned a

theorem allocNode_holds {s : FileMem A} {l : Nodes A} (hs : Holds s l) {a : A}
    (ha : a ∉ addrs l) (info : FsOpenFileInfo) : Holds (allocNode s a info) l :=
  ⟨Seg.update hs.chain ha _, hs.count⟩

theorem insert_valid {s : FileMem A} {l : Nodes A} {m : HandleMap A} (hv : Valid s l m)
    {a : A} {fp : Stream} {fMode : UInt32} {fname : CStr}
    (allowed : OpAllowed s (.insert a fp fMode fname)) {fuel : Nat} (hf : l.length ≤ fuel) :
    ∃ s' l' h, step fuel s (.insert a fp fMode fname) = some (s', .handle h) ∧
      l'.length = l.length + 1 ∧ m h = none ∧
      Valid s' l'
        (Function.update m h (some (a, { openInfo fp fMode fname with fHandle := h }))) := by
  obtain ⟨fresh, room⟩ := allowed
  rw [live_eq_length hv] at room
  have ha : a ∉ addrs l := fun hm => (hv.owned a).mpr hm fresh
  let info := openInfo fp fMode fname
  have hs₀ := allocNode_holds hv.holds ha info
  obtain ⟨s', h, pre, post, hrun, rfl, hrep, hsorted⟩ :=
    insertOpenflist_replaces hs₀ hv.order room (v := info) (Function.update_self _ _ _) ha hf
  have hnd := CyclicSorted.nodup hsorted
  have hperm : (pre ++ (a, { info with fHandle := h }) :: post).Perm
      ((a, { info with fHandle := h }) :: (pre ++ post)) := List.perm_middle
  have hndp : (h :: handles (pre ++ post)).Nodup :=
    (handles_perm hperm).nodup_iff.mp hnd
  obtain ⟨hnew, -⟩ := List.nodup_cons.mp hndp
  have hlen := hperm.length_eq
  refine ⟨s', _, h, by simp [step, hrun, info], hlen, ?_, ?_⟩
  · cases hm : m h with
    | none => rfl
    | some c =>
      obtain ⟨hc, hch⟩ := (hv.mapped h c).mp hm
      exact absurd (List.mem_map.mpr ⟨c, hc, hch⟩) hnew
  refine ⟨⟨hrep.holds, hnd, ?_⟩, hsorted, ?_⟩
  · intro k c
    rw [hperm.mem_iff, List.mem_cons]
    by_cases hk : k = h
    · subst hk
      rw [Function.update_self]
      constructor
      · intro hc
        obtain rfl := Option.some.inj hc
        exact ⟨Or.inl rfl, rfl⟩
      · rintro ⟨rfl | hc, hch⟩
        · rfl
        · exact absurd (List.mem_map.mpr ⟨c, hc, hch⟩) hnew
    · rw [Function.update_of_ne hk, hv.mapped]
      constructor
      · rintro ⟨hc, hch⟩
        exact ⟨Or.inr hc, hch⟩
      · rintro ⟨rfl | hc, hch⟩
        · exact absurd hch.symm hk
        · exact ⟨hc, hch⟩
  · refine Replaces.owned hrep fun x hx => ?_
    have hxa : x ≠ a := by
      rintro rfl
      simp at hx
    have : (allocNode s a info).heap x = s.heap x := Function.update_of_ne hxa _ _
    rw [this]
    exact hv.owned x

/-- Every call is a call of the map, and keeps the invariant. -/
theorem step_valid {s : FileMem A} {l : Nodes A} {m : HandleMap A} (hv : Valid s l m)
    {op : Op A} (allowed : OpAllowed s op) {fuel : Nat} (hf : l.length ≤ fuel) :
    ∃ s' r l' m', step fuel s op = some (s', r) ∧ MapStep m op r m' ∧ Valid s' l' m' ∧
      l'.length ≤ l.length + 1 := by
  cases op with
  | insert a fp fMode fname =>
    obtain ⟨s', l', h, hrun, hlen, hfree, hv'⟩ := insert_valid hv allowed hf
    exact ⟨s', _, l', _, hrun, .insert a fp fMode fname h hfree, hv', hlen.le⟩
  | remove h =>
    obtain ⟨s', l', hrun, hlen, hv'⟩ := remove_valid hv h hf
    exact ⟨s', _, l', _, hrun, .remove h, hv', by omega⟩
  | find h => exact ⟨s, _, l, m, find_valid hv h hf, .find h, hv, by omega⟩

theorem run_valid {fuel : Nat} {ops : List (Op A)} {s : FileMem A} {l : Nodes A}
    {m : HandleMap A} (hv : Valid s l m) (adm : Admissible fuel s ops)
    (hf : l.length + ops.length ≤ fuel) :
    ∃ s' rs l' m', run fuel s ops = some (s', rs) ∧ MapRun m ops rs m' ∧ Valid s' l' m' ∧
      l'.length ≤ fuel := by
  induction ops generalizing s l m with
  | nil => exact ⟨s, [], l, m, rfl, .nil m, hv, by simpa using hf⟩
  | cons op ops ih =>
    simp only [List.length_cons] at hf
    obtain ⟨allowed, later⟩ := adm
    have hfl : l.length ≤ fuel := by omega
    obtain ⟨s₁, r, l₁, m₁, hstep, hmap, hv₁, hlen⟩ := step_valid hv allowed hfl
    rw [hstep] at later
    obtain ⟨s₂, rs, l₂, m₂, hrun, hmaps, hv₂, hlen₂⟩ := ih hv₁ later (by omega)
    exact ⟨s₂, r :: rs, l₂, m₂, by simp [run, hstep, hrun], .cons hmap hmaps, hv₂, hlen₂⟩

/-- From the empty list, every run of insertions, removals and searches in which
fewer than 2^32 nodes are live completes without fault and is a run of the
finite map, with the same results; the list it leaves represents that map, and
removing a handle the map does not have leaves the memory as it is. -/
theorem openflist_refines_handleMap {fuel : Nat} {ops : List (Op A)}
    (hf : ops.length ≤ fuel) (adm : Admissible fuel (emptyMem A) ops) :
    ∃ s results l m, run fuel (emptyMem A) ops = some (s, results) ∧
      MapRun (fun _ => none) ops results m ∧ Represents s l m ∧
      ∀ h, m h = none → removeOpenflist fuel s h = some s := by
  obtain ⟨s, rs, l, m, hrun, hmap, hv, hlen⟩ := run_valid emptyMem_valid adm (by simpa using hf)
  refine ⟨s, rs, l, m, hrun, hmap, hv.toRepresents, ?_⟩
  intro h absent
  refine removeOpenflist_absent hv.holds ?_ hlen
  intro c hc hch
  have := (hv.mapped h c).mpr ⟨hc, hch⟩
  rw [absent] at this
  cases this

/-- Three files are opened and the second is closed before the third one takes
its handle. -/
def reopenRun : List (Op (Fin 3)) :=
  [.insert 0 10 0 (cstr "a"), .insert 1 11 0 (cstr "b"), .remove 2,
    .insert 2 12 1 (cstr "c"), .find 2]

/-- Three nodes never are too many. -/
theorem room_of_three (s : FileMem (Fin 3)) : live s + 1 < 2 ^ 32 := by
  have hlive : live s ≤ 3 := (Set.ncard_le_card _).trans (by simp)
  omega

theorem reopenRun_admissible : Admissible 5 (emptyMem (Fin 3)) reopenRun :=
  ⟨⟨rfl, room_of_three _⟩, ⟨rfl, room_of_three _⟩, trivial, ⟨rfl, room_of_three _⟩, trivial,
    trivial⟩

theorem openflist_refines_handleMap_reopen :
    ∃ s results l m, run 5 (emptyMem (Fin 3)) reopenRun = some (s, results) ∧
      MapRun (fun _ => none) reopenRun results m ∧ Represents s l m ∧
      ∀ h, m h = none → removeOpenflist 5 s h = some s :=
  openflist_refines_handleMap (by decide) reopenRun_admissible

end OpenFileMap
