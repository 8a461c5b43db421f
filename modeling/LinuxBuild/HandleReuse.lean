import LinuxBuild.GapSearch
import LinuxBuild.OpenFileMap

/-!
# Which handle a new file gets

The search for a gap starts at the first node of the list, whatever its handle is. As
long as that is the first handle, a new file gets the least free one; once it is not, the
handles in front of it are not used again before the list is empty.
-/
namespace HandleReuse
open HeapList CString OpenFileList OpenFileOps OpenFileMap GapSearch

universe u
variable {A : Type u}

/-- The handles that no live node has, from the first one on. -/
def freeHandles (s : FileMem A) : Set UInt32 :=
  {k | fsOpenfileHandleStart ≤ k ∧ ∀ a c, s.heap a = some c → c.val.fHandle ≠ k}

/-- The new handle is the least free one, and no larger than the number of open files. -/
structure Tight (s : FileMem A) (h : UInt32) (s' : FileMem A) : Prop where
  least : IsLeast (freeHandles s) h
  bound : h.toNat ≤ live s'

/-- A larger handle is given only while the first one is in use. -/
theorem Tight.first_used {s s' : FileMem A} {h : UInt32} (ht : Tight s h s')
    (hlt : fsOpenfileHandleStart < h) :
    ∃ a c, s.heap a = some c ∧ c.val.fHandle = fsOpenfileHandleStart := by
  by_contra hno
  have hfree : fsOpenfileHandleStart ∈ freeHandles s :=
    ⟨UInt32.le_refl _, fun a c hc heq => hno ⟨a, c, hc, heq⟩⟩
  exact UInt32.not_lt.mpr (ht.least.2 hfree) hlt

/-- No file is open, or the first handle is in use. -/
def FirstInUse (s : FileMem A) : Prop :=
  (∀ a, s.heap a = none) ∨ ∃ a c, s.heap a = some c ∧ c.val.fHandle = fsOpenfileHandleStart

/-- The property holds of every insertion of a run: of the memory before it, the new
handle and the memory behind it. -/
def AtInsertions [DecidableEq A] (P : FileMem A → UInt32 → FileMem A → Prop) (fuel : Nat) :
    FileMem A → List (Op A) → Prop
  | _, [] => True
  | s, op :: ops =>
    match step fuel s op with
    | none => True
    | some (s', r) => (∀ h, r = .handle h → P s h s') ∧ AtInsertions P fuel s' ops

def numbers (l : Nodes A) : List Nat := l.map fun c => c.2.fHandle.toNat

@[simp] theorem numbers_nil : numbers ([] : Nodes A) = [] := rfl

@[simp] theorem numbers_cons (c : A × FsOpenFileInfo) (l : Nodes A) :
    numbers (c :: l) = c.2.fHandle.toNat :: numbers l := rfl

@[simp] theorem numbers_append (l m : Nodes A) : numbers (l ++ m) = numbers l ++ numbers m :=
  List.map_append

/-- The list as it is while every handle was the least free one. -/
structure Ascends (l : Nodes A) : Prop where
  ascending : Ascending (numbers l)
  positive : ∀ k ∈ numbers l, 1 ≤ k

theorem Ascends.sublist {l m : Nodes A} (h : Ascends m) (hl : l.Sublist m) : Ascends l where
  ascending := h.ascending.sublist (hl.map _)
  positive := fun k hk => h.positive k ((hl.map _).subset hk)

section Search

theorem succ_eq_iff {v w : UInt32} (h : v.toNat < w.toNat) :
    v + 1 = w ↔ v.toNat + 1 = w.toNat := by
  have hw := w.toNat_lt
  have hone : (1 : UInt32).toNat = 1 := rfl
  rw [← UInt32.toNat_inj, UInt32.toNat_add, hone]
  omega

/-- On an ascending list the search stops in front of the first gap. -/
theorem gapLoop_firstGap {h : Heap A FsOpenFileInfo} {a : A} {v : FsOpenFileInfo} {l : Nodes A}
    (hl : Chain h (some a) ((a, v) :: l)) (hasc : Ascending (numbers ((a, v) :: l))) {fuel : Nat}
    (hf : l.length < fuel) :
    ∃ pre b w post, (a, v) :: l = pre ++ (b, w) :: post ∧ gapLoop h fuel a = some b ∧
      firstGap v.fHandle.toNat (numbers l) = w.fHandle.toNat + 1 ∧
      insertGap v.fHandle.toNat (numbers l) =
        numbers pre ++ w.fHandle.toNat :: (w.fHandle.toNat + 1) :: numbers post := by
  induction l generalizing a v fuel with
  | nil =>
    obtain ⟨-, n, ha, hn⟩ := hl
    obtain rfl : n = none := hn
    cases fuel with
    | zero => simp at hf
    | succ fuel => exact ⟨[], a, v, [], rfl, by simp [gapLoop, ha], rfl, rfl⟩
  | cons c l ih =>
    obtain ⟨b, w⟩ := c
    obtain ⟨-, n, ha, hn⟩ := hl
    obtain rfl : n = some b := hn.1
    obtain ⟨-, m, hb, -⟩ := id hn
    obtain ⟨hlow, hrest⟩ := List.pairwise_cons.mp hasc
    have hiff := succ_eq_iff (hlow w.fHandle.toNat List.mem_cons_self)
    cases fuel with
    | zero => simp at hf
    | succ fuel =>
      by_cases hw : v.fHandle + 1 = w.fHandle
      · obtain ⟨pre, d, u, post, hsplit, hrun, hgap, hinsert⟩ := ih hn hrest (by simpa using hf)
        refine ⟨(a, v) :: pre, d, u, post, by rw [hsplit]; rfl, ?_, ?_, ?_⟩
        · simp [gapLoop, ha, hb, hw, hrun]
        · rw [numbers_cons, firstGap, if_pos (hiff.mp hw), hgap]
        · rw [numbers_cons, insertGap, if_pos (hiff.mp hw), hinsert]
          rfl
      · refine ⟨[], a, v, (b, w) :: l, rfl, by simp [gapLoop, ha, hb, hw], ?_, ?_⟩
        · rw [numbers_cons, firstGap, if_neg (mt hiff.mpr hw)]
        · rw [numbers_cons, insertGap, if_neg (mt hiff.mpr hw)]
          rfl

end Search

variable [DecidableEq A]

/-- An insertion into an ascending list gives the number behind the first gap, and puts
it there unless it wraps. -/
theorem insertOpenflist_firstGap {s : FileMem A} {a₀ : A} {v₀ : FsOpenFileInfo} {l : Nodes A}
    (hs : Holds s ((a₀, v₀) :: l)) (hasc : Ascending (numbers ((a₀, v₀) :: l))) {a : A}
    {v : FsOpenFileInfo} (hnew : s.heap a = some ⟨v, none⟩) (ha : a ∉ addrs ((a₀, v₀) :: l))
    {fuel : Nat} (hf : l.length < fuel) :
    ∃ s' w l', insertOpenflist fuel s a = some (s', w + 1) ∧
      firstGap v₀.fHandle.toNat (numbers l) = w.toNat + 1 ∧
      Chain s'.heap s'.list.node l' ∧
      (w.toNat + 1 < 2 ^ 32 → numbers l' = insertGap v₀.fHandle.toNat (numbers l)) := by
  have hnode : s.list.node = some a₀ := hs.node
  obtain ⟨pre, b, w, post, hsplit, hgap, hfirst, hinsert⟩ :=
    gapLoop_firstGap (hnode ▸ hs.chain) hasc hf
  rw [hsplit] at hs ha
  obtain ⟨n, h₁, h₂, h₃, hb, hset₁, hset₂, hset₃, hchain₃, -⟩ :=
    link_chain (w.fHandle + 1) hs.chain hnew ha
  refine ⟨⟨h₃, ⟨some a₀, s.list.num + 1⟩, s.fclosed⟩, w.fHandle, _, ?_, hfirst,
    hnode ▸ hchain₃, ?_⟩
  · simp [insertOpenflist, hnode, hgap, hb, hset₁, hset₂, hset₃]
  · intro hroom
    have hsucc : (w.fHandle + 1).toNat = w.fHandle.toNat + 1 := num_succ rfl hroom
    rw [hinsert, numbers_append, numbers_cons, numbers_cons, hsucc]

section State
variable {s : FileMem A} {l : Nodes A} {m : HandleMap A}

omit [DecidableEq A] in
/-- The live nodes are those of the list. -/
theorem heap_iff_mem (hv : Valid s l m) {a : A} {v : FsOpenFileInfo} :
    (∃ c, s.heap a = some c ∧ c.val = v) ↔ (a, v) ∈ l := by
  constructor
  · rintro ⟨c, hc, rfl⟩
    have ha : a ∈ addrs l := (hv.owned a).mp (by rw [hc]; exact Option.some_ne_none _)
    obtain ⟨⟨b, w⟩, hb, rfl⟩ := List.mem_map.mp ha
    obtain ⟨n, hn⟩ := Seg.cell hv.holds.chain hb
    cases hc.symm.trans hn
    exact hb
  · intro h
    obtain ⟨n, hn⟩ := Seg.cell hv.holds.chain h
    exact ⟨_, hn, rfl⟩

omit [DecidableEq A] in
theorem forall_heap_iff (hv : Valid s l m) {k : UInt32} :
    (∀ a c, s.heap a = some c → c.val.fHandle ≠ k) ↔ k.toNat ∉ numbers l := by
  constructor
  · intro h hmem
    obtain ⟨⟨a, v⟩, hc, hk⟩ := List.mem_map.mp hmem
    obtain ⟨c, hcell, rfl⟩ := (heap_iff_mem hv).mpr hc
    exact h a c hcell (UInt32.toNat_inj.mp hk)
  · rintro h a c hc rfl
    exact h (List.mem_map.mpr ⟨(a, c.val), (heap_iff_mem hv).mp ⟨c, hc, rfl⟩, rfl⟩)

omit [DecidableEq A] in
theorem mem_freeHandles_iff (hv : Valid s l m) {k : UInt32} :
    k ∈ freeHandles s ↔ 1 ≤ k.toNat ∧ k.toNat ∉ numbers l := by
  rw [← forall_heap_iff hv]
  exact and_congr_left' UInt32.le_iff_toNat_le

omit [DecidableEq A] in
theorem firstInUse_iff (hv : Valid s l m) : FirstInUse s ↔ l = [] ∨ 1 ∈ numbers l := by
  have hempty : (∀ a, s.heap a = none) ↔ l = [] := by
    constructor
    · intro h
      cases l with
      | nil => rfl
      | cons c l =>
        obtain ⟨n, hn⟩ := Seg.cell hv.holds.chain List.mem_cons_self
        rw [h c.1] at hn
        cases hn
    · rintro rfl a
      by_contra h
      exact absurd ((hv.owned a).mp h) List.not_mem_nil
  have hfirst := not_congr (forall_heap_iff hv (k := fsOpenfileHandleStart))
  simp only [not_forall, not_not, exists_prop] at hfirst
  rw [FirstInUse, hempty, hfirst]
  rfl

theorem step_insert_empty (hnode : s.list.node = none) {a : A} {fp : Stream} {fMode : UInt32}
    {fname : CStr} {fuel : Nat} :
    ∃ s', step fuel s (.insert a fp fMode fname) = some (s', .handle fsOpenfileHandleStart) := by
  simp [step, insertOpenflist, allocNode, hnode, setHandle]

/-- Into an empty list the first handle goes. -/
theorem insert_empty (hv : Valid s [] m) {a : A} {fp : Stream} {fMode : UInt32} {fname : CStr}
    (allowed : OpAllowed s (.insert a fp fMode fname)) {fuel : Nat} :
    ∃ s' l' m', step fuel s (.insert a fp fMode fname) =
        some (s', .handle fsOpenfileHandleStart) ∧ Valid s' l' m' ∧ l'.length = 1 ∧ Ascends l' ∧
      Tight s fsOpenfileHandleStart s' := by
  obtain ⟨s', l', h, hstep, hlen, -, hv'⟩ := insert_valid hv allowed (Nat.zero_le fuel)
  obtain ⟨s'', hfirst⟩ := @step_insert_empty _ _ s hv.holds.node a fp fMode fname fuel
  cases hstep.symm.trans hfirst
  have hlen : l'.length = 1 := hlen
  obtain ⟨c, rfl⟩ := List.length_eq_one_iff.mp hlen
  have hmem := (hv'.mapped fsOpenfileHandleStart _).mp (Function.update_self _ _ _)
  have hc : c.2.fHandle = fsOpenfileHandleStart := by
    rw [← List.mem_singleton.mp hmem.1]
  have hone : fsOpenfileHandleStart.toNat = 1 := rfl
  refine ⟨_, _, _, hfirst, hv', hlen, ⟨List.pairwise_singleton _ _, ?_⟩, ?_, ?_⟩
  · intro k hk
    rw [numbers_cons, hc, numbers_nil, List.mem_singleton] at hk
    omega
  · exact ⟨(mem_freeHandles_iff hv).mpr ⟨le_rfl, List.not_mem_nil⟩, fun k hk => hk.1⟩
  · rw [live_eq_length hv', hlen, hone]

/-- Into an ascending list the number behind the first gap goes. -/
theorem insert_cons {a₀ : A} {v₀ : FsOpenFileInfo} (hv : Valid s ((a₀, v₀) :: l) m)
    (hasc : Ascends ((a₀, v₀) :: l)) {a : A} {fp : Stream} {fMode : UInt32} {fname : CStr}
    (allowed : OpAllowed s (.insert a fp fMode fname)) {fuel : Nat} (hf : l.length < fuel) :
    ∃ s' w l' m', step fuel s (.insert a fp fMode fname) = some (s', .handle (w + 1)) ∧
      firstGap v₀.fHandle.toNat (numbers l) = w.toNat + 1 ∧ Valid s' l' m' ∧
      l'.length = l.length + 2 ∧
      (w.toNat + 1 < 2 ^ 32 → numbers l' = insertGap v₀.fHandle.toNat (numbers l)) := by
  obtain ⟨s', l', h, hstep, hlen, -, hv'⟩ := insert_valid hv allowed hf
  have ha : a ∉ addrs ((a₀, v₀) :: l) := fun hm => (hv.owned a).mpr hm allowed.1
  have hs₀ := allocNode_holds hv.holds ha (openInfo fp fMode fname)
  obtain ⟨s'', w, l'', hinsert, hgap, hchain, hnumbers⟩ :=
    insertOpenflist_firstGap hs₀ hasc.ascending (Function.update_self _ _ _) ha hf
  have hfirst : step fuel s (.insert a fp fMode fname) = some (s'', .handle (w + 1)) := by
    rw [step, hinsert]
    rfl
  cases hstep.symm.trans hfirst
  obtain rfl := Chain.unique hv'.holds.chain hchain
  exact ⟨_, w, _, _, hfirst, hgap, hv', hlen, hnumbers⟩

omit [DecidableEq A] in
/-- With its first handle in use an ascending list starts with it. -/
theorem head_eq_one {a₀ : A} {v₀ : FsOpenFileInfo} (hasc : Ascends ((a₀, v₀) :: l)) :
    1 ∈ numbers ((a₀, v₀) :: l) ↔ v₀.fHandle.toNat = 1 := by
  have hpos := hasc.positive v₀.fHandle.toNat List.mem_cons_self
  constructor
  · intro h
    rcases List.mem_cons.mp h with h | h
    · exact h.symm
    · have hlt : v₀.fHandle.toNat < 1 := (List.pairwise_cons.mp hasc.ascending).1 1 h
      omega
  · intro h
    rw [numbers_cons, h]
    exact List.mem_cons_self

omit [DecidableEq A] in
/-- From the first handle on the gap is the least free handle. -/
theorem insert_tight {a₀ : A} {v₀ : FsOpenFileInfo} (hv : Valid s ((a₀, v₀) :: l) m)
    (hasc : Ascends ((a₀, v₀) :: l)) (hone : v₀.fHandle.toNat = 1) {s' : FileMem A} {w : UInt32}
    {l' : Nodes A} {m' : HandleMap A} (hroom : l.length + 2 < 2 ^ 32)
    (hgap : firstGap v₀.fHandle.toNat (numbers l) = w.toNat + 1) (hv' : Valid s' l' m')
    (hlen : l'.length = l.length + 2)
    (hnumbers : w.toNat + 1 < 2 ^ 32 → numbers l' = insertGap v₀.fHandle.toNat (numbers l)) :
    Tight s (w + 1) s' ∧ Ascends l' := by
  have hle := @firstGap_le v₀.fHandle.toNat (numbers l)
  have hlength : (numbers l).length = l.length := List.length_map _
  have hw : w.toNat + 1 < 2 ^ 32 := by omega
  have hsucc : (w + 1).toNat = w.toNat + 1 := num_succ rfl hw
  have hgapLeast : IsLeast {k | v₀.fHandle.toNat ≤ k ∧ k ∉ numbers ((a₀, v₀) :: l)}
      (firstGap v₀.fHandle.toNat (numbers l)) := firstGap_isLeast hasc.ascending
  obtain ⟨⟨hlow, hfree⟩, hleast⟩ := hgapLeast
  refine ⟨⟨⟨?_, ?_⟩, ?_⟩, ?_, ?_⟩
  · rw [mem_freeHandles_iff hv, hsucc, ← hgap]
    exact ⟨by omega, hfree⟩
  · intro k hk
    obtain ⟨hpos, hnot⟩ := (mem_freeHandles_iff hv).mp hk
    rw [UInt32.le_iff_toNat_le, hsucc, ← hgap]
    exact hleast ⟨by omega, hnot⟩
  · rw [live_eq_length hv', hlen, hsucc]
    omega
  · rw [hnumbers hw]
    exact insertGap_ascending hasc.ascending
  · intro k hk
    rw [hnumbers hw] at hk
    rcases mem_insertGap.mp hk with rfl | hk
    · omega
    · exact hasc.positive k hk

omit [DecidableEq A] in
/-- Behind a larger first handle the gap is never the least free one. -/
theorem insert_not_tight {a₀ : A} {v₀ : FsOpenFileInfo} (hv : Valid s ((a₀, v₀) :: l) m)
    (hasc : Ascends ((a₀, v₀) :: l)) (hne : v₀.fHandle.toNat ≠ 1) {s' : FileMem A} {w : UInt32}
    (hgap : firstGap v₀.fHandle.toNat (numbers l) = w.toNat + 1) : ¬ Tight s (w + 1) s' := by
  intro h
  have hone : fsOpenfileHandleStart ∈ freeHandles s :=
    (mem_freeHandles_iff hv).mpr ⟨le_rfl, mt (head_eq_one hasc).mp hne⟩
  have hle := UInt32.le_iff_toNat_le.mp (h.least.2 hone)
  have hge := UInt32.le_iff_toNat_le.mp h.least.1.1
  have hlt := @lt_firstGap v₀.fHandle.toNat (numbers l)
  have hpos := hasc.positive v₀.fHandle.toNat List.mem_cons_self
  have hstart : fsOpenfileHandleStart.toNat = 1 := rfl
  have hw := w.toNat_lt
  have hunit : (1 : UInt32).toNat = 1 := rfl
  rw [UInt32.toNat_add, hunit, hstart] at hle hge
  omega

/-- What an insertion into an ascending list does. -/
theorem insert_step (hv : Valid s l m) (hasc : Ascends l) {a : A} {fp : Stream} {fMode : UInt32}
    {fname : CStr} (allowed : OpAllowed s (.insert a fp fMode fname)) {fuel : Nat}
    (hf : l.length ≤ fuel) :
    ∃ s' h, step fuel s (.insert a fp fMode fname) = some (s', .handle h) ∧
      (Tight s h s' ↔ FirstInUse s) ∧
      (FirstInUse s → ∃ l' m', Valid s' l' m' ∧ Ascends l' ∧ l'.length = l.length + 1) := by
  rw [firstInUse_iff hv]
  cases l with
  | nil =>
    obtain ⟨s', l', m', hstep, hv', hlen, hasc', htight⟩ := @insert_empty _ _ s m hv a fp fMode
      fname allowed fuel
    exact ⟨s', _, hstep, iff_of_true htight (Or.inl rfl), fun _ => ⟨l', m', hv', hasc', hlen⟩⟩
  | cons c l =>
    obtain ⟨a₀, v₀⟩ := c
    obtain ⟨s', w, l', m', hstep, hgap, hv', hlen, hnumbers⟩ := insert_cons hv hasc allowed hf
    have hroom : l.length + 2 < 2 ^ 32 := by
      have := allowed.2
      rw [live_eq_length hv] at this
      exact this
    refine ⟨s', w + 1, hstep, ?_⟩
    rw [head_eq_one hasc]
    by_cases hone : v₀.fHandle.toNat = 1
    · obtain ⟨htight, hasc'⟩ := insert_tight hv hasc hone hroom hgap hv' hlen hnumbers
      exact ⟨iff_of_true htight (Or.inr hone), fun _ => ⟨l', m', hv', hasc', hlen⟩⟩
    · have hno : ¬ ((a₀, v₀) :: l = [] ∨ v₀.fHandle.toNat = 1) := by
        rintro (h | h)
        · cases h
        · exact hone h
      exact ⟨iff_of_false (insert_not_tight hv hasc hone hgap) hno, fun h => absurd h hno⟩

/-- A removal keeps the list ascending. -/
theorem remove_step (hv : Valid s l m) (hasc : Ascends l) (h : UInt32) {fuel : Nat}
    (hf : l.length ≤ fuel) :
    ∃ s' l' m', step fuel s (.remove h) = some (s', .removed) ∧ Valid s' l' m' ∧ Ascends l' ∧
      l'.length ≤ l.length := by
  obtain ⟨s', l', hstep, hlen, hv'⟩ := remove_valid hv h hf
  obtain ⟨s'', hrun, hrep⟩ := removeOpenflist_replaces hv.holds h hf
  have hremoved : step fuel s (.remove h) = some (s'', .removed) := by
    rw [step, hrun]
    rfl
  cases hstep.symm.trans hremoved
  obtain rfl := Chain.unique hv'.holds.chain hrep.holds.chain
  exact ⟨_, _, _, hremoved, hv', hasc.sublist List.eraseP_sublist, hlen⟩

end State

/-- As long as all handles were the least free ones the list is ascending, so the next one
is again if and only if the first handle is in use or no file is open. -/
theorem atInsertions_iff {fuel : Nat} {ops : List (Op A)} {s : FileMem A} {l : Nodes A}
    {m : HandleMap A} (hv : Valid s l m) (hasc : Ascends l) (adm : Admissible fuel s ops)
    (hf : l.length + ops.length ≤ fuel) :
    AtInsertions Tight fuel s ops ↔ AtInsertions (fun s _ _ => FirstInUse s) fuel s ops := by
  induction ops generalizing s l m with
  | nil => exact Iff.rfl
  | cons op ops ih =>
    simp only [List.length_cons] at hf
    obtain ⟨allowed, later⟩ := adm
    cases op with
    | insert a fp fMode fname =>
      obtain ⟨s', h, hstep, hiff, hnext⟩ := insert_step hv hasc allowed
        (show l.length ≤ fuel by omega)
      rw [hstep] at later
      simp only [AtInsertions, hstep, Result.handle.injEq, forall_eq']
      by_cases hfirst : FirstInUse s
      · obtain ⟨l', m', hv', hasc', hlen⟩ := hnext hfirst
        rw [hiff, ih hv' hasc' later (by omega)]
      · exact iff_of_false (fun h => hfirst (hiff.mp h.1)) fun h => hfirst h.1
    | remove handle =>
      obtain ⟨s', l', m', hstep, hv', hasc', hlen⟩ := remove_step hv hasc handle
        (show l.length ≤ fuel by omega)
      rw [hstep] at later
      simp only [AtInsertions, hstep, reduceCtorEq, false_imp_iff, implies_true, true_and]
      exact ih hv' hasc' later (by omega)
    | find handle =>
      have hstep := find_valid hv handle (show l.length ≤ fuel by omega)
      rw [hstep] at later
      simp only [AtInsertions, hstep, reduceCtorEq, false_imp_iff, implies_true, true_and]
      exact ih hv hasc later (by omega)

/-- In a run from the empty list every new file gets the least free handle, and so one no
larger than the number of open files, exactly when no file is ever opened while others
are open and the first handle is free. -/
theorem insertions_tight_iff {fuel : Nat} {ops : List (Op A)} (hf : ops.length ≤ fuel)
    (adm : Admissible fuel (emptyMem A) ops) :
    run fuel (emptyMem A) ops ≠ none ∧
      (AtInsertions Tight fuel (emptyMem A) ops ↔
        AtInsertions (fun s _ _ => FirstInUse s) fuel (emptyMem A) ops) := by
  obtain ⟨s, rs, l, m, hrun, -⟩ := run_valid emptyMem_valid adm (by simpa using hf)
  refine ⟨?_, atInsertions_iff emptyMem_valid ⟨List.Pairwise.nil, ?_⟩ adm (by simpa using hf)⟩
  · rw [hrun]
    exact Option.some_ne_none _
  · intro k hk
    cases hk

theorem insertions_tight_reopen :
    run 5 (emptyMem (Fin 3)) reopenRun ≠ none ∧
      (AtInsertions Tight 5 (emptyMem (Fin 3)) reopenRun ↔
        AtInsertions (fun s _ _ => FirstInUse s) 5 (emptyMem (Fin 3)) reopenRun) :=
  insertions_tight_iff (by decide) reopenRun_admissible

/-- The same run with the first of the two files closed. -/
def firstClosedRun : List (Op (Fin 3)) := reopenRun.set 2 (.remove fsOpenfileHandleStart)

theorem firstClosedRun_admissible : Admissible 5 (emptyMem (Fin 3)) firstClosedRun :=
  ⟨⟨rfl, room_of_three _⟩, ⟨rfl, room_of_three _⟩, trivial, ⟨rfl, room_of_three _⟩, trivial,
    trivial⟩

/-- The third file gets the handle 3 although the handle 1 is free. -/
theorem firstClosed_not_tight :
    Admissible 5 (emptyMem (Fin 3)) firstClosedRun ∧
      ¬ AtInsertions Tight 5 (emptyMem (Fin 3)) firstClosedRun := by
  refine ⟨firstClosedRun_admissible, fun h => ?_⟩
  have htight := h.2.2.2.1 3 rfl
  obtain ⟨a, c, hc, heq⟩ := htight.first_used (by decide)
  have hhandle := congrArg (Option.map fun c => c.val.fHandle) hc
  rw [Option.map_some, heq] at hhandle
  clear hc heq c
  revert a
  decide

end HandleReuse
