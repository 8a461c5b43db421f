import LinuxBuild.OpenFileList

/-!
# What each list operation does to the nodes

The nodes of the list are given as a Lean list of addresses and contents. Every
operation is specified by the nodes before and after it, by the addresses it
frees, and by the rest of the heap, which it leaves alone.
-/
namespace OpenFileOps
open HeapList CyclicOrder CString OpenFileList

universe u

abbrev Nodes (A : Type u) := List (A × FsOpenFileInfo)

def handles {A : Type u} (l : Nodes A) : List UInt32 := l.map fun c => c.2.fHandle

variable {A : Type u}

@[simp] theorem handles_nil : handles ([] : Nodes A) = [] := rfl

@[simp] theorem handles_cons (c : A × FsOpenFileInfo) (l : Nodes A) :
    handles (c :: l) = c.2.fHandle :: handles l := rfl

@[simp] theorem handles_append (l m : Nodes A) : handles (l ++ m) = handles l ++ handles m :=
  List.map_append

theorem handles_perm {l m : Nodes A} (h : l.Perm m) : (handles l).Perm (handles m) := h.map _

theorem handles_sublist {l m : Nodes A} (h : l.Sublist m) : (handles l).Sublist (handles m) :=
  h.map _

/-- Under its own handle a node is found, when no other node has that handle. -/
theorem find?_handle {l : Nodes A} (hnd : (handles l).Nodup) {c : A × FsOpenFileInfo}
    (hc : c ∈ l) : l.find? (fun d => d.2.fHandle = c.2.fHandle) = some c := by
  cases hf : l.find? (fun d => d.2.fHandle = c.2.fHandle) with
  | none => exact absurd (by simp) (List.find?_eq_none.mp hf c hc)
  | some d =>
    have hdc : d.2.fHandle = c.2.fHandle := by simpa using List.find?_some hf
    rw [List.inj_on_of_nodup_map hnd (List.mem_of_find?_eq_some hf) hc hdc]

/-- The list structure is exactly the chain of these nodes, and counts them. -/
structure Holds (s : FileMem A) (l : Nodes A) : Prop where
  chain : Chain s.heap s.list.node l
  count : s.list.num.toNat = l.length

/-- `l'` replaces `l`: nodes that are gone were freed, and an address in neither
list holds what it held. -/
structure Replaces (s s' : FileMem A) (l l' : Nodes A) : Prop where
  holds : Holds s' l'
  freed : ∀ a ∈ addrs l, a ∉ addrs l' → s'.heap a = none
  frame : ∀ a, a ∉ addrs l → a ∉ addrs l' → s'.heap a = s.heap a
  streams : s'.fclosed = s.fclosed

theorem Replaces.refl {s : FileMem A} {l : Nodes A} (h : Holds s l) : Replaces s s l l where
  holds := h
  freed := fun _ ha hb => absurd ha hb
  frame := fun _ _ _ => rfl
  streams := rfl

theorem Holds.node {s : FileMem A} {l : Nodes A} (h : Holds s l) :
    s.list.node = (addrs l).head? := by
  cases l with
  | nil => exact h.chain
  | cons c l => exact h.chain.1

section Lookup

theorem findLoop_chain {h : Heap A FsOpenFileInfo} (handle : UInt32) {p : Option A}
    {l : Nodes A} (hl : Chain h p l) {fuel : Nat} (hf : l.length ≤ fuel) :
    findLoop h handle fuel p =
      some ((l.find? fun c => c.2.fHandle = handle).map Prod.fst) := by
  induction l generalizing p fuel with
  | nil =>
    obtain rfl : p = none := hl
    cases fuel <;> rfl
  | cons c l ih =>
    obtain ⟨a, v⟩ := c
    obtain ⟨rfl, n, ha, hl⟩ := hl
    cases fuel with
    | zero => simp at hf
    | succ fuel =>
      have hrest := ih hl (by simpa using hf)
      by_cases hv : v.fHandle = handle
      · simp [findLoop, ha, hv]
      · simp [findLoop, ha, hv, hrest]

theorem findOpenflistByHandle_holds {s : FileMem A} {l : Nodes A} (h : Holds s l)
    (handle : UInt32) {fuel : Nat} (hf : l.length ≤ fuel) :
    findOpenflistByHandle fuel s handle =
      some ((l.find? fun c => c.2.fHandle = handle).map Prod.fst) :=
  findLoop_chain handle h.chain hf

end Lookup

variable [DecidableEq A]

section Removal

/-- Unlinking the node `(a, v)` behind `(b, w)`, as both `head->next` writes do. -/
theorem unlink_chain {h : Heap A FsOpenFileInfo} {p : Option A} {l r : Nodes A} {a b : A}
    {v w : FsOpenFileInfo} {n : Option A}
    (hc : Chain h p (l ++ (b, w) :: (a, v) :: r)) (ha : h a = some ⟨v, n⟩) :
    ∃ h₁, setNext h b n = some h₁ ∧ free h₁ a = some (Function.update h₁ a none) ∧
      Chain (Function.update h₁ a none) p (l ++ (b, w) :: r) ∧
      ∀ x, x ≠ a → x ≠ b → h₁ x = h x := by
  have hnd : (addrs (l ++ (b, w) :: (a, v) :: r)).Nodup := Chain.nodup hc
  simp only [addrs_append, addrs_cons, List.nodup_append, List.nodup_cons, List.mem_cons,
    not_or] at hnd
  obtain ⟨q, hpre, hrest⟩ := seg_append.mp hc
  obtain ⟨rfl, m, hb, hrest⟩ := hrest
  obtain ⟨rfl, n', ha', hr⟩ := hrest
  obtain ⟨-, rfl⟩ := HeapList.Cell.mk.inj (Option.some.inj (ha.symm.trans ha'))
  have hab : a ≠ b := fun he => hnd.2.1.1.1 he.symm
  let h₁ := Function.update h b (some ⟨w, n⟩)
  have h₁a : h₁ a = h a := Function.update_of_ne hab _ _
  refine ⟨h₁, by simp [setNext, hb, h₁], by simp [free, h₁a, ha], ?_, ?_⟩
  · have hpre₁ : Seg h₁ p l (some b) :=
      hpre.update (fun hm => hnd.2.2 b hm b (Or.inl rfl) rfl) _
    have hr₁ : Chain h₁ n r := Seg.update hr hnd.2.1.1.2 _
    have hb₁ : h₁ b = some ⟨w, n⟩ := Function.update_self _ _ _
    refine seg_append.mpr ⟨some b, ?_, rfl, n, ?_, ?_⟩
    · exact hpre₁.update (fun hm => hnd.2.2 a hm a (Or.inr (Or.inl rfl)) rfl) _
    · rw [Function.update_of_ne (Ne.symm hab)]
      exact hb₁
    · exact Seg.update hr₁ hnd.2.1.2.1 _
  · intro x _ hxb
    exact Function.update_of_ne hxb _ _

theorem num_pred {n : UInt32} {k : Nat} (h : n.toNat = k + 1) : (n - 1).toNat = k := by
  have hle : (1 : UInt32) ≤ n := by
    rw [UInt32.le_iff_toNat_le, h]
    exact Nat.le_add_left 1 k
  rw [UInt32.toNat_sub_of_le _ _ hle, h]
  rfl

/-- The walk of `remove_openflist` behind its head: the first node with the
handle goes, and a list without one stays as it is. -/
theorem removeLoop_replaces {s : FileMem A} (handle : UInt32) {l r : Nodes A} {b : A}
    {w : FsOpenFileInfo} {n : Option A} (hs : Holds s (l ++ (b, w) :: r))
    (hb : s.heap b = some ⟨w, n⟩) {fuel : Nat} (hf : r.length ≤ fuel) :
    ∃ s', removeLoop handle fuel s b n = some s' ∧
      Replaces s s' (l ++ (b, w) :: r)
        (l ++ (b, w) :: r.eraseP fun c => c.2.fHandle = handle) := by
  induction r generalizing l b w n fuel with
  | nil =>
    obtain ⟨q, -, hq⟩ := seg_append.mp hs.chain
    obtain ⟨rfl, n', hb', hn⟩ := hq
    obtain ⟨-, rfl⟩ := HeapList.Cell.mk.inj (Option.some.inj (hb.symm.trans hb'))
    obtain rfl : n = none := hn
    exact ⟨s, by cases fuel <;> rfl, Replaces.refl hs⟩
  | cons c r ih =>
    obtain ⟨a, v⟩ := c
    obtain ⟨q, -, hq⟩ := seg_append.mp hs.chain
    obtain ⟨rfl, n', hb', hn⟩ := hq
    obtain ⟨-, rfl⟩ := HeapList.Cell.mk.inj (Option.some.inj (hb.symm.trans hb'))
    obtain ⟨rfl, m, ha, -⟩ := hn
    cases fuel with
    | zero => simp at hf
    | succ fuel =>
      by_cases hv : v.fHandle = handle
      · obtain ⟨h₁, hset, hfree, hchain, hsame⟩ := unlink_chain hs.chain ha
        refine ⟨⟨Function.update h₁ a none, ⟨s.list.node, s.list.num - 1⟩, s.fclosed⟩, ?_, ?_⟩
        · simp [removeLoop, ha, hv, hset, hfree]
        · have hnum := num_pred (by simpa using hs.count.trans (by simp; omega) :
            s.list.num.toNat = (l.length + r.length + 1) + 1)
          rw [List.eraseP_cons_of_pos (by simpa using hv)]
          refine ⟨⟨hchain, ?_⟩, ?_, ?_, rfl⟩
          · rw [hnum]
            simp
            omega
          · intro x hx hx'
            have hxa : x = a := by
              simp only [addrs_append, addrs_cons, List.mem_append, List.mem_cons] at hx hx'
              tauto
            rw [hxa]
            exact Function.update_self _ _ _
          · intro x hx hx'
            simp only [addrs_append, addrs_cons, List.mem_append, List.mem_cons, not_or] at hx
            exact (Function.update_of_ne hx.2.2.1 _ _).trans (hsame x hx.2.2.1 hx.2.1)
      · have hs' : Holds s ((l ++ [(b, w)]) ++ (a, v) :: r) := by simpa using hs
        obtain ⟨s', hrun, hrep⟩ := ih hs' ha (by simpa using hf)
        refine ⟨s', ?_, ?_⟩
        · simp [removeLoop, ha, hv, hrun]
        · rw [List.eraseP_cons_of_neg (by simpa using hv)]
          simpa using hrep

/-- Without a node under the handle nothing is written at all. -/
theorem removeLoop_absent {s : FileMem A} {handle : UInt32} {p : Option A} {l : Nodes A}
    (hl : Chain s.heap p l) (absent : ∀ c ∈ l, c.2.fHandle ≠ handle) (head : A) {fuel : Nat}
    (hf : l.length ≤ fuel) : removeLoop handle fuel s head p = some s := by
  induction l generalizing p head fuel with
  | nil =>
    obtain rfl : p = none := hl
    cases fuel <;> rfl
  | cons c l ih =>
    obtain ⟨a, v⟩ := c
    obtain ⟨rfl, n, ha, hl⟩ := hl
    cases fuel with
    | zero => simp at hf
    | succ fuel =>
      have hv : v.fHandle ≠ handle := absent (a, v) List.mem_cons_self
      have hrest := ih hl (fun c hc => absent c (List.mem_cons_of_mem _ hc)) a
        (by simpa using hf)
      simp [removeLoop, ha, hv, hrest]

theorem removeOpenflist_absent {s : FileMem A} {handle : UInt32} {l : Nodes A}
    (hs : Holds s l) (absent : ∀ c ∈ l, c.2.fHandle ≠ handle) {fuel : Nat}
    (hf : l.length ≤ fuel) : removeOpenflist fuel s handle = some s := by
  have hnode := hs.node
  cases l with
  | nil => simp [removeOpenflist, hnode]
  | cons c l =>
    obtain ⟨a, v⟩ := c
    obtain ⟨hp, n, ha, hl⟩ := hs.chain
    have hv : v.fHandle ≠ handle := absent (a, v) List.mem_cons_self
    have hrest := removeLoop_absent hl (fun c hc => absent c (List.mem_cons_of_mem _ hc)) a
      (Nat.le_of_succ_le hf)
    simp [removeOpenflist, hp, ha, hv, hrest]

theorem removeOpenflist_replaces {s : FileMem A} {l : Nodes A} (hs : Holds s l)
    (handle : UInt32) {fuel : Nat} (hf : l.length ≤ fuel) :
    ∃ s', removeOpenflist fuel s handle = some s' ∧
      Replaces s s' l (l.eraseP fun c => c.2.fHandle = handle) := by
  have hnode := hs.node
  cases l with
  | nil => exact ⟨s, by simp [removeOpenflist, hnode], Replaces.refl hs⟩
  | cons c l =>
    obtain ⟨a, v⟩ := c
    obtain ⟨hp, n, ha, hl⟩ := id hs.chain
    by_cases hv : v.fHandle = handle
    · have hnd : a ∉ addrs l := (List.nodup_cons.mp (Chain.nodup hs.chain)).1
      refine ⟨⟨Function.update s.heap a none, ⟨n, s.list.num - 1⟩, s.fclosed⟩, ?_, ?_⟩
      · simp [removeOpenflist, hp, ha, hv, free]
      · rw [List.eraseP_cons_of_pos (by simpa using hv)]
        refine ⟨⟨Seg.update hl hnd _, num_pred hs.count⟩, ?_, ?_, rfl⟩
        · intro x hx hx'
          obtain rfl : x = a := by
            rcases List.mem_cons.mp hx with h | h
            · exact h
            · exact absurd h hx'
          exact Function.update_self _ _ _
        · intro x hx _
          have hxa : x ≠ a := by
            rintro rfl
            exact hx List.mem_cons_self
          exact Function.update_of_ne hxa _ _
    · obtain ⟨s', hrun, hrep⟩ := removeLoop_replaces handle (l := []) hs ha
        (Nat.le_of_succ_le hf)
      refine ⟨s', ?_, ?_⟩
      · simp [removeOpenflist, hp, ha, hv, hrun]
      · rw [List.eraseP_cons_of_neg (by simpa using hv)]
        exact hrep

end Removal

section Insertion

omit [DecidableEq A] in
/-- The gap search stops at a node whose successor handle is not the next one;
every handle on the way is used, so its distance from the start is known. -/
theorem gapLoop_chain {h : Heap A FsOpenFileInfo} (x : UInt32) {a : A} {v : FsOpenFileInfo}
    {l : Nodes A} (hl : Chain h (some a) ((a, v) :: l)) {k : Nat}
    (start : FiniteCycle.dist x v.fHandle = k)
    (room : k + l.length + 1 < FiniteCycle.size UInt32) {fuel : Nat} (hf : l.length < fuel) :
    ∃ pre b w post, (a, v) :: l = pre ++ (b, w) :: post ∧ gapLoop h fuel a = some b ∧
      FiniteCycle.dist x w.fHandle = k + pre.length ∧
      ∀ c ∈ (handles post).head?, c ≠ w.fHandle + 1 := by
  induction l generalizing a v k fuel with
  | nil =>
    obtain ⟨-, n, ha, hn⟩ := hl
    obtain rfl : n = none := hn
    cases fuel with
    | zero => simp at hf
    | succ fuel => exact ⟨[], a, v, [], rfl, by simp [gapLoop, ha], by simpa using start, by simp⟩
  | cons c l ih =>
    obtain ⟨b, w⟩ := c
    obtain ⟨-, n, ha, hn⟩ := hl
    obtain rfl : n = some b := hn.1
    have hb := hn
    obtain ⟨-, m, hbc, -⟩ := hb
    cases fuel with
    | zero => simp at hf
    | succ fuel =>
      by_cases hw : v.fHandle + 1 = w.fHandle
      · have hstep : FiniteCycle.dist x w.fHandle = k + 1 := by
          rw [← hw, ← start]
          refine FiniteCycle.dist_succ ?_
          simp only [List.length_cons] at room
          omega
        obtain ⟨pre, d, u, post, hsplit, hrun, hdist, hgap⟩ := ih hn hstep
          (by simp only [List.length_cons] at room; omega) (by simpa using hf)
        refine ⟨(a, v) :: pre, d, u, post, by simp [hsplit], ?_, ?_, hgap⟩
        · simp [gapLoop, ha, hbc, hw, hrun]
        · simp only [List.length_cons]
          omega
      · refine ⟨[], a, v, (b, w) :: l, rfl, by simp [gapLoop, ha, hbc, hw],
          by simpa using start, ?_⟩
        simpa using Ne.symm hw

/-- The three writes that link the node `a` behind `b` and give it its handle. -/
theorem link_chain {h : Heap A FsOpenFileInfo} {p : Option A} {l r : Nodes A} {a b : A}
    {v w : FsOpenFileInfo} (handle : UInt32) (hc : Chain h p (l ++ (b, w) :: r))
    (hnew : h a = some ⟨v, none⟩) (ha : a ∉ addrs (l ++ (b, w) :: r)) :
    ∃ n h₁ h₂ h₃, h b = some ⟨w, n⟩ ∧ setNext h a n = some h₁ ∧
      setNext h₁ b (some a) = some h₂ ∧ setHandle h₂ a handle = some h₃ ∧
      Chain h₃ p (l ++ (b, w) :: (a, { v with fHandle := handle }) :: r) ∧
      ∀ x, x ≠ a → x ≠ b → h₃ x = h x := by
  have hnd : (addrs (l ++ (b, w) :: r)).Nodup := Chain.nodup hc
  simp only [addrs_append, addrs_cons, List.nodup_append, List.nodup_cons, List.mem_cons,
    List.mem_append, not_or] at hnd ha
  obtain ⟨q, hpre, hrest⟩ := seg_append.mp hc
  obtain ⟨rfl, n, hb, hr⟩ := hrest
  have hab : b ≠ a := Ne.symm ha.2.1
  let h₁ := Function.update h a (some ⟨v, n⟩)
  let h₂ := Function.update h₁ b (some ⟨w, some a⟩)
  let h₃ := Function.update h₂ a (some ⟨{ v with fHandle := handle }, n⟩)
  have h₁a : h₁ a = some ⟨v, n⟩ := Function.update_self _ _ _
  have h₁b : h₁ b = some ⟨w, n⟩ := (Function.update_of_ne hab _ _).trans hb
  have h₂a : h₂ a = some ⟨v, n⟩ := (Function.update_of_ne (Ne.symm hab) _ _).trans h₁a
  have h₂b : h₂ b = some ⟨w, some a⟩ := Function.update_self _ _ _
  have h₃a : h₃ a = some ⟨{ v with fHandle := handle }, n⟩ := Function.update_self _ _ _
  have h₃b : h₃ b = some ⟨w, some a⟩ := (Function.update_of_ne hab _ _).trans h₂b
  have same : ∀ x, x ≠ a → x ≠ b → h₃ x = h x := by
    intro x hxa hxb
    calc h₃ x = h₂ x := Function.update_of_ne hxa _ _
      _ = h₁ x := Function.update_of_ne hxb _ _
      _ = h x := Function.update_of_ne hxa _ _
  refine ⟨n, h₁, h₂, h₃, hb, by simp [setNext, hnew, h₁], by simp [setNext, h₁b, h₂],
    by simp [setHandle, h₂a, h₃], ?_, same⟩
  refine seg_append.mpr ⟨some b, ?_, rfl, some a, h₃b, rfl, n, h₃a, ?_⟩
  · exact hpre.frame fun x hx => same x (fun he => ha.1 (he ▸ hx))
      (fun he => hnd.2.2 b (he ▸ hx) b (Or.inl rfl) rfl)
  · exact Seg.frame hr fun x hx => same x (fun he => ha.2.2 (he ▸ hx))
      (fun he => hnd.2.1.1 (he ▸ hx))

theorem num_succ {n : UInt32} {k : Nat} (h : n.toNat = k) (hk : k + 1 < 2 ^ 32) :
    (n + 1).toNat = k + 1 := by
  rw [UInt32.toNat_add, h]
  exact Nat.mod_eq_of_lt hk

/-- Insertion puts the new node behind the first gap and keeps cyclic order; the
handle it returns is the one written into the node. -/
theorem insertOpenflist_replaces {s : FileMem A} {l : Nodes A} (hs : Holds s l)
    (order : CyclicSorted (handles l)) (room : l.length + 1 < 2 ^ 32) {a : A}
    {v : FsOpenFileInfo} (hnew : s.heap a = some ⟨v, none⟩) (ha : a ∉ addrs l) {fuel : Nat}
    (hf : l.length ≤ fuel) :
    ∃ s' handle pre post, insertOpenflist fuel s a = some (s', handle) ∧ l = pre ++ post ∧
      Replaces s s' l (pre ++ (a, { v with fHandle := handle }) :: post) ∧
      CyclicSorted (handles (pre ++ (a, { v with fHandle := handle }) :: post)) := by
  have hnode := hs.node
  cases l with
  | nil =>
    let cell : Cell A FsOpenFileInfo := ⟨{ v with fHandle := fsOpenfileHandleStart }, none⟩
    refine ⟨⟨Function.update s.heap a (some cell), ⟨some a, s.list.num + 1⟩, s.fclosed⟩,
      fsOpenfileHandleStart, [], [], ?_, rfl, ?_, cyclicSorted_singleton _⟩
    · simp [insertOpenflist, hnode, setHandle, hnew, cell]
    · refine ⟨⟨⟨rfl, none, Function.update_self _ _ _, rfl⟩, num_succ hs.count room⟩, ?_, ?_, rfl⟩
      · intro x hx
        simp at hx
      · intro x _ hx
        exact Function.update_of_ne (by simpa using hx) _ _
  | cons c l =>
    obtain ⟨a₀, v₀⟩ := c
    have hnode : s.list.node = some a₀ := hnode
    have hchain : Chain s.heap (some a₀) ((a₀, v₀) :: l) := hnode ▸ hs.chain
    have room₀ : 0 + l.length + 1 < FiniteCycle.size UInt32 := by
      have : FiniteCycle.size UInt32 = 2 ^ 32 := rfl
      simp only [List.length_cons] at room
      omega
    obtain ⟨pre, b, w, post, hsplit, hgap, hdist, hstop⟩ := gapLoop_chain v₀.fHandle hchain
      (FiniteCycle.dist_self _) room₀ hf
    have hfirst : (handles (pre ++ (b, w) :: post)).head? = some v₀.fHandle := by
      rw [← hsplit]
      rfl
    have hdist' : FiniteCycle.dist v₀.fHandle w.fHandle + 1 < FiniteCycle.size UInt32 := by
      have := congrArg List.length hsplit
      simp only [List.length_cons, List.length_append] at this
      omega
    rw [hsplit] at hs order ha room ⊢
    obtain ⟨n, h₁, h₂, h₃, hb, hset₁, hset₂, hset₃, hchain₃, hsame⟩ :=
      link_chain (w.fHandle + 1) hs.chain hnew ha
    refine ⟨⟨h₃, ⟨some a₀, s.list.num + 1⟩, s.fclosed⟩, w.fHandle + 1, pre ++ [(b, w)], post,
      ?_, by simp, ?_, ?_⟩
    · simp [insertOpenflist, hnode, hgap, hb, hset₁, hset₂, hset₃]
    · refine ⟨⟨?_, ?_⟩, ?_, ?_, rfl⟩
      · simpa [hnode] using hchain₃
      · rw [num_succ hs.count room]
        simp
        omega
      · intro x hx hx'
        simp at hx hx'
        tauto
      · intro x hx hx'
        simp only [addrs_append, addrs_cons, List.mem_append, List.mem_cons, not_or] at hx hx'
        exact hsame x hx'.2.1 hx.2.1
    · rw [handles_append, handles_cons] at order hfirst
      have hgapped : CyclicSorted (handles pre ++ w.fHandle :: (w.fHandle + 1) :: handles post) :=
        CyclicSorted.insert_gap order hfirst hdist' hstop
      simpa using hgapped

end Insertion

end OpenFileOps
