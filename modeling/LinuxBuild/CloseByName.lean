import LinuxBuild.OpenFileOps
import Mathlib.Data.List.TakeWhile

/-!
# Closing files by name

`close_openflist_byFname` frees every node with the name, but it relinks only
`list->node`. The list it leaves is right exactly when the nodes with the name
are the first ones; otherwise the node in front of a match keeps its link to
freed memory.
-/
namespace CloseByName
open HeapList CString OpenFileList OpenFileOps

universe u

variable {A : Type u} [DecidableEq A]

def named (name : CStr) (c : A × FsOpenFileInfo) : Bool := c.2.fname = name

/-- What closing by name is meant to do: each matching stream is closed once, the
matching nodes are freed and out of reach, and the others are the list, in their
old order and under their handles. -/
structure ClosesExactly (name : CStr) (s s' : FileMem A) (l : Nodes A) : Prop where
  streams : s'.fclosed = s.fclosed ++ (l.filter (named name)).map fun c => c.2.fp
  holds : Holds s' (l.filter (! named name ·))
  freed : ∀ c ∈ l, c.2.fname = name → s'.heap c.1 = none
  unreachable : ∀ c ∈ l, c.2.fname = name → ¬ Reach s'.heap s'.list.node c.1
  found : ∀ c ∈ l, c.2.fname ≠ name → ∀ fuel, l.length ≤ fuel →
    findOpenflistByHandle fuel s' c.2.fHandle = some (some c.1)

/-- No node with the name stands behind a node without it. -/
def MatchesFirst (name : CStr) (l : Nodes A) : Prop :=
  l.Pairwise fun c d => d.2.fname = name → c.2.fname = name

/-- What the loop does to everything but `list->node`, `k` nodes being kept in
front of the ones it still has to visit. -/
structure Sweeps (name : CStr) (s s' : FileMem A) (l : Nodes A) (k : Nat) : Prop where
  heap : ∀ a, s'.heap a = if a ∈ addrs (l.filter (named name)) then none else s.heap a
  count : s'.list.num.toNat = k + (l.filter (! named name ·)).length
  streams : s'.fclosed = s.fclosed ++ (l.filter (named name)).map fun c => c.2.fp

theorem Sweeps.skip {name : CStr} {s s' : FileMem A} {l : Nodes A} {k : Nat}
    {c : A × FsOpenFileInfo} (hc : c.2.fname ≠ name) (hs : Sweeps name s s' l (k + 1)) :
    Sweeps name s s' (c :: l) k where
  heap := by simpa [named, hc] using hs.heap
  count := by
    have := hs.count
    simp [named, hc] at this ⊢
    omega
  streams := by simpa [named, hc] using hs.streams

theorem Sweeps.close {name : CStr} {s s₁ s' : FileMem A} {l : Nodes A} {k : Nat}
    {c : A × FsOpenFileInfo} (hc : c.2.fname = name)
    (heap : s₁.heap = Function.update s.heap c.1 none)
    (streams : s₁.fclosed = s.fclosed ++ [c.2.fp]) (hs : Sweeps name s₁ s' l k) :
    Sweeps name s s' (c :: l) k where
  heap := by
    intro a
    rw [hs.heap a, heap]
    by_cases ha : a = c.1
    · subst ha
      simp [named, hc]
    · simp [named, hc, ha]
  count := by simpa [named, hc] using hs.count
  streams := by simp [named, hc, hs.streams, streams]

/-- Behind a node that stays, the loop never writes `list->node`. -/
theorem closeLoop_behind {s : FileMem A} {p : Option A} {l : Nodes A}
    (hl : Chain s.heap p l) {b : A} (hnode : s.list.node = some b) (hb : b ∉ addrs l) {k : Nat}
    (hnum : s.list.num.toNat = k + l.length) {fuel : Nat} (hf : l.length ≤ fuel) (name : CStr) :
    ∃ s', closeLoop name fuel s p = some s' ∧ Sweeps name s s' l k ∧ s'.list.node = some b := by
  induction l generalizing s p k fuel with
  | nil =>
    obtain rfl : p = none := hl
    exact ⟨s, by cases fuel <;> rfl, ⟨by simp, by simpa using hnum, by simp⟩, hnode⟩
  | cons c l ih =>
    obtain ⟨a, v⟩ := c
    have hal : a ∉ addrs l := (List.nodup_cons.mp (Chain.nodup hl)).1
    obtain ⟨rfl, n, ha, hl⟩ := hl
    simp only [addrs_cons, List.mem_cons, not_or] at hb
    cases fuel with
    | zero => simp at hf
    | succ fuel =>
      have hf' : l.length ≤ fuel := by simpa using hf
      by_cases hv : v.fname = name
      · let s₁ : FileMem A := ⟨Function.update s.heap a none, ⟨some b, s.list.num - 1⟩,
          s.fclosed ++ [v.fp]⟩
        obtain ⟨s', hrun, hsw, hn⟩ := ih (s := s₁) (Seg.update hl hal _) rfl hb.2
          (num_pred (k := k + l.length) (by simpa [Nat.add_assoc] using hnum)) hf'
        refine ⟨s', ?_, Sweeps.close hv rfl rfl hsw, hn⟩
        have hba : b ≠ a := hb.1
        simpa [closeLoop, ha, hv, hnode, hba, free] using hrun
      · obtain ⟨s', hrun, hsw, hn⟩ := ih hl hnode hb.2 (k := k + 1)
          (by simp only [List.length_cons] at hnum; omega) hf'
        exact ⟨s', by simpa [closeLoop, ha, hv] using hrun, Sweeps.skip hv hsw, hn⟩

/-- From `list->node` on, the loop drops the matching nodes up to the first one
that stays. -/
theorem closeLoop_front {s : FileMem A} {l : Nodes A} (hs : Holds s l)
    {fuel : Nat} (hf : l.length ≤ fuel) (name : CStr) :
    ∃ s', closeLoop name fuel s s.list.node = some s' ∧ Sweeps name s s' l 0 ∧
      s'.list.node = (addrs (l.dropWhile (named name))).head? := by
  induction l generalizing s fuel with
  | nil =>
    obtain hp : s.list.node = none := hs.chain
    refine ⟨s, by rw [hp]; cases fuel <;> rfl, ⟨by simp, by simpa using hs.count, by simp⟩, hp⟩
  | cons c l ih =>
    obtain ⟨a, v⟩ := c
    have hal : a ∉ addrs l := (List.nodup_cons.mp (Chain.nodup hs.chain)).1
    obtain ⟨hp, n, ha, hl⟩ := hs.chain
    cases fuel with
    | zero => simp at hf
    | succ fuel =>
      have hf' : l.length ≤ fuel := by simpa using hf
      by_cases hv : v.fname = name
      · let s₁ : FileMem A := ⟨Function.update s.heap a none, ⟨n, s.list.num - 1⟩,
          s.fclosed ++ [v.fp]⟩
        obtain ⟨s', hrun, hsw, hn⟩ := ih (s := s₁) ⟨Seg.update hl hal _, num_pred hs.count⟩ hf'
        refine ⟨s', ?_, Sweeps.close hv rfl rfl hsw, ?_⟩
        · rw [hp]
          simpa [closeLoop, ha, hv, hp, free] using hrun
        · simpa [named, hv] using hn
      · have hnum : s.list.num.toNat = 1 + l.length := by
          rw [hs.count, List.length_cons]
          omega
        obtain ⟨s', hrun, hsw, hn⟩ := closeLoop_behind hl hp hal hnum hf' name
        refine ⟨s', ?_, Sweeps.skip hv hsw, ?_⟩
        · rw [hp]
          simpa [closeLoop, ha, hv] using hrun
        · simpa [named, hv] using hn

theorem closeOpenflistByFname_sweeps {s : FileMem A} {l : Nodes A} (hs : Holds s l)
    (name : CStr) {fuel : Nat} (hf : l.length ≤ fuel) :
    ∃ s', closeOpenflistByFname fuel s (some name) = some s' ∧ Sweeps name s s' l 0 ∧
      s'.list.node = (addrs (l.dropWhile (named name))).head? := by
  obtain ⟨s', hrun, hsw, hn⟩ := closeLoop_front hs hf name
  refine ⟨s', ?_, hsw, hn⟩
  cases hp : s.list.node with
  | none =>
    rw [hp] at hrun
    have : closeLoop name fuel s none = some s := by cases fuel <;> rfl
    simpa [closeOpenflistByFname, hp] using this.symm.trans hrun
  | some b =>
    rw [hp] at hrun
    simpa [closeOpenflistByFname, hp] using hrun

omit [DecidableEq A] in
/-- Two nodes of a chain at one address are the same node. -/
theorem node_unique {l : Nodes A} (hnd : (addrs l).Nodup) {c d : A × FsOpenFileInfo}
    (hc : c ∈ l) (hd : d ∈ l) (h : c.1 = d.1) : c = d :=
  List.inj_on_of_nodup_map hnd hc hd h

theorem Sweeps.kept {name : CStr} {s s' : FileMem A} {l : Nodes A} {k : Nat}
    (hsw : Sweeps name s s' l k) (hnd : (addrs l).Nodup) {c : A × FsOpenFileInfo} (hc : c ∈ l)
    (hn : c.2.fname ≠ name) : s'.heap c.1 = s.heap c.1 := by
  rw [hsw.heap, if_neg]
  intro hm
  obtain ⟨d, hd, hdc⟩ := List.mem_map.mp hm
  obtain ⟨hdl, hdn⟩ := List.mem_filter.mp hd
  obtain rfl := node_unique hnd hdl hc hdc
  exact hn (by simpa [named] using hdn)

theorem Sweeps.freed {name : CStr} {s s' : FileMem A} {l : Nodes A} {k : Nat}
    (hsw : Sweeps name s s' l k) {c : A × FsOpenFileInfo} (hc : c ∈ l)
    (hn : c.2.fname = name) : s'.heap c.1 = none := by
  rw [hsw.heap, if_pos]
  exact List.mem_map.mpr ⟨c, List.mem_filter.mpr ⟨hc, by simpa [named] using hn⟩, rfl⟩

omit [DecidableEq A] in
/-- In a list with a match behind a node that stays, the first such match is
reached from the first node that stays. -/
theorem first_late_match {name : CStr} {l : Nodes A} {d : A × FsOpenFileInfo} (hd : d ∈ l)
    (hname : d.2.fname = name) :
    ∃ pre d' post, l = pre ++ d' :: post ∧ d'.2.fname = name ∧ ∀ c ∈ pre, c.2.fname ≠ name := by
  cases hf : l.find? (named name) with
  | none => exact absurd (by simpa [named] using hname) (List.find?_eq_none.mp hf d hd)
  | some d' =>
    obtain ⟨hd', pre, post, hsplit, hpre⟩ := List.find?_eq_some_iff_append.mp hf
    refine ⟨pre, d', post, hsplit, by simpa [named] using hd', ?_⟩
    intro c hc
    simpa [named] using hpre c hc

/-- Where the matches do not come first, the first late one is freed and still
reached from `list->node`. -/
theorem late_match_reached {name : CStr} {s s' : FileMem A} {l : Nodes A} (hs : Holds s l)
    (hsw : Sweeps name s s' l 0)
    (hnode : s'.list.node = (addrs (l.dropWhile (named name))).head?)
    {d : A × FsOpenFileInfo} (hd : d ∈ l.dropWhile (named name)) (hname : d.2.fname = name) :
    ∃ d' ∈ l, d'.2.fname = name ∧ Reach s'.heap s'.list.node d'.1 := by
  obtain ⟨pre, d', post, hrest, hd', hpre⟩ := first_late_match hd hname
  have hsplit : l = l.takeWhile (named name) ++ (pre ++ d' :: post) := by
    rw [← hrest, List.takeWhile_append_dropWhile]
  have hnd : (addrs l).Nodup := Chain.nodup hs.chain
  have hchain := hs.chain
  rw [hsplit] at hchain
  obtain ⟨q, -, hq⟩ := seg_append.mp hchain
  obtain ⟨r, hpreq, hr⟩ := seg_append.mp hq
  obtain ⟨rfl, -⟩ := id hr
  have hstart : s'.list.node = q := by
    rw [hnode, hrest]
    cases pre with
    | nil => exact hpreq.symm
    | cons c pre => exact hpreq.1.symm
  refine ⟨d', by rw [hsplit]; simp, hd', ?_⟩
  rw [hstart]
  refine Seg.reach (Seg.frame hpreq ?_)
  intro a ha
  obtain ⟨c, hc, rfl⟩ := List.mem_map.mp ha
  exact hsw.kept hnd (by rw [hsplit]; simp [hc]) (hpre c hc)

theorem matchesFirst_of_unreachable {name : CStr} {s s' : FileMem A} {l : Nodes A}
    (hs : Holds s l) (hsw : Sweeps name s s' l 0)
    (hnode : s'.list.node = (addrs (l.dropWhile (named name))).head?)
    (unreachable : ∀ c ∈ l, c.2.fname = name → ¬ Reach s'.heap s'.list.node c.1) :
    MatchesFirst name l := by
  have hfront : ∀ c ∈ l.takeWhile (named name), c.2.fname = name := fun c hc => by
    simpa [named] using List.mem_takeWhile_imp hc
  have hback : ∀ d ∈ l.dropWhile (named name), d.2.fname ≠ name := by
    intro d hd hname
    obtain ⟨d', hd', hn, hreach⟩ := late_match_reached hs hsw hnode hd hname
    exact unreachable d' hd' hn hreach
  rw [MatchesFirst, ← List.takeWhile_append_dropWhile (p := named name) (l := l)]
  refine List.pairwise_append.mpr ⟨?_, ?_, ?_⟩
  · exact List.pairwise_of_forall_mem_list fun c hc _ _ _ => hfront c hc
  · exact List.pairwise_of_forall_mem_list fun _ _ d hd hname => absurd hname (hback d hd)
  · exact fun c hc _ _ _ => hfront c hc

omit [DecidableEq A] in
/-- If the matches come first, dropping them up to the first node that stays
drops them all. -/
theorem dropWhile_eq_kept {name : CStr} {l : Nodes A} (first : MatchesFirst name l) :
    l.dropWhile (named name) = l.filter (! named name ·) := by
  induction l with
  | nil => rfl
  | cons c l ih =>
    obtain ⟨hc, hl⟩ := List.pairwise_cons.mp first
    by_cases hn : c.2.fname = name
    · simpa [named, hn] using ih hl
    · have hall : l.filter (! named name ·) = l := by
        refine List.filter_eq_self.mpr fun d hd => ?_
        simpa [named] using fun h => hn (hc d hd h)
      have hcn : named name c = false := by simpa [named] using hn
      rw [List.dropWhile_cons_of_neg (by simp [hcn]), List.filter_cons_of_pos (by simp [hcn]), hall]

theorem closesExactly_of_matchesFirst {name : CStr} {s s' : FileMem A} {l : Nodes A}
    (hs : Holds s l) (hnd : (handles l).Nodup) (hsw : Sweeps name s s' l 0)
    (hnode : s'.list.node = (addrs (l.dropWhile (named name))).head?)
    (first : MatchesFirst name l) : ClosesExactly name s s' l := by
  have haddr : (addrs l).Nodup := Chain.nodup hs.chain
  have hchain : Chain s'.heap s'.list.node (l.filter (! named name ·)) := by
    have hsplit : Chain s.heap s.list.node
        (l.takeWhile (named name) ++ l.dropWhile (named name)) := by
      rw [List.takeWhile_append_dropWhile]
      exact hs.chain
    obtain ⟨q, -, hq⟩ := seg_append.mp hsplit
    have hstart : s'.list.node = q := by
      rw [hnode]
      cases hd : l.dropWhile (named name) with
      | nil => exact (hd ▸ hq).symm
      | cons c post => exact (hd ▸ hq).1.symm
    rw [hstart, ← dropWhile_eq_kept first]
    refine Seg.frame hq ?_
    intro a ha
    obtain ⟨c, hc, rfl⟩ := List.mem_map.mp ha
    rw [dropWhile_eq_kept first] at hc
    obtain ⟨hcl, hcn⟩ := List.mem_filter.mp hc
    exact hsw.kept haddr hcl (by simpa [named] using hcn)
  have hkept : Holds s' (l.filter (! named name ·)) := ⟨hchain, by simpa using hsw.count⟩
  refine ⟨hsw.streams, hkept, fun c hc hn => hsw.freed hc hn, ?_, ?_⟩
  · intro c hc hn hreach
    obtain ⟨d, hd, hdc⟩ := List.mem_map.mp ((Chain.reach_iff hchain c.1).mp hreach)
    obtain ⟨hdl, hdn⟩ := List.mem_filter.mp hd
    obtain rfl := node_unique haddr hdl hc hdc
    simp [named, hn] at hdn
  · intro c hc hn fuel hf
    have hlen := (List.filter_sublist (p := (! named name ·)) (l := l)).length_le
    have hck : c ∈ l.filter (! named name ·) := List.mem_filter.mpr ⟨hc, by simpa [named] using hn⟩
    have hndk := hnd.sublist (handles_sublist (List.filter_sublist (p := (! named name ·))))
    rw [findOpenflistByHandle_holds hkept _ (hlen.trans hf), find?_handle hndk hck]
    rfl

/-- Closing by name does what it is meant to do exactly when no node with the
name stands behind a node without it. -/
theorem closeOpenflistByFname_exact_iff {s : FileMem A} {l : Nodes A} (hs : Holds s l)
    (hnd : (handles l).Nodup) (name : CStr) {fuel : Nat} (hf : l.length ≤ fuel) :
    (∃ s', closeOpenflistByFname fuel s (some name) = some s' ∧ ClosesExactly name s s' l) ↔
      MatchesFirst name l := by
  obtain ⟨s', hrun, hsw, hnode⟩ := closeOpenflistByFname_sweeps hs name hf
  constructor
  · rintro ⟨s'', hrun', hexact⟩
    obtain rfl := Option.some.inj (hrun.symm.trans hrun')
    exact matchesFirst_of_unreachable hs hsw hnode hexact.unreachable
  · intro first
    exact ⟨s', hrun, closesExactly_of_matchesFirst hs hnd hsw hnode first⟩

/-- File `b` was opened after file `a`. -/
def twoFiles : FileMem Nat where
  heap a :=
    if a = 0 then some ⟨⟨1, 10, 0, 0, cstr "a"⟩, some 1⟩
    else if a = 1 then some ⟨⟨2, 11, 0, 0, cstr "b"⟩, none⟩ else none
  list := ⟨some 0, 2⟩
  fclosed := []

def twoFileNodes : Nodes Nat := [(0, ⟨1, 10, 0, 0, cstr "a"⟩), (1, ⟨2, 11, 0, 0, cstr "b"⟩)]

theorem twoFiles_holds : Holds twoFiles twoFileNodes :=
  ⟨⟨rfl, _, rfl, rfl, _, rfl, rfl⟩, rfl⟩

theorem closeOpenflistByFname_exact_iff_front :
    (∃ s', closeOpenflistByFname 2 twoFiles (some (cstr "a")) = some s' ∧
      ClosesExactly (cstr "a") twoFiles s' twoFileNodes) ↔
      MatchesFirst (cstr "a") twoFileNodes :=
  closeOpenflistByFname_exact_iff twoFiles_holds (by decide) _ (by decide)

/-- Closing `b` frees its node and leaves `a` linked to it. -/
theorem closeOpenflistByFname_dangles :
    Holds twoFiles twoFileNodes ∧ (handles twoFileNodes).Nodup ∧
      ¬ ∃ s', closeOpenflistByFname 2 twoFiles (some (cstr "b")) = some s' ∧
        ClosesExactly (cstr "b") twoFiles s' twoFileNodes := by
  refine ⟨twoFiles_holds, by decide, ?_⟩
  rintro ⟨s', hrun, hexact⟩
  obtain rfl := Option.some.inj hrun
  refine hexact.unreachable _ (List.mem_cons_of_mem _ List.mem_cons_self) rfl ?_
  exact .step (c := ⟨⟨1, 10, 0, 0, cstr "a"⟩, some 1⟩) rfl (.here 1)

end CloseByName
