import LinuxBuild.CloseByName
import LinuxBuild.FileCommands
import LinuxBuild.HandleReuse

/-!
# What the file commands keep open

Every node of the list has a stream of its own that is open in the mode of the node, and no
other stream is open but the one of an upload in data mode.
-/
namespace FileResources
open CString ByteStream BufferedFiles FileMd5 FileSeek FileAtConfig FileFragments DataMode
open HeapList CyclicOrder OpenFileList OpenFileOps OpenFileMap CloseByName HandleReuse FileCommands
open PartialRun

variable {A Name : Type}

/-- The list, the map that it stands for, and the open streams agree. -/
structure Sound (mem : FileMem A) (files : Files Name UInt8) (session : Option (Session A))
    (l : Nodes A) (m : HandleMap A) : Prop where
  valid : Valid mem l m
  opened : ∀ {h c}, m h = some c →
    ∃ mode, files.modeOf c.2.fp = some mode ∧ getFsMode c.2.fMode = some mode
  distinct : ∀ {h k c d}, m h = some c → m k = some d → c.2.fp = d.2.fp → h = k
  only : ∀ {sid}, files.modeOf sid ≠ none →
    (∃ h c, m h = some c ∧ c.2.fp = sid) ∨ session = some (.mfput sid)
  below : ∀ {sid}, files.modeOf sid ≠ none → sid < files.streams
  upload : ∀ {sid}, session = some (.mfput sid) →
    files.modeOf sid = some .wPlus ∧ ∀ {h c}, m h = some c → c.2.fp ≠ sid
  unread : ∀ {sid st}, session = some (.mfput sid) → files.stream sid = some st → st.turn ≠ .read
  writing : ∀ {a}, session = some (.mfwrite a) → ∃ h v, m h = some (a, v) ∧ v.fMode ≠ 0

theorem Sound.start : Sound (emptyMem A) (.empty Name UInt8) none [] fun _ => none where
  valid := emptyMem_valid
  opened := by
    rintro _ _ ⟨⟩
  distinct := by
    rintro _ _ _ _ ⟨⟩
  only := fun h => absurd rfl h
  below := fun h => absurd rfl h
  upload := by
    rintro _ ⟨⟩
  unread := by
    rintro _ _ ⟨⟩
  writing := by
    rintro _ ⟨⟩

variable {mem mem' : FileMem A} {files files' : Files Name UInt8} {session : Option (Session A)}
variable {l : Nodes A} {m : HandleMap A} {sid : OpenFileList.Stream}

/-- Nothing is opened or closed. -/
theorem Sound.congr (h : Sound mem files session l m) (hmodes : files'.modeOf = files.modeOf)
    (hstreams : files.streams ≤ files'.streams)
    (hunread : ∀ {sid st}, session = some (.mfput sid) → files'.stream sid = some st →
      st.turn ≠ .read) : Sound mem files' session l m where
  valid := h.valid
  opened := by
    rw [hmodes]
    exact h.opened
  distinct := h.distinct
  only := by
    rw [hmodes]
    exact h.only
  below := by
    rw [hmodes]
    intro sid hsid
    exact (h.below hsid).trans_le hstreams
  upload := by
    rw [hmodes]
    exact h.upload
  unread := hunread
  writing := h.writing

theorem Sound.keeps (h : Sound mem files none l m) (hk : files.Keeps files') :
    Sound mem files' none l m := h.congr hk.modes hk.streams.ge (by rintro _ _ ⟨⟩)

/-- The number of the next stream is free. -/
theorem Sound.free (h : Sound mem files session l m) : files.modeOf files.streams = none := by
  by_contra hne
  exact absurd (h.below hne) (lt_irrefl _)

/-- A session that writes to a node ends. -/
theorem Sound.endWriting {a : A} (h : Sound mem files (some (.mfwrite a)) l m) :
    Sound mem files none l m where
  valid := h.valid
  opened := h.opened
  distinct := h.distinct
  only := by
    intro sid hsid
    rcases h.only hsid with hnode | hsession
    · exact Or.inl hnode
    · cases hsession
  below := h.below
  upload := by
    rintro _ ⟨⟩
  unread := by
    rintro _ _ ⟨⟩
  writing := by
    rintro _ ⟨⟩

theorem Sound.enterWriting (h : Sound mem files none l m) {a : A} {handle : UInt32}
    {v : FsOpenFileInfo} (hnode : m handle = some (a, v)) (hmode : v.fMode ≠ 0) :
    Sound mem files (some (.mfwrite a)) l m where
  valid := h.valid
  opened := h.opened
  distinct := h.distinct
  only := by
    intro sid hsid
    rcases h.only hsid with hnode | hsession
    · exact Or.inl hnode
    · cases hsession
  below := h.below
  upload := by
    rintro _ ⟨⟩
  unread := by
    rintro _ _ ⟨⟩
  writing := by
    rintro _ ⟨⟩
    exact ⟨handle, v, hnode, hmode⟩

/-- An upload starts with a new stream. -/
theorem Sound.enterUpload (h : Sound mem files none l m)
    (hmodes : files'.modeOf = Function.update files.modeOf files.streams (some .wPlus))
    (hstreams : files'.streams = files.streams + 1)
    (hfresh : ∀ {st}, files'.stream files.streams = some st → st.turn ≠ .read) :
    Sound mem files' (some (.mfput files.streams)) l m where
  valid := h.valid
  opened := by
    intro k c hc
    obtain ⟨mode, hmode, hget⟩ := h.opened hc
    refine ⟨mode, ?_, hget⟩
    have hlt := h.below (by rw [hmode]; exact Option.some_ne_none _)
    rw [hmodes, Function.update_of_ne hlt.ne, hmode]
  distinct := h.distinct
  only := by
    intro sid hsid
    by_cases heq : sid = files.streams
    · right
      rw [heq]
    · left
      rw [hmodes, Function.update_of_ne heq] at hsid
      rcases h.only hsid with hnode | hsession
      · exact hnode
      · cases hsession
  below := by
    intro sid hsid
    rw [hstreams]
    by_cases heq : sid = files.streams
    · rw [heq]
      exact Nat.lt_succ_self _
    · rw [hmodes, Function.update_of_ne heq] at hsid
      exact (h.below hsid).trans (Nat.lt_succ_self _)
  upload := by
    rintro sid ⟨⟩
    constructor
    · rw [hmodes, Function.update_self]
    · intro k c hc heq
      obtain ⟨mode, hmode, -⟩ := h.opened hc
      rw [heq, h.free] at hmode
      cases hmode
  unread := by
    rintro _ _ ⟨⟩ hst
    exact hfresh hst
  writing := by
    rintro _ ⟨⟩

/-- The stream of an upload is closed. -/
theorem Sound.endUpload (h : Sound mem files (some (.mfput sid)) l m)
    (hmodes : files'.modeOf = Function.update files.modeOf sid none)
    (hstreams : files'.streams = files.streams) : Sound mem files' none l m where
  valid := h.valid
  opened := by
    intro k c hc
    obtain ⟨mode, hmode, hget⟩ := h.opened hc
    refine ⟨mode, ?_, hget⟩
    rw [hmodes, Function.update_of_ne ((h.upload rfl).2 hc), hmode]
  distinct := h.distinct
  only := by
    intro other hother
    by_cases heq : other = sid
    · rw [hmodes, heq, Function.update_self] at hother
      exact absurd rfl hother
    · rw [hmodes, Function.update_of_ne heq] at hother
      rcases h.only hother with hnode | hsession
      · exact Or.inl hnode
      · cases hsession
        exact absurd rfl heq
  below := by
    intro other hother
    rw [hstreams]
    by_cases heq : other = sid
    · rw [hmodes, heq, Function.update_self] at hother
      exact absurd rfl hother
    · rw [hmodes, Function.update_of_ne heq] at hother
      exact h.below hother
  upload := by
    rintro _ ⟨⟩
  unread := by
    rintro _ _ ⟨⟩
  writing := by
    rintro _ ⟨⟩

/-- A file is opened under a new handle. -/
theorem Sound.open {mode : Mode} {fMode : UInt32} {fname : CStr} {a : A} {handle : UInt32}
    {l' : Nodes A} (h : Sound mem files none l m) (hmode : getFsMode fMode = some mode)
    (hmodes : files'.modeOf = Function.update files.modeOf files.streams (some mode))
    (hstreams : files'.streams = files.streams + 1) (hfree : m handle = none)
    (hvalid : Valid mem' l' (Function.update m handle
      (some (a, { openInfo files.streams fMode fname with fHandle := handle })))) :
    Sound mem' files' none l' (Function.update m handle
      (some (a, { openInfo files.streams fMode fname with fHandle := handle }))) where
  valid := hvalid
  opened := by
    intro k c hc
    by_cases heq : k = handle
    · rw [heq, Function.update_self] at hc
      cases hc
      refine ⟨mode, ?_, hmode⟩
      rw [hmodes]
      exact Function.update_self _ _ _
    · rw [Function.update_of_ne heq] at hc
      obtain ⟨mode', hmode', hget⟩ := h.opened hc
      have hlt := h.below (by rw [hmode']; exact Option.some_ne_none _)
      refine ⟨mode', ?_, hget⟩
      rw [hmodes, Function.update_of_ne hlt.ne, hmode']
  distinct := by
    have hold : ∀ {k c}, m k = some c → c.2.fp ≠ files.streams := by
      intro k c hc heq
      obtain ⟨mode', hmode', -⟩ := h.opened hc
      rw [heq, h.free] at hmode'
      cases hmode'
    intro j k c d hc hd hfp
    by_cases hj : j = handle
    · by_cases hk : k = handle
      · rw [hj, hk]
      · rw [hj, Function.update_self] at hc
        rw [Function.update_of_ne hk] at hd
        cases hc
        exact absurd hfp.symm (hold hd)
    · rw [Function.update_of_ne hj] at hc
      by_cases hk : k = handle
      · rw [hk, Function.update_self] at hd
        cases hd
        exact absurd hfp (hold hc)
      · rw [Function.update_of_ne hk] at hd
        exact h.distinct hc hd hfp
  only := by
    intro sid hsid
    left
    by_cases heq : sid = files.streams
    · refine ⟨handle, _, Function.update_self _ _ _, ?_⟩
      rw [heq]
      rfl
    · rw [hmodes, Function.update_of_ne heq] at hsid
      rcases h.only hsid with ⟨k, c, hc, hfp⟩ | hsession
      · refine ⟨k, c, ?_, hfp⟩
        rw [Function.update_of_ne, hc]
        rintro rfl
        rw [hfree] at hc
        cases hc
      · cases hsession
  below := by
    intro sid hsid
    rw [hstreams]
    by_cases heq : sid = files.streams
    · rw [heq]
      exact Nat.lt_succ_self _
    · rw [hmodes, Function.update_of_ne heq] at hsid
      exact (h.below hsid).trans (Nat.lt_succ_self _)
  upload := by
    rintro _ ⟨⟩
  unread := by
    rintro _ _ ⟨⟩
  writing := by
    rintro _ ⟨⟩

/-- The nodes that meet a condition are closed together with their streams. -/
theorem Sound.close (h : Sound mem files none l m) (gone : A × FsOpenFileInfo → Bool)
    {l' : Nodes A} (hvalid : Valid mem' l' fun k => (m k).filter (! gone ·))
    (hclosed : ∀ {k c}, m k = some c → gone c = true → files'.modeOf c.2.fp = none)
    (hopen : ∀ {sid}, (∀ {k c}, m k = some c → gone c = true → c.2.fp ≠ sid) →
      files'.modeOf sid = files.modeOf sid)
    (honly : ∀ {sid}, files'.modeOf sid ≠ none → files.modeOf sid ≠ none)
    (hstreams : files'.streams = files.streams) :
    Sound mem' files' none l' fun k => (m k).filter (! gone ·) where
  valid := hvalid
  opened := by
    intro k c hc
    obtain ⟨hc, hstays⟩ := Option.filter_eq_some_iff.mp hc
    obtain ⟨mode, hmode, hget⟩ := h.opened hc
    refine ⟨mode, ?_, hget⟩
    rw [hopen, hmode]
    intro j d hd hgone hfp
    have hjk := h.distinct hd hc hfp
    rw [hjk, hc] at hd
    cases hd
    rw [hgone] at hstays
    cases hstays
  distinct := by
    intro j k c d hc hd
    exact h.distinct (Option.filter_eq_some_iff.mp hc).1 (Option.filter_eq_some_iff.mp hd).1
  only := by
    intro sid hsid
    rcases h.only (honly hsid) with ⟨k, c, hc, hfp⟩ | hsession
    · left
      refine ⟨k, c, Option.filter_eq_some_iff.mpr ⟨hc, ?_⟩, hfp⟩
      cases hgone : gone c with
      | false => rfl
      | true =>
        rw [← hfp, hclosed hc hgone] at hsid
        exact absurd rfl hsid
    · cases hsession
  below := by
    intro sid hsid
    rw [hstreams]
    exact h.below (honly hsid)
  upload := by
    rintro _ ⟨⟩
  unread := by
    rintro _ _ ⟨⟩
  writing := by
    rintro _ ⟨⟩

/-- The node under one handle is closed together with its stream. -/
theorem Sound.closeHandle (h : Sound mem files none l m) {handle : UInt32}
    {c : A × FsOpenFileInfo} {l' : Nodes A} (hnode : m handle = some c)
    (hmodes : files'.modeOf = Function.update files.modeOf c.2.fp none)
    (hstreams : files'.streams = files.streams)
    (hvalid : Valid mem' l' (Function.update m handle none)) :
    Sound mem' files' none l' (Function.update m handle none) := by
  have hmap : Function.update m handle none =
      fun k => (m k).filter fun c => ! decide (c.2.fHandle = handle) := by
    funext k
    by_cases hk : k = handle
    · rw [hk, Function.update_self, hnode]
      have heq := ((h.valid.mapped _ _).mp hnode).2
      rw [Option.filter_some_neg (by rw [heq, decide_eq_true rfl]; rfl)]
    · rw [Function.update_of_ne hk]
      cases hm : m k with
      | none => rfl
      | some d =>
        have heq := ((h.valid.mapped _ _).mp hm).2
        rw [Option.filter_some_pos (by rw [heq, decide_eq_false hk]; rfl)]
  -- only one node has the handle, and no other node its stream
  have hgone : ∀ {k d}, m k = some d → decide (d.2.fHandle = handle) = true → d = c := by
    intro k d hd heq
    have hk := ((h.valid.mapped k d).mp hd).2
    rw [← hk, of_decide_eq_true heq, hnode] at hd
    exact (Option.some.inj hd).symm
  rw [hmap] at hvalid ⊢
  refine h.close (fun c => decide (c.2.fHandle = handle)) hvalid ?_ ?_ ?_ hstreams
  · intro k d hd heq
    rw [hgone hd heq, hmodes, Function.update_self]
  · intro sid hother
    rw [hmodes, Function.update_of_ne]
    rintro rfl
    exact hother hnode (decide_eq_true ((h.valid.mapped _ _).mp hnode).2) rfl
  · intro sid hsid hnone
    rw [hmodes] at hsid
    by_cases heq : sid = c.2.fp
    · rw [heq, Function.update_self] at hsid
      exact hsid rfl
    · rw [Function.update_of_ne heq, hnone] at hsid
      exact hsid rfl

variable {env : FileEnv A}

theorem fcloseAll_modeOf {fps : List OpenFileList.Stream} (hnd : fps.Nodup)
    (hopen : ∀ sid ∈ fps, files.modeOf sid ≠ none) :
    ∃ files', fcloseAll env files fps = some files' ∧
      (∀ sid, files'.modeOf sid = if sid ∈ fps then none else files.modeOf sid) ∧
      files'.streams = files.streams := by
  induction fps generalizing files with
  | nil => exact ⟨files, rfl, fun _ => rfl, rfl⟩
  | cons fp fps ih =>
    obtain ⟨hfp, hnd⟩ := List.nodup_cons.mp hnd
    obtain ⟨mode, hmode⟩ := Option.ne_none_iff_exists'.mp (hopen fp List.mem_cons_self)
    obtain ⟨files₁, hclose, hmodes₁, hstreams₁⟩ :=
      @Files.fclose_modeOf _ _ files fp _ env.fclose mode hmode
    obtain ⟨files₂, hall, hmodes₂, hstreams₂⟩ := @ih files₁ hnd (by
      intro sid hsid
      rw [hmodes₁, Function.update_of_ne (by rintro rfl; exact hfp hsid)]
      exact hopen sid (List.mem_cons_of_mem _ hsid))
    refine ⟨files₂, by simp only [fcloseAll, hclose, Option.bind_eq_bind, Option.bind_some, hall],
      ?_, hstreams₂.trans hstreams₁⟩
    intro sid
    rw [hmodes₂, hmodes₁]
    by_cases heq : sid = fp
    · rw [heq, if_neg hfp, if_pos List.mem_cons_self, Function.update_self]
    · rw [Function.update_of_ne heq]
      simp only [List.mem_cons, heq, false_or]

section Closing
variable [DecidableEq A] {fuel : Nat} {w : FileWorld A Name}

/-- Closing by name takes the nodes with the name out of the map, if they stand first. -/
theorem close_valid {name : CStr} (hv : Valid mem l m) (first : MatchesFirst name l)
    (hf : l.length ≤ fuel) :
    ∃ mem', closeOpenflistByFname fuel mem (some name) = some mem' ∧
      mem'.fclosed = mem.fclosed ++ (l.filter (named name)).map (fun c => c.2.fp) ∧
      Valid mem' (l.filter (! named name ·)) fun k => (m k).filter (! named name ·) := by
  obtain ⟨mem', hrun, hsw, hnode⟩ := closeOpenflistByFname_sweeps hv.holds name hf
  have hexact := closesExactly_of_matchesFirst hv.holds hv.distinct hsw hnode first
  have haddr : (addrs l).Nodup := Chain.nodup hv.holds.chain
  have hsub : (l.filter (! named name ·)).Sublist l := List.filter_sublist
  have hhandles := handles_sublist hsub
  refine ⟨mem', hrun, hexact.streams, ⟨⟨hexact.holds, hv.distinct.sublist hhandles, ?_⟩,
    hv.order.sublist hhandles, ?_⟩⟩
  · intro k c
    rw [Option.filter_eq_some_iff, hv.mapped, List.mem_filter]
    tauto
  · intro a
    rw [hsw.heap]
    constructor
    · intro ha
      split_ifs at ha with hgone
      · exact absurd rfl ha
      · obtain ⟨c, hc, rfl⟩ := List.mem_map.mp ((hv.owned a).mp ha)
        refine List.mem_map.mpr ⟨c, List.mem_filter.mpr ⟨hc, ?_⟩, rfl⟩
        cases hnamed : named name c with
        | false => rfl
        | true =>
          exact absurd (List.mem_map.mpr ⟨c, List.mem_filter.mpr ⟨hc, hnamed⟩, rfl⟩) hgone
    · intro ha
      obtain ⟨c, hc, rfl⟩ := List.mem_map.mp ha
      obtain ⟨hcl, hstays⟩ := List.mem_filter.mp hc
      rw [if_neg]
      · exact (hv.owned c.1).mpr (List.mem_map.mpr ⟨c, hcl, rfl⟩)
      · intro hgone
        obtain ⟨d, hd, hdc⟩ := List.mem_map.mp hgone
        obtain ⟨hdl, hdn⟩ := List.mem_filter.mp hd
        rw [node_unique haddr hdl hcl hdc] at hdn
        rw [hdn] at hstays
        cases hstays

/-- `close_openflist_byFname` closes the streams of the nodes that it frees. -/
theorem closeByFname_sound {name : CStr} (h : Sound w.mem w.files none l m)
    (hsession : w.session = none) (first : MatchesFirst name l) (hf : l.length ≤ fuel) :
    ∃ w', closeByFname env fuel w name = some w' ∧ w'.cfg = w.cfg ∧ w'.session = none ∧
      Sound w'.mem w'.files none (l.filter (! named name ·))
        fun k => (m k).filter (! named name ·) := by
  obtain ⟨mem', hrun, hclosed, hvalid⟩ := close_valid h.valid first hf
  have hnode : ∀ {c}, c ∈ l → m c.2.fHandle = some c := fun hc => (h.valid.mapped _ _).mpr ⟨hc, rfl⟩
  have hdrop : mem'.fclosed.drop w.mem.fclosed.length =
      (l.filter (named name)).map fun c => c.2.fp := by
    rw [hclosed, List.drop_left]
  have hmem : ∀ {sid}, sid ∈ (l.filter (named name)).map (fun c => c.2.fp) ↔
      ∃ k c, m k = some c ∧ named name c = true ∧ c.2.fp = sid := by
    intro sid
    simp only [List.mem_map, List.mem_filter]
    constructor
    · rintro ⟨c, ⟨hc, hn⟩, hfp⟩
      exact ⟨_, c, hnode hc, hn, hfp⟩
    · rintro ⟨k, c, hc, hn, hfp⟩
      exact ⟨c, ⟨((h.valid.mapped k c).mp hc).1, hn⟩, hfp⟩
  have hnd : ((l.filter (named name)).map fun c => c.2.fp).Nodup := by
    refine List.Nodup.map_on ?_ ((List.Nodup.of_map _ h.valid.distinct).filter _)
    intro c hc d hd hfp
    have hc' := hnode (List.mem_filter.mp hc).1
    have hd' := hnode (List.mem_filter.mp hd).1
    rw [h.distinct hc' hd' hfp, hd'] at hc'
    exact (Option.some.inj hc').symm
  obtain ⟨files', hall, hmodes, hstreams⟩ := @fcloseAll_modeOf _ _ w.files env _ hnd (by
    intro sid hsid
    obtain ⟨k, c, hc, -, rfl⟩ := hmem.mp hsid
    obtain ⟨mode, hmode, -⟩ := h.opened hc
    rw [hmode]
    exact Option.some_ne_none _)
  refine ⟨{ w with mem := mem', files := files' }, ?_, rfl, hsession, ?_⟩
  · simp only [closeByFname, hrun, hdrop, hall, Option.bind_eq_bind, Option.bind_some]
  refine h.close (named name) hvalid ?_ ?_ ?_ hstreams
  · intro k c hc hn
    rw [hmodes, if_pos (hmem.mpr ⟨k, c, hc, hn, rfl⟩)]
  · intro sid hother
    rw [hmodes, if_neg]
    intro hsid
    obtain ⟨k, c, hc, hn, hfp⟩ := hmem.mp hsid
    exact hother hc hn hfp
  · intro sid hsid hnone
    rw [hmodes, hnone, ite_self] at hsid
    exact hsid rfl

end Closing

end FileResources
