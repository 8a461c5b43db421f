import LinuxBuild.FileOwnership

/-!
# The requests keep what is open

No request works on a node or on a stream that is gone, and each of them leaves the list and
the streams in agreement. The list grows by one node at most.
-/
namespace FileResources
open CString ByteStream BufferedFiles FileMd5 FileSeek FileAtConfig FileFragments DataMode
open HeapList CyclicOrder OpenFileList OpenFileOps OpenFileMap CloseByName HandleReuse FileCommands

variable {A Name : Type}

section Fragments
variable {fragEnv : FragEnv} {cfg : FsCmccCfg} {file : File UInt8}

theorem mfgetFragments_isSome (hhex : Hexadecimal fragEnv.hex2str) (hfrag : FragSet cfg)
    {fsize : UInt32} (hpos : 0 < fsize.toNat) (hread : fsize.toNat < 2 ^ 31)
    (hbad : file.bad = none) (hrest : file.rest.length = fsize.toNat) :
    ∃ s, mfgetFragments fragEnv cfg fsize file = some s := by
  rw [mfgetFragments]
  cases hdata : fragEnv.malloc (bufferLen (hexOutput cfg) (fragSize cfg) fsize.toNat + 32) with
  | none => exact ⟨.only .valueInvalid, by simp only⟩
  | some data =>
    obtain ⟨hroom, -⟩ := @bufferLen_bounds (hexOutput cfg) _ _ (two_le_fragSize hfrag) hpos
    obtain ⟨payloads, hloop, -⟩ := @mfgetLoop_delivers fragEnv _ _ 0 file hhex hroom
      fsize.toNat (fsize.toNat + 1) true data [] hread (Nat.zero_le _) hbad hrest.ge
      (Nat.lt_succ_self _)
    exact ⟨_, by simp only [hloop, Option.bind_eq_bind, Option.bind_some]; rfl⟩

theorem mfreadFragments_isSome (hhex : Hexadecimal fragEnv.hex2str) (hfrag : FragSet cfg)
    {fhandle readLen : UInt32} (hhandle : fhandle ≤ 65535) (hread : readLen.toNat < 2 ^ 31)
    (hbad : file.bad = none) (hrest : readLen.toNat ≤ file.rest.length) :
    ∃ s, mfreadFragments fragEnv cfg fhandle readLen file = some s := by
  rw [mfreadFragments]
  by_cases hzero : readLen = 0
  · exact ⟨_, if_pos hzero⟩
  rw [if_neg hzero]
  have hpos : 0 < readLen.toNat := by
    refine Nat.pos_of_ne_zero fun h => hzero ?_
    exact UInt32.toNat_inj.mp h
  cases hdata : fragEnv.malloc (bufferLen (hexOutput cfg) (fragSize cfg) readLen.toNat + 56) with
  | none => exact ⟨_, by simp only [hdata]; rfl⟩
  | some data =>
    obtain ⟨hroom, -⟩ := @bufferLen_bounds (hexOutput cfg) _ _ (two_le_fragSize hfrag) hpos
    obtain ⟨payloads, hloop, -⟩ := @mfreadLoop_delivers fragEnv _ _ file hhex hroom
      fhandle.toNat readLen.toNat 0 (readLen.toNat + 1) true data []
      (UInt32.le_iff_toNat_le.mp hhandle) hread (Nat.zero_le _) hbad hrest (Nat.lt_succ_self _)
    exact ⟨_, by simp only [hdata, hloop, Option.bind_eq_bind, Option.bind_some]; rfl⟩

/-- What the request computes as the rest of the file -/
theorem toNat_left (hpos : file.pos ≤ file.size) (hsize : file.size < 2 ^ 31) :
    (UInt32.ofNat file.size - UInt32.ofNat (ftell file)).toNat = file.rest.length := by
  have hsize' : (UInt32.ofNat file.size).toNat = file.size :=
    UInt32.toNat_ofNat_of_lt' (hsize.trans (by decide))
  have hpos' : (UInt32.ofNat (ftell file)).toNat = file.pos :=
    UInt32.toNat_ofNat_of_lt' (hpos.trans_lt (hsize.trans (by decide)))
  rw [UInt32.toNat_sub_of_le, hsize', hpos', File.rest, List.length_drop]
  · rfl
  · rw [UInt32.le_iff_toNat_le, hsize', hpos']
    exact hpos

end Fragments

/-- The parser of numbers minds the range, and the digits of a byte are two. -/
structure LibLaws (lib : FileLib Name) : Prop where
  range : ∀ {text lo hi v}, lib.toUint32WithRange text lo hi = some v → lo ≤ v ∧ v ≤ hi
  hex2str : Hexadecimal lib.hex2str

section Conditions
variable (lib : FileLib Name) (env : FileEnv A) (w : FileWorld A Name) (cmd : AtCmd)

/-- The node that the first parameter names -/
def Addressed (c : FsOpenFileInfo) : Prop :=
  lib.toUint32WithRange (cmd.paraList.getD 0 []) 0 65535 = some c.fHandle ∧
    ∃ a n, w.mem.heap a = some ⟨c, n⟩

/-- The paths that `AT+MFDELETE` comes by -/
def deletedPaths (exe : Bool) : List CStr :=
  match cmd.cmdType with
  | .set =>
    match lib.toString (cmd.paraList.getD 0 []) fsFilenameMaxLen with
    | none => []
    | some fName =>
      match env.getRealPath fName false with
      | none => []
      | some realPath =>
        if fName.getLast? = some 47 then (env.nftw realPath).getD [] else [realPath]
  | _ => if exe then (env.nftw lib.fileSysPath).getD [] else []

/-- For each path the nodes with its name are the first ones of the list. -/
def ClosesInFront : List CStr → Nodes A → Prop
  | [], _ => True
  | path :: paths, l => MatchesFirst path l ∧ ClosesInFront paths (l.filter (! named path ·))

/-- What a request needs of the surroundings and of the state. -/
def Request.Allowed : Request → Prop
  | .mfget => ∀ realPath content, pathOf lib env (cmd.paraList.getD 0 []) false = some realPath →
      w.files.load (lib.locate realPath) = some content → content.length < 2 ^ 31
  | .mfopen => ∃ a, env.mallocNode = some a ∧ w.mem.heap a = none ∧ live w.mem + 1 < 2 ^ 32
  | .mfread => ∀ c file, Addressed lib w cmd c → w.files.view c.fp = some file →
      file.pos ≤ file.size ∧ file.size < 2 ^ 31
  | .mfwrite => ∀ c st, Addressed lib w cmd c → w.files.stream c.fp = some st → st.turn ≠ .read
  | .mfclose => env.fclose = true
  | .mfdelete exe =>
      (∀ fName, cmd.cmdType = .set →
        lib.toString (cmd.paraList.getD 0 []) fsFilenameMaxLen = some fName → fName ≠ []) ∧
        ∀ l, Holds w.mem l → ClosesInFront (deletedPaths lib env cmd exe) l
  | .mfcheck => env.md5.malloc = true
  | _ => True

/-- The length that is written of a chunk lies in it, and the stream was not read last. -/
structure ChunkAllowed (data : CStr) : Prop where
  session : w.session ≠ none
  length : data.length < 2 ^ 32
  inside : (if 0 < w.counters.dataLength then chunkLen w.counters (UInt32.ofNat data.length)
    else (lib.findQuitSymbol data).2).toNat ≤ data.length
  turn : ∀ a c st, w.session = some (.mfwrite a) → w.mem.heap a = some c →
    w.files.stream c.val.fp = some st → st.turn ≠ .read

end Conditions

/-- The inputs of the runs below: requests between the sessions, and chunks in them -/
def Allowed (lib : FileLib Name) (w : FileWorld A Name) : FileCommands.Input A → Prop
  | .request request cmd env => w.session = none ∧ Request.Allowed lib env w cmd request
  | .data data _ => ChunkAllowed lib w data

/-- The list, the streams and the session agree, and the list has at most `n` nodes. -/
def Stands (w : FileWorld A Name) (n : Nat) : Prop :=
  ∃ l m, Sound w.mem w.files w.session l m ∧ l.length ≤ n ∧ w.cfg.fragsize = 0

variable {files : Files Name UInt8} {l : Nodes A} {m : HandleMap A}
variable {lib : FileLib Name} {env : FileEnv A} {fuel : Nat}
variable {w : FileWorld A Name} {cmd : AtCmd}

theorem Sound.stands (h : Sound w.mem w.files w.session l m) (hcfg : w.cfg.fragsize = 0) :
    Stands w (l.length + 1) := ⟨l, m, h, Nat.le_succ _, hcfg⟩

/-- Other files, with the same streams -/
theorem stands_files (hsession : w.session = none) (hcfg : w.cfg.fragsize = 0)
    {files' : Files Name UInt8} (hfiles : Sound w.mem files' none l m) :
    Stands { w with files := files' } (l.length + 1) := by
  rw [← hsession] at hfiles
  exact Sound.stands hfiles hcfg

/-- The search answers with the node of the map. -/
theorem findNode_valid (hv : Valid w.mem l m) (hf : l.length ≤ fuel) (handle : UInt32) :
    findNode fuel w handle = some (m handle) := by
  have hfind : findOpenflistByHandle fuel w.mem handle = some ((m handle).map Prod.fst) := by
    rw [findOpenflistByHandle_holds hv.holds handle hf, find?_eq_map hv.toRepresents]
  cases hm : m handle with
  | none => simp only [findNode, hfind, hm, Option.map_none, Option.bind_eq_bind, Option.bind_some]
  | some c =>
    obtain ⟨a, v⟩ := c
    obtain ⟨cell, hcell, rfl⟩ := (heap_iff_mem hv).mpr ((hv.mapped handle _).mp hm).1
    simp only [findNode, hfind, hm, Option.map_some, Option.bind_eq_bind, Option.bind_some, hcell]

/-- The node under the handle of the first parameter -/
theorem addressed (hv : Valid w.mem l m) {handle : UInt32} {a : A} {v : FsOpenFileInfo}
    (hhandle : lib.toUint32WithRange (cmd.paraList.getD 0 []) 0 65535 = some handle)
    (hm : m handle = some (a, v)) : Addressed lib w cmd v := by
  obtain ⟨hmem, heq⟩ := (hv.mapped handle _).mp hm
  obtain ⟨⟨val, n⟩, hcell, hval⟩ := (heap_iff_mem hv).mpr hmem
  subst hval
  exact ⟨by rw [hhandle, ← heq], a, n, hcell⟩

theorem getFsMode_of_le {fMode : UInt32} (hle : fMode ≤ 4) :
    ∃ mode, getFsMode fMode = some mode := by
  have hnat : fMode.toNat ≤ 4 := UInt32.le_iff_toNat_le.mp hle
  have hcases : fMode = 0 ∨ fMode = 1 ∨ fMode = 2 ∨ fMode = 3 ∨ fMode = 4 := by
    simp only [← UInt32.toNat_inj]
    have h0 : (0 : UInt32).toNat = 0 := rfl
    have h1 : (1 : UInt32).toNat = 1 := rfl
    have h2 : (2 : UInt32).toNat = 2 := rfl
    have h3 : (3 : UInt32).toNat = 3 := rfl
    have h4 : (4 : UInt32).toNat = 4 := rfl
    omega
  rcases hcases with rfl | rfl | rfl | rfl | rfl
  · exact ⟨.r, rfl⟩
  · exact ⟨.w, rfl⟩
  · exact ⟨.a, rfl⟩
  · exact ⟨.wPlus, rfl⟩
  · exact ⟨.aPlus, rfl⟩

theorem atMfcfgReq_fragsize (p : Parsers) (escape : Bool) (cfg : FsCmccCfg) (cmd : AtCmd) :
    (FileAtConfig.atMfcfgReq p escape cfg cmd).1.fragsize = cfg.fragsize := by
  rw [FileAtConfig.atMfcfgReq]
  split
  · split_ifs
    · rfl
    split
    · rfl
    split_ifs
    · rw [mfcfgTimeout]
      repeat' (first | rfl | split)
    · rw [mfcfgEncoding]
      repeat' (first | rfl | split)
    · rfl
  · rfl
  · rfl

/-- A node that is found has an open stream. -/
theorem stream_of_node (h : Sound w.mem w.files none l m) {handle : UInt32}
    {c : A × FsOpenFileInfo} (hc : m handle = some c) :
    ∃ st mode, w.files.stream c.2.fp = some st ∧ st.mode = mode ∧
      w.files.modeOf c.2.fp = some mode ∧ getFsMode c.2.fMode = some mode := by
  obtain ⟨mode, hmode, hget⟩ := h.opened hc
  obtain ⟨st, hst, hst'⟩ := Files.exists_stream hmode
  exact ⟨st, mode, hst, hst', hmode, hget⟩

theorem place_stands (h : Sound w.mem w.files none l m) {handle : UInt32}
    {c : A × FsOpenFileInfo} (hc : m handle = some c) (pos : Nat) (turn : Turn) :
    ∃ files', w.files.place c.2.fp pos turn = some files' ∧ Sound w.mem files' none l m := by
  obtain ⟨mode, hmode, -⟩ := h.opened hc
  obtain ⟨files', hplace, hkeeps⟩ := @Files.place_keeps _ _ w.files c.2.fp pos _ turn mode hmode
  exact ⟨files', hplace, h.keeps hkeeps⟩

theorem deleted_stands {r : Option (FileWorld A Name × Bool)} (hcfg : w.cfg.fragsize = 0)
    (h : ∃ s l' m', r = some s ∧ s.1.cfg = w.cfg ∧ s.1.session = none ∧
      Sound s.1.mem s.1.files none l' m' ∧ l'.length ≤ l.length) :
    ∃ s, r.map deleted = some s ∧ Stands s.1 (l.length + 1) := by
  obtain ⟨s, l', m', rfl, hsame, hsession, hsound, hless⟩ := h
  rw [← hsession] at hsound
  refine ⟨_, rfl, l', m', hsound, hless.trans (Nat.le_succ _), ?_⟩
  rw [← hcfg, ← hsame]
  rfl

section Requests
variable (h : Sound w.mem w.files none l m) (hsession : w.session = none)
variable (hcfg : w.cfg.fragsize = 0)
include h hsession hcfg

/-- An answer that changes nothing -/
theorem stands_same : Stands w (l.length + 1) := by
  rw [← hsession] at h
  exact h.stands hcfg

theorem atMfcfgReq_stands :
    ∃ r, FileCommands.atMfcfgReq lib w cmd = some r ∧ Stands r.1 (l.length + 1) := by
  refine ⟨_, rfl, l, m, ?_, Nat.le_succ _, ?_⟩
  · rw [← hsession] at h
    exact h
  · exact (atMfcfgReq_fragsize lib.toParsers lib.escape w.cfg cmd).trans hcfg

theorem atMfsizeReq_stands :
    ∃ r, atMfsizeReq lib env w cmd = some r ∧ Stands r.1 (l.length + 1) := by
  have hw := stands_same h hsession hcfg
  rw [atMfsizeReq]
  split
  · split_ifs with hparam
    · exact ⟨_, rfl, hw⟩
    · split
      · exact ⟨_, rfl, hw⟩
      · dsimp only
        split_ifs
        · exact ⟨_, rfl, hw⟩
        · exact ⟨_, rfl, hw⟩
  · exact ⟨_, rfl, hw⟩

theorem mfreadFrom_stands (hlaws : LibLaws lib) {handle fhandle readLen : UInt32}
    {c : A × FsOpenFileInfo} (hc : m handle = some c) (hhandle : fhandle ≤ 65535)
    {file : File UInt8} (hbad : file.bad = none) (hsize : file.size < 2 ^ 31)
    (hrest : readLen.toNat ≤ file.rest.length) :
    ∃ r, mfreadFrom lib env w c.2.fp fhandle readLen file = some r ∧
      Stands r.1 (l.length + 1) := by
  have hle : file.rest.length ≤ file.size := by
    rw [File.rest, List.length_drop, File.size]
    exact Nat.sub_le _ _
  obtain ⟨s, hs⟩ := @mfreadFragments_isSome ⟨env.malloc, lib.hex2str⟩ w.cfg file hlaws.hex2str
    (Or.inl hcfg) fhandle readLen hhandle (by omega) hbad hrest
  obtain ⟨files', hplace, hsound⟩ := place_stands h hc (s.fp.getD file).pos
    (if (s.fp.getD file).pos = file.pos then .fresh else .read)
  simp only [mfreadFrom, hs, hplace, Option.bind_eq_bind, Option.bind_some]
  exact ⟨_, rfl, stands_files hsession hcfg hsound⟩

theorem atMfreadReq_stands (hlaws : LibLaws lib) (hf : l.length ≤ fuel)
    (hallowed : Request.Allowed lib env w cmd .mfread) :
    ∃ r, FileCommands.atMfreadReq lib env fuel w cmd = some r ∧ Stands r.1 (l.length + 1) := by
  have hw := stands_same h hsession hcfg
  rw [FileCommands.atMfreadReq]
  split
  · dsimp only
    split
    · exact ⟨_, rfl, hw⟩
    split
    · exact ⟨_, rfl, hw⟩
    next fhandle hparse =>
    rw [findNode_valid h.valid hf, Option.bind_eq_bind, Option.bind_some]
    split
    · exact ⟨_, rfl, hw⟩
    next a fileInfo hnode =>
    split
    · exact ⟨_, rfl, hw⟩
    obtain ⟨st, -, hst, -⟩ := stream_of_node h hnode
    obtain ⟨file, hview⟩ := Files.exists_view hst
    obtain ⟨hpos, hsize⟩ := hallowed fileInfo file (addressed h.valid hparse hnode) hview
    have hbad : file.bad = none := by
      rw [Files.view, hst] at hview
      cases hview
      rfl
    have hgetsize := cmFileGetSizeByFilePoint_eq (hsize.trans (by decide : 2 ^ 31 < 2 ^ 32)) hpos
    have hleft := toNat_left hpos hsize
    have hhandle := (hlaws.range hparse).2
    simp only [hview, hgetsize, Option.bind_eq_bind, Option.bind_some]
    split
    · exact mfreadFrom_stands h hsession hcfg hlaws hnode hhandle hbad hsize hleft.le
    split
    · obtain ⟨files', hplace, hsound⟩ := place_stands h hnode file.pos .fresh
      simp only [hplace, Option.bind_some]
      exact ⟨_, rfl, stands_files hsession hcfg hsound⟩
    next readLen _ =>
    refine mfreadFrom_stands h hsession hcfg hlaws hnode hhandle hbad hsize ?_
    split_ifs with hless
    · exact hleft.le
    · have hle := UInt32.le_iff_toNat_le.mp (UInt32.not_lt.mp hless)
      omega
  · exact ⟨_, rfl, hw⟩

theorem atMfwriteReq_stands (hf : l.length ≤ fuel)
    (hallowed : Request.Allowed lib env w cmd .mfwrite) :
    ∃ r, atMfwriteReq lib env fuel w cmd = some r ∧ Stands r.1 (l.length + 1) := by
  have hw := stands_same h hsession hcfg
  rw [atMfwriteReq]
  split
  · split
    · exact ⟨_, rfl, hw⟩
    split
    · exact ⟨_, rfl, hw⟩
    next fhandle hparse =>
    rw [findNode_valid h.valid hf, Option.bind_eq_bind, Option.bind_some]
    split
    · exact ⟨_, rfl, hw⟩
    next a fileInfo hnode =>
    split
    · exact ⟨_, rfl, hw⟩
    next hmode =>
    split
    · exact ⟨_, rfl, hw⟩
    next fsize _ =>
    split
    · dsimp only
      split
      · exact ⟨_, rfl, l, m, h.enterWriting hnode hmode, Nat.le_succ _, hcfg⟩
      · obtain ⟨l', m', hsound, hlength, hfrag⟩ := hw
        exact ⟨_, rfl, l', m', hsound, hlength, hfrag⟩
    split
    · exact ⟨_, rfl, hw⟩
    next writeBuff _ =>
    obtain ⟨st, -, hst, -⟩ := stream_of_node h hnode
    have hturn := hallowed fileInfo st (addressed h.valid hparse hnode) hst
    obtain ⟨files', done, hwrite, hkeeps, -⟩ :=
      @Files.Ready.fwrite _ _ w.files fileInfo.fp writeBuff _ env.room env.spill ⟨st, hst, hturn⟩
    have hstands := stands_files hsession hcfg (h.keeps hkeeps)
    simp only [hwrite, Option.bind_eq_bind, Option.bind_some]
    split
    · exact ⟨_, rfl, hstands⟩
    · exact ⟨_, rfl, hstands⟩
  · exact ⟨_, rfl, hw⟩

theorem atMfsyncReq_stands (hf : l.length ≤ fuel) :
    ∃ r, atMfsyncReq lib env fuel w cmd = some r ∧ Stands r.1 (l.length + 1) := by
  have hw := stands_same h hsession hcfg
  rw [atMfsyncReq]
  split
  · split
    · exact ⟨_, rfl, hw⟩
    split
    · exact ⟨_, rfl, hw⟩
    rw [findNode_valid h.valid hf, Option.bind_eq_bind, Option.bind_some]
    split
    · exact ⟨_, rfl, hw⟩
    · exact ⟨_, rfl, hw⟩
  · exact ⟨_, rfl, hw⟩

theorem atMfseekReq_stands (hf : l.length ≤ fuel) :
    ∃ r, atMfseekReq lib fuel w cmd = some r ∧ Stands r.1 (l.length + 1) := by
  have hw := stands_same h hsession hcfg
  rw [atMfseekReq]
  split
  · split
    · exact ⟨_, rfl, hw⟩
    split
    · exact ⟨_, rfl, hw⟩
    rw [findNode_valid h.valid hf, Option.bind_eq_bind, Option.bind_some]
    split
    · exact ⟨_, rfl, hw⟩
    next a fileInfo hnode =>
    obtain ⟨st, -, hst, -⟩ := stream_of_node h hnode
    obtain ⟨file, hview⟩ := Files.exists_view hst
    simp only [hview, Option.bind_eq_bind, Option.bind_some]
    split
    · split
      · exact ⟨_, rfl, hw⟩
      · exact ⟨_, rfl, hw⟩
    split
    · exact ⟨_, rfl, hw⟩
    split
    · exact ⟨_, rfl, hw⟩
    next offset _ _ direction _ =>
    obtain ⟨files', hplace, hsound⟩ := place_stands h hnode
      (if (!(isFsOverFlow file offset direction).1 && decide (0 ≤
            (isFsOverFlow file offset direction).2.target offset.toInt
              (whence direction))) = true then
        ((isFsOverFlow file offset direction).2.target offset.toInt (whence direction)).toNat
      else (isFsOverFlow file offset direction).2.pos) .fresh
    simp only [hplace, Option.bind_some]
    exact ⟨_, rfl, stands_files hsession hcfg hsound⟩
  · exact ⟨_, rfl, hw⟩

theorem atMftruncReq_stands (hf : l.length ≤ fuel) :
    ∃ r, atMftruncReq lib env fuel w cmd = some r ∧ Stands r.1 (l.length + 1) := by
  have hw := stands_same h hsession hcfg
  rw [atMftruncReq]
  split
  · split
    · exact ⟨_, rfl, hw⟩
    split
    · exact ⟨_, rfl, hw⟩
    split
    · exact ⟨_, rfl, hw⟩
    next length _ =>
    rw [findNode_valid h.valid hf, Option.bind_eq_bind, Option.bind_some]
    split
    · exact ⟨_, rfl, hw⟩
    next a fileInfo hnode =>
    obtain ⟨files₁, hplace, hsound⟩ := place_stands h hnode 0 .fresh
    simp only [hplace, Option.bind_eq_bind, Option.bind_some]
    split
    · obtain ⟨mode, hmode, -⟩ := hsound.opened hnode
      obtain ⟨files₂, hcut, hkeeps⟩ :=
        @Files.ftruncate_keeps _ _ files₁ fileInfo.fp _ length.toNat mode hmode
      simp only [hcut, Option.bind_some]
      exact ⟨_, rfl, stands_files hsession hcfg (hsound.keeps hkeeps)⟩
    · exact ⟨_, rfl, stands_files hsession hcfg hsound⟩
  · exact ⟨_, rfl, hw⟩

end Requests

section Files
variable [DecidableEq Name]

theorem fopen_files {realPath : CStr} {mode : Mode} {fp : OpenFileList.Stream}
    (hopen : FileCommands.fopen lib env w realPath mode = some (files, fp)) :
    w.files.fopen (lib.locate realPath) mode = some (files, fp) := by
  rw [FileCommands.fopen] at hopen
  split_ifs at hopen
  exact hopen

/-- The stream that a request opens shows the file from its start. -/
theorem view_opened {realPath : CStr} {fp : OpenFileList.Stream} {files₁ : Files Name UInt8}
    (hopen : FileCommands.fopen lib env w realPath .r = some (files₁, fp)) :
    ∃ content, w.files.load (lib.locate realPath) = some content ∧
      files₁.view fp = some ⟨content, 0, none⟩ :=
  Files.view_fopen_r (fopen_files hopen)

variable (h : Sound w.mem w.files none l m) (hsession : w.session = none)
variable (hcfg : w.cfg.fragsize = 0)
include h hsession hcfg

/-- A file that a request opens and closes again -/
theorem opened_closed {realPath : CStr} {mode : Mode} {fp : OpenFileList.Stream}
    {files₁ files₂ : Files Name UInt8} (hopen : FileCommands.fopen lib env w realPath mode =
      some (files₁, fp)) (hkeeps : files₁.Keeps files₂) (succeeds : Bool) :
    ∃ files₃, files₂.fclose fp succeeds = some files₃ ∧
      Stands { w with files := files₃ } (l.length + 1) := by
  have hfopen := fopen_files hopen
  obtain ⟨hfp, hmodes, hstreams⟩ := Files.fopen_modeOf hfopen
  have hmode : files₂.modeOf fp = some mode := by
    rw [hkeeps.modes, hmodes, Function.update_self]
  obtain ⟨files₃, hclose, -⟩ := @Files.fclose_modeOf _ _ files₂ fp _ succeeds mode hmode
  obtain ⟨hsame, hnext⟩ := Files.fopen_fclose_modeOf hfopen hkeeps hclose h.free
  refine ⟨files₃, hclose, stands_files hsession hcfg (h.congr hsame ?_ (by rintro _ _ ⟨⟩))⟩
  rw [hnext]
  exact Nat.le_succ _

theorem atMfputReq_stands :
    ∃ r, atMfputReq lib env w cmd = some r ∧ Stands r.1 (l.length + 1) := by
  have hw := stands_same h hsession hcfg
  rw [atMfputReq]
  split
  · split
    · exact ⟨_, rfl, hw⟩
    split
    · exact ⟨_, rfl, hw⟩
    next realPath _ =>
    split
    · exact ⟨_, rfl, hw⟩
    next fsize _ =>
    split
    · exact ⟨_, rfl, hw⟩
    next files fp hopen =>
    obtain ⟨hfp, hmodes, hstreams⟩ := Files.fopen_modeOf (fopen_files hopen)
    have hfresh : ∀ {st}, files.stream fp = some st → st.turn ≠ .read := by
      intro st hst
      rw [Files.fopen_turn (fopen_files hopen) hst]
      decide
    split_ifs with htwo hdata
    · -- an upload in data mode
      subst hfp
      exact ⟨_, rfl, l, m, h.enterUpload hmodes hstreams hfresh, Nat.le_succ _, hcfg⟩
    · obtain ⟨files', hclose, hstands⟩ :=
        opened_closed h hsession hcfg hopen (.refl files) env.fclose
      obtain ⟨l', m', hsound, hlength, hfrag⟩ := hstands
      simp only [hclose, Option.bind_eq_bind, Option.bind_some]
      exact ⟨_, rfl, l', m', hsound, hlength, hfrag⟩
    · split
      · obtain ⟨files', hclose, hstands⟩ :=
          opened_closed h hsession hcfg hopen (.refl files) env.fclose
        simp only [hclose, Option.bind_eq_bind, Option.bind_some]
        exact ⟨_, rfl, hstands⟩
      next writeBuff _ =>
      obtain ⟨st, hst, -⟩ := @Files.exists_stream _ _ files fp .wPlus (by
        rw [hmodes, Function.update_self])
      obtain ⟨files₁, done, hwrite, hkeeps, -⟩ :=
        @Files.Ready.fwrite _ _ files fp writeBuff _ env.room env.spill ⟨st, hst, hfresh hst⟩
      obtain ⟨files₂, hclose, hstands⟩ := opened_closed h hsession hcfg hopen hkeeps env.fclose
      simp only [hwrite, hclose, Option.bind_eq_bind, Option.bind_some]
      split_ifs
      · exact ⟨_, rfl, hstands⟩
      · exact ⟨_, rfl, hstands⟩
  · exact ⟨_, rfl, hw⟩

theorem atMfgetReq_stands (hlaws : LibLaws lib) (hallowed : Request.Allowed lib env w cmd .mfget) :
    ∃ r, FileCommands.atMfgetReq lib env w cmd = some r ∧ Stands r.1 (l.length + 1) := by
  have hw := stands_same h hsession hcfg
  rw [FileCommands.atMfgetReq]
  split
  · split
    · exact ⟨_, rfl, hw⟩
    split
    · exact ⟨_, rfl, hw⟩
    next realPath hpath =>
    split
    · exact ⟨_, rfl, hw⟩
    next files fp hopen =>
    obtain ⟨content, hload, hview⟩ := view_opened hopen
    have hsize := hallowed realPath content hpath hload
    obtain ⟨files', hclose, hstands⟩ :=
      opened_closed h hsession hcfg hopen (.refl files) env.fclose
    have hgetsize : cmFileGetSizeByFilePoint ⟨content, 0, none⟩ =
        (UInt32.ofNat content.length, ⟨content, 0, none⟩) :=
      cmFileGetSizeByFilePoint_eq (hsize.trans (by decide)) (Nat.zero_le _)
    have hnat : (UInt32.ofNat content.length).toNat = content.length :=
      UInt32.toNat_ofNat_of_lt' (hsize.trans (by decide))
    simp only [hview, hgetsize, hclose, Option.bind_eq_bind, Option.bind_some]
    split
    · exact ⟨_, rfl, hstands⟩
    next hzero =>
    split
    · exact ⟨_, rfl, hstands⟩
    have hpos : 0 < (UInt32.ofNat content.length).toNat := by
      refine Nat.pos_of_ne_zero fun hnone => hzero ?_
      exact UInt32.toNat_inj.mp hnone
    obtain ⟨s, hs⟩ := @mfgetFragments_isSome ⟨env.malloc, lib.hex2str⟩ w.cfg
      ⟨content, 0, none⟩ hlaws.hex2str (Or.inl hcfg) _ hpos (by rwa [hnat]) rfl hnat.symm
    simp only [hs, Option.bind_some]
    exact ⟨_, rfl, hstands⟩
  · exact ⟨_, rfl, hw⟩

theorem atMfmoveReq_stands :
    ∃ r, atMfmoveReq lib env w cmd = some r ∧ Stands r.1 (l.length + 1) := by
  have hw := stands_same h hsession hcfg
  rw [atMfmoveReq]
  split
  · split
    · exact ⟨_, rfl, hw⟩
    split
    · exact ⟨_, rfl, hw⟩
    split
    · exact ⟨_, rfl, hw⟩
    split
    · exact ⟨_, rfl, hw⟩
    split
    · exact ⟨_, rfl, hw⟩
    next oldRealPath _ =>
    split
    · exact ⟨_, rfl, hw⟩
    next newRealPath _ =>
    split
    · exact ⟨_, rfl, hw⟩
    · exact ⟨_, rfl, stands_files hsession hcfg (h.keeps (Files.rename_keeps w.files
        (lib.locate oldRealPath) (lib.locate newRealPath)))⟩
  · exact ⟨_, rfl, hw⟩

theorem atMfcheckReq_stands (hallowed : Request.Allowed lib env w cmd .mfcheck) :
    ∃ r, atMfcheckReq lib env w cmd = some r ∧ Stands r.1 (l.length + 1) := by
  have hw := stands_same h hsession hcfg
  rw [atMfcheckReq]
  split
  · dsimp only
    split
    · exact ⟨_, rfl, hw⟩
    split
    · exact ⟨_, rfl, hw⟩
    split
    · exact ⟨_, rfl, hw⟩
    split
    · exact ⟨_, rfl, hw⟩
    next files fp hopen =>
    obtain ⟨content, -, hview⟩ := view_opened hopen
    obtain ⟨files', hclose, hstands⟩ :=
      opened_closed h hsession hcfg hopen (.refl files) env.fclose
    obtain ⟨run, hrun⟩ := Option.ne_none_iff_exists'.mp
      (fsMd5_returns lib.md5 ⟨content, 0, none⟩ (hallowed : env.md5.malloc = true))
    simp only [hview, hrun, hclose, Option.bind_eq_bind, Option.bind_some]
    split
    · exact ⟨_, rfl, hstands⟩
    · exact ⟨_, rfl, hstands⟩
  · exact ⟨_, rfl, hw⟩

end Files

section Nodes
variable [DecidableEq A]
variable (h : Sound w.mem w.files none l m) (hsession : w.session = none)
variable (hcfg : w.cfg.fragsize = 0)
include h hsession hcfg

theorem atMfcloseReq_stands (hf : l.length ≤ fuel)
    (hallowed : Request.Allowed lib env w cmd .mfclose) :
    ∃ r, atMfcloseReq lib env fuel w cmd = some r ∧ Stands r.1 (l.length + 1) := by
  have hw := stands_same h hsession hcfg
  have hclosing : env.fclose = true := hallowed
  rw [atMfcloseReq]
  split
  · split
    · exact ⟨_, rfl, hw⟩
    split
    · exact ⟨_, rfl, hw⟩
    next fhandle _ =>
    rw [findNode_valid h.valid hf, Option.bind_eq_bind, Option.bind_some]
    split
    · exact ⟨_, rfl, hw⟩
    next a fileInfo hnode =>
    obtain ⟨mode, hmode, -⟩ := h.opened hnode
    obtain ⟨files', hclose, hmodes, hstreams⟩ :=
      @Files.fclose_modeOf _ _ w.files fileInfo.fp _ true mode hmode
    obtain ⟨mem', l', hstep, hlength, hvalid⟩ := @remove_valid A _ w.mem l m h.valid fhandle fuel hf
    have hremove : removeOpenflist fuel w.mem fhandle = some mem' := by
      rw [OpenFileMap.step] at hstep
      obtain ⟨mem₁, hremove, hrest⟩ := Option.bind_eq_some_iff.mp hstep
      cases hrest
      exact hremove
    simp only [hclosing, hclose, hremove, Option.bind_eq_bind, Option.bind_some]
    have hsound := h.closeHandle hnode hmodes hstreams hvalid
    rw [← hsession] at hsound
    exact ⟨_, rfl, l', _, hsound, hlength.trans (Nat.le_succ _), hcfg⟩
  · exact ⟨_, rfl, hw⟩

variable [DecidableEq Name]

theorem atMfopenReq_stands (hlaws : LibLaws lib) (hf : l.length ≤ fuel)
    (hallowed : Request.Allowed lib env w cmd .mfopen) :
    ∃ r, atMfopenReq lib env fuel w cmd = some r ∧ Stands r.1 (l.length + 1) := by
  have hw := stands_same h hsession hcfg
  obtain ⟨a, hnode, hfresh⟩ := hallowed
  rw [atMfopenReq]
  split
  · split
    · exact ⟨_, rfl, hw⟩
    split
    · exact ⟨_, rfl, hw⟩
    next fMode hparse =>
    split
    · exact ⟨_, rfl, hw⟩
    next realPath _ =>
    obtain ⟨mode, hmode⟩ := getFsMode_of_le (hlaws.range hparse).2
    simp only [hmode, Option.bind_eq_bind, Option.bind_some]
    split
    · exact ⟨_, rfl, hw⟩
    next files fp hopen =>
    obtain ⟨rfl, hmodes, hstreams⟩ := Files.fopen_modeOf (fopen_files hopen)
    obtain ⟨mem', l', handle, hstep, hlength, hfree, hvalid⟩ :=
      @insert_valid A _ w.mem l m h.valid a w.files.streams fMode realPath hfresh fuel hf
    have hinsert : insertOpenflist fuel
        (allocNode w.mem a (openInfo w.files.streams fMode realPath)) a = some (mem', handle) := by
      rw [OpenFileMap.step] at hstep
      obtain ⟨⟨mem₁, handle₁⟩, hinsert, hrest⟩ := Option.bind_eq_some_iff.mp hstep
      cases hrest
      exact hinsert
    simp only [hnode, hinsert, Option.bind_some]
    have hsound := h.open hmode hmodes hstreams hfree hvalid
    rw [← hsession] at hsound
    exact ⟨_, rfl, l', _, hsound, hlength.le, hcfg⟩
  · exact ⟨_, rfl, hw⟩

end Nodes

section Deletion
variable [DecidableEq A] [DecidableEq Name]

/-- `close_openflist_byFname` and `remove` for one path -/
theorem closeAndRemove_sound {path : CStr} (h : Sound w.mem w.files none l m)
    (hsession : w.session = none) (first : MatchesFirst path l) (hf : l.length ≤ fuel) :
    ∃ r, closeAndRemove lib env fuel w path = some r ∧ r.1.cfg = w.cfg ∧ r.1.session = none ∧
      Sound r.1.mem r.1.files none (l.filter (! named path ·))
        fun k => (m k).filter (! named path ·) := by
  obtain ⟨w', hclose, hcfg, hsession', hsound⟩ := @closeByFname_sound A Name l m env _ fuel w
    path h hsession first hf
  simp only [closeAndRemove, hclose, Option.bind_eq_bind, Option.bind_some]
  split
  · exact ⟨_, rfl, hcfg, hsession', hsound.keeps ⟨rfl, rfl⟩⟩
  · exact ⟨_, rfl, hcfg, hsession', hsound⟩

/-- The induction is on the paths; the list loses the nodes of each path that is passed. -/
theorem removeAll_sound {paths : List CStr} (h : Sound w.mem w.files none l m)
    (hsession : w.session = none) (hfront : ClosesInFront paths l) (hf : l.length ≤ fuel) :
    ∃ r l' m', removeAll lib env fuel w paths = some r ∧ r.1.cfg = w.cfg ∧ r.1.session = none ∧
      Sound r.1.mem r.1.files none l' m' ∧ l'.length ≤ l.length := by
  induction paths generalizing w l m with
  | nil => exact ⟨(w, true), l, m, rfl, rfl, hsession, h, le_rfl⟩
  | cons path paths ih =>
    obtain ⟨first, hrest⟩ := hfront
    have hless : (l.filter (! named path ·)).length ≤ l.length := List.length_filter_le _ _
    obtain ⟨⟨w', removed⟩, hclose, hcfg, hsession', hsound⟩ :=
      @closeAndRemove_sound A Name l m lib env fuel w _ _ path h hsession first hf
    simp only [removeAll, hclose, Option.bind_eq_bind, Option.bind_some]
    cases removed with
    | false => exact ⟨_, _, _, rfl, hcfg, hsession', hsound, hless⟩
    | true =>
      obtain ⟨r, l', m', hall, hcfg', hsession'', hsound', hless'⟩ :=
        ih hsound hsession' hrest (hless.trans hf)
      exact ⟨r, l', m', hall, hcfg'.trans hcfg, hsession'', hsound', hless'.trans hless⟩

theorem removeTree_stands {path : CStr} (h : Sound w.mem w.files none l m)
    (hsession : w.session = none) (hcfg : w.cfg.fragsize = 0)
    (hfront : ClosesInFront ((env.nftw path).getD []) l) (hf : l.length ≤ fuel) :
    ∃ s, (removeTree lib env fuel w path).map deleted = some s ∧ Stands s.1 (l.length + 1) := by
  refine deleted_stands hcfg ?_
  rw [removeTree]
  cases hpaths : env.nftw path with
  | none => exact ⟨_, l, m, rfl, rfl, hsession, h, le_rfl⟩
  | some paths =>
    rw [hpaths] at hfront
    exact removeAll_sound h hsession hfront hf

theorem atMfdeleteReq_stands {exe : Bool} (h : Sound w.mem w.files none l m)
    (hsession : w.session = none) (hcfg : w.cfg.fragsize = 0) (hf : l.length ≤ fuel)
    (hallowed : Request.Allowed lib env w cmd (.mfdelete exe)) :
    ∃ r, atMfdeleteReq lib env fuel w cmd exe = some r ∧ Stands r.1 (l.length + 1) := by
  have hw := stands_same h hsession hcfg
  obtain ⟨hname, hfront⟩ := hallowed
  have hfront := hfront l h.valid.holds
  rw [atMfdeleteReq]
  split
  next hset =>
    split
    · exact ⟨_, rfl, hw⟩
    split
    · exact ⟨_, rfl, hw⟩
    next fName hparse =>
    split
    · exact ⟨_, rfl, hw⟩
    next realPath hpath =>
    have hne : fName ≠ [] := hname fName hset hparse
    rw [deletedPaths, hset] at hfront
    simp only [hparse, hpath] at hfront
    simp only [fsCheckDir, List.getLast?_eq_some_getLast hne, Option.map_some,
      Option.bind_eq_bind, Option.bind_some, Option.some.injEq, decide_eq_true_eq] at hfront ⊢
    split
    next hdir =>
      rw [if_pos hdir] at hfront
      exact removeTree_stands h hsession hcfg hfront hf
    next hdir =>
      rw [if_neg hdir] at hfront
      obtain ⟨r, hclose, hsame, hsession', hsound⟩ :=
        @closeAndRemove_sound A Name l m lib env fuel w _ _ realPath h hsession hfront.1 hf
      exact deleted_stands hcfg ⟨r, _, _, hclose, hsame, hsession', hsound,
        List.length_filter_le _ _⟩
  next hother =>
    split
    next hexe =>
      have hpaths : deletedPaths lib env cmd exe = (env.nftw lib.fileSysPath).getD [] := by
        rw [deletedPaths]
        split
        next hset => exact absurd hset hother
        next => rw [if_pos hexe]
      rw [hpaths] at hfront
      exact removeTree_stands h hsession hcfg hfront hf
    · exact ⟨_, rfl, hw⟩

end Deletion

end FileResources
