import LinuxBuild.FileRequests

/-!
# The file commands over whole runs

The requests and the chunks of the sessions keep the list and the streams in agreement, and
none of them works on a node or on a stream that is gone.
-/
namespace FileResources
open CString ByteStream BufferedFiles FileMd5 FileSeek FileAtConfig FileFragments DataMode
open HeapList CyclicOrder OpenFileList OpenFileOps OpenFileMap CloseByName HandleReuse FileCommands
open PartialRun

variable {A Name : Type} {files : Files Name UInt8} {l : Nodes A} {m : HandleMap A}
variable {lib : FileLib Name} {env : FileEnv A} {fuel : Nat}

section Chunks
variable {w : FileWorld A Name} {fp : OpenFileList.Stream} {data : CStr}

/-- A callback does not fault when the length that it writes lies in the chunk. -/
theorem datamodeCb_isSome {header : CStr} {cutTo : UInt32 → UInt32} {cb : CbEnv} {c : Counters}
    (hinside : (if 0 < c.dataLength then chunkLen c (UInt32.ofNat data.length)
      else cb.quitSymbol.2).toNat ≤ data.length) :
    ∃ r, datamodeCb header cutTo cb c data = some r := by
  have hlen : ∀ p : UInt32 × UInt32, p = (if 0 < c.dataLength then
      (0, chunkLen c (UInt32.ofNat data.length)) else cb.quitSymbol) → p.2.toNat ≤ data.length := by
    rintro p rfl
    split_ifs at hinside ⊢
    · exact hinside
    · exact hinside
  rw [datamodeCb]
  dsimp only
  split
  · exact ⟨_, rfl⟩
  generalize hp : (if 0 < c.dataLength then (0, chunkLen c (UInt32.ofNat data.length))
    else cb.quitSymbol) = p
  have hle := hlen p hp.symm
  split
  · exact ⟨_, rfl⟩
  split
  · rw [if_neg (by omega)]
    split
    · exact ⟨_, rfl⟩
    · exact ⟨_, rfl⟩
  · exact ⟨_, rfl⟩

theorem takeChunk_ready (h : files.Ready fp) (run : CbRun) :
    ∃ files', takeChunk env files fp data run = some files' ∧ files.Keeps files' ∧
      files'.Ready fp := by
  rw [takeChunk]
  split
  next len _ =>
    obtain ⟨files', done, hwrite, hkeeps, hready⟩ :=
      @Files.Ready.fwrite _ _ files fp (data.take len.toNat) _ env.room env.spill h
    exact ⟨files', by rw [hwrite]; rfl, hkeeps, hready⟩
  next length _ _ _ =>
    obtain ⟨files₁, hplace, hkeeps₁, hready₁⟩ := @Files.Ready.place _ _ files fp 0 _ h
    simp only [hplace, Option.bind_eq_bind, Option.bind_some]
    split
    · obtain ⟨files₂, cut, hcut, hkeeps₂, hready₂⟩ :=
        @Files.Ready.ftruncate _ _ files₁ fp _ length.toNat hready₁
      exact ⟨files₂, by rw [hcut]; rfl, hkeeps₁.trans hkeeps₂, hready₂⟩
    · exact ⟨files₁, rfl, hkeeps₁, hready₁⟩
  · exact ⟨files, rfl, .refl files, h⟩

theorem callback_stands (h : Sound w.mem w.files w.session l m) (hcfg : w.cfg.fragsize = 0)
    (hallowed : ChunkAllowed lib w data) :
    ∃ r, callback lib env w data = some r ∧ Stands r.1 (l.length + 1) := by
  obtain ⟨session, hsession⟩ := Option.ne_none_iff_exists'.mp hallowed.session
  rw [hsession] at h
  cases session with
  | mfput fp =>
    obtain ⟨hmode, hother⟩ := h.upload rfl
    obtain ⟨st, hst, -⟩ := Files.exists_stream hmode
    have hready : w.files.Ready fp := ⟨st, hst, h.unread rfl hst⟩
    obtain ⟨file, hview⟩ := Files.exists_view hst
    obtain ⟨⟨counters, run⟩, hrun⟩ := @datamodeCb_isSome data (cstr "\r\n+MFPUT: ") (fun _ => 0)
      (cbEnv lib env file data) w.counters hallowed.inside
    obtain ⟨files', htake, hkeeps, hready'⟩ :=
      @takeChunk_ready A Name w.files env fp data hready run
    simp only [callback, hsession, hview, cmFileMfputDatamodeCb, hrun, htake, Option.bind_eq_bind,
      Option.bind_some]
    split
    · obtain ⟨files₂, hclose, hmodes, hstreams⟩ := @Files.fclose_modeOf _ _ files' fp _ env.fclose
        .wPlus (by rw [hkeeps.modes, hmode])
      simp only [hclose, Option.bind_some]
      rw [hkeeps.modes] at hmodes
      exact ⟨_, rfl, l, m, h.endUpload hmodes (hstreams.trans hkeeps.streams), Nat.le_succ _, hcfg⟩
    · have hsound : Sound w.mem files' (some (.mfput fp)) l m := by
        refine h.congr hkeeps.modes hkeeps.streams.ge ?_
        rintro _ st' ⟨⟩ hst'
        obtain ⟨st'', hst'', hturn⟩ := hready'
        cases hst'.symm.trans hst''
        exact hturn
      exact ⟨_, rfl, l, m, hsound, Nat.le_succ _, hcfg⟩
  | mfwrite a =>
    obtain ⟨handle, v, hnode, -⟩ := h.writing rfl
    obtain ⟨cell, hcell, rfl⟩ := (heap_iff_mem h.valid).mpr ((h.valid.mapped handle _).mp hnode).1
    obtain ⟨mode, hmode, -⟩ := h.opened hnode
    obtain ⟨st, hst, -⟩ := Files.exists_stream hmode
    have hready : w.files.Ready cell.val.fp := ⟨st, hst, hallowed.turn a cell st hsession hcell hst⟩
    obtain ⟨file, hview⟩ := Files.exists_view hst
    obtain ⟨⟨counters, run⟩, hrun⟩ := @datamodeCb_isSome data
      (cstr "\r\n+MFWRITE: " ++ decimal cell.val.fHandle.toInt32 ++ cstr ",")
      (fun recv => (cbEnv lib env file data).ftell - recv)
      (cbEnv lib env file data) w.counters hallowed.inside
    obtain ⟨files', htake, hkeeps, -⟩ :=
      @takeChunk_ready A Name w.files env cell.val.fp data hready run
    have hsound : Sound w.mem files' (some (.mfwrite a)) l m :=
      h.congr hkeeps.modes hkeeps.streams.ge (by rintro _ _ ⟨⟩)
    simp only [callback, hsession, hcell, hview, cmFileMfwriteDatamodeCb, hrun, htake,
      Option.bind_eq_bind, Option.bind_some]
    split
    · exact ⟨_, rfl, l, m, hsound.endWriting, Nat.le_succ _, hcfg⟩
    · exact ⟨_, rfl, l, m, hsound, Nat.le_succ _, hcfg⟩

end Chunks

section Runs
variable [DecidableEq A] [DecidableEq Name]
variable {w : FileWorld A Name} {n : Nat}

/-- Every allowed input is taken without a fault and keeps what stands. -/
theorem Stands.step (hlaws : LibLaws lib) (h : Stands w n) (hn : n ≤ fuel)
    {i : FileCommands.Input A} (hallowed : Allowed lib w i) :
    ∃ r, FileCommands.step lib fuel w i = some r ∧ Stands r.1 (n + 1) := by
  obtain ⟨l, m, hsound, hlength, hcfg⟩ := h
  have hf := hlength.trans hn
  have hweaken : ∀ {w' : FileWorld A Name}, Stands w' (l.length + 1) → Stands w' (n + 1) := by
    rintro w' ⟨l', m', hsound', hlength', hcfg'⟩
    exact ⟨l', m', hsound', hlength'.trans (Nat.succ_le_succ hlength), hcfg'⟩
  cases i with
  | request request cmd env =>
    obtain ⟨hsession, hallowed⟩ := hallowed
    rw [hsession] at hsound
    have hserved : ∃ r, request.run lib env fuel w cmd = some r ∧ Stands r.1 (l.length + 1) := by
      cases request with
      | mfcfg => exact atMfcfgReq_stands hsound hsession hcfg
      | mfsize => exact atMfsizeReq_stands hsound hsession hcfg
      | mfput => exact atMfputReq_stands hsound hsession hcfg
      | mfget => exact atMfgetReq_stands hsound hsession hcfg hlaws hallowed
      | mfopen => exact atMfopenReq_stands hsound hsession hcfg hlaws hf hallowed
      | mfread => exact atMfreadReq_stands hsound hsession hcfg hlaws hf hallowed
      | mfwrite => exact atMfwriteReq_stands hsound hsession hcfg hf hallowed
      | mfsync => exact atMfsyncReq_stands hsound hsession hcfg hf
      | mfseek => exact atMfseekReq_stands hsound hsession hcfg hf
      | mftrunc => exact atMftruncReq_stands hsound hsession hcfg hf
      | mfclose => exact atMfcloseReq_stands hsound hsession hcfg hf hallowed
      | mfdelete exe => exact atMfdeleteReq_stands hsound hsession hcfg hf hallowed
      | mfmove => exact atMfmoveReq_stands hsound hsession hcfg
      | mfcheck => exact atMfcheckReq_stands hsound hsession hcfg hallowed
    obtain ⟨r, hr, hstands⟩ := hserved
    refine ⟨r, ?_, hweaken hstands⟩
    rw [FileCommands.step, hsession, Option.isSome_none, if_neg Bool.false_ne_true]
    exact hr
  | data data env =>
    obtain ⟨r, hr, hstands⟩ := @callback_stands A Name l m lib env w data hsound hcfg hallowed
    exact ⟨r, hr, hweaken hstands⟩

/-- The list grows by one node at most in each step. -/
theorem run_stands (hlaws : LibLaws lib) {trace : List (Input A × FileCommands.Output)}
    (hrun : Run (FileCommands.step lib fuel) (fun _ => Allowed lib) (.start A Name) trace w)
    (hfuel : trace.length ≤ fuel) : Stands w trace.length := by
  revert hfuel
  refine @Run.invariant _ _ _ _ _ _ (fun trace w => trace.length ≤ fuel → Stands w trace.length)
    ?_ ?_ _ _ hrun
  · intro _
    exact ⟨[], fun _ => none, .start, le_rfl, rfl⟩
  · intro trace s t i o hs hallowed hstep hfuel
    rw [List.length_append, List.length_singleton] at hfuel ⊢
    have hbelow : trace.length ≤ fuel := by omega
    obtain ⟨r, hr, hstands⟩ := (hs hbelow).step hlaws hbelow hallowed
    rw [hstep] at hr
    cases hr
    exact hstands

/-- In every run of requests and uploads the list, the handles and the streams agree: each node
has an open stream of its own in its mode, and no other stream is left open but that of an
upload that goes on. No further input that is allowed meets a node or a stream that is gone. -/
theorem commands_sound (hlaws : LibLaws lib) {trace : List (Input A × FileCommands.Output)}
    (hrun : Run (FileCommands.step lib fuel) (fun _ => Allowed lib) (.start A Name) trace w)
    (hfuel : trace.length ≤ fuel) :
    (∃ l m, Sound w.mem w.files w.session l m) ∧
      ∀ i, Allowed lib w i → ∃ r, FileCommands.step lib fuel w i = some r := by
  have hstands := run_stands hlaws hrun hfuel
  constructor
  · obtain ⟨l, m, hsound, -⟩ := hstands
    exact ⟨l, m, hsound⟩
  · intro i hallowed
    obtain ⟨r, hr, -⟩ := hstands.step hlaws hfuel hallowed
    exact ⟨r, hr⟩

end Runs

/-- Paths are names as they are given. -/
def plainLib : FileLib CStr where
  toParsers := plainParsers
  toInt32WithRange _ _ _ := none
  str2hex := some
  hex2str := plainEnv.hex2str
  parseEscstring := some
  findQuitSymbol _ := (0, 0)
  md5 _ := emptyDigest
  escape := false
  locate path := path
  fileSysPath := cstr "/"

theorem plainLib_laws : LibLaws plainLib where
  range h := (plainParsers_exact.range.mp h).2
  hex2str := plainEnv_working.hex2str

/-- Nothing goes wrong, and of what is written two bytes go to the file at once. -/
def quietly (a : Fin 3) : FileEnv (Fin 3) where
  getRealPath name _ := some name
  refuse := false
  malloc := plainEnv.malloc
  mallocNode := some a
  room := 100
  spill := 2
  fclose := true
  fsync := true
  ftruncate := true
  remove _ := true
  nftw path := some [path]
  md5 := quietEnv
  setDatamode := true

def openF : FileCommands.Input (Fin 3) :=
  .request .mfopen ⟨.set, [cstr "\"f\"", cstr "3"]⟩ (quietly ⟨0, by decide⟩)

def writeF : FileCommands.Input (Fin 3) :=
  .request .mfwrite ⟨.set, [cstr "1", cstr "0", cstr "\"hello\""]⟩ (quietly ⟨1, by decide⟩)

/-- A file is opened and written to. -/
theorem commands_sound_written : ∃ o o' w,
    Run (FileCommands.step plainLib 9) (fun _ => Allowed plainLib) (.start (Fin 3) CStr)
      [(openF, o), (writeF, o')] w ∧
    (∃ l m, Sound w.mem w.files w.session l m) ∧
      ∀ i, Allowed plainLib w i → ∃ r, FileCommands.step plainLib 9 w i = some r := by
  obtain ⟨⟨w₁, o⟩, hopen⟩ :
      ∃ r, FileCommands.step plainLib 9 (.start (Fin 3) CStr) openF = some r := ⟨_, rfl⟩
  obtain ⟨⟨w₂, o'⟩, hwrite⟩ : ∃ r, FileCommands.step plainLib 9 w₁ writeF = some r := by
    cases hopen
    exact ⟨_, rfl⟩
  have hallowed : Allowed plainLib w₁ writeF := by
    cases hopen
    refine ⟨rfl, ?_⟩
    intro c st _ hst
    change Function.update (fun _ => none) 0 (some _) c.fp = some st at hst
    by_cases hfirst : c.fp = 0
    · rw [hfirst, Function.update_self] at hst
      cases hst
      decide
    · rw [Function.update_of_ne hfirst] at hst
      cases hst
  have hrun : Run (FileCommands.step plainLib 9) (fun _ => Allowed plainLib) (.start (Fin 3) CStr)
      [(openF, o), (writeF, o')] w₂ :=
    (Run.start.snoc ⟨rfl, 0, rfl, rfl, room_of_three _⟩ hopen).snoc hallowed hwrite
  exact ⟨o, o', w₂, hrun, commands_sound plainLib_laws hrun (Nat.le_add_left 2 7)⟩

end FileResources
