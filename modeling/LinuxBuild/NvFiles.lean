import LinuxBuild.CString
import LinuxBuild.FileStreams
import LinuxBuild.PartialRun

/-!
# The NV files

Four functions write and read whole files in two directories. Each opens a stream of
its own; the readers do not close it when the file has too few bytes.
-/
namespace NvFiles
open CString FileStreams PartialRun

abbrev NvProcess := Process CStr UInt8

/-- The two stores with their directories. -/
inductive Store where
  | nv
  | factory
  deriving DecidableEq, Repr

/-- `CM_NV_DIR` and `CM_FACTORY_NVDIR` -/
def Store.dir : Store → CStr
  | .nv => cstr "./"
  | .factory => cstr "productinfo/"

/-- `sprintf(real_name, "%s%s", dir, filename)` -/
def realName (store : Store) (filename : CStr) : CStr := store.dir ++ filename

/-- The check of the functions makes the name fit `real_name[128]`. -/
theorem realName_fits {store : Store} {filename : CStr} (h : filename.length ≤ 64) :
    (realName store filename).length < 128 := by
  have hdir : store.dir.length ≤ 12 := by cases store <;> decide
  rw [realName, List.length_append]
  omega

theorem realName_injective {store store' : Store} {filename filename' : CStr}
    (h : realName store filename = realName store' filename') :
    store = store' ∧ filename = filename' := by
  have hfirst : ∀ name name', realName .nv name ≠ realName .factory name' := by
    intro name name' heq
    exact absurd (congrArg List.head? heq) (by decide : some (46 : UInt8) ≠ some 112)
  cases store <;> cases store'
  · exact ⟨rfl, List.append_cancel_left h⟩
  · exact absurd h (hfirst _ _)
  · exact absurd h.symm (hfirst _ _)
  · exact ⟨rfl, List.append_cancel_left h⟩

/-- Whether `fwrite` takes all the data, and how many bytes of them are in the file when
the stream is closed. -/
structure WriteEnv where
  fwrite : Bool
  flushed : Nat

/-- The two writers differ in their directory only. -/
def nvWrite (store : Store) (limit : Nat) (env : WriteEnv) (p : NvProcess)
    (filename : Option CStr) (data : Option (List UInt8)) (datalen : UInt32) :
    NvProcess × Int32 :=
  match filename, data with
  | some filename, some data =>
    if datalen = 0 ∨ 64 < filename.length then (p, -1)
    else
      match p.openWrite limit (realName store filename) with
      | none => (p, -1)
      | some fd =>
        let bytes := data.take datalen.toNat
        let ret := if env.fwrite then datalen.toInt32 else -1
        ((fd.put (realName store filename) (bytes.take env.flushed)).close, ret)
  | _, _ => (p, -1)

def cmNvWrite := nvWrite .nv

def cmFactoryNvWrite := nvWrite .factory

/-- What can be read before an input error, if there is one. -/
def readable (error : Option Nat) (content : List UInt8) : List UInt8 :=
  match error with
  | none => content
  | some at_ => content.take at_

/-- What a reader returns, with the bytes in the buffer of its caller. -/
structure ReadResult where
  ret : Int32
  data : List UInt8
  deriving DecidableEq

/-- From `fopen` to the end of a reader that returns `ret` for a whole item. -/
def readStream (limit : Nat) (error : Option Nat) (p : NvProcess) (path : CStr)
    (datalen : UInt32) (ret : Int32) : NvProcess × ReadResult :=
  match p.openRead limit path with
  | none => (p, ⟨-1, []⟩)
  | some (fd, content) =>
    let data := (readable error content).take datalen.toNat
    if data.length = datalen.toNat then (fd.close, ⟨ret, data⟩) else (fd, ⟨-1, data⟩)

/-- The two readers differ in their directory only. -/
def nvRead (store : Store) (limit : Nat) (error : Option Nat) (p : NvProcess)
    (filename : Option CStr) (datalen : UInt32) : NvProcess × ReadResult :=
  match filename with
  | some filename =>
    if datalen = 0 ∨ 64 < filename.length then (p, ⟨-1, []⟩)
    else readStream limit error p (realName store filename) datalen datalen.toInt32
  | none => (p, ⟨-1, []⟩)

def cmNvRead := nvRead .nv

def cmFactoryNvRead := nvRead .factory

/-- `cm_nv_read` of the location service takes a whole path, makes sure of its
directory, and returns the number of items. -/
def lbsNvRead (limit : Nat) (directory : Bool) (error : Option Nat) (p : NvProcess)
    (filename : Option CStr) (datalen : UInt32) : NvProcess × ReadResult :=
  match filename with
  | some filename =>
    if datalen = 0 ∨ 64 < filename.length then (p, ⟨-1, []⟩)
    else if directory then readStream limit error p filename datalen 1
    else (p, ⟨-1, []⟩)
  | none => (p, ⟨-1, []⟩)

/-- A file name of 1 to 64 characters, in no directory of its own. -/
structure FileName where
  text : CStr
  pos : 0 < text.length
  short : text.length ≤ 64
  plain : (47 : UInt8) ∉ text ∧ (0 : UInt8) ∉ text
  deriving DecidableEq

/-- A length that an `int` can hold. -/
structure Length where
  val : UInt32
  pos : 0 < val.toNat
  small : val.toNat < 2 ^ 31
  deriving DecidableEq

/-- Data with such a length. -/
structure NvData where
  bytes : List UInt8
  len : Length
  size : bytes.length = len.val.toNat

inductive NvCall where
  | write (store : Store) (name : FileName) (data : NvData) (env : WriteEnv)
  | read (store : Store) (name : FileName) (len : Length) (error : Option Nat)

/-- A call of one of the four functions. -/
def nvCall (limit : Nat) (p : NvProcess) : NvCall → NvProcess × ReadResult
  | .write .nv name data env =>
    let (p, ret) := cmNvWrite limit env p (some name.text) (some data.bytes) data.len.val
    (p, ⟨ret, []⟩)
  | .write .factory name data env =>
    let (p, ret) := cmFactoryNvWrite limit env p (some name.text) (some data.bytes) data.len.val
    (p, ⟨ret, []⟩)
  | .read .nv name len error => cmNvRead limit error p (some name.text) len.val
  | .read .factory name len error => cmFactoryNvRead limit error p (some name.text) len.val

def nvStep (limit : Nat) (p : NvProcess) (call : NvCall) : Option (NvProcess × ReadResult) :=
  some (nvCall limit p call)

abbrev NvTrace := List (NvCall × ReadResult)

abbrev NvKey := Store × FileName

/-- What a write that succeeded last left in each file. -/
def lastWritten : NvTrace → NvKey → Option (List UInt8) :=
  List.foldl (fun written entry =>
    match entry with
    | (.write store name data _, result) =>
      Function.update written (store, name) (if 0 < result.ret then some data.bytes else none)
    | (.read _ _ _ _, _) => written) fun _ => none

/-- Every read of no more than the last write has left succeeds and delivers it. -/
def ReadsBack (trace : NvTrace) : Prop :=
  ∀ before after store name len error result bytes,
    trace = before ++ (.read store name len error, result) :: after →
    lastWritten before (store, name) = some bytes → len.val.toNat ≤ bytes.length →
    result.ret.toInt = len.val.toNat ∧ result.data = bytes.take len.val.toNat

/-- A read that opens its file gets all the bytes it asks for, and what `fwrite` has
taken is in the file when the stream is closed. -/
def Complete (p : NvProcess) : NvCall → Prop
  | .write _ _ data env => env.fwrite = true → data.bytes.length ≤ env.flushed
  | .read store name len error => ∀ content, p.files (realName store name.text) = some content →
      len.val.toNat ≤ (readable error content).length

theorem Length.ne_zero (len : Length) : len.val ≠ 0 := by
  intro h
  have hpos := len.pos
  simp [h] at hpos

/-- A length survives the conversion to the `int` that is returned. -/
theorem Length.toInt_toInt32 (len : Length) : len.val.toInt32.toInt = len.val.toNat := by
  have hsmall := len.small
  rw [← Int32.toInt_toBitVec, UInt32.toBitVec_toInt32, BitVec.toInt_eq_toNat_of_lt]
  · rfl
  · have : len.val.toBitVec.toNat = len.val.toNat := rfl
    omega

/-- A write that gets its stream. -/
theorem nvCall_write {limit : Nat} {p : NvProcess} (hp : p.streams < limit) (store : Store)
    (name : FileName) (data : NvData) (env : WriteEnv) :
    nvCall limit p (.write store name data env) =
      (p.put (realName store name.text) (data.bytes.take env.flushed),
        ⟨if env.fwrite then data.len.val.toInt32 else -1, []⟩) := by
  have hguard : ¬ (data.len.val = 0 ∨ 64 < name.text.length) :=
    not_or.mpr ⟨data.len.ne_zero, not_lt.mpr name.short⟩
  have hall : data.bytes.take data.len.val.toNat = data.bytes :=
    List.take_of_length_le data.size.le
  cases store <;>
    simp [nvCall, cmNvWrite, cmFactoryNvWrite, nvWrite, hguard, Process.openWrite, hp, hall]

/-- A read is one of the file under its real name. -/
theorem nvCall_read {limit : Nat} {p : NvProcess} (store : Store) (name : FileName)
    (len : Length) (error : Option Nat) :
    nvCall limit p (.read store name len error) =
      readStream limit error p (realName store name.text) len.val len.val.toInt32 := by
  have hguard : ¬ (len.val = 0 ∨ 64 < name.text.length) :=
    not_or.mpr ⟨len.ne_zero, not_lt.mpr name.short⟩
  cases store <;> simp [nvCall, cmNvRead, cmFactoryNvRead, nvRead, hguard]

/-- A reader that gets its stream returns and closes it if it gets its bytes; otherwise
the stream stays open. -/
theorem readStream_opened {limit : Nat} {p : NvProcess} {path : CStr} {content : List UInt8}
    (hp : p.streams < limit) (hfile : p.files path = some content) (error : Option Nat)
    (datalen : UInt32) (ret : Int32) :
    readStream limit error p path datalen ret =
      if datalen.toNat ≤ (readable error content).length then
        (p, ⟨ret, (readable error content).take datalen.toNat⟩)
      else (p.hold, ⟨-1, readable error content⟩) := by
  have hopen : p.openRead limit path = some (p.hold, content) :=
    Process.openRead_eq_some_iff.mpr ⟨hp, hfile, rfl⟩
  simp only [readStream, hopen, List.length_take]
  by_cases henough : datalen.toNat ≤ (readable error content).length
  · rw [if_pos (min_eq_left henough), if_pos henough, Process.close_hold]
  · have hshort : (readable error content).length < datalen.toNat := not_le.mp henough
    rw [if_neg (by omega), if_neg henough, List.take_of_length_le hshort.le]

theorem readStream_unopened {limit : Nat} {p : NvProcess} {path : CStr}
    (h : ¬ p.streams < limit ∨ p.files path = none) (error : Option Nat) (datalen : UInt32)
    (ret : Int32) : readStream limit error p path datalen ret = (p, ⟨-1, []⟩) := by
  simp [readStream, Process.openRead_eq_none_iff.mpr h]

/-- `cm_nv_read` of either kind leaves a stream open exactly when it opens a file and
does not get its bytes. -/
theorem readStream_streams_iff {limit : Nat} {p : NvProcess} {path : CStr}
    (error : Option Nat) (datalen : UInt32) (ret : Int32) :
    (readStream limit error p path datalen ret).1.streams = p.streams ↔
      (p.streams < limit → ∀ content, p.files path = some content →
        datalen.toNat ≤ (readable error content).length) := by
  by_cases hp : p.streams < limit
  · cases hfile : p.files path with
    | none => simp [readStream_unopened (Or.inr hfile)]
    | some content =>
      rw [readStream_opened hp hfile]
      split_ifs with henough
      · simp [hp, henough]
      · simp [hp, henough]
  · simp [readStream_unopened (Or.inl hp), hp]

/-- The copy in the location service has the same leak. -/
theorem lbsNvRead_streams_iff {limit : Nat} {p : NvProcess} {filename : CStr} {len : Length}
    (hshort : filename.length ≤ 64) (error : Option Nat) :
    (lbsNvRead limit true error p (some filename) len.val).1.streams = p.streams ↔
      (p.streams < limit → ∀ content, p.files filename = some content →
        len.val.toNat ≤ (readable error content).length) := by
  have hguard : ¬ (len.val = 0 ∨ 64 < filename.length) :=
    not_or.mpr ⟨len.ne_zero, not_lt.mpr hshort⟩
  simp only [lbsNvRead, if_neg hguard, if_true]
  exact readStream_streams_iff error len.val 1

/-- What a write that succeeded last left is in its file, and the process holds as many
streams as at the start. -/
structure Kept (streams : Nat) (trace : NvTrace) (p : NvProcess) : Prop where
  streams : p.streams = streams
  files : ∀ store name bytes, lastWritten trace (store, name) = some bytes →
    p.files (realName store name.text) = some bytes

theorem lastWritten_snoc_write {trace : NvTrace} {store : Store} {name : FileName}
    {data : NvData} {env : WriteEnv} {result : ReadResult} :
    lastWritten (trace ++ [(.write store name data env, result)]) =
      Function.update (lastWritten trace) (store, name)
        (if 0 < result.ret then some data.bytes else none) := by
  simp [lastWritten]

theorem lastWritten_snoc_read {trace : NvTrace} {store : Store} {name : FileName}
    {len : Length} {error : Option Nat} {result : ReadResult} :
    lastWritten (trace ++ [(.read store name len error, result)]) = lastWritten trace := by
  simp [lastWritten]

theorem Kept.write {limit streams : Nat} {trace : NvTrace} {p : NvProcess}
    (h : Kept streams trace p) (hstreams : streams < limit) {store : Store} {name : FileName}
    {data : NvData} {env : WriteEnv} (hok : Complete p (.write store name data env)) :
    Kept streams
      (trace ++ [(.write store name data env, (nvCall limit p (.write store name data env)).2)])
      (nvCall limit p (.write store name data env)).1 := by
  rw [nvCall_write (h.streams ▸ hstreams)]
  refine ⟨h.streams, ?_⟩
  intro store' name' bytes hwritten
  rw [lastWritten_snoc_write] at hwritten
  by_cases hkey : (store', name') = (store, name)
  · cases hkey
    simp only [Function.update_self] at hwritten
    by_cases hfwrite : env.fwrite = true
    · split_ifs at hwritten
      cases hwritten
      rw [Process.put_files_self, List.take_of_length_le (hok hfwrite)]
    · have hfails : ¬ (0 : Int32) < -1 := by decide
      rw [if_neg hfwrite, if_neg hfails] at hwritten
      cases hwritten
  · rw [Function.update_of_ne hkey] at hwritten
    have hpath : realName store' name'.text ≠ realName store name.text := by
      intro heq
      obtain ⟨rfl, htext⟩ := realName_injective heq
      cases name
      cases name'
      cases htext
      exact hkey rfl
    rw [Process.put_files_of_ne hpath]
    exact h.files store' name' bytes hwritten

theorem Kept.read {limit streams : Nat} {trace : NvTrace} {p : NvProcess}
    (h : Kept streams trace p) (hstreams : streams < limit) {store : Store} {name : FileName}
    {len : Length} {error : Option Nat} (hok : Complete p (.read store name len error)) :
    Kept streams
      (trace ++ [(.read store name len error, (nvCall limit p (.read store name len error)).2)])
      (nvCall limit p (.read store name len error)).1 := by
  have hsame : (nvCall limit p (.read store name len error)).1 = p := by
    rw [nvCall_read]
    cases hfile : p.files (realName store name.text) with
    | none => rw [readStream_unopened (Or.inr hfile)]
    | some content => rw [readStream_opened (h.streams ▸ hstreams) hfile, if_pos (hok _ hfile)]
  rw [hsame]
  refine ⟨h.streams, ?_⟩
  rw [lastWritten_snoc_read]
  exact h.files

theorem nvStep_eq_some_iff {limit : Nat} {p q : NvProcess} {call : NvCall} {result : ReadResult} :
    nvStep limit p call = some (q, result) ↔
      (nvCall limit p call).1 = q ∧ (nvCall limit p call).2 = result := by
  rw [nvStep, Option.some.injEq, Prod.ext_iff]

theorem Kept.step {limit streams : Nat} {trace : NvTrace} {p q : NvProcess} {call : NvCall}
    {result : ReadResult} (h : Kept streams trace p) (hstreams : streams < limit)
    (hok : Complete p call) (hstep : nvStep limit p call = some (q, result)) :
    Kept streams (trace ++ [(call, result)]) q := by
  obtain ⟨rfl, rfl⟩ := nvStep_eq_some_iff.mp hstep
  cases call with
  | write store name data env => exact h.write hstreams hok
  | read store name len error => exact h.read hstreams hok

/-- A complete read of a file that a write has left delivers what was written. -/
theorem Kept.reads {limit streams : Nat} {trace : NvTrace} {p q : NvProcess} {store : Store}
    {name : FileName} {len : Length} {error : Option Nat} {result : ReadResult}
    {bytes : List UInt8} (h : Kept streams trace p) (hstreams : streams < limit)
    (hok : Complete p (.read store name len error))
    (hstep : nvStep limit p (.read store name len error) = some (q, result))
    (hwritten : lastWritten trace (store, name) = some bytes) :
    result.ret.toInt = len.val.toNat ∧ result.data = bytes.take len.val.toNat := by
  have hfile := h.files store name bytes hwritten
  obtain ⟨-, rfl⟩ := nvStep_eq_some_iff.mp hstep
  have henough := hok _ hfile
  rw [nvCall_read, readStream_opened (h.streams ▸ hstreams) hfile, if_pos henough]
  refine ⟨len.toInt_toInt32, ?_⟩
  -- an input error comes behind the bytes that are asked for
  cases error with
  | none => rfl
  | some stop =>
    have hstop : len.val.toNat ≤ min stop bytes.length := by
      simpa [readable, List.length_take] using henough
    simp only [readable, List.take_take]
    rw [min_eq_left (by omega)]

/-- In every run of the four functions whose reads get all the bytes they ask for, and
whose writes are flushed when they are closed, no call changes the number of open
streams, and what a write has left is read back. -/
theorem nv_files_read_back {limit : Nat} {start : NvProcess} (hlimit : start.streams < limit)
    {trace : NvTrace} {p : NvProcess} (h : Run (nvStep limit) (fun _ => Complete) start trace p) :
    p.streams = start.streams ∧ ReadsBack trace := by
  have hkept : ∀ {trace p}, Run (nvStep limit) (fun _ => Complete) start trace p →
      Kept start.streams trace p := by
    intro trace p hrun
    have hstart : Kept start.streams [] start := ⟨rfl, fun _ _ _ hwritten => nomatch hwritten⟩
    exact hrun.invariant hstart fun hkept hok hstep => hkept.step hlimit hok hstep
  refine ⟨(hkept h).streams, ?_⟩
  intro before after store name len error result bytes htrace hwritten _
  obtain ⟨q, t, hrun, hok, hstep⟩ := h.step_at htrace
  exact (hkept hrun).reads hlimit hok hstep hwritten

/-- The file "a" and its data. -/
def nvName : FileName := ⟨cstr "a", by decide, by decide, by decide, by decide⟩

def nvByte : NvData := ⟨[7], ⟨1, by decide, by decide⟩, by decide⟩

def noFiles : NvProcess := ⟨fun _ => none, 0⟩

/-- A byte that is written can be read. -/
theorem nv_files_read_back_byte : ∃ trace p, Run (nvStep 1) (fun _ => Complete) noFiles trace p ∧
    trace.length = 2 ∧ p.streams = noFiles.streams ∧ ReadsBack trace := by
  have hwrite : Complete noFiles (.write .nv nvName nvByte ⟨true, 1⟩) := fun _ => le_refl 1
  have h₁ : Run (nvStep 1) (fun _ => Complete) noFiles _ _ := .snoc .start hwrite rfl
  have hread : Complete (nvCall 1 noFiles (.write .nv nvName nvByte ⟨true, 1⟩)).1
      (.read .nv nvName nvByte.len none) := by
    intro content hcontent
    cases hcontent
    exact le_refl 1
  have h₂ := h₁.snoc hread rfl
  exact ⟨_, _, h₂, rfl, nv_files_read_back (by decide) h₂⟩

/-- A read of two bytes of a file with one keeps its stream, and then the file cannot be
opened again in a process that may hold one stream. -/
theorem nv_read_leaks : ∃ trace p, Run (nvStep 1) (fun _ _ _ => True) noFiles trace p ∧
    p.streams ≠ noFiles.streams ∧ ¬ ReadsBack trace := by
  have h₁ : Run (nvStep 1) (fun _ _ _ => True) noFiles _ _ :=
    .snoc (i := .write .nv nvName nvByte ⟨true, 1⟩) .start trivial rfl
  have h₂ := h₁.snoc (i := .read .nv nvName ⟨2, by decide, by decide⟩ none) trivial rfl
  have h₃ := h₂.snoc (i := .read .nv nvName nvByte.len none) trivial rfl
  refine ⟨_, _, h₃, by decide, ?_⟩
  intro hreads
  obtain ⟨hret, -⟩ := hreads [_, _] [] .nv nvName nvByte.len none _ [7] rfl rfl (le_refl 1)
  exact absurd hret (by decide)

end NvFiles
