import LinuxBuild.LbsSession
import LinuxBuild.LbsTask

/-!
# The public functions of the location service

`cm_lbs_init` selects a platform and creates the session record of a request,
`cm_lbs_location` registers the callback and sends a message, and the task runs the
session of the selected platform for every message. A message carries no request: the
platform, both session records and both callback records are statics.
-/
namespace LbsApi
open CString LbsTypes AmapParse OneosposParse LocationDelivery BackendTypes AmapRequest
open LbsSession AmapBackend OneosposBackend LbsTask

/-- The parts of the session record `s_oneospos_attr_t` that are set before its
request. -/
structure OneosposAttr where
  pid : CStr
  nearbtsEnable : Int32
  deriving DecidableEq

/-- The statics of `cm_lbs.c` and of the back ends. `cmLbsQueun` is the number of
messages in the queue, or `none` for the null handle. `amapMsg` is the argument in the
static `lbs_callback_msg` when the `cb_arg` of the session record points to it, and
`none` when that is `NULL`; `oneosposMsg` is the same for OneOS. -/
structure Lbs (Arg : Type) where
  cmLbsTask : Bool
  cmLbsQueun : Option Nat
  platform : LocationPlatform
  amapAttr : Option AmapAttr
  amapMsg : Option Arg
  oneosposAttr : Option OneosposAttr
  oneosposMsg : Option Arg
  amap : AmapState
  oneospos : OneosposState

variable {Arg : Type}

def Lbs.start : Lbs Arg where
  cmLbsTask := false
  cmLbsQueun := none
  platform := .other 0
  amapAttr := none
  amapMsg := none
  oneosposAttr := none
  oneosposMsg := none
  amap := .init
  oneospos := .init

/-- The number of messages that the task has not taken. -/
def Lbs.queued (s : Lbs Arg) : Nat := s.cmLbsQueun.getD 0

/-- `cm_lbs_deinit` -/
def Lbs.deinit (s : Lbs Arg) : Lbs Arg := { s with amapAttr := none, oneosposAttr := none }

/-- Whether the thread and the queue can be created. -/
structure TaskEnv where
  thread : Bool
  queue : Bool

/-- `cm_lbs_task_create`: a second call does not look at the queue. -/
def lbsTaskCreate (env : TaskEnv) (s : Lbs Arg) : LbsState × Lbs Arg :=
  if s.cmLbsTask then (.ok, s)
  else if env.thread then
    if env.queue then (.ok, { s with cmLbsTask := true, cmLbsQueun := some 0 })
    else (.err, { s with cmLbsTask := true, cmLbsQueun := none })
  else (.err, s)

/-- `ONEOSPOS_PID_INTERNAL` -/
def oneosposPidInternal : CStr := cstr "VuJCIgMPvN"

/-- `__cm_oneospos_pid_config`; without memory for the NV record the pid stays empty. -/
def oneosposPidConfig (nv : Option NvConfig) (alloc : Bool) (inputPid : Option CStr) : CStr :=
  match inputPid.filter fun pid => !unconfigured pid with
  | some pid => pid
  | none =>
    if alloc then
      match nv with
      | none => oneosposPidInternal
      | some nv =>
        if unconfigured nv.oneospospid.text then oneosposPidInternal else nv.oneospospid.text
    else []

/-- Which allocations of `cm_lbs_init_oneospos` succeed. -/
structure InitOneosposAlloc where
  pid : Bool
  nvconfig : Bool
  attr : AttrAlloc

/-- `cm_lbs_init_oneospos`; the pid is put together in a buffer of 64 bytes. -/
def initOneospos (nv : Option NvConfig) (alloc : InitOneosposAlloc)
    (sOneosposAttr : Option OneosposAttr) (attr : Option OneosposLocationAttr) :
    Option (Int × Option OneosposAttr) :=
  match attr, sOneosposAttr with
  | none, _ => some (-1, sOneosposAttr)
  | some _, some _ => some (-2, sOneosposAttr)
  | some attr, none =>
    if alloc.pid then do
      let pid ← inBuffer 64 (oneosposPidConfig nv alloc.nvconfig attr.pid)
      match ← createAttr alloc.attr (some pid) none with
      | none => some (-2, none)
      | some client => some (0, some ⟨client.pid, attr.nearbtsEnable⟩)
    else some (-2, none)

/-- What the `void *attr` of `cm_lbs_init` points to. -/
inductive InitAttr where
  | null
  | amap (attr : AmapLocationAttr)
  | oneospos (attr : OneosposLocationAttr)

def InitAttr.toAmap : InitAttr → Option (Option AmapLocationAttr)
  | .null => some none
  | .amap attr => some (some attr)
  | .oneospos _ => none

def InitAttr.toOneospos : InitAttr → Option (Option OneosposLocationAttr)
  | .null => some none
  | .amap _ => none
  | .oneospos attr => some (some attr)

/-- What the environment contributes to `cm_lbs_init`. -/
structure InitEnv where
  task : TaskEnv
  amap : InitAmapAlloc
  oneospos : InitOneosposAlloc

/-- The platforms fall into two families with a back end each. -/
inductive Family where
  | amap
  | oneospos
  deriving DecidableEq, Repr

def family : LocationPlatform → Option Family
  | .amap10 | .amap20 => some .amap
  | .oneospos => some .oneospos
  | .other _ => none

/-- `cm_lbs_init`; the attribute of the other back end is not read as one's own. A new
session record is cleared, its `cb_arg` with it. -/
def cmLbsInit (env : InitEnv) (s : Lbs Arg) (platform : LocationPlatform) (attr : InitAttr) :
    Option (Int × Lbs Arg) :=
  let s := { s with platform := platform }
  match lbsTaskCreate env.task s with
  | (.ok, s) =>
    match family platform with
    | some .amap => do
      let attr ← attr.toAmap
      let (ret, sAmapAttr) ← initAmap env.amap s.amapAttr platform attr
      some (ret, { s with
        amapAttr := sAmapAttr
        amapMsg := if ret = 0 then none else s.amapMsg })
    | some .oneospos => do
      let attr ← attr.toOneospos
      let (ret, sOneosposAttr) ← initOneospos cmLbsReadnvConfig env.oneospos s.oneosposAttr attr
      some (ret, { s with
        oneosposAttr := sOneosposAttr
        oneosposMsg := if ret = 0 then none else s.oneosposMsg })
    | none => some (-1, s)
  | (_, s) => some (-2, s)

/-- What the environment contributes to `cm_lbs_location`. -/
structure LocationEnv where
  netstate : Bool
  msgsnd : Bool

/-- `__cm_lbs_QueueSend` -/
def queueSend (msgsnd : Bool) (s : Lbs Arg) : LbsState × Lbs Arg :=
  match s.cmLbsQueun with
  | none => (.err, s)
  | some n => if msgsnd then (.ok, { s with cmLbsQueun := some (n + 1) }) else (.err, s)

/-- `cm_lbs_location_amap` with a callback -/
def locationAmap (env : LocationEnv) (s : Lbs Arg) (cbArg : Arg) : Int × Lbs Arg :=
  match s.amapAttr with
  | none => (-1, s)
  | some _ =>
    if env.netstate then
      match queueSend env.msgsnd { s with amapMsg := some cbArg } with
      | (.ok, s) => (0, s)
      | (_, s) => (-3, { s with amapAttr := none })
    else (-2, { s with amapAttr := none })

/-- `cm_lbs_location_oneospos` with a callback -/
def locationOneospos (env : LocationEnv) (s : Lbs Arg) (cbArg : Arg) : Int × Lbs Arg :=
  match s.oneosposAttr with
  | none => (-1, s)
  | some _ =>
    if env.netstate then
      match queueSend env.msgsnd { s with oneosposMsg := some cbArg } with
      | (.ok, s) => (0, s)
      | (_, s) => (-3, { s with oneosposAttr := none })
    else (-2, { s with oneosposAttr := none })

/-- `cm_lbs_location` -/
def cmLbsLocation (env : LocationEnv) (s : Lbs Arg) (cbArg : Arg) : Int × Lbs Arg :=
  match family s.platform with
  | some .amap => locationAmap env s cbArg
  | some .oneospos => locationOneospos env s cbArg
  | none => (-1, s)

/-- A session record together with the back end that it is for. -/
inductive Session where
  | amap (attr : AmapAttr)
  | oneospos (attr : OneosposAttr)
  deriving DecidableEq

/-- What the environment contributes to the handling of a message: the UE information
that either back end reads, and the request. -/
structure MessageEnv where
  amapUeinfo : Int32 → Option AmapUeInfo
  amap : AmapEnv
  oneosposUeinfo : Int32 → Option OneosposUeInfo
  oneospos : OneosposEnv

/-- A message that was run: the session record that was used, and the calls of
application callbacks. -/
structure Execution (Arg : Type) where
  session : Session
  calls : List (Arg × Delivery)

/-- The back end's calls, each passed on to the callback of the session. The AT
callbacks end with `cm_lbs_deinit`. -/
def afterCalls (calls : List (Arg × Delivery)) (s : Lbs Arg) : Lbs Arg :=
  if calls = [] then s else s.deinit

/-- `__cm_lbs_amap_callback` calls through the record without a test. -/
def amapCall (s : Lbs Arg) (env : AmapEnv) (call : AmapCall) : Option (Arg × Delivery) := do
  let cbArg ← s.amapMsg
  some (cbArg, lbsAmapCallback env.rsp.lbsLocationRsp call.1 call.2)

/-- `cm_lbs_oneospos_callback` reads the record as well. -/
def oneosposCall (s : Lbs Arg) (env : OneosposEnv) (call : OneosposCall) :
    Option (Arg × Delivery) := do
  let cbArg ← s.oneosposMsg
  let delivery ← lbsOneosposCallback env.rsp.lbsLocationRsp call.1 call.2
  some (cbArg, delivery)

def runAmap (md5 : CStr → Digest) (s : Lbs Arg) (env : MessageEnv) :
    Option (Lbs Arg × Execution Arg) := do
  let attr ← s.amapAttr
  let (backend, a) ← asynLocationAmap md5 s.amap attr.auth (env.amapUeinfo attr.nearbtsEnable)
    env.amap
  let calls ← a.calls.mapM (amapCall s env.amap)
  some (afterCalls calls { s with amap := backend }, ⟨.amap attr, calls⟩)

def runOneospos (s : Lbs Arg) (env : MessageEnv) : Option (Lbs Arg × Execution Arg) := do
  let attr ← s.oneosposAttr
  let (backend, a) ← asynLocationOneospos s.oneospos (some attr.pid)
    (env.oneosposUeinfo attr.nearbtsEnable) env.oneospos
  let calls ← a.calls.mapM (oneosposCall s env.oneospos)
  some (afterCalls calls { s with oneospos := backend }, ⟨.oneospos attr, calls⟩)

/-- `__cm_lbs_asyn_location`; for other platforms the message is gone. -/
def asynLocation (md5 : CStr → Digest) (s : Lbs Arg) (env : MessageEnv) :
    Option (Lbs Arg × Option (Execution Arg)) :=
  match family s.platform with
  | some .amap => (runAmap md5 s env).map fun (s, e) => (s, some e)
  | some .oneospos => (runOneospos s env).map fun (s, e) => (s, some e)
  | none => some (s, none)

/-- What a turn of the task comes to. -/
inductive Turn (Arg : Type) where
  | waits
  | takes (execution : Option (Execution Arg))

/-- `cm_lbs_main_task` for one message, with every message a `CM_LBS_LOCATION`. A task
whose queue could not be created reads through the null handle. -/
def mainTask (md5 : CStr → Digest) (s : Lbs Arg) (env : MessageEnv) :
    Option (Lbs Arg × Turn Arg) :=
  if s.cmLbsTask then
    match s.cmLbsQueun with
    | none => none
    | some 0 => some (s, .waits)
    | some (n + 1) =>
      (asynLocation md5 { s with cmLbsQueun := some n } env).map fun (s, e) => (s, .takes e)
  else some (s, .waits)

theorem runAmap_eq_some_iff {md5 : CStr → Digest} {s t : Lbs Arg} {env : MessageEnv}
    {e : Execution Arg} : runAmap md5 s env = some (t, e) ↔
      ∃ attr backend a calls, s.amapAttr = some attr ∧
        asynLocationAmap md5 s.amap attr.auth (env.amapUeinfo attr.nearbtsEnable) env.amap =
          some (backend, a) ∧
        a.calls.mapM (amapCall s env.amap) = some calls ∧
        t = afterCalls calls { s with amap := backend } ∧ e = ⟨.amap attr, calls⟩ := by
  constructor
  · intro h
    obtain ⟨attr, hattr, h⟩ := Option.bind_eq_some_iff.mp h
    obtain ⟨⟨backend, a⟩, hrun, h⟩ := Option.bind_eq_some_iff.mp h
    obtain ⟨calls, hcalls, h⟩ := Option.bind_eq_some_iff.mp h
    cases h
    exact ⟨attr, backend, a, calls, hattr, hrun, hcalls, rfl, rfl⟩
  · rintro ⟨attr, backend, a, calls, hattr, hrun, hcalls, rfl, rfl⟩
    simp [runAmap, hattr, hrun, hcalls]

theorem runOneospos_eq_some_iff {s t : Lbs Arg} {env : MessageEnv} {e : Execution Arg} :
    runOneospos s env = some (t, e) ↔
      ∃ attr backend a calls, s.oneosposAttr = some attr ∧
        asynLocationOneospos s.oneospos (some attr.pid) (env.oneosposUeinfo attr.nearbtsEnable)
          env.oneospos = some (backend, a) ∧
        a.calls.mapM (oneosposCall s env.oneospos) = some calls ∧
        t = afterCalls calls { s with oneospos := backend } ∧ e = ⟨.oneospos attr, calls⟩ := by
  constructor
  · intro h
    obtain ⟨attr, hattr, h⟩ := Option.bind_eq_some_iff.mp h
    obtain ⟨⟨backend, a⟩, hrun, h⟩ := Option.bind_eq_some_iff.mp h
    obtain ⟨calls, hcalls, h⟩ := Option.bind_eq_some_iff.mp h
    cases h
    exact ⟨attr, backend, a, calls, hattr, hrun, hcalls, rfl, rfl⟩
  · rintro ⟨attr, backend, a, calls, hattr, hrun, hcalls, rfl, rfl⟩
    simp [runOneospos, hattr, hrun, hcalls]

/-- The turns of the task that do not fault. -/
inductive TurnOf (md5 : CStr → Digest) (s : Lbs Arg) (env : MessageEnv) :
    Lbs Arg → Turn Arg → Prop where
  | waits (hidle : s.cmLbsTask = true → s.cmLbsQueun = some 0) : TurnOf md5 s env s .waits
  | discards {n : Nat} (htask : s.cmLbsTask = true) (hqueun : s.cmLbsQueun = some (n + 1))
      (hf : family s.platform = none) :
      TurnOf md5 s env { s with cmLbsQueun := some n } (.takes none)
  | amap {n : Nat} {t : Lbs Arg} {e : Execution Arg} (htask : s.cmLbsTask = true)
      (hqueun : s.cmLbsQueun = some (n + 1)) (hf : family s.platform = some .amap)
      (hrun : runAmap md5 { s with cmLbsQueun := some n } env = some (t, e)) :
      TurnOf md5 s env t (.takes (some e))
  | oneospos {n : Nat} {t : Lbs Arg} {e : Execution Arg} (htask : s.cmLbsTask = true)
      (hqueun : s.cmLbsQueun = some (n + 1)) (hf : family s.platform = some .oneospos)
      (hrun : runOneospos { s with cmLbsQueun := some n } env = some (t, e)) :
      TurnOf md5 s env t (.takes (some e))

theorem mainTask_turnOf {md5 : CStr → Digest} {s t : Lbs Arg} {env : MessageEnv}
    {turn : Turn Arg} (h : mainTask md5 s env = some (t, turn)) : TurnOf md5 s env t turn := by
  simp only [mainTask] at h
  by_cases htask : s.cmLbsTask = true
  swap
  · rw [if_neg htask] at h
    cases h
    exact .waits fun htask' => absurd htask' htask
  rw [if_pos htask] at h
  split at h
  · cases h
  · rename_i hqueun
    cases h
    exact .waits fun _ => hqueun
  rename_i n hqueun
  obtain ⟨⟨u, e⟩, hasyn, heq⟩ := Option.map_eq_some_iff.mp h
  cases heq
  simp only [asynLocation] at hasyn
  split at hasyn
  · rename_i hf
    obtain ⟨⟨u, e⟩, hrun, heq⟩ := Option.map_eq_some_iff.mp hasyn
    cases heq
    exact .amap htask hqueun hf hrun
  · rename_i hf
    obtain ⟨⟨u, e⟩, hrun, heq⟩ := Option.map_eq_some_iff.mp hasyn
    cases heq
    exact .oneospos htask hqueun hf hrun
  · rename_i hf
    cases hasyn
    exact .discards htask hqueun hf

/-- A turn in which the task runs a session. -/
theorem mainTask_eq_takes {md5 : CStr → Digest} {s t : Lbs Arg} {env : MessageEnv}
    {e : Execution Arg} (h : mainTask md5 s env = some (t, .takes (some e))) :
    ∃ n, s.cmLbsTask = true ∧ s.cmLbsQueun = some (n + 1) ∧
      ((family s.platform = some .amap ∧
          runAmap md5 { s with cmLbsQueun := some n } env = some (t, e)) ∨
        (family s.platform = some .oneospos ∧
          runOneospos { s with cmLbsQueun := some n } env = some (t, e))) := by
  cases mainTask_turnOf h with
  | @amap n _ _ htask hqueun hf hrun => exact ⟨n, htask, hqueun, Or.inl ⟨hf, hrun⟩⟩
  | @oneospos n _ _ htask hqueun hf hrun => exact ⟨n, htask, hqueun, Or.inr ⟨hf, hrun⟩⟩

end LbsApi
