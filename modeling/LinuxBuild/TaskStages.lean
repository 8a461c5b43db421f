import LinuxBuild.LbsEffects
import LinuxBuild.PartialRun

/-!
# The stages of the LBS task

Other threads call the public functions while the task is at work, and so does the
callback that the task runs. The task looks at the statics several times for one
message: when it dispatches it, when it has read the UE information, when a request
was refused, and once more for the second platform test, which follows the first one
without an `else`.
-/
namespace TaskStages
open CString LbsTypes AmapParse OneosposParse LocationDelivery BackendTypes AmapRequest
open AmapBackend OneosposBackend LbsTask LbsApi RequestLife LbsEffects PartialRun

variable {Arg : Type}

/-- Where the task is: in `__cm_lbs_QueueRev`, reading the UE information for a session,
behind a request that the back end refused, inside a callback of the application, or
between the platform tests of `__cm_lbs_asyn_location`. -/
inductive Stage where
  | waiting
  | reading (f : Family) (nearbtsEnable : Int32)
  | failed (f : Family)
  | calling (f : Family)
  | secondTest
  deriving DecidableEq, Repr

structure Service (Arg : Type) where
  lbs : Lbs Arg
  stage : Stage

def Service.start : Service Arg := ⟨.start, .waiting⟩

def sessionNearbtsEnable : Session → Int32
  | .amap attr => attr.nearbtsEnable
  | .oneospos attr => attr.nearbtsEnable

/-- The first line of either `cm_lbs_asyn_location` function reads its session record. -/
def startSession (s : Lbs Arg) (f : Family) : Option (Service Arg) := do
  let session ← record s f
  some ⟨s, .reading f (sessionNearbtsEnable session)⟩

/-- A turn of `cm_lbs_main_task` up to the dispatch of the message. -/
def receive (s : Lbs Arg) : Option (Service Arg) :=
  if s.cmLbsTask then
    match s.cmLbsQueun with
    | none => none
    | some 0 => some ⟨s, .waiting⟩
    | some (n + 1) =>
      match family s.platform with
      | some f => startSession { s with cmLbsQueun := some n } f
      | none => some ⟨{ s with cmLbsQueun := some n }, .waiting⟩
  else some ⟨s, .waiting⟩

/-- The back end has returned something else than `CM_LBS_OK`. -/
def refused {Rsp Call : Type} (a : Answer Rsp Call) : Bool :=
  match a.outcome with
  | some outcome => outcome.ret ≠ .ok
  | none => false

abbrev StageResult (Arg : Type) := Service Arg × Option (Arg × Delivery)

/-- `cm_lbs_asyn_location_amap` from the UE information on. -/
def workAmap (md5 : CStr → Digest) (s : Lbs Arg) (nearbtsEnable : Int32) (env : MessageEnv) :
    Option (StageResult Arg) := do
  let attr ← s.amapAttr
  let (backend, a) ← asynLocationAmap md5 s.amap attr.auth (env.amapUeinfo nearbtsEnable) env.amap
  if refused a then some (⟨{ s with amap := backend }, .failed .amap⟩, none)
  else do
    let calls ← a.calls.mapM (amapCall s env.amap)
    some (⟨{ s with amap := backend }, if calls = [] then .secondTest else .calling .amap⟩,
      calls.head?)

/-- `cm_lbs_asyn_location_oneospos` from the UE information on. -/
def workOneospos (s : Lbs Arg) (nearbtsEnable : Int32) (env : MessageEnv) :
    Option (StageResult Arg) := do
  let attr ← s.oneosposAttr
  let (backend, a) ← asynLocationOneospos s.oneospos (some attr.pid)
    (env.oneosposUeinfo nearbtsEnable) env.oneospos
  if refused a then some (⟨{ s with oneospos := backend }, .failed .oneospos⟩, none)
  else do
    let calls ← a.calls.mapM (oneosposCall s env.oneospos)
    some (⟨{ s with oneospos := backend }, if calls = [] then .waiting else .calling .oneospos⟩,
      calls.head?)

/-- The report of a refused request reads `cb_arg` from the session record. -/
def reportAmap (s : Lbs Arg) (env : MessageEnv) :
    Option (StageResult Arg) := do
  let _ ← s.amapAttr
  let call ← amapCall s env.amap (.unknownErr, none)
  some (⟨s, .calling .amap⟩, some call)

def reportOneospos (s : Lbs Arg) (env : MessageEnv) :
    Option (StageResult Arg) := do
  let _ ← s.oneosposAttr
  let call ← oneosposCall s env.oneospos (.unknow, none)
  some (⟨s, .calling .oneospos⟩, some call)

/-- What the task does next, with what it reports to the application on the way.
`cm_lbs_oneospos_callback` ends with the release of the session record. -/
def taskStep (md5 : CStr → Digest) (s : Service Arg) (env : MessageEnv) :
    Option (StageResult Arg) :=
  match s.stage with
  | .waiting => (receive s.lbs).map (·, none)
  | .reading .amap nearbtsEnable => workAmap md5 s.lbs nearbtsEnable env
  | .reading .oneospos nearbtsEnable => workOneospos s.lbs nearbtsEnable env
  | .failed .amap => reportAmap s.lbs env
  | .failed .oneospos => reportOneospos s.lbs env
  | .calling .amap => some (⟨s.lbs, .secondTest⟩, none)
  | .calling .oneospos => some (⟨{ s.lbs with oneosposAttr := none }, .waiting⟩, none)
  | .secondTest =>
    if s.lbs.platform = .oneospos then (startSession s.lbs .oneospos).map (·, none)
    else some (⟨s.lbs, .waiting⟩, none)

inductive ServiceInput (Arg : Type) where
  | init (env : InitEnv) (platform : LocationPlatform) (attr : InitAttr)
  | location (env : LocationEnv) (cb : Option Arg)
  | deinit
  | task (env : MessageEnv)

inductive ServiceOutput (Arg : Type) where
  | returned (code : Int)
  | deinited
  | task (call : Option (Arg × Delivery))

/-- A public call by any thread, or the next step of the task. -/
def serviceStep (md5 : CStr → Digest) (s : Service Arg) :
    ServiceInput Arg → Option (Service Arg × ServiceOutput Arg)
  | .init env platform attr =>
    (cmLbsInit env s.lbs platform attr).map fun (code, lbs) => (⟨lbs, s.stage⟩, .returned code)
  | .location env cb =>
    let (code, lbs) := locationCall env s.lbs cb
    some (⟨lbs, s.stage⟩, .returned code)
  | .deinit => some (⟨s.lbs.deinit, s.stage⟩, .deinited)
  | .task env => (taskStep md5 s env).map fun (t, call) => (t, .task call)

abbrev ServiceTrace (Arg : Type) := List (ServiceInput Arg × ServiceOutput Arg)

/-- What the task leaves of the statics while it works on a request. -/
structure Worked (s t : Lbs Arg) : Prop where
  platform : t.platform = s.platform
  task : t.cmLbsTask = s.cmLbsTask
  queun : t.cmLbsQueun = s.cmLbsQueun
  records : ∀ g, record t g = record s g
  settled : Settled t.amap t.oneospos

/-- The steps of the task that do not fault. -/
inductive StageStep (s : Service Arg) : Service Arg → Prop where
  | idles (hstage : s.stage = .waiting)
      (hidle : s.lbs.cmLbsTask = true → s.lbs.cmLbsQueun = some 0) : StageStep s s
  | discards {n : Nat} (hstage : s.stage = .waiting) (hqueun : s.lbs.cmLbsQueun = some (n + 1))
      (hf : family s.lbs.platform = none) :
      StageStep s ⟨{ s.lbs with cmLbsQueun := some n }, .waiting⟩
  | receives {n : Nat} {f : Family} {session : Session} (hstage : s.stage = .waiting)
      (hqueun : s.lbs.cmLbsQueun = some (n + 1)) (hf : family s.lbs.platform = some f)
      (hrecord : record s.lbs f = some session) :
      StageStep s ⟨{ s.lbs with cmLbsQueun := some n },
        .reading f (sessionNearbtsEnable session)⟩
  | fails {f : Family} {nearbtsEnable : Int32} {t : Lbs Arg}
      (hstage : s.stage = .reading f nearbtsEnable) (hrecord : record s.lbs f ≠ none)
      (hworked : Worked s.lbs t) : StageStep s ⟨t, .failed f⟩
  | calls {f : Family} {nearbtsEnable : Int32} {t : Lbs Arg}
      (hstage : s.stage = .reading f nearbtsEnable) (hrecord : record s.lbs f ≠ none)
      (hworked : Worked s.lbs t) : StageStep s ⟨t, .calling f⟩
  | reports {f : Family} (hstage : s.stage = .failed f) (hrecord : record s.lbs f ≠ none) :
      StageStep s ⟨s.lbs, .calling f⟩
  | returnsAmap (hstage : s.stage = .calling .amap) : StageStep s ⟨s.lbs, .secondTest⟩
  | returnsOneospos (hstage : s.stage = .calling .oneospos) :
      StageStep s ⟨{ s.lbs with oneosposAttr := none }, .waiting⟩
  | continues {session : Session} (hstage : s.stage = .secondTest)
      (hplatform : s.lbs.platform = .oneospos) (hrecord : record s.lbs .oneospos = some session) :
      StageStep s ⟨s.lbs, .reading .oneospos (sessionNearbtsEnable session)⟩
  | ends (hstage : s.stage = .secondTest) (hplatform : s.lbs.platform ≠ .oneospos) :
      StageStep s ⟨s.lbs, .waiting⟩

theorem startSession_eq_some {s : Lbs Arg} {f : Family} {t : Service Arg}
    (h : startSession s f = some t) :
    ∃ session, record s f = some session ∧ t = ⟨s, .reading f (sessionNearbtsEnable session)⟩ := by
  obtain ⟨session, hrecord, h⟩ := Option.bind_eq_some_iff.mp h
  cases h
  exact ⟨session, hrecord, rfl⟩

theorem receive_cases {s : Service Arg} {t : Service Arg} (hstage : s.stage = .waiting)
    (h : receive s.lbs = some t) : StageStep s t := by
  have hs : (⟨s.lbs, .waiting⟩ : Service Arg) = s := by rw [← hstage]
  simp only [receive] at h
  split_ifs at h with htask
  · split at h
    · cases h
    · rename_i hqueun
      cases h
      rw [hs]
      exact .idles hstage fun _ => hqueun
    · rename_i n hqueun
      split at h
      · rename_i f hf
        obtain ⟨session, hrecord, rfl⟩ := startSession_eq_some h
        have hrecord' : record s.lbs f = some session := by
          cases f <;> exact hrecord
        exact .receives hstage hqueun hf hrecord'
      · rename_i hf
        cases h
        exact .discards hstage hqueun hf
  · cases h
    rw [hs]
    exact .idles hstage fun h => absurd h htask

theorem worked_amap {s : Lbs Arg} {backend : AmapState} (hs : Settled s.amap s.oneospos)
    (hbackend : backend.callbackState = true → backend.client ≠ none) :
    Worked s { s with amap := backend } where
  platform := rfl
  task := rfl
  queun := rfl
  records g := by cases g <;> rfl
  settled := ⟨hbackend, hs.oneospos⟩

theorem worked_oneospos {s : Lbs Arg} {backend : OneosposState}
    (hs : Settled s.amap s.oneospos)
    (hbackend : backend.callbackState = true → backend.busy = true) :
    Worked s { s with oneospos := backend } where
  platform := rfl
  task := rfl
  queun := rfl
  records g := by cases g <;> rfl
  settled := ⟨hs.amap, hbackend⟩

theorem mapM_singleton_eq_some {α β : Type} {f : α → Option β} {a : α} {bs : List β}
    (h : [a].mapM f = some bs) : ∃ b, f a = some b ∧ bs = [b] := by
  rw [List.mapM_cons] at h
  obtain ⟨b, hb, h⟩ := Option.bind_eq_some_iff.mp h
  cases h
  exact ⟨b, hb, rfl⟩

theorem workAmap_cases {md5 : CStr → Digest} {s : Service Arg} {nearbtsEnable : Int32}
    {env : MessageEnv} {t : Service Arg} {call : Option (Arg × Delivery)}
    (hs : Settled s.lbs.amap s.lbs.oneospos) (hstage : s.stage = .reading .amap nearbtsEnable)
    (h : workAmap md5 s.lbs nearbtsEnable env = some (t, call)) : StageStep s t := by
  obtain ⟨attr, hattr, h⟩ := Option.bind_eq_some_iff.mp h
  obtain ⟨⟨backend, a⟩, hrun, h⟩ := Option.bind_eq_some_iff.mp h
  obtain ⟨⟨c, hcalls⟩, hbackend⟩ := asynLocationAmap_one_call hs.amap hrun
  have hrecord : record s.lbs .amap ≠ none := by simp [record, hattr]
  have hworked := worked_amap hs hbackend
  dsimp only at h
  split_ifs at h
  · cases h
    exact .fails hstage hrecord hworked
  · obtain ⟨calls, hmap, h⟩ := Option.bind_eq_some_iff.mp h
    rw [hcalls] at hmap
    obtain ⟨delivered, -, rfl⟩ := mapM_singleton_eq_some hmap
    cases h
    exact .calls hstage hrecord hworked

theorem workOneospos_cases {s : Service Arg} {nearbtsEnable : Int32} {env : MessageEnv}
    {t : Service Arg} {call : Option (Arg × Delivery)} (hs : Settled s.lbs.amap s.lbs.oneospos)
    (hstage : s.stage = .reading .oneospos nearbtsEnable)
    (h : workOneospos s.lbs nearbtsEnable env = some (t, call)) : StageStep s t := by
  obtain ⟨attr, hattr, h⟩ := Option.bind_eq_some_iff.mp h
  obtain ⟨⟨backend, a⟩, hrun, h⟩ := Option.bind_eq_some_iff.mp h
  obtain ⟨⟨c, hcalls, -⟩, hbackend⟩ := asynLocationOneospos_one_call hs.oneospos hrun
  have hrecord : record s.lbs .oneospos ≠ none := by simp [record, hattr]
  have hworked := worked_oneospos hs hbackend
  dsimp only at h
  split_ifs at h
  · cases h
    exact .fails hstage hrecord hworked
  · obtain ⟨calls, hmap, h⟩ := Option.bind_eq_some_iff.mp h
    rw [hcalls] at hmap
    obtain ⟨delivered, -, rfl⟩ := mapM_singleton_eq_some hmap
    cases h
    exact .calls hstage hrecord hworked

theorem taskStep_cases {md5 : CStr → Digest} {s t : Service Arg} {env : MessageEnv}
    {call : Option (Arg × Delivery)} (hs : Settled s.lbs.amap s.lbs.oneospos)
    (h : taskStep md5 s env = some (t, call)) : StageStep s t := by
  simp only [taskStep] at h
  split at h
  · rename_i hstage
    obtain ⟨u, hreceive, heq⟩ := Option.map_eq_some_iff.mp h
    cases heq
    exact receive_cases hstage hreceive
  · rename_i hstage
    exact workAmap_cases hs hstage h
  · rename_i hstage
    exact workOneospos_cases hs hstage h
  · rename_i hstage
    obtain ⟨attr, hattr, h⟩ := Option.bind_eq_some_iff.mp h
    obtain ⟨c, -, h⟩ := Option.bind_eq_some_iff.mp h
    cases h
    exact .reports hstage (by simp [record, hattr])
  · rename_i hstage
    obtain ⟨attr, hattr, h⟩ := Option.bind_eq_some_iff.mp h
    obtain ⟨c, -, h⟩ := Option.bind_eq_some_iff.mp h
    cases h
    exact .reports hstage (by simp [record, hattr])
  · rename_i hstage
    cases h
    exact .returnsAmap hstage
  · rename_i hstage
    cases h
    exact .returnsOneospos hstage
  · rename_i hstage
    split_ifs at h with hplatform
    · obtain ⟨u, hstart, heq⟩ := Option.map_eq_some_iff.mp h
      cases heq
      obtain ⟨session, hrecord, rfl⟩ := startSession_eq_some hstart
      exact .continues hstage hplatform hrecord
    · cases h
      exact .ends hstage hplatform

/-- What every reachable state satisfies. -/
structure Sound (s : Service Arg) : Prop where
  task : s.lbs.cmLbsQueun ≠ none → s.lbs.cmLbsTask = true
  queun : s.stage ≠ .waiting → s.lbs.cmLbsQueun ≠ none
  settled : Settled s.lbs.amap s.lbs.oneospos

theorem Sound.start : Sound (Service.start : Service Arg) :=
  ⟨fun h => absurd rfl h, fun h => absurd rfl h, Idle.start.settled⟩

theorem Sound.of_stageStep {s t : Service Arg} (h : Sound s) (hstep : StageStep s t) :
    Sound t := by
  cases hstep with
  | idles hstage hidle => exact h
  | discards hstage hqueun hf =>
    exact ⟨fun _ => h.task (by simp [hqueun]), fun hne => absurd rfl hne, h.settled⟩
  | receives hstage hqueun hf hrecord =>
    exact ⟨fun _ => h.task (by simp [hqueun]), fun _ => Option.some_ne_none _, h.settled⟩
  | fails hstage hrecord hworked | calls hstage hrecord hworked =>
    refine ⟨?_, fun _ => ?_, hworked.settled⟩
    · rw [hworked.queun, hworked.task]
      exact h.task
    · rw [hworked.queun]
      exact h.queun (by simp [hstage])
  | reports hstage => exact ⟨h.task, fun _ => h.queun (by simp [hstage]), h.settled⟩
  | returnsAmap hstage => exact ⟨h.task, fun _ => h.queun (by simp [hstage]), h.settled⟩
  | returnsOneospos hstage => exact ⟨h.task, fun hne => absurd rfl hne, h.settled⟩
  | continues hstage => exact ⟨h.task, fun _ => h.queun (by simp [hstage]), h.settled⟩
  | ends hstage => exact ⟨h.task, fun hne => absurd rfl hne, h.settled⟩

theorem Sound.of_init {s : Service Arg} (h : Sound s) {env : InitEnv}
    {platform : LocationPlatform} {attr : InitAttr} {ret : Int} {t : Lbs Arg}
    (heffect : InitEffect env s.lbs platform attr ret t) : Sound ⟨t, s.stage⟩ := by
  constructor
  · intro hqueun
    rw [heffect.queun] at hqueun
    simp only [heffect.task, Bool.or_eq_true]
    by_contra hnot
    simp only [not_or] at hnot
    simp only [queunAfter, if_neg hnot.1, if_neg hnot.2] at hqueun
    exact hnot.1 (h.task hqueun)
  · intro hstage
    have hqueun := h.queun hstage
    simp only [heffect.queun, queunAfter, h.task hqueun, if_true]
    exact hqueun
  · simp only [heffect.amap, heffect.oneospos]
    exact h.settled

theorem Sound.of_location {s : Service Arg} (h : Sound s) {env : LocationEnv}
    {cb : Option Arg} {t : Lbs Arg} (heffect : LocationEffect env cb s.lbs t) :
    Sound ⟨t, s.stage⟩ := by
  cases heffect with
  | refuses => exact h
  | sends hf hrecord hsends hplatform htask hbefore hqueun hrecords hamap honeospos =>
    refine ⟨?_, ?_, ?_⟩
    · simp only [hqueun, htask]
      exact fun _ => h.task (by simp [hbefore])
    · simp [hqueun]
    · simp only [hamap, honeospos]
      exact h.settled
  | drops hf hrecord hcallback hfails hplatform htask hqueun hrecords hamap honeospos =>
    refine ⟨?_, ?_, ?_⟩
    · simp only [hqueun, htask]
      exact h.task
    · simp only [hqueun]
      exact h.queun
    · simp only [hamap, honeospos]
      exact h.settled

theorem Sound.step {md5 : CStr → Digest} {s t : Service Arg} {i : ServiceInput Arg}
    {o : ServiceOutput Arg} (h : Sound s) (hstep : serviceStep md5 s i = some (t, o)) :
    Sound t := by
  cases i with
  | init env platform attr =>
    obtain ⟨⟨ret, lbs⟩, hinit, heq⟩ := Option.map_eq_some_iff.mp hstep
    cases heq
    exact h.of_init (cmLbsInit_effect hinit)
  | location env cb =>
    cases hstep
    exact h.of_location (locationCall_effect env s.lbs cb)
  | deinit =>
    cases hstep
    exact ⟨h.task, h.queun, h.settled⟩
  | task env =>
    obtain ⟨⟨u, call⟩, htask, heq⟩ := Option.map_eq_some_iff.mp hstep
    cases heq
    exact h.of_stageStep (taskStep_cases h.settled htask)

theorem sound_of_run {md5 : CStr → Digest}
    {ok : ServiceTrace Arg → Service Arg → ServiceInput Arg → Prop} {trace : ServiceTrace Arg}
    {s : Service Arg} (h : Run (serviceStep md5) ok .start trace s) : Sound s :=
  @Run.invariant _ _ _ _ _ _ (fun _ => Sound) .start (fun hs _ hstep => hs.step hstep) _ _ h

/-- A request that was refused is reported with the failure alone. -/
theorem answer_calls_of_refused {Rsp Call : Type} {hit : Rsp → Call} {failure : Call}
    {outcome : Outcome Rsp Call} (h : refused (answer hit failure outcome) = true) :
    (answer hit failure outcome).calls = [failure] := by
  have hret : outcome.ret ≠ .ok := by simpa [refused, answer] using h
  refine answer_calls_of_failure hret ?_
  cases outcome with
  | busy | noClient ret | failed ret => rfl
  | cached old rsp | response call | ended => exact absurd rfl hret

/-- The task's steps and the calls of `cm_lbs_deinit` in between. -/
def OwnSteps (env : MessageEnv) (trace : ServiceTrace Arg) : Prop :=
  ∀ entry ∈ trace, entry.1 = .task env ∨ entry.1 = .deinit

theorem OwnSteps.snoc {env : MessageEnv} {trace : ServiceTrace Arg} (h : OwnSteps env trace)
    {i : ServiceInput Arg} (hi : i = .task env ∨ i = .deinit) (o : ServiceOutput Arg) :
    OwnSteps env (trace ++ [(i, o)]) := by
  intro entry hentry
  rcases List.mem_append.mp hentry with hmem | hmem
  · exact h entry hmem
  · cases List.mem_singleton.mp hmem
    exact hi

/-- `t` is reached from `s` by steps of the task and calls of `cm_lbs_deinit`. -/
def Reaches (md5 : CStr → Digest) (env : MessageEnv) (s t : Service Arg) : Prop :=
  ∃ trace, Run (serviceStep md5) (fun _ _ _ => True) s trace t ∧ OwnSteps env trace

theorem Reaches.refl (md5 : CStr → Digest) (env : MessageEnv) (s : Service Arg) :
    Reaches md5 env s s :=
  ⟨[], .start, fun _ h => nomatch h⟩

theorem Reaches.task {md5 : CStr → Digest} {env : MessageEnv} {s t u : Service Arg}
    {call : Option (Arg × Delivery)} (h : Reaches md5 env s t)
    (hstep : taskStep md5 t env = some (u, call)) : Reaches md5 env s u := by
  obtain ⟨trace, hrun, hown⟩ := h
  have hservice : serviceStep md5 t (.task env) = some (u, .task call) := by
    simp [serviceStep, hstep]
  exact ⟨_, hrun.snoc trivial hservice, hown.snoc (Or.inl rfl) _⟩

theorem Reaches.deinit {md5 : CStr → Digest} {env : MessageEnv} {s t : Service Arg}
    (h : Reaches md5 env s t) : Reaches md5 env s ⟨t.lbs.deinit, t.stage⟩ := by
  obtain ⟨trace, hrun, hown⟩ := h
  exact ⟨_, hrun.snoc (i := .deinit) trivial rfl, hown.snoc (Or.inr rfl) _⟩

theorem startSession_of_record {s : Lbs Arg} {f : Family} {session : Session}
    (h : record s f = some session) :
    startSession s f = some ⟨s, .reading f (sessionNearbtsEnable session)⟩ := by
  simp [startSession, h]

/-- The message is dispatched to the session of the selected platform. -/
theorem Reaches.dispatch {md5 : CStr → Digest} {env : MessageEnv} {start : Service Arg}
    {s : Lbs Arg} (h : Reaches md5 env start ⟨s, .waiting⟩) {n : Nat} {f : Family}
    {session : Session} (htask : s.cmLbsTask = true) (hqueun : s.cmLbsQueun = some (n + 1))
    (hf : family s.platform = some f) (hrecord : record s f = some session) :
    Reaches md5 env start
      ⟨{ s with cmLbsQueun := some n }, .reading f (sessionNearbtsEnable session)⟩ := by
  have hstart : startSession { s with cmLbsQueun := some n } f = some
      ⟨{ s with cmLbsQueun := some n }, .reading f (sessionNearbtsEnable session)⟩ := by
    apply startSession_of_record
    cases f <;> exact hrecord
  have hreceive : receive s = startSession { s with cmLbsQueun := some n } f := by
    simp [receive, htask, hqueun, hf]
  have hstep : taskStep md5 ⟨s, .waiting⟩ env = some
      (⟨{ s with cmLbsQueun := some n }, .reading f (sessionNearbtsEnable session)⟩, none) := by
    simp only [taskStep]
    rw [hreceive, hstart]
    rfl
  exact h.task hstep

theorem reportAmap_of_call {s : Lbs Arg} {env : MessageEnv} {attr : LbsSession.AmapAttr}
    {delivered : Arg × Delivery} (hattr : s.amapAttr = some attr)
    (hcall : amapCall s env.amap (.unknownErr, none) = some delivered) :
    reportAmap s env = some (⟨s, .calling .amap⟩, some delivered) := by
  simp [reportAmap, hattr, hcall]

theorem reportOneospos_of_call {s : Lbs Arg} {env : MessageEnv} {attr : OneosposAttr}
    {delivered : Arg × Delivery} (hattr : s.oneosposAttr = some attr)
    (hcall : oneosposCall s env.oneospos (.unknow, none) = some delivered) :
    reportOneospos s env = some (⟨s, .calling .oneospos⟩, some delivered) := by
  simp [reportOneospos, hattr, hcall]

/-- The work on a session of AMAP comes to a call of its callback. -/
theorem Reaches.workAmap {md5 : CStr → Digest} {env : MessageEnv} {start : Service Arg}
    {s : Lbs Arg} {attr : LbsSession.AmapAttr} {backend : AmapState} {a : AmapAnswer}
    {calls : List (Arg × Delivery)}
    (h : Reaches md5 env start ⟨s, .reading .amap attr.nearbtsEnable⟩)
    (hs : Settled s.amap s.oneospos) (hattr : s.amapAttr = some attr)
    (hrun : asynLocationAmap md5 s.amap attr.auth (env.amapUeinfo attr.nearbtsEnable) env.amap =
      some (backend, a)) (hcalls : a.calls.mapM (amapCall s env.amap) = some calls) :
    calls ≠ [] ∧ Reaches md5 env start ⟨{ s with amap := backend }, .calling .amap⟩ := by
  obtain ⟨⟨c, hc⟩, -⟩ := asynLocationAmap_one_call hs.amap hrun
  have hmap := hcalls
  rw [hc] at hmap
  obtain ⟨delivered, hdelivered, rfl⟩ := mapM_singleton_eq_some hmap
  refine ⟨List.cons_ne_nil _ _, ?_⟩
  have hwork : TaskStages.workAmap md5 s attr.nearbtsEnable env =
      if refused a = true then some (⟨{ s with amap := backend }, .failed .amap⟩, none)
      else some (⟨{ s with amap := backend }, .calling .amap⟩, some delivered) := by
    rw [TaskStages.workAmap, hattr]
    simp only [Option.bind_eq_bind, Option.bind_some]
    rw [hrun]
    simp only [Option.bind_some]
    rw [hcalls]
    rfl
  by_cases hrefused : refused a = true
  · rw [if_pos hrefused] at hwork
    have hfailure : c = (.unknownErr, none) := by
      rcases asynLocationAmap_cases hrun with ⟨-, ⟨_, rfl⟩, -⟩ | ⟨_, _, outcome, -, -, -, -, rfl⟩
      · exact absurd hrefused Bool.false_ne_true
      · exact List.singleton_inj.mp (hc.symm.trans (answer_calls_of_refused hrefused))
    subst hfailure
    have hreport := @reportAmap_of_call _ { s with amap := backend } env attr delivered hattr
      hdelivered
    exact (h.task hwork).task hreport
  · rw [if_neg hrefused] at hwork
    exact h.task hwork

/-- The work on a session of OneOS comes to a call of its callback. -/
theorem Reaches.workOneospos {md5 : CStr → Digest} {env : MessageEnv} {start : Service Arg}
    {s : Lbs Arg} {attr : OneosposAttr} {backend : OneosposState} {a : OneosposAnswer}
    {calls : List (Arg × Delivery)}
    (h : Reaches md5 env start ⟨s, .reading .oneospos attr.nearbtsEnable⟩)
    (hs : Settled s.amap s.oneospos) (hattr : s.oneosposAttr = some attr)
    (hrun : asynLocationOneospos s.oneospos (some attr.pid)
      (env.oneosposUeinfo attr.nearbtsEnable) env.oneospos = some (backend, a))
    (hcalls : a.calls.mapM (oneosposCall s env.oneospos) = some calls) :
    calls ≠ [] ∧ Reaches md5 env start ⟨{ s with oneospos := backend }, .calling .oneospos⟩ := by
  obtain ⟨⟨c, hc, -⟩, -⟩ := asynLocationOneospos_one_call hs.oneospos hrun
  have hmap := hcalls
  rw [hc] at hmap
  obtain ⟨delivered, hdelivered, rfl⟩ := mapM_singleton_eq_some hmap
  refine ⟨List.cons_ne_nil _ _, ?_⟩
  have hwork : TaskStages.workOneospos s attr.nearbtsEnable env =
      if refused a = true then some (⟨{ s with oneospos := backend }, .failed .oneospos⟩, none)
      else some (⟨{ s with oneospos := backend }, .calling .oneospos⟩, some delivered) := by
    rw [TaskStages.workOneospos, hattr]
    simp only [Option.bind_eq_bind, Option.bind_some]
    rw [hrun]
    simp only [Option.bind_some]
    rw [hcalls]
    rfl
  by_cases hrefused : refused a = true
  · rw [if_pos hrefused] at hwork
    have hfailure : c = (.unknow, none) := by
      rcases asynLocationOneospos_cases hrun with ⟨-, ⟨_, rfl⟩, -⟩ | ⟨_, outcome, -, -, rfl⟩
      · exact absurd hrefused Bool.false_ne_true
      · exact List.singleton_inj.mp (hc.symm.trans (answer_calls_of_refused hrefused))
    subst hfailure
    have hreport := @reportOneospos_of_call _ { s with oneospos := backend } env attr delivered
      hattr hdelivered
    exact (h.task hwork).task hreport
  · rw [if_neg hrefused] at hwork
    exact h.task hwork

/-- A turn of the task with a callback that ends in `cm_lbs_deinit` is a run of its
stages. -/
theorem mainTask_reaches {md5 : CStr → Digest} {env : MessageEnv} {s t : Lbs Arg}
    {e : Execution Arg} (hs : Settled s.amap s.oneospos)
    (h : mainTask md5 s env = some (t, .takes (some e))) :
    Reaches md5 env ⟨s, .waiting⟩ ⟨t, .waiting⟩ := by
  obtain ⟨n, htask, hqueun, ⟨hf, hrun⟩ | ⟨hf, hrun⟩⟩ := mainTask_eq_takes h
  · obtain ⟨attr, backend, a, calls, hattr, hasyn, hcalls, rfl, -⟩ :=
      runAmap_eq_some_iff.mp hrun
    have hrecord : record s .amap = some (.amap attr) :=
      Option.map_eq_some_iff.mpr ⟨attr, hattr, rfl⟩
    have hreading := (Reaches.refl md5 env ⟨s, .waiting⟩).dispatch htask hqueun hf hrecord
    obtain ⟨hne, hcalling⟩ := hreading.workAmap hs hattr hasyn hcalls
    rw [afterCalls, if_neg hne]
    have hplatform : s.platform ≠ .oneospos := by
      intro honeospos
      rw [honeospos] at hf
      cases hf
    have hreturn : ∀ u : Lbs Arg, taskStep md5 ⟨u, .calling .amap⟩ env =
        some (⟨u, .secondTest⟩, none) := fun _ => rfl
    have hend : ∀ u : Lbs Arg, u.platform ≠ .oneospos →
        taskStep md5 ⟨u, .secondTest⟩ env = some (⟨u, .waiting⟩, none) :=
      fun _ h => if_neg h
    exact (hcalling.deinit.task (hreturn _)).task (hend _ hplatform)
  · obtain ⟨attr, backend, a, calls, hattr, hasyn, hcalls, rfl, -⟩ :=
      runOneospos_eq_some_iff.mp hrun
    have hrecord : record s .oneospos = some (.oneospos attr) :=
      Option.map_eq_some_iff.mpr ⟨attr, hattr, rfl⟩
    have hreading := (Reaches.refl md5 env ⟨s, .waiting⟩).dispatch htask hqueun hf hrecord
    obtain ⟨hne, hcalling⟩ := hreading.workOneospos hs hattr hasyn hcalls
    rw [afterCalls, if_neg hne]
    have hreturn : ∀ u : Lbs Arg, taskStep md5 ⟨u, .calling .oneospos⟩ env =
        some (⟨{ u with oneosposAttr := none }, .waiting⟩, none) := fun _ => rfl
    exact hcalling.deinit.task (hreturn _)

end TaskStages
