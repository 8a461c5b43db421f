import LinuxBuild.LbsApi

/-!
# The life of a request

Between the calls of the service a request is in one of two states: there is none, or
there is one, with its message in the queue, its session record in the static of its
back end, its argument in the callback record, and its platform selected.
-/
namespace RequestLife
open CString LbsTypes AmapParse OneosposParse LocationDelivery BackendTypes AmapRequest
open LbsSession AmapBackend OneosposBackend LbsTask LbsApi

variable {Arg : Type}

/-- The session record of a back end. -/
def record (s : Lbs Arg) : Family → Option Session
  | .amap => s.amapAttr.map .amap
  | .oneospos => s.oneosposAttr.map .oneospos

/-- The argument that the callback of a back end would be given. -/
def msg (s : Lbs Arg) : Family → Option Arg
  | .amap => s.amapMsg
  | .oneospos => s.oneosposMsg

/-- A back end that has an answer that did not end is busy. -/
structure Settled (amap : AmapState) (oneospos : OneosposState) : Prop where
  amap : amap.callbackState = true → amap.client ≠ none
  oneospos : oneospos.callbackState = true → oneospos.busy = true

/-- The session record of `f` is `session`, and the other back end has none. -/
def Holds (s : Lbs Arg) (f : Family) (session : Session) : Prop :=
  ∀ g, record s g = if g = f then some session else none

/-- No request. -/
structure Idle (s : Lbs Arg) : Prop where
  queued : s.queued = 0
  record : ∀ f, record s f = none
  settled : Settled s.amap s.oneospos

/-- The request that `cm_lbs_init` prepared. -/
structure Initialised (s : Lbs Arg) (f : Family) (session : Session) : Prop where
  platform : family s.platform = some f
  task : s.cmLbsTask = true
  queued : s.queued = 0
  holds : Holds s f session
  settled : Settled s.amap s.oneospos

/-- The request that `cm_lbs_location` sent. -/
structure Pending (s : Lbs Arg) (f : Family) (cbArg : Arg) (session : Session) : Prop where
  platform : family s.platform = some f
  task : s.cmLbsTask = true
  queun : s.cmLbsQueun = some 1
  holds : Holds s f session
  msg : msg s f = some cbArg
  settled : Settled s.amap s.oneospos

theorem Idle.start : Idle (Lbs.start : Lbs Arg) where
  queued := rfl
  record f := by cases f <;> rfl
  settled := ⟨fun h => Bool.noConfusion h, fun h => Bool.noConfusion h⟩

/-- What `cm_lbs_task_create` leaves. -/
theorem lbsTaskCreate_idle {env : TaskEnv} {s t : Lbs Arg} {ret : LbsState} (hs : Idle s)
    (h : lbsTaskCreate env s = (ret, t)) :
    Idle t ∧ t.platform = s.platform ∧ (ret = .ok → t.cmLbsTask = true) := by
  simp only [lbsTaskCreate] at h
  split_ifs at h with htask
  · cases h
    exact ⟨hs, rfl, fun _ => htask⟩
  · cases h
    exact ⟨⟨rfl, hs.record, hs.settled.1, hs.settled.2⟩, rfl, fun _ => rfl⟩
  · cases h
    exact ⟨⟨rfl, hs.record, hs.settled.1, hs.settled.2⟩, rfl, fun _ => rfl⟩
  · cases h
    exact ⟨hs, rfl, fun h => LbsState.noConfusion h⟩

/-- With no session record, `cm_lbs_init_amap` creates one exactly when it returns 0. -/
theorem initAmap_none {alloc : InitAmapAlloc} {platform : LocationPlatform}
    {attr : Option AmapLocationAttr} {ret : Int} {session : Option AmapAttr}
    (h : initAmap alloc none platform attr = some (ret, session)) :
    (ret = 0 ∧ ∃ attr, session = some attr) ∨ (ret ≠ 0 ∧ session = none) := by
  simp only [initAmap] at h
  split at h
  · rename_i hnone
    cases hnone
  · cases h
    exact Or.inr ⟨by decide, rfl⟩
  · split_ifs at h
    · obtain ⟨auth, -, h⟩ := Option.bind_eq_some_iff.mp h
      cases h
      exact Or.inl ⟨rfl, _, rfl⟩
    · cases h
      exact Or.inr ⟨by decide, rfl⟩

theorem initOneospos_none {nv : Option NvConfig} {alloc : InitOneosposAlloc}
    {attr : Option OneosposLocationAttr} {ret : Int} {session : Option OneosposAttr}
    (h : initOneospos nv alloc none attr = some (ret, session)) :
    (ret = 0 ∧ ∃ attr, session = some attr) ∨ (ret ≠ 0 ∧ session = none) := by
  simp only [initOneospos] at h
  split at h
  · cases h
    exact Or.inr ⟨by decide, rfl⟩
  · rename_i hnone
    cases hnone
  · split_ifs at h
    · obtain ⟨pid, -, h⟩ := Option.bind_eq_some_iff.mp h
      obtain ⟨created, -, h⟩ := Option.bind_eq_some_iff.mp h
      cases created with
      | none =>
        cases h
        exact Or.inr ⟨by decide, rfl⟩
      | some client =>
        cases h
        exact Or.inl ⟨rfl, _, rfl⟩
    · cases h
      exact Or.inr ⟨by decide, rfl⟩

theorem Idle.amapAttr {s : Lbs Arg} (h : Idle s) : s.amapAttr = none :=
  Option.map_eq_none_iff.mp (h.record .amap)

theorem Idle.oneosposAttr {s : Lbs Arg} (h : Idle s) : s.oneosposAttr = none :=
  Option.map_eq_none_iff.mp (h.record .oneospos)

/-- The session record that `cm_lbs_init` creates when there is none. -/
def created (env : InitEnv) (platform : LocationPlatform) (attr : InitAttr) : Option Session :=
  match family platform with
  | some .amap => do
    let attr ← attr.toAmap
    let (_, session) ← initAmap env.amap none platform attr
    session.map .amap
  | some .oneospos => do
    let attr ← attr.toOneospos
    let (_, session) ← initOneospos cmLbsReadnvConfig env.oneospos none attr
    session.map .oneospos
  | none => none

/-- A new session record makes a prepared request of no request. -/
theorem Idle.prepare_amap {s : Lbs Arg} (hs : Idle s) (hplatform : family s.platform = some .amap)
    (htask : s.cmLbsTask = true) (attr : AmapAttr) (arg : Option Arg) :
    Initialised { s with amapAttr := some attr, amapMsg := arg } .amap (.amap attr) := by
  refine ⟨hplatform, htask, hs.queued, ?_, hs.settled⟩
  rintro (_ | _)
  · rfl
  · exact hs.record .oneospos

theorem Idle.prepare_oneospos {s : Lbs Arg} (hs : Idle s)
    (hplatform : family s.platform = some .oneospos) (htask : s.cmLbsTask = true)
    (attr : OneosposAttr) (arg : Option Arg) :
    Initialised { s with oneosposAttr := some attr, oneosposMsg := arg } .oneospos
      (.oneospos attr) := by
  refine ⟨hplatform, htask, hs.queued, ?_, hs.settled⟩
  rintro (_ | _)
  · exact hs.record .amap
  · rfl

/-- Without a session record of its own a platform adds nothing. -/
theorem Idle.without_amap {s : Lbs Arg} (hs : Idle s) (arg : Option Arg) :
    Idle { s with amapAttr := none, amapMsg := arg } := by
  refine ⟨hs.queued, ?_, hs.settled⟩
  rintro (_ | _)
  · rfl
  · exact hs.record .oneospos

theorem Idle.without_oneospos {s : Lbs Arg} (hs : Idle s) (arg : Option Arg) :
    Idle { s with oneosposAttr := none, oneosposMsg := arg } := by
  refine ⟨hs.queued, ?_, hs.settled⟩
  rintro (_ | _)
  · exact hs.record .amap
  · rfl

/-- Without a request, `cm_lbs_init` prepares one exactly when it returns 0. -/
theorem cmLbsInit_idle {env : InitEnv} {s t : Lbs Arg} {platform : LocationPlatform}
    {attr : InitAttr} {ret : Int} (hs : Idle s)
    (h : cmLbsInit env s platform attr = some (ret, t)) :
    (ret = 0 ∧ ∃ f session, Initialised t f session ∧
      created env platform attr = some session) ∨ (ret ≠ 0 ∧ Idle t) := by
  simp only [cmLbsInit] at h
  rcases hcreate : lbsTaskCreate env.task { s with platform := platform } with ⟨state, u⟩
  rw [hcreate] at h
  have hs' : Idle { s with platform := platform } := ⟨hs.queued, hs.record, hs.settled⟩
  obtain ⟨hu, hplatform, htask⟩ := lbsTaskCreate_idle hs' hcreate
  split at h
  · rename_i heq
    cases heq
    split at h
    · rename_i hfamily
      obtain ⟨attr', hattr, h⟩ := Option.bind_eq_some_iff.mp h
      obtain ⟨⟨ret', session⟩, hinit, h⟩ := Option.bind_eq_some_iff.mp h
      cases h
      rw [hu.amapAttr] at hinit
      rcases initAmap_none hinit with ⟨rfl, session, rfl⟩ | ⟨hret, rfl⟩
      · have hu_family := (congrArg family hplatform).trans hfamily
        refine Or.inl ⟨rfl, .amap, .amap session, hu.prepare_amap hu_family (htask rfl) _ _, ?_⟩
        simp [created, hfamily, hattr, hinit]
      · exact Or.inr ⟨hret, hu.without_amap _⟩
    · rename_i hfamily
      obtain ⟨attr', hattr, h⟩ := Option.bind_eq_some_iff.mp h
      obtain ⟨⟨ret', session⟩, hinit, h⟩ := Option.bind_eq_some_iff.mp h
      cases h
      rw [hu.oneosposAttr] at hinit
      rcases initOneospos_none hinit with ⟨rfl, session, rfl⟩ | ⟨hret, rfl⟩
      · have hu_family := (congrArg family hplatform).trans hfamily
        refine Or.inl ⟨rfl, .oneospos, .oneospos session,
          hu.prepare_oneospos hu_family (htask rfl) _ _, ?_⟩
        simp [created, hfamily, hattr, hinit]
      · exact Or.inr ⟨hret, hu.without_oneospos _⟩
    · cases h
      exact Or.inr ⟨by decide, hu⟩
  · rename_i heq
    cases heq
    cases h
    exact Or.inr ⟨by decide, hu⟩

/-- While a request is pending, `cm_lbs_init` refuses another one of its family. -/
theorem cmLbsInit_pending {env : InitEnv} {s t : Lbs Arg} {platform : LocationPlatform}
    {attr : InitAttr} {ret : Int} {f : Family} {cbArg : Arg} {session : Session}
    (hs : Pending s f cbArg session) (hfamily : family platform = some f)
    (h : cmLbsInit env s platform attr = some (ret, t)) :
    ret ≠ 0 ∧ Pending t f cbArg session := by
  have hcreate : lbsTaskCreate env.task { s with platform := platform } =
      (.ok, { s with platform := platform }) := if_pos hs.task
  simp only [cmLbsInit, hcreate, hfamily] at h
  have hbusy : (-2 : Int) ≠ 0 := by decide
  cases f with
  | amap =>
    obtain ⟨attr', -, h⟩ := Option.bind_eq_some_iff.mp h
    obtain ⟨⟨ret', session'⟩, hinit, h⟩ := Option.bind_eq_some_iff.mp h
    obtain ⟨old, hold, -⟩ := Option.map_eq_some_iff.mp (hs.holds .amap)
    obtain ⟨rfl, rfl⟩ : ret' = -2 ∧ session' = s.amapAttr := by
      simp only [initAmap, hold] at hinit ⊢
      cases hinit
      exact ⟨rfl, rfl⟩
    cases h
    exact ⟨hbusy, hfamily, hs.task, hs.queun, hs.holds, hs.msg, hs.settled⟩
  | oneospos =>
    obtain ⟨attr', -, h⟩ := Option.bind_eq_some_iff.mp h
    obtain ⟨⟨ret', session'⟩, hinit, h⟩ := Option.bind_eq_some_iff.mp h
    obtain ⟨old, hold, -⟩ := Option.map_eq_some_iff.mp (hs.holds .oneospos)
    obtain ⟨hret, rfl⟩ : ret' ≠ 0 ∧ session' = s.oneosposAttr := by
      simp only [initOneospos, hold] at hinit ⊢
      cases attr' <;> cases hinit <;> exact ⟨by decide, rfl⟩
    cases h
    refine ⟨hret, hfamily, hs.task, hs.queun, hs.holds, ?_, hs.settled⟩
    exact (if_neg hret).trans hs.msg

theorem queueSend_empty {msgsnd : Bool} {s : Lbs Arg} (hs : s.queued = 0) :
    queueSend msgsnd s = (.ok, { s with cmLbsQueun := some 1 }) ∨
      queueSend msgsnd s = (.err, s) := by
  simp only [queueSend]
  split
  · exact Or.inr rfl
  · rename_i n hn
    have hzero : n = 0 := by simpa [Lbs.queued, hn] using hs
    subst hzero
    cases msgsnd
    · exact Or.inr rfl
    · exact Or.inl rfl

/-- Without its session record a prepared request is gone. -/
theorem Initialised.drop_amap {s : Lbs Arg} {session : Session}
    (h : Initialised s .amap session) (arg : Option Arg) :
    Idle { s with amapAttr := none, amapMsg := arg } := by
  refine ⟨h.queued, ?_, h.settled⟩
  rintro (_ | _)
  · rfl
  · exact h.holds .oneospos

theorem Initialised.drop_oneospos {s : Lbs Arg} {session : Session}
    (h : Initialised s .oneospos session) (arg : Option Arg) :
    Idle { s with oneosposAttr := none, oneosposMsg := arg } := by
  refine ⟨h.queued, ?_, h.settled⟩
  rintro (_ | _)
  · exact h.holds .amap
  · rfl

/-- `cm_lbs_location` sends the prepared request, or drops it. -/
theorem cmLbsLocation_initialised {env : LocationEnv} {s t : Lbs Arg} {cbArg : Arg} {ret : Int}
    {f : Family} {session : Session} (hs : Initialised s f session)
    (h : cmLbsLocation env s cbArg = (ret, t)) :
    (ret = 0 ∧ Pending t f cbArg session) ∨ (ret ≠ 0 ∧ Idle t) := by
  simp only [cmLbsLocation, hs.platform] at h
  cases f with
  | amap =>
    obtain ⟨attr, hattr, -⟩ := Option.map_eq_some_iff.mp (hs.holds .amap)
    simp only [locationAmap, hattr] at h
    split at h
    · rcases @queueSend_empty Arg env.msgsnd { s with amapMsg := some cbArg } hs.queued with
        hsend | hsend
      · rw [← hattr, hsend] at h
        cases h
        exact Or.inl ⟨rfl, hs.platform, hs.task, rfl, hs.holds, rfl, hs.settled⟩
      · rw [← hattr, hsend] at h
        cases h
        exact Or.inr ⟨by decide, hs.drop_amap (some cbArg)⟩
    · cases h
      exact Or.inr ⟨by decide, hs.drop_amap s.amapMsg⟩
  | oneospos =>
    obtain ⟨attr, hattr, -⟩ := Option.map_eq_some_iff.mp (hs.holds .oneospos)
    simp only [locationOneospos, hattr] at h
    split at h
    · rcases @queueSend_empty Arg env.msgsnd { s with oneosposMsg := some cbArg } hs.queued with
        hsend | hsend
      · rw [← hattr, hsend] at h
        cases h
        exact Or.inl ⟨rfl, hs.platform, hs.task, rfl, hs.holds, rfl, hs.settled⟩
      · rw [← hattr, hsend] at h
        cases h
        exact Or.inr ⟨by decide, hs.drop_oneospos (some cbArg)⟩
    · cases h
      exact Or.inr ⟨by decide, hs.drop_oneospos s.oneosposMsg⟩

/-- Without a request the task waits. -/
theorem mainTask_idle {md5 : CStr → Digest} {env : MessageEnv} {s t : Lbs Arg} {turn : Turn Arg}
    (hs : Idle s) (h : mainTask md5 s env = some (t, turn)) : t = s ∧ turn = .waits := by
  have hqueued := hs.queued
  cases mainTask_turnOf h with
  | waits => exact ⟨rfl, rfl⟩
  | discards _ hqueun | amap _ hqueun | oneospos _ hqueun =>
    simp [Lbs.queued, hqueun] at hqueued

/-- The back end's part in the request of a session; it may fault on its own. -/
def backendRuns (md5 : CStr → Digest) (s : Lbs Arg) (env : MessageEnv) : Session → Bool
  | .amap attr => (asynLocationAmap md5 s.amap attr.auth (env.amapUeinfo attr.nearbtsEnable)
      env.amap).isSome
  | .oneospos attr => (asynLocationOneospos s.oneospos (some attr.pid)
      (env.oneosposUeinfo attr.nearbtsEnable) env.oneospos).isSome

/-- `t` and `execution` are what comes of the pending request when the task takes its
message: one call of its callback, from its back end and its session record. -/
def Answers (cbArg : Arg) (session : Session) (t : Lbs Arg) (turn : Turn Arg) : Prop :=
  Idle t ∧ ∃ delivery, turn = .takes (some ⟨session, [(cbArg, delivery)]⟩)

/-- After the callback of a session there is no session record. -/
theorem idle_deinit {s : Lbs Arg} (hqueued : s.queued = 0)
    (hsettled : Settled s.amap s.oneospos) : Idle s.deinit := by
  refine ⟨hqueued, ?_, hsettled⟩
  rintro (_ | _) <;> rfl

theorem runAmap_answers {md5 : CStr → Digest} {env : MessageEnv} {s : Lbs Arg} {cbArg : Arg}
    {session : Session} (hqueued : s.queued = 0) (hholds : Holds s .amap session)
    (hmsg : s.amapMsg = some cbArg) (hsettled : Settled s.amap s.oneospos)
    (hruns : backendRuns md5 s env session = true) :
    ∃ t execution, runAmap md5 s env = some (t, execution) ∧
      Answers cbArg session t (.takes (some execution)) := by
  obtain ⟨attr, hattr, rfl⟩ := Option.map_eq_some_iff.mp (hholds .amap)
  obtain ⟨⟨backend, a⟩, hrun⟩ := Option.isSome_iff_exists.mp hruns
  obtain ⟨⟨call, hcalls⟩, hbusy⟩ := asynLocationAmap_one_call hsettled.amap hrun
  have hidle : Idle ({ s with amap := backend } : Lbs Arg).deinit :=
    idle_deinit hqueued ⟨hbusy, hsettled.oneospos⟩
  have h : runAmap md5 s env = some (({ s with amap := backend } : Lbs Arg).deinit,
      ⟨.amap attr, [(cbArg, lbsAmapCallback env.amap.rsp.lbsLocationRsp call.1 call.2)]⟩) := by
    simp [runAmap, hattr, hrun, hcalls, amapCall, hmsg, afterCalls]
  exact ⟨_, _, h, hidle, _, rfl⟩

theorem runOneospos_answers {md5 : CStr → Digest} {env : MessageEnv} {s : Lbs Arg} {cbArg : Arg}
    {session : Session} (hqueued : s.queued = 0) (hholds : Holds s .oneospos session)
    (hmsg : s.oneosposMsg = some cbArg) (hsettled : Settled s.amap s.oneospos)
    (hruns : backendRuns md5 s env session = true) :
    ∃ t execution, runOneospos s env = some (t, execution) ∧
      Answers cbArg session t (.takes (some execution)) := by
  obtain ⟨attr, hattr, rfl⟩ := Option.map_eq_some_iff.mp (hholds .oneospos)
  obtain ⟨⟨backend, a⟩, hrun⟩ := Option.isSome_iff_exists.mp hruns
  obtain ⟨⟨call, hcalls, hpasses⟩, hbusy⟩ :=
    asynLocationOneospos_one_call hsettled.oneospos hrun
  obtain ⟨delivery, hdelivery⟩ :=
    Option.ne_none_iff_exists'.mp (hpasses env.oneospos.rsp.lbsLocationRsp)
  have hidle : Idle ({ s with oneospos := backend } : Lbs Arg).deinit :=
    idle_deinit hqueued ⟨hsettled.amap, hbusy⟩
  have h : runOneospos s env = some (({ s with oneospos := backend } : Lbs Arg).deinit,
      ⟨.oneospos attr, [(cbArg, delivery)]⟩) := by
    simp [runOneospos, hattr, hrun, hcalls, oneosposCall, hmsg, hdelivery, afterCalls]
  exact ⟨_, _, h, hidle, _, rfl⟩

/-- With a request pending the task takes its message. -/
theorem mainTask_takes {md5 : CStr → Digest} {env : MessageEnv} {s : Lbs Arg} {f : Family}
    {cbArg : Arg} {session : Session} (hs : Pending s f cbArg session) :
    mainTask md5 s env = (asynLocation md5 { s with cmLbsQueun := some 0 } env).map
      fun (t, e) => (t, .takes e) := by
  simp only [mainTask]
  rw [if_pos hs.task]
  simp only [hs.queun]

/-- The task answers the pending request, unless the back end faults. -/
theorem mainTask_pending {md5 : CStr → Digest} {env : MessageEnv} {s : Lbs Arg} {f : Family}
    {cbArg : Arg} {session : Session} (hs : Pending s f cbArg session)
    (hruns : backendRuns md5 s env session = true) :
    ∃ t turn, mainTask md5 s env = some (t, turn) ∧ Answers cbArg session t turn := by
  have hqueued : ({ s with cmLbsQueun := some 0 } : Lbs Arg).queued = 0 := rfl
  rw [mainTask_takes hs]
  simp only [asynLocation, hs.platform]
  cases f with
  | amap =>
    obtain ⟨t, execution, h, hanswers⟩ :=
      runAmap_answers hqueued hs.holds hs.msg hs.settled hruns
    exact ⟨t, _, by rw [h]; rfl, hanswers⟩
  | oneospos =>
    obtain ⟨t, execution, h, hanswers⟩ :=
      runOneospos_answers hqueued hs.holds hs.msg hs.settled hruns
    exact ⟨t, _, by rw [h]; rfl, hanswers⟩

/-- A turn of the task that does not fault needs a back end that does not. -/
theorem backendRuns_of_mainTask {md5 : CStr → Digest} {env : MessageEnv} {s t : Lbs Arg}
    {f : Family} {cbArg : Arg} {session : Session} {turn : Turn Arg}
    (hs : Pending s f cbArg session) (h : mainTask md5 s env = some (t, turn)) :
    backendRuns md5 s env session = true := by
  cases mainTask_turnOf h with
  | waits hidle => exact absurd (hs.queun.symm.trans (hidle hs.task)) (by simp)
  | discards _ _ hf => exact absurd (hs.platform.symm.trans hf) (Option.some_ne_none f)
  | amap _ _ hf hrun =>
    cases hs.platform.symm.trans hf
    obtain ⟨attr, hattr, rfl⟩ := Option.map_eq_some_iff.mp (hs.holds .amap)
    obtain ⟨attr', backend, a, calls, hattr', hasyn, -⟩ := runAmap_eq_some_iff.mp hrun
    cases hattr.symm.trans hattr'
    exact Option.isSome_iff_exists.mpr ⟨_, hasyn⟩
  | oneospos _ _ hf hrun =>
    cases hs.platform.symm.trans hf
    obtain ⟨attr, hattr, rfl⟩ := Option.map_eq_some_iff.mp (hs.holds .oneospos)
    obtain ⟨attr', backend, a, calls, hattr', hasyn, -⟩ := runOneospos_eq_some_iff.mp hrun
    cases hattr.symm.trans hattr'
    exact Option.isSome_iff_exists.mpr ⟨_, hasyn⟩

theorem mainTask_answers {md5 : CStr → Digest} {env : MessageEnv} {s t : Lbs Arg} {f : Family}
    {cbArg : Arg} {session : Session} {turn : Turn Arg} (hs : Pending s f cbArg session)
    (h : mainTask md5 s env = some (t, turn)) : Answers cbArg session t turn := by
  obtain ⟨t', turn', h', hanswers⟩ := mainTask_pending hs (backendRuns_of_mainTask hs h)
  cases h.symm.trans h'
  exact hanswers

end RequestLife
