import LinuxBuild.AtRequests
import LinuxBuild.BackendIdle
import LinuxBuild.LbsEffects
import LinuxBuild.RecordLedger

/-!
# Who releases the UE information

The task obtains a record of UE information for every request. A local variable holds
it first, then the session record as well; the callback of the session ends with
`cm_lbs_deinit`, which releases it through the session record.
-/
namespace UeLedger
open CString LbsTypes AtLocation AmapParse OneosposParse LocationDelivery BackendTypes AmapRequest
open LbsSession AmapBackend OneosposBackend LbsTask LbsApi RequestLife LbsEffects AtRequests
open PartialRun RecordLedger

variable {Arg : Type}

/-- The member `ueinfo` of both session records, `none` also without a session record. -/
structure UeInfos where
  ledger : Ledger
  ueinfo : Family → Option Nat

def UeInfos.start : UeInfos := ⟨.empty, fun _ => none⟩

/-- `cm_amap_free_ueinfo` and `cm_oneospos_free_ueinfo` -/
def freeUeinfo (ueInfo : Option Nat) (u : UeInfos) : UeInfos :=
  { u with ledger := u.ledger.release ueInfo }

/-- `ueinfo` of the session record of `f` is stored. -/
def setUeinfo (f : Family) (ueInfo : Option Nat) (u : UeInfos) : UeInfos :=
  { u with ueinfo := Function.update u.ueinfo f ueInfo }

/-- `__cm_lbs_s_amap_attr_free` and `__cm_lbs_s_oneospos_attr_free` -/
def attrFree (f : Family) (u : UeInfos) : UeInfos :=
  setUeinfo f none (freeUeinfo (u.ueinfo f) u)

/-- `cm_lbs_deinit` -/
def deinit (u : UeInfos) : UeInfos := attrFree .oneospos (attrFree .amap u)

/-- The callback of a session, which calls `cm_lbs_atcmd_callback`. That of OneOS
releases its session record once more. -/
def callback : Family → UeInfos → UeInfos
  | .amap, u => deinit u
  | .oneospos, u => attrFree .oneospos (deinit u)

/-- `cm_amap_get_ueinfo` and `cm_oneospos_get_ueinfo` -/
def getUeinfo (u : UeInfos) : Nat × UeInfos :=
  (u.ledger.obtain.1, { u with ledger := u.ledger.obtain.2 })

/-- From the call of the location function on: the callback that the back end calls, and
the report of a request that failed. -/
def afterLocation (f : Family) (ueInfo : Nat) (called : Bool) (ret : LbsState) (u : UeInfos) :
    UeInfos :=
  let u := if called then callback f u else u
  if ret = .ok then u else freeUeinfo (some ueInfo) (callback f u)

/-- `cm_lbs_asyn_location_amap` with the UE information -/
def asynLocationAmap (md5 : CStr → Digest) (u : UeInfos) (s : AmapState)
    (auth : AmapAuthentication) (ueInfo : Option AmapUeInfo) (env : AmapEnv) :
    Option (UeInfos × AmapState × AmapAnswer) :=
  match ueInfo with
  | none => some (freeUeinfo none (callback .amap u), s, ⟨none, [(.getUeinfoFail, none)]⟩)
  | some ue => do
    let (ueInfo, u) := getUeinfo u
    let apikey ← auth.apikey
    if amapKeyFilter apikey = .ok then do
      let u := setUeinfo .amap (some ueInfo) u
      let (s, outcome) ← amapLocation md5 s auth ue env
      some (afterLocation .amap ueInfo (outcome.call amapHit).isSome outcome.ret u, s,
        answer amapHit (.unknownErr, none) outcome)
    else
      some (freeUeinfo (some ueInfo) (callback .amap u), s, ⟨none, [(.apikeyFobiden, none)]⟩)

/-- `cm_lbs_asyn_location_oneospos` with the UE information -/
def asynLocationOneospos (u : UeInfos) (s : OneosposState) (pid : Option CStr)
    (ueInfo : Option OneosposUeInfo) (env : OneosposEnv) :
    Option (UeInfos × OneosposState × OneosposAnswer) :=
  match ueInfo with
  | none => some (freeUeinfo none (callback .oneospos u), s, ⟨none, [(.ueinfoFail, none)]⟩)
  | some ue => do
    let (ueInfo, u) := getUeinfo u
    let u := setUeinfo .oneospos (some ueInfo) u
    let (s, outcome) ← oneosposLocation s pid ue env
    some (afterLocation .oneospos ueInfo (outcome.call oneosposHit).isSome outcome.ret u, s,
      answer oneosposHit (.unknow, none) outcome)

/-- `cm_lbs_main_task` with the UE information -/
def mainTask (md5 : CStr → Digest) (u : UeInfos) (s : Lbs Arg) (env : MessageEnv) :
    Option UeInfos :=
  if s.cmLbsTask = true ∧ 0 < s.queued then
    match family s.platform with
    | some .amap => do
      let attr ← s.amapAttr
      (asynLocationAmap md5 u s.amap attr.auth (env.amapUeinfo attr.nearbtsEnable)
        env.amap).map Prod.fst
    | some .oneospos => do
      let attr ← s.oneosposAttr
      (asynLocationOneospos u s.oneospos (some attr.pid) (env.oneosposUeinfo attr.nearbtsEnable)
        env.oneospos).map Prod.fst
    | none => some u
  else some u

/-- `cm_lbs_init`, which clears a new session record, then `cm_lbs_location`, which
releases a session record whose message cannot be sent. -/
def initAndLocate (env : MlbslocEnv) (u : UeInfos) (s : Lbs Arg) (platform : LocationPlatform)
    (attr : InitAttr) (cbArg : Arg) : Option UeInfos := do
  let (initRet, s) ← cmLbsInit env.init s platform attr
  match family platform with
  | none => some u
  | some f =>
    if initRet = 0 then
      let u := setUeinfo f none u
      let (res, _) := cmLbsLocation env.location s cbArg
      some (if res = -2 ∨ res = -3 then attrFree f u else u)
    else some u

/-- `cm_lbs_atcmd_MLBSLOC` with the UE information -/
def mlbsloc (env : MlbslocEnv) (dir : AtConfig.ConfigDir) (u : UeInfos) (s : Lbs Arg)
    (cbArg : Arg) : Option UeInfos :=
  if env.cfg && env.netstate then
    match mlbslocAttr dir with
    | some attr => initAndLocate env u s (AtConfig.atcmdGetplatform dir) attr cbArg
    | none => some u
  else some u

/-- The service with the UE information. -/
structure UeState (Arg : Type) where
  base : AtState Arg
  ue : UeInfos

def UeState.start (dir : AtConfig.ConfigDir) : UeState Arg := ⟨.start dir, .start⟩

/-- What a step does to the UE information. -/
def ueAfter (md5 : CStr → Digest) (s : UeState Arg) : AtInput Arg → Option UeInfos
  | .mlbsloc cbArg env => mlbsloc env s.base.dir s.ue s.base.lbs cbArg
  | .mlbscfg _ => some s.ue
  | .task env => mainTask md5 s.ue s.base.lbs env

def ueStep (md5 : CStr → Digest) (s : UeState Arg) (i : AtInput Arg) :
    Option (UeState Arg × AtOutput Arg) := do
  let (base, o) ← atStep md5 s.base i
  let ue ← ueAfter md5 s i
  some (⟨base, ue⟩, o)

variable {md5 : CStr → Digest} {u u' : UeInfos} {f : Family}

/-- The UE information is watched alone: the back end and its answer are those of the
task. -/
theorem asynLocationAmap_snd {s : AmapState} {auth : AmapAuthentication}
    {ueInfo : Option AmapUeInfo} {env : AmapEnv} :
    (asynLocationAmap md5 u s auth ueInfo env).map Prod.snd =
      LbsTask.asynLocationAmap md5 s auth ueInfo env := by
  cases ueInfo with
  | none => rfl
  | some ue =>
    simp only [asynLocationAmap, LbsTask.asynLocationAmap, getUeinfo]
    cases auth.apikey with
    | none => rfl
    | some apikey =>
      simp only [Option.bind_eq_bind, Option.bind_some]
      split_ifs
      · cases amapLocation md5 s auth ue env <;> rfl
      · rfl

theorem asynLocationOneospos_snd {s : OneosposState} {pid : Option CStr}
    {ueInfo : Option OneosposUeInfo} {env : OneosposEnv} :
    (asynLocationOneospos u s pid ueInfo env).map Prod.snd =
      LbsTask.asynLocationOneospos s pid ueInfo env := by
  cases ueInfo with
  | none => rfl
  | some ue =>
    simp only [asynLocationOneospos, LbsTask.asynLocationOneospos, getUeinfo]
    cases oneosposLocation s pid ue env <;> rfl

/-- What the task does with a message. -/
inductive Runs (md5 : CStr → Digest) (s : Lbs Arg) (env : MessageEnv) (t : Lbs Arg) : Prop where
  | waits (hwaits : ¬ (s.cmLbsTask = true ∧ 0 < s.queued)) (hamap : t.amap = s.amap)
      (honeospos : t.oneospos = s.oneospos)
  | discards (hf : family s.platform = none) (hamap : t.amap = s.amap)
      (honeospos : t.oneospos = s.oneospos)
  | amap {attr : AmapAttr} {a : AmapAnswer} (htakes : s.cmLbsTask = true ∧ 0 < s.queued)
      (hf : family s.platform = some .amap) (hattr : s.amapAttr = some attr)
      (hrun : LbsTask.asynLocationAmap md5 s.amap attr.auth (env.amapUeinfo attr.nearbtsEnable)
        env.amap = some (t.amap, a)) (honeospos : t.oneospos = s.oneospos)
  | oneospos {attr : OneosposAttr} {a : OneosposAnswer}
      (htakes : s.cmLbsTask = true ∧ 0 < s.queued) (hf : family s.platform = some .oneospos)
      (hattr : s.oneosposAttr = some attr)
      (hrun : LbsTask.asynLocationOneospos s.oneospos (some attr.pid)
        (env.oneosposUeinfo attr.nearbtsEnable) env.oneospos = some (t.oneospos, a))
      (hamap : t.amap = s.amap)

theorem afterCalls_backends {calls : List (Arg × Delivery)} {s : Lbs Arg} :
    (afterCalls calls s).amap = s.amap ∧ (afterCalls calls s).oneospos = s.oneospos := by
  simp only [afterCalls]
  split_ifs
  · exact ⟨rfl, rfl⟩
  · exact ⟨rfl, rfl⟩

theorem mainTask_runs {s t : Lbs Arg} {env : MessageEnv} {turn : Turn Arg}
    (h : LbsApi.mainTask md5 s env = some (t, turn)) : Runs md5 s env t := by
  have htakes : ∀ {n}, s.cmLbsTask = true → s.cmLbsQueun = some (n + 1) →
      s.cmLbsTask = true ∧ 0 < s.queued :=
    fun htask hqueun => ⟨htask, by simp [Lbs.queued, hqueun]⟩
  cases mainTask_turnOf h with
  | waits hidle =>
    refine .waits (fun hw => ?_) rfl rfl
    have hqueued : s.queued = 0 := by simp [Lbs.queued, hidle hw.1]
    omega
  | discards _ _ hf => exact .discards hf rfl rfl
  | @amap n _ _ htask hqueun hf hrun =>
    obtain ⟨attr, backend, a, calls, hattr, hasyn, -, rfl, -⟩ := runAmap_eq_some_iff.mp hrun
    obtain ⟨hamap, honeospos⟩ :=
      @afterCalls_backends _ calls { s with cmLbsQueun := some n, amap := backend }
    exact .amap (htakes htask hqueun) hf hattr (by rw [hamap]; exact hasyn) honeospos
  | @oneospos n _ _ htask hqueun hf hrun =>
    obtain ⟨attr, backend, a, calls, hattr, hasyn, -, rfl, -⟩ := runOneospos_eq_some_iff.mp hrun
    obtain ⟨hamap, honeospos⟩ :=
      @afterCalls_backends _ calls { s with cmLbsQueun := some n, oneospos := backend }
    exact .oneospos (htakes htask hqueun) hf hattr (by rw [honeospos]; exact hasyn) hamap

theorem mainTask_isSome {s t : Lbs Arg} {env : MessageEnv} {turn : Turn Arg}
    (h : LbsApi.mainTask md5 s env = some (t, turn)) : ∃ u', mainTask md5 u s env = some u' := by
  cases mainTask_runs h with
  | waits hwaits => exact ⟨u, if_neg hwaits⟩
  | discards hf =>
    refine ⟨u, ?_⟩
    simp only [mainTask, hf, ite_self]
  | amap htakes hf hattr hrun =>
    rw [← @asynLocationAmap_snd md5 u] at hrun
    obtain ⟨r, hr, -⟩ := Option.map_eq_some_iff.mp hrun
    refine ⟨r.1, ?_⟩
    simp only [mainTask, if_pos htakes, hf, hattr, Option.bind_eq_bind, Option.bind_some, hr,
      Option.map_some]
  | oneospos htakes hf hattr hrun =>
    rw [← @asynLocationOneospos_snd u] at hrun
    obtain ⟨r, hr, -⟩ := Option.map_eq_some_iff.mp hrun
    refine ⟨r.1, ?_⟩
    simp only [mainTask, if_pos htakes, hf, hattr, Option.bind_eq_bind, Option.bind_some, hr,
      Option.map_some]

/-- A command with everything that it needs before `cm_lbs_init` is its end. -/
theorem mlbsloc_eq {env : MlbslocEnv} {dir : AtConfig.ConfigDir} {s : Lbs Arg} {cbArg : Arg}
    {attr : InitAttr} (henv : (env.cfg && env.netstate) = true)
    (hattr : mlbslocAttr dir = some attr) :
    AtRequests.mlbsloc env dir s cbArg =
      AtRequests.initAndLocate env s (AtConfig.atcmdGetplatform dir) attr cbArg := by
  obtain ⟨hcfg, hnet⟩ := Bool.and_eq_true_iff.mp henv
  simp only [mlbslocAttr] at hattr
  simp only [AtRequests.mlbsloc]
  split_ifs at hattr ⊢ with hplatform
  · cases hattr
    simp only [oneosposMlbsloc, hcfg, hnet, if_true, hplatform]
  · simp only [amapMlbsloc, hcfg, hnet, if_true]
    cases hamap : amapMlbslocAttr cmLbsReadnvConfig dir with
    | error e =>
      rw [hamap] at hattr
      cases hattr
    | ok a =>
      rw [hamap] at hattr
      cases hattr
      rfl

theorem mlbsloc_isSome {env : MlbslocEnv} {dir : AtConfig.ConfigDir} {s : Lbs Arg} {cbArg : Arg}
    {r : Lbs Arg × AtcmdErrcode} (h : AtRequests.mlbsloc env dir s cbArg = some r) :
    ∃ u', mlbsloc env dir u s cbArg = some u' := by
  simp only [mlbsloc]
  split_ifs with henv
  · cases hattr : mlbslocAttr dir with
    | none => exact ⟨u, rfl⟩
    | some attr =>
      rw [mlbsloc_eq henv hattr] at h
      obtain ⟨⟨initRet, t⟩, hinit, -⟩ := Option.bind_eq_some_iff.mp h
      simp only [initAndLocate, hinit, Option.bind_eq_bind, Option.bind_some]
      split
      · exact ⟨u, rfl⟩
      · by_cases hret : initRet = 0
        · exact ⟨_, if_pos hret⟩
        · exact ⟨u, if_neg hret⟩
  · exact ⟨u, rfl⟩

/-- The ledger only watches: the service takes the steps that it takes without it. -/
theorem ueStep_base {s : UeState Arg} {i : AtInput Arg} :
    (ueStep md5 s i).map (fun r => (r.1.base, r.2)) = atStep md5 s.base i := by
  simp only [ueStep]
  cases h : atStep md5 s.base i with
  | none => rfl
  | some r =>
    have hue : ∃ u', ueAfter md5 s i = some u' := by
      cases i with
      | mlbsloc cbArg env =>
        obtain ⟨r', hloc, -⟩ := Option.bind_eq_some_iff.mp h
        exact mlbsloc_isSome hloc
      | mlbscfg command => exact ⟨s.ue, rfl⟩
      | task env =>
        obtain ⟨r', htask, -⟩ := Option.bind_eq_some_iff.mp h
        exact mainTask_isSome htask
    obtain ⟨u', hu'⟩ := hue
    simp [hu']

theorem setUeinfo_of_eq {ueInfo : Option Nat} (h : u.ueinfo f = ueInfo) :
    setUeinfo f ueInfo u = u := by
  have hue : Function.update u.ueinfo f ueInfo = u.ueinfo := by
    rw [← h]
    exact Function.update_eq_self f u.ueinfo
  rw [setUeinfo, hue]

theorem attrFree_of_none (h : u.ueinfo f = none) : attrFree f u = u := by
  rw [attrFree, h]
  exact setUeinfo_of_eq h

/-- No session record has UE information. -/
def Clear (u : UeInfos) : Prop := ∀ f, u.ueinfo f = none

theorem deinit_of_clear (h : Clear u) : deinit u = u := by
  rw [deinit, attrFree_of_none (h .amap), attrFree_of_none (h .oneospos)]

theorem callback_of_clear (h : Clear u) (f : Family) : callback f u = u := by
  cases f with
  | amap => exact deinit_of_clear h
  | oneospos => rw [callback, deinit_of_clear h, attrFree_of_none (h .oneospos)]

/-- Storing a record in a session and releasing the session releases the record. -/
theorem attrFree_setUeinfo (h : u.ueinfo f = none) (ueInfo : Nat) :
    attrFree f (setUeinfo f (some ueInfo) u) = freeUeinfo (some ueInfo) u := by
  have hself : (setUeinfo f (some ueInfo) u).ueinfo f = some ueInfo := Function.update_self ..
  have hreset : Function.update (Function.update u.ueinfo f (some ueInfo)) f none = u.ueinfo := by
    rw [Function.update_idem, ← h]
    exact Function.update_eq_self f u.ueinfo
  rw [attrFree, hself]
  simp only [setUeinfo, freeUeinfo, hreset]

/-- The callback releases the record that the session has, and only that. -/
theorem callback_setUeinfo (h : Clear u) (f : Family) (ueInfo : Nat) :
    callback f (setUeinfo f (some ueInfo) u) = freeUeinfo (some ueInfo) u := by
  have hafter : Clear (freeUeinfo (some ueInfo) u) := h
  cases f with
  | amap =>
    rw [callback, deinit, attrFree_setUeinfo (h .amap), attrFree_of_none (hafter .oneospos)]
  | oneospos =>
    have hamap : (setUeinfo .oneospos (some ueInfo) u).ueinfo .amap = none := by
      have hne : Family.amap ≠ .oneospos := by decide
      exact (Function.update_of_ne hne (some ueInfo) u.ueinfo).trans (h .amap)
    rw [callback, deinit, attrFree_of_none hamap, attrFree_setUeinfo (h .oneospos),
      attrFree_of_none (hafter .oneospos)]

/-- A record that is obtained and released. -/
def once (u : UeInfos) : UeInfos := freeUeinfo (some u.ledger.obtain.1) (getUeinfo u).2

/-- What a message comes to: no record is obtained, or one, which is released once when the
request is served and twice when it is not. -/
inductive TurnEffect (served : Prop) (u : UeInfos) : UeInfos → Prop where
  | nothing (h : served) : TurnEffect served u u
  | once (h : served) : TurnEffect served u (once u)
  | twice (h : ¬ served) : TurnEffect served u (freeUeinfo (some u.ledger.obtain.1) (once u))

theorem TurnEffect.clear {served : Prop} (h : TurnEffect served u u') (hclear : Clear u) :
    Clear u' := by
  cases h with
  | nothing | once | twice => exact hclear

/-- From a settled ledger, the turn leaves a settled one exactly when it serves its
request. -/
theorem TurnEffect.settled_iff {served : Prop} (h : TurnEffect served u u')
    (hsettled : u.ledger.Settled) : u'.ledger.Settled ↔ served := by
  cases h with
  | nothing h => exact iff_of_true hsettled h
  | once h => exact iff_of_true hsettled.obtain_release h
  | twice h => exact iff_of_false not_settled_release_release h

/-- The end of the location function with the record in the session: it is released by the
callback of the back end, or by the report of the failure and then once more. -/
theorem afterLocation_effect {served : Prop} {called : Bool} {ret : LbsState} (hclear : Clear u)
    (hret : ret = .ok ↔ served) (hcalled : called = true ↔ ret = .ok) :
    TurnEffect served u (afterLocation f u.ledger.obtain.1 called ret
      (setUeinfo f (some u.ledger.obtain.1) (getUeinfo u).2)) := by
  have hget : Clear (getUeinfo u).2 := hclear
  simp only [afterLocation]
  by_cases hok : ret = .ok
  · rw [if_pos hok, if_pos (hcalled.mpr hok), callback_setUeinfo hget]
    exact .once (hret.mp hok)
  · rw [if_neg hok, if_neg (fun h => hok (hcalled.mp h)), callback_setUeinfo hget]
    exact .twice (fun h => hok (hret.mpr h))

/-- `cm_amap_location` succeeds: its back end is idle, and the location is cached or the
client is created and comes to a response. -/
structure AmapServed (s : AmapState) (auth : AmapAuthentication) (ue : AmapUeInfo)
    (env : AmapEnv) : Prop where
  idle : s.client = none
  served : (AmapBackend.Agrees s auth ue ∧
      ∃ hit, AmapBackend.returnLastLocation s env = some (some hit)) ∨
    ((env.client.client && env.client.ueinfo && env.client.auth) = true ∧ Exchanged auth env)

/-- `cm_oneospos_location` succeeds. -/
structure OneosposServed (s : OneosposState) (pid : Option CStr) (ue : OneosposUeInfo)
    (env : OneosposEnv) : Prop where
  idle : s.busy = false
  served : (OneosposBackend.Agrees s pid ue ∧
      ∃ hit, OneosposBackend.returnLastLocation s env = some (some hit)) ∨
    ((env.attr.attr && env.attr.pid) = true ∧ env.curl = true)

theorem outcome_of_ite {State Result : Type} {p : Prop} [Decidable p] {s s' t : State}
    {outcome outcome' : Result}
    (h : (if p then some (s, outcome) else some (s', outcome)) = some (t, outcome')) :
    outcome = outcome' := by
  split_ifs at h
  · cases h
    rfl
  · cases h
    rfl

theorem amapRequest_ok_iff {s t : AmapState} {auth : AmapAuthentication} {ue : AmapUeInfo}
    {env : AmapEnv} {outcome : AmapOutcome}
    (h : AmapBackend.requestLocation md5 s auth ue env = some (t, outcome)) :
    outcome.ret = .ok ↔
      (env.client.client && env.client.ueinfo && env.client.auth) = true ∧ Exchanged auth env := by
  simp only [AmapBackend.requestLocation] at h
  split at h
  · rename_i hclient
    cases h
    refine iff_of_false (by decide) fun hserved => ?_
    exact BackendIdle.createByAttr_eq_none_iff.mp hclient hserved.1
  rename_i client hclient
  have halloc : (env.client.client && env.client.ueinfo && env.client.auth) = true := by
    by_contra hnot
    rw [BackendIdle.createByAttr_eq_none_iff.mpr hnot] at hclient
    cases hclient
  obtain ⟨⟨v, outcome'⟩, hrequst, h⟩ := Option.bind_eq_some_iff.mp h
  have hcases := httpRequst_cases hrequst
  rw [createByAttr_auth hclient] at hcases
  cases outcome_of_ite h
  rcases hcases with ⟨hexchanged, -, -, rfl⟩ | ⟨hexchanged, -, call, -, -, rfl⟩ |
    ⟨hfails, ret, hret, -, rfl⟩
  · exact iff_of_true rfl ⟨halloc, hexchanged⟩
  · exact iff_of_true rfl ⟨halloc, hexchanged⟩
  · exact iff_of_false hret.1 fun hserved => hfails hserved.2

theorem amapLocation_ok_iff {s t : AmapState} {auth : AmapAuthentication} {ue : AmapUeInfo}
    {env : AmapEnv} {outcome : AmapOutcome}
    (h : amapLocation md5 s auth ue env = some (t, outcome)) :
    outcome.ret = .ok ↔ AmapServed s auth ue env := by
  simp only [amapLocation] at h
  split_ifs at h with hbusy
  · cases h
    refine iff_of_false (by decide) fun hserved => ?_
    exact Option.isSome_iff_ne_none.mp hbusy hserved.idle
  have hidle : s.client = none := Option.not_isSome_iff_eq_none.mp hbusy
  obtain ⟨ueRet, hue, h⟩ := Option.bind_eq_some_iff.mp h
  split_ifs at h with hsame
  · have hagrees : AmapBackend.Agrees s auth ue := ⟨hsame.1 ▸ hue, hsame.2⟩
    obtain ⟨cached, hcached, h⟩ := Option.bind_eq_some_iff.mp h
    rcases cached with _ | ⟨old, rsp⟩
    · rw [amapRequest_ok_iff h]
      constructor
      · exact fun hserved => ⟨hidle, Or.inr hserved⟩
      · rintro ⟨-, ⟨-, hit, hhit⟩ | hserved⟩
        · cases hcached.symm.trans hhit
        · exact hserved
    · cases h
      exact iff_of_true rfl ⟨hidle, Or.inl ⟨hagrees, _, hcached⟩⟩
  · rw [amapRequest_ok_iff h]
    constructor
    · exact fun hserved => ⟨hidle, Or.inr hserved⟩
    · rintro ⟨-, ⟨hagrees, -⟩ | hserved⟩
      · refine absurd ⟨?_, hagrees.2⟩ hsame
        exact Option.some.inj (hue.symm.trans hagrees.1)
      · exact hserved

theorem oneosposRequest_ok_iff {s t : OneosposState} {pid : Option CStr} {ue : OneosposUeInfo}
    {env : OneosposEnv} {outcome : OneosposOutcome}
    (h : OneosposBackend.requestLocation s pid ue env = some (t, outcome)) :
    outcome.ret = .ok ↔ (env.attr.attr && env.attr.pid) = true ∧ env.curl = true := by
  simp only [OneosposBackend.requestLocation] at h
  obtain ⟨created, hcreate, h⟩ := Option.bind_eq_some_iff.mp h
  have halloc := BackendIdle.createAttr_eq_some_iff hcreate
  cases created with
  | none =>
    cases h
    refine iff_of_false (by decide) fun hserved => ?_
    exact halloc.mpr hserved.1 rfl
  | some client =>
    obtain ⟨⟨v, outcome'⟩, hasyn, h⟩ := Option.bind_eq_some_iff.mp h
    cases outcome_of_ite h
    have hattr := halloc.mp (Option.some_ne_none client)
    rcases asynlocation_cases hasyn with ⟨hcurl, -, -, rfl⟩ | ⟨hcurl, -, event, rsp, -, -, rfl⟩ |
      ⟨hcurl, ret, hret, -, rfl⟩
    · exact iff_of_true rfl ⟨hattr, hcurl⟩
    · exact iff_of_true rfl ⟨hattr, hcurl⟩
    · exact iff_of_false hret.1 fun hserved => hcurl hserved.2

theorem oneosposLocation_ok_iff {s t : OneosposState} {pid : Option CStr} {ue : OneosposUeInfo}
    {env : OneosposEnv} {outcome : OneosposOutcome}
    (h : oneosposLocation s pid ue env = some (t, outcome)) :
    outcome.ret = .ok ↔ OneosposServed s pid ue env := by
  simp only [oneosposLocation] at h
  split_ifs at h with hbusy
  · cases h
    refine iff_of_false (by decide) fun hserved => ?_
    exact absurd (hbusy.symm.trans hserved.idle) (by decide)
  have hidle : s.busy = false := Bool.eq_false_iff.mpr hbusy
  obtain ⟨ueRet, hue, h⟩ := Option.bind_eq_some_iff.mp h
  split_ifs at h with hsame
  · have hagrees : OneosposBackend.Agrees s pid ue := ⟨hsame.1 ▸ hue, hsame.2⟩
    obtain ⟨cached, hcached, h⟩ := Option.bind_eq_some_iff.mp h
    rcases cached with _ | ⟨old, rsp⟩
    · rw [oneosposRequest_ok_iff h]
      constructor
      · exact fun hserved => ⟨hidle, Or.inr hserved⟩
      · rintro ⟨-, ⟨-, hit, hhit⟩ | hserved⟩
        · cases hcached.symm.trans hhit
        · exact hserved
    · cases h
      exact iff_of_true rfl ⟨hidle, Or.inl ⟨hagrees, _, hcached⟩⟩
  · rw [oneosposRequest_ok_iff h]
    constructor
    · exact fun hserved => ⟨hidle, Or.inr hserved⟩
    · rintro ⟨-, ⟨hagrees, -⟩ | hserved⟩
      · refine absurd ⟨?_, hagrees.2⟩ hsame
        exact Option.some.inj (hue.symm.trans hagrees.1)
      · exact hserved

/-- The back end of AMAP calls the callback exactly for the requests that succeed. -/
theorem amapCalled_iff {s t : AmapState} {auth : AmapAuthentication} {ue : AmapUeInfo}
    {env : AmapEnv} {outcome : AmapOutcome} (hs : s.callbackState = true → s.client ≠ none)
    (h : amapLocation md5 s auth ue env = some (t, outcome)) :
    (outcome.call amapHit).isSome = true ↔ outcome.ret = .ok := by
  cases amapLocation_located h with
  | busy => exact iff_of_false (by decide) (by decide)
  | cached => exact iff_of_true rfl rfl
  | noClient => exact iff_of_false (by decide) (by decide)
  | failed _ hret => exact iff_of_false (by simp [Outcome.call]) hret.1
  | ignored hfree hstate => exact absurd hfree (hs hstate)
  | answered => exact iff_of_true rfl rfl

theorem oneosposCalled_iff {s t : OneosposState} {pid : Option CStr} {ue : OneosposUeInfo}
    {env : OneosposEnv} {outcome : OneosposOutcome} (hs : s.callbackState = true → s.busy = true)
    (h : oneosposLocation s pid ue env = some (t, outcome)) :
    (outcome.call oneosposHit).isSome = true ↔ outcome.ret = .ok := by
  cases oneosposLocation_located h with
  | busy => exact iff_of_false (by decide) (by decide)
  | cached => exact iff_of_true rfl rfl
  | noClient => exact iff_of_false (by decide) (by decide)
  | failed _ hret => exact iff_of_false (by simp [Outcome.call]) hret.1
  | ignored hfree hstate => exact absurd (hs hstate) (by simp [hfree])
  | answered => exact iff_of_true rfl rfl

/-- The request of a session is served as soon as it reaches `cm_amap_location`. -/
def AmapKept (s : AmapState) (auth : AmapAuthentication) (ueInfo : Option AmapUeInfo)
    (env : AmapEnv) : Prop :=
  ∀ ue apikey, ueInfo = some ue → auth.apikey = some apikey → amapKeyFilter apikey = .ok →
    AmapServed s auth ue env

def OneosposKept (s : OneosposState) (pid : Option CStr) (ueInfo : Option OneosposUeInfo)
    (env : OneosposEnv) : Prop :=
  ∀ ue, ueInfo = some ue → OneosposServed s pid ue env

theorem asynLocationAmap_effect {s t : AmapState} {auth : AmapAuthentication}
    {ueInfo : Option AmapUeInfo} {env : AmapEnv} {a : AmapAnswer} (hclear : Clear u)
    (hs : s.callbackState = true → s.client ≠ none)
    (h : asynLocationAmap md5 u s auth ueInfo env = some (u', t, a)) :
    TurnEffect (AmapKept s auth ueInfo env) u u' := by
  cases ueInfo with
  | none =>
    cases h
    rw [callback_of_clear hclear]
    exact .nothing fun ue apikey hue => by cases hue
  | some ue =>
    have hget : Clear (getUeinfo u).2 := hclear
    obtain ⟨apikey, hkey, h⟩ := Option.bind_eq_some_iff.mp h
    by_cases hfilter : amapKeyFilter apikey = .ok
    · rw [if_pos hfilter] at h
      obtain ⟨⟨t', outcome⟩, hlocation, h⟩ := Option.bind_eq_some_iff.mp h
      cases h
      refine afterLocation_effect hclear ?_ (amapCalled_iff hs hlocation)
      rw [amapLocation_ok_iff hlocation]
      constructor
      · intro hserved ue' apikey' hue _ _
        cases hue
        exact hserved
      · exact fun hkept => hkept ue apikey rfl hkey hfilter
    · rw [if_neg hfilter] at h
      cases h
      have hcallback := callback_of_clear hget .amap
      simp only [getUeinfo] at hcallback
      rw [hcallback]
      refine .once fun ue' apikey' _ hkey' hfilter' => ?_
      cases hkey.symm.trans hkey'
      exact absurd hfilter' hfilter

theorem asynLocationOneospos_effect {s t : OneosposState} {pid : Option CStr}
    {ueInfo : Option OneosposUeInfo} {env : OneosposEnv} {a : OneosposAnswer} (hclear : Clear u)
    (hs : s.callbackState = true → s.busy = true)
    (h : asynLocationOneospos u s pid ueInfo env = some (u', t, a)) :
    TurnEffect (OneosposKept s pid ueInfo env) u u' := by
  cases ueInfo with
  | none =>
    cases h
    rw [callback_of_clear hclear]
    exact .nothing fun ue hue => by cases hue
  | some ue =>
    obtain ⟨⟨t', outcome⟩, hlocation, h⟩ := Option.bind_eq_some_iff.mp h
    cases h
    refine afterLocation_effect hclear ?_ (oneosposCalled_iff hs hlocation)
    rw [oneosposLocation_ok_iff hlocation]
    constructor
    · intro hserved ue' hue
      cases hue
      exact hserved
    · exact fun hkept => hkept ue rfl

/-- A message that the task takes is for a session whose request is served. -/
structure TaskServes (s : Lbs Arg) (env : MessageEnv) : Prop where
  amap : s.cmLbsTask = true ∧ 0 < s.queued → family s.platform = some .amap →
    ∀ attr, s.amapAttr = some attr →
      AmapKept s.amap attr.auth (env.amapUeinfo attr.nearbtsEnable) env.amap
  oneospos : s.cmLbsTask = true ∧ 0 < s.queued → family s.platform = some .oneospos →
    ∀ attr, s.oneosposAttr = some attr →
      OneosposKept s.oneospos (some attr.pid) (env.oneosposUeinfo attr.nearbtsEnable) env.oneospos

theorem mainTask_effect {s t : Lbs Arg} {env : MessageEnv} {turn : Turn Arg} (hclear : Clear u)
    (hs : Settled s.amap s.oneospos) (h : LbsApi.mainTask md5 s env = some (t, turn))
    (hu : mainTask md5 u s env = some u') :
    TurnEffect (TaskServes s env) u u' ∧ Settled t.amap t.oneospos := by
  cases mainTask_runs h with
  | waits hwaits hamap honeospos =>
    rw [mainTask, if_neg hwaits] at hu
    cases hu
    rw [hamap, honeospos]
    exact ⟨.nothing ⟨fun htakes => absurd htakes hwaits, fun htakes => absurd htakes hwaits⟩, hs⟩
  | discards hf hamap honeospos =>
    simp only [mainTask, hf, ite_self] at hu
    cases hu
    rw [hamap, honeospos]
    refine ⟨.nothing ⟨fun _ hf' => ?_, fun _ hf' => ?_⟩, hs⟩
    · cases hf.symm.trans hf'
    · cases hf.symm.trans hf'
  | @amap attr a htakes hf hattr hrun honeospos =>
    simp only [mainTask, if_pos htakes, hf, hattr, Option.bind_eq_bind, Option.bind_some] at hu
    obtain ⟨⟨v, t', a'⟩, hasyn, rfl⟩ := Option.map_eq_some_iff.mp hu
    have heffect := asynLocationAmap_effect hclear hs.amap hasyn
    have hserves : TaskServes s env ↔
        AmapKept s.amap attr.auth (env.amapUeinfo attr.nearbtsEnable) env.amap := by
      constructor
      · exact fun hserves => hserves.amap htakes hf attr hattr
      · refine fun hkept => ⟨fun _ _ attr' hattr' => ?_, fun _ hf' => ?_⟩
        · cases hattr.symm.trans hattr'
          exact hkept
        · cases hf.symm.trans hf'
    rw [hserves, honeospos]
    exact ⟨heffect, (asynLocationAmap_one_call hs.amap hrun).2, hs.oneospos⟩
  | @oneospos attr a htakes hf hattr hrun hamap =>
    simp only [mainTask, if_pos htakes, hf, hattr, Option.bind_eq_bind, Option.bind_some] at hu
    obtain ⟨⟨v, t', a'⟩, hasyn, rfl⟩ := Option.map_eq_some_iff.mp hu
    have heffect := asynLocationOneospos_effect hclear hs.oneospos hasyn
    have hserves : TaskServes s env ↔ OneosposKept s.oneospos (some attr.pid)
        (env.oneosposUeinfo attr.nearbtsEnable) env.oneospos := by
      constructor
      · exact fun hserves => hserves.oneospos htakes hf attr hattr
      · refine fun hkept => ⟨fun _ hf' => ?_, fun _ _ attr' hattr' => ?_⟩
        · cases hf.symm.trans hf'
        · cases hattr.symm.trans hattr'
          exact hkept
    rw [hserves, hamap]
    exact ⟨heffect, hs.amap, (asynLocationOneospos_one_call hs.oneospos hrun).2⟩

/-- A command obtains nothing and releases nothing: its session has no UE information. -/
theorem mlbsloc_clear {env : MlbslocEnv} {dir : AtConfig.ConfigDir} {s : Lbs Arg} {cbArg : Arg}
    (hclear : Clear u) (hu : mlbsloc env dir u s cbArg = some u') : u' = u := by
  simp only [mlbsloc] at hu
  split_ifs at hu
  · split at hu
    · obtain ⟨⟨initRet, t⟩, -, hu⟩ := Option.bind_eq_some_iff.mp hu
      simp only at hu
      split at hu
      · cases hu
        rfl
      · rename_i f _
        rw [setUeinfo_of_eq (hclear f), attrFree_of_none (hclear f), ite_self, ite_self] at hu
        cases hu
        rfl
    · cases hu
      rfl
  · cases hu
    rfl

theorem settled_of_location {env : LocationEnv} {cb : Option Arg} {s t : Lbs Arg}
    (heffect : LocationEffect env cb s t) (hs : Settled s.amap s.oneospos) :
    Settled t.amap t.oneospos := by
  cases heffect with
  | refuses => exact hs
  | sends _ _ _ _ _ _ _ _ hamap honeospos | drops _ _ _ _ _ _ _ _ hamap honeospos =>
    rw [hamap, honeospos]
    exact hs

theorem mlbsloc_settled {env : MlbslocEnv} {dir : AtConfig.ConfigDir} {s t : Lbs Arg}
    {cbArg : Arg} {ret : AtcmdErrcode} (hs : Settled s.amap s.oneospos)
    (h : AtRequests.mlbsloc env dir s cbArg = some (t, ret)) : Settled t.amap t.oneospos := by
  rcases mlbsloc_cases h with ⟨rfl, -⟩ | ⟨-, attr, -, h⟩
  · exact hs
  obtain ⟨⟨initRet, v⟩, hinit, h⟩ := Option.bind_eq_some_iff.mp h
  have heffect := cmLbsInit_effect hinit
  have hv : Settled v.amap v.oneospos := by
    rw [heffect.amap, heffect.oneospos]
    exact hs
  have hlocation := settled_of_location (locationCall_effect env.location v (some cbArg)) hv
  by_cases hret : initRet = 0
  · simp only [if_pos hret] at h
    cases h
    exact hlocation
  · simp only [if_neg hret] at h
    cases h
    exact hv

/-- Between two steps no session record has UE information, and a back end with an answer
that did not end is busy. -/
structure Between (s : UeState Arg) : Prop where
  clear : Clear s.ue
  settled : Settled s.base.lbs.amap s.base.lbs.oneospos

theorem Between.start (dir : AtConfig.ConfigDir) : Between (.start dir : UeState Arg) :=
  ⟨fun _ => rfl, Idle.start.settled⟩

/-- The step serves its request, if it is a turn of the task that takes one. -/
def Serves (s : UeState Arg) : AtInput Arg → Prop
  | .task env => TaskServes s.base.lbs env
  | _ => True

theorem ueStep_effect {s t : UeState Arg} {i : AtInput Arg} {o : AtOutput Arg} (hs : Between s)
    (h : ueStep md5 s i = some (t, o)) : TurnEffect (Serves s i) s.ue t.ue ∧ Between t := by
  obtain ⟨⟨base, o'⟩, hbase, h⟩ := Option.bind_eq_some_iff.mp h
  obtain ⟨ue, hue, h⟩ := Option.bind_eq_some_iff.mp h
  cases h
  cases i with
  | mlbsloc cbArg env =>
    obtain ⟨⟨lbs, ret⟩, hloc, hbase⟩ := Option.bind_eq_some_iff.mp hbase
    cases hbase
    cases mlbsloc_clear hs.clear hue
    exact ⟨.nothing trivial, hs.clear, mlbsloc_settled hs.settled hloc⟩
  | mlbscfg command =>
    obtain ⟨ret, -, hbase⟩ := Option.map_eq_some_iff.mp hbase
    cases hbase
    cases hue
    exact ⟨.nothing trivial, hs.clear, hs.settled⟩
  | task env =>
    obtain ⟨⟨lbs, turn⟩, htask, hbase⟩ := Option.bind_eq_some_iff.mp hbase
    cases hbase
    obtain ⟨heffect, hsettled⟩ := mainTask_effect hs.clear hs.settled htask hue
    exact ⟨heffect, heffect.clear hs.clear, hsettled⟩

theorem between_of_run {dir : AtConfig.ConfigDir} {s : UeState Arg}
    {trace : List (AtInput Arg × AtOutput Arg)}
    {ok : List (AtInput Arg × AtOutput Arg) → UeState Arg → AtInput Arg → Prop}
    (h : Run (ueStep md5) ok (.start dir) trace s) : Between s :=
  @Run.invariant _ _ _ _ _ _ (fun _ => Between) (Between.start dir)
    (fun hs _ hstep => (ueStep_effect hs hstep).2) _ _ h

/-- In the states of a run every record of UE information was released exactly once, exactly
when the task serves every request for which it obtains one. -/
theorem ue_records_settled_iff (md5 : CStr → Digest) (dir : AtConfig.ConfigDir)
    {trace : List (AtInput Arg × AtOutput Arg)} {s : UeState Arg} :
    Run (ueStep md5) (fun _ s _ => s.ue.ledger.Settled) (.start dir) trace s ∧
        s.ue.ledger.Settled ↔
      Run (ueStep md5) (fun _ => Serves) (.start dir) trace s := by
  apply Run.good_iff
  · exact Ledger.Settled.empty
  · intro trace s t i o hrun hsettled hstep
    exact (ueStep_effect (between_of_run hrun) hstep).1.settled_iff hsettled

/-- The second of two requests is refused, since the back end waits for the end of the first
response; its record is released by the report of the failure and once more after it. -/
theorem refused_request_releases_twice : ∃ trace s,
    Run (ueStep fun _ => Field.zero 16) (fun _ _ _ => True) (.start amapDir : UeState Nat) trace s ∧
      s.ue.ledger.obtained = 2 ∧ s.ue.ledger.released = [0, 1, 1] ∧ ¬ s.ue.ledger.Settled := by
  have h₁ : Run (ueStep fun _ => Field.zero 16) (fun _ _ _ => True)
      (.start amapDir : UeState Nat) _ _ := .snoc (i := .mlbsloc 1 mlbslocEnv) .start trivial rfl
  have h₂ := h₁.snoc (i := .task messageEnv) trivial rfl
  have h₃ := h₂.snoc (i := .mlbsloc 2 mlbslocEnv) trivial rfl
  have h₄ := h₃.snoc (i := .task messageEnv) trivial rfl
  exact ⟨_, _, h₄, rfl, rfl, fun hsettled => absurd hsettled.sound (by decide)⟩

end UeLedger
