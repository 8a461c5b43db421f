import LinuxBuild.PartialRun
import LinuxBuild.AtLocation
import LinuxBuild.RequestLife

/-!
# Location commands and the task

`AT+MLBSLOC` runs the request for the platform in the configuration, which
`AT+MLBSCFG` may change at any time. Commands and turns of the task come in any
order, each of them run to its end. What the environment does in a step is part of
the input.
-/
namespace AtRequests
open CString LbsTypes AtConfig AtLocation AmapParse LocationDelivery BackendTypes AmapRequest
open LbsSession AmapBackend OneosposBackend LbsTask LbsApi RequestLife PartialRun

variable {Arg : Type}

/-- What the environment contributes to `AT+MLBSLOC`. -/
structure MlbslocEnv where
  cfg : Bool
  netstate : Bool
  init : InitEnv
  location : LocationEnv

/-- The end of both variants: `cm_lbs_init`, then `cm_lbs_location`. -/
def initAndLocate (env : MlbslocEnv) (s : Lbs Arg) (platform : LocationPlatform)
    (attr : InitAttr) (cbArg : Arg) : Option (Lbs Arg × AtcmdErrcode) := do
  let (initRet, s) ← cmLbsInit env.init s platform attr
  if initRet = 0 then
    let (res, s) := cmLbsLocation env.location s cbArg
    some (s, if res = 0 then .success else if res = -3 then .busy else .unknowErr)
  else some (s, if initRet = -2 then .busy else .unknowErr)

/-- `__cm_lbs_atcmd_amap_mlbsloc` -/
def amapMlbsloc (env : MlbslocEnv) (dir : ConfigDir) (s : Lbs Arg) (cbArg : Arg) :
    Option (Lbs Arg × AtcmdErrcode) :=
  if env.cfg then
    if env.netstate then
      match amapMlbslocAttr cmLbsReadnvConfig dir with
      | .error ret => some (s, ret)
      | .ok attr => initAndLocate env s (atcmdGetplatform dir) (.amap attr) cbArg
    else some (s, .netErr)
  else some (s, .unknowErr)

/-- `__cm_lbs_atcmd_oneospos_mlbsloc` -/
def oneosposMlbsloc (env : MlbslocEnv) (dir : ConfigDir) (s : Lbs Arg) (cbArg : Arg) :
    Option (Lbs Arg × AtcmdErrcode) :=
  if env.cfg then
    if env.netstate then
      initAndLocate env s .oneospos (.oneospos (oneosposMlbslocAttr cmLbsReadnvConfig dir)) cbArg
    else some (s, .netErr)
  else some (s, .memroyErr)

/-- `cm_lbs_atcmd_MLBSLOC` -/
def mlbsloc (env : MlbslocEnv) (dir : ConfigDir) (s : Lbs Arg) (cbArg : Arg) :
    Option (Lbs Arg × AtcmdErrcode) :=
  if atcmdGetplatform dir = .oneospos then oneosposMlbsloc env dir s cbArg
  else amapMlbsloc env dir s cbArg

/-- The configuration and the service. -/
structure AtState (Arg : Type) where
  dir : ConfigDir
  lbs : Lbs Arg

/-- What a location command hands to `cm_lbs_init`, if it gets there. -/
def mlbslocAttr (dir : ConfigDir) : Option InitAttr :=
  if atcmdGetplatform dir = .oneospos then
    some (.oneospos (oneosposMlbslocAttr cmLbsReadnvConfig dir))
  else (amapMlbslocAttr cmLbsReadnvConfig dir).toOption.map .amap

/-- The session record that a location command is initialised for. -/
def mlbslocSession (env : MlbslocEnv) (dir : ConfigDir) : Option Session := do
  let attr ← mlbslocAttr dir
  created env.init (atcmdGetplatform dir) attr

def AtState.start (dir : ConfigDir) : AtState Arg := ⟨dir, .start⟩

inductive AtInput (Arg : Type) where
  | mlbsloc (cbArg : Arg) (env : MlbslocEnv)
  | mlbscfg (command : SetCommand)
  | task (env : MessageEnv)

/-- What a step shows: the return of a location command with the session record that it
is initialised for, the return of a configuration command, or the turn of the task. -/
inductive AtOutput (Arg : Type) where
  | located (ret : AtcmdErrcode) (session : Option Session)
  | configured (ret : LbsState)
  | turn (turn : Turn Arg)

def atStep (md5 : CStr → Digest) (s : AtState Arg) : AtInput Arg →
    Option (AtState Arg × AtOutput Arg)
  | .mlbsloc cbArg env => do
    let (lbs, ret) ← mlbsloc env s.dir s.lbs cbArg
    some ({ s with lbs := lbs }, .located ret (mlbslocSession env s.dir))
  | .mlbscfg command =>
    let (ret, dir) := command.run s.dir
    ret.map fun ret => ({ s with dir := dir }, .configured ret)
  | .task env => do
    let (lbs, turn) ← mainTask md5 s.lbs env
    some ({ s with lbs := lbs }, .turn turn)

abbrev AtTrace (Arg : Type) := List (AtInput Arg × AtOutput Arg)

/-- A request: the argument of its callback and the session record it was initialised
for. -/
abbrev AtRequest (Arg : Type) := Arg × Option Session

/-- The request that a step accepts. -/
def acceptedBy : AtInput Arg × AtOutput Arg → List (AtRequest Arg)
  | (.mlbsloc cbArg _, .located .success session) => [(cbArg, session)]
  | _ => []

/-- The requests that a step answers: each call of an application callback, with the
session record that was used for it. -/
def answeredBy : AtInput Arg × AtOutput Arg → List (AtRequest Arg)
  | (_, .turn (.takes (some execution))) =>
    execution.calls.map fun call => (call.1, some execution.session)
  | _ => []

def accepted (trace : AtTrace Arg) : List (AtRequest Arg) := trace.flatMap acceptedBy

def answered (trace : AtTrace Arg) : List (AtRequest Arg) := trace.flatMap answeredBy

/-- The back end that a session record is for does not fault on its request. -/
def RunsWell (md5 : CStr → Digest) (s : AtState Arg) (env : MessageEnv) : AtRequest Arg → Prop
  | (_, some session) => backendRuns md5 s.lbs env session = true
  | (_, none) => False

/-- Every accepted request was answered once, in order and from its own session record,
or waits in the queue; and the one that waits first is answered by the next turn of the
task, unless its back end faults on it. -/
def Accounted (md5 : CStr → Digest) (trace : AtTrace Arg) (s : AtState Arg) : Prop :=
  ∃ pending, accepted trace = answered trace ++ pending ∧ pending.length = s.lbs.queued ∧
    ∀ request rest env, pending = request :: rest → RunsWell md5 s env request →
      ∃ t output, atStep md5 s (.task env) = some (t, output) ∧
        answeredBy (.task env, output) = [request]

/-- The command gets as far as `cm_lbs_init`. -/
def ReachesInit (dir : ConfigDir) (env : MlbslocEnv) : Prop :=
  env.cfg = true ∧ env.netstate = true ∧ mlbslocAttr dir ≠ none

/-- While a message is queued, only a command for the back end that is selected gets as
far as `cm_lbs_init`. -/
def SameFamily (s : AtState Arg) : AtInput Arg → Prop
  | .mlbsloc _ env => ReachesInit s.dir env → s.lbs.queued ≠ 0 →
      family (atcmdGetplatform s.dir) = family s.lbs.platform
  | .mlbscfg _ => True
  | .task _ => True

/-- The service has no request but those that the trace leaves unanswered. -/
inductive Tracks (trace : AtTrace Arg) (s : AtState Arg) : Prop where
  | idle (hidle : Idle s.lbs) (htrace : accepted trace = answered trace)
  | pending {f : Family} {cbArg : Arg} {session : Session}
      (hpending : Pending s.lbs f cbArg session)
      (htrace : accepted trace = answered trace ++ [(cbArg, some session)])

theorem accepted_snoc {trace : AtTrace Arg} {entry : AtInput Arg × AtOutput Arg} :
    accepted (trace ++ [entry]) = accepted trace ++ acceptedBy entry := by
  simp [accepted]

theorem answered_snoc {trace : AtTrace Arg} {entry : AtInput Arg × AtOutput Arg} :
    answered (trace ++ [entry]) = answered trace ++ answeredBy entry := by
  simp [answered]

theorem amapMlbslocAttr_error {nv : Option NvConfig} {dir : ConfigDir} {ret : AtcmdErrcode}
    (h : amapMlbslocAttr nv dir = .error ret) : ret = .apikeyNull := by
  simp only [amapMlbslocAttr] at h
  split at h
  · cases h
    rfl
  · cases h

/-- A location command stops before `cm_lbs_init`, or is `initAndLocate` for the platform
of the configuration. -/
theorem mlbsloc_cases {env : MlbslocEnv} {dir : ConfigDir} {s t : Lbs Arg} {cbArg : Arg}
    {ret : AtcmdErrcode} (h : mlbsloc env dir s cbArg = some (t, ret)) :
    (t = s ∧ ret ≠ .success) ∨ (ReachesInit dir env ∧ ∃ attr, mlbslocAttr dir = some attr ∧
      initAndLocate env s (atcmdGetplatform dir) attr cbArg = some (t, ret)) := by
  have hreached : ∀ attr, mlbslocAttr dir = some attr → mlbslocAttr dir ≠ none := by
    intro attr hattr
    simp [hattr]
  simp only [mlbsloc] at h
  split at h
  · rename_i hplatform
    have hattr : mlbslocAttr dir = some _ := if_pos hplatform
    simp only [oneosposMlbsloc] at h
    split_ifs at h with hcfg hnet
    · exact Or.inr ⟨⟨hcfg, hnet, hreached _ hattr⟩, _, hattr, hplatform ▸ h⟩
    · cases h
      exact Or.inl ⟨rfl, by decide⟩
    · cases h
      exact Or.inl ⟨rfl, by decide⟩
  · rename_i hplatform
    simp only [amapMlbsloc] at h
    split_ifs at h with hcfg hnet
    · split at h
      · rename_i e he
        cases h
        rw [amapMlbslocAttr_error he]
        exact Or.inl ⟨rfl, by decide⟩
      · rename_i attr hok
        have hattr : mlbslocAttr dir = some (.amap attr) := by
          simp [mlbslocAttr, hplatform, hok, Except.toOption]
        exact Or.inr ⟨⟨hcfg, hnet, hreached _ hattr⟩, _, hattr, h⟩
    · cases h
      exact Or.inl ⟨rfl, by decide⟩
    · cases h
      exact Or.inl ⟨rfl, by decide⟩

/-- Without a request, a command that succeeds leaves its own pending. -/
theorem initAndLocate_idle {env : MlbslocEnv} {s t : Lbs Arg} {platform : LocationPlatform}
    {attr : InitAttr} {cbArg : Arg} {ret : AtcmdErrcode} (hs : Idle s)
    (h : initAndLocate env s platform attr cbArg = some (t, ret)) :
    (ret = .success ∧ ∃ f session, Pending t f cbArg session ∧
      created env.init platform attr = some session) ∨ (ret ≠ .success ∧ Idle t) := by
  obtain ⟨⟨initRet, u⟩, hinit, h⟩ := Option.bind_eq_some_iff.mp h
  rcases cmLbsInit_idle hs hinit with ⟨rfl, f, session, hu, hcreated⟩ | ⟨hret, hu⟩
  · rcases hlocation : cmLbsLocation env.location u cbArg with ⟨res, v⟩
    simp only [hlocation, if_true] at h
    cases h
    rcases cmLbsLocation_initialised hu hlocation with ⟨rfl, hv⟩ | ⟨hres, hv⟩
    · exact Or.inl ⟨rfl, f, session, hv, hcreated⟩
    · refine Or.inr ⟨?_, hv⟩
      rw [if_neg hres]
      split_ifs <;> decide
  · simp only [if_neg hret] at h
    cases h
    refine Or.inr ⟨?_, hu⟩
    split_ifs <;> decide

/-- A pending request is kept by a command of its family, which is refused. -/
theorem initAndLocate_pending {env : MlbslocEnv} {s t : Lbs Arg} {platform : LocationPlatform}
    {attr : InitAttr} {cbArg cbArg' : Arg} {ret : AtcmdErrcode} {f : Family} {session : Session}
    (hs : Pending s f cbArg session) (hfamily : family platform = some f)
    (h : initAndLocate env s platform attr cbArg' = some (t, ret)) :
    ret ≠ .success ∧ Pending t f cbArg session := by
  obtain ⟨⟨initRet, u⟩, hinit, h⟩ := Option.bind_eq_some_iff.mp h
  obtain ⟨hret, hu⟩ := cmLbsInit_pending hs hfamily hinit
  simp only [if_neg hret] at h
  cases h
  refine ⟨?_, hu⟩
  split_ifs <;> decide

theorem acceptedBy_refused {cbArg : Arg} {env : MlbslocEnv} {ret : AtcmdErrcode}
    {session : Option Session} (hret : ret ≠ .success) :
    acceptedBy (.mlbsloc cbArg env, .located ret session) = [] := by
  cases ret <;> first | rfl | contradiction

/-- A step that accepts and answers nothing leaves the books as they are. -/
theorem Tracks.quiet {trace : AtTrace Arg} {s : AtState Arg} {dir : ConfigDir}
    {entry : AtInput Arg × AtOutput Arg} (h : Tracks trace s) (haccepted : acceptedBy entry = [])
    (hanswered : answeredBy entry = []) : Tracks (trace ++ [entry]) ⟨dir, s.lbs⟩ := by
  cases h with
  | idle hidle htrace =>
    refine .idle hidle ?_
    rw [accepted_snoc, answered_snoc, haccepted, hanswered, htrace]
  | pending hpending htrace =>
    refine .pending hpending ?_
    rw [accepted_snoc, answered_snoc, haccepted, hanswered, htrace]
    simp

theorem Tracks.mlbsloc {trace : AtTrace Arg} {s : AtState Arg} {t : Lbs Arg} {cbArg : Arg}
    {env : MlbslocEnv} {ret : AtcmdErrcode} (h : Tracks trace s)
    (hok : SameFamily s (.mlbsloc cbArg env))
    (hstep : AtRequests.mlbsloc env s.dir s.lbs cbArg = some (t, ret)) :
    Tracks (trace ++ [(.mlbsloc cbArg env, .located ret (mlbslocSession env s.dir))])
      ⟨s.dir, t⟩ := by
  rcases mlbsloc_cases hstep with ⟨rfl, hret⟩ | ⟨hreaches, attr, hattr, hstep⟩
  · exact h.quiet (acceptedBy_refused hret) rfl
  cases h with
  | idle hidle htrace =>
    rcases initAndLocate_idle hidle hstep with ⟨rfl, f, session, ht, hcreated⟩ | ⟨hret, ht⟩
    · have hsession : mlbslocSession env s.dir = some session := by
        simp [mlbslocSession, hattr, hcreated]
      refine .pending ht ?_
      rw [accepted_snoc, answered_snoc, htrace, hsession]
      simp [acceptedBy, answeredBy]
    · refine .idle ht ?_
      rw [accepted_snoc, answered_snoc, htrace, acceptedBy_refused hret]
      rfl
  | pending hpending htrace =>
    -- `s_platform` is overwritten here, by a platform of the same family
    have hfamily := hok hreaches (by simp [Lbs.queued, hpending.queun])
    rw [hpending.platform] at hfamily
    obtain ⟨hret, ht⟩ := initAndLocate_pending hpending hfamily hstep
    refine .pending ht ?_
    rw [accepted_snoc, answered_snoc, htrace, acceptedBy_refused hret]
    simp [answeredBy]

theorem Tracks.task {md5 : CStr → Digest} {trace : AtTrace Arg} {s : AtState Arg} {t : Lbs Arg}
    {env : MessageEnv} {turn : Turn Arg} (h : Tracks trace s)
    (hstep : mainTask md5 s.lbs env = some (t, turn)) :
    Tracks (trace ++ [(.task env, .turn turn)]) ⟨s.dir, t⟩ := by
  cases h with
  | idle hidle htrace =>
    obtain ⟨rfl, rfl⟩ := mainTask_idle hidle hstep
    exact (Tracks.idle hidle htrace).quiet rfl rfl
  | pending hpending htrace =>
    obtain ⟨ht, delivery, rfl⟩ := mainTask_answers hpending hstep
    refine .idle ht ?_
    rw [accepted_snoc, answered_snoc, htrace]
    simp [acceptedBy, answeredBy]

/-- What one step keeps. -/
theorem Tracks.step {md5 : CStr → Digest} {trace : AtTrace Arg} {s t : AtState Arg}
    {i : AtInput Arg} {o : AtOutput Arg} (h : Tracks trace s) (hok : SameFamily s i)
    (hstep : atStep md5 s i = some (t, o)) : Tracks (trace ++ [(i, o)]) t := by
  cases i with
  | mlbsloc cbArg env =>
    obtain ⟨⟨lbs, ret⟩, hloc, hstep⟩ := Option.bind_eq_some_iff.mp hstep
    cases hstep
    exact h.mlbsloc hok hloc
  | mlbscfg command =>
    obtain ⟨ret, -, hstep⟩ := Option.map_eq_some_iff.mp hstep
    cases hstep
    exact h.quiet rfl rfl
  | task env =>
    obtain ⟨⟨lbs, turn⟩, htask, hstep⟩ := Option.bind_eq_some_iff.mp hstep
    cases hstep
    exact h.task htask

theorem Tracks.accounted {md5 : CStr → Digest} {trace : AtTrace Arg} {s : AtState Arg}
    (h : Tracks trace s) : Accounted md5 trace s := by
  cases h with
  | idle hidle htrace =>
    refine ⟨[], by simp [htrace], hidle.queued.symm, ?_⟩
    intro request rest env hpending
    cases hpending
  | @pending f cbArg session hpending htrace =>
    refine ⟨[(cbArg, some session)], htrace, by simp [Lbs.queued, hpending.queun], ?_⟩
    intro request rest env hrequest hruns
    cases hrequest
    obtain ⟨t, turn, hturn, -, delivery, rfl⟩ := mainTask_pending hpending hruns
    have hstep : atStep md5 s (.task env) =
        some (⟨s.dir, t⟩, .turn (.takes (some ⟨session, [(cbArg, delivery)]⟩))) := by
      simp [atStep, hturn]
    exact ⟨_, _, hstep, rfl⟩

/-- In every run of location commands, configuration commands and turns of the task in
which no command for the other back end gets as far as `cm_lbs_init` while a message is
queued, every accepted request is accounted for. -/
theorem requests_accounted (md5 : CStr → Digest) (dir : ConfigDir) {trace : AtTrace Arg}
    {s : AtState Arg} (h : Run (atStep md5) (fun _ => SameFamily) (.start dir) trace s) :
    Accounted md5 trace s := by
  have htracks : Tracks trace s :=
    h.invariant (.idle Idle.start rfl) fun ht hok hstep => ht.step hok hstep
  exact htracks.accounted

/-- An AMAP 1.0 key is configured and its platform selected. -/
def amapDir : ConfigDir where
  atcmd := some .amap10
  amapv10 := some { AmapConfig.zero with apikey := Field.store (cstr "key") (by decide) }
  amapv20 := none
  oneospos := none

/-- The network is up and everything can be allocated and sent. -/
def mlbslocEnv : MlbslocEnv where
  cfg := true
  netstate := true
  init := ⟨⟨true, true⟩, ⟨true, true, true, true⟩, ⟨true, true, ⟨true, ⟨true, true⟩, true⟩⟩⟩
  location := ⟨true, true⟩

def messageEnv : MessageEnv where
  amapUeinfo _ := some (amapUe "1")
  amap := amapEnv true 0
  oneosposUeinfo _ := some (amapUeKey (amapUe "1"))
  oneospos := oneosposEnv true 0

def methodOneospos : SetCommand :=
  ⟨cstr "method", cstr "40", by decide, fun _ => true⟩

/-- Two requests for AMAP, one after the other, are both answered. -/
theorem requests_accounted_amap : ∃ trace s,
    Run (atStep fun _ => Field.zero 16) (fun _ => SameFamily) (.start amapDir) trace s ∧
      (answered trace).map Prod.fst = [1, 2] ∧ Accounted (fun _ => Field.zero 16) trace s := by
  have hempty : ∀ (s : AtState Nat) cbArg env, s.lbs.queued = 0 →
      SameFamily s (.mlbsloc cbArg env) := fun _ _ _ hqueued _ hne => absurd hqueued hne
  have htask : ∀ (s : AtState Nat) env, SameFamily s (.task env) := fun _ _ => trivial
  have h₁ : Run (atStep fun _ => Field.zero 16) (fun _ => SameFamily) (.start amapDir) _ _ :=
    .snoc .start (hempty _ 1 mlbslocEnv rfl) rfl
  have h₂ := h₁.snoc (htask _ messageEnv) rfl
  have h₃ := h₂.snoc (hempty _ 2 mlbslocEnv rfl) rfl
  have h₄ := h₃.snoc (htask _ messageEnv) rfl
  exact ⟨_, _, h₄, rfl, requests_accounted _ _ h₄⟩

/-- A request for AMAP is accepted, the platform is changed to OneOS and a request for
OneOS is accepted; the message of the first runs the second, which leaves the first
without an answer. -/
theorem request_runs_other_platform : ∃ trace s,
    Run (atStep fun _ => Field.zero 16) (fun _ _ _ => True) (.start amapDir) trace s ∧
      (accepted trace).map Prod.fst = [1, 2] ∧ (answered trace).map Prod.fst = [2] ∧
      ¬ Accounted (fun _ => Field.zero 16) trace s := by
  have h₁ : Run (atStep fun _ => Field.zero 16) (fun _ _ _ => True) (.start amapDir) _ _ :=
    .snoc (i := .mlbsloc 1 mlbslocEnv) .start trivial rfl
  have h₂ := h₁.snoc (i := .mlbscfg methodOneospos) trivial rfl
  have h₃ := h₂.snoc (i := .mlbsloc 2 mlbslocEnv) trivial rfl
  have h₄ := h₃.snoc (i := .task messageEnv) trivial rfl
  refine ⟨_, _, h₄, rfl, rfl, ?_⟩
  rintro ⟨pending, haccounts, -⟩
  have hfirst : some 1 = some 2 :=
    congrArg (fun requests => (requests.map Prod.fst).head?) haccounts
  exact absurd hfirst (by decide)

end AtRequests
