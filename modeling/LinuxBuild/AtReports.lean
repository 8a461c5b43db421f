import LinuxBuild.AtRequests
import LinuxBuild.AtUrc
import LinuxBuild.TaskStages

/-!
# The formatter of a report

The report of a request is printed when its result arrives, by the formatter of the
platform that the configuration names then. Commands come between the stages of the
task; nothing of an exchange reads the configuration, so a command during it stands in
front of the step that ends with the report.
-/
namespace AtReports
open CString LbsTypes AtConfig AtConfigRefinement LocationDelivery LbsApi RequestLife AtRequests
open AtUrc PartialRun TaskStages LbsEffects

variable {Arg : Type}

/-- The back end whose results the chosen formatter is made for. -/
def urcFormatter (dir : ConfigDir) : Family :=
  if atcmdGetplatform dir = .oneospos then .oneospos else .amap

theorem locationUrcFormat_eq (convert : CStr × CStr → Option (CStr × CStr)) (env : UrcEnv)
    (dir : ConfigDir) (location : LocationRsp) (urcbuf : Field urclenMax) :
    locationUrcFormat convert env dir location urcbuf =
      if urcFormatter dir = .oneospos then oneosposLocationUrcRsp convert dir location urcbuf
      else amapLocationUrcRsp env dir (atcmdGetplatform dir) location urcbuf := by
  simp only [locationUrcFormat, urcFormatter]
  split_ifs <;> simp_all

/-- The configuration, and the service with its task. -/
structure AtService (Arg : Type) where
  dir : ConfigDir
  service : Service Arg

def AtService.start (dir : ConfigDir) : AtService Arg := ⟨dir, .start⟩

/-- The back end that the task asks or has been refused by. -/
def stageFamily : Stage → Option Family
  | .reading f _ => some f
  | .failed f => some f
  | .waiting | .calling _ | .secondTest => none

/-- A call of the callback of the AT layer: the back end that the task worked for, the
formatter that `cm_lbs_atcmd_location_urc_rsp` chooses, and what is reported. -/
structure Report (Arg : Type) where
  producer : Option Family
  formatter : Family
  call : Arg × Delivery

inductive ReportInput (Arg : Type) where
  | mlbsloc (cbArg : Arg) (env : MlbslocEnv)
  | mlbscfg (command : SetCommand)
  | deinit
  | task (env : MessageEnv)

inductive ReportOutput (Arg : Type) where
  | located (ret : AtLocation.AtcmdErrcode)
  | configured (ret : LbsState)
  | deinited
  | task (report : Option (Report Arg))

/-- A command by the AT layer, a call of `cm_lbs_deinit`, or the next step of the task. -/
def reportStep (md5 : CStr → Digest) (s : AtService Arg) :
    ReportInput Arg → Option (AtService Arg × ReportOutput Arg)
  | .mlbsloc cbArg env => do
    let (lbs, ret) ← mlbsloc env s.dir s.service.lbs cbArg
    some (⟨s.dir, ⟨lbs, s.service.stage⟩⟩, .located ret)
  | .mlbscfg command =>
    let (ret, dir) := command.run s.dir
    ret.map fun ret => (⟨dir, s.service⟩, .configured ret)
  | .deinit => some (⟨s.dir, ⟨s.service.lbs.deinit, s.service.stage⟩⟩, .deinited)
  | .task env => do
    let (service, call) ← taskStep md5 s.service env
    some (⟨s.dir, service⟩, .task (call.map fun call =>
      ⟨stageFamily s.service.stage, urcFormatter s.dir, call⟩))

abbrev ReportTrace (Arg : Type) := List (ReportInput Arg × ReportOutput Arg)

/-- The report that a step makes. -/
def reportedBy : ReportInput Arg × ReportOutput Arg → Option (Report Arg)
  | (_, .task report) => report
  | _ => none

def reports (trace : ReportTrace Arg) : List (Report Arg) := trace.filterMap reportedBy

/-- Every report of a success is printed by the formatter for the back end that produced
it. -/
def OwnFormatter (trace : ReportTrace Arg) : Prop :=
  ∀ report ∈ reports trace, report.call.2.1 = .locationOk →
    report.producer = some report.formatter

/-- When the task ends its work for a back end, the configuration names a platform of that
back end. -/
def OwnPlatform (s : AtService Arg) : ReportInput Arg → Prop
  | .task _ => ∀ f, stageFamily s.service.stage = some f →
      family (atcmdGetplatform s.dir) = some f
  | .mlbsloc _ _ => True
  | .mlbscfg _ => True
  | .deinit => True

/-- A message is queued, or the task is at work on one. -/
def Busy (s : Service Arg) : Prop := s.lbs.queued ≠ 0 ∨ s.stage ≠ .waiting

/-- While a request is under way, no command changes the formatter. -/
def KeepsFormatter (s : AtService Arg) : ReportInput Arg → Prop
  | .mlbscfg command => Busy s.service → urcFormatter (command.run s.dir).2 = urcFormatter s.dir
  | .mlbsloc _ _ => True
  | .deinit => True
  | .task _ => True

theorem urcFormatter_of_family {dir : ConfigDir} {f : Family}
    (h : family (atcmdGetplatform dir) = some f) : urcFormatter dir = f := by
  simp only [urcFormatter]
  cases hplatform : atcmdGetplatform dir with
  | amap10 | amap20 | oneospos =>
    rw [hplatform] at h
    cases h
    rfl
  | other code =>
    rw [hplatform] at h
    cases h

theorem family_of_selected {dir : ConfigDir} (h : Selected dir) :
    family (atcmdGetplatform dir) = some (urcFormatter dir) := by
  have hfamily : ∃ f, family (atcmdGetplatform dir) = some f := by
    rcases h with (h | h) | h <;> rw [h] <;> exact ⟨_, rfl⟩
  obtain ⟨f, hf⟩ := hfamily
  rw [urcFormatter_of_family hf, hf]

/-- The task calls a callback only at the end of its work for a back end. -/
theorem taskStep_call {md5 : CStr → Digest} {s t : Service Arg} {env : MessageEnv}
    {call : Arg × Delivery} (h : taskStep md5 s env = some (t, some call)) :
    ∃ f, stageFamily s.stage = some f := by
  simp only [taskStep] at h
  split at h
  · obtain ⟨u, -, heq⟩ := Option.map_eq_some_iff.mp h
    cases heq
  · rename_i hstage
    exact ⟨.amap, by rw [hstage]; rfl⟩
  · rename_i hstage
    exact ⟨.oneospos, by rw [hstage]; rfl⟩
  · rename_i hstage
    exact ⟨.amap, by rw [hstage]; rfl⟩
  · rename_i hstage
    exact ⟨.oneospos, by rw [hstage]; rfl⟩
  · cases h
  · cases h
  · split_ifs at h
    · obtain ⟨u, -, heq⟩ := Option.map_eq_some_iff.mp h
      cases heq
    · cases h

/-- A report of a step of the task names its back end. -/
theorem report_own {md5 : CStr → Digest} {s t : AtService Arg} {i : ReportInput Arg}
    {o : ReportOutput Arg} {report : Report Arg} (hok : OwnPlatform s i)
    (hstep : reportStep md5 s i = some (t, o)) (hreport : reportedBy (i, o) = some report) :
    report.producer = some report.formatter := by
  cases i with
  | mlbsloc cbArg env =>
    obtain ⟨⟨lbs, ret⟩, -, heq⟩ := Option.bind_eq_some_iff.mp hstep
    cases heq
    cases hreport
  | mlbscfg command =>
    obtain ⟨ret, -, heq⟩ := Option.map_eq_some_iff.mp hstep
    cases heq
    cases hreport
  | deinit =>
    cases hstep
    cases hreport
  | task env =>
    obtain ⟨⟨service, call⟩, htask, heq⟩ := Option.bind_eq_some_iff.mp hstep
    cases heq
    obtain ⟨call, rfl, rfl⟩ := Option.map_eq_some_iff.mp hreport
    obtain ⟨f, hf⟩ := taskStep_call htask
    exact hf.trans (congrArg some (urcFormatter_of_family (hok f hf)).symm)

/-- A location command leaves the statics alone, or is `cm_lbs_init` for the platform of
the configuration with at most a call of `cm_lbs_location` behind it. -/
theorem mlbsloc_calls {env : MlbslocEnv} {dir : ConfigDir} {s t : Lbs Arg} {cbArg : Arg}
    {ret : AtLocation.AtcmdErrcode} (h : mlbsloc env dir s cbArg = some (t, ret)) :
    t = s ∨ ∃ attr initRet u, InitEffect env.init s (atcmdGetplatform dir) attr initRet u ∧
      (t = u ∨ LocationEffect env.location (some cbArg) u t) := by
  rcases mlbsloc_cases h with ⟨rfl, -⟩ | ⟨-, attr, -, h⟩
  · exact Or.inl rfl
  · obtain ⟨⟨initRet, u⟩, hinit, h⟩ := Option.bind_eq_some_iff.mp h
    refine Or.inr ⟨attr, initRet, u, cmLbsInit_effect hinit, ?_⟩
    by_cases hret : initRet = 0
    · simp only [if_pos hret] at h
      cases h
      exact Or.inr (locationCall_effect env.location u (some cbArg))
    · simp only [if_neg hret] at h
      cases h
      exact Or.inl rfl

theorem LocationEffect.platform {env : LocationEnv} {cb : Option Arg} {s t : Lbs Arg}
    (h : LocationEffect env cb s t) : t.platform = s.platform := by
  cases h with
  | refuses => rfl
  | sends hf hrecord hsends hplatform => exact hplatform
  | drops hf hrecord hcallback hfails hplatform => exact hplatform

/-- What commands keep that change no formatter while a request is under way. -/
structure Agrees (s : AtService Arg) : Prop where
  sound : Sound s.service
  selected : Selected s.dir
  selects : Busy s.service → family (atcmdGetplatform s.dir) = family s.service.lbs.platform
  works : ∀ f, stageFamily s.service.stage = some f → urcFormatter s.dir = f

theorem Agrees.start {dir : ConfigDir} (h : Selected dir) :
    Agrees (AtService.start dir : AtService Arg) where
  sound := Sound.start
  selected := h
  selects hbusy := hbusy.elim (fun hne => absurd rfl hne) fun hne => absurd rfl hne
  works _ hf := nomatch hf

theorem busy_of_stage {s : Service Arg} {stage : Stage} (h : s.stage = stage)
    (hne : stage ≠ .waiting) : Busy s :=
  Or.inr (h.symm ▸ hne)

theorem Agrees.mlbsloc {s : AtService Arg} {t : Lbs Arg} {cbArg : Arg} {env : MlbslocEnv}
    {ret : AtLocation.AtcmdErrcode} (h : Agrees s)
    (hstep : AtRequests.mlbsloc env s.dir s.service.lbs cbArg = some (t, ret)) :
    Agrees (⟨s.dir, ⟨t, s.service.stage⟩⟩ : AtService Arg) := by
  rcases mlbsloc_calls hstep with rfl | ⟨attr, initRet, u, hinit, hlocation⟩
  · exact h
  · have hsound : Sound ⟨u, s.service.stage⟩ := h.sound.of_init hinit
    rcases hlocation with rfl | hlocation
    · exact ⟨hsound, h.selected, fun _ => by rw [hinit.selected], h.works⟩
    · have hplatform : t.platform = atcmdGetplatform s.dir :=
        (LocationEffect.platform hlocation).trans hinit.selected
      exact ⟨hsound.of_location hlocation, h.selected, fun _ => by rw [hplatform], h.works⟩

theorem Agrees.mlbscfg {s : AtService Arg} {command : SetCommand} (h : Agrees s)
    (hok : KeepsFormatter s (.mlbscfg command)) :
    Agrees ⟨(command.run s.dir).2, s.service⟩ := by
  have hselected := (run_effect h.selected command).selected h.selected
  refine ⟨h.sound, hselected, ?_, ?_⟩
  · intro hbusy
    have hbefore := h.selects hbusy
    rw [family_of_selected h.selected] at hbefore
    exact (family_of_selected hselected).trans ((congrArg some (hok hbusy)).trans hbefore)
  · intro f hf
    have hbusy : Busy s.service := by
      refine Or.inr fun hwaiting => ?_
      rw [hwaiting] at hf
      cases hf
    exact (hok hbusy).trans (h.works f hf)

/-- The task selects no platform, and works for the one that it finds selected. -/
theorem Agrees.stageStep {s : AtService Arg} {t : Service Arg} (h : Agrees s)
    (hstep : StageStep s.service t) : Agrees ⟨s.dir, t⟩ := by
  have hsound := h.sound.of_stageStep hstep
  have hnone : ∀ {st f}, stageFamily st = some f → stageFamily st = none →
      urcFormatter s.dir = f := fun hf hst => by cases hf.symm.trans hst
  cases hstep with
  | idles hstage hidle => exact h
  | discards hstage hqueun hf =>
    refine ⟨hsound, h.selected, fun _ => ?_, fun f hf => hnone hf rfl⟩
    exact h.selects (Or.inl (by simp [Lbs.queued, hqueun]))
  | receives hstage hqueun hf hrecord =>
    have hselects := h.selects (Or.inl (by simp [Lbs.queued, hqueun]))
    refine ⟨hsound, h.selected, fun _ => hselects, ?_⟩
    intro g hg
    cases hg
    exact urcFormatter_of_family (hselects.trans hf)
  | fails hstage hrecord hworked =>
    refine ⟨hsound, h.selected, fun _ => ?_, ?_⟩
    · rw [hworked.platform]
      exact h.selects (busy_of_stage hstage (by rintro ⟨⟩))
    · intro g hg
      cases hg
      exact h.works _ (by rw [hstage]; rfl)
  | calls hstage hrecord hworked =>
    refine ⟨hsound, h.selected, fun _ => ?_, fun g hg => hnone hg rfl⟩
    rw [hworked.platform]
    exact h.selects (busy_of_stage hstage (by rintro ⟨⟩))
  | reports hstage =>
    exact ⟨hsound, h.selected, fun _ => h.selects (busy_of_stage hstage (by rintro ⟨⟩)),
      fun g hg => hnone hg rfl⟩
  | returnsAmap hstage =>
    exact ⟨hsound, h.selected, fun _ => h.selects (busy_of_stage hstage (by rintro ⟨⟩)),
      fun g hg => hnone hg rfl⟩
  | returnsOneospos hstage =>
    exact ⟨hsound, h.selected, fun _ => h.selects (busy_of_stage hstage (by rintro ⟨⟩)),
      fun f hf => hnone hf rfl⟩
  | continues hstage hplatform hrecord =>
    -- the second platform test finds OneOS, and so does the configuration
    have hselects := h.selects (busy_of_stage hstage (by rintro ⟨⟩))
    refine ⟨hsound, h.selected, fun _ => hselects, ?_⟩
    intro g hg
    cases hg
    refine urcFormatter_of_family (hselects.trans ?_)
    rw [hplatform]
    rfl
  | ends hstage =>
    exact ⟨hsound, h.selected, fun _ => h.selects (busy_of_stage hstage (by rintro ⟨⟩)),
      fun f hf => hnone hf rfl⟩

theorem Agrees.step {md5 : CStr → Digest} {s t : AtService Arg} {i : ReportInput Arg}
    {o : ReportOutput Arg} (h : Agrees s) (hok : KeepsFormatter s i)
    (hstep : reportStep md5 s i = some (t, o)) : Agrees t := by
  cases i with
  | mlbsloc cbArg env =>
    obtain ⟨⟨lbs, ret⟩, hloc, heq⟩ := Option.bind_eq_some_iff.mp hstep
    cases heq
    exact h.mlbsloc hloc
  | mlbscfg command =>
    obtain ⟨ret, -, heq⟩ := Option.map_eq_some_iff.mp hstep
    cases heq
    exact h.mlbscfg hok
  | deinit =>
    cases hstep
    exact ⟨⟨h.sound.task, h.sound.queun, h.sound.settled⟩, h.selected, h.selects, h.works⟩
  | task env =>
    obtain ⟨⟨service, call⟩, htask, heq⟩ := Option.bind_eq_some_iff.mp hstep
    cases heq
    exact h.stageStep (taskStep_cases h.sound.settled htask)

/-- It is enough that no command changes the formatter while a request is under way. -/
theorem keepsFormatter_ownPlatform {md5 : CStr → Digest} {dir : ConfigDir}
    (hdir : Selected dir) {trace : ReportTrace Arg} {s : AtService Arg}
    (h : Run (reportStep md5) (fun _ => KeepsFormatter) (.start dir) trace s) :
    Run (reportStep md5) (fun _ => OwnPlatform) (.start dir) trace s := by
  refine @Run.restrict _ _ _ _ _ _ _ (fun _ => Agrees) (Agrees.start hdir) ?_ ?_ _ _ h
  · exact fun hagrees hok hstep => hagrees.step hok hstep
  · intro trace s i hagrees _
    cases i with
    | task env =>
      intro f hf
      rw [family_of_selected hagrees.selected, hagrees.works f hf]
    | mlbscfg command => trivial
    | mlbsloc cbArg env => trivial
    | deinit => trivial

/-- Steps that report with the platform of their own back end in the configuration print
every success by its own formatter. -/
theorem ownFormatter_of_ownPlatform {md5 : CStr → Digest} {dir : ConfigDir}
    {trace : ReportTrace Arg} {s : AtService Arg}
    (h : Run (reportStep md5) (fun _ => OwnPlatform) (.start dir) trace s) :
    OwnFormatter trace := by
  intro report hreport _
  obtain ⟨⟨i, o⟩, hentry, hby⟩ := List.mem_filterMap.mp hreport
  obtain ⟨before, after, htrace⟩ := List.append_of_mem hentry
  obtain ⟨s', t, -, hok, hstep⟩ := h.step_at htrace
  exact report_own hok hstep hby

/-- In every run of commands, steps of the task and calls of `cm_lbs_deinit` in which the
configuration names the back end of the request whenever the task comes to its end, every
success is printed by its own formatter; and it is enough that no command changes the
formatter while a request is under way. -/
theorem reports_own_formatter (md5 : CStr → Digest) (dir : ConfigDir) {trace : ReportTrace Arg}
    {s : AtService Arg}
    (h : Run (reportStep md5) (fun _ => OwnPlatform) (.start dir) trace s ∨
      Selected dir ∧ Run (reportStep md5) (fun _ => KeepsFormatter) (.start dir) trace s) :
    OwnFormatter trace := by
  rcases h with h | ⟨hdir, h⟩
  · exact ownFormatter_of_ownPlatform h
  · exact ownFormatter_of_ownPlatform (keepsFormatter_ownPlatform hdir h)

/-- Two requests, with a change of the platform between the first answer and the second
request. -/
theorem reports_own_formatter_both : ∃ trace s,
    Run (reportStep fun _ => Field.zero 16) (fun _ => KeepsFormatter) (.start amapDir) trace s ∧
      (reports trace).map (fun report => (report.call.1, report.producer)) =
        [(1, some .amap), (2, some .oneospos)] ∧ OwnFormatter trace := by
  have hloc : ∀ (s : AtService Nat) cbArg env, KeepsFormatter s (.mlbsloc cbArg env) :=
    fun _ _ _ => trivial
  have hdeinit : ∀ s : AtService Nat, KeepsFormatter s .deinit := fun _ => trivial
  have htask : ∀ (s : AtService Nat) env, KeepsFormatter s (.task env) := fun _ _ => trivial
  have h₁ : Run (reportStep fun _ => Field.zero 16) (fun _ => KeepsFormatter)
      (.start amapDir) _ _ :=
    .snoc .start (hloc _ 1 mlbslocEnv) rfl
  have h₂ := h₁.snoc (htask _ messageEnv) rfl
  have h₃ := h₂.snoc (htask _ messageEnv) rfl
  have h₄ := h₃.snoc (hdeinit _) rfl
  have h₅ := h₄.snoc (htask _ messageEnv) rfl
  have h₆ := h₅.snoc (htask _ messageEnv) rfl
  -- nothing is queued and the task waits
  have hidle : ∀ s : AtService Nat, s.service.lbs.queued = 0 → s.service.stage = .waiting →
      KeepsFormatter s (.mlbscfg methodOneospos) := by
    intro s hqueued hstage hbusy
    exact absurd hbusy (not_or.mpr ⟨not_not.mpr hqueued, not_not.mpr hstage⟩)
  have h₇ := h₆.snoc (hidle _ rfl rfl) rfl
  have h₈ := h₇.snoc (hloc _ 2 mlbslocEnv) rfl
  have h₉ := h₈.snoc (htask _ messageEnv) rfl
  have h₁₀ := h₉.snoc (htask _ messageEnv) rfl
  exact ⟨_, _, h₁₀, rfl, reports_own_formatter _ _ (Or.inr ⟨Or.inl (Or.inl rfl), h₁₀⟩)⟩

/-- The task has taken a request for AMAP when the platform is changed to OneOS; the AMAP
position is then printed by the OneOS formatter. -/
theorem report_other_formatter : ∃ trace s,
    Run (reportStep fun _ => Field.zero 16) (fun _ _ _ => True) (.start amapDir) trace s ∧
      (reports trace).map (fun report => (report.call.1, report.producer, report.formatter)) =
        [(1, some .amap, .oneospos)] ∧ ¬ OwnFormatter trace := by
  have h₁ : Run (reportStep fun _ => Field.zero 16) (fun _ _ _ => True) (.start amapDir) _ _ :=
    .snoc (i := .mlbsloc 1 mlbslocEnv) .start trivial rfl
  have h₂ := h₁.snoc (i := .task messageEnv) trivial rfl
  have h₃ := h₂.snoc (i := .mlbscfg methodOneospos) trivial rfl
  have h₄ := h₃.snoc (i := .task messageEnv) trivial rfl
  refine ⟨_, _, h₄, rfl, ?_⟩
  intro hown
  have hfamily := hown _ (List.mem_singleton.mpr rfl) rfl
  exact absurd hfamily (by decide)

end AtReports
