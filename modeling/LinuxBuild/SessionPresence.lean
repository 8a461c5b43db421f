import LinuxBuild.TaskStages

/-!
# Whether the session record is there

Messages and the second platform test outlive the session records they are meant for.
The task reads an existing record in every state of a run exactly if each public call
and each return of a callback leaves the record in place that the task reads next.
-/
namespace SessionPresence
open CString LbsTypes BackendTypes AmapRequest LbsApi RequestLife LbsEffects TaskStages
open AmapBackend OneosposBackend PartialRun

variable {Arg : Type}

/-- The back end whose session record the task reads next, if nothing comes between. -/
def nextRead (s : Service Arg) : Option Family :=
  match s.stage with
  | .waiting => if s.lbs.queued ≠ 0 then family s.lbs.platform else none
  | .reading f _ => some f
  | .failed f => some f
  | .calling _ => none
  | .secondTest => if s.lbs.platform = .oneospos then some .oneospos else none

/-- The session record that the task reads next exists. -/
def SessionPresent (s : Service Arg) : Prop := ∀ f, nextRead s = some f → record s.lbs f ≠ none

/-- The condition on a call or a step of the task. While the task is going to read a
session record, `cm_lbs_init` selects a platform whose record is there or is created,
`cm_lbs_location` is able to send if that record is its own, and there is no
`cm_lbs_deinit`. When the callback of AMAP returns, the record of OneOS is there if OneOS
has been selected meanwhile. When the task goes back to its queue and a message is there,
so is the record of the selected platform; the callback of OneOS has lost its own by then. -/
def KeepsSession (s : Service Arg) : ServiceInput Arg → Prop
  | .init env platform attr =>
    ∀ f, nextRead ⟨{ s.lbs with platform := platform }, s.stage⟩ = some f →
      record s.lbs f ≠ none ∨ (family platform = some f ∧ CreatesSession env f attr)
  | .location env cb =>
    ∀ f, nextRead s = some f → family s.lbs.platform = some f →
      (f = .oneospos ∧ cb = none) ∨ (env.netstate = true ∧ env.msgsnd = true)
  | .deinit => nextRead s = none
  | .task _ =>
    match s.stage with
    | .calling .amap => s.lbs.platform = .oneospos → record s.lbs .oneospos ≠ none
    | .calling .oneospos =>
      ∀ f, nextRead ⟨s.lbs, .waiting⟩ = some f → f ≠ .oneospos ∧ record s.lbs f ≠ none
    | .secondTest =>
      s.lbs.platform ≠ .oneospos →
        ∀ f, nextRead ⟨s.lbs, .waiting⟩ = some f → record s.lbs f ≠ none
    | .waiting | .reading _ _ | .failed _ => True

/-- What the task reads next depends on the stage, the platform and the queue. -/
theorem nextRead_congr {s t : Service Arg} (hstage : t.stage = s.stage)
    (hplatform : t.lbs.platform = s.lbs.platform) (hqueued : t.lbs.queued = s.lbs.queued) :
    nextRead t = nextRead s := by
  simp only [nextRead, hstage, hplatform, hqueued]

/-- A task that reads a session record has its queue. -/
theorem queun_of_nextRead {s : Service Arg} (hs : Sound s) {f : Family}
    (h : nextRead s = some f) : s.lbs.cmLbsQueun ≠ none := by
  by_cases hstage : s.stage = .waiting
  · intro hnone
    simp [nextRead, hstage, Lbs.queued, hnone] at h
  · exact hs.queun hstage

/-- Without the session record the next step of the task faults. -/
theorem taskStep_of_not_present {md5 : CStr → Digest} {s : Service Arg} {env : MessageEnv}
    (hs : Sound s) (h : ¬ SessionPresent s) : taskStep md5 s env = none := by
  simp only [SessionPresent, not_forall, not_not] at h
  obtain ⟨f, hnext, hrecord⟩ := h
  have hqueun := queun_of_nextRead hs hnext
  cases hstep : taskStep md5 s env with
  | none => rfl
  | some r =>
    obtain ⟨t, call⟩ := r
    cases taskStep_cases hs.settled hstep with
    | idles hstage hidle =>
      simp [nextRead, hstage, Lbs.queued, hidle (hs.task hqueun)] at hnext
    | discards hstage _ hf => simp [nextRead, hstage, hf] at hnext
    | receives hstage _ hf hsome =>
      simp only [nextRead, hstage, hf] at hnext
      split_ifs at hnext
      cases hnext
      cases hrecord.symm.trans hsome
    | fails hstage hsome | calls hstage hsome | reports hstage hsome =>
      simp only [nextRead, hstage, Option.some.injEq] at hnext
      exact absurd (hnext ▸ hrecord) hsome
    | returnsAmap hstage | returnsOneospos hstage => simp [nextRead, hstage] at hnext
    | continues hstage hplatform hsome =>
      simp only [nextRead, hstage, hplatform, if_true, Option.some.injEq] at hnext
      cases hnext
      cases hrecord.symm.trans hsome
    | ends hstage hplatform => simp [nextRead, hstage, hplatform] at hnext

theorem present_init_iff {s : Service Arg} (hs : Sound s) {env : InitEnv}
    {platform : LocationPlatform} {attr : InitAttr} {ret : Int} {t : Lbs Arg}
    (heffect : InitEffect env s.lbs platform attr ret t) :
    SessionPresent ⟨t, s.stage⟩ ↔ KeepsSession s (.init env platform attr) := by
  have hqueued : t.queued = s.lbs.queued := by
    simp only [Lbs.queued, heffect.queun, queunAfter]
    by_cases htask : s.lbs.cmLbsTask = true
    · rw [if_pos htask]
    · have hnone : s.lbs.cmLbsQueun = none := by
        by_contra hne
        exact htask (hs.task hne)
      rw [if_neg htask, hnone]
      split_ifs <;> rfl
  have hnext : nextRead ⟨t, s.stage⟩ =
      nextRead ⟨{ s.lbs with platform := platform }, s.stage⟩ :=
    nextRead_congr rfl heffect.selected hqueued
  simp only [SessionPresent, KeepsSession]
  rw [hnext]
  refine forall₂_congr fun f hf => ?_
  have htasked : Tasked env s.lbs := by
    have hsound : Sound (⟨{ s.lbs with platform := platform }, s.stage⟩ : Service Arg) :=
      ⟨hs.task, hs.queun, hs.settled⟩
    have hqueun := queun_of_nextRead hsound hf
    exact Or.inl (hs.task hqueun)
  cases heffect.records with
  | @starts t g hstarts hg hrecord hother =>
    by_cases hfg : f = g
    · subst hfg
      obtain ⟨-, f', hf', -, hcreates⟩ := hstarts
      cases hg.symm.trans hf'
      exact iff_of_true hrecord (Or.inr ⟨hg, hcreates⟩)
    · rw [hother f hfg]
      refine ⟨Or.inl, fun h => h.resolve_right ?_⟩
      rintro ⟨hfamily, -⟩
      exact hfg (Option.some.inj (hfamily.symm.trans hg))
  | refuses hret hstarts hrecords =>
    rw [hrecords f]
    refine ⟨Or.inl, fun h => ?_⟩
    rcases h with hrecord | ⟨hfamily, hcreates⟩
    · exact hrecord
    · exact fun hnone => hstarts ⟨htasked, f, hfamily, hnone, hcreates⟩

theorem present_location_iff {s : Service Arg} (hs : Sound s) (hpresent : SessionPresent s)
    {env : LocationEnv} {cb : Option Arg} {t : Lbs Arg}
    (heffect : LocationEffect env cb s.lbs t) :
    SessionPresent ⟨t, s.stage⟩ ↔ KeepsSession s (.location env cb) := by
  cases heffect with
  | refuses h =>
    exact iff_of_true hpresent fun f hnext hf => Or.inl (h f hf (hpresent f hnext))
  | @sends t n f hf hrecord hsends hplatform htask hbefore hqueun hrecords =>
    refine iff_of_true ?_ fun _ _ _ => Or.inr hsends
    intro g hg
    rw [hrecords g]
    by_cases hstage : s.stage = .waiting
    · simp only [nextRead, hstage, Lbs.queued, hqueun, hplatform, hf] at hg
      split_ifs at hg
      cases hg
      exact hrecord
    · apply hpresent g
      simp only [nextRead, hplatform] at hg ⊢
      cases hs' : s.stage <;> simp_all
  | @drops t f hf hrecord hcallback hfails hplatform htask hqueun hrecords =>
    have hnext : nextRead ⟨t, s.stage⟩ = nextRead s :=
      nextRead_congr rfl hplatform (by simp only [Lbs.queued, hqueun])
    simp only [SessionPresent, KeepsSession]
    rw [hnext]
    refine forall₂_congr fun g hg => ?_
    rw [hrecords g]
    split_ifs with hgf
    · subst hgf
      refine iff_of_false (fun h => h rfl) fun h => ?_
      rcases h hf with hnull | ⟨hnet, hsnd⟩
      · exact hcallback hnull
      · exact hfails ⟨hnet, hsnd, queun_of_nextRead hs hg⟩
    · refine iff_of_true (hpresent g hg) fun hfamily => ?_
      exact absurd (Option.some.inj (hfamily.symm.trans hf)) hgf

theorem present_deinit_iff {s : Service Arg} :
    SessionPresent ⟨s.lbs.deinit, s.stage⟩ ↔ KeepsSession s .deinit := by
  have hnext : nextRead ⟨s.lbs.deinit, s.stage⟩ = nextRead s := nextRead_congr rfl rfl rfl
  have hnone : ∀ f, record s.lbs.deinit f = none := by
    rintro (_ | _) <;> rfl
  simp only [SessionPresent, KeepsSession]
  rw [hnext]
  constructor
  · intro h
    cases hread : nextRead s with
    | none => rfl
    | some f => exact absurd (hnone f) (h f hread)
  · intro h f hf
    cases h.symm.trans hf

theorem present_task_iff {s t : Service Arg} (hpresent : SessionPresent s) {env : MessageEnv}
    (hstep : StageStep s t) : SessionPresent t ↔ KeepsSession s (.task env) := by
  cases hstep with
  | idles hstage =>
    simp only [KeepsSession, hstage]
    exact iff_of_true hpresent trivial
  | discards hstage hqueun hf =>
    simp only [KeepsSession, hstage]
    refine iff_of_true ?_ trivial
    intro f hnext
    simp [nextRead, hf] at hnext
  | @receives n f session hstage hqueun hf hrecord =>
    simp only [KeepsSession, hstage]
    refine iff_of_true ?_ trivial
    intro g hg
    cases hg
    cases f <;> exact Option.ne_none_iff_exists'.mpr ⟨_, hrecord⟩
  | @fails f _ t hstage hrecord hworked =>
    simp only [KeepsSession, hstage]
    refine iff_of_true ?_ trivial
    intro g hg
    cases hg
    rwa [hworked.records]
  | calls hstage hrecord hworked =>
    simp only [KeepsSession, hstage]
    exact iff_of_true (fun g hg => nomatch hg) trivial
  | reports hstage hrecord =>
    simp only [KeepsSession, hstage]
    exact iff_of_true (fun g hg => nomatch hg) trivial
  | returnsAmap hstage =>
    simp only [KeepsSession, hstage, SessionPresent, nextRead]
    constructor
    · intro h hplatform
      exact h .oneospos (if_pos hplatform)
    · intro h g hg
      split_ifs at hg with hplatform
      cases hg
      exact h hplatform
  | returnsOneospos hstage =>
    have hnext : nextRead (⟨{ s.lbs with oneosposAttr := none }, .waiting⟩ : Service Arg) =
        nextRead ⟨s.lbs, .waiting⟩ := rfl
    simp only [KeepsSession, hstage, SessionPresent]
    rw [hnext]
    refine forall₂_congr fun g _ => ?_
    cases g with
    | amap => exact ⟨fun h => ⟨Family.noConfusion, h⟩, And.right⟩
    | oneospos => exact iff_of_false (fun h => h rfl) fun h => h.1 rfl
  | @continues session hstage hplatform hrecord =>
    simp only [KeepsSession, hstage]
    refine iff_of_true ?_ fun h => absurd hplatform h
    intro g hg
    cases hg
    exact Option.ne_none_iff_exists'.mpr ⟨session, hrecord⟩
  | ends hstage hplatform =>
    simp only [KeepsSession, hstage, SessionPresent]
    exact ⟨fun h _ => h, fun h => h hplatform⟩

/-- One call or step keeps the session record in place exactly under the condition. -/
theorem present_step_iff {md5 : CStr → Digest} {s t : Service Arg} {i : ServiceInput Arg}
    {o : ServiceOutput Arg} (hs : Sound s) (hpresent : SessionPresent s)
    (hstep : serviceStep md5 s i = some (t, o)) : SessionPresent t ↔ KeepsSession s i := by
  cases i with
  | init env platform attr =>
    obtain ⟨⟨ret, lbs⟩, hinit, heq⟩ := Option.map_eq_some_iff.mp hstep
    cases heq
    exact present_init_iff hs (cmLbsInit_effect hinit)
  | location env cb =>
    cases hstep
    exact present_location_iff hs hpresent (locationCall_effect env s.lbs cb)
  | deinit =>
    cases hstep
    exact present_deinit_iff
  | task env =>
    obtain ⟨⟨u, call⟩, htask, heq⟩ := Option.map_eq_some_iff.mp hstep
    cases heq
    exact present_task_iff hpresent (taskStep_cases hs.settled htask)

/-- For every interleaving of public calls with the steps of the task: the session record
that the task reads next exists in every state of the run exactly if every call and every
step meets the condition. -/
theorem session_present_iff (md5 : CStr → Digest) {trace : ServiceTrace Arg} {s : Service Arg} :
    Run (serviceStep md5) (fun _ s _ => SessionPresent s) .start trace s ∧ SessionPresent s ↔
      Run (serviceStep md5) (fun _ => KeepsSession) .start trace s := by
  apply Run.good_iff
  · intro f hf
    cases hf
  · intro trace s t i o hrun hpresent hstep
    exact present_step_iff (sound_of_run hrun) hpresent hstep

/-- An attribute with an api key. -/
def keyAttr : AmapLocationAttr where
  apiKey := some (cstr "key")
  timeOut := 10
  digitalSignEnable := 0
  digitalKey := none
  showFieldsEnable := 0
  nearbtsEnable := 0

/-- Everything can be created and allocated. -/
def initEnv : InitEnv where
  task := ⟨true, true⟩
  amap := ⟨true, true, true, true⟩
  oneospos := ⟨true, true, ⟨true, ⟨true, true⟩, true⟩⟩

/-- A session is prepared for AMAP, its message is sent and the session is torn down; the
task then reads through `NULL`. -/
theorem deinit_leaves_message : ∃ (trace : ServiceTrace Nat) (s : Service Nat),
    Run (serviceStep fun _ => Field.zero 16) (fun _ _ _ => True) .start trace s ∧
      trace.map Prod.snd = [.returned 0, .returned 0, .deinited] ∧ ¬ SessionPresent s ∧
      ∀ env, taskStep (fun _ => Field.zero 16) s env = none := by
  have h₁ : Run (serviceStep fun _ => Field.zero 16) (fun _ _ _ => True)
      (Service.start : Service Nat) _ _ :=
    .snoc (i := .init initEnv .amap10 (.amap keyAttr)) .start trivial rfl
  have h₂ := h₁.snoc (i := .location ⟨true, true⟩ (some 1)) trivial rfl
  have h₃ := h₂.snoc (i := .deinit) trivial rfl
  refine ⟨_, _, h₃, rfl, fun h => h .amap rfl rfl, fun env => ?_⟩
  exact taskStep_of_not_present (sound_of_run h₃) fun h => h .amap rfl rfl

end SessionPresence
