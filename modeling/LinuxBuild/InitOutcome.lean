import LinuxBuild.SessionPresence

/-!
# Whether an initialisation is all or nothing

`cm_lbs_init` selects the platform before anything is checked, and creates the thread
before the queue with the thread alone as the mark that both are there.
-/
namespace InitOutcome
open CString LbsTypes AmapRequest LbsSession OneosposBackend LbsApi RequestLife LbsEffects
open TaskStages SessionPresence PartialRun

variable {Arg : Type}

def attrIsOf : InitAttr → Family → Prop
  | .null, _ => True
  | .amap _, f => f = .amap
  | .oneospos _, f => f = .oneospos

/-- The attribute is `NULL` or of the type that belongs to the platform. -/
def OwnAttr (platform : LocationPlatform) (attr : InitAttr) : Prop :=
  ∀ f, family platform = some f → attrIsOf attr f

/-- What a call that returns 0 promises. -/
structure AllSet (t : Lbs Arg) (platform : LocationPlatform) : Prop where
  selected : t.platform = platform
  record : ∃ f, family platform = some f ∧ record t f ≠ none
  task : t.cmLbsTask = true
  queun : t.cmLbsQueun ≠ none

/-- What a call that fails promises. -/
structure Untouched (s t : Lbs Arg) : Prop where
  platform : t.platform = s.platform
  amapAttr : t.amapAttr = s.amapAttr
  oneosposAttr : t.oneosposAttr = s.oneosposAttr

/-- The call returns, either 0 with everything set or an error with nothing touched. -/
def AllOrNothing (env : InitEnv) (s : Lbs Arg) (platform : LocationPlatform) (attr : InitAttr) :
    Prop :=
  ∃ ret t, cmLbsInit env s platform attr = some (ret, t) ∧
    ((ret = 0 ∧ AllSet t platform) ∨ (ret ≠ 0 ∧ Untouched s t))

/-- The strings of the attribute can be copied: a signature key comes with an api key,
which gives the length of both copies, and a pid fits its buffer. -/
def Copyable (env : InitEnv) : InitAttr → Prop
  | .null => True
  | .amap attr => env.amap.attr = true → env.amap.auth = true → attr.digitalKey ≠ none →
      attr.apiKey ≠ none
  | .oneospos attr => env.oneospos.pid = true → ∀ pid, attr.pid = some pid → pid.length < 64

/-- Whether the queue was created by the call that created the thread. -/
def creation : ServiceInput Arg × ServiceOutput Arg → Option Bool
  | (.init env _ _, _) => if env.task.thread then some env.task.queue else none
  | _ => none

def firstCreation (trace : ServiceTrace Arg) : Option Bool := trace.findSome? creation

/-- The condition on a call after a run: if it reaches the copying of the strings they can
be copied; if it comes to fill a session record, the thread was not created without its
queue; and if not, it selects the platform that is selected already. -/
structure Meets (trace : ServiceTrace Arg) (env : InitEnv) (s : Lbs Arg)
    (platform : LocationPlatform) (attr : InitAttr) : Prop where
  copies : Tasked env s → ∀ f, family platform = some f → record s f = none → Copyable env attr
  queue : Starts env s platform attr → firstCreation trace ≠ some false
  platform : ¬ Starts env s platform attr → platform = s.platform

theorem initAmap_ne_none_iff {alloc : InitAmapAlloc} {session : Option AmapAttr}
    {platform : LocationPlatform} {attr : AmapLocationAttr} :
    initAmap alloc session platform (some attr) ≠ none ↔
      (session = none → alloc.attr = true → alloc.auth = true → attr.digitalKey ≠ none →
        attr.apiKey ≠ none) := by
  cases session with
  | some session => simp [initAmap]
  | none =>
    simp only [initAmap, Bool.and_eq_true]
    split_ifs with halloc
    · simp only [copyAmapAuthenticationByAttr]
      cases attr.digitalKey <;> cases attr.apiKey <;> simp [halloc]
    · refine iff_of_true (Option.some_ne_none _) ?_
      intro _ hattr hauth
      exact absurd ⟨hattr, hauth⟩ halloc

theorem oneosposPidConfig_length_lt_iff {alloc : Bool} {pid : Option CStr} :
    (oneosposPidConfig cmLbsReadnvConfig alloc pid).length < 64 ↔
      ∀ p, pid = some p → p.length < 64 := by
  have hdefault : ∀ alloc : Bool, (if alloc then oneosposPidInternal else []).length < 64 := by
    decide
  cases pid with
  | none => exact iff_of_true (hdefault alloc) fun p h => nomatch h
  | some p =>
    by_cases hp : unconfigured p = true
    · have hlength : p.length < 64 := by
        simp only [unconfigured, Bool.or_eq_true, decide_eq_true_eq] at hp
        rcases hp with rfl | rfl <;> decide
      have hconfig : oneosposPidConfig cmLbsReadnvConfig alloc (some p) =
          if alloc then oneosposPidInternal else [] := by
        simp [oneosposPidConfig, Option.filter, hp, cmLbsReadnvConfig]
      rw [hconfig]
      refine iff_of_true (hdefault alloc) fun q hq => ?_
      cases hq
      exact hlength
    · have hconfig : oneosposPidConfig cmLbsReadnvConfig alloc (some p) = p := by
        simp [oneosposPidConfig, Option.filter, hp]
      rw [hconfig]
      simp

theorem initOneospos_ne_none_iff {alloc : InitOneosposAlloc} {session : Option OneosposAttr}
    {attr : OneosposLocationAttr} :
    initOneospos cmLbsReadnvConfig alloc session (some attr) ≠ none ↔
      (session = none → alloc.pid = true → ∀ pid, attr.pid = some pid → pid.length < 64) := by
  cases session with
  | some session => simp [initOneospos]
  | none =>
    simp only [initOneospos]
    rw [← @oneosposPidConfig_length_lt_iff alloc.nvconfig attr.pid]
    split_ifs with hpid
    · simp only [hpid, forall_const]
      by_cases hfits : (oneosposPidConfig cmLbsReadnvConfig alloc.nvconfig attr.pid).length < 64
      · refine iff_of_true ?_ hfits
        simp only [inBuffer, if_pos hfits, createAttr, Option.bind_eq_bind, Option.bind_some]
        split_ifs <;> exact Option.some_ne_none _
      · refine iff_of_false ?_ hfits
        simp [inBuffer, if_neg hfits]
    · exact iff_of_true (Option.some_ne_none _) fun _ h => absurd h hpid

/-- The call faults only in the copying of the strings. -/
theorem cmLbsInit_ne_none_iff {env : InitEnv} {s : Lbs Arg} {platform : LocationPlatform}
    {attr : InitAttr} (hattr : OwnAttr platform attr) :
    cmLbsInit env s platform attr ≠ none ↔
      (Tasked env s → ∀ f, family platform = some f → record s f = none → Copyable env attr) := by
  simp only [cmLbsInit]
  rcases hcreate : lbsTaskCreate env.task { s with platform := platform } with ⟨state, u⟩
  obtain ⟨htasked, rfl⟩ := lbsTaskCreate_effect hcreate
  by_cases hok : state = .ok
  · subst hok
    have hs : Tasked env s := htasked.mp rfl
    simp only [hs, forall_const]
    cases hf : family platform with
    | none => exact iff_of_true (Option.some_ne_none _) (by simp)
    | some f =>
      have hiff : (∀ g, some f = some g → record s g = none → Copyable env attr) ↔
          (record s f = none → Copyable env attr) := by
        constructor
        · exact fun h => h f rfl
        · rintro h g hg
          cases hg
          exact h
      rw [hiff]
      have hown := hattr f hf
      cases f with
      | amap =>
        cases attr with
        | null =>
          refine iff_of_true ?_ fun _ => trivial
          cases s.amapAttr <;> simp [InitAttr.toAmap, initAmap]
        | oneospos attr => cases hown
        | amap attr =>
          have hinit := @initAmap_ne_none_iff env.amap s.amapAttr platform attr
          simp only [InitAttr.toAmap, Option.bind_eq_bind, Option.bind_some, record,
            Option.map_eq_none_iff, Copyable]
          rw [← hinit]
          cases initAmap env.amap s.amapAttr platform (some attr) <;> simp
      | oneospos =>
        cases attr with
        | null =>
          refine iff_of_true ?_ fun _ => trivial
          simp [InitAttr.toOneospos, initOneospos]
        | amap attr => cases hown
        | oneospos attr =>
          have hinit := @initOneospos_ne_none_iff env.oneospos s.oneosposAttr attr
          simp only [InitAttr.toOneospos, Option.bind_eq_bind, Option.bind_some, record,
            Option.map_eq_none_iff, Copyable]
          rw [← hinit]
          cases initOneospos cmLbsReadnvConfig env.oneospos s.oneosposAttr (some attr) <;> simp
  · have hs : ¬ Tasked env s := fun h => hok (htasked.mpr h)
    refine iff_of_true ?_ fun h => absurd h hs
    cases state with
    | ok => exact absurd rfl hok
    | err | busy | paramErr | memroyErr | repeErr => exact Option.some_ne_none _

/-- The first call that created the thread tells whether there is a queue. -/
structure Created (trace : ServiceTrace Arg) (s : Lbs Arg) : Prop where
  task : s.cmLbsTask = (firstCreation trace).isSome
  queun : s.cmLbsQueun ≠ none ↔ firstCreation trace = some true

theorem firstCreation_snoc (trace : ServiceTrace Arg)
    (entry : ServiceInput Arg × ServiceOutput Arg) :
    firstCreation (trace ++ [entry]) = (firstCreation trace).or (creation entry) := by
  simp only [firstCreation, List.findSome?_append]
  cases hentry : creation entry <;> simp [hentry]

/-- A step that creates nothing keeps the thread and the queue. -/
theorem Created.kept {trace : ServiceTrace Arg} {s t : Lbs Arg} (h : Created trace s)
    {entry : ServiceInput Arg × ServiceOutput Arg} (hentry : creation entry = none)
    (htask : t.cmLbsTask = s.cmLbsTask)
    (hqueun : t.cmLbsQueun ≠ none ↔ s.cmLbsQueun ≠ none) : Created (trace ++ [entry]) t := by
  have hsame : firstCreation (trace ++ [entry]) = firstCreation trace := by
    rw [firstCreation_snoc, hentry, Option.or_none]
  constructor
  · rw [hsame, htask]
    exact h.task
  · rw [hsame, hqueun]
    exact h.queun

theorem Created.init {trace : ServiceTrace Arg} {s t : Lbs Arg} (h : Created trace s)
    {env : InitEnv} {platform : LocationPlatform} {attr : InitAttr} {ret : Int}
    (heffect : InitEffect env s platform attr ret t) (o : ServiceOutput Arg) :
    Created (trace ++ [(.init env platform attr, o)]) t := by
  have hentry : creation (ServiceInput.init env platform attr, o) =
      if env.task.thread then some env.task.queue else none := rfl
  cases hfirst : firstCreation trace with
  | some queue =>
    have htask : s.cmLbsTask = true := by rw [h.task, hfirst, Option.isSome_some]
    have hsame : firstCreation (trace ++ [(.init env platform attr, o)]) = some queue := by
      rw [firstCreation_snoc, hfirst, Option.some_or]
    constructor
    · rw [hsame, heffect.task, htask]
      rfl
    · rw [hsame, heffect.queun, queunAfter, if_pos htask, h.queun, hfirst]
  | none =>
    have htask : s.cmLbsTask = false := by rw [h.task, hfirst, Option.isSome_none]
    have hqueun : s.cmLbsQueun = none := by
      by_contra hne
      cases hfirst.symm.trans (h.queun.mp hne)
    have hlast : firstCreation (trace ++ [(.init env platform attr, o)]) =
        if env.task.thread then some env.task.queue else none := by
      rw [firstCreation_snoc, hfirst, hentry, Option.none_or]
    constructor
    · rw [hlast, heffect.task, htask]
      cases env.task.thread <;> rfl
    · rw [hlast, heffect.queun, queunAfter, htask, hqueun]
      cases env.task.thread <;> cases env.task.queue <;> simp

theorem Created.location {trace : ServiceTrace Arg} {s t : Lbs Arg} (h : Created trace s)
    {env : LocationEnv} {cb : Option Arg} (heffect : LocationEffect env cb s t)
    (o : ServiceOutput Arg) : Created (trace ++ [(.location env cb, o)]) t := by
  cases heffect with
  | refuses => exact h.kept rfl rfl Iff.rfl
  | sends _ _ _ _ htask hbefore hqueun => exact h.kept rfl htask (by simp [hbefore, hqueun])
  | drops _ _ _ _ _ htask hqueun => exact h.kept rfl htask (by rw [hqueun])

theorem Created.step {md5 : CStr → Digest} {trace : ServiceTrace Arg} {s t : Service Arg}
    {i : ServiceInput Arg} {o : ServiceOutput Arg} (hs : Sound s) (h : Created trace s.lbs)
    (hstep : serviceStep md5 s i = some (t, o)) : Created (trace ++ [(i, o)]) t.lbs := by
  cases i with
  | init env platform attr =>
    obtain ⟨⟨ret, lbs⟩, hinit, heq⟩ := Option.map_eq_some_iff.mp hstep
    cases heq
    exact h.init (cmLbsInit_effect hinit) _
  | location env cb =>
    cases hstep
    exact h.location (locationCall_effect env s.lbs cb) _
  | deinit =>
    cases hstep
    exact h.kept rfl rfl Iff.rfl
  | task env =>
    obtain ⟨⟨u, call⟩, htask, heq⟩ := Option.map_eq_some_iff.mp hstep
    cases heq
    cases taskStep_cases hs.settled htask with
    | idles | reports | returnsAmap | returnsOneospos | continues | ends =>
      exact h.kept rfl rfl Iff.rfl
    | discards _ hqueun | receives _ hqueun => exact h.kept rfl rfl (by simp [hqueun])
    | fails _ _ hworked | calls _ _ hworked =>
      exact h.kept rfl hworked.task (by rw [hworked.queun])

theorem created_of_run {md5 : CStr → Digest} {trace : ServiceTrace Arg} {s : Service Arg}
    (h : Run (serviceStep md5) (fun _ _ _ => True) .start trace s) : Created trace s.lbs := by
  have hboth : Sound s ∧ Created trace s.lbs := by
    refine @Run.invariant _ _ _ _ _ _ (fun trace s => Sound s ∧ Created trace s.lbs)
      ⟨.start, rfl, by simp [firstCreation, Service.start, Lbs.start]⟩ ?_ _ _ h
    exact fun hs _ hstep => ⟨hs.1.step hstep, hs.2.step hs.1 hstep⟩
  exact hboth.2

theorem attr_eq_of_record {s t : Lbs Arg} (h : ∀ g, record t g = record s g) :
    t.amapAttr = s.amapAttr ∧ t.oneosposAttr = s.oneosposAttr := by
  constructor
  · exact Option.map_injective (fun _ _ heq => Session.amap.inj heq) (h .amap)
  · exact Option.map_injective (fun _ _ heq => Session.oneospos.inj heq) (h .oneospos)

/-- A call that fills a session record has set everything exactly if the thread was not
created without its queue. -/
theorem allSet_iff {trace : ServiceTrace Arg} {s t : Lbs Arg} (h : Created trace s)
    {env : InitEnv} {platform : LocationPlatform} {attr : InitAttr} {ret : Int} {f : Family}
    (heffect : InitEffect env s platform attr ret t) (hstarts : Starts env s platform attr)
    (hf : family platform = some f) (hrecord : record t f ≠ none) :
    AllSet t platform ↔ firstCreation trace ≠ some false := by
  have hqueun : t.cmLbsQueun ≠ none ↔ firstCreation trace ≠ some false := by
    rw [heffect.queun, queunAfter, h.task]
    cases hfirst : firstCreation trace with
    | none =>
      rcases hstarts.1 with htask | ⟨hthread, hqueue⟩
      · rw [h.task, hfirst] at htask
        cases htask
      · simp [hthread, hqueue]
    | some queue =>
      simp only [Option.isSome_some, if_true]
      rw [h.queun, hfirst]
      cases queue <;> simp
  constructor
  · exact fun hset => hqueun.mp hset.queun
  · intro hfirst
    refine ⟨heffect.selected, ⟨f, hf, hrecord⟩, ?_, hqueun.mpr hfirst⟩
    rw [heffect.task, Bool.or_eq_true]
    exact hstarts.1.imp id And.left

/-- After every run of public calls and steps of the task, a call of `cm_lbs_init` is all
or nothing exactly if it meets the condition. -/
theorem init_all_or_nothing_iff (md5 : CStr → Digest) {trace : ServiceTrace Arg}
    {s : Service Arg} (h : Run (serviceStep md5) (fun _ _ _ => True) .start trace s)
    {env : InitEnv} {platform : LocationPlatform} {attr : InitAttr}
    (hattr : OwnAttr platform attr) :
    AllOrNothing env s.lbs platform attr ↔ Meets trace env s.lbs platform attr := by
  have hcreated := created_of_run h
  have hreturns := @cmLbsInit_ne_none_iff _ env s.lbs platform attr hattr
  cases hinit : cmLbsInit env s.lbs platform attr with
  | none =>
    refine iff_of_false ?_ fun hmeets => hreturns.mpr hmeets.copies hinit
    rintro ⟨ret, t, hsome, -⟩
    cases hinit.symm.trans hsome
  | some r =>
    obtain ⟨ret, t⟩ := r
    have hcopies := hreturns.mp (by simp [hinit])
    have hunique : AllOrNothing env s.lbs platform attr ↔
        (ret = 0 ∧ AllSet t platform) ∨ (ret ≠ 0 ∧ Untouched s.lbs t) := by
      constructor
      · rintro ⟨ret', t', hsome, houtcome⟩
        cases hinit.symm.trans hsome
        exact houtcome
      · exact fun houtcome => ⟨ret, t, hinit, houtcome⟩
    have heffect := cmLbsInit_effect hinit
    rw [hunique]
    cases heffect.records with
    | starts hstarts hf hrecord hother =>
      have hset := allSet_iff hcreated heffect hstarts hf hrecord
      constructor
      · rintro (⟨-, hall⟩ | ⟨hne, -⟩)
        · exact ⟨hcopies, fun _ => hset.mp hall, fun hnot => absurd hstarts hnot⟩
        · exact absurd rfl hne
      · exact fun hmeets => Or.inl ⟨rfl, hset.mpr (hmeets.queue hstarts)⟩
    | refuses hret hstarts hrecords =>
      obtain ⟨hamap, honeospos⟩ := attr_eq_of_record hrecords
      constructor
      · rintro (⟨hzero, -⟩ | ⟨-, huntouched⟩)
        · exact absurd hzero hret
        · refine ⟨hcopies, fun h => absurd h hstarts, fun _ => ?_⟩
          exact heffect.selected.symm.trans huntouched.platform
      · intro hmeets
        refine Or.inr ⟨hret, ?_, hamap, honeospos⟩
        exact heffect.selected.trans (hmeets.platform hstarts)

/-- The first call prepares a session for OneOS and sends a message; the call behind them
prepares one for AMAP. -/
theorem init_all_or_nothing_second : ∃ (trace : ServiceTrace Nat) (s : Service Nat),
    Run (serviceStep fun _ => Field.zero 16) (fun _ _ _ => True) .start trace s ∧
      trace.map Prod.snd = [.returned 0, .returned 0] ∧
      s.lbs.platform = .oneospos ∧
      AllOrNothing initEnv s.lbs .amap10 (.amap keyAttr) := by
  have hown : OwnAttr .amap10 (.amap keyAttr) := by
    intro f hf
    cases hf
    rfl
  have h₁ : Run (serviceStep fun _ => Field.zero 16) (fun _ _ _ => True)
      (Service.start : Service Nat) _ _ :=
    .snoc (i := .init initEnv .oneospos (.oneospos ⟨some (cstr "pid"), 10, 0⟩)) .start
      trivial rfl
  have h₂ := h₁.snoc (i := .location ⟨true, true⟩ (some 1)) trivial rfl
  refine ⟨_, _, h₂, rfl, rfl, ?_⟩
  refine (init_all_or_nothing_iff (fun _ => Field.zero 16) h₂ hown).mpr ?_
  refine ⟨fun _ _ _ _ _ _ hkey => absurd rfl hkey, fun _ h => ?_, fun hnot => ?_⟩
  · cases h
  · exact absurd ⟨Or.inl rfl, .amap, rfl, rfl, rfl, rfl⟩ hnot

/-- The thread is created and its queue is not; the next call returns 0 without one. -/
theorem init_without_queue : ∃ (trace : ServiceTrace Nat) (s : Service Nat),
    Run (serviceStep fun _ => Field.zero 16) (fun _ _ _ => True) .start trace s ∧
      (∃ t, cmLbsInit initEnv s.lbs .amap10 (.amap keyAttr) = some (0, t) ∧
        t.cmLbsQueun = none) ∧
      ¬ AllOrNothing initEnv s.lbs .amap10 (.amap keyAttr) := by
  have h₁ : Run (serviceStep fun _ => Field.zero 16) (fun _ _ _ => True)
      (Service.start : Service Nat) _ _ :=
    .snoc (i := .init { initEnv with task := ⟨true, false⟩ } .amap10 (.amap keyAttr)) .start
      trivial rfl
  refine ⟨_, _, h₁, ⟨_, rfl, rfl⟩, ?_⟩
  rintro ⟨ret, t, hinit, ⟨-, hset⟩ | ⟨hret, -⟩⟩
  · cases hinit
    exact hset.queun rfl
  · cases hinit
    exact hret rfl

end InitOutcome
