import LinuxBuild.RequestLife

/-!
# What the public functions do to the statics

For any state, and for any outcome of the allocations, of the network test, of the
creation of the thread and of the queue, and of the sending of a message.
-/
namespace LbsEffects
open CString LbsTypes LbsSession OneosposBackend LbsApi RequestLife

variable {Arg : Type}

/-- `cm_lbs_location` without a callback: AMAP registers it, OneOS refuses it. -/
def cmLbsLocationNull (env : LocationEnv) (s : Lbs Arg) : Int × Lbs Arg :=
  match family s.platform, s.amapAttr with
  | some .amap, some _ =>
    if env.netstate then
      match queueSend env.msgsnd { s with amapMsg := none } with
      | (.ok, s) => (0, s)
      | (_, s) => (-3, { s with amapAttr := none })
    else (-2, { s with amapAttr := none })
  | _, _ => (-1, s)

/-- `cm_lbs_location` for any callback. -/
def locationCall (env : LocationEnv) (s : Lbs Arg) : Option Arg → Int × Lbs Arg
  | some cbArg => cmLbsLocation env s cbArg
  | none => cmLbsLocationNull env s

/-- What a call of `cm_lbs_location` does to the statics: nothing, since there is no
session record to send or no callback for it; a message is sent; or the record is
dropped since the message cannot be sent. -/
inductive LocationEffect (env : LocationEnv) (cb : Option Arg) (s : Lbs Arg) : Lbs Arg → Prop where
  | refuses (h : ∀ f, family s.platform = some f → record s f ≠ none → f = .oneospos ∧ cb = none) :
      LocationEffect env cb s s
  | sends {t : Lbs Arg} {n : Nat} {f : Family} (hf : family s.platform = some f)
      (hrecord : record s f ≠ none) (hsends : env.netstate = true ∧ env.msgsnd = true)
      (hplatform : t.platform = s.platform) (htask : t.cmLbsTask = s.cmLbsTask)
      (hbefore : s.cmLbsQueun = some n) (hqueun : t.cmLbsQueun = some (n + 1))
      (hrecords : ∀ g, record t g = record s g) (hamap : t.amap = s.amap)
      (honeospos : t.oneospos = s.oneospos) : LocationEffect env cb s t
  | drops {t : Lbs Arg} {f : Family} (hf : family s.platform = some f)
      (hrecord : record s f ≠ none) (hcallback : ¬ (f = .oneospos ∧ cb = none))
      (hfails : ¬ (env.netstate = true ∧ env.msgsnd = true ∧ s.cmLbsQueun ≠ none))
      (hplatform : t.platform = s.platform) (htask : t.cmLbsTask = s.cmLbsTask)
      (hqueun : t.cmLbsQueun = s.cmLbsQueun)
      (hrecords : ∀ g, record t g = if g = f then none else record s g) (hamap : t.amap = s.amap)
      (honeospos : t.oneospos = s.oneospos) : LocationEffect env cb s t

theorem queueSend_cases (msgsnd : Bool) (s : Lbs Arg) :
    (∃ n, s.cmLbsQueun = some n ∧ msgsnd = true ∧
      queueSend msgsnd s = (.ok, { s with cmLbsQueun := some (n + 1) })) ∨
    (¬ (msgsnd = true ∧ s.cmLbsQueun ≠ none) ∧ queueSend msgsnd s = (.err, s)) := by
  cases hqueun : s.cmLbsQueun with
  | none => exact Or.inr ⟨fun h => h.2 rfl, by simp [queueSend, hqueun]⟩
  | some n =>
    cases msgsnd with
    | false => exact Or.inr ⟨fun h => Bool.noConfusion h.1, by simp [queueSend, hqueun]⟩
    | true => exact Or.inl ⟨n, rfl, rfl, by simp [queueSend, hqueun]⟩

/-- Without the record of one back end the other one keeps its own. -/
theorem record_without {s t : Lbs Arg} {f : Family} (hnone : record t f = none)
    (hother : ∀ g, g ≠ f → record t g = record s g) (g : Family) :
    record t g = if g = f then none else record s g := by
  split_ifs with hg
  · rw [hg, hnone]
  · exact hother g hg

theorem record_without_amap (s : Lbs Arg) (m : Option Arg) (g : Family) :
    record { s with amapMsg := m, amapAttr := none } g =
      if g = .amap then none else record s g := by
  refine record_without rfl ?_ g
  rintro (_ | _) hg
  · exact absurd rfl hg
  · rfl

theorem record_without_oneospos (s : Lbs Arg) (m : Option Arg) (g : Family) :
    record { s with oneosposMsg := m, oneosposAttr := none } g =
      if g = .oneospos then none else record s g := by
  refine record_without rfl ?_ g
  rintro (_ | _) hg
  · rfl
  · exact absurd rfl hg

/-- `cm_lbs_location_amap` once there is a session record. -/
def sendAmap (env : LocationEnv) (s : Lbs Arg) (m : Option Arg) : Int × Lbs Arg :=
  if env.netstate then
    match queueSend env.msgsnd { s with amapMsg := m } with
    | (.ok, s) => (0, s)
    | (_, s) => (-3, { s with amapAttr := none })
  else (-2, { s with amapAttr := none })

/-- The record of AMAP is sent with what is registered for it, or dropped. -/
theorem sendAmap_effect (env : LocationEnv) {s : Lbs Arg} (hf : family s.platform = some .amap)
    (hrecord : record s .amap ≠ none) (cb m : Option Arg) :
    LocationEffect env cb s (sendAmap env s m).2 := by
  have hcallback : ¬ (Family.amap = .oneospos ∧ cb = none) :=
    fun h => absurd h.1 (by decide)
  simp only [sendAmap]
  split_ifs with hnet
  · rcases queueSend_cases env.msgsnd { s with amapMsg := m } with
      ⟨n, hn, hsnd, hsend⟩ | ⟨hfails, hsend⟩
    · rw [hsend]
      refine .sends hf hrecord ⟨hnet, hsnd⟩ rfl rfl hn rfl ?_ rfl rfl
      rintro (_ | _) <;> rfl
    · rw [hsend]
      exact .drops hf hrecord hcallback (fun h => hfails h.2) rfl rfl rfl
        (record_without_amap s _) rfl rfl
  · exact .drops hf hrecord hcallback (fun h => hnet h.1) rfl rfl rfl
      (record_without_amap s s.amapMsg) rfl rfl

theorem locationAmap_effect (env : LocationEnv) {s : Lbs Arg}
    (hf : family s.platform = some .amap) (cbArg : Arg) :
    LocationEffect env (some cbArg) s (locationAmap env s cbArg).2 := by
  simp only [locationAmap]
  split
  · rename_i hnone
    refine .refuses fun f hf' hrecord => ?_
    cases hf.symm.trans hf'
    exact absurd (by simp [record, hnone]) hrecord
  · rename_i attr hattr
    have hrecord : record s .amap ≠ none := by simp [record, hattr]
    exact sendAmap_effect env hf hrecord (some cbArg) (some cbArg)

theorem locationOneospos_effect (env : LocationEnv) {s : Lbs Arg}
    (hf : family s.platform = some .oneospos) (cbArg : Arg) :
    LocationEffect env (some cbArg) s (locationOneospos env s cbArg).2 := by
  have hcallback : ¬ (Family.oneospos = .oneospos ∧ some cbArg = none) :=
    fun h => Option.some_ne_none _ h.2
  unfold locationOneospos
  split
  · rename_i hnone
    refine .refuses fun f hf' hrecord => ?_
    cases hf.symm.trans hf'
    exact absurd (by simp [record, hnone]) hrecord
  · rename_i attr hattr
    have hrecord : record s .oneospos ≠ none := by simp [record, hattr]
    split_ifs with hnet
    · rcases queueSend_cases env.msgsnd { s with oneosposMsg := some cbArg } with
        ⟨n, hn, hsnd, hsend⟩ | ⟨hfails, hsend⟩
      · rw [hsend]
        refine .sends hf hrecord ⟨hnet, hsnd⟩ rfl rfl hn rfl ?_ rfl rfl
        rintro (_ | _) <;> rfl
      · rw [hsend]
        exact .drops hf hrecord hcallback (fun h => hfails h.2) rfl rfl rfl
          (record_without_oneospos s _) rfl rfl
    · exact .drops hf hrecord hcallback (fun h => hnet h.1) rfl rfl rfl
        (record_without_oneospos s s.oneosposMsg) rfl rfl

theorem cmLbsLocationNull_effect (env : LocationEnv) (s : Lbs Arg) :
    LocationEffect env none s (cmLbsLocationNull env s).2 := by
  simp only [cmLbsLocationNull]
  split
  · rename_i attr hf hattr
    have hrecord : record s .amap ≠ none := by simp [record, hattr]
    exact sendAmap_effect env hf hrecord none none
  · rename_i hnot
    refine .refuses fun f hf hrecord => ?_
    cases f with
    | amap =>
      obtain ⟨session, hsession⟩ := Option.ne_none_iff_exists'.mp hrecord
      obtain ⟨attr, hattr, -⟩ := Option.map_eq_some_iff.mp hsession
      exact absurd hattr (hnot attr hf)
    | oneospos => exact ⟨rfl, rfl⟩

/-- A call of `cm_lbs_location` has one of the three effects. -/
theorem locationCall_effect (env : LocationEnv) (s : Lbs Arg) (cb : Option Arg) :
    LocationEffect env cb s (locationCall env s cb).2 := by
  cases cb with
  | none => exact cmLbsLocationNull_effect env s
  | some cbArg =>
    simp only [locationCall, cmLbsLocation]
    split
    · rename_i hf
      exact locationAmap_effect env hf cbArg
    · rename_i hf
      exact locationOneospos_effect env hf cbArg
    · rename_i hf
      refine .refuses fun f hf' _ => ?_
      cases hf.symm.trans hf'

/-- The allocations of a session record of `f`, from an attribute of `f`. -/
def CreatesSession (env : InitEnv) : Family → InitAttr → Prop
  | .amap, .amap _ => env.amap.attr = true ∧ env.amap.auth = true
  | .oneospos, .oneospos _ => env.oneospos.pid = true ∧ env.oneospos.attr.attr = true ∧
      env.oneospos.attr.pid = true
  | _, _ => False

/-- The task and its queue are there, or are created. -/
def Tasked (env : InitEnv) (s : Lbs Arg) : Prop :=
  s.cmLbsTask = true ∨ (env.task.thread = true ∧ env.task.queue = true)

/-- `cm_lbs_init` comes to fill a session record. -/
def Starts (env : InitEnv) (s : Lbs Arg) (platform : LocationPlatform) (attr : InitAttr) : Prop :=
  Tasked env s ∧ ∃ f, family platform = some f ∧ record s f = none ∧ CreatesSession env f attr

/-- The queue handle after `cm_lbs_task_create`. -/
def queunAfter (env : TaskEnv) (s : Lbs Arg) : Option Nat :=
  if s.cmLbsTask then s.cmLbsQueun
  else if env.thread then (if env.queue then some 0 else none) else s.cmLbsQueun

/-- What `cm_lbs_init` does to the session records. -/
inductive InitRecords (env : InitEnv) (s : Lbs Arg) (platform : LocationPlatform)
    (attr : InitAttr) : Int → Lbs Arg → Prop where
  | starts {t : Lbs Arg} {f : Family} (hstarts : Starts env s platform attr)
      (hf : family platform = some f) (hrecord : record t f ≠ none)
      (hother : ∀ g, g ≠ f → record t g = record s g) : InitRecords env s platform attr 0 t
  | refuses {ret : Int} {t : Lbs Arg} (hret : ret ≠ 0) (hstarts : ¬ Starts env s platform attr)
      (hrecords : ∀ g, record t g = record s g) : InitRecords env s platform attr ret t

/-- What `cm_lbs_init` does. -/
structure InitEffect (env : InitEnv) (s : Lbs Arg) (platform : LocationPlatform)
    (attr : InitAttr) (ret : Int) (t : Lbs Arg) : Prop where
  selected : t.platform = platform
  task : t.cmLbsTask = (s.cmLbsTask || env.task.thread)
  queun : t.cmLbsQueun = queunAfter env.task s
  amap : t.amap = s.amap
  oneospos : t.oneospos = s.oneospos
  records : InitRecords env s platform attr ret t

theorem initAmap_records {alloc : InitAmapAlloc} {session session' : Option AmapAttr}
    {platform : LocationPlatform} {attr : Option AmapLocationAttr} {ret : Int}
    (h : initAmap alloc session platform attr = some (ret, session')) :
    (ret = 0 ∧ (session = none ∧ attr ≠ none ∧ alloc.attr = true ∧ alloc.auth = true) ∧
      session' ≠ none) ∨
    (ret ≠ 0 ∧ ¬ (session = none ∧ attr ≠ none ∧ alloc.attr = true ∧ alloc.auth = true) ∧
      session' = session) := by
  simp only [initAmap] at h
  split at h
  · cases h
    exact Or.inr ⟨by decide, fun h => Option.some_ne_none _ h.1, rfl⟩
  · cases h
    exact Or.inr ⟨by decide, fun h => h.2.1 rfl, rfl⟩
  · split_ifs at h with halloc
    · obtain ⟨auth, -, h⟩ := Option.bind_eq_some_iff.mp h
      cases h
      rw [Bool.and_eq_true] at halloc
      exact Or.inl ⟨rfl, ⟨rfl, Option.some_ne_none _, halloc⟩, Option.some_ne_none _⟩
    · cases h
      rw [Bool.and_eq_true] at halloc
      exact Or.inr ⟨by decide, fun h => halloc h.2.2, rfl⟩

theorem initOneospos_records {nv : Option NvConfig} {alloc : InitOneosposAlloc}
    {session session' : Option OneosposAttr} {attr : Option OneosposLocationAttr} {ret : Int}
    (h : initOneospos nv alloc session attr = some (ret, session')) :
    (ret = 0 ∧ (session = none ∧ attr ≠ none ∧ alloc.pid = true ∧ alloc.attr.attr = true ∧
      alloc.attr.pid = true) ∧ session' ≠ none) ∨
    (ret ≠ 0 ∧ ¬ (session = none ∧ attr ≠ none ∧ alloc.pid = true ∧ alloc.attr.attr = true ∧
      alloc.attr.pid = true) ∧ session' = session) := by
  simp only [initOneospos] at h
  split at h
  · cases h
    exact Or.inr ⟨by decide, fun h => h.2.1 rfl, rfl⟩
  · cases h
    exact Or.inr ⟨by decide, fun h => Option.some_ne_none _ h.1, rfl⟩
  · split_ifs at h with hpid
    · obtain ⟨pid, -, h⟩ := Option.bind_eq_some_iff.mp h
      simp only [createAttr] at h
      split_ifs at h with hattr hcopy
      · cases h
        exact Or.inl ⟨rfl, ⟨rfl, Option.some_ne_none _, hpid, hattr, hcopy⟩,
          Option.some_ne_none _⟩
      · cases h
        exact Or.inr ⟨by decide, fun h => hcopy h.2.2.2.2, rfl⟩
      · cases h
        exact Or.inr ⟨by decide, fun h => hattr h.2.2.2.1, rfl⟩
    · cases h
      exact Or.inr ⟨by decide, fun h => hpid h.2.2.1, rfl⟩

theorem lbsTaskCreate_effect {env : TaskEnv} {s t : Lbs Arg} {ret : LbsState}
    (h : lbsTaskCreate env s = (ret, t)) :
    (ret = .ok ↔ s.cmLbsTask = true ∨ (env.thread = true ∧ env.queue = true)) ∧
      t = { s with
        cmLbsTask := s.cmLbsTask || env.thread
        cmLbsQueun := queunAfter env s } := by
  simp only [lbsTaskCreate] at h
  split_ifs at h with htask hthread hqueue
  · cases h
    refine ⟨iff_of_true rfl (Or.inl htask), ?_⟩
    simp only [queunAfter, htask, if_true, Bool.true_or]
    rw [← htask]
  · cases h
    refine ⟨iff_of_true rfl (Or.inr ⟨hthread, hqueue⟩), ?_⟩
    simp [queunAfter, htask, hthread, hqueue]
  · cases h
    refine ⟨iff_of_false LbsState.noConfusion fun h => ?_, ?_⟩
    · exact h.elim htask fun h => hqueue h.2
    · simp [queunAfter, htask, hthread, hqueue]
  · cases h
    refine ⟨iff_of_false LbsState.noConfusion fun h => ?_, ?_⟩
    · exact h.elim htask fun h => hthread h.1
    · cases s
      simp_all [queunAfter]

/-- The session records after `cm_lbs_init_amap`. -/
theorem initRecords_amap {env : InitEnv} {s t : Lbs Arg} {platform : LocationPlatform}
    {attr : InitAttr} {a : Option AmapLocationAttr} {ret : Int} {session : Option AmapAttr}
    (htasked : Tasked env s) (hfamily : family platform = some .amap)
    (hattr : attr.toAmap = some a) (hinit : initAmap env.amap s.amapAttr platform a =
      some (ret, session)) (hsession : t.amapAttr = session)
    (hother : t.oneosposAttr = s.oneosposAttr) : InitRecords env s platform attr ret t := by
  have hiff : Starts env s platform attr ↔
      (s.amapAttr = none ∧ a ≠ none ∧ env.amap.attr = true ∧ env.amap.auth = true) := by
    constructor
    · rintro ⟨-, f, hf, hnone, hcreates⟩
      cases hfamily.symm.trans hf
      cases attr with
      | null => exact hcreates.elim
      | oneospos attr => exact hcreates.elim
      | amap attr =>
        cases hattr
        exact ⟨Option.map_eq_none_iff.mp hnone, Option.some_ne_none _, hcreates⟩
    · rintro ⟨hnone, ha, halloc⟩
      refine ⟨htasked, .amap, hfamily, Option.map_eq_none_iff.mpr hnone, ?_⟩
      cases attr with
      | null =>
        cases hattr
        exact absurd rfl ha
      | oneospos attr => cases hattr
      | amap attr => exact halloc
  rcases initAmap_records hinit with ⟨rfl, hstarts, hsome⟩ | ⟨hret, hstarts, rfl⟩
  · refine .starts (hiff.mpr hstarts) hfamily ?_ ?_
    · simpa [record, hsession] using hsome
    · rintro (_ | _) hg
      · exact absurd rfl hg
      · simp [record, hother]
  · refine .refuses hret (fun h => hstarts (hiff.mp h)) ?_
    rintro (_ | _)
    · simp [record, hsession]
    · simp [record, hother]

/-- The session records after `cm_lbs_init_oneospos`. -/
theorem initRecords_oneospos {env : InitEnv} {s t : Lbs Arg} {platform : LocationPlatform}
    {attr : InitAttr} {a : Option OneosposLocationAttr} {ret : Int}
    {session : Option OneosposAttr} (htasked : Tasked env s)
    (hfamily : family platform = some .oneospos) (hattr : attr.toOneospos = some a)
    (hinit : initOneospos cmLbsReadnvConfig env.oneospos s.oneosposAttr a = some (ret, session))
    (hsession : t.oneosposAttr = session) (hother : t.amapAttr = s.amapAttr) :
    InitRecords env s platform attr ret t := by
  have hiff : Starts env s platform attr ↔
      (s.oneosposAttr = none ∧ a ≠ none ∧ env.oneospos.pid = true ∧
        env.oneospos.attr.attr = true ∧ env.oneospos.attr.pid = true) := by
    constructor
    · rintro ⟨-, f, hf, hnone, hcreates⟩
      cases hfamily.symm.trans hf
      cases attr with
      | null => exact hcreates.elim
      | amap attr => exact hcreates.elim
      | oneospos attr =>
        cases hattr
        exact ⟨Option.map_eq_none_iff.mp hnone, Option.some_ne_none _, hcreates⟩
    · rintro ⟨hnone, ha, halloc⟩
      refine ⟨htasked, .oneospos, hfamily, Option.map_eq_none_iff.mpr hnone, ?_⟩
      cases attr with
      | null =>
        cases hattr
        exact absurd rfl ha
      | amap attr => cases hattr
      | oneospos attr => exact halloc
  rcases initOneospos_records hinit with ⟨rfl, hstarts, hsome⟩ | ⟨hret, hstarts, rfl⟩
  · refine .starts (hiff.mpr hstarts) hfamily ?_ ?_
    · simpa [record, hsession] using hsome
    · rintro (_ | _) hg
      · simp [record, hother]
      · exact absurd rfl hg
  · refine .refuses hret (fun h => hstarts (hiff.mp h)) ?_
    rintro (_ | _)
    · simp [record, hother]
    · simp [record, hsession]

/-- What a call of `cm_lbs_init` that returns has done. -/
theorem cmLbsInit_effect {env : InitEnv} {s t : Lbs Arg} {platform : LocationPlatform}
    {attr : InitAttr} {ret : Int} (h : cmLbsInit env s platform attr = some (ret, t)) :
    InitEffect env s platform attr ret t := by
  simp only [cmLbsInit] at h
  rcases hcreate : lbsTaskCreate env.task { s with platform := platform } with ⟨state, u⟩
  rw [hcreate] at h
  obtain ⟨htasked, rfl⟩ := lbsTaskCreate_effect hcreate
  split at h
  · rename_i heq
    cases heq
    have hs : Tasked env s := htasked.mp rfl
    split at h
    · rename_i hfamily
      obtain ⟨a, hattr, h⟩ := Option.bind_eq_some_iff.mp h
      obtain ⟨⟨ret', session⟩, hinit, h⟩ := Option.bind_eq_some_iff.mp h
      cases h
      exact ⟨rfl, rfl, rfl, rfl, rfl, initRecords_amap hs hfamily hattr hinit rfl rfl⟩
    · rename_i hfamily
      obtain ⟨a, hattr, h⟩ := Option.bind_eq_some_iff.mp h
      obtain ⟨⟨ret', session⟩, hinit, h⟩ := Option.bind_eq_some_iff.mp h
      cases h
      exact ⟨rfl, rfl, rfl, rfl, rfl, initRecords_oneospos hs hfamily hattr hinit rfl rfl⟩
    · rename_i hfamily
      cases h
      refine ⟨rfl, rfl, rfl, rfl, rfl, .refuses (by decide) ?_ ?_⟩
      · rintro ⟨-, f, hf, -⟩
        cases hfamily.symm.trans hf
      · rintro (_ | _) <;> rfl
  · rename_i hnot heq
    cases heq
    cases h
    refine ⟨rfl, rfl, rfl, rfl, rfl, .refuses (by decide) ?_ ?_⟩
    · rintro ⟨hs, -⟩
      exact hnot (htasked.mpr hs)
    · rintro (_ | _) <;> rfl

end LbsEffects
