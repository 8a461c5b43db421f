import LinuxBuild.PartialRun
import LinuxBuild.LbsTask

/-!
# Whether the back ends become idle again

The task runs requests of either platform one after the other, and nothing but the
requests themselves calls the HTTP callbacks. The markers that make a back end busy
are taken back on every failure. After a response only the end event would take them
back, which the code does not deliver.
-/
namespace BackendIdle
open CString LbsTypes CJson AmapParse LocationDelivery BackendTypes AmapRequest AmapBackend
open OneosposBackend LbsTask PartialRun

structure Backends where
  amap : AmapState
  oneospos : OneosposState

def Backends.init : Backends := ⟨.init, .init⟩

/-- A request as the task finds it. -/
inductive Request where
  | amap (auth : AmapAuthentication) (ueInfo : Option AmapUeInfo) (env : AmapEnv)
  | oneospos (pid : Option CStr) (ueInfo : Option OneosposUeInfo) (env : OneosposEnv)

/-- What the location function returned, if it was called. -/
abbrev Returned := Option LbsState

/-- The task processes one request to completion. -/
def taskStep (md5 : CStr → Digest) (b : Backends) : Request → Option (Backends × Returned)
  | .amap auth ueInfo env => do
    let (s, a) ← asynLocationAmap md5 b.amap auth ueInfo env
    some ({ b with amap := s }, a.outcome.map Outcome.ret)
  | .oneospos pid ueInfo env => do
    let (s, a) ← asynLocationOneospos b.oneospos pid ueInfo env
    some ({ b with oneospos := s }, a.outcome.map Outcome.ret)

/-- Both back ends are idle: `s_amap_client` is `NULL` and the OneOS state is free. -/
def Idle (b : Backends) : Prop := b.amap.client = none ∧ b.oneospos.busy = false

/-- An idle state in which no request is refused with `CM_LBS_BUSY`. -/
structure Available (md5 : CStr → Digest) (b : Backends) : Prop where
  idle : Idle b
  accepts : ∀ request b' returned, taskStep md5 b request = some (b', returned) →
    returned ≠ some .busy

/-- An AMAP request that comes to a response: there is UE information, the key is not
filtered, the client is allocated, and the exchange succeeds. -/
structure AmapResponds (auth : AmapAuthentication) (ueInfo : Option AmapUeInfo) (env : AmapEnv) :
    Prop where
  ueInfo : ueInfo ≠ none
  apikey : ∀ apikey, auth.apikey = some apikey → amapKeyFilter apikey = .ok
  client : (env.client.client && env.client.ueinfo && env.client.auth) = true
  exchanged : Exchanged auth env

structure OneosposResponds (ueInfo : Option OneosposUeInfo) (env : OneosposEnv) : Prop where
  ueInfo : ueInfo ≠ none
  client : (env.attr.attr && env.attr.pid) = true
  curl : env.curl = true

def Responds : Request → Prop
  | .amap auth ueInfo env => AmapResponds auth ueInfo env
  | .oneospos _ ueInfo env => OneosposResponds ueInfo env

/-- The AMAP back end as long as it has had no response. -/
structure AmapUnanswered (s : AmapState) : Prop where
  client : s.client = none
  callbackState : s.callbackState = false
  locationRsp : s.locationRsp = none

structure OneosposUnanswered (s : OneosposState) : Prop where
  busy : s.busy = false
  callbackState : s.callbackState = false
  rspBuf : s.rspBuf = none

theorem createByAttr_eq_none_iff {alloc : ClientAlloc} {auth : AmapAuthentication}
    {ue : AmapUeInfo} : createByAttr alloc (some auth) (some ue) = none ↔
      ¬ (alloc.client && alloc.ueinfo && alloc.auth) = true := by
  simp only [createByAttr]
  split_ifs with h <;> simp [h]

theorem createAttr_eq_some_iff {alloc : AttrAlloc} {pid : Option CStr}
    {ueinfo : Option OneosposUeInfo} {created : Option OneosposClient}
    (h : createAttr alloc pid ueinfo = some created) :
    created ≠ none ↔ (alloc.attr && alloc.pid) = true := by
  simp only [createAttr] at h
  split at h
  · rename_i hattr
    obtain ⟨pid', -, h⟩ := Option.bind_eq_some_iff.mp h
    split_ifs at h with hpid
    · cases h
      simp [hattr, hpid]
    · cases h
      simp [hpid]
  · rename_i hattr
    cases h
    simp [hattr]

/-- A response makes the AMAP back end busy, and nothing else does. -/
theorem amap_step {md5 : CStr → Digest} {s t : AmapState} {auth : AmapAuthentication}
    {ueInfo : Option AmapUeInfo} {env : AmapEnv} {a : AmapAnswer} (hs : AmapUnanswered s)
    (h : asynLocationAmap md5 s auth ueInfo env = some (t, a)) :
    (AmapResponds auth ueInfo env ∧ t.client ≠ none ∨
      ¬ AmapResponds auth ueInfo env ∧ AmapUnanswered t) ∧
      a.outcome.map Outcome.ret ≠ some .busy := by
  rcases asynLocationAmap_cases h with ⟨rfl, ⟨call, rfl⟩, hunasked⟩ |
    ⟨ue, apikey, outcome, rfl, hkey, hfilter, hlocated, rfl⟩
  · refine ⟨Or.inr ⟨fun hr => ?_, hs⟩, Option.some_ne_none _ ∘ Eq.symm⟩
    rcases hunasked with hue | ⟨apikey, hkey, hfilter⟩
    · exact hr.ueInfo hue
    · exact hfilter (hr.apikey apikey hkey)
  dsimp only [answer, Option.map_some]
  cases hlocated with
  | busy hbusy => exact absurd hs.client hbusy
  -- only a response fills the cache
  | cached _ _ hold => exact absurd hold (by simp [hs.locationRsp])
  | noClient _ hclient =>
    refine ⟨Or.inr ⟨fun hr => ?_, hs⟩, by decide⟩
    exact createByAttr_eq_none_iff.mp hclient hr.client
  | failed _ hret hfails =>
    refine ⟨Or.inr ⟨fun hr => hfails hr.exchanged, rfl, hs.callbackState, hs.locationRsp⟩, ?_⟩
    simpa [Outcome.ret] using hret.2
  | ignored _ hstate => exact absurd hstate (by simp [hs.callbackState])
  | @answered client call _ hclient _ hexchanged hcall =>
    refine ⟨Or.inl ⟨⟨Option.some_ne_none ue, ?_, ?_, hexchanged⟩, ?_⟩, by simp [Outcome.ret]⟩
    · intro apikey' hkey'
      cases hkey.symm.trans hkey'
      exact hfilter
    · by_contra hfails
      rw [createByAttr_eq_none_iff.mpr hfails] at hclient
      cases hclient
    · rw [backupCall_client]
      exact Option.some_ne_none client

theorem amap_step_busy {md5 : CStr → Digest} {s t : AmapState} {auth : AmapAuthentication}
    {ueInfo : Option AmapUeInfo} {env : AmapEnv} {a : AmapAnswer} (hs : s.client ≠ none)
    (h : asynLocationAmap md5 s auth ueInfo env = some (t, a)) : t = s := by
  rcases asynLocationAmap_cases h with ⟨rfl, -⟩ | ⟨ue, apikey, outcome, -, -, -, hlocated, -⟩
  · rfl
  · cases hlocated <;> first | rfl | contradiction

/-- A response makes the OneOS back end busy, and nothing else does. -/
theorem oneospos_step {s t : OneosposState} {pid : Option CStr}
    {ueInfo : Option OneosposUeInfo} {env : OneosposEnv} {a : OneosposAnswer}
    (hs : OneosposUnanswered s) (h : asynLocationOneospos s pid ueInfo env = some (t, a)) :
    (OneosposResponds ueInfo env ∧ t.busy = true ∨
      ¬ OneosposResponds ueInfo env ∧ OneosposUnanswered t) ∧
      a.outcome.map Outcome.ret ≠ some .busy := by
  rcases asynLocationOneospos_cases h with ⟨rfl, ⟨call, rfl⟩, rfl⟩ |
    ⟨ue, outcome, rfl, hlocated, rfl⟩
  · exact ⟨Or.inr ⟨fun hr => hr.ueInfo rfl, hs⟩, Option.some_ne_none _ ∘ Eq.symm⟩
  dsimp only [answer, Option.map_some]
  cases hlocated with
  | busy hbusy => exact absurd hbusy (by simp [hs.busy])
  | cached _ _ hold => exact absurd hold (by simp [hs.rspBuf])
  | noClient _ hclient =>
    refine ⟨Or.inr ⟨fun hr => ?_, hs⟩, by decide⟩
    exact (createAttr_eq_some_iff hclient).mpr hr.client rfl
  | failed _ hret hfails =>
    refine ⟨Or.inr ⟨fun hr => hfails hr.curl, rfl, hs.callbackState, hs.rspBuf⟩, ?_⟩
    simpa [Outcome.ret] using hret.2
  | ignored _ hstate => exact absurd hstate (by simp [hs.callbackState])
  | @answered client event rsp _ hclient _ hcurl hcall =>
    have hcreated := (createAttr_eq_some_iff hclient).mp (Option.some_ne_none client)
    refine ⟨Or.inl ⟨⟨Option.some_ne_none ue, hcreated, hcurl⟩, ?_⟩, by simp [Outcome.ret]⟩
    rw [rspBackup_busy]
    rfl

theorem oneospos_step_busy {s t : OneosposState} {pid : Option CStr}
    {ueInfo : Option OneosposUeInfo} {env : OneosposEnv} {a : OneosposAnswer}
    (hs : s.busy = true) (h : asynLocationOneospos s pid ueInfo env = some (t, a)) : t = s := by
  rcases asynLocationOneospos_cases h with ⟨rfl, -⟩ | ⟨ue, outcome, -, hlocated, -⟩
  · rfl
  · cases hlocated <;> first | rfl | simp_all

abbrev IdleTrace := List (Request × Returned)

/-- The request is one for the AMAP back end. -/
def Request.onAmap : Request → Bool
  | .amap _ _ _ => true
  | .oneospos _ _ _ => false

/-- A response to a request for the back end. -/
def HasResponded (trace : IdleTrace) (onAmap : Bool) : Prop :=
  ∃ entry ∈ trace, entry.1.onAmap = onAmap ∧ Responds entry.1

theorem hasResponded_snoc {trace : IdleTrace} {onAmap : Bool} {request : Request}
    {returned : Returned} : HasResponded (trace ++ [(request, returned)]) onAmap ↔
      HasResponded trace onAmap ∨ request.onAmap = onAmap ∧ Responds request := by
  simp [HasResponded, or_and_right, exists_or]

/-- A back end is busy exactly when one of its requests came to a response. -/
structure Tracks (trace : IdleTrace) (b : Backends) : Prop where
  amap : HasResponded trace true ∧ b.amap.client ≠ none ∨
    ¬ HasResponded trace true ∧ AmapUnanswered b.amap
  oneospos : HasResponded trace false ∧ b.oneospos.busy = true ∨
    ¬ HasResponded trace false ∧ OneosposUnanswered b.oneospos

theorem tracks_step {md5 : CStr → Digest} {trace : IdleTrace} {b b' : Backends}
    {request : Request} {returned : Returned} (ht : Tracks trace b)
    (h : taskStep md5 b request = some (b', returned)) :
    Tracks (trace ++ [(request, returned)]) b' := by
  cases request with
  | amap auth ueInfo env =>
    obtain ⟨⟨s, a⟩, hs, h⟩ := Option.bind_eq_some_iff.mp h
    cases h
    constructor
    · simp only [hasResponded_snoc, Request.onAmap, true_and]
      rcases ht.amap with ⟨hresponded, hbusy⟩ | ⟨hnone, hfree⟩
      · cases amap_step_busy hbusy hs
        exact Or.inl ⟨Or.inl hresponded, hbusy⟩
      · rcases (amap_step hfree hs).1 with ⟨hr, hbusy⟩ | ⟨hr, hfree'⟩
        · exact Or.inl ⟨Or.inr hr, hbusy⟩
        · exact Or.inr ⟨not_or.mpr ⟨hnone, hr⟩, hfree'⟩
    · simpa [hasResponded_snoc, Request.onAmap] using ht.oneospos
  | oneospos pid ueInfo env =>
    obtain ⟨⟨s, a⟩, hs, h⟩ := Option.bind_eq_some_iff.mp h
    cases h
    constructor
    · simpa [hasResponded_snoc, Request.onAmap] using ht.amap
    · simp only [hasResponded_snoc, Request.onAmap, true_and]
      rcases ht.oneospos with ⟨hresponded, hbusy⟩ | ⟨hnone, hfree⟩
      · cases oneospos_step_busy hbusy hs
        exact Or.inl ⟨Or.inl hresponded, hbusy⟩
      · rcases (oneospos_step hfree hs).1 with ⟨hr, hbusy⟩ | ⟨hr, hfree'⟩
        · exact Or.inl ⟨Or.inr hr, hbusy⟩
        · exact Or.inr ⟨not_or.mpr ⟨hnone, hr⟩, hfree'⟩

theorem run_tracks {md5 : CStr → Digest} {trace : IdleTrace} {b : Backends}
    (h : Run (taskStep md5) (fun _ _ _ => True) .init trace b) : Tracks trace b := by
  refine h.invariant ?_ fun ht _ => tracks_step ht
  constructor
  · exact Or.inr ⟨by simp [HasResponded], rfl, rfl, rfl⟩
  · exact Or.inr ⟨by simp [HasResponded], rfl, rfl, rfl⟩

theorem not_responds_iff {trace : IdleTrace} : (∀ entry ∈ trace, ¬ Responds entry.1) ↔
    ¬ HasResponded trace true ∧ ¬ HasResponded trace false := by
  constructor
  · intro h
    constructor
    · rintro ⟨entry, hentry, -, hr⟩
      exact h entry hentry hr
    · rintro ⟨entry, hentry, -, hr⟩
      exact h entry hentry hr
  · rintro ⟨hamap, honeospos⟩ entry hentry hr
    cases hon : entry.1.onAmap with
    | true => exact hamap ⟨entry, hentry, hon, hr⟩
    | false => exact honeospos ⟨entry, hentry, hon, hr⟩

/-- Back ends without a response refuse no request. -/
theorem available_of_unanswered {md5 : CStr → Digest} {b : Backends}
    (hamap : AmapUnanswered b.amap) (honeospos : OneosposUnanswered b.oneospos) :
    Available md5 b := by
  refine ⟨⟨hamap.client, honeospos.busy⟩, ?_⟩
  intro request b' returned h
  cases request with
  | amap auth ueInfo env =>
    obtain ⟨⟨s, a⟩, hs, h⟩ := Option.bind_eq_some_iff.mp h
    cases h
    exact (amap_step hamap hs).2
  | oneospos pid ueInfo env =>
    obtain ⟨⟨s, a⟩, hs, h⟩ := Option.bind_eq_some_iff.mp h
    cases h
    exact (oneospos_step honeospos hs).2

/-- The back ends are available after a run if and only if none of its requests came to
a response. -/
theorem available_iff {md5 : CStr → Digest} {trace : IdleTrace} {b : Backends}
    (h : Run (taskStep md5) (fun _ _ _ => True) .init trace b) :
    Available md5 b ↔ ∀ entry ∈ trace, ¬ Responds entry.1 := by
  have ht := run_tracks h
  rw [not_responds_iff]
  constructor
  · intro ha
    constructor
    · rcases ht.amap with ⟨-, hbusy⟩ | ⟨hnone, -⟩
      · exact absurd ha.idle.1 hbusy
      · exact hnone
    · rcases ht.oneospos with ⟨-, hbusy⟩ | ⟨hnone, -⟩
      · exact absurd ha.idle.2 (by simp [hbusy])
      · exact hnone
  · rintro ⟨hamap, honeospos⟩
    apply available_of_unanswered
    · exact (ht.amap.resolve_left fun h => hamap h.1).2
    · exact (ht.oneospos.resolve_left fun h => honeospos h.1).2

/-- After a request that fails before its response, the back ends are available. -/
theorem available_iff_failed : ∃ trace b,
    Run (taskStep fun _ => Field.zero 16) (fun _ _ _ => True) .init trace b ∧
      trace.length = 1 ∧ Available (fun _ => Field.zero 16) b := by
  have h : Run (taskStep fun _ => Field.zero 16) (fun _ _ _ => True) .init _ _ :=
    .snoc (i := .amap amapAuth (some (amapUe "1")) (amapEnv false 0)) .start trivial rfl
  refine ⟨_, _, h, rfl, (available_iff h).mpr ?_⟩
  intro entry hentry hr
  rw [List.mem_singleton.mp hentry] at hr
  exact absurd hr.exchanged.curl (by decide)

/-- After a request that is answered, the next one is refused with `CM_LBS_BUSY`. -/
theorem answered_request_stays_busy : ∃ trace b,
    Run (taskStep fun _ => Field.zero 16) (fun _ _ _ => True) .init trace b ∧
      ¬ Idle b ∧ taskStep (fun _ => Field.zero 16) b
        (.amap amapAuth (some (amapUe "1")) (amapEnv true 9000)) = some (b, some .busy) := by
  have h : Run (taskStep fun _ => Field.zero 16) (fun _ _ _ => True) .init _ _ :=
    .snoc (i := .amap amapAuth (some (amapUe "1")) (amapEnv true 0)) .start trivial rfl
  refine ⟨_, _, h, ?_, rfl⟩
  rintro ⟨hclient, -⟩
  exact absurd hclient (Option.some_ne_none _)

end BackendIdle
