import LinuxBuild.PartialRun
import LinuxBuild.RequestCache
import LinuxBuild.OneosposBackend

/-!
# The location cache of the OneOS back end

As for AMAP, with the pid for the credentials and a single platform.
-/
namespace OneosposCache
open CString LbsTypes AmapParse OneosposParse LocationDelivery BackendTypes OneosposBackend
open PartialRun RequestCache

structure OneosposKey where
  pid : Option CStr
  ue : UeKey
  deriving DecidableEq

/-- What a response does to the cached location. -/
def rspEffect (env : OneosposEnv) (rsp : OneosposLocationRsp) : Effect OneosposLocationRsp :=
  if rsp.event = .success then
    if env.backupRsp then .stores (copyOneosposRsp env.backupMember rsp) env.rspNow else .keeps
  else .clears

abbrev OneosposTrace := List (OneosposInput × OneosposOutcome)

/-- A step of the back end as an event of the one-entry cache. -/
def oneosposEvent : OneosposInput × OneosposOutcome → Event OneosposKey OneosposLocationRsp
  | (.location pid ue env, .cached old _) => .served ⟨pid, ue⟩ old env.now
  | (.location pid ue _, .failed _) => .sent ⟨pid, ue⟩ .keeps
  | (.location pid ue env, .response (some (_, some rsp))) => .sent ⟨pid, ue⟩ (rspEffect env rsp)
  | (.location pid ue _, .response _) => .sent ⟨pid, ue⟩ .keeps
  | _ => .idle

structure Saves (s : OneosposState) (key : OneosposKey) : Prop where
  lastpid : s.lastpid = key.pid
  ueInfoLast : s.ueInfoLast = .valid (savedUe key.ue)

/-- The back end as a one-entry cache. -/
def oneosposView :
    View OneosposState (OneosposInput × OneosposOutcome) OneosposKey OneosposLocationRsp where
  event := oneosposEvent
  entry s := s.rspBuf.map fun rsp => (rsp, s.rspTime)
  saves := Saves
  unsent s := s.ueInfoLast = .null

/-- The backups of the request keep all of its key: their allocations succeed, and the
neighbour cells are not an empty string, which is saved as `NULL`. -/
structure SavedExactly (s : OneosposState) (pid : Option CStr) (ue : OneosposUeInfo)
    (env : OneosposEnv) : Prop where
  allocated : env.lastpid = true ∧ env.lastUe.ueinfo = true ∧ env.lastUe.nearbts = true
  pid : pid = none → s.lastpid = none
  ue : ue.nearbts ≠ some []

/-- The request comes to a response that is stored in the cache or clears it. -/
structure Replaces (env : OneosposEnv) : Prop where
  curl : env.curl = true
  backup : env.backupRsp = true ∨ ∀ rsp,
    oneosposRspContent env.rsp env.body = some (.success, some rsp) → False

/-- The condition on a request that finds the back end idle: its backups keep its
key, and it leaves a cached location in place only if it passes for the last request. -/
structure Careful (s : OneosposState) (pid : Option CStr) (ue : OneosposUeInfo)
    (env : OneosposEnv) : Prop where
  saved : SavedExactly s pid ue env
  replaces : Replaces env ∨ s.rspBuf = none ∨ Agrees s pid ue

def oneosposOk (_ : OneosposTrace) (s : OneosposState) : OneosposInput → Prop
  | .location pid ue env => s.busy = false → Careful s pid ue env
  | .rspEnd => True

/-- The state represents the one-entry cache after the trace, and a back end that has
an answer that did not end is busy. -/
structure Tracks (trace : OneosposTrace) (s : OneosposState) : Prop where
  view : oneosposView.Tracks rspValidTime trace s
  answered : s.callbackState = true → s.busy = true

theorem createUeinfo_eq {alloc : CopyAlloc} {ue : OneosposUeInfo}
    (halloc : alloc.ueinfo = true ∧ alloc.nearbts = true) (hue : ue.nearbts ≠ some []) :
    createUeinfo alloc ue = some ue := by
  simp only [createUeinfo]
  rw [if_pos halloc.1]
  cases ue with
  | mk imei imsi cellInfo nearbts =>
    cases nearbts with
    | none => rfl
    | some n =>
      have hpos : 0 < n.length := List.length_pos_iff.mpr fun h => hue (congrArg some h)
      simp [hpos, halloc.2]

theorem saves_saveRequest {s : OneosposState} {pid : Option CStr} {ue : OneosposUeInfo}
    {env : OneosposEnv} (h : SavedExactly s pid ue env) :
    Saves (saveRequest env s pid ue) ⟨pid, ue⟩ := by
  obtain ⟨hpid, hue⟩ := h.allocated
  constructor
  · cases hp : pid with
    | none => simp [saveRequest, h.pid hp]
    | some p => simp [saveRequest, hpid]
  · simp [saveRequest, Pointer.replace, createUeinfo_eq hue h.ue]

/-- A request that passes for the last one that was sent has its key. -/
theorem Tracks.key_of_agrees {trace : OneosposTrace} {s : OneosposState} (h : Tracks trace s)
    {pid : Option CStr} {ue : OneosposUeInfo} (hagrees : Agrees s pid ue) :
    (oneosposView.cache trace).key = some ⟨pid, ue⟩ := by
  obtain ⟨hue, hpid⟩ := hagrees
  have hold : s.ueInfoLast = .valid (savedUe ue) := compareUe_eq_ok_iff.mp hue
  cases hkey : (oneosposView.cache trace).key with
  | none => cases hold.symm.trans (h.view.unsent hkey)
  | some key =>
    have hsaves : Saves s key := h.view.saves key hkey
    have hkeyue := savedUe_injective (Pointer.valid.inj (hsaves.ueInfoLast.symm.trans hold))
    simp only [compareLastpid] at hpid
    split_ifs at hpid with hsame
    cases key
    simp only [Option.some.injEq, OneosposKey.mk.injEq]
    constructor
    · exact (hsame.trans hsaves.lastpid).symm
    · exact hkeyue

theorem Tracks.allows_served {trace : OneosposTrace} {s : OneosposState} (h : Tracks trace s)
    {pid : Option CStr} {ue : OneosposUeInfo} {env : OneosposEnv} {old : OneosposLocationRsp}
    (hagrees : Agrees s pid ue) (hold : s.rspBuf = some old)
    (htime : 0 ≤ env.now - s.rspTime ∧ env.now - s.rspTime ≤ rspValidTime) :
    (oneosposView.cache trace).Allows rspValidTime (.served ⟨pid, ue⟩ old env.now) := by
  refine ⟨h.key_of_agrees hagrees, s.rspTime, ?_, htime⟩
  rw [h.view.entry]
  simp [oneosposView, hold]

theorem Tracks.allows_keeps {trace : OneosposTrace} {s : OneosposState} (h : Tracks trace s)
    {pid : Option CStr} {ue : OneosposUeInfo} {env : OneosposEnv}
    (hcareful : Careful s pid ue env) (hkeeps : ¬ Replaces env) :
    (oneosposView.cache trace).Allows rspValidTime (.sent ⟨pid, ue⟩ .keeps) := by
  rcases hcareful.replaces.resolve_left hkeeps with hrsp | hagrees
  · left
    rw [h.view.entry]
    simp [oneosposView, hrsp]
  · exact Or.inr (h.key_of_agrees hagrees)

theorem oneosposRspContent_event {alloc : RspAlloc} {body : Option CJson.Json}
    {event : OneosposEvent} {rsp : OneosposLocationRsp}
    (hcall : oneosposRspContent alloc body = some (event, some rsp)) : event = rsp.event := by
  simp only [oneosposRspContent] at hcall
  split at hcall
  · obtain ⟨parsed, -, heq⟩ := Option.bind_eq_some_iff.mp hcall
    cases heq
    rfl
  · cases hcall

theorem not_replaces_of_keeps {env : OneosposEnv} {event : OneosposEvent}
    {rsp : OneosposLocationRsp}
    (hcall : oneosposRspContent env.rsp env.body = some (event, some rsp))
    (hkeeps : rspEffect env rsp = .keeps) : ¬ Replaces env := by
  rintro ⟨-, hbackup⟩
  simp only [rspEffect] at hkeeps
  split_ifs at hkeeps with hevent halloc
  rcases hbackup with hbackup | hbackup
  · exact halloc hbackup
  · rw [(oneosposRspContent_event hcall).trans hevent] at hcall
    exact hbackup rsp hcall

theorem rspBackup_entry {env : OneosposEnv} {s : OneosposState} {rsp : OneosposLocationRsp}
    (c : Cache OneosposKey OneosposLocationRsp) (key : OneosposKey)
    (hentry : c.entry = s.rspBuf.map fun rsp => (rsp, s.rspTime)) :
    (c.apply (.sent key (rspEffect env rsp))).entry =
      (rspBackup env s rsp).rspBuf.map fun r => (r, (rspBackup env s rsp).rspTime) := by
  simp only [rspEffect, rspBackup]
  split_ifs
  · rfl
  · exact hentry
  · rfl

theorem saves_rspBackup {env : OneosposEnv} {s : OneosposState} {rsp : OneosposLocationRsp}
    {key : OneosposKey} (h : Saves s key) : Saves (rspBackup env s rsp) key := by
  simp only [rspBackup]
  split_ifs
  · exact ⟨h.1, h.2⟩
  · exact h
  · exact ⟨h.1, h.2⟩

theorem Tracks.init : Tracks [] .init := ⟨.nil rfl rfl, fun h => nomatch h⟩

/-- A careful step of the back end is a step of the one-entry cache. -/
theorem Tracks.step {trace : OneosposTrace} {s t : OneosposState} {i : OneosposInput}
    {o : OneosposOutcome} (h : Tracks trace s) (hok : oneosposOk trace s i)
    (hstep : oneosposStep s i = some (t, o)) : Tracks (trace ++ [(i, o)]) t := by
  have hidle : ∀ hfree : s.busy = false, ¬ s.callbackState = true := by
    intro hfree hstate
    exact Bool.false_ne_true (hfree.symm.trans (h.answered hstate))
  cases i with
  | rspEnd =>
    simp only [oneosposStep, rspEnd] at hstep
    split at hstep
    · cases hstep
    · cases hstep
      exact ⟨h.view.untouched rfl trivial rfl id fun _ hs => ⟨hs.1, hs.2⟩,
        fun hstate => nomatch hstate⟩
  | location pid ue env =>
    have hsaved : ∀ hfree : s.busy = false, Saves (saveRequest env s pid ue) ⟨pid, ue⟩ :=
      fun hfree => saves_saveRequest (hok hfree).saved
    have hlocated := oneosposLocation_located hstep
    refine ⟨?_, hlocated.keeps_busy h.answered⟩
    cases hlocated with
    | busy hbusy => exact h.view.untouched rfl trivial rfl id fun _ => id
    | noClient hfree hclient => exact h.view.untouched rfl trivial rfl id fun _ => id
    | cached hfree hagrees hold htime hcopy =>
      exact h.view.untouched rfl (h.allows_served hagrees hold htime) rfl id fun _ => id
    | failed hfree hret hfails =>
      have hs := hsaved hfree
      have hkeeps : ¬ Replaces env := fun hr => hfails hr.curl
      exact h.view.sent rfl (h.allows_keeps (hok hfree) hkeeps) h.view.entry ⟨hs.1, hs.2⟩
    | ignored hfree hstate hcurl => exact absurd hstate (hidle hfree)
    | @answered client event rsp hfree hclient hstate hcurl hcall =>
      have hs := hsaved hfree
      refine h.view.sent rfl ?_ (rspBackup_entry _ _ h.view.entry) (saves_rspBackup ⟨hs.1, hs.2⟩)
      cases heffect : rspEffect env rsp with
      | keeps => exact h.allows_keeps (hok hfree) (not_replaces_of_keeps hcall heffect)
      | clears => trivial
      | stores value time => trivial

/-- Every answer from the cache is a location that was parsed from the response to an
earlier request with the same key, and that was stored at most two hours before. -/
def SoundlyCached (trace : OneosposTrace) : Prop :=
  ∀ before after pid ue env old rsp,
    trace = before ++ (.location pid ue env, .cached old rsp) :: after →
    ∃ env' parsed,
      (.location pid ue env', .response (some (.success, some parsed))) ∈ before ∧
      oneosposRspContent env'.rsp env'.body = some (.success, some parsed) ∧
      CopyOf parsed rsp ∧
      0 ≤ env.now - env'.rspNow ∧ env.now - env'.rspNow ≤ rspValidTime

theorem copyOf_trans {alloc : RspMember → Bool} {parsed rsp : OneosposLocationRsp}
    (h : CopyOf (copyOneosposRsp alloc parsed) rsp) : CopyOf parsed rsp := by
  obtain ⟨⟨hlon, hlon'⟩, hlat, hlat'⟩ := h
  refine ⟨⟨hlon.trans (toOption_copy ?_), hlon'⟩, hlat.trans (toOption_copy ?_), hlat'⟩
  · exact fun hnone => hlon' (hlon.trans hnone)
  · exact fun hnone => hlat' (hlat.trans hnone)

/-- The step behind a store of the one-entry cache. -/
theorem oneosposEvent_stores {step : OneosposInput × OneosposOutcome} {key : OneosposKey}
    {value : OneosposLocationRsp} {time : Int}
    (h : oneosposEvent step = .sent key (.stores value time)) :
    ∃ env event parsed,
      step = (.location key.pid key.ue env, .response (some (event, some parsed))) ∧
      parsed.event = .success ∧ value = copyOneosposRsp env.backupMember parsed ∧
      time = env.rspNow := by
  rcases step with ⟨i, o⟩
  cases i with
  | rspEnd => cases h
  | location pid ue env =>
    cases o with
    | response call =>
      rcases call with _ | ⟨event, _ | parsed⟩
      · cases h
      · cases h
      · simp only [oneosposEvent, Event.sent.injEq] at h
        obtain ⟨rfl, heffect⟩ := h
        simp only [rspEffect] at heffect
        split_ifs at heffect with hevent halloc
        cases heffect
        exact ⟨env, event, parsed, rfl, hevent, rfl, rfl⟩
    | busy => cases h
    | cached old rsp => cases h
    | noClient ret => cases h
    | failed ret => cases h
    | ended => cases h

theorem run_tracks {trace : OneosposTrace} {s : OneosposState}
    (h : Run oneosposStep oneosposOk .init trace s) : Tracks trace s :=
  h.invariant .init fun htracks hok hstep => htracks.step hok hstep

theorem run_soundlyCached {trace : OneosposTrace} {s : OneosposState}
    (h : Run oneosposStep oneosposOk .init trace s) : SoundlyCached trace := by
  intro before after pid ue env old rsp htrace
  obtain ⟨s', t, hrun, hok, hstep⟩ := h.step_at htrace
  have htracks := run_tracks hrun
  cases oneosposLocation_located hstep with
  | cached hfree hagrees hold htime hcopy =>
    obtain ⟨time, hmem, hlow, hhigh⟩ :=
      htracks.view.disciplined.served (htracks.allows_served hagrees hold htime)
    obtain ⟨step, hbefore, hevent⟩ := List.mem_map.mp hmem
    obtain ⟨env', event, parsed, rfl, hsuccess, rfl, rfl⟩ := oneosposEvent_stores hevent
    obtain ⟨front, back, hsplit⟩ := List.append_of_mem hbefore
    obtain ⟨s'', t', -, -, hstep'⟩ := hrun.step_at hsplit
    cases oneosposLocation_located hstep' with
    | answered hfree' hclient' hstate' hcurl' hcall' =>
      rw [(oneosposRspContent_event hcall').trans hsuccess] at hbefore hcall'
      exact ⟨env', parsed, hbefore, hcall', copyOf_trans hcopy, hlow, hhigh⟩

end OneosposCache
