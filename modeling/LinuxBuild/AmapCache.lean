import LinuxBuild.PartialRun
import LinuxBuild.RequestCache
import LinuxBuild.AmapBackend

/-!
# The location cache of the AMAP back end

The back end keeps the key of the last request that it sent and the last location
that it received. A run in which the two are replaced together refines the
one-entry cache, so that what it serves belongs to the request it is served for.
-/
namespace AmapCache
open CString LbsTypes AmapParse LocationDelivery BackendTypes AmapRequest AmapBackend
open PartialRun RequestCache

/-- What makes two requests the same: the platform, the credentials and options, and
the compared UE information. -/
structure AmapKey where
  platform : LocationPlatform
  apikey : Option CStr
  digitalSignKey : Option CStr
  showFieldsEnable : Int32
  digitalSignEnable : Int32
  ue : UeKey
  deriving DecidableEq

def amapKey (auth : AmapAuthentication) (ue : AmapUeInfo) : AmapKey where
  platform := auth.platform
  apikey := auth.apikey
  digitalSignKey := auth.digitalSignKey
  showFieldsEnable := auth.showFieldsEnable
  digitalSignEnable := auth.digitalSignEnable
  ue := amapUeKey ue

/-- What a response does to the cached location. -/
def callEffect (env : AmapEnv) (call : AmapCall) : Effect AmapLocationRsp :=
  match call.2 with
  | none => .keeps
  | some rsp =>
    if rsp.event = .succeed then
      if env.backupRsp then .stores (copyRspMembers env.backupMember rsp) env.rspNow else .keeps
    else .clears

abbrev AmapTrace := List (AmapInput × AmapOutcome)

/-- A step of the back end as an event of the one-entry cache. -/
def amapEvent : AmapInput × AmapOutcome → Event AmapKey AmapLocationRsp
  | (.location auth ue env, .cached old _) => .served (amapKey auth ue) old env.now
  | (.location auth ue _, .failed _) => .sent (amapKey auth ue) .keeps
  | (.location auth ue _, .response none) => .sent (amapKey auth ue) .keeps
  | (.location auth ue env, .response (some call)) => .sent (amapKey auth ue) (callEffect env call)
  | _ => .idle

/-- The saved key of the state, but for the platform. -/
structure Saves (s : AmapState) (key : AmapKey) : Prop where
  lastKey : s.lastKey = key.apikey
  lastSignkey : s.lastSignkey = key.digitalSignKey
  showFieldsEnable : s.showFieldsEnable = key.showFieldsEnable
  signen : s.signen = key.digitalSignEnable
  ueInfoLast : s.ueInfoLast = .valid (savedUe key.ue)

/-- The back end as a one-entry cache. -/
def amapView : View AmapState (AmapInput × AmapOutcome) AmapKey AmapLocationRsp where
  event := amapEvent
  entry s := s.locationRsp.map fun rsp => (rsp, s.rspTime)
  saves := Saves
  unsent s := s.ueInfoLast = .null

/-- The platform of the last request that was sent. -/
def lastPlatform (trace : AmapTrace) : Option LocationPlatform :=
  (amapView.cache trace).key.map AmapKey.platform

/-- The backups of the request keep all of its key: their allocations succeed, no
`NULL` key leaves an older one in place, and nothing overwrites the neighbour cells. -/
structure SavedExactly (s : AmapState) (auth : AmapAuthentication) (ue : AmapUeInfo)
    (env : AmapEnv) : Prop where
  allocated : env.lastKey = true ∧ env.lastSignkey = true ∧ env.lastUeinfo = true ∧
    env.lastUe.nearbts = true
  apikey : auth.apikey = none → s.lastKey = none
  signKey : auth.digitalSignKey = none → s.lastSignkey = none
  ue : ue.serverIp = none ∧ ue.networkType = none

/-- The request comes to a response that is stored in the cache or clears it. -/
structure Replaces (auth : AmapAuthentication) (env : AmapEnv) : Prop where
  exchanged : Exchanged auth env
  record : env.rsp.locationRsp = true
  backup : env.backupRsp = true ∨ ∀ member,
    amapHttpLocationParse auth.platform env.rsp.member (env.rsp.parsed env.body) ≠
      some (.succeed, member)

/-- The condition on a request that finds the back end idle: if a location is cached
and the request passes for the last one, it has the platform of the last one; its
backups keep its key; and it leaves a cached location in place only if it passes for
the last request. -/
structure Careful (trace : AmapTrace) (s : AmapState) (auth : AmapAuthentication)
    (ue : AmapUeInfo) (env : AmapEnv) : Prop where
  platform : s.locationRsp ≠ none → Agrees s auth ue → lastPlatform trace = some auth.platform
  saved : SavedExactly s auth ue env
  replaces : Replaces auth env ∨ s.locationRsp = none ∨ Agrees s auth ue

def amapOk (trace : AmapTrace) (s : AmapState) : AmapInput → Prop
  | .location auth ue env => s.client = none → Careful trace s auth ue env
  | .rspEnd => True

/-- The state represents the one-entry cache after the trace, and a back end that has
an answer that did not end is not idle. -/
structure Tracks (trace : AmapTrace) (s : AmapState) : Prop where
  view : amapView.Tracks rspValidTime trace s
  answered : s.callbackState = true → s.client ≠ none

theorem copyUeinfo_eq {alloc : UeAlloc} {ue : AmapUeInfo} (hserver : ue.serverIp = none)
    (hnetwork : ue.networkType = none) : copyUeinfo alloc ue = ue := by
  have htail : copyUeinfoTail alloc ue ue = ue := by
    cases ue
    cases hserver
    cases hnetwork
    rfl
  simp only [copyUeinfo]
  split
  · rfl
  · exact htail

theorem saves_saveRequest {s : AmapState} {auth : AmapAuthentication} {ue : AmapUeInfo}
    {env : AmapEnv} (h : SavedExactly s auth ue env) :
    Saves (saveRequest env s auth ue) (amapKey auth ue) := by
  obtain ⟨hkey, hsignkey, hue, hnearbts⟩ := h.allocated
  refine ⟨?_, ?_, rfl, rfl, ?_⟩
  · cases hapi : auth.apikey with
    | none => simp [saveRequest, backupLastkey, savedKey, amapKey, hapi, h.apikey hapi]
    | some key => simp [saveRequest, backupLastkey, savedKey, amapKey, hapi, hkey]
  · cases hsign : auth.digitalSignKey with
    | none => simp [saveRequest, backupLastkey, savedKey, amapKey, hsign, h.signKey hsign]
    | some key => simp [saveRequest, backupLastkey, savedKey, amapKey, hsign, hkey, hsignkey]
  · simp [saveRequest, backupUeinfo, keptUeinfo, Pointer.replace, hue, hnearbts,
      copyUeinfo_eq h.ue.1 h.ue.2, amapKey]

/-- A request that passes for the last one while a location is cached has its key. -/
theorem Tracks.key_of_agrees {trace : AmapTrace} {s : AmapState} (h : Tracks trace s)
    {auth : AmapAuthentication} {ue : AmapUeInfo} (hagrees : Agrees s auth ue)
    (hplatform : lastPlatform trace = some auth.platform) :
    (amapView.cache trace).key = some (amapKey auth ue) := by
  obtain ⟨hue, hkeys⟩ := hagrees
  have hold : s.ueInfoLast = .valid (savedUe (amapUeKey ue)) := compareUe_eq_ok_iff.mp hue
  cases hkey : (amapView.cache trace).key with
  | none => cases hold.symm.trans (h.view.unsent hkey)
  | some key =>
    have hsaves : Saves s key := h.view.saves key hkey
    have hkeyue := savedUe_injective (Pointer.valid.inj (hsaves.ueInfoLast.symm.trans hold))
    simp only [compareLastkey] at hkeys
    split_ifs at hkeys with hsame
    obtain ⟨hapi, hsign, hshow, hsignen⟩ := hsame
    simp only [lastPlatform, hkey, Option.map_some, Option.some.injEq] at hplatform
    cases key
    simp only [amapKey, Option.some.injEq, AmapKey.mk.injEq]
    refine ⟨hplatform, ?_, ?_, ?_, ?_, ?_⟩
    · exact (hapi.trans hsaves.lastKey).symm
    · exact (hsign.trans hsaves.lastSignkey).symm
    · exact hsaves.showFieldsEnable.symm.trans hshow
    · exact hsaves.signen.symm.trans hsignen
    · exact hkeyue

/-- A careful request that is answered from the cache is served what belongs to it. -/
theorem Tracks.allows_served {trace : AmapTrace} {s : AmapState} (h : Tracks trace s)
    {auth : AmapAuthentication} {ue : AmapUeInfo} {env : AmapEnv} {old : AmapLocationRsp}
    (hcareful : Careful trace s auth ue env) (hagrees : Agrees s auth ue)
    (hold : s.locationRsp = some old)
    (htime : 0 ≤ env.now - s.rspTime ∧ env.now - s.rspTime ≤ rspValidTime) :
    (amapView.cache trace).Allows rspValidTime (.served (amapKey auth ue) old env.now) := by
  have hrsp : s.locationRsp ≠ none := by simp [hold]
  refine ⟨h.key_of_agrees hagrees (hcareful.platform hrsp hagrees), s.rspTime, ?_, htime⟩
  rw [h.view.entry]
  simp [amapView, hold]

/-- A request may leave the cached location in place if it passes for the last one. -/
theorem Tracks.allows_keeps {trace : AmapTrace} {s : AmapState} (h : Tracks trace s)
    {auth : AmapAuthentication} {ue : AmapUeInfo} {env : AmapEnv}
    (hcareful : Careful trace s auth ue env) (hkeeps : ¬ Replaces auth env) :
    (amapView.cache trace).Allows rspValidTime (.sent (amapKey auth ue) .keeps) := by
  by_cases hrsp : s.locationRsp = none
  · left
    rw [h.view.entry]
    simp [amapView, hrsp]
  · right
    have hagrees := (hcareful.replaces.resolve_left hkeeps).resolve_left hrsp
    exact h.key_of_agrees hagrees (hcareful.platform hrsp hagrees)

/-- A response that leaves the cached location in place is not one that replaces it. -/
theorem not_replaces_of_keeps {auth : AmapAuthentication} {env : AmapEnv} {call : AmapCall}
    (hcall : amapRspContent auth.platform env.rsp env.body = some call)
    (hkeeps : callEffect env call = .keeps) : ¬ Replaces auth env := by
  rintro ⟨-, hrecord, hbackup⟩
  simp only [amapRspContent] at hcall
  rw [if_pos hrecord] at hcall
  obtain ⟨⟨event, member⟩, hparse, heq⟩ := Option.bind_eq_some_iff.mp hcall
  cases heq
  simp only [callEffect] at hkeeps
  split_ifs at hkeeps with hevent halloc
  cases hevent
  rcases hbackup with hbackup | hbackup
  · exact halloc hbackup
  · exact hbackup member hparse

/-- The record of a response carries the event that is reported with it. -/
theorem amapRspContent_event {platform : LocationPlatform} {alloc : RspAlloc}
    {body : Option CJson.Json} {call : AmapCall} {rsp : AmapLocationRsp}
    (hcall : amapRspContent platform alloc body = some call) (hrsp : call.2 = some rsp) :
    call.1 = rsp.event := by
  simp only [amapRspContent] at hcall
  split at hcall
  · obtain ⟨⟨event, member⟩, -, heq⟩ := Option.bind_eq_some_iff.mp hcall
    cases heq
    cases hrsp
    rfl
  · cases hcall
    cases hrsp

/-- The state after the backup of a response, next to the effect of the response. -/
theorem backupCall_entry {env : AmapEnv} {s : AmapState} {call : AmapCall}
    (c : Cache AmapKey AmapLocationRsp) (key : AmapKey)
    (hentry : c.entry = s.locationRsp.map fun rsp => (rsp, s.rspTime)) :
    (c.apply (.sent key (callEffect env call))).entry =
      (backupCall env s call).locationRsp.map fun rsp =>
        (rsp, (backupCall env s call).rspTime) := by
  simp only [callEffect, backupCall]
  cases call.2 with
  | none => exact hentry
  | some rsp =>
    dsimp only
    simp only [rspBackup]
    split_ifs
    · rfl
    · exact hentry
    · rfl

theorem saves_backupCall {env : AmapEnv} {s : AmapState} {call : AmapCall} {key : AmapKey}
    (h : Saves s key) : Saves (backupCall env s call) key := by
  simp only [backupCall, rspBackup]
  split
  · exact h
  · split_ifs
    · exact ⟨h.1, h.2, h.3, h.4, h.5⟩
    · exact h
    · exact ⟨h.1, h.2, h.3, h.4, h.5⟩

theorem Tracks.init : Tracks [] .init := ⟨.nil rfl rfl, fun h => nomatch h⟩

/-- A careful step of the back end is a step of the one-entry cache. -/
theorem Tracks.step {md5 : CStr → Digest} {trace : AmapTrace} {s t : AmapState} {i : AmapInput}
    {o : AmapOutcome} (h : Tracks trace s) (hok : amapOk trace s i)
    (hstep : amapStep md5 s i = some (t, o)) : Tracks (trace ++ [(i, o)]) t := by
  cases i with
  | rspEnd =>
    simp only [amapStep, rspEnd] at hstep
    split at hstep
    · cases hstep
    · cases hstep
      exact ⟨h.view.untouched rfl trivial rfl id fun _ hs => ⟨hs.1, hs.2, hs.3, hs.4, hs.5⟩,
        fun hstate => nomatch hstate⟩
  | location auth ue env =>
    have hsaved : ∀ hfree : s.client = none, Saves (saveRequest env s auth ue) (amapKey auth ue) :=
      fun hfree => saves_saveRequest (hok hfree).saved
    have hlocated := amapLocation_located hstep
    refine ⟨?_, hlocated.keeps_busy h.answered⟩
    cases hlocated with
    | busy hbusy => exact h.view.untouched rfl trivial rfl id fun _ => id
    | noClient hfree hclient => exact h.view.untouched rfl trivial rfl id fun _ => id
    | cached hfree hagrees hold htime hcopy =>
      have hserved := h.allows_served (hok hfree) hagrees hold htime
      exact h.view.untouched rfl hserved rfl id fun _ => id
    -- the key is replaced and the location stays
    | failed hfree hret hfails =>
      have hs := hsaved hfree
      have hkeeps : ¬ Replaces auth env := fun hr => hfails hr.exchanged
      exact h.view.sent rfl (h.allows_keeps (hok hfree) hkeeps) h.view.entry
        ⟨hs.1, hs.2, hs.3, hs.4, hs.5⟩
    | ignored hfree hstate hexchanged => exact absurd hfree (h.answered hstate)
    | @answered client call hfree hclient hstate hexchanged hcall =>
      have hs := hsaved hfree
      refine h.view.sent rfl ?_ (backupCall_entry _ _ h.view.entry)
        (saves_backupCall ⟨hs.1, hs.2, hs.3, hs.4, hs.5⟩)
      cases heffect : callEffect env call with
      | keeps => exact h.allows_keeps (hok hfree) (not_replaces_of_keeps hcall heffect)
      | clears => trivial
      | stores value time => trivial

/-- Every answer from the cache copies a location that was parsed from the response to
an earlier request with the same key, and that was stored at most two hours before. -/
def SoundlyCached (trace : AmapTrace) : Prop :=
  ∀ before after auth ue env old rsp,
    trace = before ++ (.location auth ue env, .cached old rsp) :: after →
    ∃ auth' ue' env' parsed,
      (.location auth' ue' env', .response (some (.succeed, some parsed))) ∈ before ∧
      amapKey auth' ue' = amapKey auth ue ∧
      amapRspContent auth'.platform env'.rsp env'.body = some (.succeed, some parsed) ∧
      CopyOf parsed rsp ∧
      0 ≤ env.now - env'.rspNow ∧ env.now - env'.rspNow ≤ rspValidTime

theorem copyOf_trans {alloc : RspMember → Bool} {parsed rsp : AmapLocationRsp}
    (h : CopyOf (copyRspMembers alloc parsed) rsp) : CopyOf parsed rsp := by
  refine ⟨fun f => ?_, h.longitude, h.latitude⟩
  rcases h.member f with hnone | hsame
  · exact Or.inl hnone
  · rw [hsame]
    simp only [copyRspMembers]
    split_ifs
    · cases hcopy : amapCopyLocationRsp (alloc f) (parsed.member f) with
      | error e => exact Or.inl rfl
      | ok v => exact Or.inr (amapCopy_eq_ok_iff.mp hcopy).1.symm
    · exact Or.inl rfl

/-- The step behind a store of the one-entry cache. -/
theorem amapEvent_stores {step : AmapInput × AmapOutcome} {key : AmapKey}
    {value : AmapLocationRsp} {time : Int}
    (h : amapEvent step = .sent key (.stores value time)) :
    ∃ auth ue env call parsed, step = (.location auth ue env, .response (some call)) ∧
      amapKey auth ue = key ∧ call.2 = some parsed ∧ parsed.event = .succeed ∧
      value = copyRspMembers env.backupMember parsed ∧ time = env.rspNow := by
  rcases step with ⟨i, o⟩
  cases i with
  | rspEnd => cases h
  | location auth ue env =>
    cases o with
    | response call =>
      cases call with
      | none => cases h
      | some call =>
        simp only [amapEvent, Event.sent.injEq] at h
        obtain ⟨hkey, heffect⟩ := h
        simp only [callEffect] at heffect
        split at heffect
        · cases heffect
        rename_i parsed hparsed
        split_ifs at heffect with hevent halloc
        cases heffect
        exact ⟨auth, ue, env, call, parsed, rfl, hkey, hparsed, hevent, rfl, rfl⟩
    | busy => cases h
    | cached old rsp => cases h
    | noClient ret => cases h
    | failed ret => cases h
    | ended => cases h

theorem run_tracks {md5 : CStr → Digest} {trace : AmapTrace} {s : AmapState}
    (h : Run (amapStep md5) amapOk .init trace s) : Tracks trace s :=
  h.invariant .init fun htracks hok hstep => htracks.step hok hstep

theorem run_soundlyCached {md5 : CStr → Digest} {trace : AmapTrace} {s : AmapState}
    (h : Run (amapStep md5) amapOk .init trace s) : SoundlyCached trace := by
  intro before after auth ue env old rsp htrace
  obtain ⟨s', t, hrun, hok, hstep⟩ := h.step_at htrace
  have htracks := run_tracks hrun
  cases amapLocation_located hstep with
  | cached hfree hagrees hold htime hcopy =>
    obtain ⟨time, hmem, hlow, hhigh⟩ := htracks.view.disciplined.served
      (htracks.allows_served (hok hfree) hagrees hold htime)
    obtain ⟨step, hbefore, hevent⟩ := List.mem_map.mp hmem
    obtain ⟨auth', ue', env', call, parsed, rfl, hsame, hparsed, hsucceed, rfl, rfl⟩ :=
      amapEvent_stores hevent
    obtain ⟨front, back, hsplit⟩ := List.append_of_mem hbefore
    obtain ⟨s'', t', -, -, hstep'⟩ := hrun.step_at hsplit
    cases amapLocation_located hstep' with
    | answered hfree' hclient' hstate' hexchanged' hcall' =>
      have hpair : call = (.succeed, some parsed) :=
        Prod.ext ((amapRspContent_event hcall' hparsed).trans hsucceed) hparsed
      rw [hpair] at hbefore hcall'
      exact ⟨auth', ue', env', parsed, hbefore, hsame, hcall', copyOf_trans hcopy, hlow, hhigh⟩

end AmapCache
