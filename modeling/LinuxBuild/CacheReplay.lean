import LinuxBuild.CacheSoundness

/-!
# What a cached location tells the application

A location travels through four copies before it is told from the cache: out of the
response, into the cache, out of it again, and on to the application. None of them
loses a member that the application reads, since what the parsers accept fits each
copy that follows.
-/
namespace CacheReplay
open CString LbsTypes CJson AmapParse OneosposParse LocationDelivery BackendTypes AmapRequest
open AmapBackend OneosposBackend PartialRun RequestCache

/-- Every member of the record would be copied once more. -/
def AllFit (rsp : RspMembers) : Prop := ∀ f v, rsp f = some v → AmapParse.Fits v

theorem allFit_noMembers : AllFit noMembers := fun _ _ h => nomatch h

theorem AllFit.update {rsp : RspMembers} (h : AllFit rsp) {f : RspMember} {new : Option CStr}
    (hnew : ∀ v, new = some v → AmapParse.Fits v) : AllFit (Function.update rsp f new) := by
  intro g v hv
  by_cases hg : g = f
  · subst hg
    rw [Function.update_self] at hv
    exact hnew v hv
  · rw [Function.update_of_ne hg] at hv
    exact h g v hv

theorem AllFit.update_none {rsp : RspMembers} (h : AllFit rsp) (f : RspMember) :
    AllFit (Function.update rsp f none) :=
  h.update fun _ hv => nomatch hv

theorem AllFit.update_copy {rsp : RspMembers} (h : AllFit rsp) (f : RspMember) {alloc : Bool}
    {src : Option CStr} {v : CStr} (hcopy : amapCopyLocationRsp alloc src = .ok v) :
    AllFit (Function.update rsp f (some v)) := by
  apply h.update
  intro w hw
  cases hw
  exact (amapCopy_eq_ok_iff.mp hcopy).2.1

theorem copyMembers_allFit {alloc : RspMember → Bool} {item : Json}
    {blocks : List (String × RspMember)} {rsp : RspMembers} (h : AllFit rsp) :
    AllFit (copyMembers alloc item blocks rsp).2 := by
  induction blocks generalizing rsp with
  | nil => exact h
  | cons b blocks ih =>
    simp only [copyMembers]
    split
    · exact ih h
    · split
      · rename_i hcopy
        exact ih (h.update_copy _ hcopy)
      · exact h.update_none _

theorem copyPosition_allFit (alloc : RspMember → Bool) (halves : CStr × CStr) :
    AllFit (copyPosition alloc halves).2 := by
  simp only [copyPosition]
  split
  · exact allFit_noMembers
  · rename_i hlon
    have hfit := allFit_noMembers.update_copy .longitude hlon
    split
    · exact hfit
    · rename_i hlat
      exact hfit.update_copy _ hlat

theorem amapv1Copy_allFit (alloc : RspMember → Bool) (result : Json) (halves : CStr × CStr) :
    AllFit (amapv1Copy alloc result halves).2 := by
  have hposition := copyPosition_allFit alloc halves
  simp only [amapv1Copy]
  split
  · rename_i hcopy
    rwa [hcopy] at hposition
  · rename_i hcopy
    rw [hcopy] at hposition
    exact copyMembers_allFit hposition

theorem amapv1Parse_allFit {alloc : RspMember → Bool} {parsed : Option Json} {event : AmapEvent}
    {rsp : RspMembers} (h : amapv1Parse alloc parsed = some (event, rsp)) : AllFit rsp := by
  have hrefused : ∀ {refusal : Option AmapEvent},
      (refusal.bind fun e => some (e, noMembers)) = some (event, rsp) → AllFit rsp := by
    intro refusal hrefusal
    obtain ⟨e, -, heq⟩ := Option.bind_eq_some_iff.mp hrefusal
    cases heq
    exact allFit_noMembers
  simp only [amapv1Parse, Option.bind_eq_bind] at h
  split at h
  · cases h
    exact allFit_noMembers
  obtain ⟨status, -, h⟩ := Option.bind_eq_some_iff.mp h
  obtain ⟨statusText, -, h⟩ := Option.bind_eq_some_iff.mp h
  split at h
  · rename_i result hstatus hresult
    split at h
    · obtain ⟨text, -, h⟩ := Option.bind_eq_some_iff.mp h
      split at h
      · rename_i halves hsplit
        have hfit := amapv1Copy_allFit alloc result halves
        rwa [Option.some.inj h] at hfit
      · obtain ⟨info, -, h⟩ := Option.bind_eq_some_iff.mp h
        obtain ⟨infoText, -, h⟩ := Option.bind_eq_some_iff.mp h
        cases h
        exact allFit_noMembers
    · exact hrefused h
  · exact hrefused h

theorem amapv2Address_allFit {alloc : RspMember → Bool} {doc : Json} {rsp : RspMembers}
    (h : AllFit rsp) : AllFit (amapv2Address alloc doc rsp).2 := by
  simp only [amapv2Address]
  split
  · exact h
  · split
    · exact h.update_none _
    · rename_i hcopy
      have hdesc := h.update_copy .locationDescribe hcopy
      split
      · exact hdesc
      · exact copyMembers_allFit hdesc

theorem amapv2Copy_allFit (alloc : RspMember → Bool) (doc radius : Json)
    (halves : CStr × CStr) : AllFit (amapv2Copy alloc doc radius halves).2 := by
  have hposition := copyPosition_allFit alloc halves
  simp only [amapv2Copy]
  split
  · rename_i hcopy
    rwa [hcopy] at hposition
  · rename_i hcopy
    rw [hcopy] at hposition
    split
    · exact hposition.update_none _
    · rename_i hradius
      exact amapv2Address_allFit (hposition.update_copy _ hradius)

theorem amapv2Parse_allFit {alloc : RspMember → Bool} {parsed : Option Json} {event : AmapEvent}
    {rsp : RspMembers} (h : amapv2Parse alloc parsed = some (event, rsp)) : AllFit rsp := by
  simp only [amapv2Parse, Option.bind_eq_bind] at h
  split at h
  · cases h
    exact allFit_noMembers
  rename_i doc
  split at h
  · split at h
    · rename_i radius _ _
      obtain ⟨text, -, h⟩ := Option.bind_eq_some_iff.mp h
      split at h
      · cases h
        exact allFit_noMembers
      · rename_i halves _
        have hfit := amapv2Copy_allFit alloc doc radius halves
        rwa [Option.some.inj h] at hfit
    · cases h
      exact allFit_noMembers
  · obtain ⟨e, -, heq⟩ := Option.bind_eq_some_iff.mp h
    cases heq
    exact allFit_noMembers

/-- What the record of an AMAP response holds would be copied once more. -/
theorem amapRspContent_allFit {platform : LocationPlatform} {alloc : RspAlloc}
    {body : Option Json} {event : AmapEvent} {rsp : AmapLocationRsp}
    (h : amapRspContent platform alloc body = some (event, some rsp)) : AllFit rsp.member := by
  simp only [amapRspContent] at h
  split at h
  · obtain ⟨⟨e, member⟩, hparse, heq⟩ := Option.bind_eq_some_iff.mp h
    cases heq
    cases platform with
    | amap10 => exact amapv1Parse_allFit hparse
    | amap20 => exact amapv2Parse_allFit hparse
    | oneospos =>
      cases hparse
      exact allFit_noMembers
    | other code =>
      cases hparse
      exact allFit_noMembers
  · cases h

/-- A copy of a record that fits keeps the members that are copied at all. -/
theorem copyRspMembers_member {alloc : RspMember → Bool} {rsp : AmapLocationRsp}
    (hrsp : AllFit rsp.member) (halloc : ∀ f, alloc f = true) {f : RspMember}
    (hf : f ∈ backedMembers) : (copyRspMembers alloc rsp).member f = rsp.member f := by
  simp only [copyRspMembers, if_pos hf, halloc f]
  cases hmember : rsp.member f with
  | none => rfl
  | some v =>
    have hcopy : amapCopyLocationRsp true (some v) = .ok v :=
      amapCopy_eq_ok_iff.mpr ⟨rfl, hrsp f v hmember, rfl⟩
    rw [hcopy]
    rfl

theorem copyRspMembers_allFit (alloc : RspMember → Bool) (rsp : AmapLocationRsp) :
    AllFit (copyRspMembers alloc rsp).member := by
  intro f v hv
  simp only [copyRspMembers] at hv
  split_ifs at hv
  cases hcopy : amapCopyLocationRsp (alloc f) (rsp.member f) with
  | error e =>
    rw [hcopy] at hv
    cases hv
  | ok w =>
    rw [hcopy] at hv
    cases hv
    exact (amapCopy_eq_ok_iff.mp hcopy).2.1

/-- The application reads the members that are copied into the cache. -/
theorem lbsAmapCallback_congr {alloc : Bool} {event : AmapEvent} {rsp rsp' : AmapLocationRsp}
    (h : ∀ f ∈ backedMembers, rsp.member f = rsp'.member f) :
    lbsAmapCallback alloc event (some rsp) = lbsAmapCallback alloc event (some rsp') := by
  simp only [backedMembers, List.forall_mem_cons] at h
  obtain ⟨hlongitude, hlatitude, hradius, hcountry, hprovince, hcity, hcitycode, hadcode, hpoi,
    hdescribe, -⟩ := h
  simp only [lbsAmapCallback, hlongitude, hlatitude, hradius, hcountry, hprovince, hcity,
    hcitycode, hadcode, hpoi, hdescribe]

/-- A coordinate that is long enough to be told from the cache. -/
def Long (coordinate : Option CStr) : Prop := ∃ v, coordinate = some v ∧ 6 < v.length

/-- What an AMAP step makes the last result. -/
def amapResult : AmapInput × AmapOutcome → Option (Option AmapLocationRsp)
  | (_, .response (some (event, some rsp))) => some (if event = .succeed then some rsp else none)
  | _ => none

/-- The allocations of both copies of a result succeed. -/
def amapAllocated (_ : AmapCache.AmapTrace) (_ : AmapState) : AmapInput → Prop
  | .location _ _ env => env.backupRsp = true ∧ (∀ f, env.backupMember f = true) ∧
      ∀ f, env.lastMember f = true
  | .rspEnd => True

/-- The cache holds a copy of the last result, if that was a success. -/
structure AmapRemembers (trace : AmapCache.AmapTrace) (s : AmapState) : Prop where
  entry : s.locationRsp = (lastResult amapResult trace).map (copyRspMembers fun _ => true)
  fits : ∀ rsp, lastResult amapResult trace = some rsp → AllFit rsp.member

theorem AmapRemembers.untouched {trace : AmapCache.AmapTrace} {s t : AmapState}
    (h : AmapRemembers trace s) {step : AmapInput × AmapOutcome} (hresult : amapResult step = none)
    (hentry : t.locationRsp = s.locationRsp) : AmapRemembers (trace ++ [step]) t := by
  have hlast : lastResult amapResult (trace ++ [step]) = lastResult amapResult trace := by
    rw [lastResult_append, hresult, Option.getD_none]
  constructor
  · rw [hlast, hentry]
    exact h.entry
  · rw [hlast]
    exact h.fits

/-- A response replaces what is remembered. -/
theorem AmapRemembers.answered {trace : AmapCache.AmapTrace} {s u : AmapState}
    (h : AmapRemembers trace s) {i : AmapInput} {env : AmapEnv} {platform : LocationPlatform}
    {call : AmapCall} (hbackup : env.backupRsp = true) (hmember : ∀ f, env.backupMember f = true)
    (hcall : amapRspContent platform env.rsp env.body = some call)
    (hu : u.locationRsp = s.locationRsp) :
    AmapRemembers (trace ++ [(i, .response (some call))]) (backupCall env u call) := by
  rcases call with ⟨event, _ | rsp⟩
  · exact h.untouched rfl hu
  have hevent := AmapCache.amapRspContent_event hcall rfl
  cases hevent
  have halloc : env.backupMember = fun _ => true := funext hmember
  have hlast : lastResult amapResult (trace ++ [(i, .response (some (rsp.event, some rsp)))]) =
      if rsp.event = .succeed then some rsp else none := by
    rw [lastResult_append]
    rfl
  constructor
  · rw [hlast]
    simp only [backupCall, AmapBackend.rspBackup, hbackup, if_true, halloc]
    split_ifs <;> rfl
  · intro rsp' hrsp'
    rw [hlast] at hrsp'
    split_ifs at hrsp'
    cases hrsp'
    exact amapRspContent_allFit hcall

theorem AmapRemembers.step {md5 : CStr → Digest} {trace : AmapCache.AmapTrace} {s t : AmapState}
    {i : AmapInput} {o : AmapOutcome} (h : AmapRemembers trace s) (hok : amapAllocated trace s i)
    (hstep : amapStep md5 s i = some (t, o)) : AmapRemembers (trace ++ [(i, o)]) t := by
  cases i with
  | rspEnd =>
    simp only [amapStep, AmapBackend.rspEnd] at hstep
    split at hstep
    · cases hstep
    · cases hstep
      exact h.untouched rfl rfl
  | location auth ue env =>
    obtain ⟨hbackup, hmember, -⟩ := hok
    cases amapLocation_located hstep with
    | busy => exact h.untouched rfl rfl
    | cached => exact h.untouched rfl rfl
    | noClient => exact h.untouched rfl rfl
    | failed => exact h.untouched rfl rfl
    | ignored => exact h.untouched rfl rfl
    | answered hfree hclient hstate hexchanged hcall =>
      exact h.answered hbackup hmember hcall rfl

theorem amapRemembers_of_run {md5 : CStr → Digest} {trace : AmapCache.AmapTrace} {s : AmapState}
    (h : Run (amapStep md5) amapAllocated .init trace s) : AmapRemembers trace s :=
  h.invariant ⟨rfl, fun _ hnone => nomatch hnone⟩ fun h hok hstep => h.step hok hstep

theorem returnLastLocation_long {s : AmapState} {env : AmapEnv} {old rsp : AmapLocationRsp}
    (h : AmapBackend.returnLastLocation s env = some (some (old, rsp))) :
    s.locationRsp = some old ∧ rsp = copyRspMembers env.lastMember old ∧
      Long (rsp.member .longitude) ∧ Long (rsp.member .latitude) := by
  simp only [AmapBackend.returnLastLocation] at h
  split at h
  · cases h
  rename_i old' hold
  split_ifs at h
  · cases h
  · obtain ⟨longitude, hlon, h⟩ := Option.bind_eq_some_iff.mp h
    split_ifs at h with hlonShort
    · cases h
    obtain ⟨latitude, hlat, h⟩ := Option.bind_eq_some_iff.mp h
    split_ifs at h with hlatShort
    · cases h
    cases h
    exact ⟨hold, rfl, ⟨longitude, hlon, by omega⟩, latitude, hlat, by omega⟩
  · cases h

theorem requestLocation_ne_cached {md5 : CStr → Digest} {s t : AmapState}
    {auth : AmapAuthentication} {ue : AmapUeInfo} {env : AmapEnv} {old rsp : AmapLocationRsp} :
    AmapBackend.requestLocation md5 s auth ue env ≠ some (t, .cached old rsp) := by
  intro h
  simp only [AmapBackend.requestLocation] at h
  split at h
  · cases h
  obtain ⟨⟨u, outcome⟩, hrequst, h⟩ := Option.bind_eq_some_iff.mp h
  rcases httpRequst_cases hrequst with ⟨-, -, -, rfl⟩ | ⟨-, -, call, -, -, rfl⟩ |
    ⟨-, ret, -, -, rfl⟩
  · cases h
  · cases h
  · dsimp only at h
    split_ifs at h <;> cases h

/-- An answer from the cache is a copy of what is in the cache. -/
theorem amapLocation_cached {md5 : CStr → Digest} {s t : AmapState} {auth : AmapAuthentication}
    {ue : AmapUeInfo} {env : AmapEnv} {old rsp : AmapLocationRsp}
    (h : amapLocation md5 s auth ue env = some (t, .cached old rsp)) :
    s.locationRsp = some old ∧ rsp = copyRspMembers env.lastMember old ∧
      Long (rsp.member .longitude) ∧ Long (rsp.member .latitude) := by
  simp only [amapLocation] at h
  split_ifs at h
  · cases h
  obtain ⟨ueRet, -, h⟩ := Option.bind_eq_some_iff.mp h
  split_ifs at h
  · obtain ⟨cached, hcached, h⟩ := Option.bind_eq_some_iff.mp h
    rcases cached with _ | ⟨old', rsp'⟩
    · exact absurd h requestLocation_ne_cached
    · cases h
      exact returnLastLocation_long hcached
  · exact absurd h requestLocation_ne_cached

/-- Whatever is told from the cache is the last result before it: a success with two
long coordinates, of which the application was told the same. -/
def AmapReplayed (trace : AmapCache.AmapTrace) : Prop :=
  ∀ before after auth ue env old rsp,
    trace = before ++ (.location auth ue env, .cached old rsp) :: after →
    ∃ front i parsed middle,
      before = front ++ (i, .response (some (.succeed, some parsed))) :: middle ∧
      (∀ step ∈ middle, amapResult step = none) ∧
      Long (parsed.member .longitude) ∧ Long (parsed.member .latitude) ∧
      lbsAmapCallback true .succeed (some rsp) = lbsAmapCallback true .succeed (some parsed)

theorem amapResult_eq_some {step : AmapInput × AmapOutcome} {rsp : AmapLocationRsp}
    (h : amapResult step = some (some rsp)) :
    ∃ i, step = (i, .response (some (.succeed, some rsp))) := by
  rcases step with ⟨i, o⟩
  simp only [amapResult] at h
  split at h
  · rename_i hstep
    cases hstep
    split_ifs at h with hevent
    · cases h
      cases hevent
      exact ⟨i, rfl⟩
    · cases h
  · cases h

theorem amapReplayed_of_run {md5 : CStr → Digest} {trace : AmapCache.AmapTrace} {s : AmapState}
    (h : Run (amapStep md5) amapAllocated .init trace s) : AmapReplayed trace := by
  intro before after auth ue env old rsp htrace
  obtain ⟨s', t, hrun, ⟨-, -, hlast⟩, hstep⟩ := h.step_at htrace
  obtain ⟨hold, hrsp, hlon, hlat⟩ := amapLocation_cached hstep
  have hremembers := amapRemembers_of_run hrun
  rw [hremembers.entry] at hold
  obtain ⟨parsed, hparsed, hcopy⟩ := Option.map_eq_some_iff.mp hold
  obtain ⟨front, step, middle, hbefore, hresult, hmiddle⟩ := lastResult_eq_some hparsed
  obtain ⟨i, rfl⟩ := amapResult_eq_some hresult
  have hsame : ∀ f ∈ backedMembers, rsp.member f = parsed.member f := by
    intro f hf
    calc rsp.member f = old.member f := by
          rw [hrsp]
          exact copyRspMembers_member (hcopy ▸ copyRspMembers_allFit _ _) hlast hf
      _ = parsed.member f := by
          rw [← hcopy]
          exact copyRspMembers_member (hremembers.fits parsed hparsed) (fun _ => rfl) hf
  refine ⟨front, i, parsed, middle, hbefore, hmiddle, ?_, ?_, lbsAmapCallback_congr hsame⟩
  · rwa [← hsame .longitude (by decide)]
  · rwa [← hsame .latitude (by decide)]

/-- What a OneOS step makes the last result. -/
def oneosposResult : OneosposInput × OneosposOutcome → Option (Option OneosposLocationRsp)
  | (_, .response (some (event, some rsp))) => some (if event = .success then some rsp else none)
  | _ => none

def oneosposAllocated (_ : OneosposCache.OneosposTrace) (_ : OneosposState) :
    OneosposInput → Prop
  | .location _ _ env => env.backupRsp = true ∧ (∀ f, env.backupMember f = true) ∧
      ∀ f, env.lastMember f = true
  | .rspEnd => True

/-- Both coordinates would be copied once more. -/
def CoordinatesFit (rsp : OneosposLocationRsp) : Prop :=
  ∀ v, rsp.latitude = some v ∨ rsp.longitude = some v → 0 < v.length ∧ v.length < 64

theorem coordinatesFit_failed (event : OneosposEvent) : CoordinatesFit (failed event) := by
  rintro v (h | h)
  · cases h
  · cases h

theorem oneosposCopy_fit (alloc : RspMember → Bool) (halves : CStr × CStr) :
    CoordinatesFit (oneosposCopy alloc halves) := by
  simp only [oneosposCopy]
  split
  · exact coordinatesFit_failed _
  · rename_i latitude hlat
    have hlat' := (copyRsp_eq_ok_iff.mp hlat).2.1
    split
    · rintro v (h | h)
      · cases h
        exact hlat'
      · cases h
    · rename_i longitude hlon
      rintro v (h | h)
      · cases h
        exact hlat'
      · cases h
        exact (copyRsp_eq_ok_iff.mp hlon).2.1

theorem oneosposHttpLocationParse_fit {alloc : RspMember → Bool} {parsed : Option Json}
    {rsp : OneosposLocationRsp} (h : oneosposHttpLocationParse alloc parsed = some rsp) :
    CoordinatesFit rsp := by
  have hfailed : ∀ {event}, some (failed event) = some rsp → CoordinatesFit rsp := by
    intro event heq
    cases heq
    exact coordinatesFit_failed event
  simp only [oneosposHttpLocationParse] at h
  split at h
  · exact hfailed h
  split at h
  · exact hfailed h
  split at h
  · obtain ⟨v, -, heq⟩ := Option.map_eq_some_iff.mp h
    exact hfailed (congrArg some heq)
  · exact hfailed h
  · exact hfailed h
  split at h
  · exact hfailed h
  obtain ⟨halves, -, h⟩ := Option.bind_eq_some_iff.mp h
  split at h
  · exact hfailed h
  · cases h
    exact oneosposCopy_fit _ _

theorem oneosposRspContent_fit {alloc : RspAlloc} {body : Option Json} {event : OneosposEvent}
    {rsp : OneosposLocationRsp} (h : oneosposRspContent alloc body = some (event, some rsp)) :
    CoordinatesFit rsp := by
  simp only [oneosposRspContent] at h
  split at h
  · obtain ⟨parsed, hparse, heq⟩ := Option.bind_eq_some_iff.mp h
    cases heq
    exact oneosposHttpLocationParse_fit hparse
  · cases h

theorem oneosposCopy_of_fit {alloc : Bool} {src : Option CStr} (halloc : alloc = true)
    (hsrc : ∀ v, src = some v → 0 < v.length ∧ v.length < 64) :
    (oneosposCopyLocationRsp alloc src).toOption = src := by
  cases src with
  | none => rfl
  | some v =>
    have hcopy : oneosposCopyLocationRsp alloc (some v) = .ok v :=
      copyRsp_eq_ok_iff.mpr ⟨rfl, hsrc v rfl, halloc⟩
    rw [hcopy]
    rfl

theorem CoordinatesFit.copy {rsp : OneosposLocationRsp} (h : CoordinatesFit rsp)
    {alloc : RspMember → Bool} (halloc : ∀ f, alloc f = true) :
    copyOneosposRsp alloc rsp = rsp := by
  have hlat := oneosposCopy_of_fit (halloc .latitude) fun v hv => h v (Or.inl hv)
  have hlon := oneosposCopy_of_fit (halloc .longitude) fun v hv => h v (Or.inr hv)
  simp only [copyOneosposRsp, hlat, hlon]

/-- The cache holds the last result, if that was a success. -/
structure OneosposRemembers (trace : OneosposCache.OneosposTrace) (s : OneosposState) :
    Prop where
  entry : s.rspBuf = lastResult oneosposResult trace
  fits : ∀ rsp, s.rspBuf = some rsp → CoordinatesFit rsp

theorem OneosposRemembers.untouched {trace : OneosposCache.OneosposTrace} {s t : OneosposState}
    (h : OneosposRemembers trace s) {step : OneosposInput × OneosposOutcome}
    (hresult : oneosposResult step = none) (hentry : t.rspBuf = s.rspBuf) :
    OneosposRemembers (trace ++ [step]) t := by
  constructor
  · rw [lastResult_append, hresult, Option.getD_none, hentry]
    exact h.entry
  · rw [hentry]
    exact h.fits

theorem rspBackup_rspBuf {env : OneosposEnv} (s : OneosposState) {event : OneosposEvent}
    {rsp : OneosposLocationRsp} (hbackup : env.backupRsp = true)
    (hmember : ∀ f, env.backupMember f = true)
    (hcall : oneosposRspContent env.rsp env.body = some (event, some rsp)) :
    (OneosposBackend.rspBackup env s rsp).rspBuf =
      if event = .success then some rsp else none := by
  have hcopy := (oneosposRspContent_fit hcall).copy hmember
  have hevent := OneosposCache.oneosposRspContent_event hcall
  simp only [OneosposBackend.rspBackup, hbackup, if_true, hcopy, hevent]
  split_ifs <;> rfl

theorem OneosposRemembers.step {trace : OneosposCache.OneosposTrace} {s t : OneosposState}
    {i : OneosposInput} {o : OneosposOutcome} (h : OneosposRemembers trace s)
    (hok : oneosposAllocated trace s i) (hstep : oneosposStep s i = some (t, o)) :
    OneosposRemembers (trace ++ [(i, o)]) t := by
  cases i with
  | rspEnd =>
    simp only [oneosposStep, OneosposBackend.rspEnd] at hstep
    split at hstep
    · cases hstep
    · cases hstep
      exact h.untouched rfl rfl
  | location pid ue env =>
    obtain ⟨hbackup, hmember, -⟩ := hok
    cases oneosposLocation_located hstep with
    | busy => exact h.untouched rfl rfl
    | cached => exact h.untouched rfl rfl
    | noClient => exact h.untouched rfl rfl
    | failed => exact h.untouched rfl rfl
    | ignored => exact h.untouched rfl rfl
    | answered hfree hclient hstate hcurl hcall =>
      have hentry := fun u => rspBackup_rspBuf u hbackup hmember hcall
      constructor
      · rw [lastResult_append, hentry]
        rfl
      · intro rsp' hrsp'
        rw [hentry] at hrsp'
        split_ifs at hrsp'
        cases hrsp'
        exact oneosposRspContent_fit hcall

theorem oneosposRemembers_of_run {trace : OneosposCache.OneosposTrace} {s : OneosposState}
    (h : Run oneosposStep oneosposAllocated .init trace s) : OneosposRemembers trace s :=
  h.invariant ⟨rfl, fun _ hnone => nomatch hnone⟩ fun h hok hstep => h.step hok hstep

theorem oneosposReturnLastLocation_long {s : OneosposState} {env : OneosposEnv}
    {old rsp : OneosposLocationRsp}
    (h : OneosposBackend.returnLastLocation s env = some (some (old, rsp))) :
    s.rspBuf = some old ∧ rsp = copyOneosposRsp env.lastMember old ∧
      Long rsp.longitude ∧ Long rsp.latitude := by
  simp only [OneosposBackend.returnLastLocation] at h
  split at h
  · cases h
  rename_i old' hold
  split_ifs at h
  · cases h
  · obtain ⟨longitude, hlon, h⟩ := Option.bind_eq_some_iff.mp h
    split_ifs at h with hlonShort
    · cases h
    obtain ⟨latitude, hlat, h⟩ := Option.bind_eq_some_iff.mp h
    split_ifs at h with hlatShort
    · cases h
    cases h
    exact ⟨hold, rfl, ⟨longitude, hlon, by omega⟩, latitude, hlat, by omega⟩
  · cases h

theorem oneosposRequestLocation_ne_cached {s t : OneosposState} {pid : Option CStr}
    {ue : OneosposUeInfo} {env : OneosposEnv} {old rsp : OneosposLocationRsp} :
    OneosposBackend.requestLocation s pid ue env ≠ some (t, .cached old rsp) := by
  intro h
  unfold OneosposBackend.requestLocation at h
  obtain ⟨created, -, h⟩ := Option.bind_eq_some_iff.mp h
  rcases created with _ | client
  · cases h
  obtain ⟨⟨u, outcome⟩, hrun, h⟩ := Option.bind_eq_some_iff.mp h
  rcases asynlocation_cases hrun with ⟨-, -, -, rfl⟩ | ⟨-, -, event, rsp, -, -, rfl⟩ |
    ⟨-, ret, -, -, rfl⟩
  · cases h
  · cases h
  · dsimp only at h
    split_ifs at h <;> cases h

/-- An answer from the cache is a copy of what is in the cache. -/
theorem oneosposLocation_cached {s t : OneosposState} {pid : Option CStr} {ue : OneosposUeInfo}
    {env : OneosposEnv} {old rsp : OneosposLocationRsp}
    (h : oneosposLocation s pid ue env = some (t, .cached old rsp)) :
    s.rspBuf = some old ∧ rsp = copyOneosposRsp env.lastMember old ∧
      Long rsp.longitude ∧ Long rsp.latitude := by
  unfold oneosposLocation at h
  split_ifs at h
  · cases h
  obtain ⟨ueRet, -, h⟩ := Option.bind_eq_some_iff.mp h
  split_ifs at h
  · obtain ⟨cached, hcached, h⟩ := Option.bind_eq_some_iff.mp h
    rcases cached with _ | ⟨old', rsp'⟩
    · exact absurd h oneosposRequestLocation_ne_cached
    · cases h
      exact oneosposReturnLastLocation_long hcached
  · exact absurd h oneosposRequestLocation_ne_cached

def OneosposReplayed (trace : OneosposCache.OneosposTrace) : Prop :=
  ∀ before after pid ue env old rsp,
    trace = before ++ (.location pid ue env, .cached old rsp) :: after →
    ∃ front i parsed middle,
      before = front ++ (i, .response (some (.success, some parsed))) :: middle ∧
      (∀ step ∈ middle, oneosposResult step = none) ∧
      Long parsed.longitude ∧ Long parsed.latitude ∧
      lbsOneosposCallback true .success (some rsp) = lbsOneosposCallback true .success (some parsed)

theorem oneosposResult_eq_some {step : OneosposInput × OneosposOutcome}
    {rsp : OneosposLocationRsp} (h : oneosposResult step = some (some rsp)) :
    ∃ i, step = (i, .response (some (.success, some rsp))) := by
  rcases step with ⟨i, o⟩
  simp only [oneosposResult] at h
  split at h
  · rename_i hstep
    cases hstep
    split_ifs at h with hevent
    · cases h
      cases hevent
      exact ⟨i, rfl⟩
    · cases h
  · cases h

theorem oneosposReplayed_of_run {trace : OneosposCache.OneosposTrace} {s : OneosposState}
    (h : Run oneosposStep oneosposAllocated .init trace s) : OneosposReplayed trace := by
  intro before after pid ue env old rsp htrace
  obtain ⟨s', t, hrun, ⟨-, -, hlast⟩, hstep⟩ := h.step_at htrace
  obtain ⟨hold, hrsp, hlon, hlat⟩ := oneosposLocation_cached hstep
  have hremembers := oneosposRemembers_of_run hrun
  have hsame : rsp = old := hrsp.trans ((hremembers.fits old hold).copy hlast)
  subst hsame
  rw [hremembers.entry] at hold
  obtain ⟨front, step, middle, hbefore, hresult, hmiddle⟩ := lastResult_eq_some hold
  obtain ⟨i, rfl⟩ := oneosposResult_eq_some hresult
  exact ⟨front, i, rsp, middle, hbefore, hmiddle, hlon, hlat, rfl⟩

/-- In every run of either back end in which the copies of the results are allocated,
the application is told from the cache what it was told of the last response, member
by member, and only a location with two coordinates of more than 6 characters is told. -/
theorem cached_location_replayed (md5 : CStr → Digest) :
    (∀ trace s, Run (amapStep md5) amapAllocated .init trace s → AmapReplayed trace) ∧
    (∀ trace s, Run oneosposStep oneosposAllocated .init trace s → OneosposReplayed trace) :=
  ⟨fun _ _ => amapReplayed_of_run, fun _ _ => oneosposReplayed_of_run⟩

/-- The second of two like requests is answered from the cache, with either back end. -/
theorem cached_location_replayed_repeat :
    (∃ trace i old rsp s, Run (amapStep fun _ => Field.zero 16) amapAllocated .init
        (trace ++ [(i, .cached old rsp)]) s ∧ AmapReplayed (trace ++ [(i, .cached old rsp)])) ∧
    ∃ trace i old rsp s, Run oneosposStep oneosposAllocated .init
        (trace ++ [(i, .cached old rsp)]) s ∧
      OneosposReplayed (trace ++ [(i, .cached old rsp)]) := by
  constructor
  · have hallocated : ∀ trace s,
        amapAllocated trace s (.location amapAuth (amapUe "1") (amapEnv true 0)) :=
      fun _ _ => ⟨rfl, fun _ => rfl, fun _ => rfl⟩
    have h₁ : Run (amapStep fun _ => Field.zero 16) amapAllocated .init _ _ :=
      .snoc .start (hallocated [] .init) rfl
    have hend : ∀ trace s, amapAllocated trace s .rspEnd := fun _ _ => trivial
    have h₂ := h₁.snoc (hend _ _) rfl
    have h₃ := h₂.snoc (hallocated _ _) rfl
    exact ⟨_, _, _, _, _, h₃, (cached_location_replayed fun _ => Field.zero 16).1 _ _ h₃⟩
  · have hallocated : ∀ trace s, oneosposAllocated trace s
        (.location (some (cstr "m5")) oneosposUe (locatedEnv 0)) :=
      fun _ _ => ⟨rfl, fun _ => rfl, fun _ => rfl⟩
    have h₁ : Run oneosposStep oneosposAllocated .init _ _ :=
      .snoc .start (hallocated [] .init) rfl
    have hend : ∀ trace s, oneosposAllocated trace s .rspEnd := fun _ _ => trivial
    have h₂ := h₁.snoc (hend _ _) rfl
    have h₃ := h₂.snoc (hallocated _ _) rfl
    exact ⟨_, _, _, _, _, h₃, (cached_location_replayed fun _ => Field.zero 16).2 _ _ h₃⟩

end CacheReplay
