import LinuxBuild.AmapBackend
import LinuxBuild.OneosposBackend

/-!
# The LBS task

The task takes a message and runs the request of the present session to its end: it
reads the UE information, asks the back end, and sees to it that the callback of the
session is called. A block of UE information that is released twice on the way is
outside this model.
-/
namespace LbsTask
open CString LbsTypes AmapParse OneosposParse LocationDelivery BackendTypes AmapRequest
open AmapBackend OneosposBackend

/-- `s_amap_key_filter` -/
def amapKeyFilterTable : List String :=
  ["17c91c31e704f1306d3b870d2cef76ca", "72ce730145e10ae5b04d307a442162ba",
    "624d3d5bb15c40adba27c14310f85b23", "eb5c394e6f300b26c86bf7594aad5fbb",
    "f81a5036d2320176e6fbeac959792571", "a815405b46390e87193110fdb70ac017"]

/-- `__cm_amap_key_filter` -/
def amapKeyFilter (key : CStr) : LbsState :=
  if key ∈ amapKeyFilterTable.map cstr then .err else .ok

/-- What comes of a message: how the back end ended it, if it was asked, and the calls
of the session's callback. -/
structure Answer (Rsp Call : Type) where
  outcome : Option (Outcome Rsp Call)
  calls : List Call

/-- The task reports a request that the back end did not accept. -/
def answer {Rsp Call : Type} (hit : Rsp → Call) (failure : Call) (outcome : Outcome Rsp Call) :
    Answer Rsp Call where
  outcome := some outcome
  calls := (outcome.call hit).toList ++ if outcome.ret = .ok then [] else [failure]

abbrev AmapAnswer := Answer AmapLocationRsp AmapCall

def amapHit (rsp : AmapLocationRsp) : AmapCall := (.succeed, some rsp)

/-- `cm_lbs_asyn_location_amap` for a session with these credentials and the UE
information that `cm_amap_get_ueinfo` returns. -/
def asynLocationAmap (md5 : CStr → Digest) (s : AmapState) (auth : AmapAuthentication)
    (ueInfo : Option AmapUeInfo) (env : AmapEnv) : Option (AmapState × AmapAnswer) :=
  match ueInfo with
  | none => some (s, ⟨none, [(.getUeinfoFail, none)]⟩)
  | some ue => do
    let apikey ← auth.apikey
    if amapKeyFilter apikey = .ok then do
      let (s, outcome) ← amapLocation md5 s auth ue env
      some (s, answer amapHit (.unknownErr, none) outcome)
    else some (s, ⟨none, [(.apikeyFobiden, none)]⟩)

abbrev OneosposAnswer := Answer OneosposLocationRsp OneosposCall

def oneosposHit (rsp : OneosposLocationRsp) : OneosposCall := (.success, some rsp)

/-- `cm_lbs_asyn_location_oneospos` for a session with this pid and the UE information
that `cm_oneospos_get_ueinfo` returns. -/
def asynLocationOneospos (s : OneosposState) (pid : Option CStr)
    (ueInfo : Option OneosposUeInfo) (env : OneosposEnv) :
    Option (OneosposState × OneosposAnswer) :=
  match ueInfo with
  | none => some (s, ⟨none, [(.ueinfoFail, none)]⟩)
  | some ue => do
    let (s, outcome) ← oneosposLocation s pid ue env
    some (s, answer oneosposHit (.unknow, none) outcome)

/-- A message either is answered before the back end is asked, or the back end is. -/
theorem asynLocationAmap_cases {md5 : CStr → Digest} {s t : AmapState}
    {auth : AmapAuthentication} {ueInfo : Option AmapUeInfo} {env : AmapEnv} {a : AmapAnswer}
    (h : asynLocationAmap md5 s auth ueInfo env = some (t, a)) :
    (t = s ∧ (∃ call, a = ⟨none, [call]⟩) ∧
      (ueInfo = none ∨ ∃ apikey, auth.apikey = some apikey ∧ amapKeyFilter apikey ≠ .ok)) ∨
    ∃ ue apikey outcome, ueInfo = some ue ∧ auth.apikey = some apikey ∧
      amapKeyFilter apikey = .ok ∧ Located s auth ue env t outcome ∧
      a = answer amapHit (.unknownErr, none) outcome := by
  simp only [asynLocationAmap] at h
  split at h
  · cases h
    exact Or.inl ⟨rfl, ⟨_, rfl⟩, Or.inl rfl⟩
  rename_i ue
  obtain ⟨apikey, hkey, h⟩ := Option.bind_eq_some_iff.mp h
  split_ifs at h with hfilter
  · obtain ⟨⟨t', outcome⟩, hlocation, h⟩ := Option.bind_eq_some_iff.mp h
    cases h
    exact Or.inr ⟨ue, apikey, outcome, rfl, hkey, hfilter, amapLocation_located hlocation, rfl⟩
  · cases h
    exact Or.inl ⟨rfl, ⟨_, rfl⟩, Or.inr ⟨apikey, hkey, hfilter⟩⟩

theorem asynLocationOneospos_cases {s t : OneosposState} {pid : Option CStr}
    {ueInfo : Option OneosposUeInfo} {env : OneosposEnv} {a : OneosposAnswer}
    (h : asynLocationOneospos s pid ueInfo env = some (t, a)) :
    (t = s ∧ (∃ call, a = ⟨none, [call]⟩) ∧ ueInfo = none) ∨
    ∃ ue outcome, ueInfo = some ue ∧ OneosposBackend.Located s pid ue env t outcome ∧
      a = answer oneosposHit (.unknow, none) outcome := by
  simp only [asynLocationOneospos] at h
  split at h
  · cases h
    exact Or.inl ⟨rfl, ⟨_, rfl⟩, rfl⟩
  rename_i ue
  obtain ⟨⟨t', outcome⟩, hlocation, h⟩ := Option.bind_eq_some_iff.mp h
  cases h
  exact Or.inr ⟨ue, outcome, rfl, oneosposLocation_located hlocation, rfl⟩

theorem answer_calls_of_ok {Rsp Call : Type} {hit : Rsp → Call} {failure call : Call}
    {outcome : Outcome Rsp Call} (hret : outcome.ret = .ok) (hcall : outcome.call hit = some call) :
    (answer hit failure outcome).calls = [call] := by
  simp [answer, hret, hcall]

theorem answer_calls_of_failure {Rsp Call : Type} {hit : Rsp → Call} {failure : Call}
    {outcome : Outcome Rsp Call} (hret : outcome.ret ≠ .ok) (hcall : outcome.call hit = none) :
    (answer hit failure outcome).calls = [failure] := by
  simp [answer, hret, hcall]

/-- A message for a back end that is busy when it has an unfinished answer comes to
exactly one call, and leaves such a back end. -/
theorem asynLocationAmap_one_call {md5 : CStr → Digest} {s t : AmapState}
    {auth : AmapAuthentication} {ueInfo : Option AmapUeInfo} {env : AmapEnv} {a : AmapAnswer}
    (hs : s.callbackState = true → s.client ≠ none)
    (h : asynLocationAmap md5 s auth ueInfo env = some (t, a)) :
    (∃ call, a.calls = [call]) ∧ (t.callbackState = true → t.client ≠ none) := by
  rcases asynLocationAmap_cases h with ⟨rfl, ⟨call, rfl⟩, -⟩ |
    ⟨ue, apikey, outcome, -, -, -, hlocated, rfl⟩
  · exact ⟨⟨call, rfl⟩, hs⟩
  refine ⟨?_, hlocated.keeps_busy hs⟩
  cases hlocated with
  | busy => exact ⟨_, answer_calls_of_failure (by decide) rfl⟩
  | cached => exact ⟨_, answer_calls_of_ok rfl rfl⟩
  | noClient => exact ⟨_, answer_calls_of_failure (by decide) rfl⟩
  | failed _ hret => exact ⟨_, answer_calls_of_failure hret.1 rfl⟩
  -- a response that is ignored would have no call, but needs an idle back end
  | ignored hfree hstate => exact absurd hfree (hs hstate)
  | answered => exact ⟨_, answer_calls_of_ok rfl rfl⟩

/-- As for AMAP; moreover the call can be passed on to the application. -/
theorem asynLocationOneospos_one_call {s t : OneosposState} {pid : Option CStr}
    {ueInfo : Option OneosposUeInfo} {env : OneosposEnv} {a : OneosposAnswer}
    (hs : s.callbackState = true → s.busy = true)
    (h : asynLocationOneospos s pid ueInfo env = some (t, a)) :
    (∃ call, a.calls = [call] ∧ ∀ alloc, lbsOneosposCallback alloc call.1 call.2 ≠ none) ∧
      (t.callbackState = true → t.busy = true) := by
  have hsome : ∀ alloc event rsp, lbsOneosposCallback alloc event (some rsp) ≠ none := by
    intro alloc event rsp
    cases event <;> cases alloc <;> exact Option.some_ne_none _
  have hfailure : ∀ alloc, lbsOneosposCallback alloc .unknow none ≠ none :=
    fun _ => Option.some_ne_none _
  unfold asynLocationOneospos at h
  split at h
  · cases h
    exact ⟨⟨_, rfl, fun _ => Option.some_ne_none _⟩, hs⟩
  obtain ⟨⟨t', outcome⟩, hlocation, h⟩ := Option.bind_eq_some_iff.mp h
  cases h
  have hlocated := oneosposLocation_located hlocation
  refine ⟨?_, hlocated.keeps_busy hs⟩
  cases hlocated with
  | busy => exact ⟨_, answer_calls_of_failure (by decide) rfl, hfailure⟩
  | cached => exact ⟨_, answer_calls_of_ok rfl rfl, fun alloc => hsome alloc _ _⟩
  | noClient => exact ⟨_, answer_calls_of_failure (by decide) rfl, hfailure⟩
  | failed _ hret => exact ⟨_, answer_calls_of_failure hret.1 rfl, hfailure⟩
  | ignored hfree hstate => exact absurd (hs hstate) (by simp [hfree])
  | answered => exact ⟨_, answer_calls_of_ok rfl rfl, fun alloc => hsome alloc _ _⟩

end LbsTask
