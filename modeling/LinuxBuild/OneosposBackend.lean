import LinuxBuild.BackendTypes
import LinuxBuild.AmapRequest
import LinuxBuild.LocationDelivery

/-!
# The OneOS back end

As for AMAP: the statics between two requests, and what a request and the end of
its response do to them. The cell list is put together in 512 bytes and the content
of the request in 1024. The exchange itself succeeds or fails as a whole; the faults on
its way are modelled with the handles and the content of a request.
-/
namespace OneosposBackend
open CString LbsTypes CJson AmapParse OneosposParse LocationDelivery BackendTypes AmapRequest

/-- `cm_oneospos_ueinfo_t` has the compared members only. -/
abbrev OneosposUeInfo := UeKey

/-- The parts of `cm_oneospos_attr_t` that a request reads. -/
structure OneosposClient where
  pid : CStr
  ueinfo : Option OneosposUeInfo
  deriving DecidableEq

/-- The statics of `cm_lbs_oneospos.c`; `callbackState` says that it is 2. -/
structure OneosposState where
  busy : Bool
  client : Option OneosposClient
  callbackState : Bool
  rspBuf : Option OneosposLocationRsp
  rspTime : Int
  ueInfoLast : Pointer SavedUe
  lastpid : Option CStr

def OneosposState.init : OneosposState := ⟨false, none, false, none, 0, .null, none⟩

/-- Which of the two allocations for a copy of the UE information succeed. -/
structure CopyAlloc where
  ueinfo : Bool
  nearbts : Bool

/-- Which allocations of `cm_oneospos_create_attr` succeed. -/
structure AttrAlloc where
  attr : Bool
  ue : CopyAlloc
  pid : Bool

/-- What the environment contributes to a request. -/
structure OneosposEnv where
  attr : AttrAlloc
  lastpid : Bool
  lastUe : CopyAlloc
  httpContent : Bool
  bts : Bool
  rspData : Bool
  curl : Bool
  body : Option Json
  rsp : RspAlloc
  backupRsp : Bool
  backupMember : RspMember → Bool
  lastRsp : Bool
  lastMember : RspMember → Bool
  now : Int
  rspNow : Int

/-- `__cm_oneospos_create_ueinfo`: empty neighbour cells are copied as `NULL`. -/
def createUeinfo (alloc : CopyAlloc) (src : OneosposUeInfo) : Option OneosposUeInfo :=
  if alloc.ueinfo then
    some { src with
      nearbts := src.nearbts.bind fun n => if 0 < n.length ∧ alloc.nearbts then some n else none }
  else none

/-- `cm_oneospos_create_attr`; the inner `none` is a `NULL` result. -/
def createAttr (alloc : AttrAlloc) (pid : Option CStr) (ueinfo : Option OneosposUeInfo) :
    Option (Option OneosposClient) :=
  if alloc.attr then do
    let pid ← pid
    if alloc.pid then some (some ⟨pid, ueinfo.bind (createUeinfo alloc.ue)⟩) else some none
  else some none

/-- `__cm_oneospos_ueinfo_compare` -/
def ueinfoCompare : Pointer SavedUe → OneosposUeInfo → Option LbsState := compareUe

/-- `__cm_oneospos_compare_lastpid` -/
def compareLastpid (s : OneosposState) (pid : Option CStr) : LbsState :=
  if pid = s.lastpid then .ok else .err

/-- `__cm_oneospos_backup_lastpid` and `__cm_oneospos_backup_ueinfo` -/
def saveRequest (env : OneosposEnv) (s : OneosposState) (pid : Option CStr)
    (ue : OneosposUeInfo) : OneosposState :=
  { s with
    lastpid :=
      match pid with
      | none => s.lastpid
      | some pid => if env.lastpid then some pid else none
    ueInfoLast := s.ueInfoLast.replace ((createUeinfo env.lastUe ue).map savedUe) }

def copyOneosposRsp (alloc : RspMember → Bool) (rsp : OneosposLocationRsp) :
    OneosposLocationRsp where
  event := rsp.event
  latitude := (oneosposCopyLocationRsp (alloc .latitude) rsp.latitude).toOption
  longitude := (oneosposCopyLocationRsp (alloc .longitude) rsp.longitude).toOption

/-- `__cm_oneospos_return_last_location` for a request with a callback. -/
def returnLastLocation (s : OneosposState) (env : OneosposEnv) :
    Option (Option (OneosposLocationRsp × OneosposLocationRsp)) :=
  match s.rspBuf with
  | none => some none
  | some old =>
    if expired env.now s.rspTime then some none
    else if env.lastRsp then do
      let rsp := copyOneosposRsp env.lastMember old
      let longitude ← rsp.longitude
      if longitude.length ≤ 6 then some none
      else do
        let latitude ← rsp.latitude
        if latitude.length ≤ 6 then some none else some (some (old, rsp))
    else some none

/-- `__cm_oneospos_loaction_rsp_backup` of a record -/
def rspBackup (env : OneosposEnv) (s : OneosposState) (rsp : OneosposLocationRsp) :
    OneosposState :=
  if rsp.event = .success then
    if env.backupRsp then
      { s with rspBuf := some (copyOneosposRsp env.backupMember rsp), rspTime := env.rspNow }
    else s
  else { s with rspBuf := none }

@[simp] theorem rspBackup_busy {env : OneosposEnv} {s : OneosposState}
    {rsp : OneosposLocationRsp} : (rspBackup env s rsp).busy = s.busy := by
  simp only [rspBackup]
  split_ifs <;> rfl

/-- A call of the callback of a request. -/
abbrev OneosposCall := OneosposEvent × Option OneosposLocationRsp

/-- `cm_lbs_http_callback` with `CM_HTTP_CALLBACK_EVENT_RSP_CONTENT_IND`. A record
that could not be allocated is backed up all the same, and faults. -/
def rspContent (s : OneosposState) (env : OneosposEnv) :
    Option (OneosposState × Option OneosposCall) :=
  if s.callbackState then some (s, none)
  else do
    let call ← oneosposRspContent env.rsp env.body
    let rsp ← call.2
    some (rspBackup env { s with callbackState := true } rsp, some call)

/-- `__cm_oneospos_create_http_content`; the inner `none` is the length -1. -/
def createHttpContent (alloc : Bool) (client : OneosposClient) : Option (Option CStr) :=
  match client.ueinfo with
  | none => some none
  | some ue =>
    if alloc then do
      let cell := ue.cellInfo
      let serving := List.intercalate (cstr ",")
        [decimal cell.mcc, decimal cell.mnc, cell.lac, cell.cellid, decimal cell.signal]
      let neighbours := match ue.nearbts with
        | some nearbts => if 3 < nearbts.length then cstr "|" ++ nearbts else []
        | none => []
      let bts ← inBuffer 512 (serving ++ neighbours)
      let content := cstr "\x7b\"pid\":\"" ++ client.pid ++ cstr "\"," ++
        (cstr "\"cellList\":\"" ++ bts ++ cstr "\",") ++
        (cstr "\"batchId\":\"" ++ ue.imei ++ cstr "\"\x7d")
      (inBuffer 1024 content).map some
    else some none

abbrev OneosposOutcome := Outcome OneosposLocationRsp OneosposCall

/-- `cm_oneospos_asynlocation`. The buffer is cleared before the test for `NULL`; the
length -1 is unsigned and passes the test for an empty content; the record for the
response is read untested. -/
def asynlocation (s : OneosposState) (client : OneosposClient) (env : OneosposEnv) :
    Option (OneosposState × OneosposOutcome) :=
  if env.httpContent then do
    let _ ← createHttpContent env.bts client
    if env.curl then
      if env.rspData then do
        let (s, call) ← rspContent s env
        some (s, .response call)
      else none
    else some (s, .failed .err)
  else none

/-- `cm_oneospos_location` after the look at the cache, with the state busy. The request
is made from the attribute of the session, whose pid the client has. -/
def requestLocation (s : OneosposState) (pid : Option CStr) (ue : OneosposUeInfo)
    (env : OneosposEnv) : Option (OneosposState × OneosposOutcome) := do
  match ← createAttr env.attr pid (some ue) with
  | none => some ({ s with busy := false }, .noClient .memroyErr)
  | some client =>
    let s := { saveRequest env s pid ue with client := some client }
    let (s, outcome) ← asynlocation s { client with ueinfo := some ue } env
    if outcome.ret = .ok then some (s, outcome)
    else some ({ s with busy := false, client := none }, outcome)

/-- `cm_oneospos_location` for a request with UE information and a callback. -/
def oneosposLocation (s : OneosposState) (pid : Option CStr) (ue : OneosposUeInfo)
    (env : OneosposEnv) : Option (OneosposState × OneosposOutcome) :=
  if s.busy then some (s, .busy)
  else do
    let s := { s with busy := true }
    let ueRet ← ueinfoCompare s.ueInfoLast ue
    if ueRet = .ok ∧ compareLastpid s pid = .ok then
      match ← returnLastLocation s env with
      | some (old, rsp) => some ({ s with busy := false }, .cached old rsp)
      | none => requestLocation s pid ue env
    else requestLocation s pid ue env

/-- `cm_lbs_http_callback` with `CM_HTTP_CALLBACK_EVENT_RSP_END_IND`. -/
def rspEnd (s : OneosposState) : Option (OneosposState × OneosposOutcome) :=
  match s.client with
  | none => none
  | some _ => some ({ s with busy := false, client := none, callbackState := false }, .ended)

inductive OneosposInput where
  | location (pid : Option CStr) (ue : OneosposUeInfo) (env : OneosposEnv)
  | rspEnd

def oneosposStep (s : OneosposState) :
    OneosposInput → Option (OneosposState × OneosposOutcome)
  | .location pid ue env => oneosposLocation s pid ue env
  | .rspEnd => rspEnd s

/-- The request looks like the last one that was sent. -/
def Agrees (s : OneosposState) (pid : Option CStr) (ue : OneosposUeInfo) : Prop :=
  ueinfoCompare s.ueInfoLast ue = some .ok ∧ compareLastpid s pid = .ok

/-- A copy of a location with both coordinates. -/
structure CopyOf (old rsp : OneosposLocationRsp) : Prop where
  longitude : rsp.longitude = old.longitude ∧ rsp.longitude ≠ none
  latitude : rsp.latitude = old.latitude ∧ rsp.latitude ≠ none

/-- The statics of a request that is under way. -/
def sending (env : OneosposEnv) (s : OneosposState) (pid : Option CStr) (ue : OneosposUeInfo)
    (client : OneosposClient) : OneosposState :=
  { saveRequest env s pid ue with busy := true, client := some client }

/-- The ways a request can go. -/
inductive Located (s : OneosposState) (pid : Option CStr) (ue : OneosposUeInfo)
    (env : OneosposEnv) : OneosposState → OneosposOutcome → Prop where
  | busy (hbusy : s.busy = true) : Located s pid ue env s .busy
  | cached {old rsp : OneosposLocationRsp} (hfree : s.busy = false) (hagrees : Agrees s pid ue)
      (hold : s.rspBuf = some old)
      (htime : 0 ≤ env.now - s.rspTime ∧ env.now - s.rspTime ≤ rspValidTime)
      (hcopy : CopyOf old rsp) : Located s pid ue env s (.cached old rsp)
  | noClient (hfree : s.busy = false) (hclient : createAttr env.attr pid (some ue) = some none) :
      Located s pid ue env s (.noClient .memroyErr)
  | failed {ret : LbsState} (hfree : s.busy = false) (hret : ret ≠ .ok ∧ ret ≠ .busy)
      (hfails : ¬ env.curl = true) :
      Located s pid ue env { saveRequest env s pid ue with busy := false, client := none }
        (.failed ret)
  | ignored {client : OneosposClient} (hfree : s.busy = false) (hstate : s.callbackState = true)
      (hcurl : env.curl = true) :
      Located s pid ue env (sending env s pid ue client) (.response none)
  | answered {client : OneosposClient} {event : OneosposEvent} {rsp : OneosposLocationRsp}
      (hfree : s.busy = false) (hclient : createAttr env.attr pid (some ue) = some (some client))
      (hstate : s.callbackState = false) (hcurl : env.curl = true)
      (hcall : oneosposRspContent env.rsp env.body = some (event, some rsp)) :
      Located s pid ue env
        (rspBackup env { sending env s pid ue client with callbackState := true } rsp)
        (.response (some (event, some rsp)))

/-- A back end that has an answer that did not end is busy; a request keeps this. -/
theorem Located.keeps_busy {s t : OneosposState} {pid : Option CStr} {ue : OneosposUeInfo}
    {env : OneosposEnv} {outcome : OneosposOutcome} (h : Located s pid ue env t outcome)
    (hs : s.callbackState = true → s.busy = true) : t.callbackState = true → t.busy = true := by
  cases h with
  | busy | cached | noClient => exact hs
  | failed hfree => exact fun hstate => absurd (hs hstate) (by simp [hfree])
  | ignored => exact fun _ => rfl
  | answered =>
    intro _
    rw [rspBackup_busy]
    rfl

theorem toOption_copy {alloc : Bool} {src : Option CStr}
    (h : (oneosposCopyLocationRsp alloc src).toOption ≠ none) :
    (oneosposCopyLocationRsp alloc src).toOption = src := by
  cases hcopy : oneosposCopyLocationRsp alloc src with
  | error e => exact absurd (by rw [hcopy]; rfl) h
  | ok v => exact (copyRsp_eq_ok_iff.mp hcopy).1.symm

theorem returnLastLocation_some {s : OneosposState} {env : OneosposEnv}
    {old rsp : OneosposLocationRsp} (h : returnLastLocation s env = some (some (old, rsp))) :
    s.rspBuf = some old ∧
      (0 ≤ env.now - s.rspTime ∧ env.now - s.rspTime ≤ rspValidTime) ∧ CopyOf old rsp := by
  simp only [returnLastLocation] at h
  split at h
  · cases h
  rename_i old' hold
  split_ifs at h with htime
  · cases h
  · obtain ⟨longitude, hlon, h⟩ := Option.bind_eq_some_iff.mp h
    split_ifs at h
    · cases h
    obtain ⟨latitude, hlat, h⟩ := Option.bind_eq_some_iff.mp h
    split_ifs at h
    · cases h
    cases h
    have hlon' : (copyOneosposRsp env.lastMember old).longitude ≠ none := by simp [hlon]
    have hlat' : (copyOneosposRsp env.lastMember old).latitude ≠ none := by simp [hlat]
    exact ⟨hold, not_expired htime, ⟨toOption_copy hlon', hlon'⟩, toOption_copy hlat', hlat'⟩
  · cases h

/-- What the HTTP exchange of a client does. -/
theorem asynlocation_cases {s t : OneosposState} {client : OneosposClient} {env : OneosposEnv}
    {outcome : OneosposOutcome} (h : asynlocation s client env = some (t, outcome)) :
    (env.curl = true ∧ s.callbackState = true ∧ t = s ∧ outcome = .response none) ∨
    (env.curl = true ∧ s.callbackState = false ∧ ∃ event rsp,
      oneosposRspContent env.rsp env.body = some (event, some rsp) ∧
      t = rspBackup env { s with callbackState := true } rsp ∧
      outcome = .response (some (event, some rsp))) ∨
    (¬ env.curl = true ∧ ∃ ret : LbsState, (ret ≠ .ok ∧ ret ≠ .busy) ∧
      t = s ∧ outcome = .failed ret) := by
  simp only [asynlocation] at h
  split at h
  · obtain ⟨content, -, h⟩ := Option.bind_eq_some_iff.mp h
    split at h
    · rename_i hcurl
      split at h
      · obtain ⟨⟨u, call⟩, hcontent, h⟩ := Option.bind_eq_some_iff.mp h
        cases h
        simp only [rspContent] at hcontent
        split_ifs at hcontent with hstate
        · cases hcontent
          exact Or.inl ⟨hcurl, hstate, rfl, rfl⟩
        · obtain ⟨⟨event, record⟩, hcall, hcontent⟩ := Option.bind_eq_some_iff.mp hcontent
          obtain ⟨rsp, hrsp, hcontent⟩ := Option.bind_eq_some_iff.mp hcontent
          cases hrsp
          cases hcontent
          exact Or.inr (Or.inl ⟨hcurl, Bool.eq_false_iff.mpr hstate, event, rsp, hcall, rfl, rfl⟩)
      · cases h
    · rename_i hcurl
      cases h
      exact Or.inr (Or.inr ⟨hcurl, .err, by decide, rfl, rfl⟩)
  · cases h

theorem requestLocation_located {s t : OneosposState} {pid : Option CStr} {ue : OneosposUeInfo}
    {env : OneosposEnv} {outcome : OneosposOutcome} (hfree : s.busy = false)
    (h : requestLocation { s with busy := true } pid ue env = some (t, outcome)) :
    Located s pid ue env t outcome := by
  have hsame : ({ s with busy := false } : OneosposState) = s := by
    cases s
    cases hfree
    rfl
  unfold requestLocation at h
  obtain ⟨created, hclient, h⟩ := Option.bind_eq_some_iff.mp h
  rcases created with _ | client
  · cases h
    dsimp only
    rw [hsame]
    exact .noClient hfree hclient
  obtain ⟨⟨u, outcome'⟩, hrun, h⟩ := Option.bind_eq_some_iff.mp h
  rcases asynlocation_cases hrun with ⟨hcurl, hstate, rfl, rfl⟩ |
    ⟨hcurl, hstate, event, rsp, hcall, rfl, rfl⟩ | ⟨hfails, ret, hret, rfl, rfl⟩
  · cases h
    exact .ignored hfree hstate hcurl
  · cases h
    exact .answered hfree hclient hstate hcurl hcall
  · dsimp only at h
    rw [if_neg (show ¬ (Outcome.failed ret : OneosposOutcome).ret = .ok from hret.1)] at h
    cases h
    exact .failed hfree hret hfails

theorem oneosposLocation_located {s t : OneosposState} {pid : Option CStr} {ue : OneosposUeInfo}
    {env : OneosposEnv} {outcome : OneosposOutcome}
    (h : oneosposLocation s pid ue env = some (t, outcome)) :
    Located s pid ue env t outcome := by
  simp only [oneosposLocation] at h
  split at h
  · rename_i hbusy
    cases h
    exact .busy hbusy
  rename_i hbusy
  have hfree : s.busy = false := Bool.eq_false_iff.mpr hbusy
  obtain ⟨ueRet, hue, h⟩ := Option.bind_eq_some_iff.mp h
  split_ifs at h with hsame
  · obtain ⟨cached, hcached, h⟩ := Option.bind_eq_some_iff.mp h
    rcases cached with _ | ⟨old, rsp⟩
    · exact requestLocation_located hfree h
    · obtain ⟨hold, htime, hcopy⟩ := returnLastLocation_some hcached
      cases s
      cases hfree
      cases h
      exact .cached rfl ⟨hsame.1 ▸ hue, hsame.2⟩ hold htime hcopy
  · exact requestLocation_located hfree h

/-- An environment in which every allocation succeeds; the body has no position. -/
def oneosposEnv (curl : Bool) (now : Int) : OneosposEnv where
  attr := ⟨true, ⟨true, true⟩, true⟩
  lastpid := true
  lastUe := ⟨true, true⟩
  httpContent := true
  bts := true
  rspData := true
  curl := curl
  body := none
  rsp := ⟨true, true, fun _ => true, true⟩
  backupRsp := true
  backupMember _ := true
  lastRsp := true
  lastMember _ := true
  now := now
  rspNow := now

/-- The same with a position in the body -/
def locatedEnv (now : Int) : OneosposEnv :=
  { oneosposEnv true now with
    body := some (.obj [(cstr "success", .bool true),
      (cstr "data", .obj [(cstr "pos", .str (cstr "30.5422,104.0601"))])]) }

def oneosposUe : OneosposUeInfo := ⟨cstr "1", cstr "2", ⟨cstr "a", cstr "b", 460, 0, 9⟩, none⟩

end OneosposBackend
