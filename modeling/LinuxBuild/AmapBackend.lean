import LinuxBuild.AmapRequest
import LinuxBuild.LocationDelivery

/-!
# The AMAP back end

The statics of the back end between two requests, and what a request and the end of
its response do to them. What curl answers, what the body is and which allocations
succeed belong to the environment of a request; the faults of the exchange are modelled
with its handles. Freed memory matters here only where a static still points to it.
-/
namespace AmapBackend
open CString LbsTypes CJson AmapParse LocationDelivery BackendTypes AmapRequest

def amapUeKey (ue : AmapUeInfo) : UeKey := ⟨ue.imei, ue.imsi, ue.cellInfo, ue.nearbts⟩

/-- The statics of `cm_lbs_amap.c`; `callbackState` says that it is 2. -/
structure AmapState where
  client : Option AmapClient
  callbackState : Bool
  locationRsp : Option AmapLocationRsp
  rspTime : Int
  ueInfoLast : Pointer SavedUe
  lastKey : Option CStr
  lastSignkey : Option CStr
  showFieldsEnable : Int32
  signen : Int32

def AmapState.init : AmapState := ⟨none, false, none, 0, .null, none, none, 0, 0⟩

/-- What the environment contributes to a request: allocations, the outcome of the
curl steps, the body that is received, and the clock at both readings. -/
structure AmapEnv where
  client : ClientAlloc
  lastKey : Bool
  lastSignkey : Bool
  lastUeinfo : Bool
  lastUe : UeAlloc
  httpPath : Bool
  path : PathAlloc
  curl : Bool
  body : Option Json
  rsp : RspAlloc
  backupRsp : Bool
  backupMember : RspMember → Bool
  lastRsp : Bool
  lastMember : RspMember → Bool
  now : Int
  rspNow : Int

/-- `__cm_amap_ueinfo_compare` -/
def ueinfoCompare (last : Pointer SavedUe) (ue : AmapUeInfo) : Option LbsState :=
  compareUe last (amapUeKey ue)

/-- `__cm_amap_compare_lastkey` -/
def compareLastkey (s : AmapState) (auth : AmapAuthentication) : LbsState :=
  if auth.apikey = s.lastKey ∧ auth.digitalSignKey = s.lastSignkey ∧
      s.showFieldsEnable = auth.showFieldsEnable ∧ s.signen = auth.digitalSignEnable then .ok
  else .err

/-- The members that a copy of a location keeps. -/
def backedMembers : List RspMember :=
  [.longitude, .latitude, .radius, .country, .province, .city, .citycode, .adcode, .poi,
    .locationDescribe]

def copyRspMembers (alloc : RspMember → Bool) (rsp : AmapLocationRsp) : AmapLocationRsp where
  event := rsp.event
  member f :=
    if f ∈ backedMembers then (amapCopyLocationRsp (alloc f) (rsp.member f)).toOption else none

/-- `__cm_amap_return_last_location` for a request with a callback, which is called
with a copy of the cached record; the inner `none` is its failure. -/
def returnLastLocation (s : AmapState) (env : AmapEnv) :
    Option (Option (AmapLocationRsp × AmapLocationRsp)) :=
  match s.locationRsp with
  | none => some none
  | some old =>
    if expired env.now s.rspTime then some none
    else if env.lastRsp then do
      let rsp := copyRspMembers env.lastMember old
      let longitude ← rsp.member .longitude
      if longitude.length ≤ 6 then some none
      else do
        let latitude ← rsp.member .latitude
        if latitude.length ≤ 6 then some none else some (some (old, rsp))
    else some none

/-- The backup of one key: a `NULL` key leaves the old one. -/
def savedKey (alloc : Bool) (new old : Option CStr) : Option CStr :=
  match new with
  | none => old
  | some key => if alloc then some key else none

/-- `__cm_amap_backup_lastkey`: without memory for the api key the sign key is not
reached. -/
def backupLastkey (env : AmapEnv) (s : AmapState) (auth : AmapAuthentication) : AmapState :=
  { s with
    signen := auth.digitalSignEnable
    showFieldsEnable := auth.showFieldsEnable
    lastKey := savedKey env.lastKey auth.apikey s.lastKey
    lastSignkey :=
      if auth.apikey.isSome && !env.lastKey then s.lastSignkey
      else savedKey env.lastSignkey auth.digitalSignKey s.lastSignkey }

/-- The copy of the UE information that outlives its request. Without memory for the
neighbour cells it keeps the pointer of the request, which is freed with the request. -/
def keptUeinfo (alloc : UeAlloc) (ue : AmapUeInfo) : SavedUe :=
  let kept := savedUe (amapUeKey (copyUeinfo alloc ue))
  if ue.nearbts.isSome && !alloc.nearbts then { kept with nearbts := .freed } else kept

/-- `__cm_amap_backup_ueinfo` frees the old copy first. -/
def backupUeinfo (env : AmapEnv) (ueInfoLast : Pointer SavedUe) (ue : AmapUeInfo) :
    Pointer SavedUe :=
  ueInfoLast.replace (if env.lastUeinfo then some (keptUeinfo env.lastUe ue) else none)

/-- Both backups of a request that has its client. -/
def saveRequest (env : AmapEnv) (s : AmapState) (auth : AmapAuthentication) (ue : AmapUeInfo) :
    AmapState :=
  { backupLastkey env s auth with ueInfoLast := backupUeinfo env s.ueInfoLast ue }

/-- `__cm_lbs_amap_rsp_backup` -/
def rspBackup (env : AmapEnv) (s : AmapState) (rsp : AmapLocationRsp) : AmapState :=
  if rsp.event = .succeed then
    if env.backupRsp then
      { s with locationRsp := some (copyRspMembers env.backupMember rsp), rspTime := env.rspNow }
    else s
  else { s with locationRsp := none }

/-- A call of the callback of a request. -/
abbrev AmapCall := AmapEvent × Option AmapLocationRsp

/-- A response record that could not be allocated is not backed up. -/
def backupCall (env : AmapEnv) (s : AmapState) (call : AmapCall) : AmapState :=
  match call.2 with
  | none => s
  | some rsp => rspBackup env s rsp

@[simp] theorem backupCall_client {env : AmapEnv} {s : AmapState} {call : AmapCall} :
    (backupCall env s call).client = s.client := by
  simp only [backupCall, rspBackup]
  split
  · rfl
  · split_ifs <;> rfl

/-- `cm_lbs_http_callback` with `CM_HTTP_CALLBACK_EVENT_RSP_CONTENT_IND`. -/
def rspContent (s : AmapState) (client : AmapClient) (env : AmapEnv) :
    Option (AmapState × Option AmapCall) :=
  if s.callbackState then some (s, none)
  else do
    let call ← amapRspContent client.auth.platform env.rsp env.body
    some (backupCall env { s with callbackState := true } call, some call)

abbrev AmapOutcome := Outcome AmapLocationRsp AmapCall

/-- `__cm_amap_http_requst` -/
def httpRequst (md5 : CStr → Digest) (s : AmapState) (client : AmapClient) (env : AmapEnv) :
    Option (AmapState × AmapOutcome) :=
  if env.httpPath then do
    match ← createRequstHttpPath md5 env.path client.ueinfo client.auth with
    | .error _ => some (s, .failed .err)
    | .ok _ =>
      if env.curl then do
        let (s, call) ← rspContent s client env
        some (s, .response call)
      else some (s, .failed .err)
  else some (s, .failed .memroyErr)

/-- `cm_amap_location` after the look at the cache. -/
def requestLocation (md5 : CStr → Digest) (s : AmapState) (auth : AmapAuthentication)
    (ue : AmapUeInfo) (env : AmapEnv) : Option (AmapState × AmapOutcome) :=
  match createByAttr env.client (some auth) (some ue) with
  | none => some (s, .noClient .paramErr)
  | some client => do
    let s := { saveRequest env s auth ue with client := some client }
    let (s, outcome) ← httpRequst md5 s client env
    if outcome.ret = .ok then some (s, outcome) else some ({ s with client := none }, outcome)

/-- `cm_amap_location` -/
def amapLocation (md5 : CStr → Digest) (s : AmapState) (auth : AmapAuthentication)
    (ue : AmapUeInfo) (env : AmapEnv) : Option (AmapState × AmapOutcome) :=
  if s.client.isSome then some (s, .busy)
  else do
    let ueRet ← ueinfoCompare s.ueInfoLast ue
    if ueRet = .ok ∧ compareLastkey s auth = .ok then
      match ← returnLastLocation s env with
      | some (old, rsp) => some (s, .cached old rsp)
      | none => requestLocation md5 s auth ue env
    else requestLocation md5 s auth ue env

/-- `cm_lbs_http_callback` with `CM_HTTP_CALLBACK_EVENT_RSP_END_IND`. -/
def rspEnd (s : AmapState) : Option (AmapState × AmapOutcome) :=
  match s.client with
  | none => none
  | some _ => some ({ s with client := none, callbackState := false }, .ended)

inductive AmapInput where
  | location (auth : AmapAuthentication) (ue : AmapUeInfo) (env : AmapEnv)
  | rspEnd

def amapStep (md5 : CStr → Digest) (s : AmapState) : AmapInput → Option (AmapState × AmapOutcome)
  | .location auth ue env => amapLocation md5 s auth ue env
  | .rspEnd => rspEnd s

/-- The request looks like the last one that was sent. -/
def Agrees (s : AmapState) (auth : AmapAuthentication) (ue : AmapUeInfo) : Prop :=
  ueinfoCompare s.ueInfoLast ue = some .ok ∧ compareLastkey s auth = .ok

/-- A request with these credentials comes to a response. -/
structure Exchanged (auth : AmapAuthentication) (env : AmapEnv) : Prop where
  httpPath : env.httpPath = true
  platform : auth.platform = .amap10 ∨ auth.platform = .amap20
  curl : env.curl = true

/-- A copy of a location with both coordinates. -/
structure CopyOf (old rsp : AmapLocationRsp) : Prop where
  member : ∀ f, rsp.member f = none ∨ rsp.member f = old.member f
  longitude : rsp.member .longitude ≠ none
  latitude : rsp.member .latitude ≠ none

/-- The ways a request can go. -/
inductive Located (s : AmapState) (auth : AmapAuthentication) (ue : AmapUeInfo) (env : AmapEnv) :
    AmapState → AmapOutcome → Prop where
  | busy (hbusy : s.client ≠ none) : Located s auth ue env s .busy
  | cached {old rsp : AmapLocationRsp} (hfree : s.client = none) (hagrees : Agrees s auth ue)
      (hold : s.locationRsp = some old)
      (htime : 0 ≤ env.now - s.rspTime ∧ env.now - s.rspTime ≤ rspValidTime)
      (hcopy : CopyOf old rsp) : Located s auth ue env s (.cached old rsp)
  | noClient (hfree : s.client = none)
      (hclient : createByAttr env.client (some auth) (some ue) = none) :
      Located s auth ue env s (.noClient .paramErr)
  | failed {ret : LbsState} (hfree : s.client = none) (hret : ret ≠ .ok ∧ ret ≠ .busy)
      (hfails : ¬ Exchanged auth env) :
      Located s auth ue env { saveRequest env s auth ue with client := none } (.failed ret)
  | ignored {client : AmapClient} (hfree : s.client = none) (hstate : s.callbackState = true)
      (hexchanged : Exchanged auth env) :
      Located s auth ue env { saveRequest env s auth ue with client := some client }
        (.response none)
  | answered {client : AmapClient} {call : AmapCall} (hfree : s.client = none)
      (hclient : createByAttr env.client (some auth) (some ue) = some client)
      (hstate : s.callbackState = false) (hexchanged : Exchanged auth env)
      (hcall : amapRspContent auth.platform env.rsp env.body = some call) :
      Located s auth ue env
        (backupCall env
          { saveRequest env s auth ue with client := some client, callbackState := true } call)
        (.response (some call))

/-- A back end that has an answer that did not end is not idle; a request keeps this. -/
theorem Located.keeps_busy {s t : AmapState} {auth : AmapAuthentication} {ue : AmapUeInfo}
    {env : AmapEnv} {outcome : AmapOutcome} (h : Located s auth ue env t outcome)
    (hs : s.callbackState = true → s.client ≠ none) :
    t.callbackState = true → t.client ≠ none := by
  cases h with
  | busy | cached | noClient => exact hs
  | failed hfree => exact fun hstate => absurd hfree (hs hstate)
  | ignored => exact fun _ => Option.some_ne_none _
  | answered =>
    intro _
    rw [backupCall_client]
    exact Option.some_ne_none _

theorem copyOf_copyRspMembers {alloc : RspMember → Bool} {old : AmapLocationRsp}
    (hlon : (copyRspMembers alloc old).member .longitude ≠ none)
    (hlat : (copyRspMembers alloc old).member .latitude ≠ none) :
    CopyOf old (copyRspMembers alloc old) := by
  refine ⟨fun f => ?_, hlon, hlat⟩
  simp only [copyRspMembers]
  split_ifs with hf
  · cases hcopy : amapCopyLocationRsp (alloc f) (old.member f) with
    | error e => exact Or.inl rfl
    | ok v => exact Or.inr (amapCopy_eq_ok_iff.mp hcopy).1.symm
  · exact Or.inl rfl

theorem returnLastLocation_some {s : AmapState} {env : AmapEnv} {old rsp : AmapLocationRsp}
    (h : returnLastLocation s env = some (some (old, rsp))) :
    s.locationRsp = some old ∧
      (0 ≤ env.now - s.rspTime ∧ env.now - s.rspTime ≤ rspValidTime) ∧ CopyOf old rsp := by
  simp only [returnLastLocation] at h
  split at h
  · cases h
  rename_i old' hold
  split_ifs at h with htime
  · cases h
  · obtain ⟨longitude, hlon, h⟩ := Option.bind_eq_some_iff.mp h
    split_ifs at h
    · cases h
    obtain ⟨latitude, hlat, h⟩ := Option.bind_eq_some_iff.mp h
    split_ifs at h
    · cases h
    cases h
    refine ⟨hold, not_expired htime, copyOf_copyRspMembers ?_ ?_⟩
    · simp [hlon]
    · simp [hlat]
  · cases h

theorem createByAttr_auth {alloc : ClientAlloc} {auth : AmapAuthentication} {ue : AmapUeInfo}
    {client : AmapClient} (h : createByAttr alloc (some auth) (some ue) = some client) :
    client.auth = auth := by
  simp only [createByAttr] at h
  split_ifs at h
  cases h
  rfl

theorem createRequstHttpPath_ok_iff {md5 : CStr → Digest} {alloc : PathAlloc} {ue : AmapUeInfo}
    {auth : AmapAuthentication} {path : Except LbsState CStr}
    (h : createRequstHttpPath md5 alloc ue auth = some path) :
    (∃ p, path = .ok p) ↔ auth.platform = .amap10 ∨ auth.platform = .amap20 := by
  simp only [createRequstHttpPath] at h
  split at h
  · rename_i hplatform
    obtain ⟨p, -, rfl⟩ := Option.map_eq_some_iff.mp h
    exact iff_of_true ⟨p, rfl⟩ (Or.inl hplatform)
  · rename_i hplatform
    obtain ⟨p, -, rfl⟩ := Option.map_eq_some_iff.mp h
    exact iff_of_true ⟨p, rfl⟩ (Or.inr hplatform)
  · rename_i hamap10 hamap20
    cases h
    refine iff_of_false ?_ fun hplatform => hplatform.elim hamap10 hamap20
    rintro ⟨p, hp⟩
    cases hp

/-- What the HTTP exchange of a client does. -/
theorem httpRequst_cases {md5 : CStr → Digest} {s t : AmapState} {client : AmapClient}
    {env : AmapEnv} {outcome : AmapOutcome} (h : httpRequst md5 s client env = some (t, outcome)) :
    (Exchanged client.auth env ∧ s.callbackState = true ∧ t = s ∧ outcome = .response none) ∨
    (Exchanged client.auth env ∧ s.callbackState = false ∧ ∃ call,
      amapRspContent client.auth.platform env.rsp env.body = some call ∧
      t = backupCall env { s with callbackState := true } call ∧
      outcome = .response (some call)) ∨
    (¬ Exchanged client.auth env ∧ ∃ ret : LbsState, (ret ≠ .ok ∧ ret ≠ .busy) ∧
      t = s ∧ outcome = .failed ret) := by
  simp only [httpRequst] at h
  split at h
  · rename_i hpath
    obtain ⟨path, hcreate, h⟩ := Option.bind_eq_some_iff.mp h
    have hplatform := createRequstHttpPath_ok_iff hcreate
    rcases path with e | p
    · cases h
      refine Or.inr (Or.inr ⟨fun hx => ?_, .err, by decide, rfl, rfl⟩)
      obtain ⟨p, hp⟩ := hplatform.mpr hx.platform
      cases hp
    · dsimp only at h
      split at h
      · rename_i hcurl
        have hexchanged : Exchanged client.auth env := ⟨hpath, hplatform.mp ⟨p, rfl⟩, hcurl⟩
        obtain ⟨⟨u, call⟩, hcontent, h⟩ := Option.bind_eq_some_iff.mp h
        cases h
        simp only [rspContent] at hcontent
        split_ifs at hcontent with hstate
        · cases hcontent
          exact Or.inl ⟨hexchanged, hstate, rfl, rfl⟩
        · obtain ⟨call', hcall, hcontent⟩ := Option.bind_eq_some_iff.mp hcontent
          cases hcontent
          exact Or.inr (Or.inl ⟨hexchanged, Bool.eq_false_iff.mpr hstate, call', hcall, rfl, rfl⟩)
      · rename_i hcurl
        cases h
        exact Or.inr (Or.inr ⟨fun hx => hcurl hx.curl, .err, by decide, rfl, rfl⟩)
  · rename_i hpath
    cases h
    exact Or.inr (Or.inr ⟨fun hx => hpath hx.httpPath, .memroyErr, by decide, rfl, rfl⟩)

theorem requestLocation_located {md5 : CStr → Digest} {s t : AmapState}
    {auth : AmapAuthentication} {ue : AmapUeInfo} {env : AmapEnv} {outcome : AmapOutcome}
    (hfree : s.client = none) (h : requestLocation md5 s auth ue env = some (t, outcome)) :
    Located s auth ue env t outcome := by
  simp only [requestLocation] at h
  split at h
  · rename_i hclient
    cases h
    exact .noClient hfree hclient
  rename_i client hclient
  have hauth := createByAttr_auth hclient
  obtain ⟨⟨u, outcome'⟩, hrequst, h⟩ := Option.bind_eq_some_iff.mp h
  have hrun := httpRequst_cases hrequst
  rw [hauth] at hrun
  rcases hrun with ⟨hexchanged, hstate, rfl, rfl⟩ | ⟨hexchanged, hstate, call, hcall, rfl, rfl⟩ |
    ⟨hfails, ret, hret, rfl, rfl⟩
  · cases h
    exact .ignored hfree hstate hexchanged
  · cases h
    exact .answered hfree hclient hstate hexchanged hcall
  · dsimp only at h
    rw [if_neg (show ¬ (Outcome.failed ret : AmapOutcome).ret = .ok from hret.1)] at h
    cases h
    exact .failed hfree hret hfails

theorem amapLocation_located {md5 : CStr → Digest} {s t : AmapState}
    {auth : AmapAuthentication} {ue : AmapUeInfo} {env : AmapEnv} {outcome : AmapOutcome}
    (h : amapLocation md5 s auth ue env = some (t, outcome)) :
    Located s auth ue env t outcome := by
  simp only [amapLocation] at h
  split_ifs at h with hbusy
  · cases h
    exact .busy (Option.isSome_iff_ne_none.mp hbusy)
  have hfree : s.client = none := Option.not_isSome_iff_eq_none.mp hbusy
  obtain ⟨ueRet, hue, h⟩ := Option.bind_eq_some_iff.mp h
  split_ifs at h with hsame
  · obtain ⟨cached, hcached, h⟩ := Option.bind_eq_some_iff.mp h
    rcases cached with _ | ⟨old, rsp⟩
    · exact requestLocation_located hfree h
    · cases h
      obtain ⟨hold, htime, hcopy⟩ := returnLastLocation_some hcached
      exact .cached hfree ⟨hsame.1 ▸ hue, hsame.2⟩ hold htime hcopy
  · exact requestLocation_located hfree h

/-- Every allocation of a response succeeds. -/
def sampleRsp : RspAlloc := ⟨true, true, fun _ => true, true⟩

/-- An environment in which every allocation succeeds and the body has a position. -/
def amapEnv (curl : Bool) (now : Int) : AmapEnv where
  client := ⟨true, true, true, ⟨true, true, true⟩⟩
  lastKey := true
  lastSignkey := true
  lastUeinfo := true
  lastUe := ⟨true, true, true⟩
  httpPath := true
  path := ⟨true, true⟩
  curl := curl
  body := some (.obj [(cstr "status", .str (cstr "1")),
    (cstr "result", .obj [(cstr "location", .str (cstr "104.0601,30.5422"))])])
  rsp := sampleRsp
  backupRsp := true
  backupMember _ := true
  lastRsp := true
  lastMember _ := true
  now := now
  rspNow := now

def amapAuth : AmapAuthentication := ⟨.amap10, 0, none, some (cstr "key"), 10, 0⟩

/-- The UE information in the cell `cellid`. -/
def amapUe (cellid : String) : AmapUeInfo :=
  ⟨[], [], 0, ⟨[], cstr cellid, 460, 0, 20⟩, none, none, none⟩

end AmapBackend
