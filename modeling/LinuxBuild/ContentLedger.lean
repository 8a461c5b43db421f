import LinuxBuild.HttpHandles
import LinuxBuild.OneosposBackend
import LinuxBuild.RecordLedger

/-!
# Who releases the content of a OneOS request

A request obtains a buffer for its content and keeps it in a static variable until the end
of the response. When the post fails, `cm_oneospos_asynlocation` releases the buffer and
leaves the static variable as it is, and its caller releases what the variable holds. The
post sends no content: `CURLOPT_POSTFIELDS` is set for an event that never comes. So a
content that could not be built does not keep a request from being posted.
-/
namespace ContentLedger
open CString HttpHandles LbsTypes BackendTypes AmapRequest OneosposBackend RecordLedger

/-- The statics for the content, and the handles. -/
structure Contents where
  ledger : Ledger
  content : Option Nat
  contenLen : UInt32
  handles : Handles

variable {c c' : Contents} {s t : OneosposState} {pid : Option CStr} {ue : OneosposUeInfo}
  {env : OneosposEnv} {post : PostEnv} {data : Option Nat} {client : OneosposClient}
  {outcome : OneosposOutcome}

/-- The result of `__cm_oneospos_create_http_content` -/
def contentLength : Option CStr → UInt32
  | none => -1
  | some content => UInt32.ofNat content.length

/-- The static variables are set before the post, which does not look at them. -/
def Contents.keep (c : Contents) (httpContent : Nat) (contentLen : UInt32) : Contents :=
  { c with content := some httpContent, contenLen := contentLen }

/-- `free(http_content)` -/
def Contents.free (c : Contents) (httpContent : Option Nat) : Contents :=
  { c with ledger := c.ledger.release httpContent }

/-- `__cm_oneospos_oneospos_client_free` -/
def Contents.clientFree (c : Contents) : Contents :=
  { c.free c.content with content := none, contenLen := 0 }

/-- `__cm_oneospos_http_release` -/
def Contents.httpRelease (c : Contents) : Option Contents :=
  c.handles.release.map fun handles => { c with handles := handles }

/-- The end of `cm_oneospos_asynlocation` with an error -/
def asynlocationFails (c : Contents) (s : OneosposState) (httpContent : Nat) (ret : LbsState) :
    Option (Contents × OneosposState × OneosposOutcome) := do
  let c ← c.httpRelease
  some (c.free (some httpContent), s, .failed ret)

/-- The release at the end of a content event, which is ignored when it comes again -/
def Contents.answerRelease (c : Contents) (callbackState : Bool) : Option Contents :=
  if callbackState then some c else c.httpRelease

/-- `cm_lbs_http_callback` with `CM_HTTP_CALLBACK_EVENT_RSP_CONTENT_IND`. It releases the
handle, and not the content. -/
def rspContent (c : Contents) (s : OneosposState) (env : OneosposEnv) :
    Option (Contents × OneosposState × OneosposOutcome) := do
  let (t, call) ← OneosposBackend.rspContent s env
  let c ← c.answerRelease s.callbackState
  some (c, t, .response call)

/-- `cm_oneospos_asynlocation` with its buffer, for a record of the response at `data`; the
record is read untested. -/
def asynlocation (c : Contents) (s : OneosposState) (client : OneosposClient) (env : OneosposEnv)
    (post : PostEnv) (data : Option Nat) : Option (Contents × OneosposState × OneosposOutcome) :=
  if env.httpContent then do
    let (httpContent, ledger) := c.ledger.obtain
    let c := { c with ledger := ledger }
    let content ← createHttpContent env.bts client
    if contentLength content < 1 then asynlocationFails c s httpContent .repeErr
    else
      let c := c.keep httpContent (contentLength content)
      let (handles, posted) ← oneosposPost c.handles post data
      let c := { c with handles := handles }
      if posted then
        if data.isSome then rspContent c s env else none
      else asynlocationFails c s httpContent .err
  else none

/-- `cm_oneospos_location` after the look at the cache -/
def requestLocation (c : Contents) (s : OneosposState) (pid : Option CStr) (ue : OneosposUeInfo)
    (env : OneosposEnv) (post : PostEnv) (data : Option Nat) :
    Option (Contents × OneosposState × OneosposOutcome) := do
  match ← createAttr env.attr pid (some ue) with
  | none => some (c, { s with busy := false }, .noClient .memroyErr)
  | some client =>
    let s := { saveRequest env s pid ue with client := some client }
    let (c, s, outcome) ← asynlocation c s { client with ueinfo := some ue } env post data
    if outcome.ret = .ok then some (c, s, outcome)
    else some (c.clientFree, { s with busy := false, client := none }, outcome)

/-- The look at the cache -/
def lookUp (s : OneosposState) (pid : Option CStr) (ue : OneosposUeInfo) (env : OneosposEnv) :
    Option (Option (OneosposParse.OneosposLocationRsp × OneosposParse.OneosposLocationRsp)) := do
  let ueRet ← ueinfoCompare s.ueInfoLast ue
  if ueRet = .ok ∧ compareLastpid s pid = .ok then returnLastLocation s env else some none

/-- `cm_oneospos_location` with the content of its request -/
def location (c : Contents) (s : OneosposState) (pid : Option CStr) (ue : OneosposUeInfo)
    (env : OneosposEnv) (post : PostEnv) (data : Option Nat) :
    Option (Contents × OneosposState × OneosposOutcome) :=
  if s.busy then some (c, s, .busy)
  else do
    let s := { s with busy := true }
    match ← lookUp s pid ue env with
    | some (old, rsp) => some (c, { s with busy := false }, .cached old rsp)
    | none => requestLocation c s pid ue env post data

/-- `cm_lbs_http_callback` with `CM_HTTP_CALLBACK_EVENT_RSP_END_IND`. It releases the handle
once more, and then the content. -/
def rspEnd (c : Contents) (s : OneosposState) :
    Option (Contents × OneosposState × OneosposOutcome) := do
  let (t, outcome) ← OneosposBackend.rspEnd s
  let c ← c.httpRelease
  some (c.clientFree, t, outcome)

/-- A content that was built is neither empty nor too long. -/
theorem length_of_createHttpContent {alloc : Bool} {content : CStr}
    (h : createHttpContent alloc client = some (some content)) :
    0 < content.length ∧ content.length < 1024 := by
  simp only [createHttpContent] at h
  split at h
  · cases h
  split_ifs at h
  · obtain ⟨bts, -, h⟩ := Option.bind_eq_some_iff.mp h
    obtain ⟨text, htext, h⟩ := Option.map_eq_some_iff.mp h
    cases h
    rw [inBuffer] at htext
    split_ifs at htext with hlen
    cases htext
    refine ⟨?_, hlen⟩
    simp only [List.length_append, length_cstr]
    have hconst : 0 < "\x7b\"pid\":\"".length := by decide
    omega
  · cases h

/-- The test for an empty content is never met. -/
theorem contentLength_pos {alloc : Bool} {content : Option CStr}
    (h : createHttpContent alloc client = some content) : ¬ contentLength content < 1 := by
  cases content with
  | none => decide
  | some content =>
    obtain ⟨hpos, hlt⟩ := length_of_createHttpContent h
    have hnat : (UInt32.ofNat content.length).toNat = content.length :=
      UInt32.toNat_ofNat_of_lt' (by change _ < 4294967296; omega)
    have hone : (1 : UInt32).toNat = 1 := rfl
    rw [contentLength, UInt32.lt_iff_toNat_lt, hnat, hone]
    omega

/-- What the environment of the back end says of the exchange. -/
def exchange (env : OneosposEnv) (c : Contents) (post : PostEnv) (data : Option Nat) :
    OneosposEnv :=
  { env with curl := posts c.handles post data, rspData := data.isSome }

theorem asynlocationFails_eq_some {httpContent : Nat} {ret : LbsState}
    (h : asynlocationFails c s httpContent ret = some (c', t, outcome)) :
    ∃ released, c.httpRelease = some released ∧ c' = released.free (some httpContent) ∧ t = s ∧
      outcome = .failed ret := by
  obtain ⟨released, hrelease, h⟩ := Option.bind_eq_some_iff.mp h
  cases h
  exact ⟨released, hrelease, rfl, rfl, rfl⟩

/-- The ways in which a call of `cm_oneospos_asynlocation` comes to its end: the handles are
released unless the response is one that is not looked at. -/
inductive Asyn (c : Contents) (s : OneosposState) (env : OneosposEnv) (post : PostEnv)
    (data : Option Nat) : Contents → OneosposState → OneosposOutcome → Prop where
  | answered {c' : Contents} {t : OneosposState} {call : Option OneosposCall} {handles : Handles}
      (hpost : oneosposPost c.handles post data = some (handles, true))
      (hdata : data.isSome = true) (hcall : OneosposBackend.rspContent s env = some (t, call))
      (hrelease : (if s.callbackState then some handles else handles.release) = some c'.handles) :
      Asyn c s env post data c' t (.response call)
  | failed {c' : Contents} {handles : Handles}
      (hpost : oneosposPost c.handles post data = some (handles, false))
      (hrelease : handles.release = some c'.handles)
      (hcontent : c'.content = some c.ledger.obtained)
      (hledger : c'.ledger = c.ledger.obtain.2.release (some c.ledger.obtained)) :
      Asyn c s env post data c' s (.failed .err)

theorem httpRelease_eq_some {released : Contents} (h : c.httpRelease = some released) :
    c.handles.release = some released.handles ∧ released.ledger = c.ledger ∧
      released.content = c.content := by
  obtain ⟨handles, hrelease, rfl⟩ := Option.map_eq_some_iff.mp h
  exact ⟨hrelease, rfl, rfl⟩

theorem answerRelease_handles {released : Contents} {callbackState : Bool}
    (h : c.answerRelease callbackState = some released) :
    (if callbackState then some c.handles else c.handles.release) = some released.handles := by
  rw [Contents.answerRelease] at h
  split_ifs at h ⊢ with hstate
  · cases h
    rfl
  · exact (httpRelease_eq_some h).1

theorem asynlocation_cases (h : asynlocation c s client env post data = some (c', t, outcome)) :
    env.httpContent = true ∧ (∃ content, createHttpContent env.bts client = some content) ∧
      Asyn c s env post data c' t outcome := by
  simp only [asynlocation] at h
  split at h
  · rename_i hbuffer
    obtain ⟨content, hbuilt, h⟩ := Option.bind_eq_some_iff.mp h
    rw [if_neg (contentLength_pos hbuilt)] at h
    obtain ⟨⟨handles, posted⟩, hpost, h⟩ := Option.bind_eq_some_iff.mp h
    have hpost : oneosposPost c.handles post data = some (handles, posted) := hpost
    refine ⟨hbuffer, ⟨content, hbuilt⟩, ?_⟩
    cases posted with
    | true =>
      simp only [if_true] at h
      split_ifs at h with hdata
      obtain ⟨⟨u, call⟩, hcall, h⟩ := Option.bind_eq_some_iff.mp h
      obtain ⟨released, hreleased, h⟩ := Option.bind_eq_some_iff.mp h
      cases h
      exact .answered hpost hdata hcall (answerRelease_handles hreleased)
    | false =>
      simp only [Bool.false_eq_true, if_false] at h
      obtain ⟨released, hreleased, rfl, rfl, rfl⟩ := asynlocationFails_eq_some h
      obtain ⟨hrelease, hledger, hcontent⟩ := httpRelease_eq_some hreleased
      refine .failed hpost hrelease hcontent ?_
      rw [Contents.free, hledger]
      rfl
  · cases h

/-- The back end does what it does without the content and the handles. -/
theorem asynlocation_refines
    (h : asynlocation c s client env post data = some (c', t, outcome)) :
    OneosposBackend.asynlocation s client (exchange env c post data) = some (t, outcome) := by
  obtain ⟨hbuffer, ⟨content, hbuilt⟩, hend⟩ := asynlocation_cases h
  have hbuffer : (exchange env c post data).httpContent = true := hbuffer
  have hbuilt : createHttpContent (exchange env c post data).bts client = some content := hbuilt
  rw [OneosposBackend.asynlocation, if_pos hbuffer, hbuilt, Option.bind_eq_bind, Option.bind_some]
  cases hend with
  | answered hpost hdata hcall =>
    have hposts := posts_eq hpost
    have hcall : OneosposBackend.rspContent s (exchange env c post data) = some (t, _) := hcall
    rw [if_pos (show (exchange env c post data).curl = true from hposts),
      if_pos (show (exchange env c post data).rspData = true from hdata), hcall]
    rfl
  | failed hpost =>
    have hposts : (exchange env c post data).curl = false := posts_eq hpost
    rw [hposts]
    rfl

theorem requestLocation_refines
    (h : requestLocation c s pid ue env post data = some (c', t, outcome)) :
    OneosposBackend.requestLocation s pid ue (exchange env c post data) = some (t, outcome) := by
  simp only [requestLocation] at h
  have hattr : (exchange env c post data).attr = env.attr := rfl
  simp only [OneosposBackend.requestLocation, hattr]
  obtain ⟨created, hclient, h⟩ := Option.bind_eq_some_iff.mp h
  rw [hclient, Option.bind_eq_bind, Option.bind_some]
  cases created with
  | none =>
    cases h
    rfl
  | some client =>
    obtain ⟨⟨d, u, o⟩, hasyn, h⟩ := Option.bind_eq_some_iff.mp h
    have hasyn := asynlocation_refines hasyn
    change Option.bind (OneosposBackend.asynlocation
      { saveRequest env s pid ue with client := some client } _ _) _ = _
    rw [hasyn, Option.bind_some]
    dsimp only at h ⊢
    split_ifs at h ⊢ with hret
    · cases h
      rfl
    · cases h
      rfl

/-- A request of the back end with its content and its handles is a request of the back end
without them. -/
theorem location_refines (h : location c s pid ue env post data = some (c', t, outcome)) :
    oneosposLocation s pid ue (exchange env c post data) = some (t, outcome) := by
  have hlast : ∀ u : OneosposState, returnLastLocation u (exchange env c post data) =
      returnLastLocation u env := fun _ => rfl
  simp only [location, lookUp] at h
  simp only [oneosposLocation, hlast]
  split_ifs at h ⊢ with hbusy
  · cases h
    rfl
  obtain ⟨cached, hcached, h⟩ := Option.bind_eq_some_iff.mp h
  obtain ⟨ueRet, hue, hcached⟩ := Option.bind_eq_some_iff.mp hcached
  rw [hue, Option.bind_eq_bind, Option.bind_some]
  split_ifs at hcached ⊢ with hsame
  · rw [hcached, Option.bind_eq_bind, Option.bind_some]
    cases cached with
    | none => exact requestLocation_refines h
    | some answer =>
      cases h
      rfl
  · cases hcached
    exact requestLocation_refines h

theorem rspEnd_refines (h : rspEnd c s = some (c', t, outcome)) :
    OneosposBackend.rspEnd s = some (t, outcome) := by
  obtain ⟨⟨u, o⟩, hend, h⟩ := Option.bind_eq_some_iff.mp h
  obtain ⟨released, -, h⟩ := Option.bind_eq_some_iff.mp h
  cases h
  exact hend

/-- The request is for the back end, which has its copy of the attribute. -/
structure Reached (s : OneosposState) (pid : Option CStr) (ue : OneosposUeInfo)
    (env : OneosposEnv) (client : OneosposClient) : Prop where
  free : s.busy = false
  missed : lookUp { s with busy := true } pid ue env = some none
  client : createAttr env.attr pid (some ue) = some (some client)

/-- What `cm_oneospos_location` does when `cm_oneospos_asynlocation` returns. -/
def afterAsyn (r : Contents × OneosposState × OneosposOutcome) :
    Contents × OneosposState × OneosposOutcome :=
  if r.2.2.ret = .ok then r
  else (r.1.clientFree, { r.2.1 with busy := false, client := none }, r.2.2)

theorem location_of_reached (h : Reached s pid ue env client) :
    location c s pid ue env post data =
      (asynlocation c (sending env s pid ue client) { client with ueinfo := some ue } env post
        data).map afterAsyn := by
  have hfree : ¬ s.busy = true := by simp [h.free]
  simp only [location, if_neg hfree, h.missed, Option.bind_eq_bind, Option.bind_some,
    requestLocation, h.client]
  change (asynlocation c (sending env s pid ue client) _ env post data).bind _ = _
  cases asynlocation c (sending env s pid ue client) { client with ueinfo := some ue } env post
      data with
  | none => rfl
  | some r =>
    simp only [Option.bind_some, Option.map_some, afterAsyn]
    split_ifs <;> rfl

/-- What a request that fails is to leave: an error, a free back end without a content, and
its buffer released once. -/
structure CleanFailure (c c' : Contents) (t : OneosposState) (outcome : OneosposOutcome) :
    Prop where
  error : outcome.ret ≠ .ok
  free : t.busy = false
  content : c'.content = none
  contenLen : c'.contenLen = 0
  released : c'.ledger.released = c.ledger.released ++ [c.ledger.obtained]

/-- The call comes to its end, and cleanly. -/
def FailsCleanly (c : Contents) (r : Option (Contents × OneosposState × OneosposOutcome)) : Prop :=
  ∃ c' t outcome, r = some (c', t, outcome) ∧ CleanFailure c c' t outcome

/-- The post makes the step; the handles are made when both are missing. -/
def Makes (h : Handles) : PostStep → Prop
  | .easyInit | .multiInit => h.Missing
  | _ => True

/-- Where a request can fail before a response: at one of the three allocations, or at a
step of the post. -/
inductive FailurePoint (h : Handles) (env : OneosposEnv) (post : PostEnv) (data : Option Nat) :
    Prop where
  | content (hfail : env.httpContent = false)
  | bts (hfail : env.bts = false)
  | record (hfail : data = none)
  | post (step : PostStep) (hmakes : Makes h step) (hfail : post.ok step = false)

/-- The buffer that the static variable still holds is released again. -/
theorem clientFree_released (hcontent : c'.content = some c.ledger.obtained)
    (hledger : c'.ledger = c.ledger.obtain.2.release (some c.ledger.obtained)) :
    c'.clientFree.ledger.released =
        c.ledger.released ++ [c.ledger.obtained, c.ledger.obtained] ∧
      c'.clientFree.ledger.sound = false := by
  have hfinal : c'.clientFree.ledger =
      (c.ledger.obtain.2.release (some c.ledger.obtained)).release (some c.ledger.obtained) := by
    rw [← hledger, ← hcontent]
    rfl
  rw [hfinal]
  constructor
  · change c.ledger.released ++ [c.ledger.obtained] ++ [c.ledger.obtained] = _
    rw [List.append_assoc]
    rfl
  · rw [← Bool.not_eq_true, release_sound_iff]
    exact fun h => not_live_release h.2

/-- A request that reaches the back end and comes to its end returns no error when it is
posted, whether its content could be built or not; otherwise its buffer was released twice. -/
theorem location_cases (hreach : Reached s pid ue env client)
    (h : location c s pid ue env post data = some (c', t, outcome)) :
    (posts c.handles post data = true ∧ outcome.ret = .ok) ∨
      (posts c.handles post data = false ∧
        c'.ledger.released = c.ledger.released ++ [c.ledger.obtained, c.ledger.obtained] ∧
        c'.ledger.sound = false) := by
  rw [location_of_reached hreach] at h
  obtain ⟨⟨d, u, o⟩, hasyn, hafter⟩ := Option.map_eq_some_iff.mp h
  obtain ⟨-, -, hend⟩ := asynlocation_cases hasyn
  cases hend with
  | answered hpost =>
    cases hafter
    exact Or.inl ⟨posts_eq hpost, rfl⟩
  | failed hpost _ hcontent hledger =>
    cases hafter
    exact Or.inr ⟨posts_eq hpost, clientFree_released hcontent hledger⟩

/-- An error of the post is no clean failure, and neither is its absence. -/
theorem not_failsCleanly_of_reached (hreach : Reached s pid ue env client) :
    ¬ FailsCleanly c (location c s pid ue env post data) := by
  rintro ⟨c', t, outcome, h, hclean⟩
  rcases location_cases hreach h with ⟨-, hret⟩ | ⟨-, htwice, -⟩
  · exact hclean.error hret
  · rw [hclean.released, List.append_cancel_left_eq] at htwice
    cases htwice

/-- Without its copy of the attribute a request leaves everything as it was. -/
theorem location_noClient (hfree : s.busy = false)
    (hmissed : lookUp { s with busy := true } pid ue env = some none)
    (hclient : createAttr env.attr pid (some ue) = some none) :
    location c s pid ue env post data = some (c, s, .noClient .memroyErr) := by
  cases s
  cases hfree
  simp only [location, Bool.false_eq_true, if_false, hmissed, Option.bind_eq_bind,
    Option.bind_some, requestLocation, hclient]

/-- At every point at which a request can fail before a response something is wrong: the
`NULL` of the content is cleared and that of the response is read, a content that could not
be built keeps nothing from being posted, and an error of the post makes the buffer be
released twice. -/
theorem location_never_fails_cleanly (c : Contents) (s : OneosposState) (pid : Option CStr)
    (ue : OneosposUeInfo) (env : OneosposEnv) (post : PostEnv) (data : Option Nat)
    (client : OneosposClient) (hreach : Reached s pid ue env client)
    (hfail : FailurePoint c.handles env post data) :
    ¬ FailsCleanly c (location c s pid ue env post data) := by
  cases hfail with
  | content hfail =>
    rintro ⟨c', t, outcome, h, -⟩
    rw [location_of_reached hreach, asynlocation, hfail] at h
    cases h
  | bts | record | post => exact not_failsCleanly_of_reached hreach

/-- The handle of a response that was looked at is released, and the end of the response
releases it again. -/
theorem rspEnd_faults (hreach : Reached s pid ue env client) (hstate : s.callbackState = false)
    (h : location c s pid ue env post data = some (c', t, outcome)) (hret : outcome.ret = .ok) :
    rspEnd c' t = none := by
  rw [location_of_reached hreach] at h
  obtain ⟨⟨d, u, o⟩, hasyn, hafter⟩ := Option.map_eq_some_iff.mp h
  obtain ⟨-, -, hend⟩ := asynlocation_cases hasyn
  cases hend with
  | answered hpost _ _ hreleased =>
    cases hafter
    have hstate : (sending env s pid ue client).callbackState = false := hstate
    rw [hstate, Handles.release, oneosposPost_live hpost] at hreleased
    have hcleaned : c'.handles.easy = .cleaned := by
      rw [← Option.some.inj hreleased]
    have hrelease : c'.httpRelease = none := by
      rw [Contents.httpRelease, Handles.release, hcleaned]
      rfl
    rw [rspEnd, hrelease]
    cases OneosposBackend.rspEnd t <;> rfl
  | failed =>
    cases hafter
    cases hret

/-- Before the first request -/
def startContents : Contents := ⟨.empty, none, 0, .init⟩

/-- `curl_multi_perform` returns an error. -/
def performFails (headerStore : Bool) : PostEnv :=
  ⟨fun step => decide (step ≠ .perform), headerStore⟩

theorem oneosposUe_reached : Reached .init (some (cstr "m5")) oneosposUe (oneosposEnv true 0)
    ⟨cstr "m5", some oneosposUe⟩ := ⟨rfl, rfl, rfl⟩

theorem location_never_fails_cleanly_perform :
    ¬ FailsCleanly startContents (location startContents .init (some (cstr "m5")) oneosposUe
      (oneosposEnv true 0) (performFails true) (some 0)) :=
  location_never_fails_cleanly _ _ _ _ _ _ _ _ oneosposUe_reached (.post .perform trivial rfl)

/-- Where the terminator of the header can be stored, the buffer of the first request,
numbered 0, is released twice; elsewhere the request does not come to its end. -/
theorem perform_error_releases_twice :
    (∀ headerStore, FailurePoint startContents.handles (oneosposEnv true 0)
      (performFails headerStore) (some 0)) ∧
    (∃ c' t outcome,
      location startContents .init (some (cstr "m5")) oneosposUe (oneosposEnv true 0)
          (performFails true) (some 0) = some (c', t, outcome) ∧
        outcome.ret = .err ∧ c'.ledger.released = [0, 0] ∧
        ¬ FailsCleanly startContents (some (c', t, outcome))) ∧
    location startContents .init (some (cstr "m5")) oneosposUe (oneosposEnv true 0)
      (performFails false) (some 0) = none := by
  refine ⟨fun _ => .post .perform trivial rfl, ⟨_, _, _, rfl, rfl, rfl, ?_⟩, rfl⟩
  rintro ⟨c', t, outcome, h, hclean⟩
  cases h
  exact absurd hclean.released (by decide)

end ContentLedger
