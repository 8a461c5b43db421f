import LinuxBuild.ByteHeap
import LinuxBuild.ChunkedTransfer
import LinuxBuild.HttpHandles
import LinuxBuild.LbsApi
import LinuxBuild.PartialRun

/-!
# From the chunks of a response to the text that is parsed

The write callbacks of both back ends, the handle they are registered on and the record
that the response is read from. Storage that the program does not initialise holds what
memory had there before: the AMAP back end prints its URL where such a pointer leads, and
takes another for the record of the response.
-/
namespace ResponseText
open ByteHeap ChunkedTransfer CString HttpHandles LbsApi PartialRun

/-- `cm_httpclient_callback_rsp_content_param_t` -/
structure RspContentParam where
  totalLen : UInt32
  sumLen : UInt32
  currentLen : UInt32
  responseContent : Option Addr

/-- `curl_rsp_data_t` -/
structure CurlRspData where
  data : Option Addr
  dataLen : UInt32

/-- The bytes, the records of the AMAP back end by their addresses, and the records that
the OneOS back end has allocated. -/
structure Memory where
  heap : Heap
  params : Nat → Option RspContentParam
  rspData : List CurlRspData

/-- `write_callback_curl` of the AMAP back end -/
def amapWriteCallback (alloc : Bool) (data : Option Nat) (m : Memory) (chunk : List UInt8) :
    Option (Memory × Nat) := do
  let d ← data
  let p ← m.params d
  if alloc then
    let (heap, temp) ← m.heap.realloc p.responseContent (p.currentLen.toNat + chunk.length)
    let heap ← heap.write ⟨temp.block, p.currentLen.toNat⟩ chunk
    let realsize := UInt32.ofNat chunk.length
    let currentLen := p.currentLen + realsize
    let p : RspContentParam :=
      { responseContent := some temp
        currentLen := currentLen
        totalLen := if p.totalLen = 0 then currentLen else p.totalLen
        sumLen := p.sumLen + realsize }
    some ({ m with heap := heap, params := Function.update m.params d (some p) }, chunk.length)
  else some (m, 0)

/-- `write_callback_curl` of the OneOS back end: the record that is filled in is a new
one, and the one it is given is not looked at. -/
def oneosposWriteCallback (alloc : Bool) (buffer : Addr) (m : Memory) (chunk : List UInt8) :
    Option (Memory × Nat) :=
  if alloc then
    let curlRspData : CurlRspData := ⟨some buffer, UInt32.ofNat chunk.length⟩
    some ({ m with rspData := m.rspData ++ [curlRspData] }, chunk.length)
  else none

/-- The handles, `s_amap_client` and `callback_state`, and the same of the OneOS back end. -/
structure Http where
  handles : Handles
  waiting : Bool
  callbackState : Bool

def Http.init : Http := ⟨.init, false, false⟩

/-- What a request meets: the memory, the chunks, where the library has its buffer, the text
of the URL unless its path cannot be made, which steps and allocations succeed, and what is
held by the locals `curl_url` and `rsp_content` and by the record `rsp_data` before anything
is stored there. -/
structure Transfer where
  memory : Memory
  chunks : List (List UInt8)
  buffer : Addr
  url : Option CStr
  post : PostEnv
  write : Bool
  locationRsp : Bool
  rspData : Bool
  curlUrlLeft : Option Addr
  rspContentLeft : Option Nat
  rspDataLeft : CurlRspData

/-- The string that a pointer leads to; `NULL` leads to none. -/
def parserText (heap : Heap) : Option Addr → Option (Option CStr)
  | none => some none
  | some p => (heap.string p).map some

/-- `curl_multi_perform` with a handle of the AMAP back end -/
def amapPerform (t : Transfer) (m : Memory) : Easy → Option Memory
  | .live (.callback data) => deliver (amapWriteCallback t.write data) t.chunks m
  | .live .default | .absent | .cleaned => some m

/-- `cm_lbs_http_callback` of the AMAP back end with
`CM_HTTP_CALLBACK_EVENT_RSP_CONTENT_IND` -/
def amapRspContent (s : Http) (locationRsp : Bool) (m : Memory) (param : Option Nat) :
    Option (Http × Option CStr) :=
  if s.callbackState then some (s, none)
  else
    let s := { s with callbackState := true }
    if locationRsp then do
      let callbackParam ← m.params (← param)
      let text ← parserText m.heap callbackParam.responseContent
      some (s, text)
    else some (s, none)

/-- The end of a request with an error, which releases the handle. -/
def requestFails (s : Http) : Option (Http × Option CStr) := do
  let handles ← s.handles.release
  some ({ s with handles := handles }, none)

/-- `snprintf` through `curl_url`, which was never set. -/
def printUrl (t : Transfer) (url : CStr) : Option Memory := do
  let heap ← t.memory.heap.write (← t.curlUrlLeft) (url ++ [0])
  some { t.memory with heap := heap }

/-- `__cm_amap_http_requst`: the callback is registered after the transfer. The handles are
made whenever the easy handle is missing, since `s_amap_http_client` stays `NULL`. -/
def amapHttpRequst (s : Http) (t : Transfer) : Option (Http × Option CStr) :=
  match t.url with
  | none => requestFails s
  | some url =>
    let s :=
      if s.handles.easy = .absent then { s with handles := curlInit t.post.ok } else s
    if s.handles.Missing then requestFails s
    else do
      let m ← printUrl t url
      if s.handles.easy = .cleaned then none
      else if s.handles.added t.post.ok then do
        let m ← amapPerform t m s.handles.easy
        if t.post.ok .perform then
          let handles := s.handles.register t.rspContentLeft
          let s := { s with handles := handles, waiting := true }
          amapRspContent s t.locationRsp m t.rspContentLeft
        else requestFails s
      else requestFails s

/-- `cm_lbs_http_callback` of the OneOS back end with
`CM_HTTP_CALLBACK_EVENT_RSP_CONTENT_IND`: it releases the handle. -/
def oneosposRspContent (s : Http) (locationRsp : Bool) (m : Memory)
    (responseContent : Option Addr) : Option (Http × Option CStr) :=
  if s.callbackState then some (s, none)
  else if locationRsp then do
    let text ← parserText m.heap responseContent
    let handles ← s.handles.release
    some ({ s with handles := handles, callbackState := true }, text)
  else none

/-- The address of the record `rsp_data` -/
def rspDataAddress (t : Transfer) : Option Nat :=
  if t.rspData then some t.memory.rspData.length else none

/-- The memory with the record `rsp_data` -/
def withRspData (t : Transfer) : Memory :=
  { t.memory with
    rspData := t.memory.rspData ++ if t.rspData then [t.rspDataLeft] else [] }

/-- `__cm_oneospos_http_post`: the callback is registered before the transfer. The record
`rsp_data` is read untested, whatever was stored in it. -/
def oneosposHttpPost (s : Http) (t : Transfer) : Option (Http × Option CStr) := do
  let (handles, added) ← oneosposAdd s.handles t.post (rspDataAddress t)
  let s := { s with handles := handles }
  if added then do
    let m ← deliver (oneosposWriteCallback t.write t.buffer) t.chunks (withRspData t)
    if t.post.ok .perform then do
      let address ← rspDataAddress t
      let rspData ← m.rspData[address]?
      oneosposRspContent { s with waiting := true } t.locationRsp m rspData.data
    else requestFails s
  else requestFails s

/-- `cm_lbs_http_callback` of either back end with `CM_HTTP_CALLBACK_EVENT_RSP_END_IND` -/
def rspEnd (s : Http) : Option (Http × Option CStr) :=
  if s.waiting then do
    let handles ← s.handles.release
    some (⟨handles, false, false⟩, none)
  else none

inductive HttpInput where
  | request (t : Transfer)
  | rspEnd

/-- One event of a back end, with the text that goes to the parser. -/
def httpStep (f : Family) (s : Http) : HttpInput → Option (Http × Option CStr)
  | .request t =>
    if s.waiting then some (s, none)
    else
      match f with
      | .amap => amapHttpRequst s t
      | .oneospos => oneosposHttpPost s t
  | .rspEnd => rspEnd s

/-- The memory when the transfer starts: the URL of an AMAP request is printed into a block
that has room for it, and the terminator of the header of a OneOS request is stored. -/
def prepared (t : Transfer) : Family → Option Memory
  | .amap => do printUrl t (← t.url)
  | .oneospos => if t.post.headerStore then some t.memory else none

/-- What a memory holds where the parser will look. -/
def leftText (t : Transfer) (m : Memory) : Family → Option CStr
  | .amap => do
    let callbackParam ← m.params (← t.rspContentLeft)
    m.heap.string (← callbackParam.responseContent)
  | .oneospos => do m.heap.string (← t.rspDataLeft.data)

/-- The handles are made by the next request. -/
def FirstUse (h : Handles) : Family → Prop
  | .amap => h.easy = .absent
  | .oneospos => h.Missing

/-- The request is answered: its path is made, and every call of the library and every
allocation on the way to the parser succeeds. -/
structure Answered (t : Transfer) : Prop where
  url : ∃ url, t.url = some url
  ok : ∀ step, t.post.ok step = true
  write : t.write = true
  locationRsp : t.locationRsp = true
  rspData : t.rspData = true

/-- Between two requests there is no handle that could carry a callback. -/
structure Quiet (s : Http) : Prop where
  handle : s.waiting = false → s.handles.easy = .absent ∨ s.handles.easy = .cleaned
  callbackState : s.waiting = false → s.callbackState = false

theorem Quiet.init : Quiet Http.init := ⟨fun _ => Or.inl rfl, fun _ => rfl⟩

variable {f : Family} {s s' : Http} {t : Transfer} {text : CStr} {m : Memory}

theorem Quiet.of_waiting (h : s.waiting = true) : Quiet s := by
  constructor
  · intro hw
    exact absurd (h.symm.trans hw) (by decide)
  · intro hw
    exact absurd (h.symm.trans hw) (by decide)

theorem parserText_eq_some_iff {heap : Heap} {p : Option Addr} :
    parserText heap p = some (some text) ↔ (p.bind heap.string) = some text := by
  cases p with
  | none => simp [parserText]
  | some p => simp [parserText]

theorem handed_iff {result : Option (Option CStr)} {u : Http} :
    (∃ s', (result.bind fun text => some (u, text)) = some (s', some text)) ↔
      result = some (some text) := by
  constructor
  · rintro ⟨s', h⟩
    obtain ⟨o, ho, h⟩ := Option.bind_eq_some_iff.mp h
    cases h
    exact ho
  · rintro rfl
    exact ⟨u, rfl⟩

theorem amapRspContent_waiting {locationRsp : Bool} {param : Option Nat} {o : Option CStr}
    (h : amapRspContent s locationRsp m param = some (s', o)) : s'.waiting = s.waiting := by
  simp only [amapRspContent] at h
  split_ifs at h
  · cases h
    rfl
  · obtain ⟨p, -, h⟩ := Option.bind_eq_some_iff.mp h
    obtain ⟨callbackParam, -, h⟩ := Option.bind_eq_some_iff.mp h
    obtain ⟨text, -, h⟩ := Option.bind_eq_some_iff.mp h
    cases h
    rfl
  · cases h
    rfl

theorem oneosposRspContent_waiting {locationRsp : Bool} {p : Option Addr} {o : Option CStr}
    (h : oneosposRspContent s locationRsp m p = some (s', o)) : s'.waiting = s.waiting := by
  simp only [oneosposRspContent] at h
  split_ifs at h
  · cases h
    rfl
  · obtain ⟨text, -, h⟩ := Option.bind_eq_some_iff.mp h
    obtain ⟨handles, -, h⟩ := Option.bind_eq_some_iff.mp h
    cases h
    rfl

theorem requestFails_quiet {o : Option CStr} (hstate : s.callbackState = false)
    (h : requestFails s = some (s', o)) : Quiet s' := by
  obtain ⟨handles, hrelease, h⟩ := Option.bind_eq_some_iff.mp h
  cases h
  exact ⟨fun _ => release_easy hrelease, fun _ => hstate⟩

/-- A request leaves a handle in use only when it leaves the back end waiting. -/
theorem amapHttpRequst_quiet {o : Option CStr} (hstate : s.callbackState = false)
    (h : amapHttpRequst s t = some (s', o)) : Quiet s' := by
  have hfails : ∀ handles, requestFails { s with handles := handles } = some (s', o) → Quiet s' :=
    fun handles hfails => @requestFails_quiet { s with handles := handles } s' o hstate hfails
  simp only [amapHttpRequst] at h
  split at h
  · exact requestFails_quiet hstate h
  have hs : ∃ handles, (if s.handles.easy = .absent then { s with handles := curlInit t.post.ok }
      else s) = { s with handles := handles } := by
    split_ifs
    · exact ⟨_, rfl⟩
    · exact ⟨s.handles, rfl⟩
  obtain ⟨handles, hs⟩ := hs
  rw [hs] at h
  split_ifs at h
  · exact hfails handles h
  all_goals obtain ⟨m, -, h⟩ := Option.bind_eq_some_iff.mp h
  · cases h
  · obtain ⟨m, -, h⟩ := Option.bind_eq_some_iff.mp h
    exact Quiet.of_waiting (amapRspContent_waiting h)
  · obtain ⟨m, -, h⟩ := Option.bind_eq_some_iff.mp h
    exact hfails handles h
  · exact hfails handles h

theorem oneosposHttpPost_quiet {o : Option CStr} (hstate : s.callbackState = false)
    (h : oneosposHttpPost s t = some (s', o)) : Quiet s' := by
  obtain ⟨⟨handles, added⟩, -, h⟩ := Option.bind_eq_some_iff.mp h
  have hfails : requestFails { s with handles := handles } = some (s', o) → Quiet s' :=
    fun hfails => @requestFails_quiet { s with handles := handles } s' o hstate hfails
  dsimp only at h
  split_ifs at h
  · obtain ⟨m, -, h⟩ := Option.bind_eq_some_iff.mp h
    obtain ⟨address, -, h⟩ := Option.bind_eq_some_iff.mp h
    obtain ⟨rspData, -, h⟩ := Option.bind_eq_some_iff.mp h
    exact Quiet.of_waiting (oneosposRspContent_waiting h)
  · obtain ⟨m, -, h⟩ := Option.bind_eq_some_iff.mp h
    exact hfails h
  · exact hfails h

theorem httpStep_quiet {i : HttpInput} {o : Option CStr} (hs : Quiet s)
    (h : httpStep f s i = some (s', o)) : Quiet s' := by
  cases i with
  | request t =>
    simp only [httpStep] at h
    split_ifs at h with hwaiting
    · cases h
      exact hs
    have hstate := hs.callbackState (Bool.eq_false_iff.mpr hwaiting)
    cases f with
    | amap => exact amapHttpRequst_quiet hstate h
    | oneospos => exact oneosposHttpPost_quiet hstate h
  | rspEnd =>
    simp only [httpStep, rspEnd] at h
    split_ifs at h
    obtain ⟨handles, hrelease, h⟩ := Option.bind_eq_some_iff.mp h
    cases h
    exact ⟨fun _ => release_easy hrelease, fun _ => rfl⟩

theorem quiet_of_run {trace : List (HttpInput × Option CStr)}
    (h : Run (httpStep f) (fun _ _ _ => True) Http.init trace s) : Quiet s :=
  @Run.invariant _ _ _ _ _ _ (fun _ s => Quiet s) Quiet.init
    (fun hs _ hstep => httpStep_quiet hs hstep) _ _ h

theorem requestFails_ne_text : requestFails s ≠ some (s', some text) := by
  intro h
  obtain ⟨handles, -, h⟩ := Option.bind_eq_some_iff.mp h
  cases h

theorem curlInit_of_answered (ht : Answered t) : curlInit t.post.ok = ⟨.live .default, true⟩ := by
  rw [curlInit, ht.ok, ht.ok, if_pos rfl]

theorem added_of_answered {write : WriteFunction} (ht : Answered t) :
    (⟨.live write, true⟩ : Handles).added t.post.ok = true := by
  rw [Handles.added, ht.ok]
  rfl

/-- A first request of the AMAP back end prints its URL and goes past its callback, and the
text is read where the uninitialised pointer leads. -/
theorem amapHttpRequst_first_iff (ht : Answered t) (hs : s.callbackState = false)
    (hfirst : s.handles.easy = .absent) :
    (∃ s', amapHttpRequst s t = some (s', some text)) ↔
      ∃ m, prepared t .amap = some m ∧ leftText t m .amap = some text := by
  obtain ⟨url, hurl⟩ := ht.url
  have hadded := @added_of_answered t .default ht
  have hpresent : ¬ (⟨.live .default, true⟩ : Handles).Missing := by decide
  simp only [amapHttpRequst, hurl, if_pos hfirst, curlInit_of_answered ht, if_neg hpresent,
    prepared, Option.bind_eq_bind, Option.bind_some]
  cases printUrl t url with
  | none => simp
  | some m =>
    simp only [Option.bind_some, reduceCtorEq, if_false, hadded, if_true, amapPerform, ht.ok,
      amapRspContent, hs, Bool.false_eq_true, ht.locationRsp, leftText, Option.some.injEq,
      exists_eq_left']
    cases t.rspContentLeft with
    | none => simp
    | some d =>
      cases hparam : m.params d with
      | none => simp [hparam]
      | some callbackParam =>
        simp only [Option.bind_eq_bind, Option.bind_some, hparam]
        rw [← parserText_eq_some_iff]
        exact handed_iff

/-- A handle that was cleaned up is not used again. -/
theorem amapHttpRequst_cleaned (ht : Answered t) (hcleaned : s.handles.easy = .cleaned) :
    amapHttpRequst s t = none := by
  obtain ⟨url, hurl⟩ := ht.url
  have hpresent : ¬ s.handles.easy = .absent := by rw [hcleaned]; decide
  simp only [amapHttpRequst, hurl, if_neg hpresent,
    if_neg (fun hmissing : s.handles.Missing => hpresent hmissing.1), if_pos hcleaned]
  cases printUrl t url <;> rfl

/-- The callback of the OneOS back end leaves the bytes and the older records alone. -/
theorem oneosposWriteCallback_keeps {buffer : Addr} {heap : Heap} {address : Nat}
    {rspData : CurlRspData} (chunk : List UInt8)
    (hm : m.heap = heap ∧ m.rspData[address]? = some rspData) :
    ∃ m', oneosposWriteCallback true buffer m chunk = some (m', chunk.length) ∧
      m'.heap = heap ∧ m'.rspData[address]? = some rspData := by
  refine ⟨_, rfl, hm.1, ?_⟩
  obtain ⟨hlt, -⟩ := List.getElem?_eq_some_iff.mp hm.2
  rw [List.getElem?_append_left hlt]
  exact hm.2

theorem oneosposAdd_first (ht : Answered t) (hfirst : s.handles.Missing) {data : Option Nat} :
    oneosposAdd s.handles t.post data =
      if t.post.headerStore then some (⟨.live (.callback data), true⟩, true) else none := by
  have hpresent : ¬ (⟨.live .default, true⟩ : Handles).Missing := by decide
  have hadded := @added_of_answered t (.callback data) ht
  simp only [oneosposAdd, if_pos hfirst, curlInit_of_answered ht, if_neg hpresent, reduceCtorEq,
    if_false, ht.ok, if_true, Handles.register, hadded]

theorem oneosposHttpPost_first_iff (ht : Answered t) (hs : s.callbackState = false)
    (hfirst : s.handles.Missing) :
    (∃ s', oneosposHttpPost s t = some (s', some text)) ↔
      ∃ m, prepared t .oneospos = some m ∧ leftText t m .oneospos = some text := by
  have haddress : rspDataAddress t = some t.memory.rspData.length := by
    rw [rspDataAddress, if_pos ht.rspData]
  simp only [oneosposHttpPost, oneosposAdd_first ht hfirst, prepared]
  cases t.post.headerStore with
  | false => simp
  | true =>
    have hstart : (withRspData t).heap = t.memory.heap ∧
        (withRspData t).rspData[t.memory.rspData.length]? = some t.rspDataLeft := by
      simp [withRspData, ht.rspData]
    obtain ⟨m, hm, hheap, hrspData⟩ := deliver_keeps
      (fun m chunk hm => @oneosposWriteCallback_keeps m t.buffer _ _ _ chunk hm) t.chunks hstart
    simp only [if_true, Option.bind_eq_bind, Option.bind_some, ht.write, hm, ht.ok, haddress,
      hrspData, oneosposRspContent, hs, Bool.false_eq_true, if_false, ht.locationRsp,
      Handles.release, leftText, hheap, Option.some.injEq, exists_eq_left']
    rw [← parserText_eq_some_iff]
    exact handed_iff

/-- Without both handles to make, a OneOS request finds no easy handle, or one that was
cleaned up. -/
theorem oneosposHttpPost_later (hquiet : s.handles.easy = .absent ∨ s.handles.easy = .cleaned)
    (hlater : ¬ s.handles.Missing) : oneosposHttpPost s t ≠ some (s', some text) := by
  intro h
  obtain ⟨⟨handles, added⟩, hadd, h⟩ := Option.bind_eq_some_iff.mp h
  cases added with
  | false => exact requestFails_ne_text h
  | true =>
    simp only [oneosposAdd, if_neg hlater] at hadd
    split_ifs at hadd with hcleaned
    · have habsent := hquiet.resolve_right hcleaned
      have hadded := (Prod.mk.inj (Option.some.inj hadd)).2
      have hregister : s.handles.register (rspDataAddress t) = s.handles := by
        rw [Handles.register, habsent]
      rw [hregister, Handles.added, habsent] at hadded
      cases hadded
    · cases hadd

/-- In every run, an answered request gives the parser the text that memory held before the
transfer, and this only as long as its handles are the first ones. -/
theorem request_handed_iff {trace : List (HttpInput × Option CStr)}
    (hrun : Run (httpStep f) (fun _ _ _ => True) Http.init trace s) (hfree : s.waiting = false)
    (ht : Answered t) :
    (∃ s', httpStep f s (.request t) = some (s', some text)) ↔
      FirstUse s.handles f ∧ ∃ m, prepared t f = some m ∧ leftText t m f = some text := by
  have hquiet := quiet_of_run hrun
  have hstate := hquiet.callbackState hfree
  simp only [httpStep, hfree, Bool.false_eq_true, if_false]
  cases f with
  | amap =>
    rcases hquiet.handle hfree with habsent | hcleaned
    · rw [and_iff_right (show FirstUse s.handles .amap from habsent)]
      exact amapHttpRequst_first_iff ht hstate habsent
    · refine iff_of_false ?_ fun h => ?_
      · rw [amapHttpRequst_cleaned ht hcleaned]
        simp
      · have habsent : s.handles.easy = .absent := h.1
        rw [hcleaned] at habsent
        cases habsent
  | oneospos =>
    by_cases hfirst : s.handles.Missing
    · rw [and_iff_right (show FirstUse s.handles .oneospos from hfirst)]
      exact oneosposHttpPost_first_iff ht hstate hfirst
    · refine iff_of_false ?_ fun h => hfirst h.1
      rintro ⟨s', h⟩
      exact oneosposHttpPost_later (hquiet.handle hfree) hfirst h

/-- Two answered requests that meet the same memory give the parser the same text, whatever
the responses are. -/
theorem handed_ignores_response {trace : List (HttpInput × Option CStr)} {t' : Transfer}
    (hrun : Run (httpStep f) (fun _ _ _ => True) Http.init trace s) (hfree : s.waiting = false)
    (ht : Answered t) (ht' : Answered t')
    (hleft : (prepared t f).bind (leftText t · f) = (prepared t' f).bind (leftText t' · f)) :
    (∃ s', httpStep f s (.request t) = some (s', some text)) ↔
      ∃ s', httpStep f s (.request t') = some (s', some text) := by
  rw [request_handed_iff hrun hfree ht, request_handed_iff hrun hfree ht',
    ← Option.bind_eq_some_iff, ← Option.bind_eq_some_iff, hleft]

/-- An answered request gives the parser its response exactly when it is the first one, its
stray stores find their room, and the uninitialised pointer happens to lead to a copy of the
response. -/
theorem response_handed_iff {trace : List (HttpInput × Option CStr)}
    (hrun : Run (httpStep f) (fun _ _ _ => True) Http.init trace s) (hfree : s.waiting = false)
    (ht : Answered t) :
    (∃ s', httpStep f s (.request t) = some (s', some t.chunks.flatten)) ↔
      FirstUse s.handles f ∧
        ∃ m, prepared t f = some m ∧ leftText t m f = some t.chunks.flatten :=
  request_handed_iff hrun hfree ht

/-- A request for which memory still holds a text where both back ends look, and has room for
the URL where `curl_url` happens to lead. -/
def staleTransfer (old : String) (chunks : List String) (headerStore : Bool) : Transfer where
  memory :=
    { heap := [some ((cstr old).map some ++ [some 0]), some (List.replicate 64 none)]
      params := fun d => if d = 0 then some ⟨0, 0, 0, some ⟨0, 0⟩⟩ else none
      rspData := [] }
  chunks := chunks.map cstr
  buffer := ⟨2, 0⟩
  url := some (cstr "http://apilocate.amap.com/position?accesstype=")
  post := ⟨fun _ => true, headerStore⟩
  write := true
  locationRsp := true
  rspData := true
  curlUrlLeft := some ⟨1, 0⟩
  rspContentLeft := some 0
  rspDataLeft := ⟨some ⟨0, 0⟩, 0⟩

theorem staleTransfer_answered {old : String} {chunks : List String} {headerStore : Bool} :
    Answered (staleTransfer old chunks headerStore) := ⟨⟨_, rfl⟩, fun _ => rfl, rfl, rfl, rfl⟩

theorem response_handed_iff_copy :
    (∃ s', httpStep .amap Http.init (.request (staleTransfer "abc" ["a", "bc"] false)) =
      some (s', some (staleTransfer "abc" ["a", "bc"] false).chunks.flatten)) ∧
    ∃ s', httpStep .oneospos Http.init (.request (staleTransfer "abc" ["a", "bc"] true)) =
      some (s', some (staleTransfer "abc" ["a", "bc"] true).chunks.flatten) :=
  ⟨(response_handed_iff .start rfl staleTransfer_answered).mpr ⟨rfl, _, rfl, by decide⟩,
    (response_handed_iff .start rfl staleTransfer_answered).mpr ⟨⟨rfl, rfl⟩, _, rfl, by decide⟩⟩

/-- Both back ends give the parser the stale text. The OneOS back end does so where the
terminator of the header can be stored, and elsewhere faults. -/
theorem stale_text_handed :
    (∃ s', httpStep .amap Http.init (.request (staleTransfer "old" ["a", "bc"] false)) =
      some (s', some (cstr "old"))) ∧
    (∃ s', httpStep .oneospos Http.init (.request (staleTransfer "old" ["a", "bc"] true)) =
      some (s', some (cstr "old"))) ∧
    httpStep .oneospos Http.init (.request (staleTransfer "old" ["a", "bc"] false)) = none ∧
    cstr "old" ≠ (staleTransfer "old" ["a", "bc"] true).chunks.flatten :=
  ⟨(request_handed_iff .start rfl staleTransfer_answered).mpr ⟨rfl, _, rfl, by decide⟩,
    (request_handed_iff .start rfl staleTransfer_answered).mpr ⟨⟨rfl, rfl⟩, _, rfl, by decide⟩,
    rfl, by decide⟩

/-- The record has the text in a block of its own. -/
def HoldsText (d : Nat) (m : Memory) (text : List UInt8) : Prop :=
  ∃ p, m.params d = some p ∧ p.currentLen.toNat = text.length ∧
    m.heap.Owns p.responseContent text

theorem amapWriteCallback_appends {d : Nat} {chunk : List UInt8} (h : HoldsText d m text)
    (hlen : (text ++ chunk).length < 2 ^ 32) :
    ∃ m', amapWriteCallback true (some d) m chunk = some (m', chunk.length) ∧
      HoldsText d m' (text ++ chunk) := by
  obtain ⟨p, hp, hcurrent, howns⟩ := h
  obtain ⟨grown, hgrown, hblock⟩ := realloc_of_owns howns chunk.length
  obtain ⟨heap, hheap, hafter⟩ := write_of_block hblock
  have hsum : (p.currentLen + UInt32.ofNat chunk.length).toNat = (text ++ chunk).length := by
    rw [List.length_append] at hlen ⊢
    rw [UInt32.toNat_add, hcurrent, UInt32.toNat_ofNat']
    omega
  simp only [amapWriteCallback, Option.bind_eq_bind, Option.bind_some, hp, hcurrent, hgrown, hheap,
    if_true]
  refine ⟨_, rfl, _, Function.update_self _ _ _, hsum, ?_⟩
  exact ⟨rfl, hafter⟩

/-- Registered before the transfer, and with a cleared record, the AMAP callback collects the
response whatever its chunks are; but what it collects has no terminator. -/
theorem registered_transfer {d : Nat} (ht : Answered t) (hd : HoldsText d t.memory [])
    (hlen : t.chunks.flatten.length < 2 ^ 32) :
    ∃ m, amapPerform t t.memory (.live (.callback (some d))) = some m ∧
      HoldsText d m t.chunks.flatten := by
  rw [amapPerform, ht.write]
  exact deliver_appends (fun m text chunk => amapWriteCallback_appends) hd hlen

theorem parserText_of_holdsText {d : Nat} {p : RspContentParam} (h : HoldsText d m text)
    (hp : m.params d = some p) (hnul : 0 ∉ text) (htext : text ≠ []) :
    parserText m.heap p.responseContent = none := by
  obtain ⟨q, hq, -, howns⟩ := h
  cases hp.symm.trans hq
  cases hcontent : p.responseContent with
  | none =>
    rw [hcontent] at howns
    exact absurd howns htext
  | some a =>
    rw [hcontent] at howns
    obtain ⟨hoffset, hblock⟩ := howns
    simp only [parserText, Heap.string, hblock, hoffset, List.drop_zero, Option.bind_eq_bind,
      Option.bind_some, textOf_eq_none hnul, Option.map_none]

end ResponseText
