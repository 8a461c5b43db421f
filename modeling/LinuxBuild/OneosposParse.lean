import LinuxBuild.AmapParse

/-!
# The OneOS response parser

The two halves of the position go through buffers of 24 bytes on the stack. A half
that leaves no room for its terminator there is a fault.
-/
namespace OneosposParse
open CString LbsTypes CJson AmapParse

/-- `cm_oneospos_callback_event_e` -/
inductive OneosposEvent where
  | unknow
  | conerr
  | timeout
  | success
  | fail
  | overRestrict
  | unsetPlatform
  | ueinfoFail
  | attrNull
  deriving DecidableEq, Repr

/-- `cm_oneospos_location_rsp_t` -/
structure OneosposLocationRsp where
  event : OneosposEvent
  latitude : Option CStr
  longitude : Option CStr
  deriving DecidableEq

/-- `receive_event` -/
def receiveEvent : List (OneosposEvent × String) :=
  [(.fail, "10000"), (.overRestrict, "11000"), (.unsetPlatform, "12000")]

/-- `__cm_oneospos_find_callback_event_by_receive` -/
def findCallbackEventByReceive (code : CStr) : OneosposEvent :=
  match receiveEvent.find? fun e => cstr e.2 = code with
  | some e => e.1
  | none => .unknow

theorem findCallbackEventByReceive_ne_success (code : CStr) :
    findCallbackEventByReceive code ≠ .success := by
  have htable : ∀ e ∈ receiveEvent, e.1 ≠ .success := by decide
  simp only [findCallbackEventByReceive]
  split
  · rename_i e he
    exact htable e (List.mem_of_find?_eq_some he)
  · exact OneosposEvent.noConfusion

/-- `__oneospos_copy_location_rsp` -/
def oneosposCopyLocationRsp : Bool → Option CStr → Except LbsState CStr := copyRsp 64

/-- `__cm_location_string_parse_to_latitude_longitude`: the text in front of the
comma is the latitude. -/
def stringParseToLatitudeLongitude (pos : Option CStr) :
    Option (Except LbsState (CStr × CStr)) :=
  match pos with
  | none => some (.error .paramErr)
  | some pos =>
    match splitComma pos with
    | none => some (.error .err)
    | some halves =>
      if halves.1.length < 24 ∧ halves.2.length < 24 then some (.ok halves) else none

def failed (event : OneosposEvent) : OneosposLocationRsp := ⟨event, none, none⟩

def oneosposCopy (alloc : RspMember → Bool) (halves : CStr × CStr) : OneosposLocationRsp :=
  match oneosposCopyLocationRsp (alloc .latitude) (some halves.1) with
  | .error _ => failed .unknow
  | .ok latitude =>
    match oneosposCopyLocationRsp (alloc .longitude) (some halves.2) with
    | .error _ => ⟨.unknow, some latitude, none⟩
    | .ok longitude => ⟨.success, some latitude, some longitude⟩

/-- `__cm_oneospos_http_location_parse` -/
def oneosposHttpLocationParse (alloc : RspMember → Bool) (parsed : Option Json) :
    Option OneosposLocationRsp :=
  match parsed with
  | none => some (failed .unknow)
  | some doc =>
    match doc.getObjectItem "success" with
    | none => some (failed .unknow)
    | some success =>
      match success.isTrue, doc.getObjectItem "code", doc.getObjectItem "data" with
      | false, some code, _ => code.valuestring.map fun v => failed (findCallbackEventByReceive v)
      | false, none, _ => some (failed .unknow)
      | true, _, none => some (failed .unknow)
      | true, _, some data =>
        match data.getObjectItem "pos" with
        | none => some (failed .unknow)
        | some pos => do
          match ← stringParseToLatitudeLongitude pos.valuestring with
          | .error _ => some (failed .unknow)
          | .ok halves => some (oneosposCopy alloc halves)

theorem oneosposCopy_success {alloc : RspMember → Bool} {halves : CStr × CStr}
    (h : (oneosposCopy alloc halves).event = .success) :
    oneosposCopy alloc halves = ⟨.success, some halves.1, some halves.2⟩ ∧
      0 < halves.1.length ∧ 0 < halves.2.length := by
  simp only [oneosposCopy] at h ⊢
  split at h
  · cases h
  · rename_i latitude hlat
    obtain ⟨heq, hlen, -⟩ := copyRsp_eq_ok_iff.mp hlat
    cases heq
    split at h
    · cases h
    · rename_i longitude hlon
      obtain ⟨heq, hlen', -⟩ := copyRsp_eq_ok_iff.mp hlon
      cases heq
      exact ⟨rfl, hlen.1, hlen'.1⟩

/-- A success of the parser carries the two halves of the position of the response. -/
theorem oneosposHttpLocationParse_success {alloc : RspMember → Bool} {parsed : Option Json}
    {rsp : OneosposLocationRsp} (h : oneosposHttpLocationParse alloc parsed = some rsp)
    (hevent : rsp.event = .success) :
    ∃ doc data pos text halves, parsed = some doc ∧ doc.getObjectItem "data" = some data ∧
      data.getObjectItem "pos" = some pos ∧ pos.valuestring = some text ∧
      splitComma text = some halves ∧ 0 < halves.1.length ∧ 0 < halves.2.length ∧
      rsp = ⟨.success, some halves.1, some halves.2⟩ := by
  have hfailed : ∀ event, event ≠ .success → failed event ≠ rsp := by
    rintro event hne rfl
    exact hne hevent
  have hunknow := hfailed .unknow OneosposEvent.noConfusion
  simp only [oneosposHttpLocationParse] at h
  split at h
  · exact absurd (Option.some.inj h) hunknow
  rename_i doc
  split at h
  · exact absurd (Option.some.inj h) hunknow
  split at h
  · obtain ⟨code, -, heq⟩ := Option.map_eq_some_iff.mp h
    exact absurd heq (hfailed _ (findCallbackEventByReceive_ne_success code))
  · exact absurd (Option.some.inj h) hunknow
  · exact absurd (Option.some.inj h) hunknow
  rename_i data _ hdata
  split at h
  · exact absurd (Option.some.inj h) hunknow
  rename_i pos hpos
  obtain ⟨parts, hparts, h⟩ := Option.bind_eq_some_iff.mp h
  split at h
  · exact absurd (Option.some.inj h) hunknow
  rename_i halves
  cases Option.some.inj h
  obtain ⟨hcopy, hlat, hlon⟩ := oneosposCopy_success hevent
  simp only [stringParseToLatitudeLongitude] at hparts
  split at hparts
  · cases hparts
  rename_i text htext
  split at hparts
  · cases hparts
  rename_i halves' hsplit
  split_ifs at hparts
  cases hparts
  exact ⟨doc, data, pos, text, halves, rfl, hdata, hpos, htext, hsplit, hlat, hlon, hcopy⟩

end OneosposParse
