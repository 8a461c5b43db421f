import LinuxBuild.CJson
import LinuxBuild.LbsTypes
import Mathlib.Logic.Function.Basic

/-!
# The two AMAP response parsers

Every string of a response is copied into memory of its own, so each member of the
record has an allocation that can fail. A `NULL` handed to a string function is a
fault, here `none`.
-/
namespace AmapParse
open CString LbsTypes CJson

/-- `cm_lbs_amap_event_e` -/
inductive AmapEvent where
  | succeed
  | fail
  | timeout
  | connectFaill
  | keyInvalid
  | overDayquota
  | overAllquota
  | overQps
  | getUeinfoFail
  | apikeyFobiden
  | unknownErr
  deriving DecidableEq, Repr

/-- The string members of `cm_lbs_amap_location_rsp_t`. -/
inductive RspMember where
  | longitude
  | latitude
  | radius
  | country
  | province
  | city
  | district
  | citycode
  | adcode
  | street
  | road
  | poi
  | locationDescribe
  deriving DecidableEq, Repr

/-- The strings of a response record; a `NULL` pointer is `none`. -/
abbrev RspMembers := RspMember → Option CStr

/-- A record fresh from `cm_lbs_malloc`, which clears what it allocates. -/
def noMembers : RspMembers := fun _ => none

/-- `s_amap_rspcode` -/
def amapRspcode : List (AmapEvent × String) :=
  [(.succeed, "OK"), (.keyInvalid, "INVALID_USER_KEY"), (.overDayquota, "OVER_QUOTA"),
    (.overQps, "CUQPS_HAS_EXCEEDED_THE_LIMIT"), (.unknownErr, "UNKNOWN_ERROR")]

/-- `cm_lbs_amap_rspcode_parse` -/
def rspcodeParse (rspInfo : CStr) : AmapEvent :=
  match amapRspcode.find? fun e => cstr e.2 = rspInfo with
  | some e => e.1
  | none => .unknownErr

theorem rspcodeParse_eq_succeed_iff {info : CStr} :
    rspcodeParse info = .succeed ↔ info = cstr "OK" := by
  constructor
  · intro h
    simp only [rspcodeParse] at h
    split at h
    · rename_i e hfind
      have hname : cstr e.2 = info := by simpa using List.find?_some hfind
      have hall : ∀ e ∈ amapRspcode, e.1 = .succeed → e.2 = "OK" := by decide
      rw [← hname, hall e (List.mem_of_find?_eq_some hfind) h]
    · cases h
  · rintro rfl
    decide

/-- The copies of the two back ends differ in the bound on the length only. -/
def copyRsp (lenmax : Nat) (alloc : Bool) : Option CStr → Except LbsState CStr
  | none => .error .err
  | some v =>
    if 0 < v.length ∧ v.length < lenmax then
      if alloc then .ok v else .error .memroyErr
    else .error .memroyErr

theorem copyRsp_eq_ok_iff {lenmax : Nat} {alloc : Bool} {src : Option CStr} {v : CStr} :
    copyRsp lenmax alloc src = .ok v ↔
      src = some v ∧ (0 < v.length ∧ v.length < lenmax) ∧ alloc = true := by
  cases src with
  | none => simp [copyRsp]
  | some w =>
    simp only [copyRsp]
    split_ifs with hlen halloc
    · constructor
      · intro h
        cases h
        exact ⟨rfl, hlen, halloc⟩
      · rintro ⟨h, -, -⟩
        cases h
        rfl
    · simp [halloc]
    · constructor
      · intro h
        cases h
      · rintro ⟨h, hlen', -⟩
        cases h
        exact absurd hlen' hlen

/-- `__amap_copy_location_rsp` -/
def amapCopyLocationRsp : Bool → Option CStr → Except LbsState CStr := copyRsp 256

/-- A run of blocks that look a member up, copy it if it is there, and leave the
parser when the copy fails; the flag says that no block left. -/
def copyMembers (alloc : RspMember → Bool) (item : Json) :
    List (String × RspMember) → RspMembers → Bool × RspMembers
  | [], rsp => (true, rsp)
  | (name, f) :: blocks, rsp =>
    match item.getObjectItem name with
    | none => copyMembers alloc item blocks rsp
    | some child =>
      match amapCopyLocationRsp (alloc f) child.valuestring with
      | .ok v => copyMembers alloc item blocks (Function.update rsp f (some v))
      | .error _ => (false, Function.update rsp f none)

/-- The text in front of the first comma and the text behind it. -/
def splitComma (location : CStr) : Option (CStr × CStr) :=
  match location.dropWhile (· ≠ 44) with
  | [] => none
  | _ :: behind => some (location.takeWhile (· ≠ 44), behind)

/-- The longitude and the latitude of a location text, cut out and copied. -/
def copyPosition (alloc : RspMember → Bool) (halves : CStr × CStr) : Bool × RspMembers :=
  match amapCopyLocationRsp (alloc .longitude) (some halves.1) with
  | .error _ => (false, noMembers)
  | .ok longitude =>
    let rsp := Function.update noMembers .longitude (some longitude)
    match amapCopyLocationRsp (alloc .latitude) (some halves.2) with
    | .error _ => (false, rsp)
    | .ok latitude => (true, Function.update rsp .latitude (some latitude))

def eventOf (whole : Bool) : AmapEvent := if whole then .succeed else .unknownErr

/-- Without a position "OK" is no success. -/
def failureEvent (info : CStr) : AmapEvent :=
  match rspcodeParse info with
  | .succeed => .unknownErr
  | event => event

/-- The exit of the version 1 parser without a usable result. -/
def amapv1Refusal (info : Option Json) : Option AmapEvent :=
  match info with
  | none => some .unknownErr
  | some info => info.valuestring.map failureEvent

/-- The members of `result` in the order in which they are copied. -/
def amapv1Members : List (String × RspMember) :=
  [("city", .city), ("province", .province), ("adcode", .adcode), ("street", .street),
    ("poi", .poi), ("desc", .locationDescribe), ("country", .country), ("radius", .radius),
    ("road", .road), ("citycode", .citycode)]

def amapv1Copy (alloc : RspMember → Bool) (result : Json) (halves : CStr × CStr) :
    AmapEvent × RspMembers :=
  match copyPosition alloc halves with
  | (false, rsp) => (.unknownErr, rsp)
  | (true, rsp) =>
    let (whole, rsp) := copyMembers alloc result amapv1Members rsp
    (eventOf whole, rsp)

/-- `__cm_lbs_amapv1_parse` -/
def amapv1Parse (alloc : RspMember → Bool) (parsed : Option Json) :
    Option (AmapEvent × RspMembers) :=
  match parsed with
  | none => some (.unknownErr, noMembers)
  | some doc => do
    let info := doc.getObjectItem "info"
    let status ← doc.getObjectItem "status"
    let statusText ← status.valuestring
    -- `strstr(status, "1")`
    match decide (49 ∈ statusText), doc.getObjectItem "result" with
    | true, some result =>
      match result.getObjectItem "location" with
      | some location => do
        let text ← location.valuestring
        match splitComma text with
        | some halves => some (amapv1Copy alloc result halves)
        | none => do
          let info ← info
          let infoText ← info.valuestring
          some (failureEvent infoText, noMembers)
      | none => do
        let event ← amapv1Refusal info
        some (event, noMembers)
    | _, _ => do
      let event ← amapv1Refusal info
      some (event, noMembers)

/-- The members of `addressComponent` in the order in which they are copied. -/
def amapv2Members : List (String × RspMember) :=
  [("country", .country), ("province", .province), ("city", .city), ("district", .district),
    ("citycode", .citycode), ("adcode", .adcode), ("street", .street), ("road", .road),
    ("poi", .poi)]

/-- The address behind the position; the source looks it up in the document, not
in `position`. -/
def amapv2Address (alloc : RspMember → Bool) (doc : Json) (rsp : RspMembers) :
    AmapEvent × RspMembers :=
  match doc.getObjectItem "formatted_address" with
  | none => (.succeed, rsp)
  | some desc =>
    match amapCopyLocationRsp (alloc .locationDescribe) desc.valuestring with
    | .error _ => (.unknownErr, Function.update rsp .locationDescribe none)
    | .ok v =>
      let rsp := Function.update rsp .locationDescribe (some v)
      match doc.getObjectItem "addressComponent" with
      | none => (.succeed, rsp)
      | some addressComponent =>
        let (whole, rsp) := copyMembers alloc addressComponent amapv2Members rsp
        (eventOf whole, rsp)

def amapv2Copy (alloc : RspMember → Bool) (doc radius : Json) (halves : CStr × CStr) :
    AmapEvent × RspMembers :=
  match copyPosition alloc halves with
  | (false, rsp) => (.unknownErr, rsp)
  | (true, rsp) =>
    match amapCopyLocationRsp (alloc .radius) (some (decimal radius.valueint)) with
    | .error _ => (.unknownErr, Function.update rsp .radius none)
    | .ok v => amapv2Address alloc doc (Function.update rsp .radius (some v))

/-- The exit of the version 2 parser without its members; it takes the info text
at its word. -/
def amapv2Refusal (info : Option Json) : Option AmapEvent :=
  match info with
  | none => some .unknownErr
  | some info => info.valuestring.map rspcodeParse

/-- `__cm_lbs_amapv2_parse` -/
def amapv2Parse (alloc : RspMember → Bool) (parsed : Option Json) :
    Option (AmapEvent × RspMembers) :=
  match parsed with
  | none => some (.unknownErr, noMembers)
  | some doc =>
    let info := doc.getObjectItem "info"
    match doc.getObjectItem "status", info, doc.getObjectItem "infocode",
        doc.getObjectItem "position" with
    | some _, some _, some _, some position =>
      match position.getObjectItem "location", position.getObjectItem "radius" with
      | some location, some radius => do
        let text ← location.valuestring
        match splitComma text with
        | none => some (.unknownErr, noMembers)
        | some halves => some (amapv2Copy alloc doc radius halves)
      | _, _ => some (.unknownErr, noMembers)
    | _, _, _, _ => do
      let event ← amapv2Refusal info
      some (event, noMembers)

/-- `__cm_lbs_amap_http_location_parse` on a record that was allocated. -/
def amapHttpLocationParse (platform : LocationPlatform) (alloc : RspMember → Bool)
    (parsed : Option Json) : Option (AmapEvent × RspMembers) :=
  match platform with
  | .amap10 => amapv1Parse alloc parsed
  | .amap20 => amapv2Parse alloc parsed
  | _ => some (.fail, noMembers)

/-- A text that a copy accepts. -/
def Fits (v : CStr) : Prop := 0 < v.length ∧ v.length < 256

/-- Every one of the listed children that is there is copied. -/
def MembersCopied (alloc : RspMember → Bool) (item : Json) (blocks : List (String × RspMember)) :
    Prop :=
  ∀ b ∈ blocks, ∀ child, item.getObjectItem b.1 = some child →
    ∃ v, child.valuestring = some v ∧ Fits v ∧ alloc b.2 = true

def HalvesCopied (alloc : RspMember → Bool) (halves : CStr × CStr) : Prop :=
  (Fits halves.1 ∧ alloc .longitude = true) ∧ Fits halves.2 ∧ alloc .latitude = true

/-- The record holds the two halves of a location text. -/
def Holds (rsp : RspMembers) (halves : CStr × CStr) : Prop :=
  rsp .longitude = some halves.1 ∧ rsp .latitude = some halves.2

theorem Holds.update {rsp : RspMembers} {halves : CStr × CStr} (h : Holds rsp halves)
    {f : RspMember} (hlon : f ≠ .longitude) (hlat : f ≠ .latitude) (v : Option CStr) :
    Holds (Function.update rsp f v) halves := by
  constructor
  · rw [Function.update_of_ne hlon.symm]
    exact h.1
  · rw [Function.update_of_ne hlat.symm]
    exact h.2

theorem amapCopy_eq_ok_iff {alloc : Bool} {src : Option CStr} {v : CStr} :
    amapCopyLocationRsp alloc src = .ok v ↔ src = some v ∧ Fits v ∧ alloc = true :=
  copyRsp_eq_ok_iff

theorem amapCopy_ne_error {alloc : Bool} {src : Option CStr} {e : LbsState}
    (h : amapCopyLocationRsp alloc src = .error e) :
    ¬ ∃ v, src = some v ∧ Fits v ∧ alloc = true := by
  rintro ⟨v, hv⟩
  rw [amapCopy_eq_ok_iff.mpr hv] at h
  cases h

theorem copyMembers_whole_iff (alloc : RspMember → Bool) (item : Json)
    (blocks : List (String × RspMember)) (rsp : RspMembers) :
    (copyMembers alloc item blocks rsp).1 = true ↔ MembersCopied alloc item blocks := by
  induction blocks generalizing rsp with
  | nil => simp [copyMembers, MembersCopied]
  | cons b blocks ih =>
    have hsplit : MembersCopied alloc item (b :: blocks) ↔
        (∀ child, item.getObjectItem b.1 = some child →
          ∃ v, child.valuestring = some v ∧ Fits v ∧ alloc b.2 = true) ∧
        MembersCopied alloc item blocks := by
      simp only [MembersCopied, List.forall_mem_cons]
    rw [hsplit]
    simp only [copyMembers]
    cases hitem : item.getObjectItem b.1 with
    | none => simpa using ih rsp
    | some child =>
      dsimp only
      cases hcopy : amapCopyLocationRsp (alloc b.2) child.valuestring with
      | error e =>
        have hnot := amapCopy_ne_error hcopy
        exact iff_of_false Bool.false_ne_true fun h => hnot (h.1 child rfl)
      | ok v =>
        have hok := amapCopy_eq_ok_iff.mp hcopy
        have hchild : ∀ child', some child = some child' →
            ∃ v, child'.valuestring = some v ∧ Fits v ∧ alloc b.2 = true := by
          intro child' h
          cases h
          exact ⟨v, hok⟩
        exact (ih _).trans ⟨fun h => ⟨hchild, h⟩, And.right⟩

theorem copyMembers_holds {alloc : RspMember → Bool} {item : Json}
    {blocks : List (String × RspMember)} {rsp : RspMembers} {halves : CStr × CStr}
    (h : Holds rsp halves) (hlon : .longitude ∉ blocks.map Prod.snd)
    (hlat : .latitude ∉ blocks.map Prod.snd) :
    Holds (copyMembers alloc item blocks rsp).2 halves := by
  induction blocks generalizing rsp with
  | nil => exact h
  | cons b blocks ih =>
    simp only [List.map_cons, List.mem_cons, not_or] at hlon hlat
    simp only [copyMembers]
    split
    · exact ih h hlon.2 hlat.2
    · split
      · exact ih (h.update (Ne.symm hlon.1) (Ne.symm hlat.1) _) hlon.2 hlat.2
      · exact h.update (Ne.symm hlon.1) (Ne.symm hlat.1) _

theorem copyPosition_spec (alloc : RspMember → Bool) (halves : CStr × CStr) :
    ((copyPosition alloc halves).1 = true ↔ HalvesCopied alloc halves) ∧
      ((copyPosition alloc halves).1 = true → Holds (copyPosition alloc halves).2 halves) := by
  have hiff : ∀ (alloc : Bool) (v : CStr),
      (∃ w, some v = some w ∧ Fits w ∧ alloc = true) ↔ Fits v ∧ alloc = true := by
    intro alloc v
    simp
  simp only [copyPosition, HalvesCopied]
  cases hlon : amapCopyLocationRsp (alloc .longitude) (some halves.1) with
  | error e =>
    have hnot := amapCopy_ne_error hlon
    rw [hiff] at hnot
    simp [hnot]
  | ok lon =>
    obtain ⟨heq, hlon⟩ := amapCopy_eq_ok_iff.mp hlon
    cases heq
    cases hlat : amapCopyLocationRsp (alloc .latitude) (some halves.2) with
    | error e =>
      have hnot := amapCopy_ne_error hlat
      rw [hiff] at hnot
      simp [hnot]
    | ok lat =>
      obtain ⟨heq, hlat⟩ := amapCopy_eq_ok_iff.mp hlat
      cases heq
      simp [hlon, hlat, Holds]

/-- What a version 1 response has to look like to count as a success with the two
halves of its location text. -/
structure V1Accepted (alloc : RspMember → Bool) (doc : Json) (halves : CStr × CStr) : Prop where
  status : ∃ status text, doc.getObjectItem "status" = some status ∧
    status.valuestring = some text ∧ 49 ∈ text
  result : ∃ result location text, doc.getObjectItem "result" = some result ∧
    result.getObjectItem "location" = some location ∧ location.valuestring = some text ∧
    splitComma text = some halves ∧ MembersCopied alloc result amapv1Members
  position : HalvesCopied alloc halves

theorem amapv1Copy_spec (alloc : RspMember → Bool) (result : Json) (halves : CStr × CStr) :
    ((amapv1Copy alloc result halves).1 = .succeed ↔
      HalvesCopied alloc halves ∧ MembersCopied alloc result amapv1Members) ∧
    ((amapv1Copy alloc result halves).1 = .succeed →
      Holds (amapv1Copy alloc result halves).2 halves) := by
  have hpos := copyPosition_spec alloc halves
  simp only [amapv1Copy]
  cases hcopy : copyPosition alloc halves with
  | mk whole rsp =>
    rw [hcopy] at hpos
    cases whole with
    | false =>
      have hnot : ¬ HalvesCopied alloc halves := fun h => Bool.false_ne_true (hpos.1.mpr h)
      simp [hnot]
    | true =>
      have hmembers := copyMembers_whole_iff alloc result amapv1Members rsp
      have hholds : Holds (copyMembers alloc result amapv1Members rsp).2 halves :=
        copyMembers_holds (hpos.2 rfl) (by decide) (by decide)
      refine ⟨?_, fun _ => hholds⟩
      rw [← hmembers]
      simp [hpos.1.mp rfl, eventOf]

theorem failureEvent_ne_succeed (info : CStr) : failureEvent info ≠ .succeed := by
  unfold failureEvent
  split
  · exact AmapEvent.noConfusion
  · assumption

theorem amapv1Refusal_ne_succeed (info : Option Json) :
    amapv1Refusal info ≠ some .succeed := by
  unfold amapv1Refusal
  split
  · simp
  · simp [failureEvent_ne_succeed]

theorem amapv1Parse_holds {alloc : RspMember → Bool} {doc : Json} {rsp : RspMembers}
    (h : amapv1Parse alloc (some doc) = some (.succeed, rsp)) :
    ∃ halves, V1Accepted alloc doc halves ∧ Holds rsp halves := by
  have hrefusal : ∀ info, ¬ (amapv1Refusal info).bind (fun event => some (event, noMembers)) =
      some (AmapEvent.succeed, rsp) := by
    intro info h
    obtain ⟨event, hevent, heq⟩ := Option.bind_eq_some_iff.mp h
    cases heq
    exact amapv1Refusal_ne_succeed info hevent
  simp only [amapv1Parse, Option.bind_eq_bind] at h
  obtain ⟨status, hs, h⟩ := Option.bind_eq_some_iff.mp h
  obtain ⟨statusText, hst, h⟩ := Option.bind_eq_some_iff.mp h
  split at h
  · rename_i result hmem hr
    split at h
    · rename_i location hl
      obtain ⟨text, ht, h⟩ := Option.bind_eq_some_iff.mp h
      split at h
      · rename_i halves hsplit
        have hspec := amapv1Copy_spec alloc result halves
        rw [Option.some.inj h] at hspec
        have hcopied := hspec.1.mp rfl
        have hstatus := of_decide_eq_true hmem
        exact ⟨halves, ⟨⟨status, statusText, hs, hst, hstatus⟩,
          ⟨result, location, text, hr, hl, ht, hsplit, hcopied.2⟩, hcopied.1⟩, hspec.2 rfl⟩
      · obtain ⟨info, -, h⟩ := Option.bind_eq_some_iff.mp h
        obtain ⟨infoText, -, h⟩ := Option.bind_eq_some_iff.mp h
        exact absurd (congrArg Prod.fst (Option.some.inj h)) (failureEvent_ne_succeed infoText)
    · exact absurd h (hrefusal _)
  · exact absurd h (hrefusal _)

/-- The version 1 parser reports a success exactly for the accepted responses. -/
theorem amapv1Parse_succeed_iff {alloc : RspMember → Bool} {doc : Json} :
    (∃ rsp, amapv1Parse alloc (some doc) = some (.succeed, rsp)) ↔
      ∃ halves, V1Accepted alloc doc halves := by
  constructor
  · rintro ⟨rsp, h⟩
    obtain ⟨halves, haccepted, -⟩ := amapv1Parse_holds h
    exact ⟨halves, haccepted⟩
  · rintro ⟨halves, ⟨status, statusText, hs, hst, hmem⟩,
      ⟨result, location, text, hr, hl, ht, hsplit, hmembers⟩, hpos⟩
    have hcopy := (amapv1Copy_spec _ _ _).1.mpr ⟨hpos, hmembers⟩
    refine ⟨(amapv1Copy alloc result halves).2, ?_⟩
    simp only [amapv1Parse, Option.bind_eq_bind, hs, hst, hr, hl, ht, hsplit, hmem, decide_true,
      Option.bind_some]
    exact congrArg some (Prod.ext hcopy rfl)

/-- What a version 2 response has to look like to count as a success with the two
halves of its location text. -/
structure V2Accepted (alloc : RspMember → Bool) (doc : Json) (halves : CStr × CStr) : Prop where
  head : ∃ status info infocode, doc.getObjectItem "status" = some status ∧
    doc.getObjectItem "info" = some info ∧ doc.getObjectItem "infocode" = some infocode
  location : ∃ position location radius text, doc.getObjectItem "position" = some position ∧
    position.getObjectItem "location" = some location ∧
    position.getObjectItem "radius" = some radius ∧ location.valuestring = some text ∧
    splitComma text = some halves
  position : HalvesCopied alloc halves
  radius : alloc .radius = true
  address : MembersCopied alloc doc [("formatted_address", .locationDescribe)] ∧
    ∀ desc addressComponent, doc.getObjectItem "formatted_address" = some desc →
      doc.getObjectItem "addressComponent" = some addressComponent →
      MembersCopied alloc addressComponent amapv2Members

/-- The response says "OK" and lacks one of the members in front of the position,
or the position itself. -/
def OkWithoutPosition (doc : Json) : Prop :=
  (∃ info, doc.getObjectItem "info" = some info ∧ info.valuestring = some (cstr "OK")) ∧
    (doc.getObjectItem "status" = none ∨ doc.getObjectItem "infocode" = none ∨
      doc.getObjectItem "position" = none)

theorem decimal_fits (n : Int32) : Fits (decimal n) := by
  have hlen := decimal_length n
  exact ⟨hlen.1, by omega⟩

theorem amapv2Address_spec (alloc : RspMember → Bool) (doc : Json) (rsp : RspMembers) :
    ((amapv2Address alloc doc rsp).1 = .succeed ↔
      MembersCopied alloc doc [("formatted_address", .locationDescribe)] ∧
      ∀ desc addressComponent, doc.getObjectItem "formatted_address" = some desc →
        doc.getObjectItem "addressComponent" = some addressComponent →
        MembersCopied alloc addressComponent amapv2Members) ∧
    ∀ halves, Holds rsp halves → Holds (amapv2Address alloc doc rsp).2 halves := by
  simp only [amapv2Address, MembersCopied, List.forall_mem_singleton]
  cases hdesc : doc.getObjectItem "formatted_address" with
  | none => simp
  | some desc =>
    dsimp only
    cases hcopy : amapCopyLocationRsp (alloc .locationDescribe) desc.valuestring with
    | error e =>
      have hnot := amapCopy_ne_error hcopy
      refine ⟨iff_of_false (by simp) fun h => hnot (h.1 desc rfl), fun halves h => ?_⟩
      exact h.update (by decide) (by decide) _
    | ok v =>
      have hok := amapCopy_eq_ok_iff.mp hcopy
      cases hcomponent : doc.getObjectItem "addressComponent" with
      | none =>
        refine ⟨iff_of_true rfl ⟨?_, by simp⟩, fun halves h => h.update (by decide) (by decide) _⟩
        intro child h
        cases h
        exact ⟨v, hok⟩
      | some component =>
        have hmembers := copyMembers_whole_iff alloc component amapv2Members
          (Function.update rsp .locationDescribe (some v))
        constructor
        · constructor
          · intro h
            have hwhole : (copyMembers alloc component amapv2Members
                (Function.update rsp .locationDescribe (some v))).1 = true := by
              by_contra hnot
              simp [eventOf, hnot] at h
            refine ⟨?_, ?_⟩
            · intro child h
              cases h
              exact ⟨v, hok⟩
            · intro desc' component' _ h
              cases h
              exact hmembers.mp hwhole
          · intro h
            have hwhole := hmembers.mpr (h.2 desc component rfl rfl)
            simp [eventOf, hwhole]
        · intro halves h
          exact copyMembers_holds (h.update (by decide) (by decide) _) (by decide) (by decide)

theorem amapv2Copy_spec (alloc : RspMember → Bool) (doc radius : Json) (halves : CStr × CStr) :
    ((amapv2Copy alloc doc radius halves).1 = .succeed ↔
      HalvesCopied alloc halves ∧ alloc .radius = true ∧
      MembersCopied alloc doc [("formatted_address", .locationDescribe)] ∧
      ∀ desc addressComponent, doc.getObjectItem "formatted_address" = some desc →
        doc.getObjectItem "addressComponent" = some addressComponent →
        MembersCopied alloc addressComponent amapv2Members) ∧
    ((amapv2Copy alloc doc radius halves).1 = .succeed →
      Holds (amapv2Copy alloc doc radius halves).2 halves) := by
  have hpos := copyPosition_spec alloc halves
  simp only [amapv2Copy]
  cases hcopy : copyPosition alloc halves with
  | mk whole rsp =>
    rw [hcopy] at hpos
    cases whole with
    | false =>
      have hnot : ¬ HalvesCopied alloc halves := fun h => Bool.false_ne_true (hpos.1.mpr h)
      simp [hnot]
    | true =>
      dsimp only
      cases hradius : amapCopyLocationRsp (alloc .radius) (some (decimal radius.valueint)) with
      | error e =>
        have hnot : ¬ alloc .radius = true := fun h =>
          amapCopy_ne_error hradius ⟨_, rfl, decimal_fits _, h⟩
        simp [hnot]
      | ok v =>
        have halloc := (amapCopy_eq_ok_iff.mp hradius).2.2
        have haddress := amapv2Address_spec alloc doc (Function.update rsp .radius (some v))
        refine ⟨haddress.1.trans ?_, fun _ => haddress.2 halves ?_⟩
        · simp [hpos.1.mp rfl, halloc]
        · exact (hpos.2 rfl).update (by decide) (by decide) _

theorem amapv2Refusal_eq_succeed_iff {info : Option Json} :
    amapv2Refusal info = some .succeed ↔
      ∃ item, info = some item ∧ item.valuestring = some (cstr "OK") := by
  cases info with
  | none => simp [amapv2Refusal]
  | some item => simp [amapv2Refusal, rspcodeParse_eq_succeed_iff]

/-- Without one of its members the version 2 parser goes by the info text alone. -/
theorem amapv2Parse_of_missing {alloc : RspMember → Bool} {doc : Json}
    (h : doc.getObjectItem "status" = none ∨ doc.getObjectItem "info" = none ∨
      doc.getObjectItem "infocode" = none ∨ doc.getObjectItem "position" = none) :
    amapv2Parse alloc (some doc) =
      (amapv2Refusal (doc.getObjectItem "info")).map fun event => (event, noMembers) := by
  have hbind : ∀ refusal : Option AmapEvent,
      (refusal.bind fun event => some (event, noMembers)) =
        refusal.map fun event => (event, noMembers) := by
    intro refusal
    cases refusal <;> rfl
  simp only [amapv2Parse, Option.bind_eq_bind, hbind]
  split
  · rename_i hs hi hc hp
    simp [hs, hi, hc, hp] at h
  · rfl

theorem amapv2Parse_okWithoutPosition {alloc : RspMember → Bool} {doc : Json}
    (h : OkWithoutPosition doc) : amapv2Parse alloc (some doc) = some (.succeed, noMembers) := by
  obtain ⟨⟨info, hinfo, htext⟩, hmissing⟩ := h
  rw [amapv2Parse_of_missing, amapv2Refusal_eq_succeed_iff.mpr ⟨info, hinfo, htext⟩]
  · rfl
  · rcases hmissing with h | h | h
    · exact Or.inl h
    · exact Or.inr (Or.inr (Or.inl h))
    · exact Or.inr (Or.inr (Or.inr h))

theorem amapv2Parse_holds {alloc : RspMember → Bool} {doc : Json} {rsp : RspMembers}
    (h : amapv2Parse alloc (some doc) = some (.succeed, rsp)) :
    (OkWithoutPosition doc ∧ rsp = noMembers) ∨
      ∃ halves, V2Accepted alloc doc halves ∧ Holds rsp halves := by
  by_cases hmissing : doc.getObjectItem "status" = none ∨ doc.getObjectItem "info" = none ∨
      doc.getObjectItem "infocode" = none ∨ doc.getObjectItem "position" = none
  · left
    rw [amapv2Parse_of_missing hmissing, Option.map_eq_some_iff] at h
    obtain ⟨event, hevent, heq⟩ := h
    cases heq
    obtain ⟨info, hinfo, htext⟩ := amapv2Refusal_eq_succeed_iff.mp hevent
    refine ⟨⟨⟨info, hinfo, htext⟩, ?_⟩, rfl⟩
    simpa [hinfo] using hmissing
  · right
    simp only [not_or, ← Option.isSome_iff_ne_none, Option.isSome_iff_exists] at hmissing
    obtain ⟨⟨status, hs⟩, ⟨info, hi⟩, ⟨infocode, hc⟩, position, hp⟩ := hmissing
    simp only [amapv2Parse, hs, hi, hc, hp] at h
    split at h
    · rename_i location radius hl hr
      obtain ⟨text, ht, h⟩ := Option.bind_eq_some_iff.mp h
      split at h
      · cases h
      · rename_i halves hsplit
        have hspec := amapv2Copy_spec alloc doc radius halves
        rw [Option.some.inj h] at hspec
        have hcopied := hspec.1.mp rfl
        exact ⟨halves, ⟨⟨status, info, infocode, hs, hi, hc⟩,
          ⟨position, location, radius, text, hp, hl, hr, ht, hsplit⟩, hcopied.1, hcopied.2.1,
          hcopied.2.2⟩, hspec.2 rfl⟩
    · cases h

/-- The version 2 parser reports a success for the accepted responses, and also for
an "OK" that comes without a position. -/
theorem amapv2Parse_succeed_iff {alloc : RspMember → Bool} {doc : Json} :
    (∃ rsp, amapv2Parse alloc (some doc) = some (.succeed, rsp)) ↔
      OkWithoutPosition doc ∨ ∃ halves, V2Accepted alloc doc halves := by
  constructor
  · rintro ⟨rsp, h⟩
    rcases amapv2Parse_holds h with ⟨hok, -⟩ | ⟨halves, haccepted, -⟩
    · exact Or.inl hok
    · exact Or.inr ⟨halves, haccepted⟩
  · rintro (hok | ⟨halves, ⟨status, info, infocode, hs, hi, hc⟩,
      ⟨position, location, radius, text, hp, hl, hr, ht, hsplit⟩, hpos, hradius, haddress⟩)
    · exact ⟨noMembers, amapv2Parse_okWithoutPosition hok⟩
    · have hcopy := (amapv2Copy_spec _ _ radius _).1.mpr ⟨hpos, hradius, haddress⟩
      refine ⟨(amapv2Copy alloc doc radius halves).2, ?_⟩
      simp only [amapv2Parse, hs, hi, hc, hp, hl, hr, ht, hsplit, Option.bind_eq_bind,
        Option.bind_some]
      exact congrArg some (Prod.ext hcopy rfl)

end AmapParse
