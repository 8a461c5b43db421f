import LinuxBuild.ParserFaults

/-!
# From a response body to the application callback

The content event of either HTTP callback parses the body and hands the outcome to
the callback of the LBS layer, which translates it for the application. An
application that is told `CM_LBS_LOCATION_OK` reads the longitude and the latitude.
-/
namespace LocationDelivery
open CString LbsTypes CJson AmapParse OneosposParse ParserFaults

/-- `cm_lbs_callback_event_e` -/
inductive CallbackEvent where
  | locationOk
  | netErr
  | timeout
  | keyErr
  | paramInvalid
  | overDayquta
  | overQuota
  | overQps
  | unknowErr
  deriving DecidableEq, Repr

/-- `cm_lbs_location_rsp_t`; nothing sets its platform. -/
structure LocationRsp where
  state : CallbackEvent
  longitude : Option CStr
  latitude : Option CStr
  radius : Option CStr
  country : Option CStr
  province : Option CStr
  city : Option CStr
  citycode : Option CStr
  adcode : Option CStr
  poi : Option CStr
  locationDescribe : Option CStr
  deriving DecidableEq

/-- A cleared record; the state 0 is `CM_LBS_LOCATION_OK`. -/
def LocationRsp.zero : LocationRsp :=
  ⟨.locationOk, none, none, none, none, none, none, none, none, none, none⟩

/-- `cm_lbs_amap_location_rsp_t` -/
structure AmapLocationRsp where
  event : AmapEvent
  member : RspMembers

/-- What the application callback is called with, its own argument apart. -/
abbrev Delivery := CallbackEvent × Option LocationRsp

/-- The event that `__cm_lbs_amap_callback` reports for a failure. -/
def amapFailure : AmapEvent → CallbackEvent
  | .timeout => .timeout
  | .connectFaill => .netErr
  | .keyInvalid => .keyErr
  | .overDayquota => .overDayquta
  | .overAllquota => .overQuota
  | .overQps => .overQps
  | _ => .unknowErr

/-- `__cm_lbs_amap_callback`. When the record of the application cannot be
allocated only the local copy of the event changes, not what is reported. -/
def lbsAmapCallback (alloc : Bool) (rspEvent : AmapEvent) (rsp : Option AmapLocationRsp) :
    Delivery :=
  if rspEvent = .succeed then
    if alloc then
      match rsp with
      | none => (.locationOk, some .zero)
      | some rsp =>
        (.locationOk, some
          { state := .locationOk
            longitude := rsp.member .longitude
            latitude := rsp.member .latitude
            radius := rsp.member .radius
            country := rsp.member .country
            province := rsp.member .province
            city := rsp.member .city
            citycode := rsp.member .citycode
            adcode := rsp.member .adcode
            poi := rsp.member .poi
            locationDescribe := rsp.member .locationDescribe })
    else (.locationOk, none)
  else (amapFailure rspEvent, none)

/-- `cm_lbs_oneospos_callback`, which reads the record it is given on a success. -/
def lbsOneosposCallback (alloc : Bool) (event : OneosposEvent)
    (rsp : Option OneosposLocationRsp) : Option Delivery :=
  match event with
  | .success =>
    if alloc then
      rsp.map fun rsp =>
        (.locationOk, some
          { LocationRsp.zero with latitude := rsp.latitude, longitude := rsp.longitude })
    else some (.unknowErr, none)
  | .overRestrict => some (.overQps, none)
  | _ => some (.unknowErr, none)

/-- Which allocations on the way from the body to the application succeed. -/
structure RspAlloc where
  json : Bool
  locationRsp : Bool
  member : RspMember → Bool
  lbsLocationRsp : Bool

/-- What `cJSON_Parse` returns for a body that is a document, or for one that is not. -/
def RspAlloc.parsed (alloc : RspAlloc) (body : Option Json) : Option Json :=
  if alloc.json then body else none

/-- The call of `cb` for `CM_HTTP_CALLBACK_EVENT_RSP_CONTENT_IND` on AMAP. -/
def amapRspContent (platform : LocationPlatform) (alloc : RspAlloc) (body : Option Json) :
    Option (AmapEvent × Option AmapLocationRsp) :=
  if alloc.locationRsp then do
    let (event, member) ← amapHttpLocationParse platform alloc.member (alloc.parsed body)
    some (event, some ⟨event, member⟩)
  else some (.unknownErr, none)

/-- The call of `cb` for `CM_HTTP_CALLBACK_EVENT_RSP_CONTENT_IND` on OneOS. -/
def oneosposRspContent (alloc : RspAlloc) (body : Option Json) :
    Option (OneosposEvent × Option OneosposLocationRsp) :=
  if alloc.locationRsp then do
    let rsp ← oneosposHttpLocationParse alloc.member (alloc.parsed body)
    some (rsp.event, some rsp)
  else some (.unknow, none)

/-- From a body to the application; `none` is a fault on the way. -/
def deliver (platform : LocationPlatform) (alloc : RspAlloc) (doc : Json) : Option Delivery :=
  match platform with
  | .oneospos => do
    let (event, rsp) ← oneosposRspContent alloc (some doc)
    lbsOneosposCallback alloc.lbsLocationRsp event rsp
  | platform => do
    let (event, rsp) ← amapRspContent platform alloc (some doc)
    some (lbsAmapCallback alloc.lbsLocationRsp event rsp)

theorem lbsAmapCallback_ok_iff {alloc : Bool} {event : AmapEvent} {rsp : Option AmapLocationRsp} :
    (lbsAmapCallback alloc event rsp).1 = .locationOk ↔ event = .succeed := by
  simp only [lbsAmapCallback]
  split_ifs with h
  · cases rsp <;> simp [h]
  · simp [h]
  · cases event <;> simp_all [amapFailure]

theorem lbsOneosposCallback_ok {alloc : Bool} {event : OneosposEvent}
    {rsp : Option OneosposLocationRsp} {d : Delivery}
    (h : lbsOneosposCallback alloc event rsp = some d) (hok : d.1 = .locationOk) :
    event = .success ∧ ∃ r, rsp = some r ∧ d.2 = some
      { LocationRsp.zero with latitude := r.latitude, longitude := r.longitude } := by
  simp only [lbsOneosposCallback] at h
  split at h
  · split_ifs at h
    · obtain ⟨r, hr, heq⟩ := Option.map_eq_some_iff.mp h
      cases heq
      exact ⟨rfl, r, hr, rfl⟩
    · cases h
      cases hok
  · cases h
    cases hok
  · cases h
    cases hok

/-- The location text that a response contains. -/
def positionText (platform : LocationPlatform) (doc : Json) : Option CStr :=
  let path := match platform with
    | .amap10 => ("result", "location")
    | .oneospos => ("data", "pos")
    | _ => ("position", "location")
  do
    let item ← doc.getObjectItem path.1
    let position ← item.getObjectItem path.2
    position.valuestring

/-- The coordinates of a location in the order of the location text. -/
def coordinates (platform : LocationPlatform) (location : LocationRsp) :
    Option CStr × Option CStr :=
  match platform with
  | .oneospos => (location.latitude, location.longitude)
  | _ => (location.longitude, location.latitude)

/-- A delivery that says `CM_LBS_LOCATION_OK` carries both halves of the location
text of the response. -/
def Truthful (platform : LocationPlatform) (doc : Json) (d : Delivery) : Prop :=
  d.1 = .locationOk → ∃ location text halves, d.2 = some location ∧
    positionText platform doc = some text ∧ splitComma text = some halves ∧
    0 < halves.1.length ∧ 0 < halves.2.length ∧
    coordinates platform location = (some halves.1, some halves.2)

/-- The response is answered with a success that has no position. -/
def Misleading (platform : LocationPlatform) (alloc : RspAlloc) (doc : Json) : Prop :=
  alloc.json = true ∧ alloc.locationRsp = true ∧
  match platform with
  | .amap10 => alloc.lbsLocationRsp = false ∧ ∃ halves, V1Accepted alloc.member doc halves
  | .amap20 => OkWithoutPosition doc ∨
    (alloc.lbsLocationRsp = false ∧ ∃ halves, V2Accepted alloc.member doc halves)
  | _ => False

theorem oneospos_truthful {alloc : RspAlloc} {doc : Json} {d : Delivery}
    (h : deliver .oneospos alloc doc = some d) : Truthful .oneospos doc d := by
  intro hok
  obtain ⟨⟨event, rsp⟩, hcontent, hcallback⟩ := Option.bind_eq_some_iff.mp h
  obtain ⟨hevent, r, hr, hd⟩ := lbsOneosposCallback_ok hcallback hok
  cases hr
  simp only [oneosposRspContent] at hcontent
  split_ifs at hcontent with halloc
  · obtain ⟨r', hparse, heq⟩ := Option.bind_eq_some_iff.mp hcontent
    cases heq
    obtain ⟨doc', data, pos, text, halves, hparsed, hdata, hpos, htext, hsplit, hlat, hlon,
      hrsp⟩ := oneosposHttpLocationParse_success hparse hevent
    have hdoc : doc' = doc := by
      simp only [RspAlloc.parsed] at hparsed
      split_ifs at hparsed
      exact (Option.some.inj hparsed).symm
    cases hdoc
    refine ⟨_, text, halves, hd, ?_, hsplit, hlat, hlon, ?_⟩
    · simp [positionText, hdata, hpos, htext]
    · simp [coordinates, hrsp]
  · simp [hevent] at hcontent

theorem amap_deliver {platform : LocationPlatform} (hplatform : platform ≠ .oneospos)
    (alloc : RspAlloc) (doc : Json) :
    deliver platform alloc doc =
      (amapRspContent platform alloc (some doc)).map fun c =>
        lbsAmapCallback alloc.lbsLocationRsp c.1 c.2 := by
  cases platform with
  | oneospos => exact absurd rfl hplatform
  | amap10 => cases h : amapRspContent .amap10 alloc (some doc) <;> simp [deliver, h]
  | amap20 => cases h : amapRspContent .amap20 alloc (some doc) <;> simp [deliver, h]
  | other code => cases h : amapRspContent (.other code) alloc (some doc) <;> simp [deliver, h]

/-- On AMAP a success is reported exactly for the responses that parse as one. -/
theorem amap_deliver_ok_iff {platform : LocationPlatform} (hplatform : platform ≠ .oneospos)
    {alloc : RspAlloc} {doc : Json} {d : Delivery} :
    (deliver platform alloc doc = some d ∧ d.1 = .locationOk) ↔
      alloc.locationRsp = true ∧ ∃ member,
        amapHttpLocationParse platform alloc.member (alloc.parsed (some doc)) =
          some (.succeed, member) ∧
        d = lbsAmapCallback alloc.lbsLocationRsp .succeed (some ⟨.succeed, member⟩) := by
  rw [amap_deliver hplatform, Option.map_eq_some_iff]
  constructor
  · rintro ⟨⟨⟨event, rsp⟩, hcontent, rfl⟩, hok⟩
    have hevent := lbsAmapCallback_ok_iff.mp hok
    simp only [amapRspContent] at hcontent
    split_ifs at hcontent with halloc
    · obtain ⟨⟨event', member⟩, hparse, heq⟩ := Option.bind_eq_some_iff.mp hcontent
      cases heq
      cases hevent
      exact ⟨halloc, member, hparse, rfl⟩
    · cases hcontent
      cases hevent
  · rintro ⟨halloc, member, hparse, rfl⟩
    refine ⟨⟨(.succeed, some ⟨.succeed, member⟩), ?_, rfl⟩, lbsAmapCallback_ok_iff.mpr rfl⟩
    simp [amapRspContent, halloc, hparse]

theorem parse_succeed_iff {platform : LocationPlatform} {alloc : RspAlloc} {doc : Json}
    {member : RspMembers} :
    amapHttpLocationParse platform alloc.member (alloc.parsed (some doc)) =
        some (.succeed, member) ↔
      alloc.json = true ∧
        amapHttpLocationParse platform alloc.member (some doc) = some (.succeed, member) := by
  simp only [RspAlloc.parsed]
  split_ifs with hjson
  · simp [hjson]
  · cases platform <;> simp [hjson, amapHttpLocationParse, amapv1Parse, amapv2Parse]

/-- The record of a parsed response holds the halves of its location text. -/
def Positioned (platform : LocationPlatform) (doc : Json) (member : RspMembers) : Prop :=
  ∃ text halves, positionText platform doc = some text ∧ splitComma text = some halves ∧
    0 < halves.1.length ∧ 0 < halves.2.length ∧ Holds member halves

theorem amap_truthful_iff {platform : LocationPlatform} (hplatform : platform ≠ .oneospos)
    {alloc : RspAlloc} {doc : Json} :
    (∀ d, deliver platform alloc doc = some d → Truthful platform doc d) ↔
      (alloc.locationRsp = true → ∀ member,
        amapHttpLocationParse platform alloc.member (alloc.parsed (some doc)) =
          some (.succeed, member) →
        alloc.lbsLocationRsp = true ∧ Positioned platform doc member) := by
  have hcoordinates : ∀ location, coordinates platform location =
      (location.longitude, location.latitude) := by
    intro location
    cases platform with
    | oneospos => exact absurd rfl hplatform
    | amap10 => rfl
    | amap20 => rfl
    | other code => rfl
  constructor
  · intro h halloc member hparse
    have hdeliver := (amap_deliver_ok_iff hplatform).mpr ⟨halloc, member, hparse, rfl⟩
    obtain ⟨location, text, halves, hd, htext, hsplit, hfirst, hsecond, hhalves⟩ :=
      h _ hdeliver.1 hdeliver.2
    cases hlbs : alloc.lbsLocationRsp with
    | false => simp [lbsAmapCallback, hlbs] at hd
    | true =>
      refine ⟨rfl, text, halves, htext, hsplit, hfirst, hsecond, ?_⟩
      rw [hcoordinates] at hhalves
      simp only [lbsAmapCallback, hlbs, if_true, Option.some.injEq] at hd
      rw [← hd] at hhalves
      exact Prod.mk.inj hhalves
  · intro h d hdeliver hok
    obtain ⟨halloc, member, hparse, rfl⟩ :=
      (amap_deliver_ok_iff hplatform).mp ⟨hdeliver, hok⟩
    obtain ⟨hlbs, text, halves, htext, hsplit, hfirst, hsecond, hholds⟩ := h halloc member hparse
    refine ⟨_, text, halves, by rw [hlbs]; rfl, htext, hsplit, hfirst, hsecond, ?_⟩
    rw [hcoordinates]
    exact Prod.ext hholds.1 hholds.2

theorem positioned_of_v1Accepted {alloc : RspMember → Bool} {doc : Json} {halves : CStr × CStr}
    (h : V1Accepted alloc doc halves) {member : RspMembers} (hholds : Holds member halves) :
    Positioned .amap10 doc member := by
  obtain ⟨result, location, text, hr, hl, ht, hsplit, -⟩ := h.result
  refine ⟨text, halves, ?_, hsplit, h.position.1.1.1, h.position.2.1.1, hholds⟩
  simp [positionText, hr, hl, ht]

theorem positioned_of_v2Accepted {alloc : RspMember → Bool} {doc : Json} {halves : CStr × CStr}
    (h : V2Accepted alloc doc halves) {member : RspMembers} (hholds : Holds member halves) :
    Positioned .amap20 doc member := by
  obtain ⟨position, location, radius, text, hp, hl, -, ht, hsplit⟩ := h.location
  refine ⟨text, halves, ?_, hsplit, h.position.1.1.1, h.position.2.1.1, hholds⟩
  simp [positionText, hp, hl, ht]

theorem not_positioned_noMembers (platform : LocationPlatform) (doc : Json) :
    ¬ Positioned platform doc noMembers := by
  rintro ⟨text, halves, -, -, -, -, hlon, -⟩
  cases hlon

theorem amapv1_truthful_iff {alloc : RspAlloc} {doc : Json} :
    (∀ d, deliver .amap10 alloc doc = some d → Truthful .amap10 doc d) ↔
      ¬ Misleading .amap10 alloc doc := by
  rw [amap_truthful_iff LocationPlatform.noConfusion]
  constructor
  · rintro h ⟨hjson, halloc, hlbs, haccepted⟩
    obtain ⟨member, hparse⟩ := amapv1Parse_succeed_iff.mpr haccepted
    have hgood := h halloc member (parse_succeed_iff.mpr ⟨hjson, hparse⟩)
    exact Bool.false_ne_true (hlbs.symm.trans hgood.1)
  · intro h halloc member hparse
    obtain ⟨hjson, hdoc⟩ := parse_succeed_iff.mp hparse
    obtain ⟨halves, haccepted, hholds⟩ := amapv1Parse_holds hdoc
    refine ⟨?_, positioned_of_v1Accepted haccepted hholds⟩
    by_contra hlbs
    exact h ⟨hjson, halloc, Bool.eq_false_iff.mpr hlbs, halves, haccepted⟩

theorem amapv2_truthful_iff {alloc : RspAlloc} {doc : Json} :
    (∀ d, deliver .amap20 alloc doc = some d → Truthful .amap20 doc d) ↔
      ¬ Misleading .amap20 alloc doc := by
  rw [amap_truthful_iff LocationPlatform.noConfusion]
  constructor
  · rintro h ⟨hjson, halloc, hok | ⟨hlbs, haccepted⟩⟩
    · have hparse := @amapv2Parse_okWithoutPosition alloc.member _ hok
      have hgood := h halloc noMembers (parse_succeed_iff.mpr ⟨hjson, hparse⟩)
      exact not_positioned_noMembers _ _ hgood.2
    · obtain ⟨member, hparse⟩ := amapv2Parse_succeed_iff.mpr (Or.inr haccepted)
      have hgood := h halloc member (parse_succeed_iff.mpr ⟨hjson, hparse⟩)
      exact Bool.false_ne_true (hlbs.symm.trans hgood.1)
  · intro h halloc member hparse
    obtain ⟨hjson, hdoc⟩ := parse_succeed_iff.mp hparse
    rcases amapv2Parse_holds hdoc with ⟨hok, -⟩ | ⟨halves, haccepted, hholds⟩
    · exact absurd ⟨hjson, halloc, Or.inl hok⟩ h
    · refine ⟨?_, positioned_of_v2Accepted haccepted hholds⟩
      by_contra hlbs
      exact h ⟨hjson, halloc, Or.inr ⟨Bool.eq_false_iff.mpr hlbs, halves, haccepted⟩⟩

theorem reported_truthful_iff (platform : LocationPlatform) (alloc : RspAlloc) (doc : Json) :
    (∀ d, deliver platform alloc doc = some d → Truthful platform doc d) ↔
      ¬ Misleading platform alloc doc := by
  cases platform with
  | amap10 => exact amapv1_truthful_iff
  | amap20 => exact amapv2_truthful_iff
  | oneospos => exact iff_of_true (fun d => oneospos_truthful) fun h => h.2.2
  | other code =>
    refine iff_of_true ?_ fun h => h.2.2
    rw [amap_truthful_iff LocationPlatform.noConfusion]
    intro _ member hparse
    cases hparse

/-- What the parser of the platform needs of a document to come to its end. -/
def Readable (platform : LocationPlatform) (doc : Json) : Prop :=
  match platform with
  | .amap10 => V1Readable doc
  | .amap20 => V2Readable doc
  | .oneospos => OneosposReadable doc
  | .other _ => True

theorem amapHttpLocationParse_ne_none_iff {platform : LocationPlatform}
    (hplatform : platform ≠ .oneospos) (alloc : RspMember → Bool) (doc : Json) :
    amapHttpLocationParse platform alloc (some doc) ≠ none ↔ Readable platform doc := by
  cases platform with
  | oneospos => exact absurd rfl hplatform
  | amap10 => exact amapv1Parse_ne_none_iff alloc doc
  | amap20 => exact amapv2Parse_ne_none_iff alloc doc
  | other code => exact iff_of_true (Option.some_ne_none _) trivial

/-- Without a tree every parser comes to its end. -/
theorem amapHttpLocationParse_unparsed (platform : LocationPlatform) (alloc : RspMember → Bool) :
    amapHttpLocationParse platform alloc none ≠ none := by
  cases platform <;> exact Option.some_ne_none _

theorem amap_deliver_ne_none_iff {platform : LocationPlatform} (hplatform : platform ≠ .oneospos)
    (alloc : RspAlloc) (doc : Json) :
    deliver platform alloc doc ≠ none ↔
      (alloc.json = true ∧ alloc.locationRsp = true → Readable platform doc) := by
  rw [amap_deliver hplatform, Ne, Option.map_eq_none_iff]
  cases hrsp : alloc.locationRsp with
  | false => simp [amapRspContent, hrsp]
  | true =>
    have hcontent : amapRspContent platform alloc (some doc) = none ↔
        amapHttpLocationParse platform alloc.member (alloc.parsed (some doc)) = none := by
      simp only [amapRspContent, hrsp, if_true]
      cases amapHttpLocationParse platform alloc.member (alloc.parsed (some doc)) <;> simp
    rw [hcontent]
    cases hjson : alloc.json with
    | false =>
      have hparsed : alloc.parsed (some doc) = none := by simp [RspAlloc.parsed, hjson]
      rw [hparsed]
      exact iff_of_true (amapHttpLocationParse_unparsed _ _) fun h => absurd h.1 (by decide)
    | true =>
      have hparsed : alloc.parsed (some doc) = some doc := by simp [RspAlloc.parsed, hjson]
      rw [hparsed, ← amapHttpLocationParse_ne_none_iff hplatform alloc.member doc]
      simp

theorem oneospos_deliver_ne_none_iff (alloc : RspAlloc) (doc : Json) :
    deliver .oneospos alloc doc ≠ none ↔
      (alloc.json = true ∧ alloc.locationRsp = true → Readable .oneospos doc) := by
  -- the callback stops only on a success without a record, which no parser hands over
  have hcallback : ∀ event rsp,
      lbsOneosposCallback alloc.lbsLocationRsp event (some rsp) ≠ none := by
    intro event rsp
    simp only [lbsOneosposCallback]
    split
    · split_ifs <;> simp
    · simp
    · simp
  have hdeliver : deliver .oneospos alloc doc =
      (oneosposRspContent alloc (some doc)).bind fun content =>
        lbsOneosposCallback alloc.lbsLocationRsp content.1 content.2 := rfl
  cases hrsp : alloc.locationRsp with
  | false => simp [hdeliver, oneosposRspContent, hrsp, lbsOneosposCallback]
  | true =>
    have hcontent : deliver .oneospos alloc doc ≠ none ↔
        oneosposHttpLocationParse alloc.member (alloc.parsed (some doc)) ≠ none := by
      rw [hdeliver]
      cases hparse : oneosposHttpLocationParse alloc.member (alloc.parsed (some doc)) with
      | none => simp [oneosposRspContent, hrsp, hparse]
      | some rsp => simp [oneosposRspContent, hrsp, hparse, hcallback]
    rw [hcontent]
    cases hjson : alloc.json with
    | false => simp [RspAlloc.parsed, hjson, oneosposHttpLocationParse]
    | true =>
      have hparsed : alloc.parsed (some doc) = some doc := by simp [RspAlloc.parsed, hjson]
      rw [hparsed, oneosposHttpLocationParse_ne_none_iff]
      simp [Readable]

/-- The way from a body to the application comes to its end exactly for the responses
that are readable, or that no parser gets to see. -/
theorem deliver_ne_none_iff (platform : LocationPlatform) (alloc : RspAlloc) (doc : Json) :
    deliver platform alloc doc ≠ none ↔
      (alloc.json = true ∧ alloc.locationRsp = true → Readable platform doc) := by
  by_cases hplatform : platform = .oneospos
  · rw [hplatform]
    exact oneospos_deliver_ne_none_iff alloc doc
  · exact amap_deliver_ne_none_iff hplatform alloc doc

/-- Whatever the body and the allocations are, the way to the application comes to its
end there, and the application is told `CM_LBS_LOCATION_OK` with the position of the
response or not at all, unless the response stops its parser or is misleading in one of
the two ways. -/
theorem deliver_truthful_iff (platform : LocationPlatform) (alloc : RspAlloc) (doc : Json) :
    (∃ d, deliver platform alloc doc = some d ∧ Truthful platform doc d) ↔
      (alloc.json = true ∧ alloc.locationRsp = true → Readable platform doc) ∧
        ¬ Misleading platform alloc doc := by
  rw [← deliver_ne_none_iff, ← reported_truthful_iff]
  constructor
  · rintro ⟨d, hd, htruthful⟩
    refine ⟨ne_of_eq_of_ne hd (Option.some_ne_none d), fun d' hd' => ?_⟩
    rw [hd] at hd'
    cases hd'
    exact htruthful
  · rintro ⟨hends, htruthful⟩
    obtain ⟨d, hd⟩ := Option.ne_none_iff_exists'.mp hends
    exact ⟨d, hd, htruthful d hd⟩

/-- With every allocation successful AMAP 2.0 answers a body whose only member is
the info text "OK" with a success that has neither longitude nor latitude. -/
theorem amapv2_ok_without_position :
    let alloc : RspAlloc := ⟨true, true, fun _ => true, true⟩
    let doc : Json := .obj [(cstr "info", .str (cstr "OK"))]
    ∃ d, deliver .amap20 alloc doc = some d ∧ ¬ Truthful .amap20 doc d := by
  refine ⟨(.locationOk, some .zero), by decide, fun h => ?_⟩
  obtain ⟨location, text, halves, -, htext, -⟩ := h rfl
  have hnone : positionText .amap20 (.obj [(cstr "info", .str (cstr "OK"))]) = none := by decide
  rw [hnone] at htext
  cases htext

end LocationDelivery
