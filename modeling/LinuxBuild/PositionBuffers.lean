import LinuxBuild.AmapAcceptance
import LinuxBuild.CBuffer

/-!
# The position of a OneOS response in its two buffers

The text in front of the comma is copied without a terminator, the text behind it with
one. The buffers are cleared, so a half of 23 bytes is still a string there; one byte more
either fills the buffer to the brim or leaves it.
-/
namespace PositionBuffers
open CString LbsTypes CJson CBuffer AmapParse OneosposParse ParserFaults AmapAcceptance

/-- `__cm_location_string_parse_to_latitude_longitude` on the buffers of its caller. -/
def parseToLatitudeLongitude (pos : Option CStr) (latitude longitude : Field 24) :
    Option (LbsState × Field 24 × Field 24) :=
  match pos with
  | none => some (.paramErr, latitude, longitude)
  | some text =>
    match splitComma text with
    | none => some (.err, latitude, longitude)
    | some (front, behind) => do
      let latitude ← memcpy latitude front
      -- `p_tai - p_doc` counts the terminator in
      let longitude ← memcpy longitude (behind ++ [0])
      some (.ok, latitude, longitude)

/-- The parser behind the look-up of `pos`: the buffers are filled and copied. -/
def copyTemps (alloc : RspMember → Bool) (pos : Option CStr) : Option OneosposLocationRsp := do
  match ← parseToLatitudeLongitude pos (Field.zero 24) (Field.zero 24) with
  | (.ok, latitudeTemp, longitudeTemp) =>
    let latitudeText ← string latitudeTemp
    match oneosposCopyLocationRsp (alloc .latitude) (some latitudeText) with
    | .error _ => some (failed .unknow)
    | .ok latitude =>
      let longitudeText ← string longitudeTemp
      match oneosposCopyLocationRsp (alloc .longitude) (some longitudeText) with
      | .error _ => some ⟨.unknow, some latitude, none⟩
      | .ok longitude => some ⟨.success, some latitude, some longitude⟩
  | _ => some (failed .unknow)

/-- `__cm_oneospos_http_location_parse` with its buffers -/
def httpLocationParse (alloc : RspMember → Bool) (parsed : Option Json) :
    Option OneosposLocationRsp :=
  match parsed with
  | none => some (failed .unknow)
  | some doc =>
    match doc.getObjectItem "success" with
    | none => some (failed .unknow)
    | some success =>
      match success.isTrue, doc.getObjectItem "code", doc.getObjectItem "data" with
      | false, some code, _ => code.valuestring.map fun v => failed (findCallbackEventByReceive v)
      | false, none, _ => some (failed .unknow)
      | true, _, none => some (failed .unknow)
      | true, _, some data =>
        match data.getObjectItem "pos" with
        | none => some (failed .unknow)
        | some pos => copyTemps alloc pos.valuestring

section Buffers
variable {alloc : RspMember → Bool} {text front behind : CStr}

/-- The first half fits without a terminator, the second one only with it. -/
theorem parse_of_fits (hsplit : splitComma text = some (front, behind)) (hnul : 0 ∉ text)
    (hfront : front.length < 24) (hbehind : behind.length < 24) :
    ∃ f g, parseToLatitudeLongitude (some text) (Field.zero 24) (Field.zero 24) =
        some (.ok, f, g) ∧ string f = some front ∧ string g = some behind := by
  obtain ⟨rfl, -⟩ := splitComma_eq_some_iff.mp hsplit
  simp only [List.mem_append, List.mem_cons, not_or] at hnul
  obtain ⟨f, hf, hfstring⟩ := memcpy_zero_of_lt hnul.1 hfront
  obtain ⟨g, hg, hgstring⟩ := @sprintf_of_lt 24 (Field.zero 24) behind hnul.2.2 hbehind
  refine ⟨f, g, ?_, hfstring, hgstring⟩
  rw [sprintf] at hg
  simp only [parseToLatitudeLongitude, hsplit, hf, hg, Option.bind_eq_bind, Option.bind_some]

theorem copyTemps_of_fits (hsplit : splitComma text = some (front, behind)) (hnul : 0 ∉ text)
    (hfront : front.length < 24) (hbehind : behind.length < 24) :
    copyTemps alloc (some text) = some (oneosposCopy alloc (front, behind)) := by
  obtain ⟨f, g, hparse, hf, hg⟩ := parse_of_fits hsplit hnul hfront hbehind
  simp only [copyTemps, hparse, hf, hg, Option.bind_eq_bind, Option.bind_some, oneosposCopy]
  cases oneosposCopyLocationRsp (alloc .latitude) (some front) with
  | error e => rfl
  | ok latitude => cases oneosposCopyLocationRsp (alloc .longitude) (some behind) <;> rfl

/-- A first half of 24 bytes cannot be read back; a longer one, and a second half of 24
bytes, leave their buffer. -/
theorem copyTemps_of_long (hsplit : splitComma text = some (front, behind)) (hnul : 0 ∉ text)
    (hlong : ¬ (front.length < 24 ∧ behind.length < 24)) : copyTemps alloc (some text) = none := by
  obtain ⟨rfl, -⟩ := splitComma_eq_some_iff.mp hsplit
  simp only [List.mem_append, List.mem_cons, not_or] at hnul
  simp only [copyTemps, parseToLatitudeLongitude, hsplit]
  rcases lt_trichotomy front.length 24 with hfront | hfront | hfront
  · have hbehind : 24 ≤ behind.length := by omega
    have hwrite := @sprintf_of_le 24 (Field.zero 24) behind hbehind
    rw [sprintf] at hwrite
    obtain ⟨f, hf, -⟩ := memcpy_zero_of_lt hnul.1 hfront
    simp only [hf, hwrite, Option.bind_eq_bind, Option.bind_some, Option.bind_none]
  · obtain ⟨f, hf, -, hstring⟩ := @memcpy_of_eq 24 (Field.zero 24) front hnul.1 hfront
    simp only [hf, Option.bind_eq_bind, Option.bind_some]
    cases memcpy (Field.zero 24) (behind ++ [0]) with
    | none => rfl
    | some g => simp only [Option.bind_some, hstring, Option.bind_none]
  · have hwrite := @memcpy_of_lt 24 (Field.zero 24) front hfront
    simp only [hwrite, Option.bind_eq_bind, Option.bind_none]

theorem copyTemps_eq (alloc : RspMember → Bool) (pos : Option CStr)
    (hnul : ∀ text, pos = some text → 0 ∉ text) :
    copyTemps alloc pos = (stringParseToLatitudeLongitude pos).bind fun parts =>
      match parts with
      | .error _ => some (failed .unknow)
      | .ok halves => some (oneosposCopy alloc halves) := by
  cases pos with
  | none => rfl
  | some text =>
    cases hsplit : splitComma text with
    | none => simp [copyTemps, parseToLatitudeLongitude, stringParseToLatitudeLongitude, hsplit]
    | some halves =>
      simp only [stringParseToLatitudeLongitude, hsplit]
      by_cases hroom : halves.1.length < 24 ∧ halves.2.length < 24
      · rw [if_pos hroom, copyTemps_of_fits hsplit (hnul text rfl) hroom.1 hroom.2]
        rfl
      · rw [if_neg hroom, copyTemps_of_long hsplit (hnul text rfl) hroom]
        rfl

end Buffers

/-- With its buffers the parser does what it does on the halves themselves. -/
theorem httpLocationParse_eq (alloc : RspMember → Bool) (parsed : Option Json)
    (hnul : ∀ doc data text, parsed = some doc → doc.getObjectItem "data" = some data →
      HasText data "pos" text → 0 ∉ text) :
    httpLocationParse alloc parsed = oneosposHttpLocationParse alloc parsed := by
  cases parsed with
  | none => rfl
  | some doc =>
    simp only [httpLocationParse, oneosposHttpLocationParse]
    cases hsuccess : doc.getObjectItem "success" with
    | none => rfl
    | some success =>
      cases htrue : success.isTrue with
      | false => cases doc.getObjectItem "code" <;> simp only [htrue]
      | true =>
        cases hdata : doc.getObjectItem "data" with
        | none => simp only [htrue]
        | some data =>
          cases hpos : data.getObjectItem "pos" with
          | none => simp only [htrue, hpos]
          | some pos =>
            simp only [htrue, hpos]
            exact copyTemps_eq alloc pos.valuestring fun text htext =>
              hnul doc data text rfl hdata ⟨pos, hpos, htext⟩

/-- A successful response with this text in `data.pos`. -/
structure Positioned (doc : Json) (text : CStr) : Prop where
  success : ∃ success, doc.getObjectItem "success" = some success ∧ success.isTrue = true
  pos : ∃ data, doc.getObjectItem "data" = some data ∧ HasText data "pos" text
  nul : 0 ∉ text

theorem httpLocationParse_positioned {alloc : RspMember → Bool} {doc : Json} {text : CStr}
    (h : Positioned doc text) :
    httpLocationParse alloc (some doc) = copyTemps alloc (some text) := by
  obtain ⟨success, hsuccess, htrue⟩ := h.success
  obtain ⟨data, hdata, pos, hpos, htext⟩ := h.pos
  simp only [httpLocationParse, hsuccess, htrue, hdata, hpos, htext]

/-- The text is cut at its first comma into these halves. -/
def CutAt (text front behind : CStr) : Prop := text = front ++ 44 :: behind ∧ 44 ∉ front

/-- Both halves are there and at most 23 characters long. -/
def Usable (front behind : CStr) : Prop :=
  (front ≠ [] ∧ front.length ≤ 23) ∧ behind ≠ [] ∧ behind.length ≤ 23

/-- The parser stays inside its buffers and returns; it reports the two halves of a usable
position, and `CM_ONEOSPOS_EVENT_UNKNOW` for any other text. -/
def Exact (result : Option OneosposLocationRsp) (text : CStr) : Prop :=
  ∃ rsp, result = some rsp ∧
    (∀ front behind, CutAt text front behind → Usable front behind →
      rsp = ⟨.success, some front, some behind⟩) ∧
    ((¬ ∃ front behind, CutAt text front behind ∧ Usable front behind) → rsp.event = .unknow)

/-- No half is longer than 23 characters, and the copies of two usable ones get their
memory. -/
def Short (alloc : RspMember → Bool) (text : CStr) : Prop :=
  ∀ front behind, CutAt text front behind → front.length ≤ 23 ∧ behind.length ≤ 23 ∧
    (front ≠ [] → behind ≠ [] → alloc .latitude = true ∧ alloc .longitude = true)

theorem oneosposCopy_eq {alloc : RspMember → Bool} {front behind : CStr}
    (hfront : front.length ≤ 23) (hbehind : behind.length ≤ 23) :
    ((oneosposCopy alloc (front, behind)).event = .unknow ∨
      (oneosposCopy alloc (front, behind)).event = .success) ∧
    ((oneosposCopy alloc (front, behind)).event = .success ↔
      (front ≠ [] ∧ alloc .latitude = true) ∧ behind ≠ [] ∧ alloc .longitude = true) := by
  simp only [oneosposCopy, oneosposCopyLocationRsp, copyRsp, ← List.length_pos_iff]
  have hfront' : front.length < 64 := by omega
  have hbehind' : behind.length < 64 := by omega
  cases hlat : alloc .latitude <;> cases hlon : alloc .longitude <;>
    rcases Nat.eq_zero_or_pos front.length with hf | hf <;>
    rcases Nat.eq_zero_or_pos behind.length with hb | hb <;>
    simp [hf, hb, hfront', hbehind', failed]

theorem cutAt_iff {text front behind : CStr} :
    CutAt text front behind ↔ splitComma text = some (front, behind) :=
  splitComma_eq_some_iff.symm

/-- With halves that fit it only depends on the memory for the copies. -/
theorem exact_oneosposCopy_iff {alloc : RspMember → Bool} {text front behind : CStr}
    (hcut : CutAt text front behind) (hfront : front.length ≤ 23) (hbehind : behind.length ≤ 23) :
    Exact (some (oneosposCopy alloc (front, behind))) text ↔
      (front ≠ [] → behind ≠ [] → alloc .latitude = true ∧ alloc .longitude = true) := by
  have hcopy := @oneosposCopy_eq alloc front behind hfront hbehind
  have hunique : ∀ front' behind', CutAt text front' behind' →
      (front', behind') = (front, behind) :=
    fun _ _ hcut' => Option.some.inj ((cutAt_iff.mp hcut').symm.trans (cutAt_iff.mp hcut))
  constructor
  · rintro ⟨rsp, hrsp, husable, -⟩ hf hb
    cases hrsp
    have hsuccess := husable front behind hcut ⟨⟨hf, hfront⟩, hb, hbehind⟩
    have halloc := hcopy.2.mp (by rw [hsuccess])
    exact ⟨halloc.1.2, halloc.2.2⟩
  · intro halloc
    refine ⟨_, rfl, ?_, ?_⟩
    · rintro front' behind' hcut' ⟨⟨hf, -⟩, hb, -⟩
      cases hunique front' behind' hcut'
      obtain ⟨hlat, hlon⟩ := halloc hf hb
      exact (oneosposCopy_success (hcopy.2.mpr ⟨⟨hf, hlat⟩, hb, hlon⟩)).1
    · intro hnone
      refine hcopy.1.resolve_right fun hsuccess => hnone ?_
      obtain ⟨⟨hf, -⟩, hb, -⟩ := hcopy.2.mp hsuccess
      exact ⟨front, behind, hcut, ⟨hf, hfront⟩, hb, hbehind⟩

theorem short_iff {alloc : RspMember → Bool} {text front behind : CStr}
    (hcut : CutAt text front behind) :
    Short alloc text ↔ front.length ≤ 23 ∧ behind.length ≤ 23 ∧
      (front ≠ [] → behind ≠ [] → alloc .latitude = true ∧ alloc .longitude = true) := by
  constructor
  · exact fun hshort => hshort front behind hcut
  · intro h front' behind' hcut'
    cases (cutAt_iff.mp hcut').symm.trans (cutAt_iff.mp hcut)
    exact h

/-- The parser is exact for the positions with short halves, and for no others. -/
theorem httpLocationParse_exact_iff (alloc : RspMember → Bool) (doc : Json) (text : CStr)
    (h : Positioned doc text) :
    Exact (httpLocationParse alloc (some doc)) text ↔ Short alloc text := by
  rw [httpLocationParse_positioned h]
  cases hsplit : splitComma text with
  | none =>
    have hparse : copyTemps alloc (some text) = some (failed .unknow) := by
      rw [copyTemps_eq alloc _ fun _ htext => Option.some.inj htext ▸ h.nul]
      simp [stringParseToLatitudeLongitude, hsplit]
    simp [Exact, Short, cutAt_iff, hsplit, hparse, failed]
  | some halves =>
    obtain ⟨front, behind⟩ := halves
    have hcut := cutAt_iff.mpr hsplit
    rw [short_iff hcut]
    by_cases hroom : front.length < 24 ∧ behind.length < 24
    · have hfront : front.length ≤ 23 := by omega
      have hbehind : behind.length ≤ 23 := by omega
      rw [copyTemps_of_fits hsplit h.nul hroom.1 hroom.2,
        exact_oneosposCopy_iff hcut hfront hbehind]
      simp only [hfront, hbehind, true_and]
    · rw [copyTemps_of_long hsplit h.nul hroom]
      refine iff_of_false ?_ ?_
      · rintro ⟨rsp, hrsp, -⟩
        cases hrsp
      · rintro ⟨hfront, hbehind, -⟩
        omega

/-- A successful response with this position. -/
def positioned (pos : CStr) : Json :=
  .obj [(cstr "success", .bool true), (cstr "data", .obj [(cstr "pos", .str pos)])]

theorem positioned_positioned {pos : CStr} (hnul : 0 ∉ pos) : Positioned (positioned pos) pos :=
  ⟨⟨_, rfl, rfl⟩, ⟨_, rfl, _, rfl, rfl⟩, hnul⟩

theorem httpLocationParse_exact_wuxi :
    Exact (httpLocationParse (fun _ => true) (some (positioned (cstr "31.5,120.3"))))
      (cstr "31.5,120.3") :=
  (httpLocationParse_exact_iff _ _ _ (positioned_positioned (by decide))).mpr
    fun front behind hcut => by
      obtain ⟨rfl, rfl⟩ : front = cstr "31.5" ∧ behind = cstr "120.3" := by
        have heq : some (cstr "31.5", cstr "120.3") = some (front, behind) :=
          cutAt_iff.mp hcut
        cases heq
        exact ⟨rfl, rfl⟩
      decide

/-- A latitude of 24 digits loses its terminator, and a longitude of 24 digits leaves its
buffer; the parser does not return for either. -/
theorem httpLocationParse_brim :
    ¬ Exact (httpLocationParse (fun _ => true)
        (some (positioned (cstr "31.500000000000000000000,120.3"))))
      (cstr "31.500000000000000000000,120.3") ∧
    ¬ Exact (httpLocationParse (fun _ => true)
        (some (positioned (cstr "31.5,120.30000000000000000000"))))
      (cstr "31.5,120.30000000000000000000") := by
  constructor
  · rintro ⟨rsp, hrsp, -⟩
    cases hrsp
  · rintro ⟨rsp, hrsp, -⟩
    cases hrsp

end PositionBuffers
