import LinuxBuild.AtConfig
import LinuxBuild.CBuffer
import LinuxBuild.LocationDelivery

/-!
# The report of a location command

A result is printed by the formatter of the platform that the configuration names when
the result arrives. The conversion of coordinates works on floating-point numbers; here
it is a function on the texts.
-/
namespace AtUrc
open CString LbsTypes AtConfig CBuffer LocationDelivery

/-- `cm_lbs_atcmd_statecode_e` -/
inductive AtcmdStatecode where
  | succed
  | timeout
  | keyerr
  | paraerr
  | overdayquta
  | overqps
  | overquta
  | unknownerr
  deriving DecidableEq, Repr

def AtcmdStatecode.code : AtcmdStatecode → Int32
  | .succed => 100
  | .timeout => 120
  | .keyerr => 121
  | .paraerr => 122
  | .overdayquta => 123
  | .overqps => 124
  | .overquta => 125
  | .unknownerr => 126

/-- The switch of `cm_lbs_atcmd_callback`. -/
def atcmdStatecode : CallbackEvent → AtcmdStatecode
  | .locationOk => .succed
  | .netErr => .unknownerr
  | .timeout => .timeout
  | .keyErr => .keyerr
  | .paramInvalid => .paraerr
  | .overDayquta => .overdayquta
  | .overQuota => .overquta
  | .overQps => .overqps
  | .unknowErr => .unknownerr

/-- The sizes of the buffers: a coordinate, the description, the report. -/
abbrev coordinateLen : Nat := 16
abbrev urcdescrlenMax : Nat := 2048 - 512
abbrev urclenMax : Nat := 2048

/-- The number of bytes in front of the first point. -/
def pointIndex (src : CStr) : Nat := (src.takeWhile (· ≠ 46)).length

/-- `decimal_len`, which is -1 without a point. -/
def decimalLen (src : CStr) : Int := src.length - pointIndex src - 1

/-- `cm_lbs_atcmd_string_assign_decimal` into a buffer of `n` bytes. Without a point
`p_doc` is `NULL`. -/
def stringAssignDecimal {n : Nat} (src : Option CStr) (out : Field n) (count : Int32) :
    Option (Field n) :=
  match src with
  | none => some out
  | some src =>
    if 8 < count then some out
    else do
      let out ← memcpy out src
      if decimalLen src = 8 then some out
      else if count.toInt < decimalLen src then
        if pointIndex src < src.length ∧ 0 ≤ pointIndex src + count.toInt + 1 then
          setNul out (pointIndex src + count.toInt + 1).toNat
        else none
      else if 8 < count.toInt - decimalLen src then some out
      else strcatTimes (cstr "0") (count.toInt - decimalLen src).toNat out

/-- Which allocations of a report succeed. -/
structure UrcEnv where
  urcbuf : Bool
  attr : Bool
  desrc : Bool

def urcHead (state : AtcmdStatecode) : CStr := cstr "\r\n+MLBSLOC: " ++ decimal state.code

/-- What `%s` prints for a string or for `NULL`. -/
def printed (s : Option CStr) : CStr := s.getD (cstr "(null)")

/-- What the AMAP formatter takes from the record. -/
def amapUrcConfig (dir : ConfigDir) (platform : LocationPlatform) : AmapConfig :=
  (atcmdReadAmapcfg dir platform).getD
    { AmapConfig.zero with
      descrMode := cmLbsDescrModeDefault
      precision := cmLbsPrecisionDefault }

/-- `__cm_lbs_atcmd_amap_location_urc_rsp`; a missing description has no length. -/
def amapLocationUrcRsp (env : UrcEnv) (dir : ConfigDir) (platform : LocationPlatform)
    (location : LocationRsp) (urcbuf : Field urclenMax) :
    Option (LbsState × Field urclenMax) :=
  if env.attr then do
    let attr := amapUrcConfig dir platform
    let latitude ← stringAssignDecimal location.latitude (Field.zero coordinateLen) attr.precision
    let longitude ← stringAssignDecimal location.longitude (Field.zero coordinateLen)
      attr.precision
    let lon ← string longitude
    let lat ← string latitude
    let urcbuf ← sprintf urcbuf (urcHead .succed ++ cstr "," ++ lon ++ cstr "," ++ lat ++
      cstr "," ++ printed location.radius)
    if attr.descrMode = 0 then some (.ok, urcbuf)
    else do
      let descr ← location.locationDescribe
      if urcdescrlenMax - 2 < descr.length then some (.err, urcbuf)
      else if env.desrc then do
        let locationDesrc ← sprintf (Field.zero urcdescrlenMax)
          (cstr ",\"" ++ descr ++ cstr "\"")
        let text ← string locationDesrc
        let urcbuf ← strcat urcbuf text
        some (.ok, urcbuf)
      else some (.err, urcbuf)
  else some (.err, urcbuf)

/-- What the OneOS formatter takes from the record. -/
def oneosposUrcConfig (dir : ConfigDir) : OneosposConfig :=
  (atcmdReadOneosposcfg dir).getD
    { OneosposConfig.zero with
      precision := cmLbsPrecisionDefault
      coordinateEnable := cmLbsOneosCoordinate }

/-- The latitude and the longitude in their buffers of 24 bytes, where they are copied
together or not at all. -/
def oneosposTexts (location : LocationRsp) : CStr × CStr :=
  match location.latitude, location.longitude with
  | some latitude, some longitude =>
    if latitude.length < 24 ∧ longitude.length < 24 then (latitude, longitude) else ([], [])
  | _, _ => ([], [])

/-- `__cm_lbs_atcmd_oneospos_location_urc_rsp`, where `convert` stands for the reading of
the numbers, `Wgs84ToGcj02` and the printing back into the buffers. -/
def oneosposLocationUrcRsp (convert : CStr × CStr → Option (CStr × CStr)) (dir : ConfigDir)
    (location : LocationRsp) (urcbuf : Field urclenMax) :
    Option (LbsState × Field urclenMax) := do
  let cfg := oneosposUrcConfig dir
  let texts ← if cfg.coordinateEnable = 1 then convert (oneosposTexts location)
    else some (oneosposTexts location)
  let latitude ← stringAssignDecimal (some texts.1) (Field.zero coordinateLen) cfg.precision
  let longitude ← stringAssignDecimal (some texts.2) (Field.zero coordinateLen) cfg.precision
  let lon ← string longitude
  let lat ← string latitude
  let urcbuf ← sprintf urcbuf (urcHead .succed ++ cstr "," ++ lon ++ cstr "," ++ lat)
  some (.ok, urcbuf)

/-- The formatter of the platform in the configuration. -/
def locationUrcFormat (convert : CStr × CStr → Option (CStr × CStr)) (env : UrcEnv)
    (dir : ConfigDir) (location : LocationRsp) (urcbuf : Field urclenMax) :
    Option (LbsState × Field urclenMax) :=
  let platform := atcmdGetplatform dir
  if platform = .oneospos then oneosposLocationUrcRsp convert dir location urcbuf
  else amapLocationUrcRsp env dir platform location urcbuf

/-- `cm_lbs_atcmd_location_urc_rsp`: the text of the report. The buffer is cleared
untested. -/
def atcmdLocationUrcRsp (convert : CStr × CStr → Option (CStr × CStr)) (env : UrcEnv)
    (dir : ConfigDir) (event : AtcmdStatecode) (location : Option LocationRsp) : Option CStr :=
  if env.urcbuf then
    if event = .succed then do
      let location ← location
      let (ret, urcbuf) ← locationUrcFormat convert env dir location (Field.zero urclenMax)
      if ret = .ok then string urcbuf else some (urcHead .unknownerr ++ cstr "\r\n")
    else some (urcHead event)
  else none

/-- The text of `src` with `count` decimals fits a coordinate buffer. -/
def Fits (count : Int32) (src : CStr) : Prop :=
  (src.length < coordinateLen ∧ (decimalLen src < count.toInt →
    count.toInt - decimalLen src ≤ 8 →
    src.length + (count.toInt - decimalLen src) < coordinateLen)) ∨
  (src.length = coordinateLen ∧ count.toInt < decimalLen src ∧ decimalLen src ≠ 8)

/-- A precision that `AT+MLBSCFG` accepts. -/
def InRange (count : Int32) : Prop := cmLbsPrecisionMin ≤ count ∧ count ≤ cmLbsPrecisionMax

theorem InRange.toInt {count : Int32} (h : InRange count) :
    1 ≤ count.toInt ∧ count.toInt ≤ 8 := by
  obtain ⟨hlow, hhigh⟩ := h
  rw [Int32.le_iff_toInt_le] at hlow hhigh
  exact ⟨hlow, hhigh⟩

theorem InRange.not_gt {count : Int32} (h : InRange count) : ¬ 8 < count := by
  rw [Int32.lt_iff_toInt_lt]
  have hcount := h.toInt
  have height : (8 : Int32).toInt = 8 := rfl
  omega

/-- The string that a coordinate buffer holds in the end. -/
def coordinateText (src : Option CStr) (count : Int32) : Option CStr := do
  let out ← stringAssignDecimal src (Field.zero coordinateLen) count
  string out

section Coordinate
variable {src : CStr} {count : Int32}

/-- With decimals to spare the terminator is set inside the copied text. -/
theorem coordinateText_truncated (hsrc : 0 ∉ src) (hcount : InRange count)
    (hlen : src.length ≤ coordinateLen) (hlong : count.toInt < decimalLen src)
    (height : decimalLen src ≠ 8) : coordinateText (some src) count ≠ none := by
  have hpos := hcount.toInt
  have hindex : pointIndex src + count.toInt + 1 < src.length := by
    have hdef : decimalLen src = src.length - pointIndex src - 1 := rfl
    omega
  have hguard : pointIndex src < src.length ∧ 0 ≤ pointIndex src + count.toInt + 1 := by omega
  have hcut : (pointIndex src + count.toInt + 1).toNat < src.length := by omega
  have hcopy : memcpy (Field.zero coordinateLen) src =
      some ((Field.zero coordinateLen).overwrite src hlen) := dif_pos hlen
  have htake : 0 ∉ ((Field.zero coordinateLen).overwrite src hlen).bytes.take
      (pointIndex src + count.toInt + 1).toNat := by
    change 0 ∉ (src ++ (Field.zero coordinateLen).bytes.drop src.length).take _
    rw [List.take_append_of_le_length hcut.le]
    exact fun hmem => hsrc (List.mem_of_mem_take hmem)
  obtain ⟨g, hg, hstring⟩ := setNul_of_lt (hcut.trans_le hlen) htake
  simp [coordinateText, stringAssignDecimal, hcount.not_gt, hcopy, height, hlong, hguard, hg,
    hstring]

/-- A string with room for its terminator is kept or filled up with zeros. -/
theorem coordinateText_short (hsrc : 0 ∉ src) (hcount : InRange count)
    (hlen : src.length < coordinateLen) (hlong : ¬ (count.toInt < decimalLen src ∧
      decimalLen src ≠ 8)) :
    coordinateText (some src) count ≠ none ↔ (decimalLen src < count.toInt →
      count.toInt - decimalLen src ≤ 8 →
      src.length + (count.toInt - decimalLen src) < coordinateLen) := by
  have hpos := hcount.toInt
  obtain ⟨g, hg, hstring⟩ := memcpy_zero_of_lt hsrc hlen
  by_cases height : decimalLen src = 8
  · refine iff_of_true ?_ (by omega)
    simp [coordinateText, stringAssignDecimal, hcount.not_gt, hg, height, hstring]
  have hnot : ¬ count.toInt < decimalLen src := fun h => hlong ⟨h, height⟩
  by_cases hpatch : 8 < count.toInt - decimalLen src
  · refine iff_of_true ?_ (by omega)
    simp [coordinateText, stringAssignDecimal, hcount.not_gt, hg, height, hnot, hpatch, hstring]
  have htext : coordinateText (some src) count =
      (strcatTimes (cstr "0") (count.toInt - decimalLen src).toNat g).bind string := by
    simp [coordinateText, stringAssignDecimal, hcount.not_gt, hg, height, hnot, hpatch]
  have hzero : (48 : UInt8) ≠ 0 := by decide
  rw [htext]
  by_cases hroom : src.length + (count.toInt - decimalLen src).toNat < coordinateLen
  · obtain ⟨g', hg', hstring'⟩ := strcatTimes_of_lt hzero hstring hroom
    refine iff_of_true ?_ (by omega)
    change (strcatTimes [48] _ g).bind string ≠ none
    simp [hg', hstring']
  · have hnone := strcatTimes_of_le hzero hstring (not_lt.mp hroom)
    refine iff_of_false ?_ (by omega)
    change ¬ (strcatTimes [48] _ g).bind string ≠ none
    simp [hnone]

/-- A string that fills the buffer is left without a terminator unless it is cut. -/
theorem coordinateText_full (hsrc : 0 ∉ src) (hcount : InRange count)
    (hlen : src.length = coordinateLen) (hlong : ¬ (count.toInt < decimalLen src ∧
      decimalLen src ≠ 8)) : coordinateText (some src) count = none := by
  obtain ⟨g, hg, -, hstring⟩ := @memcpy_of_eq _ (Field.zero coordinateLen) _ hsrc hlen
  by_cases height : decimalLen src = 8
  · simp [coordinateText, stringAssignDecimal, hcount.not_gt, hg, height, hstring]
  have hnot : ¬ count.toInt < decimalLen src := fun h => hlong ⟨h, height⟩
  by_cases hpatch : 8 < count.toInt - decimalLen src
  · simp [coordinateText, stringAssignDecimal, hcount.not_gt, hg, height, hnot, hpatch, hstring]
  have htext : coordinateText (some src) count =
      (strcatTimes (cstr "0") (count.toInt - decimalLen src).toNat g).bind string := by
    simp [coordinateText, stringAssignDecimal, hcount.not_gt, hg, height, hnot, hpatch]
  rw [htext]
  cases (count.toInt - decimalLen src).toNat with
  | zero => exact hstring
  | succ k =>
    rw [strcatTimes_of_unterminated hstring]
    rfl

theorem coordinateText_long (hcount : InRange count) (hlen : coordinateLen < src.length) :
    coordinateText (some src) count = none := by
  simp [coordinateText, stringAssignDecimal, hcount.not_gt, memcpy_of_lt hlen]

/-- A coordinate is put into its buffer without a fault exactly when it fits. -/
theorem coordinateText_ne_none_iff (hsrc : 0 ∉ src) (hcount : InRange count) :
    coordinateText (some src) count ≠ none ↔ Fits count src := by
  by_cases hlong : count.toInt < decimalLen src ∧ decimalLen src ≠ 8
  · rcases Nat.lt_or_ge coordinateLen src.length with hlen | hlen
    · rw [coordinateText_long hcount hlen]
      exact iff_of_false (fun h => h rfl) (by rintro (⟨hlt, -⟩ | ⟨heq, -⟩) <;> omega)
    · refine iff_of_true (coordinateText_truncated hsrc hcount hlen hlong.1 hlong.2) ?_
      rcases Nat.lt_or_ge src.length coordinateLen with hlt | hge
      · exact Or.inl ⟨hlt, fun h => absurd h (by omega)⟩
      · exact Or.inr ⟨le_antisymm hlen hge, hlong⟩
  · rcases Nat.lt_trichotomy src.length coordinateLen with hlen | hlen | hlen
    · rw [coordinateText_short hsrc hcount hlen hlong]
      constructor
      · exact fun h => Or.inl ⟨hlen, h⟩
      · rintro (⟨-, h⟩ | ⟨heq, -⟩)
        · exact h
        · exact absurd heq hlen.ne
    · rw [coordinateText_full hsrc hcount hlen hlong]
      refine iff_of_false (fun h => h rfl) ?_
      rintro (⟨hlt, -⟩ | ⟨-, h⟩)
      · exact absurd hlen hlt.ne
      · exact hlong h
    · rw [coordinateText_long hcount hlen]
      exact iff_of_false (fun h => h rfl) (by rintro (⟨hlt, -⟩ | ⟨heq, -⟩) <;> omega)

end Coordinate

/-- A formatter came to an end, and left a whole text if it says so. -/
def Reported (report : Option (LbsState × Field urclenMax)) : Prop :=
  ∃ ret urcbuf, report = some (ret, urcbuf) ∧ (ret = .ok → string urcbuf ≠ none)

theorem atcmdLocationUrcRsp_ne_none_iff {convert : CStr × CStr → Option (CStr × CStr)}
    {env : UrcEnv} {dir : ConfigDir} {location : LocationRsp} (henv : env.urcbuf = true) :
    atcmdLocationUrcRsp convert env dir .succed (some location) ≠ none ↔
      Reported (locationUrcFormat convert env dir location (Field.zero urclenMax)) := by
  simp only [atcmdLocationUrcRsp, henv, if_true, Option.bind_eq_bind, Option.bind_some]
  cases locationUrcFormat convert env dir location (Field.zero urclenMax) with
  | none => exact iff_of_false (fun h => h rfl) fun ⟨_, _, h, _⟩ => nomatch h
  | some report =>
    obtain ⟨ret, urcbuf⟩ := report
    simp only [Option.bind_some]
    by_cases hret : ret = .ok
    · rw [if_pos hret]
      constructor
      · exact fun h => ⟨ret, urcbuf, rfl, fun _ => h⟩
      · rintro ⟨_, _, heq, h⟩
        cases heq
        exact h hret
    · rw [if_neg hret]
      exact iff_of_true (Option.some_ne_none _) ⟨ret, urcbuf, rfl, fun h => absurd h hret⟩

/-- The text of a coordinate is what its buffer holds. -/
theorem coordinateText_eq_some {src : Option CStr} {count : Int32} {text : CStr}
    (h : coordinateText src count = some text) :
    ∃ out, stringAssignDecimal src (Field.zero coordinateLen) count = some out ∧
      string out = some text :=
  Option.bind_eq_some_iff.mp h

/-- The texts that are printed are short and have no terminator. -/
theorem coordinateText_bounds {src : Option CStr} {count : Int32} {text : CStr}
    (h : coordinateText src count = some text) : text.length ≤ 15 ∧ 0 ∉ text := by
  obtain ⟨out, -, hstring⟩ := coordinateText_eq_some h
  exact ⟨Nat.lt_succ_iff.mp (length_lt_of_string hstring), nul_notMem_of_string hstring⟩

/-- A string of 1 to 255 characters, as the AMAP parsers copy it. -/
def Member (v : Option CStr) : Prop :=
  ∃ s, v = some s ∧ 0 < s.length ∧ s.length ≤ 255 ∧ 0 ∉ s

theorem length_urcHead_succed : (urcHead .succed).length = 15 := by decide

theorem nul_notMem_urcHead_succed : 0 ∉ urcHead .succed := by decide

/-- The report of a position and a radius. -/
def amapUrcText (lon lat radius : CStr) : CStr :=
  urcHead .succed ++ cstr "," ++ lon ++ cstr "," ++ lat ++ cstr "," ++ radius

theorem amapUrcText_bounds {lon lat radius : CStr} (hlon : lon.length ≤ 15 ∧ 0 ∉ lon)
    (hlat : lat.length ≤ 15 ∧ 0 ∉ lat) (hradius : radius.length ≤ 255 ∧ 0 ∉ radius) :
    (amapUrcText lon lat radius).length < 304 ∧ 0 ∉ amapUrcText lon lat radius := by
  have hcomma : (cstr ",").length = 1 := rfl
  have hnul : 0 ∉ cstr "," := by decide
  constructor
  · simp only [amapUrcText, List.length_append, length_urcHead_succed, hcomma]
    omega
  · simp only [amapUrcText, List.mem_append, not_or]
    exact ⟨⟨⟨⟨⟨⟨nul_notMem_urcHead_succed, hnul⟩, hlon.2⟩, hnul⟩, hlat.2⟩, hnul⟩, hradius.2⟩

/-- With both coordinates in their buffers the AMAP report fits everywhere. -/
theorem amapLocationUrcRsp_reported {env : UrcEnv} {dir : ConfigDir}
    {platform : LocationPlatform} {location : LocationRsp} {urcbuf : Field urclenMax}
    {lon lat : CStr}
    (hlon : coordinateText location.longitude (amapUrcConfig dir platform).precision = some lon)
    (hlat : coordinateText location.latitude (amapUrcConfig dir platform).precision = some lat)
    (hradius : Member location.radius) (hdescr : Member location.locationDescribe) :
    Reported (amapLocationUrcRsp env dir platform location urcbuf) := by
  cases hattr : env.attr with
  | false => exact ⟨.err, urcbuf, by simp [amapLocationUrcRsp, hattr], fun h => nomatch h⟩
  | true =>
    obtain ⟨outLon, hassignLon, hstringLon⟩ := coordinateText_eq_some hlon
    obtain ⟨outLat, hassignLat, hstringLat⟩ := coordinateText_eq_some hlat
    obtain ⟨radius, hr, -, hrLen, hrNul⟩ := hradius
    obtain ⟨descr, hd, -, hdLen, hdNul⟩ := hdescr
    obtain ⟨htextLen, htextNul⟩ :=
      amapUrcText_bounds (coordinateText_bounds hlon) (coordinateText_bounds hlat) ⟨hrLen, hrNul⟩
    obtain ⟨g, hg, hstring⟩ := @sprintf_of_lt _ urcbuf _ htextNul (htextLen.trans (by decide))
    have hprinted : printed location.radius = radius := by simp [printed, hr]
    simp only [amapUrcText] at hg
    simp only [amapLocationUrcRsp, hattr, if_true, hassignLat, hassignLon, hstringLon, hstringLat,
      hprinted, hg, hd, Option.bind_eq_bind, Option.bind_some]
    have hurclen : urclenMax = 2048 := rfl
    have hurcdescrlen : urcdescrlenMax = 1536 := rfl
    have hdescrLen : (cstr ",\"" ++ descr ++ cstr "\"").length = descr.length + 3 := by
      have hopen : (cstr ",\"").length = 2 := rfl
      have hclose : (cstr "\"").length = 1 := rfl
      simp only [List.length_append, hopen, hclose]
      omega
    have hdescrNul : 0 ∉ cstr ",\"" ++ descr ++ cstr "\"" := by
      have hopen : 0 ∉ cstr ",\"" := by decide
      have hclose : 0 ∉ cstr "\"" := by decide
      simp only [List.mem_append, not_or]
      exact ⟨⟨hopen, hdNul⟩, hclose⟩
    obtain ⟨d, hdesrc, hdstring⟩ := @sprintf_of_lt _ (Field.zero urcdescrlenMax) _ hdescrNul
      (by omega)
    obtain ⟨g', hcat, hstring'⟩ := @strcat_of_lt _ g _ _ hstring hdescrNul (by omega)
    have hshort : ¬ urcdescrlenMax - 2 < descr.length := by omega
    split_ifs
    · exact ⟨_, _, rfl, fun _ => by simp [hstring]⟩
    · simp only [hdesrc, hdstring, hcat, Option.bind_some]
      exact ⟨_, _, rfl, fun _ => by simp [hstring']⟩
    · exact ⟨_, _, rfl, fun h => nomatch h⟩

/-- A coordinate that does not fit stops the report. -/
theorem amapLocationUrcRsp_texts {env : UrcEnv} {dir : ConfigDir} {platform : LocationPlatform}
    {location : LocationRsp} {urcbuf : Field urclenMax} (hattr : env.attr = true)
    (h : Reported (amapLocationUrcRsp env dir platform location urcbuf)) :
    coordinateText location.longitude (amapUrcConfig dir platform).precision ≠ none ∧
      coordinateText location.latitude (amapUrcConfig dir platform).precision ≠ none := by
  obtain ⟨ret, buf, hreport, -⟩ := h
  simp only [amapLocationUrcRsp, hattr, if_true] at hreport
  obtain ⟨latitude, hlat, hreport⟩ := Option.bind_eq_some_iff.mp hreport
  obtain ⟨longitude, hlon, hreport⟩ := Option.bind_eq_some_iff.mp hreport
  obtain ⟨lon, hlonText, hreport⟩ := Option.bind_eq_some_iff.mp hreport
  obtain ⟨lat, hlatText, -⟩ := Option.bind_eq_some_iff.mp hreport
  constructor
  · simp [coordinateText, hlon, hlonText]
  · simp [coordinateText, hlat, hlatText]

theorem oneosposLocationUrcRsp_reported_iff {convert : CStr × CStr → Option (CStr × CStr)}
    {dir : ConfigDir} {location : LocationRsp} {urcbuf : Field urclenMax}
    (hoff : (oneosposUrcConfig dir).coordinateEnable ≠ 1) :
    Reported (oneosposLocationUrcRsp convert dir location urcbuf) ↔
      coordinateText (some (oneosposTexts location).1) (oneosposUrcConfig dir).precision ≠ none ∧
      coordinateText (some (oneosposTexts location).2) (oneosposUrcConfig dir).precision ≠
        none := by
  constructor
  · rintro ⟨ret, buf, hreport, -⟩
    simp only [oneosposLocationUrcRsp, if_neg hoff, Option.bind_eq_bind, Option.bind_some]
      at hreport
    obtain ⟨latitude, hlat, hreport⟩ := Option.bind_eq_some_iff.mp hreport
    obtain ⟨longitude, hlon, hreport⟩ := Option.bind_eq_some_iff.mp hreport
    obtain ⟨lon, hlonText, hreport⟩ := Option.bind_eq_some_iff.mp hreport
    obtain ⟨lat, hlatText, -⟩ := Option.bind_eq_some_iff.mp hreport
    constructor
    · simp [coordinateText, hlat, hlatText]
    · simp [coordinateText, hlon, hlonText]
  · rintro ⟨hlat, hlon⟩
    obtain ⟨lat, hlat⟩ := Option.ne_none_iff_exists'.mp hlat
    obtain ⟨lon, hlon⟩ := Option.ne_none_iff_exists'.mp hlon
    obtain ⟨outLat, hassignLat, hstringLat⟩ := coordinateText_eq_some hlat
    obtain ⟨outLon, hassignLon, hstringLon⟩ := coordinateText_eq_some hlon
    obtain ⟨hlatLen, hlatNul⟩ := coordinateText_bounds hlat
    obtain ⟨hlonLen, hlonNul⟩ := coordinateText_bounds hlon
    have hcomma : (cstr ",").length = 1 := rfl
    have hurclen : urclenMax = 2048 := rfl
    have hlen : (urcHead .succed ++ cstr "," ++ lon ++ cstr "," ++ lat).length < urclenMax := by
      simp only [List.length_append, length_urcHead_succed, hcomma]
      omega
    have hnul : 0 ∉ urcHead .succed ++ cstr "," ++ lon ++ cstr "," ++ lat := by
      have hcommaNul : 0 ∉ cstr "," := by decide
      simp only [List.mem_append, not_or]
      exact ⟨⟨⟨⟨nul_notMem_urcHead_succed, hcommaNul⟩, hlonNul⟩, hcommaNul⟩, hlatNul⟩
    obtain ⟨g, hg, hstring⟩ := @sprintf_of_lt _ urcbuf _ hnul hlen
    refine ⟨.ok, g, ?_, fun _ => by simp [hstring]⟩
    simp only [oneosposLocationUrcRsp, if_neg hoff, Option.bind_eq_bind, Option.bind_some,
      hassignLat, hassignLon, hstringLat, hstringLon, hg]

/-- The precision in the record of the selected platform. -/
def urcPrecision (dir : ConfigDir) : Int32 :=
  if atcmdGetplatform dir = .oneospos then (oneosposUrcConfig dir).precision
  else (amapUrcConfig dir (atcmdGetplatform dir)).precision

/-- The coordinates as the formatter of the platform takes them. -/
def urcCoordinates (dir : ConfigDir) (location : LocationRsp) : CStr × CStr :=
  if atcmdGetplatform dir = .oneospos then oneosposTexts location
  else (location.latitude.getD [], location.longitude.getD [])

/-- A result that the parsers of the selected platform deliver; for OneOS with the
conversion switched off. -/
def Deliverable (dir : ConfigDir) (location : LocationRsp) : Prop :=
  if atcmdGetplatform dir = .oneospos then
    (oneosposUrcConfig dir).coordinateEnable ≠ 1 ∧
      (∀ s, location.latitude = some s → 0 ∉ s) ∧ ∀ s, location.longitude = some s → 0 ∉ s
  else Member location.latitude ∧ Member location.longitude ∧ Member location.radius ∧
    Member location.locationDescribe

theorem nul_notMem_oneosposTexts {location : LocationRsp}
    (hlat : ∀ s, location.latitude = some s → 0 ∉ s)
    (hlon : ∀ s, location.longitude = some s → 0 ∉ s) :
    0 ∉ (oneosposTexts location).1 ∧ 0 ∉ (oneosposTexts location).2 := by
  simp only [oneosposTexts]
  split
  · rename_i latitude longitude hlatitude hlongitude
    split_ifs
    · exact ⟨hlat _ hlatitude, hlon _ hlongitude⟩
    · exact ⟨List.not_mem_nil, List.not_mem_nil⟩
  · exact ⟨List.not_mem_nil, List.not_mem_nil⟩

/-- Every write of a report stays in its buffer exactly when both coordinates fit
theirs. -/
theorem urc_in_bounds_iff (convert : CStr × CStr → Option (CStr × CStr)) {dir : ConfigDir}
    {location : LocationRsp} (hlocation : Deliverable dir location)
    (hprecision : InRange (urcPrecision dir)) :
    (∀ env : UrcEnv, env.urcbuf = true →
      atcmdLocationUrcRsp convert env dir .succed (some location) ≠ none) ↔
      Fits (urcPrecision dir) (urcCoordinates dir location).1 ∧
        Fits (urcPrecision dir) (urcCoordinates dir location).2 := by
  by_cases hplatform : atcmdGetplatform dir = .oneospos
  · simp only [Deliverable, urcPrecision, urcCoordinates, if_pos hplatform] at *
    obtain ⟨hoff, hlat, hlon⟩ := hlocation
    obtain ⟨hlatNul, hlonNul⟩ := nul_notMem_oneosposTexts hlat hlon
    have hreport : ∀ env : UrcEnv, env.urcbuf = true →
        (atcmdLocationUrcRsp convert env dir .succed (some location) ≠ none ↔
          Fits (oneosposUrcConfig dir).precision (oneosposTexts location).1 ∧
            Fits (oneosposUrcConfig dir).precision (oneosposTexts location).2) := by
      intro env henv
      rw [atcmdLocationUrcRsp_ne_none_iff henv, locationUrcFormat, if_pos hplatform,
        oneosposLocationUrcRsp_reported_iff hoff, coordinateText_ne_none_iff hlatNul hprecision,
        coordinateText_ne_none_iff hlonNul hprecision]
    constructor
    · exact fun h => (hreport ⟨true, true, true⟩ rfl).mp (h _ rfl)
    · exact fun h env henv => (hreport env henv).mpr h
  · simp only [Deliverable, urcPrecision, urcCoordinates, if_neg hplatform] at *
    obtain ⟨⟨lat, hlat, -, -, hlatNul⟩, ⟨lon, hlon, -, -, hlonNul⟩, hradius, hdescr⟩ := hlocation
    have hformat : ∀ env, locationUrcFormat convert env dir location (Field.zero urclenMax) =
        amapLocationUrcRsp env dir (atcmdGetplatform dir) location (Field.zero urclenMax) :=
      fun env => if_neg hplatform
    rw [hlat, hlon, Option.getD_some, Option.getD_some,
      ← coordinateText_ne_none_iff hlatNul hprecision,
      ← coordinateText_ne_none_iff hlonNul hprecision]
    constructor
    · intro h
      have hreported := (atcmdLocationUrcRsp_ne_none_iff rfl).mp (h ⟨true, true, true⟩ rfl)
      rw [hformat] at hreported
      obtain ⟨hlonText, hlatText⟩ := amapLocationUrcRsp_texts rfl hreported
      exact ⟨hlat ▸ hlatText, hlon ▸ hlonText⟩
    · rintro ⟨hlatText, hlonText⟩ env henv
      obtain ⟨latText, hlatText⟩ := Option.ne_none_iff_exists'.mp hlatText
      obtain ⟨lonText, hlonText⟩ := Option.ne_none_iff_exists'.mp hlonText
      rw [atcmdLocationUrcRsp_ne_none_iff henv, hformat]
      exact amapLocationUrcRsp_reported (hlon ▸ hlonText) (hlat ▸ hlatText) hradius hdescr

/-- AMAP 1.0 is selected and five decimals are asked for. -/
def urcDir : ConfigDir where
  atcmd := some .amap10
  amapv10 := some { AmapConfig.zero with precision := 5, descrMode := 1 }
  amapv20 := none
  oneospos := none

def urcLocation (lon : CStr) : LocationRsp :=
  { LocationRsp.zero with
    longitude := some lon
    latitude := some (cstr "30.5422")
    radius := some (cstr "550")
    locationDescribe := some (cstr "Tianfu") }

theorem urcLocation_deliverable {lon : CStr} (hlen : 0 < lon.length ∧ lon.length ≤ 255)
    (hnul : 0 ∉ lon) : Deliverable urcDir (urcLocation lon) :=
  ⟨⟨_, rfl, by decide, by decide, by decide⟩, ⟨lon, rfl, hlen.1, hlen.2, hnul⟩,
    ⟨_, rfl, by decide, by decide, by decide⟩, ⟨_, rfl, by decide, by decide, by decide⟩⟩

theorem urcDir_precision : InRange (urcPrecision urcDir) := ⟨by decide, by decide⟩

/-- Coordinates with four decimals are filled up. -/
theorem urc_in_bounds_short :
    decimalLen (cstr "104.0601") < (urcPrecision urcDir).toInt ∧
      ∀ env : UrcEnv, env.urcbuf = true →
        atcmdLocationUrcRsp (fun _ => none) env urcDir .succed
          (some (urcLocation (cstr "104.0601"))) ≠ none := by
  have hlocation : Deliverable urcDir (urcLocation (cstr "104.0601")) :=
    urcLocation_deliverable (by decide) (by decide)
  refine ⟨by decide,
    (urc_in_bounds_iff _ hlocation urcDir_precision).mpr ⟨Or.inl ?_, Or.inl ?_⟩⟩
  · exact ⟨by decide, by decide⟩
  · exact ⟨by decide, by decide⟩

/-- A longitude of 18 characters is copied into 16 bytes before it is cut. -/
theorem urc_longitude_overflows :
    Deliverable urcDir (urcLocation (cstr "104.06012345678901")) ∧
      InRange (urcPrecision urcDir) ∧
      atcmdLocationUrcRsp (fun _ => none) ⟨true, true, true⟩ urcDir .succed
        (some (urcLocation (cstr "104.06012345678901"))) = none :=
  ⟨urcLocation_deliverable (by decide) (by decide), urcDir_precision, by decide⟩

end AtUrc
