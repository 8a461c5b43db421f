import LinuxBuild.AtConfigReport
import LinuxBuild.AtUrc

/-!
# What the ranges of a reachable configuration buy

The getters print every number into a buffer of four bytes, and the formatters of a
report hand the precision of a record to the decimal conversion. Both rely on the
ranges that the set commands keep.
-/
namespace AtConfigBounds
open CString LbsTypes AtConfig AtConfigRefinement AtConfigReport AtUrc CBuffer

/-- `char s[4] = {0}; sprintf(s, "%d", n)`, and the string that `strcat` takes from it. -/
def numberText (n : Int32) : Option CStr := do
  let buf ← sprintf (Field.zero 4) (decimal n)
  string buf

/-- The option switch of `__cm_lbs_atcmd_amap_config_get` with its buffers; the outer
`none` is a write that leaves one. -/
def amapReportBuffered (md5 : CStr → Digest) (platform : LocationPlatform) (attr : AmapConfig) :
    AtcmdOption → Option (Option CStr)
  | .method => (numberText platform.code).map some
  | .apikey => some (some (atcmdMd5 md5 attr.apikeyStr))
  | .precision => (numberText attr.precision).map some
  | .descrMode => (numberText attr.descrMode).map some
  | .signEnable => (numberText attr.signalEnable).map some
  | .signKey => some (some (atcmdMd5 md5 attr.signatureKeyStr))
  | .nearbtsEnable => (numberText attr.nearbtsEnable).map some
  | _ => some none

/-- The option switch of `__cm_lbs_atcmd_oneospos_config_get` with its buffers. -/
def oneosposReportBuffered (md5 : CStr → Digest) (attr : OneosposConfig) :
    AtcmdOption → Option (Option CStr)
  | .pid => some (some (atcmdMd5 md5 attr.pidStr))
  | .precision => (numberText attr.precision).map some
  | .nearbtsEnable => (numberText attr.nearbtsEnable).map some
  | .oneosInternalPid => some (some (atcmdMd5 md5 cmLbsOneosposInternalPid))
  | .oneosChangeCoordinate => (numberText attr.coordinateEnable).map some
  | _ => some none

/-- `cm_lbs_atcmd_MLBSCFG_get` with the buffers of the getters. -/
def mlbscfgGetBuffered (md5 : CStr → Digest) (mem : CfgSite → Bool) (dir : ConfigDir)
    (subcmd : CStr) : Option (LbsState × Option CStr) :=
  let platform := atcmdGetplatform dir
  match subcmdToOption subcmd with
  | none => some (.paramErr, none)
  | some op =>
    if op = .method then do
      let text ← numberText platform.code
      some (.ok, some (reportHead subcmd ++ text))
    else if !mem .attr then some (.memroyErr, none)
    else if platform = .oneospos then
      (oneosposReportBuffered md5 ((atcmdReadOneosposcfg dir).getD oneosposShown) op).map
        (finishReport subcmd)
    else (amapReportBuffered md5 platform (amapShown dir) op).map (finishReport subcmd)

/-- What holds of the files after any set commands. -/
structure Bounded (dir : ConfigDir) : Prop where
  platform : (atcmdGetplatform dir).code = 10 ∨ (atcmdGetplatform dir).code = 11 ∨
    (atcmdGetplatform dir).code = 40
  numbers : DirInRange dir
  getters : ∀ md5 mem sub, mlbscfgGetBuffered md5 mem dir sub = some (mlbscfgGet md5 mem dir sub)
  amapCount : ∀ p, InRange (amapUrcConfig dir p).precision
  oneosposCount : InRange (oneosposUrcConfig dir).precision

theorem numberText_of_lt {n : Int32} (hnul : 0 ∉ decimal n) (hlen : (decimal n).length < 4) :
    numberText n = some (decimal n) := by
  obtain ⟨buf, hbuf, hstring⟩ := @sprintf_of_lt 4 (Field.zero 4) (decimal n) hnul hlen
  rw [numberText, hbuf]
  exact hstring

theorem numberText_flag {n : Int32} (hn : Flag n) : numberText n = some (decimal n) := by
  rcases hn with rfl | rfl
  · exact numberText_of_lt (by decide) (by decide)
  · exact numberText_of_lt (by decide) (by decide)

theorem numberText_precision {n : Int32} (hn : PrecisionInRange n) :
    numberText n = some (decimal n) := by
  rcases precision_cases hn with rfl | rfl | rfl | rfl | rfl | rfl | rfl | rfl <;>
    exact numberText_of_lt (by decide) (by decide)

theorem code_cases {dir : ConfigDir} (hsel : Selected dir) :
    (atcmdGetplatform dir).code = 10 ∨ (atcmdGetplatform dir).code = 11 ∨
      (atcmdGetplatform dir).code = 40 := by
  rcases hsel with (h | h) | h
  · exact Or.inl (h ▸ rfl)
  · exact Or.inr (Or.inl (h ▸ rfl))
  · exact Or.inr (Or.inr (h ▸ rfl))

theorem numberText_code {dir : ConfigDir} (hsel : Selected dir) :
    numberText (atcmdGetplatform dir).code = some (decimal (atcmdGetplatform dir).code) := by
  rcases code_cases hsel with h | h | h <;> rw [h] <;>
    exact numberText_of_lt (by decide) (by decide)

theorem amapShown_inRange {dir : ConfigDir} (h : DirInRange dir) : AmapInRange (amapShown dir) :=
  readAmapcfg_inRange h _

theorem oneosposShown_inRange {dir : ConfigDir} (h : DirInRange dir) :
    OneosposInRange ((atcmdReadOneosposcfg dir).getD oneosposShown) := by
  cases hr : atcmdReadOneosposcfg dir with
  | none =>
    exact ⟨oneosposBase_inRange.precision, oneosposBase_inRange.nearbtsEnable,
      oneosposBase_inRange.coordinateEnable⟩
  | some r => exact h.oneospos r hr

theorem amapReportBuffered_eq {r : AmapConfig} (hr : AmapInRange r) {p : LocationPlatform}
    (hp : numberText p.code = some (decimal p.code)) (md5 : CStr → Digest) (op : AtcmdOption) :
    amapReportBuffered md5 p r op = some (amapReport md5 p r op) := by
  cases op with
  | method => exact congrArg (Option.map some) hp
  | precision => exact congrArg (Option.map some) (numberText_precision hr.precision)
  | descrMode => exact congrArg (Option.map some) (numberText_flag hr.descrMode)
  | signEnable => exact congrArg (Option.map some) (numberText_flag hr.signalEnable)
  | nearbtsEnable => exact congrArg (Option.map some) (numberText_flag hr.nearbtsEnable)
  | apikey | signKey | pid | oneosInternalPid | oneosChangeCoordinate => rfl

theorem oneosposReportBuffered_eq {r : OneosposConfig} (hr : OneosposInRange r)
    (md5 : CStr → Digest) (op : AtcmdOption) :
    oneosposReportBuffered md5 r op = some (oneosposReport md5 r op) := by
  cases op with
  | precision => exact congrArg (Option.map some) (numberText_precision hr.precision)
  | nearbtsEnable => exact congrArg (Option.map some) (numberText_flag hr.nearbtsEnable)
  | oneosChangeCoordinate => exact congrArg (Option.map some) (numberText_flag hr.coordinateEnable)
  | method | apikey | descrMode | signEnable | signKey | pid | oneosInternalPid => rfl

/-- With every number in its range no rendering leaves its buffer. -/
theorem mlbscfgGetBuffered_eq {dir : ConfigDir} (hsel : Selected dir) (h : DirInRange dir)
    (md5 : CStr → Digest) (mem : CfgSite → Bool) (sub : CStr) :
    mlbscfgGetBuffered md5 mem dir sub = some (mlbscfgGet md5 mem dir sub) := by
  cases hop : subcmdToOption sub with
  | none =>
    simp only [mlbscfgGetBuffered, mlbscfgGet, hop, amapConfigGet, oneosposConfigGet]
    split_ifs <;> first | rfl | contradiction
  | some op =>
    by_cases hmethod : op = .method
    · subst hmethod
      simp only [mlbscfgGetBuffered, mlbscfgGet, hop, if_true, numberText_code hsel]
      rfl
    · rcases hsel with hamap | honeos
      · have hno := hamap.ne_oneospos
        rw [mlbscfgGet_amap hamap hop hmethod, getRecord]
        simp only [mlbscfgGetBuffered, hop, if_neg hmethod, if_neg hno,
          amapReportBuffered_eq (amapShown_inRange h) (numberText_code (Or.inl hamap))]
        split_ifs <;> rfl
      · rw [mlbscfgGet_oneospos honeos hop hmethod, getRecord]
        simp only [mlbscfgGetBuffered, hop, if_neg hmethod, if_pos honeos,
          oneosposReportBuffered_eq (oneosposShown_inRange h)]
        split_ifs <;> rfl

theorem amapUrcConfig_count {dir : ConfigDir} (h : DirInRange dir) (p : LocationPlatform) :
    InRange (amapUrcConfig dir p).precision :=
  (readAmapcfg_inRange h p).precision

theorem oneosposUrcConfig_count {dir : ConfigDir} (h : DirInRange dir) :
    InRange (oneosposUrcConfig dir).precision :=
  (readOneosposcfg_inRange h).precision

theorem bounded_of_inRange {dir : ConfigDir} (hsel : Selected dir) (h : DirInRange dir) :
    Bounded dir where
  platform := code_cases hsel
  numbers := h
  getters := mlbscfgGetBuffered_eq hsel h
  amapCount := amapUrcConfig_count h
  oneosposCount := oneosposUrcConfig_count h

/-- After any set commands from the empty directory the platform and every number are in
range, the getters stay inside their buffers, and both formatters ask for 1 to 8
decimals. -/
theorem runSets_bounded (cs : List SetCommand) : Bounded (runSets emptyDir cs) :=
  bounded_of_inRange (runSets_simulates emptyDir_selected cs).2
    (runSets_inRange emptyDir_selected emptyDir_inRange cs)

end AtConfigBounds
