import LinuxBuild.AtConfigRefinement

/-!
# The credentials of a location command

`AT+MLBSLOC` reads the record of the selected platform and hands its strings to
`cm_lbs_init`. A key that is empty or "0" counts as not configured: the NV record
is tried instead, and on OneOS the built-in pid after it. The strings are what
`cm_lbs_init` reads through the pointers it is given.
-/
namespace AtLocation
open CString LbsTypes AtConfig

/-- `cm_lbs_atcmd_errcode_e`, with the state code that one path returns in its
place. -/
inductive AtcmdErrcode where
  | success
  | netErr
  | apikeyNull
  | unknowErr
  | paraErr
  | busy
  | memroyErr
  deriving DecidableEq, Repr

def AtcmdErrcode.code : AtcmdErrcode → Int
  | .success => 100
  | .netErr => 101
  | .apikeyNull => 102
  | .unknowErr => 103
  | .paraErr => 104
  | .busy => 105
  | .memroyErr => LbsState.memroyErr.code

/-- The two NV entries of `__cm_lbs_atcmd_amap_setnv_config` differ in their
members only. -/
def setnvKeys (key signa : Field 128) (signaEnable : Int32) (cfg : AmapConfig) :
    Option AmapConfig :=
  if unconfigured key.text then none
  else if signaEnable = 1 && unconfigured signa.text then none
  else some { cfg with
    apikey := cfg.apikey.overwrite key.text key.text_length_le
    signalEnable := signaEnable
    signatureKey := cfg.signatureKey.overwrite signa.text signa.text_length_le }

def amapSetnvConfig (nv : Option NvConfig) (platform : LocationPlatform) (cfg : AmapConfig) :
    Option AmapConfig :=
  match nv with
  | none => none
  | some nv =>
    if platform = .amap10 then setnvKeys nv.amapv1key nv.amapv1signa nv.amapv1signaEnable cfg
    else if platform = .amap20 then
      setnvKeys nv.amapv2key nv.amapv2signa nv.amapv2signaEnable cfg
    else none

def oneosposSetnvConfig (nv : Option NvConfig) (cfg : OneosposConfig) : Option OneosposConfig :=
  match nv with
  | none => none
  | some nv =>
    if unconfigured nv.oneospospid.text then none
    else some { cfg with
      pid := cfg.pid.overwrite nv.oneospospid.text nv.oneospospid.text_length_le }

def cmLbsLoationTimeout : Int32 := 10

/-- `__cm_lbs_atcmd_amap_mlbsloc` between the network check and `cm_lbs_init`. -/
def amapMlbslocAttr (nv : Option NvConfig) (dir : ConfigDir) :
    Except AtcmdErrcode AmapLocationAttr :=
  let platform := atcmdGetplatform dir
  let res := atcmdReadAmapcfg dir platform
  let cfg := res.getD AmapConfig.zero
  let keyed := if unconfigured cfg.apikeyStr then amapSetnvConfig nv platform cfg else some cfg
  match keyed with
  | none => .error .apikeyNull
  | some cfg =>
    let cfg := if res.isSome then cfg else
      { cfg with
        descrMode := cmLbsDescrModeDefault
        precision := cmLbsPrecisionDefault
        nearbtsEnable := cmLbsNearbtsEnable }
    .ok
      { apiKey := some cfg.apikeyStr
        timeOut := cmLbsLoationTimeout
        digitalSignEnable := cfg.signalEnable
        digitalKey := some cfg.signatureKeyStr
        showFieldsEnable := cfg.descrMode
        nearbtsEnable := cfg.nearbtsEnable }

/-- The NV pid, or else the built-in one in a cleared member. -/
def oneosposFallbackPid (nv : Option NvConfig) (cfg : OneosposConfig) : OneosposConfig :=
  (oneosposSetnvConfig nv cfg).getD
    { cfg with pid := Field.store cmLbsOneosposInternalPid internalPid_length_le }

/-- `__cm_lbs_atcmd_oneospos_mlbsloc` between the network check and `cm_lbs_init`. -/
def oneosposMlbslocAttr (nv : Option NvConfig) (dir : ConfigDir) : OneosposLocationAttr :=
  let cfg := match atcmdReadOneosposcfg dir with
    | some cfg => cfg
    | none => oneosposFallbackPid nv
        { OneosposConfig.zero with
          precision := cmLbsPrecisionDefault
          nearbtsEnable := cmLbsNearbtsEnable
          coordinateEnable := cmLbsOneosCoordinate }
  let cfg := if unconfigured cfg.pidStr then oneosposFallbackPid nv cfg else cfg
  { pid := some cfg.pidStr, timeOut := 20, nearbtsEnable := cfg.nearbtsEnable }

end AtLocation
