import LinuxBuild.CString

/-!
# Platforms, return codes and digests of the location service
-/
namespace LbsTypes
open CString

/-- `cm_lbs_location_platform_e`; every code without a back end is `other`. -/
inductive LocationPlatform where
  | amap10
  | amap20
  | oneospos
  | other (code : Int32)
  deriving DecidableEq, Repr

def LocationPlatform.ofCode (code : Int32) : LocationPlatform :=
  if code = 10 then .amap10 else if code = 11 then .amap20
  else if code = 40 then .oneospos else .other code

def LocationPlatform.code : LocationPlatform → Int32
  | .amap10 => 10
  | .amap20 => 11
  | .oneospos => 40
  | .other code => code

/-- `cm_lbs_state_e` -/
inductive LbsState where
  | ok
  | err
  | busy
  | paramErr
  | memroyErr
  | repeErr
  deriving DecidableEq, Repr

/-- The enumerator `CM_LBS_REPEERR` follows -4 and so has the value of
`CM_LBS_PARAMERR`. -/
def LbsState.code : LbsState → Int
  | .ok => 0
  | .err => -1
  | .busy => -2
  | .paramErr => -3
  | .memroyErr => -4
  | .repeErr => -3

/-- `cm_lbs_amap_location_attr_t`; a `NULL` pointer is `none`. -/
structure AmapLocationAttr where
  apiKey : Option CStr
  timeOut : Int32
  digitalSignEnable : Int32
  digitalKey : Option CStr
  showFieldsEnable : Int32
  nearbtsEnable : Int32
  deriving DecidableEq

/-- `cm_lbs_oneospos_attr_t` -/
structure OneosposLocationAttr where
  pid : Option CStr
  timeOut : Int32
  nearbtsEnable : Int32
  deriving DecidableEq

/-- `cm_lbs_nvconfig_t`; the location commands take its strings from inside their members. -/
structure NvConfig where
  oneospospid : Field 64
  amapv1key : Field 128
  amapv1signa : Field 128
  amapv2key : Field 128
  amapv2signa : Field 128
  amapv1signaEnable : Int32
  amapv2signaEnable : Int32
  deriving DecidableEq

/-- `strlen(key) < 1 || strcmp(key, "0") == 0` -/
def unconfigured (key : CStr) : Bool := key = [] || key = cstr "0"

/-- `cm_lbs_readnv_config`: its body is compiled out and it returns `CM_LBS_ERR`. -/
def cmLbsReadnvConfig : Option NvConfig := none

abbrev Digest := Field 16

def hexDigit (c : UInt8) : UInt8 := if c ≤ 9 then c + 48 else c + 65 - 10

/-- `__cm_lbs_atcmd_data_to_hex`, and `__cm_lbs_data_to_hex` of the platform file. -/
def dataToHex : List UInt8 → CStr
  | [] => []
  | b :: bs => hexDigit (b >>> 4) :: hexDigit (b &&& 15) :: dataToHex bs

/-- `cm_lbs_atcmd_md5` over an abstract MD5. -/
def atcmdMd5 (md5 : CStr → Digest) (input : CStr) : CStr := dataToHex (md5 input).bytes

end LbsTypes
