import LinuxBuild.LbsTypes

/-!
# The AT configuration store

`AT+MLBSCFG` keeps four files: the selected platform and one record for AMAP 1.0,
AMAP 2.0 and OneOS. Every command reads a record, changes it in memory and writes
it back. File reads fail only on a missing file and writes succeed; allocations
succeed or fail as the caller's oracle says.
-/
namespace AtConfig
open CString LbsTypes

/-- `cm_lbs_atcmd_amap_config_t` -/
structure AmapConfig where
  apikey : Field 128
  signatureKey : Field 128
  signalEnable : Int32
  precision : Int32
  descrMode : Int32
  nearbtsEnable : Int32
  deriving DecidableEq

/-- `cm_lbs_atcmd_oneospos_config_t` -/
structure OneosposConfig where
  pid : Field 64
  precision : Int32
  nearbtsEnable : Int32
  coordinateEnable : Int32
  deriving DecidableEq

/-- What `cm_lbs_malloc` hands out: it clears the memory. -/
def AmapConfig.zero : AmapConfig := ⟨.zero 128, .zero 128, 0, 0, 0, 0⟩

def OneosposConfig.zero : OneosposConfig := ⟨.zero 64, 0, 0, 0⟩

/-- The record behind `apikey`, in memory order; the members need no padding. -/
def AmapConfig.behindApikey (r : AmapConfig) : List UInt8 :=
  r.signatureKey.bytes ++ intBytes r.signalEnable ++ intBytes r.precision ++
    intBytes r.descrMode ++ intBytes r.nearbtsEnable

def AmapConfig.behindSignatureKey (r : AmapConfig) : List UInt8 :=
  intBytes r.signalEnable ++ intBytes r.precision ++ intBytes r.descrMode ++
    intBytes r.nearbtsEnable

def OneosposConfig.behindPid (r : OneosposConfig) : List UInt8 :=
  intBytes r.precision ++ intBytes r.nearbtsEnable ++ intBytes r.coordinateEnable

/-- `(char *)attr->apikey`, as `strlen` and `strcmp` see it. -/
def AmapConfig.apikeyStr (r : AmapConfig) : CStr := cstringAt (r.apikey.bytes ++ r.behindApikey)

def AmapConfig.signatureKeyStr (r : AmapConfig) : CStr :=
  cstringAt (r.signatureKey.bytes ++ r.behindSignatureKey)

def OneosposConfig.pidStr (r : OneosposConfig) : CStr := cstringAt (r.pid.bytes ++ r.behindPid)

/-- The configuration directory; a missing file is `none`. -/
structure ConfigDir where
  atcmd : Option LocationPlatform
  amapv10 : Option AmapConfig
  amapv20 : Option AmapConfig
  oneospos : Option OneosposConfig
  deriving DecidableEq

def emptyDir : ConfigDir := ⟨none, none, none, none⟩

def cmLbsMethodDefault : LocationPlatform := .oneospos
def cmLbsPrecisionMin : Int32 := 1
def cmLbsPrecisionDefault : Int32 := 8
def cmLbsPrecisionMax : Int32 := 8
def cmLbsDescrModeMin : Int32 := 0
def cmLbsDescrModeDefault : Int32 := 0
def cmLbsDescrModeMax : Int32 := 1
def cmLbsSignatureEnDefault : Int32 := 0
def cmLbsNearbtsEnable : Int32 := 0
def cmLbsOneosCoordinate : Int32 := 1
def cmLbsOneosposInternalPid : CStr := cstr "m5CAIkqYGa"

theorem internalPid_length_le : cmLbsOneosposInternalPid.length ≤ 64 := by decide

/-- `cm_lbs_atcmd_getplatform` -/
def atcmdGetplatform (dir : ConfigDir) : LocationPlatform := dir.atcmd.getD cmLbsMethodDefault

def atcmdWriteAtcmdcfg (dir : ConfigDir) (platform : LocationPlatform) : ConfigDir :=
  { dir with atcmd := some platform }

/-- AMAP 1.0 has a file of its own; every other platform shares the AMAP 2.0 one. -/
def atcmdReadAmapcfg (dir : ConfigDir) (platform : LocationPlatform) : Option AmapConfig :=
  if platform = .amap10 then dir.amapv10 else dir.amapv20

def atcmdWriteAmapcfg (dir : ConfigDir) (platform : LocationPlatform) (cfg : AmapConfig) :
    ConfigDir :=
  if platform = .amap10 then { dir with amapv10 := some cfg } else { dir with amapv20 := some cfg }

def atcmdReadOneosposcfg (dir : ConfigDir) : Option OneosposConfig := dir.oneospos

def atcmdWriteOneosposcfg (dir : ConfigDir) (cfg : OneosposConfig) : ConfigDir :=
  { dir with oneospos := some cfg }

@[simp] theorem atcmdGetplatform_writeAmapcfg (dir : ConfigDir) (p : LocationPlatform)
    (r : AmapConfig) : atcmdGetplatform (atcmdWriteAmapcfg dir p r) = atcmdGetplatform dir := by
  simp only [atcmdWriteAmapcfg]
  split <;> rfl

@[simp] theorem atcmdGetplatform_writeOneosposcfg (dir : ConfigDir) (r : OneosposConfig) :
    atcmdGetplatform (atcmdWriteOneosposcfg dir r) = atcmdGetplatform dir := rfl

@[simp] theorem atcmdReadAmapcfg_write (dir : ConfigDir) (p : LocationPlatform)
    (r : AmapConfig) : atcmdReadAmapcfg (atcmdWriteAmapcfg dir p r) p = some r := by
  simp only [atcmdReadAmapcfg, atcmdWriteAmapcfg]
  split <;> rfl

@[simp] theorem atcmdReadOneosposcfg_write (dir : ConfigDir) (r : OneosposConfig) :
    atcmdReadOneosposcfg (atcmdWriteOneosposcfg dir r) = some r := rfl

/-- `cm_lbs_atcmd_option_e` without its null value. -/
inductive AtcmdOption where
  | method
  | apikey
  | precision
  | descrMode
  | signEnable
  | signKey
  | pid
  | nearbtsEnable
  | oneosInternalPid
  | oneosChangeCoordinate
  deriving DecidableEq, Repr

def optionInfo : List (AtcmdOption × CStr) :=
  [(.method, cstr "method"), (.apikey, cstr "apikey"), (.apikey, cstr "key"),
    (.precision, cstr "precision"), (.descrMode, cstr "format"), (.signEnable, cstr "signen"),
    (.signKey, cstr "signkey"), (.pid, cstr "pid"), (.nearbtsEnable, cstr "nearbtsen"),
    (.oneosInternalPid, cstr "oneosinternalpid"),
    (.oneosChangeCoordinate, cstr "oneoscoordinate")]

def subcmdToOption (subcmd : CStr) : Option AtcmdOption :=
  (optionInfo.find? fun info => subcmd = info.2).map Prod.fst

/-- An option together with the value its `void *` argument points to. -/
inductive Setting where
  | method (platform : LocationPlatform)
  | apikey (value : CStr)
  | precision (value : Int32)
  | descrMode (value : Int32)
  | signEnable (value : Int32)
  | signKey (value : CStr)
  | pid (value : CStr)
  | nearbtsEnable (value : Int32)
  | oneosChangeCoordinate (value : Int32)
  deriving DecidableEq

def Setting.option : Setting → AtcmdOption
  | .method _ => .method
  | .apikey _ => .apikey
  | .precision _ => .precision
  | .descrMode _ => .descrMode
  | .signEnable _ => .signEnable
  | .signKey _ => .signKey
  | .pid _ => .pid
  | .nearbtsEnable _ => .nearbtsEnable
  | .oneosChangeCoordinate _ => .oneosChangeCoordinate

/-- The copy into a key member is guarded by its size, terminator not counted. -/
def storeKey (n : Nat) (value : CStr) : Option (Field n) :=
  if h : value.length ≤ n then some (Field.store value h) else none

/-- The option switch of `__amap_cm_lbs_atcmd_setoption`. -/
def amapAssign (attr : AmapConfig) : Setting → Option AmapConfig
  | .apikey v => (storeKey 128 v).map fun key => { attr with apikey := key }
  | .signKey v => (storeKey 128 v).map fun key => { attr with signatureKey := key }
  | .precision n => some { attr with precision := n }
  | .descrMode n => some { attr with descrMode := n }
  | .signEnable n => some { attr with signalEnable := n }
  | .nearbtsEnable n => some { attr with nearbtsEnable := n }
  | _ => none

/-- The option switch of `__oneospos_cm_lbs_atcmd_setoption`. -/
def oneosposAssign (attr : OneosposConfig) : Setting → Option OneosposConfig
  | .pid v => (storeKey 64 v).map fun pid => { attr with pid := pid }
  | .precision n => some { attr with precision := n }
  | .nearbtsEnable n => some { attr with nearbtsEnable := n }
  | .oneosChangeCoordinate n => some { attr with coordinateEnable := n }
  | _ => none

/-- The allocations of one `AT+MLBSCFG` command. -/
inductive CfgSite where
  | attr
  | atcmdCfg

def amapSetoption (mem : CfgSite → Bool) (dir : ConfigDir) (s : Setting) : LbsState × ConfigDir :=
  let platform := atcmdGetplatform dir
  if !mem .attr then (.memroyErr, dir)
  else match s with
    | .method p =>
      if !mem .atcmdCfg then (.memroyErr, dir) else (.ok, atcmdWriteAtcmdcfg dir p)
    | s =>
      let attr := (atcmdReadAmapcfg dir platform).getD
        { AmapConfig.zero with
          precision := cmLbsPrecisionDefault
          descrMode := cmLbsDescrModeDefault
          signalEnable := cmLbsSignatureEnDefault }
      match amapAssign attr s with
      | none => (.paramErr, dir)
      | some attr' =>
        if platform = .amap10 ∨ platform = .amap20 then
          (.ok, atcmdWriteAmapcfg dir platform attr')
        else (.ok, dir)

def oneosposSetoption (mem : CfgSite → Bool) (dir : ConfigDir) (s : Setting) :
    LbsState × ConfigDir :=
  if !mem .attr then (.paramErr, dir)
  else
    let attr := (atcmdReadOneosposcfg dir).getD
      { OneosposConfig.zero with
        precision := cmLbsPrecisionDefault
        coordinateEnable := cmLbsOneosCoordinate }
    match oneosposAssign attr s with
    | none => (.paramErr, dir)
    | some attr' => (.ok, atcmdWriteOneosposcfg dir attr')

def atcmdSetoption (mem : CfgSite → Bool) (dir : ConfigDir) (s : Setting) : LbsState × ConfigDir :=
  if s.option = .method then amapSetoption mem dir s
  else if atcmdGetplatform dir = .oneospos then oneosposSetoption mem dir s
  else amapSetoption mem dir s

/-- `cm_lbs_atcmd_string_is_digital`. The length is an `int`, so of a string of 2^31
characters or more only a part is looked at, or nothing; the empty string passes. -/
def stringIsDigital (v : CStr) : Bool :=
  (v.take (Int32.ofNat v.length).toInt.toNat).all isDigit

/-- The check shared by the numeric subcommands: digits only, then `atoi` and a
range test. -/
def numberIn (lo hi : Int32) (v : CStr) : Option Int32 :=
  if stringIsDigital v then
    let n := atoi v
    if n < lo ∨ n > hi then none else some n
  else none

/-- The parameter checks of `cm_lbs_atcmd_MLBSCFG_set`; `none` is a refusal, whose log
`logsValue` tells. -/
def checkSetting (op : AtcmdOption) (v : CStr) : Option Setting :=
  match op with
  | .method =>
    if stringIsDigital v then
      let platform := LocationPlatform.ofCode (atoi v)
      if platform = .amap10 ∨ platform = .amap20 ∨ platform = .oneospos then
        some (.method platform)
      else none
    else none
  | .apikey => some (.apikey v)
  | .precision => (numberIn cmLbsPrecisionMin cmLbsPrecisionMax v).map .precision
  | .descrMode => (numberIn cmLbsDescrModeMin cmLbsDescrModeMax v).map .descrMode
  | .signEnable => (numberIn 0 1 v).map .signEnable
  | .signKey => some (.signKey v)
  | .pid => some (.pid v)
  | .nearbtsEnable => (numberIn 0 1 v).map .nearbtsEnable
  | .oneosChangeCoordinate => (numberIn 0 1 v).map .oneosChangeCoordinate
  | .oneosInternalPid => none

/-- Whether a refused value is logged with `%s` and the argument `(char)value`, that is
as a text at an address made of one byte. A `method` out of range is logged with `%d`, a
`nearbtsen` out of range not at all. -/
def logsValue (op : AtcmdOption) (v : CStr) : Bool :=
  match op with
  | .method | .nearbtsEnable => !stringIsDigital v
  | .precision | .descrMode | .signEnable | .oneosChangeCoordinate => true
  | .apikey | .signKey | .pid | .oneosInternalPid => false

/-- `cm_lbs_atcmd_MLBSCFG_set`; the code `none` is the fault of a log. -/
def mlbscfgSet (mem : CfgSite → Bool) (dir : ConfigDir) (subcmd : CStr) (value : Option CStr) :
    Option LbsState × ConfigDir :=
  match subcmdToOption subcmd, value with
  | some op, some v =>
    match checkSetting op v with
    | none => (if logsValue op v then none else some .paramErr, dir)
    | some s =>
      let (ret, dir) := atcmdSetoption mem dir s
      (some ret, dir)
  | _, _ => (some .paramErr, dir)

def reportHead (subcmd : CStr) : CStr := cstr "+MLBSCFG: \"" ++ subcmd ++ cstr "\","

/-- The option switch of `__cm_lbs_atcmd_amap_config_get`. -/
def amapReport (md5 : CStr → Digest) (platform : LocationPlatform) (attr : AmapConfig) :
    AtcmdOption → Option CStr
  | .method => some (decimal platform.code)
  | .apikey => some (atcmdMd5 md5 attr.apikeyStr)
  | .precision => some (decimal attr.precision)
  | .descrMode => some (decimal attr.descrMode)
  | .signEnable => some (decimal attr.signalEnable)
  | .signKey => some (atcmdMd5 md5 attr.signatureKeyStr)
  | .nearbtsEnable => some (decimal attr.nearbtsEnable)
  | _ => none

/-- The option switch of `__cm_lbs_atcmd_oneospos_config_get`. -/
def oneosposReport (md5 : CStr → Digest) (attr : OneosposConfig) : AtcmdOption → Option CStr
  | .pid => some (atcmdMd5 md5 attr.pidStr)
  | .precision => some (decimal attr.precision)
  | .nearbtsEnable => some (decimal attr.nearbtsEnable)
  | .oneosInternalPid => some (atcmdMd5 md5 cmLbsOneosposInternalPid)
  | .oneosChangeCoordinate => some (decimal attr.coordinateEnable)
  | _ => none

/-- The end of both getters: the head is in `at_send` before the option is known
to be one of the platform. -/
def finishReport (subcmd : CStr) : Option CStr → LbsState × Option CStr
  | some text => (.ok, some (reportHead subcmd ++ text))
  | none => (.paramErr, some (reportHead subcmd))

/-- The second component is the text left in `at_send`, `none` if it was not
written. -/
def amapConfigGet (md5 : CStr → Digest) (mem : CfgSite → Bool) (dir : ConfigDir)
    (subcmd : CStr) : LbsState × Option CStr :=
  match subcmdToOption subcmd with
  | none => (.paramErr, none)
  | some op =>
    let platform := atcmdGetplatform dir
    if !mem .attr then (.memroyErr, none)
    else
      let attr := (atcmdReadAmapcfg dir platform).getD
        { AmapConfig.zero with
          descrMode := cmLbsDescrModeDefault
          precision := cmLbsPrecisionDefault
          signalEnable := cmLbsSignatureEnDefault }
      finishReport subcmd (amapReport md5 platform attr op)

/-- Without a record the getter shows the built-in pid; the setter does not
start from it. -/
def oneosposConfigGet (md5 : CStr → Digest) (mem : CfgSite → Bool) (dir : ConfigDir)
    (subcmd : CStr) : LbsState × Option CStr :=
  match subcmdToOption subcmd with
  | none => (.paramErr, none)
  | some op =>
    if !mem .attr then (.memroyErr, none)
    else
      let attr := (atcmdReadOneosposcfg dir).getD
        { OneosposConfig.zero with
          precision := cmLbsPrecisionDefault
          coordinateEnable := cmLbsOneosCoordinate
          pid := Field.store cmLbsOneosposInternalPid internalPid_length_le }
      finishReport subcmd (oneosposReport md5 attr op)

/-- `cm_lbs_atcmd_MLBSCFG_get` -/
def mlbscfgGet (md5 : CStr → Digest) (mem : CfgSite → Bool) (dir : ConfigDir) (subcmd : CStr) :
    LbsState × Option CStr :=
  let platform := atcmdGetplatform dir
  if subcmdToOption subcmd = some .method then
    (.ok, some (reportHead subcmd ++ decimal platform.code))
  else if platform = .oneospos then oneosposConfigGet md5 mem dir subcmd
  else amapConfigGet md5 mem dir subcmd

/-- One `AT+MLBSCFG` set command as the AT layer passes it on: two C strings. -/
structure SetCommand where
  subcmd : CStr
  value : CStr
  valueTerminated : 0 ∉ value
  mem : CfgSite → Bool

def SetCommand.run (c : SetCommand) (dir : ConfigDir) : Option LbsState × ConfigDir :=
  mlbscfgSet c.mem dir c.subcmd (some c.value)

/-- The files outlive a command that faults: the next one finds them as it left them. -/
def runSets (dir : ConfigDir) : List SetCommand → ConfigDir
  | [] => dir
  | c :: cs => runSets (c.run dir).2 cs

end AtConfig
