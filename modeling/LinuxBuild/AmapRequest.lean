import LinuxBuild.BackendTypes

/-!
# The AMAP client and its request path

A request works on a copy of the session's credentials and UE information, and
renders it as the path of an HTTP request. The strings of the UE information end
inside their members. The path and the text to be signed are put together in
buffers of 1024 bytes and the serving cell in one of 64; a text that does not fit
is a fault, as is a `NULL` handed to a string function.
-/
namespace AmapRequest
open CString LbsTypes BackendTypes

/-- `cm_amap_ue_info_t` -/
structure AmapUeInfo where
  imei : CStr
  imsi : CStr
  cage : UInt32
  cellInfo : CellInfo
  networkType : Option CStr
  nearbts : Option CStr
  serverIp : Option CStr
  deriving DecidableEq

/-- `cm_amap_authentication_t` -/
structure AmapAuthentication where
  platform : LocationPlatform
  digitalSignEnable : Int32
  digitalSignKey : Option CStr
  apikey : Option CStr
  timeOut : Int32
  showFieldsEnable : Int32
  deriving DecidableEq

/-- Which of the copies of the UE information's strings are allocated. -/
structure UeAlloc where
  nearbts : Bool
  serverIp : Bool
  networkType : Bool

/-- The copies of the server address and of the network type are stored in
`nearbts`, whatever it holds by then; a failed allocation ends the copying. -/
def copyUeinfoTail (alloc : UeAlloc) (src des : AmapUeInfo) : AmapUeInfo :=
  match src.serverIp, alloc.serverIp with
  | some _, false => des
  | serverIp, _ =>
    let des := { des with nearbts := serverIp <|> des.nearbts }
    match src.networkType, alloc.networkType with
    | some _, false => des
    | networkType, _ => { des with nearbts := networkType <|> des.nearbts }

/-- `__cm_amap_copy_ueinfo` -/
def copyUeinfo (alloc : UeAlloc) (src : AmapUeInfo) : AmapUeInfo :=
  match src.nearbts, alloc.nearbts with
  | some _, false => src
  | _, _ => copyUeinfoTail alloc src src

/-- `__cm_amap_copy_auth`: without memory for a copy the pointer of the source is
kept, so the strings are the same either way. -/
def copyAuth (src : AmapAuthentication) : AmapAuthentication := src

/-- The parts of `cm_amap_t` that a request reads. -/
structure AmapClient where
  ueinfo : AmapUeInfo
  auth : AmapAuthentication
  deriving DecidableEq

/-- Which allocations for a new client succeed. -/
structure ClientAlloc where
  client : Bool
  ueinfo : Bool
  auth : Bool
  ue : UeAlloc

/-- `__cm_amap_create_by_attr` -/
def createByAttr (alloc : ClientAlloc) (auth : Option AmapAuthentication)
    (ueinfo : Option AmapUeInfo) : Option AmapClient :=
  match auth, ueinfo with
  | some auth, some ueinfo =>
    if alloc.client && alloc.ueinfo && alloc.auth then
      some ⟨copyUeinfo alloc.ue ueinfo, copyAuth auth⟩
    else none
  | _, _ => none

/-- `CM_AMAP_HTTPPATH_LENMAX` -/
def httpPathLenmax : Nat := 1024

/-- A text built in a buffer, with its terminator. -/
def inBuffer (size : Nat) (text : CStr) : Option CStr :=
  if text.length < size then some text else none

def param (name : String) (value : CStr) : CStr := cstr name ++ value

def optionalParam (name : String) : Option CStr → CStr
  | none => []
  | some value => param name value

/-- The serving cell; version 2 adds the age of the cell, printed as an `int`. -/
def bts (platform : LocationPlatform) (ue : AmapUeInfo) : CStr :=
  let cell := ue.cellInfo
  let fields := [decimal cell.mcc, decimal cell.mnc, cell.lac, cell.cellid, decimal cell.signal]
  param "&bts=" (List.intercalate (cstr ",")
    (if platform = .amap20 then fields ++ [decimal ue.cage.toInt32] else fields))

/-- The text of `__amav2deal_nearbts_create`. -/
def nearbtsText (nearBts : CStr) : CStr :=
  (nearBts.flatMap fun c => if c = 124 then cstr ",5" ++ [c] else [c]) ++ cstr ",5"

/-- `__amav2deal_nearbts_create` has 64 bytes for what it adds. -/
def amav2dealNearbtsCreate (alloc : Bool) (nearBts : CStr) : Option (Option CStr) :=
  if nearBts.length ≤ 5 then some none
  else if alloc then (inBuffer (nearBts.length + 64) (nearbtsText nearBts)).map some
  else some none

/-- The neighbour cells that a request of either version names. -/
def requestNearbts (platform : LocationPlatform) (alloc : Bool) (ue : AmapUeInfo) :
    Option (Option CStr) :=
  if platform = .amap20 then
    match ue.nearbts with
    | none => some none
    | some nearbts => amav2dealNearbtsCreate alloc nearbts
  else some ue.nearbts

/-- `CM_LBS_AMAPV1_PATH` and `CM_LBS_AMAPV2_PATH` -/
def pathHead (platform : LocationPlatform) : CStr :=
  if platform = .amap20 then cstr "/v5/position/IoT?" else cstr "/position?"

/-- The parameters in front of the key. -/
def paramsBeforeKey (platform : LocationPlatform) (ue : AmapUeInfo) : CStr :=
  cstr "accesstype=0" ++ bts platform ue ++ cstr "&cdma=0" ++ param "&imei=" ue.imei

/-- The parameters behind the key. -/
def paramsAfterKey (platform : LocationPlatform) (ue : AmapUeInfo) (nearbts : Option CStr)
    (showFieldsEnable : Int32) : CStr :=
  optionalParam "&nearbts=" nearbts ++ optionalParam "&network=" ue.networkType ++
    cstr "&output=json" ++ optionalParam "&serverip=" ue.serverIp ++
    if platform = .amap20 ∧ showFieldsEnable = 1 then
      cstr "&show_fields=formatted_address,addressComponent"
    else []

/-- `cm_lbs_md5` -/
def cmLbsMd5 (md5 : CStr → Digest) (input : CStr) : CStr := dataToHex (md5 input).bytes

/-- `__cm_amap_digital_signature`; the inner `none` is its failure for want of a
buffer, on which the path goes out unsigned. -/
def digitalSignature (md5 : CStr → Digest) (alloc : Bool) (requstParam : CStr)
    (signKey : Option CStr) : Option (Option CStr) :=
  if alloc then do
    let signKey ← signKey
    let text ← inBuffer httpPathLenmax (requstParam ++ signKey)
    some (some ((cmLbsMd5 md5 text).map tolower))
  else some none

/-- Which allocations for a request path succeed. -/
structure PathAlloc where
  nearbts : Bool
  signature : Bool

/-- `__cm_amapv1_create_requst_HttpPath` and `__cm_amapv2_create_requst_HttpPath`,
which put the same parameters together in the same order. -/
def signedPath (md5 : CStr → Digest) (alloc : PathAlloc) (ue : AmapUeInfo)
    (auth : AmapAuthentication) : Option CStr := do
  let _ ← inBuffer 64 (bts auth.platform ue)
  let apikey ← auth.apikey
  let nearbts ← requestNearbts auth.platform alloc.nearbts ue
  let params := paramsBeforeKey auth.platform ue ++ param "&key=" apikey ++
    paramsAfterKey auth.platform ue nearbts auth.showFieldsEnable
  let path ← inBuffer httpPathLenmax (pathHead auth.platform ++ params)
  if auth.digitalSignEnable = 0 then some path
  else
    let sig ← digitalSignature md5 alloc.signature params auth.digitalSignKey
    inBuffer httpPathLenmax (path ++ optionalParam "&sig=" sig)

/-- `__cm_amap_create_requst_HttpPath`; other platforms get no path. -/
def createRequstHttpPath (md5 : CStr → Digest) (alloc : PathAlloc) (ue : AmapUeInfo)
    (auth : AmapAuthentication) : Option (Except LbsState CStr) :=
  match auth.platform with
  | .amap10 | .amap20 => (signedPath md5 alloc ue auth).map .ok
  | _ => some (.error .err)

end AmapRequest
