import LinuxBuild.AmapRequest

/-!
# The AMAP session record

`cm_lbs_init` copies the caller's keys into a session record that lives until the
request is answered.
-/
namespace LbsSession
open CString LbsTypes AmapRequest

/-- Which allocations of `cm_lbs_init_amap` succeed. -/
structure InitAmapAlloc where
  attr : Bool
  auth : Bool
  apikey : Bool
  digitalKey : Bool

/-- `strncpy(dst, src, n)` into `n + 1` cleared bytes. -/
def strncpy (src : CStr) (n : Nat) : CStr := src.take n

/-- `__cm_lbs_copy_amap_authentication_by_attr`. The length of both copies is the
length of the api key; without one there is no length to take. -/
def copyAmapAuthenticationByAttr (alloc : InitAmapAlloc) (platform : LocationPlatform)
    (attr : AmapLocationAttr) : Option AmapAuthentication :=
  let auth : AmapAuthentication :=
    { platform := platform
      digitalSignEnable := attr.digitalSignEnable
      digitalSignKey := none
      apikey := if alloc.apikey then attr.apiKey else none
      timeOut := attr.timeOut
      showFieldsEnable := attr.showFieldsEnable }
  match attr.digitalKey, attr.apiKey with
  | none, _ => some auth
  | some _, none => none
  | some digitalKey, some apiKey =>
    some { auth with
      digitalSignKey := if alloc.digitalKey then some (strncpy digitalKey apiKey.length) else none }

/-- The parts of the session record `s_amap_attr` that are set before its request. -/
structure AmapAttr where
  auth : AmapAuthentication
  nearbtsEnable : Int32
  deriving DecidableEq

/-- `cm_lbs_init_amap` -/
def initAmap (alloc : InitAmapAlloc) (sAmapAttr : Option AmapAttr) (platform : LocationPlatform)
    (attr : Option AmapLocationAttr) : Option (Int × Option AmapAttr) :=
  match sAmapAttr, attr with
  | some _, _ => some (-2, sAmapAttr)
  | none, none => some (-1, none)
  | none, some attr =>
    if alloc.attr && alloc.auth then do
      let auth ← copyAmapAuthenticationByAttr alloc platform attr
      some (0, some ⟨auth, attr.nearbtsEnable⟩)
    else some (-2, none)

end LbsSession
