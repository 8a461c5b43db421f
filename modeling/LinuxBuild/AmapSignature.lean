import LinuxBuild.LbsSession

/-!
# The keys of a signed request

The caller's keys go through the copy of `cm_lbs_init` and the copy of
`cm_amap_location` into the path of the request. Allocations succeed here, and the
complete request fits the buffers of 1024 bytes.
-/
namespace AmapSignature
open CString LbsTypes BackendTypes AmapRequest LbsSession

/-- The client that `cm_amap_location` makes of a session opened with `attr`. -/
def sessionClient (platform : LocationPlatform) (attr : AmapLocationAttr) (ue : AmapUeInfo) :
    Option AmapClient := do
  let (_, sAmapAttr) ← initAmap ⟨true, true, true, true⟩ none platform (some attr)
  let session ← sAmapAttr
  createByAttr ⟨true, true, true, ⟨true, true, true⟩⟩ (some session.auth) (some ue)

/-- The path of its request. -/
def sessionPath (md5 : CStr → Digest) (platform : LocationPlatform) (attr : AmapLocationAttr)
    (ue : AmapUeInfo) : Option CStr := do
  let client ← sessionClient platform attr ue
  match ← createRequstHttpPath md5 ⟨true, true⟩ client.ueinfo client.auth with
  | .ok path => some path
  | .error _ => none

/-- The UE information of the client. -/
def clientUe (ue : AmapUeInfo) : AmapUeInfo := copyUeinfo ⟨true, true, true⟩ ue

/-- The neighbour cells of a request whose buffers suffice. -/
def shownNearbts (platform : LocationPlatform) (ue : AmapUeInfo) : Option CStr :=
  if platform = .amap20 then
    ue.nearbts.bind fun n => if n.length ≤ 5 then none else some (nearbtsText n)
  else ue.nearbts

/-- The request parameters with the key `apiKey`. -/
def requestParams (platform : LocationPlatform) (ue : AmapUeInfo) (apiKey : CStr)
    (showFieldsEnable : Int32) : CStr :=
  paramsBeforeKey platform ue ++ param "&key=" apiKey ++
    paramsAfterKey platform ue (shownNearbts platform ue) showFieldsEnable

def lowerHexMd5 (md5 : CStr → Digest) (text : CStr) : CStr := (cmLbsMd5 md5 text).map tolower

/-- The request with the complete keys fits the path buffer, and the text to be
signed fits the buffer of the signature. -/
def FitsBuffers (platform : LocationPlatform) (params digitalKey : CStr) : Prop :=
  (params ++ digitalKey).length < httpPathLenmax ∧
    (pathHead platform ++ params).length + ("&sig=".length + 32) < httpPathLenmax

/-- The buffers of fixed size for the cells hold them. -/
structure CellsFit (platform : LocationPlatform) (ue : AmapUeInfo) : Prop where
  serving : (bts platform ue).length < 64
  neighbours : platform = .amap20 → ∀ n, ue.nearbts = some n → 5 < n.length →
    (nearbtsText n).length < n.length + 64

/-- Both keys arrive complete in the client, and the path has the complete api key
as its key and ends with the signature under the complete sign key. -/
structure KeysDelivered (md5 : CStr → Digest) (platform : LocationPlatform)
    (attr : AmapLocationAttr) (ue : AmapUeInfo) (apiKey digitalKey : CStr) : Prop where
  client : ∃ client, sessionClient platform attr ue = some client ∧
    client.auth.apikey = some apiKey ∧ client.auth.digitalSignKey = some digitalKey
  path : let params := requestParams platform (clientUe ue) apiKey attr.showFieldsEnable
    sessionPath md5 platform attr ue =
      some (pathHead platform ++ params ++ param "&sig=" (lowerHexMd5 md5 (params ++ digitalKey)))

theorem dataToHex_length (bytes : List UInt8) : (dataToHex bytes).length = 2 * bytes.length := by
  induction bytes with
  | nil => rfl
  | cons b bytes ih =>
    simp only [dataToHex, List.length_cons, ih]
    omega

theorem lowerHexMd5_length (md5 : CStr → Digest) (text : CStr) :
    (lowerHexMd5 md5 text).length = 32 := by
  rw [lowerHexMd5, List.length_map, cmLbsMd5, dataToHex_length, (md5 text).size]

theorem length_param (name : String) (value : CStr) :
    (param name value).length = name.length + value.length := by
  rw [param, List.length_append, length_cstr]

theorem inBuffer_eq_some_iff {size : Nat} {text t : CStr} :
    inBuffer size text = some t ↔ text.length < size ∧ text = t := by
  simp only [inBuffer]
  split_ifs with h <;> simp [h]

theorem requestNearbts_eq_some_iff {platform : LocationPlatform} {ue : AmapUeInfo}
    {n : Option CStr} :
    requestNearbts platform true ue = some n ↔
      (platform = .amap20 → ∀ n, ue.nearbts = some n → 5 < n.length →
        (nearbtsText n).length < n.length + 64) ∧ shownNearbts platform ue = n := by
  simp only [requestNearbts, shownNearbts]
  split_ifs with hplatform
  · cases hnearbts : ue.nearbts with
    | none => simp
    | some cells =>
      simp only [amav2dealNearbtsCreate, Option.bind_some]
      split_ifs with hlen
      · have hshort : ¬ 5 < cells.length := by omega
        simp [hplatform, hshort]
      · have hlong : 5 < cells.length := by omega
        simp [hplatform, hlong, inBuffer_eq_some_iff]
  · simp [hplatform]

section
variable (md5 : CStr → Digest) {platform : LocationPlatform} (attr : AmapLocationAttr)
variable (ue : AmapUeInfo) {apiKey digitalKey : CStr}

/-- The credentials of the session: the sign key is cut to the length of the api key. -/
def sessionAuth (platform : LocationPlatform) (attr : AmapLocationAttr) (apiKey digitalKey : CStr) :
    AmapAuthentication where
  platform := platform
  digitalSignEnable := attr.digitalSignEnable
  digitalSignKey := some (strncpy digitalKey apiKey.length)
  apikey := some apiKey
  timeOut := attr.timeOut
  showFieldsEnable := attr.showFieldsEnable

theorem sessionClient_eq (hapi : attr.apiKey = some apiKey)
    (hdigital : attr.digitalKey = some digitalKey) :
    sessionClient platform attr ue =
      some ⟨clientUe ue, sessionAuth platform attr apiKey digitalKey⟩ := by
  simp [sessionClient, initAmap, copyAmapAuthenticationByAttr, hapi, hdigital, createByAttr,
    clientUe, copyAuth, sessionAuth]

theorem sessionPath_eq_signedPath (hplatform : platform = .amap10 ∨ platform = .amap20)
    (hapi : attr.apiKey = some apiKey) (hdigital : attr.digitalKey = some digitalKey) :
    sessionPath md5 platform attr ue =
      signedPath md5 ⟨true, true⟩ (clientUe ue) (sessionAuth platform attr apiKey digitalKey) := by
  simp only [sessionPath, sessionClient_eq attr ue hapi hdigital, Option.bind_eq_bind,
    Option.bind_some]
  have hpath : createRequstHttpPath md5 ⟨true, true⟩ (clientUe ue)
      (sessionAuth platform attr apiKey digitalKey) =
      (signedPath md5 ⟨true, true⟩ (clientUe ue)
        (sessionAuth platform attr apiKey digitalKey)).map .ok := by
    rcases hplatform with rfl | rfl <;> rfl
  rw [hpath]
  cases signedPath md5 ⟨true, true⟩ (clientUe ue) (sessionAuth platform attr apiKey digitalKey)
  · rfl
  · rfl

theorem digitalSignature_eq_some_iff {params signKey : CStr} {sig : Option CStr} :
    digitalSignature md5 true params (some signKey) = some sig ↔
      (params ++ signKey).length < httpPathLenmax ∧
        some (lowerHexMd5 md5 (params ++ signKey)) = sig := by
  simp only [digitalSignature, if_true, Option.bind_eq_bind, Option.bind_some,
    Option.bind_eq_some_iff, inBuffer_eq_some_iff, Option.some.injEq]
  constructor
  · rintro ⟨text, ⟨hlen, rfl⟩, heq⟩
    exact ⟨hlen, heq⟩
  · rintro ⟨hlen, heq⟩
    exact ⟨_, ⟨hlen, rfl⟩, heq⟩

/-- The strings of the session reach the path as they are. -/
theorem sessionPath_eq_some_iff (hplatform : platform = .amap10 ∨ platform = .amap20)
    (hapi : attr.apiKey = some apiKey) (hdigital : attr.digitalKey = some digitalKey)
    (hsign : attr.digitalSignEnable ≠ 0) {params signKey signed path : CStr}
    (hparams : params = requestParams platform (clientUe ue) apiKey attr.showFieldsEnable)
    (hkey : signKey = strncpy digitalKey apiKey.length)
    (hsigned : signed = pathHead platform ++ params ++
      param "&sig=" (lowerHexMd5 md5 (params ++ signKey))) :
    sessionPath md5 platform attr ue = some path ↔
      CellsFit platform (clientUe ue) ∧ (params ++ signKey).length < httpPathLenmax ∧
        signed.length < httpPathLenmax ∧ signed = path := by
  rw [sessionPath_eq_signedPath md5 attr ue hplatform hapi hdigital]
  simp only [signedPath, sessionAuth, hsign, if_false, Option.bind_eq_bind, Option.bind_some,
    Option.bind_eq_some_iff, inBuffer_eq_some_iff, requestNearbts_eq_some_iff]
  constructor
  · rintro ⟨_, ⟨hbts, -⟩, nearbts, ⟨hcells, rfl⟩, _, ⟨-, rfl⟩, sig, hsig, hlen, heq⟩
    rw [← requestParams, ← hparams, ← hkey, digitalSignature_eq_some_iff] at hsig
    obtain ⟨htext, rfl⟩ := hsig
    rw [← requestParams, ← hparams] at hlen heq
    rw [hsigned]
    exact ⟨⟨hbts, hcells⟩, htext, hlen, heq⟩
  · rintro ⟨⟨hbts, hcells⟩, htext, hlen, rfl⟩
    have hprefix : (pathHead platform ++ params).length < httpPathLenmax := by
      rw [hsigned, List.length_append] at hlen
      omega
    refine ⟨_, ⟨hbts, rfl⟩, _, ⟨hcells, rfl⟩, _, ⟨?_, rfl⟩,
      some (lowerHexMd5 md5 (params ++ signKey)), ?_, ?_⟩
    · rwa [← requestParams, ← hparams]
    · rw [← requestParams, ← hparams, ← hkey, digitalSignature_eq_some_iff]
      exact ⟨htext, rfl⟩
    · rw [← requestParams, ← hparams]
      rw [hsigned] at hlen
      exact ⟨hlen, hsigned.symm⟩

theorem strncpy_eq_iff : strncpy digitalKey apiKey.length = digitalKey ↔
    digitalKey.length ≤ apiKey.length :=
  List.take_eq_self_iff _

/-- For a request that fits its buffers the keys reach the request complete exactly
when the sign key is no longer than the api key and the cells fit as well. -/
theorem keysDelivered_iff (hplatform : platform = .amap10 ∨ platform = .amap20)
    (hapi : attr.apiKey = some apiKey) (hdigital : attr.digitalKey = some digitalKey)
    (hsign : attr.digitalSignEnable ≠ 0)
    (hfits : FitsBuffers platform
      (requestParams platform (clientUe ue) apiKey attr.showFieldsEnable) digitalKey) :
    KeysDelivered md5 platform attr ue apiKey digitalKey ↔
      digitalKey.length ≤ apiKey.length ∧ CellsFit platform (clientUe ue) := by
  have hpath : ∀ path, sessionPath md5 platform attr ue = some path ↔ _ := fun path =>
    sessionPath_eq_some_iff md5 attr ue hplatform hapi hdigital hsign rfl rfl rfl
  constructor
  · rintro ⟨⟨client, hclient, -, hkey⟩, hdelivered⟩
    rw [sessionClient_eq attr ue hapi hdigital] at hclient
    cases hclient
    refine ⟨strncpy_eq_iff.mp (Option.some.inj hkey), ?_⟩
    exact ((hpath _).mp hdelivered).1
  · rintro ⟨hlen, hcells⟩
    have hkey := strncpy_eq_iff.mpr hlen
    refine ⟨⟨_, sessionClient_eq attr ue hapi hdigital, rfl, congrArg some hkey⟩, ?_⟩
    rw [hkey] at hpath
    refine (hpath _).mpr ⟨hcells, hfits.1, ?_, rfl⟩
    rw [List.length_append, length_param, lowerHexMd5_length]
    exact hfits.2

end

/-- UE information as this build reports it. -/
def ueZero : AmapUeInfo := ⟨[], [], 0, ⟨[], [], 0, 0, 0⟩, none, none, none⟩

def sampleAttr (apiKey digitalKey : String) : AmapLocationAttr :=
  ⟨some (cstr apiKey), 10, 1, some (cstr digitalKey), 0, 0⟩

/-- Keys of the same length are delivered. -/
theorem keysDelivered_iff_same_length :
    KeysDelivered (fun _ => Field.zero 16) .amap20 (sampleAttr "ab" "cd") ueZero
      (cstr "ab") (cstr "cd") := by
  refine (keysDelivered_iff _ (sampleAttr "ab" "cd") ueZero (Or.inr rfl) rfl rfl (by decide)
    (by unfold FitsBuffers; decide)).mpr ⟨by decide, ?_⟩
  exact ⟨by decide, by decide⟩

/-- The last byte of the sign key "abc" is lost next to the api key "ab". -/
theorem longer_sign_key_is_cut :
    FitsBuffers .amap10 (requestParams .amap10 (clientUe ueZero) (cstr "ab") 0) (cstr "abc") ∧
      ¬ KeysDelivered (fun _ => Field.zero 16) .amap10 (sampleAttr "ab" "abc") ueZero
        (cstr "ab") (cstr "abc") := by
  refine ⟨by unfold FitsBuffers; decide, ?_⟩
  rintro ⟨⟨client, hclient, -, hkey⟩, -⟩
  cases hclient
  revert hkey
  decide

end AmapSignature
