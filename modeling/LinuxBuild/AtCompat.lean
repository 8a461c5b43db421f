import LinuxBuild.AtCredentials
import LinuxBuild.AtRequests

/-!
# The compatibility command

`AT+MLBS` asks for a location like `AT+MLBSLOC`, from a copy of its own of the code in
front of `cm_lbs_init`. The copy knows AMAP only: it reads an AMAP record on every
platform, and takes every key that is not empty.
-/
namespace AtCompat
open CString LbsTypes AtConfig AtLocation AtCredentials LbsApi AtRequests
open AtConfigRefinement (IsAmap Selected)

/-- The arguments of a call of `cm_lbs_init`. -/
structure InitCall where
  platform : LocationPlatform
  attr : InitAttr

/-- `cm_lbs_atcmd_MLBS` up to its call of `cm_lbs_init`. -/
def mlbsCall (dir : ConfigDir) : Option InitCall :=
  let platform := atcmdGetplatform dir
  match atcmdReadAmapcfg dir platform with
  | none => none
  | some cfg =>
    if cfg.apikeyStr.length < 1 then none
    else some ⟨platform, .amap
      { apiKey := some cfg.apikeyStr
        timeOut := cmLbsLoationTimeout
        digitalSignEnable := cfg.signalEnable
        digitalKey := some cfg.signatureKeyStr
        showFieldsEnable := cfg.descrMode
        nearbtsEnable := cfg.nearbtsEnable }⟩

/-- `cm_lbs_atcmd_MLBSLOC` up to its call of `cm_lbs_init`, with the network up. -/
def mlbslocCall (nv : Option NvConfig) (dir : ConfigDir) : Option InitCall :=
  if atcmdGetplatform dir = .oneospos then
    some ⟨.oneospos, .oneospos (oneosposMlbslocAttr nv dir)⟩
  else (amapMlbslocAttr nv dir).toOption.map fun attr => ⟨atcmdGetplatform dir, .amap attr⟩

variable {Arg : Type}

/-- `cm_lbs_atcmd_MLBS`: a failed `cm_lbs_init` is never busy. -/
def mlbs (env : MlbslocEnv) (dir : ConfigDir) (s : Lbs Arg) (cbArg : Arg) :
    Option (Lbs Arg × AtcmdErrcode) :=
  if env.cfg then
    match mlbsCall dir with
    | none => some (s, .apikeyNull)
    | some call => do
      let (initRet, s) ← cmLbsInit env.init s call.platform call.attr
      if initRet = 0 then
        let (res, s) := cmLbsLocation env.location s cbArg
        some (s, if res = 0 then .success else if res = -2 then .busy
          else if res = -3 then .paraErr else if res = -1 then .netErr else .unknowErr)
      else some (s, .unknowErr)
  else some (s, .unknowErr)

/-- The attribute is of the platform's own type. -/
def OwnType (p : LocationPlatform) : InitAttr → Prop
  | .null => False
  | .amap _ => IsAmap p
  | .oneospos _ => p = .oneospos

def SameCredentials : InitAttr → InitAttr → Prop
  | .amap a, .amap b => a.apiKey = b.apiKey ∧ a.digitalKey = b.digitalKey ∧
    a.digitalSignEnable = b.digitalSignEnable
  | .oneospos a, .oneospos b => a.pid = b.pid
  | _, _ => False

/-- Two calls for the same platform, with its credentials. -/
structure SameCall (call call' : InitCall) : Prop where
  platform : call.platform = call'.platform
  ownType : OwnType call.platform call.attr
  ownType' : OwnType call'.platform call'.attr
  credentials : SameCredentials call.attr call'.attr

/-- The two commands agree if both come to their call. -/
def Agrees (nv : Option NvConfig) (dir : ConfigDir) : Prop :=
  ∀ call call', mlbsCall dir = some call → mlbslocCall nv dir = some call' → SameCall call call'

section Calls
variable {nv : Option NvConfig} {dir : ConfigDir}

/-- The main command with its network goes on from its call. -/
theorem mlbsloc_of_call {env : MlbslocEnv} {s : Lbs Arg} {cbArg : Arg} {call : InitCall}
    (hcfg : env.cfg = true) (hnet : env.netstate = true)
    (h : mlbslocCall cmLbsReadnvConfig dir = some call) :
    mlbsloc env dir s cbArg = initAndLocate env s call.platform call.attr cbArg := by
  simp only [mlbslocCall] at h
  simp only [mlbsloc]
  split_ifs at h ⊢
  · cases h
    simp only [oneosposMlbsloc, hcfg, hnet, if_true]
  · obtain ⟨attr, hattr, rfl⟩ := Option.map_eq_some_iff.mp h
    cases hread : amapMlbslocAttr cmLbsReadnvConfig dir with
    | error ret =>
      rw [hread] at hattr
      cases hattr
    | ok attr' =>
      rw [hread] at hattr
      cases hattr
      simp only [amapMlbsloc, hcfg, hnet, if_true, hread]

/-- The attribute of AMAP is no attribute of OneOS. -/
theorem mlbs_oneospos_faults {env : MlbslocEnv} {s : Lbs Arg} {cbArg : Arg}
    (hcfg : env.cfg = true) (htask : s.cmLbsTask = true) (hp : atcmdGetplatform dir = .oneospos)
    (h : mlbsCall dir ≠ none) : mlbs env dir s cbArg = none := by
  obtain ⟨call, hcall⟩ := Option.ne_none_iff_exists'.mp h
  have hcall' := hcall
  simp only [mlbsCall] at hcall'
  split at hcall'
  · cases hcall'
  · split_ifs at hcall'
    cases hcall'
    simp only [mlbs, hcfg, if_true, hcall, cmLbsInit, lbsTaskCreate, htask, hp, family,
      InitAttr.toOneospos]
    rfl

theorem mlbsCall_of_read {r : AmapConfig}
    (hread : atcmdReadAmapcfg dir (atcmdGetplatform dir) = some r) (hkey : r.apikeyStr ≠ []) :
    ∃ attr, mlbsCall dir = some ⟨atcmdGetplatform dir, .amap attr⟩ ∧
      attr.apiKey = some r.apikeyStr ∧ attr.digitalKey = some r.signatureKeyStr ∧
      attr.digitalSignEnable = r.signalEnable := by
  have hlen : ¬ r.apikeyStr.length < 1 := by
    have := List.length_pos_iff.mpr hkey
    omega
  simp only [mlbsCall, hread, if_neg hlen]
  exact ⟨_, rfl, rfl, rfl, rfl⟩

theorem read_of_mlbsCall {call : InitCall} (h : mlbsCall dir = some call) :
    ∃ r, atcmdReadAmapcfg dir (atcmdGetplatform dir) = some r ∧ r.apikeyStr ≠ [] := by
  simp only [mlbsCall] at h
  split at h
  · cases h
  · rename_i r hread
    split_ifs at h with hlen
    refine ⟨r, hread, fun hnil => hlen ?_⟩
    rw [hnil]
    exact Nat.zero_lt_one

/-- On OneOS the two commands never agree. -/
theorem agrees_oneospos_iff (hp : atcmdGetplatform dir = .oneospos) :
    Agrees nv dir ↔ ∀ r, dir.amapv20 = some r → r.apikeyStr = [] := by
  have hfile : atcmdReadAmapcfg dir (atcmdGetplatform dir) = dir.amapv20 := by
    rw [hp]
    rfl
  constructor
  · intro h r hr
    by_contra hkey
    obtain ⟨attr, hcall, -⟩ := mlbsCall_of_read (hfile.trans hr) hkey
    have hloc : mlbslocCall nv dir = some ⟨.oneospos, .oneospos (oneosposMlbslocAttr nv dir)⟩ :=
      if_pos hp
    exact (h _ _ hcall hloc).credentials
  · intro h call call' hcall _
    obtain ⟨r, hread, hkey⟩ := read_of_mlbsCall hcall
    exact absurd (h r (hfile.symm.trans hread)) hkey

/-- A key that replaces the key "0" is another one. -/
theorem overwrite_ne_zero {e : NvEntry} (husable : e.Usable) (f : Field 128)
    (rest : List UInt8) :
    cstringAt ((f.overwrite e.key.text e.key.text_length_le).bytes ++ rest) ≠ cstr "0" := by
  have hkey := husable.1
  have hnul : 0 ∉ e.key.text := nul_notMem_cstringAt _
  have hsplit : cstringAt ((f.overwrite e.key.text e.key.text_length_le).bytes ++ rest) =
      e.key.text ++ cstringAt (f.bytes.drop e.key.text.length ++ rest) := by
    rw [Field.overwrite, List.append_assoc, cstringAt,
      List.takeWhile_append_of_pos (bytes_ne_nul hnul)]
    rfl
  rw [hsplit]
  intro h
  cases htext : e.key.text with
  | nil =>
    rw [htext] at hkey
    exact absurd hkey (by decide)
  | cons b s =>
    rw [htext] at h hkey
    have hzero : cstr "0" = [48] := by decide
    rw [hzero, List.cons_append, List.cons.injEq, List.append_eq_nil_iff] at h
    obtain ⟨rfl, rfl, -⟩ := h
    exact absurd hkey (by decide)

theorem agrees_amap_iff (hp : IsAmap (atcmdGetplatform dir)) :
    Agrees nv dir ↔ ∀ r n, atcmdReadAmapcfg dir (atcmdGetplatform dir) = some r →
      r.apikeyStr = cstr "0" → nv = some n → ¬ (nvEntry n (atcmdGetplatform dir)).Usable := by
  have hloc : mlbslocCall nv dir =
      (amapMlbslocAttr nv dir).toOption.map fun attr => ⟨atcmdGetplatform dir, .amap attr⟩ :=
    if_neg hp.ne_oneospos
  constructor
  · rintro h r n hread hzero rfl husable
    have hrecord := amapRecord_of_read hread
    have hunconfigured : unconfigured (amapRecord dir).apikeyStr = true := by
      rw [hrecord, hzero]
      decide
    obtain ⟨attr, hcall, hkey, -⟩ := mlbsCall_of_read hread (by rw [hzero]; decide)
    obtain ⟨attr', restKey, restSign, hattr', hkey', -⟩ :=
      amapMlbslocAttr_unconfigured hp hunconfigured husable
    rw [hattr'] at hloc
    have hsame := (h _ _ hcall hloc).credentials.1
    rw [hkey, hkey', hzero] at hsame
    exact overwrite_ne_zero husable _ _ (Option.some.inj hsame).symm
  · intro h call call' hcall hcall'
    obtain ⟨r, hread, hkey⟩ := read_of_mlbsCall hcall
    obtain ⟨attr, hmlbs, hapiKey, hdigitalKey, henable⟩ := mlbsCall_of_read hread hkey
    cases hcall.symm.trans hmlbs
    have hrecord := amapRecord_of_read hread
    rw [hloc] at hcall'
    obtain ⟨attr', hattr', rfl⟩ := Option.map_eq_some_iff.mp hcall'
    cases hconfigured : unconfigured r.apikeyStr with
    | false =>
      obtain ⟨attr'', hok, hapiKey', hdigitalKey', henable'⟩ :=
        @amapMlbslocAttr_configured nv dir (by rw [hrecord]; exact hconfigured)
      rw [hok] at hattr'
      cases hattr'
      rw [hrecord] at hapiKey' hdigitalKey' henable'
      exact ⟨rfl, hp, hp, hapiKey.trans hapiKey'.symm, hdigitalKey.trans hdigitalKey'.symm,
        henable.trans henable'.symm⟩
    | true =>
      have hzero : r.apikeyStr = cstr "0" := by
        simp only [unconfigured, Bool.or_eq_true, decide_eq_true_eq] at hconfigured
        exact hconfigured.resolve_left hkey
      have hunconfigured : unconfigured (amapRecord dir).apikeyStr = true := by
        rw [hrecord]
        exact hconfigured
      cases nv with
      | none =>
        have hnone : amapMlbslocAttr none dir = .error .apikeyNull := by
          simp only [amapRecord] at hunconfigured
          simp only [amapMlbslocAttr, hunconfigured, if_true, amapSetnvConfig]
        rw [hnone] at hattr'
        cases hattr'
      | some n =>
        rw [amapMlbslocAttr_unusable hp hunconfigured (h r n hread hzero rfl)] at hattr'
        cases hattr'

end Calls

/-- The two location commands agree unless the compatibility command finds a key in the
AMAP 2.0 record on OneOS, or takes a key "0" that the main command replaces from NV. -/
theorem agrees_iff (nv : Option NvConfig) {dir : ConfigDir} (hsel : Selected dir) :
    Agrees nv dir ↔
      (atcmdGetplatform dir = .oneospos → ∀ r, dir.amapv20 = some r → r.apikeyStr = []) ∧
      (IsAmap (atcmdGetplatform dir) → ∀ r n,
        atcmdReadAmapcfg dir (atcmdGetplatform dir) = some r → r.apikeyStr = cstr "0" →
        nv = some n → ¬ (nvEntry n (atcmdGetplatform dir)).Usable) := by
  rcases hsel with hp | hp
  · rw [agrees_amap_iff hp]
    exact ⟨fun h => ⟨fun hone => absurd hone hp.ne_oneospos, fun _ => h⟩, fun h => h.2 hp⟩
  · rw [agrees_oneospos_iff hp]
    have hno : ¬ IsAmap (atcmdGetplatform dir) := by
      rw [hp]
      decide
    exact ⟨fun h => ⟨fun _ => h, fun hp => absurd hp hno⟩, fun h => h.1 hp⟩

theorem key_fits : (cstr "key").length ≤ 128 := by decide

/-- A record of AMAP 2.0 with the key "key". -/
def keyedDir (platform : Option LocationPlatform) : ConfigDir where
  atcmd := platform
  amapv10 := none
  amapv20 := some { AmapConfig.zero with apikey := Field.store (cstr "key") key_fits }
  oneospos := none

theorem agrees_amap20 : Selected (keyedDir (some .amap20)) ∧
    Agrees cmLbsReadnvConfig (keyedDir (some .amap20)) := by
  have hsel : Selected (keyedDir (some .amap20)) := Or.inl (Or.inr rfl)
  refine ⟨hsel, (agrees_iff _ hsel).mpr ⟨?_, ?_⟩⟩
  · intro h
    cases h
  · intro _ r n _ _ hn
    cases hn

/-- On OneOS the compatibility command hands the AMAP record over. -/
theorem agrees_fails_oneospos : Selected (keyedDir (some .oneospos)) ∧
    (∃ attr, mlbsCall (keyedDir (some .oneospos)) = some ⟨.oneospos, .amap attr⟩ ∧
      attr.apiKey = some (cstr "key")) ∧
    ¬ Agrees cmLbsReadnvConfig (keyedDir (some .oneospos)) := by
  refine ⟨Or.inr rfl, ⟨_, rfl, by decide⟩, fun h => ?_⟩
  exact absurd ((agrees_oneospos_iff rfl).mp h _ rfl) (by decide)

end AtCompat
