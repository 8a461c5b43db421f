import LinuxBuild.AtConfigReport
import LinuxBuild.AtLocation

/-!
# Keys that fill their member

A key is accepted up to the size of its member, terminator not counted. A key of
exactly that size is read back together with the bytes behind the member, unless
the first of them happens to be zero. A location command hands out no key that means
"not configured", and a signing key only beside an api key.
-/
namespace AtKeys
open CString LbsTypes AtConfig AtConfigRefinement AtConfigReport AtLocation

inductive KeyOption where
  | apikey
  | signKey
  | pid
  deriving DecidableEq

def KeyOption.option : KeyOption → AtcmdOption
  | .apikey => .apikey
  | .signKey => .signKey
  | .pid => .pid

def KeyOption.setting (k : KeyOption) (v : CStr) : Setting :=
  match k with
  | .apikey => .apikey v
  | .signKey => .signKey v
  | .pid => .pid v

def KeyOption.size : KeyOption → Nat
  | .apikey | .signKey => 128
  | .pid => 64

/-- The stored key of the selected platform, read as a C string from its record. -/
def storedKey (dir : ConfigDir) : KeyOption → Option CStr
  | .apikey => (atcmdReadAmapcfg dir (atcmdGetplatform dir)).map AmapConfig.apikeyStr
  | .signKey => (atcmdReadAmapcfg dir (atcmdGetplatform dir)).map AmapConfig.signatureKeyStr
  | .pid => (atcmdReadOneosposcfg dir).map OneosposConfig.pidStr

/-- The bytes behind the member, in the record that a set command starts from. -/
def behindKey (dir : ConfigDir) : KeyOption → List UInt8
  | .apikey => (amapShown dir).behindApikey
  | .signKey => (amapShown dir).behindSignatureKey
  | .pid => ((atcmdReadOneosposcfg dir).getD oneosposBase).behindPid

/-- The key that a location command hands to `cm_lbs_init`, if it gets there. -/
def handedKey (dir : ConfigDir) : KeyOption → Option CStr
  | .apikey => (amapMlbslocAttr cmLbsReadnvConfig dir).toOption.bind AmapLocationAttr.apiKey
  | .signKey => (amapMlbslocAttr cmLbsReadnvConfig dir).toOption.bind AmapLocationAttr.digitalKey
  | .pid => (oneosposMlbslocAttr cmLbsReadnvConfig dir).pid

/-- The location command gets as far as `cm_lbs_init` with the string `v` set: an api key
or a pid must not stand for "not configured", a signing key needs an api key in the record
that it is put into. -/
def Configured (dir : ConfigDir) (k : KeyOption) (v : CStr) : Prop :=
  match k with
  | .apikey | .pid => v ≠ [] ∧ v ≠ cstr "0"
  | .signKey => (amapShown dir).apikeyStr ≠ [] ∧ (amapShown dir).apikeyStr ≠ cstr "0"

/-- Every reader of the key sees exactly the string `v`. -/
structure KeyKept (dir : ConfigDir) (k : KeyOption) (v : CStr) : Prop where
  readBack : storedKey dir k = some v
  reported : ∀ sub md5 mem, subcmdToOption sub = some k.option → mem .attr = true →
    mlbscfgGet md5 mem dir sub = (.ok, some (reportHead sub ++ atcmdMd5 md5 v))
  handedOver : handedKey dir k = some v

theorem unconfigured_iff (v : CStr) : unconfigured v = false ↔ v ≠ [] ∧ v ≠ cstr "0" := by
  simp [unconfigured]

theorem behindKey_ne_nil (dir : ConfigDir) (k : KeyOption) : behindKey dir k ≠ [] := by
  cases k <;> simp [behindKey, AmapConfig.behindApikey, AmapConfig.behindSignatureKey,
    OneosposConfig.behindPid, intBytes]

section Amap
variable {dir : ConfigDir} {r : AmapConfig} {v : CStr}

/-- With the key configured the AMAP command hands out the strings of its record. -/
theorem amapMlbslocAttr_record (hread : atcmdReadAmapcfg dir (atcmdGetplatform dir) = some r) :
    amapMlbslocAttr cmLbsReadnvConfig dir =
      if unconfigured r.apikeyStr then .error .apikeyNull
      else .ok
        { apiKey := some r.apikeyStr
          timeOut := cmLbsLoationTimeout
          digitalSignEnable := r.signalEnable
          digitalKey := some r.signatureKeyStr
          showFieldsEnable := r.descrMode
          nearbtsEnable := r.nearbtsEnable } := by
  simp only [amapMlbslocAttr, hread, Option.getD_some, Option.isSome_some, if_true]
  by_cases h : unconfigured r.apikeyStr = true <;> simp [h, amapSetnvConfig, cmLbsReadnvConfig]

theorem apikey_kept_iff (hp : IsAmap (atcmdGetplatform dir))
    (hread : atcmdReadAmapcfg dir (atcmdGetplatform dir) = some r) :
    KeyKept dir .apikey v ↔ r.apikeyStr = v ∧ unconfigured v = false := by
  have hstored : storedKey dir .apikey = some r.apikeyStr := by simp [storedKey, hread]
  have hhanded : handedKey dir .apikey =
      if unconfigured r.apikeyStr then none else some r.apikeyStr := by
    rw [handedKey, amapMlbslocAttr_record hread]
    split_ifs <;> rfl
  constructor
  · intro h
    obtain rfl := Option.some.inj (hstored.symm.trans h.readBack)
    have hgiven := h.handedOver
    rw [hhanded] at hgiven
    split_ifs at hgiven with hun
    exact ⟨rfl, Bool.eq_false_iff.mpr hun⟩
  · rintro ⟨rfl, hun⟩
    refine ⟨hstored, ?_, ?_⟩
    · intro sub md5 mem hsub hmem
      rw [mlbscfgGet_amap hp hsub (by decide)]
      simp [getRecord, hmem, amapReport, KeyOption.option, finishReport, amapShown, hread]
    · rw [hhanded, hun]
      rfl

theorem signKey_kept_iff (hp : IsAmap (atcmdGetplatform dir))
    (hread : atcmdReadAmapcfg dir (atcmdGetplatform dir) = some r) :
    KeyKept dir .signKey v ↔ r.signatureKeyStr = v ∧ unconfigured r.apikeyStr = false := by
  have hstored : storedKey dir .signKey = some r.signatureKeyStr := by simp [storedKey, hread]
  have hhanded : handedKey dir .signKey =
      if unconfigured r.apikeyStr then none else some r.signatureKeyStr := by
    rw [handedKey, amapMlbslocAttr_record hread]
    split_ifs <;> rfl
  constructor
  · intro h
    obtain rfl := Option.some.inj (hstored.symm.trans h.readBack)
    have hgiven := h.handedOver
    rw [hhanded] at hgiven
    split_ifs at hgiven with hun
    exact ⟨rfl, Bool.eq_false_iff.mpr hun⟩
  · rintro ⟨rfl, hun⟩
    refine ⟨hstored, ?_, ?_⟩
    · intro sub md5 mem hsub hmem
      rw [mlbscfgGet_amap hp hsub (by decide)]
      simp [getRecord, hmem, amapReport, KeyOption.option, finishReport, amapShown, hread]
    · rw [hhanded, hun]
      rfl

/-- A signing key may show behind an api key that fills its member, but an api key of
that length is configured anyway. -/
theorem unconfigured_apikey_signature (r : AmapConfig) (key : Field 128) :
    unconfigured { r with signatureKey := key }.apikeyStr = unconfigured r.apikeyStr := by
  simp only [AmapConfig.apikeyStr, Field.cstringAt_bytes]
  by_cases hfull : r.apikey.text.length = 128
  · have hlong : ∀ rest, unconfigured (r.apikey.text ++ rest) = false := by
      intro rest
      rw [unconfigured_iff]
      constructor
      · intro heq
        have hlen := congrArg List.length heq
        rw [List.length_append, hfull, List.length_nil] at hlen
        omega
      · intro heq
        have hlen := congrArg List.length heq
        have hone : (cstr "0").length = 1 := rfl
        rw [List.length_append, hfull, hone] at hlen
        omega
    rw [if_pos hfull, if_pos hfull, hlong, hlong]
  · rw [if_neg hfull, if_neg hfull]

end Amap

section Oneospos
variable {dir : ConfigDir} {r : OneosposConfig} {v : CStr}

theorem oneosposMlbslocAttr_record (hread : atcmdReadOneosposcfg dir = some r) :
    (oneosposMlbslocAttr cmLbsReadnvConfig dir).pid =
      if unconfigured r.pidStr then some cmLbsOneosposInternalPid else some r.pidStr := by
  simp only [oneosposMlbslocAttr, hread]
  by_cases h : unconfigured r.pidStr = true
  · rw [if_pos h, if_pos h, OneosposConfig.pidStr]
    simp only [oneosposFallbackPid, oneosposSetnvConfig, cmLbsReadnvConfig, Option.getD_none]
    rw [(Field.cstringAt_store_iff (by decide) _ (by simp [OneosposConfig.behindPid, intBytes])).mpr
      (Or.inl (by decide))]
  · rw [if_neg h, if_neg h]

theorem pid_kept_iff (hp : atcmdGetplatform dir = .oneospos)
    (hread : atcmdReadOneosposcfg dir = some r) :
    KeyKept dir .pid v ↔ r.pidStr = v ∧ unconfigured v = false := by
  have hstored : storedKey dir .pid = some r.pidStr := by simp [storedKey, hread]
  have hhanded : handedKey dir .pid = _ := oneosposMlbslocAttr_record hread
  constructor
  · intro h
    obtain rfl := Option.some.inj (hstored.symm.trans h.readBack)
    refine ⟨rfl, ?_⟩
    have hgiven := h.handedOver
    rw [hhanded] at hgiven
    split_ifs at hgiven with hun
    · -- the built-in pid is itself a configured one
      rw [← Option.some.inj hgiven]
      decide
    · exact Bool.eq_false_iff.mpr hun
  · rintro ⟨rfl, hun⟩
    refine ⟨hstored, ?_, ?_⟩
    · intro sub md5 mem hsub hmem
      rw [mlbscfgGet_oneospos hp hsub (by decide)]
      simp [getRecord, hmem, oneosposReport, KeyOption.option, finishReport, hread]
    · rw [hhanded, hun]
      rfl

end Oneospos

theorem setting_key {c : SetCommand} {k : KeyOption}
    (hsub : subcmdToOption c.subcmd = some k.option) :
    SetCommand.setting c = some (k.setting c.value) := by
  rw [SetCommand.setting, hsub]
  cases k <;> rfl

/-- After an accepted key command every reader sees the command's string, and a location
command hands it out, exactly when the member keeps a terminator or is followed by a zero
byte and the location command finds its key configured. -/
theorem key_kept_iff {dir : ConfigDir} (hsel : Selected dir) (k : KeyOption) (c : SetCommand)
    (hsub : subcmdToOption c.subcmd = some k.option) (accepted : (c.run dir).1 = some .ok) :
    KeyKept (c.run dir).2 k c.value ↔
      (c.value.length < k.size ∨ (behindKey dir k).head? = some 0) ∧
        Configured dir k c.value := by
  have heff := run_effect hsel c
  rw [accepted] at heff
  generalize (c.run dir).2 = dir' at heff ⊢
  have hset := setting_key hsub
  have hstore := fun h => Field.cstringAt_store_iff (n := k.size) c.valueTerminated h
    (behindKey_ne_nil dir k)
  cases heff with
  | rejected _ hcode => exact absurd rfl hcode
  | method p _ hacc =>
    rw [accepts_option hacc] at hsub
    cases k <;> cases hsub
  | amap s r' hp hs hne hacc hass =>
    obtain rfl := Option.some.inj (hs.symm.trans hset)
    have hp' : IsAmap (atcmdGetplatform (atcmdWriteAmapcfg dir (atcmdGetplatform dir) r')) := by
      simpa using hp
    have hread' : atcmdReadAmapcfg (atcmdWriteAmapcfg dir (atcmdGetplatform dir) r')
        (atcmdGetplatform (atcmdWriteAmapcfg dir (atcmdGetplatform dir) r')) = some r' := by simp
    cases k with
    | apikey =>
      rw [apikey_kept_iff hp' hread']
      obtain ⟨f, hf, rfl⟩ := Option.map_eq_some_iff.mp hass
      obtain ⟨hlen, rfl⟩ := storeKey_eq_some hf
      exact and_congr (hstore hlen) (unconfigured_iff _)
    | signKey =>
      rw [signKey_kept_iff hp' hread']
      obtain ⟨f, hf, rfl⟩ := Option.map_eq_some_iff.mp hass
      obtain ⟨hlen, rfl⟩ := storeKey_eq_some hf
      rw [unconfigured_apikey_signature]
      exact and_congr (hstore hlen) (unconfigured_iff _)
    | pid => cases hass
  | oneospos s r' hp hs hne hacc hass =>
    obtain rfl := Option.some.inj (hs.symm.trans hset)
    cases k with
    | apikey => cases hass
    | signKey => cases hass
    | pid =>
      have hp' : atcmdGetplatform (atcmdWriteOneosposcfg dir r') = .oneospos := hp
      rw [pid_kept_iff hp' (atcmdReadOneosposcfg_write dir r')]
      obtain ⟨f, hf, rfl⟩ := Option.map_eq_some_iff.mp hass
      obtain ⟨hlen, rfl⟩ := storeKey_eq_some hf
      exact and_congr (hstore hlen) (unconfigured_iff _)

def setPid (value : CStr) (h : 0 ∉ value) : SetCommand where
  subcmd := cstr "pid"
  value := value
  valueTerminated := h
  mem _ := true

theorem key_kept_iff_short :
    KeyKept ((setPid (cstr "ab12") (by decide)).run emptyDir).2 .pid (cstr "ab12") ↔
      ((cstr "ab12").length < 64 ∨ (behindKey emptyDir .pid).head? = some 0) ∧
        Configured emptyDir .pid (cstr "ab12") :=
  key_kept_iff emptyDir_selected .pid (setPid (cstr "ab12") (by decide)) (by decide) (by decide)

/-- A pid of 64 characters is accepted and read back with the precision behind it. -/
theorem fullPid_runs_on :
    ((setPid (List.replicate 64 97) (by decide)).run emptyDir).1 = some .ok ∧
      ¬ KeyKept ((setPid (List.replicate 64 97) (by decide)).run emptyDir).2 .pid
        (List.replicate 64 97) := by
  refine ⟨by decide, ?_⟩
  intro h
  have hread : storedKey ((setPid (List.replicate 64 97) (by decide)).run emptyDir).2 .pid =
      some (List.replicate 64 97 ++ [8]) := by decide
  exact absurd (hread.symm.trans h.readBack) (by decide)

end AtKeys
