import LinuxBuild.AtLocation
import LinuxBuild.LbsApi

/-!
# One source for the credentials of a location command

A key that is not configured in the record is replaced by the one in the NV record, and
a pid by the built-in one after it. The NV strings are copied over those of the record
without their terminators.
-/
namespace AtCredentials
open CString LbsTypes AtConfig AtLocation OneosposBackend LbsApi

section Amap

/-- The strings and the flag of one AMAP version in the NV record. -/
structure NvEntry where
  key : Field 128
  signa : Field 128
  signaEnable : Int32

/-- The entry of the selected AMAP version. -/
def nvEntry (nv : NvConfig) (platform : LocationPlatform) : NvEntry :=
  if platform = .amap10 then ⟨nv.amapv1key, nv.amapv1signa, nv.amapv1signaEnable⟩
  else ⟨nv.amapv2key, nv.amapv2signa, nv.amapv2signaEnable⟩

/-- The strings end inside their members. -/
structure NvEntry.Terminated (e : NvEntry) : Prop where
  key : e.key.text.length < 128
  signa : e.signa.text.length < 128

/-- A key is there, and with the signature enabled its key as well. -/
def NvEntry.Usable (e : NvEntry) : Prop :=
  unconfigured e.key.text = false ∧ (e.signaEnable = 1 → unconfigured e.signa.text = false)

/-- What the location command reads before it looks at the NV record. -/
def amapRecord (dir : ConfigDir) : AmapConfig :=
  (atcmdReadAmapcfg dir (atcmdGetplatform dir)).getD AmapConfig.zero

theorem amapRecord_of_read {dir : ConfigDir} {r : AmapConfig}
    (hread : atcmdReadAmapcfg dir (atcmdGetplatform dir) = some r) : amapRecord dir = r := by
  rw [amapRecord, hread, Option.getD_some]

/-- The credentials are all those of the record, or all those of a usable NV entry. -/
structure SingleSource (nv : NvConfig) (dir : ConfigDir) (attr : AmapLocationAttr) : Prop where
  record : unconfigured (amapRecord dir).apikeyStr = false →
    attr.apiKey = some (amapRecord dir).apikeyStr ∧
      attr.digitalKey = some (amapRecord dir).signatureKeyStr ∧
      attr.digitalSignEnable = (amapRecord dir).signalEnable
  entry : unconfigured (amapRecord dir).apikeyStr = true →
    (nvEntry nv (atcmdGetplatform dir)).Usable →
    attr.apiKey = some (nvEntry nv (atcmdGetplatform dir)).key.text ∧
      attr.digitalKey = some (nvEntry nv (atcmdGetplatform dir)).signa.text ∧
      attr.digitalSignEnable = (nvEntry nv (atcmdGetplatform dir)).signaEnable

/-- In the record a zero byte stands where the strings of the NV entry end. -/
structure Covers (e : NvEntry) (r : AmapConfig) : Prop where
  apikey : r.apikey.bytes[e.key.text.length]? = some 0
  signatureKey : r.signatureKey.bytes[e.signa.text.length]? = some 0

theorem setnvKeys_eq_none_iff {e : NvEntry} {cfg : AmapConfig} :
    setnvKeys e.key e.signa e.signaEnable cfg = none ↔ ¬ e.Usable := by
  simp only [setnvKeys, NvEntry.Usable]
  by_cases hkey : unconfigured e.key.text = true
  · simp [hkey]
  · by_cases hsigna : e.signaEnable = 1 <;> cases unconfigured e.signa.text <;>
      simp [hkey, hsigna]

/-- A usable entry is copied over the strings of the record. -/
theorem setnvKeys_of_usable {e : NvEntry} (h : e.Usable) (cfg : AmapConfig) :
    setnvKeys e.key e.signa e.signaEnable cfg = some
      { cfg with
        apikey := cfg.apikey.overwrite e.key.text e.key.text_length_le
        signalEnable := e.signaEnable
        signatureKey := cfg.signatureKey.overwrite e.signa.text e.signa.text_length_le } := by
  obtain ⟨hkey, hsigna⟩ := h
  have henabled : ¬ (decide (e.signaEnable = 1) && unconfigured e.signa.text) = true := by
    simpa using hsigna
  simp only [setnvKeys, hkey, Bool.false_eq_true, if_false, if_neg henabled]

theorem amapSetnvConfig_eq {nv : NvConfig} {platform : LocationPlatform} {cfg : AmapConfig}
    (hp : platform = .amap10 ∨ platform = .amap20) :
    amapSetnvConfig (some nv) platform cfg =
      setnvKeys (nvEntry nv platform).key (nvEntry nv platform).signa
        (nvEntry nv platform).signaEnable cfg := by
  rcases hp with rfl | rfl <;> rfl

/-- With its key configured the command takes the record as it is. -/
theorem amapMlbslocAttr_configured {nv : Option NvConfig} {dir : ConfigDir}
    (h : unconfigured (amapRecord dir).apikeyStr = false) :
    ∃ attr, amapMlbslocAttr nv dir = .ok attr ∧
      attr.apiKey = some (amapRecord dir).apikeyStr ∧
      attr.digitalKey = some (amapRecord dir).signatureKeyStr ∧
      attr.digitalSignEnable = (amapRecord dir).signalEnable := by
  cases hread : atcmdReadAmapcfg dir (atcmdGetplatform dir) with
  | none =>
    rw [amapRecord, hread] at h
    exact absurd h (by decide)
  | some r =>
    simp only [amapRecord, hread, Option.getD_some] at h ⊢
    simp [amapMlbslocAttr, hread, h]

/-- Without it the command takes what a usable NV entry leaves of the record's strings. -/
theorem amapMlbslocAttr_unconfigured {nv : NvConfig} {dir : ConfigDir}
    (hp : atcmdGetplatform dir = .amap10 ∨ atcmdGetplatform dir = .amap20)
    (h : unconfigured (amapRecord dir).apikeyStr = true)
    (husable : (nvEntry nv (atcmdGetplatform dir)).Usable) :
    ∃ attr restKey restSign, amapMlbslocAttr (some nv) dir = .ok attr ∧
      attr.apiKey = some (cstringAt
        (((amapRecord dir).apikey.overwrite _ (Field.text_length_le
          (nvEntry nv (atcmdGetplatform dir)).key)).bytes ++ restKey)) ∧
      attr.digitalKey = some (cstringAt
        (((amapRecord dir).signatureKey.overwrite _ (Field.text_length_le
          (nvEntry nv (atcmdGetplatform dir)).signa)).bytes ++ restSign)) ∧
      attr.digitalSignEnable = (nvEntry nv (atcmdGetplatform dir)).signaEnable := by
  simp only [amapRecord] at h ⊢
  simp only [amapMlbslocAttr, h, if_true, amapSetnvConfig_eq hp, setnvKeys_of_usable husable]
  cases atcmdReadAmapcfg dir (atcmdGetplatform dir) with
  | none => exact ⟨_, _, _, rfl, rfl, rfl, rfl⟩
  | some r => exact ⟨_, _, _, rfl, rfl, rfl, rfl⟩

/-- An entry that is not usable ends the command. -/
theorem amapMlbslocAttr_unusable {nv : NvConfig} {dir : ConfigDir}
    (hp : atcmdGetplatform dir = .amap10 ∨ atcmdGetplatform dir = .amap20)
    (h : unconfigured (amapRecord dir).apikeyStr = true)
    (hunusable : ¬ (nvEntry nv (atcmdGetplatform dir)).Usable) :
    amapMlbslocAttr (some nv) dir = .error .apikeyNull := by
  simp only [amapRecord] at h
  simp only [amapMlbslocAttr, h, if_true, amapSetnvConfig_eq hp,
    setnvKeys_eq_none_iff.mpr hunusable]

/-- The credentials of a location command come from a single source exactly when the
record's key is configured, or the NV entry is not usable, or the record has zero bytes
where the strings of the entry end. -/
theorem amapMlbslocAttr_single_source_iff {nv : NvConfig} {dir : ConfigDir}
    (hp : atcmdGetplatform dir = .amap10 ∨ atcmdGetplatform dir = .amap20)
    (hnv : (nvEntry nv (atcmdGetplatform dir)).Terminated) :
    (∀ attr, amapMlbslocAttr (some nv) dir = .ok attr → SingleSource nv dir attr) ↔
      (unconfigured (amapRecord dir).apikeyStr = true →
        (nvEntry nv (atcmdGetplatform dir)).Usable →
        Covers (nvEntry nv (atcmdGetplatform dir)) (amapRecord dir)) := by
  cases hkey : unconfigured (amapRecord dir).apikeyStr with
  | false =>
    obtain ⟨attr, hattr, hrecord⟩ := @amapMlbslocAttr_configured (some nv) dir hkey
    refine iff_of_true ?_ fun h => nomatch h
    intro attr' hattr'
    cases hattr.symm.trans hattr'
    exact ⟨fun _ => hrecord, fun h => absurd (hkey.symm.trans h) (by decide)⟩
  | true =>
    by_cases husable : (nvEntry nv (atcmdGetplatform dir)).Usable
    · obtain ⟨attr, restKey, restSign, hattr, hapiKey, hdigitalKey, henable⟩ :=
        amapMlbslocAttr_unconfigured hp hkey husable
      have hkeys := Field.cstringAt_overwrite_iff (f := (amapRecord dir).apikey)
        (nul_notMem_cstringAt _) hnv.key restKey
      have hsigns := Field.cstringAt_overwrite_iff (f := (amapRecord dir).signatureKey)
        (nul_notMem_cstringAt _) hnv.signa restSign
      constructor
      · intro h _ _
        obtain ⟨hk, hs, -⟩ := (h attr hattr).entry hkey husable
        exact ⟨hkeys.mp (Option.some.inj (hapiKey.symm.trans hk)),
          hsigns.mp (Option.some.inj (hdigitalKey.symm.trans hs))⟩
      · intro h attr' hattr'
        cases hattr.symm.trans hattr'
        obtain ⟨hk, hs⟩ := h rfl husable
        refine ⟨fun hrecord => absurd (hkey.symm.trans hrecord) (by decide), fun _ _ => ?_⟩
        rw [hapiKey, hdigitalKey]
        exact ⟨congrArg some (hkeys.mpr hk), congrArg some (hsigns.mpr hs), henable⟩
    · refine iff_of_true ?_ fun _ h => absurd h husable
      intro attr hattr
      rw [amapMlbslocAttr_unusable hp hkey husable] at hattr
      cases hattr

theorem length_le_one_of_unconfigured {v : CStr} (h : unconfigured v = true) :
    v.length ≤ 1 := by
  simp only [unconfigured, Bool.or_eq_true, decide_eq_true_eq] at h
  rcases h with rfl | rfl
  · exact Nat.zero_le 1
  · decide

theorem length_pos_of_configured {v : CStr} (h : unconfigured v = false) : 0 < v.length := by
  rcases v with _ | ⟨b, v⟩
  · exact absurd h (by decide)
  · exact Nat.succ_pos _

/-- In a record as it is stored, the strings of the entry cover those of the record
unless the signature key of the record is longer. -/
theorem covers_iff_of_holds {e : NvEntry} {r : AmapConfig} {key sign : CStr}
    (he : e.Terminated) (husable : e.Usable) (hkey : r.apikey.Holds key)
    (hsign : r.signatureKey.Holds sign) (hunconfigured : unconfigured key = true) :
    Covers e r ↔ sign.length ≤ e.signa.text.length := by
  have hle := length_le_one_of_unconfigured hunconfigured
  have hpos := length_pos_of_configured husable.1
  constructor
  · intro h
    exact (hsign.getElem?_eq_nul_iff he.signa).mp h.signatureKey
  · intro h
    refine ⟨(hkey.getElem?_eq_nul_iff he.key).mpr ?_, (hsign.getElem?_eq_nul_iff he.signa).mpr h⟩
    omega

/-- An NV record with AMAP 1.0 credentials. -/
def sampleNv : NvConfig where
  oneospospid := Field.zero 64
  amapv1key := Field.store (cstr "k") (by decide)
  amapv1signa := Field.store (cstr "xy") (by decide)
  amapv2key := Field.zero 128
  amapv2signa := Field.zero 128
  amapv1signaEnable := 1
  amapv2signaEnable := 0

/-- AMAP 1.0 is selected and its record has a signature key without an api key. -/
def signOnlyDir (sign : CStr) (h : sign.length ≤ 128) : ConfigDir where
  atcmd := some .amap10
  amapv10 := some { AmapConfig.zero with signatureKey := Field.store sign h }
  amapv20 := none
  oneospos := none

theorem sampleNv_terminated : (nvEntry sampleNv .amap10).Terminated := ⟨by decide, by decide⟩

/-- A shorter signature key of the record is covered. -/
theorem amapMlbslocAttr_single_source_short :
    unconfigured (amapRecord (signOnlyDir (cstr "a") (by decide))).apikeyStr = true ∧
      ∀ attr, amapMlbslocAttr (some sampleNv) (signOnlyDir (cstr "a") (by decide)) = .ok attr →
        SingleSource sampleNv (signOnlyDir (cstr "a") (by decide)) attr := by
  refine ⟨by decide,
    (amapMlbslocAttr_single_source_iff (Or.inl rfl) sampleNv_terminated).mpr ?_⟩
  intro _ _
  exact ⟨by decide, by decide⟩

/-- The signature key "abcdef" of the record shows behind the "xy" of the NV entry. -/
theorem amapMlbslocAttr_mixes_sources :
    ∃ attr, amapMlbslocAttr (some sampleNv) (signOnlyDir (cstr "abcdef") (by decide)) = .ok attr ∧
      attr.digitalKey = some (cstr "xycdef") ∧
      ¬ SingleSource sampleNv (signOnlyDir (cstr "abcdef") (by decide)) attr := by
  refine ⟨_, rfl, by decide, ?_⟩
  intro h
  have hentry := h.entry (by decide) ⟨by decide, fun _ => by decide⟩
  exact absurd hentry.2.1 (by decide)

end Amap

section Oneospos

/-- The pid of the NV record, or else the built-in one. -/
def fallbackPid (nv : Option NvConfig) : CStr :=
  ((nv.map fun nv => nv.oneospospid.text).filter fun pid => !unconfigured pid).getD
    cmLbsOneosposInternalPid

/-- The pid of the record comes before these. -/
def selectedPid (nv : Option NvConfig) (dir : ConfigDir) : CStr :=
  (((atcmdReadOneosposcfg dir).map fun r => r.pid.text).filter fun pid => !unconfigured pid).getD
    (fallbackPid nv)

/-- The pid of the record, if there is one, ends inside its member. -/
def RecordTerminated (dir : ConfigDir) : Prop :=
  ∀ r, atcmdReadOneosposcfg dir = some r → r.pid.text.length < 64

/-- The pid of the NV record ends inside its member. -/
def NvTerminated (nv : Option NvConfig) : Prop :=
  ∀ n, nv = some n → n.oneospospid.text.length < 64

theorem unconfigured_internalPid : unconfigured cmLbsOneosposInternalPid = false := by decide

theorem configured_of_filter {source : Option CStr} {pid : CStr}
    (h : source.filter (fun pid => !unconfigured pid) = some pid) :
    source = some pid ∧ unconfigured pid = false := by
  obtain ⟨hsource, hpid⟩ := Option.filter_eq_some_iff.mp h
  exact ⟨hsource, by simpa using hpid⟩

theorem fallbackPid_configured (nv : Option NvConfig) : unconfigured (fallbackPid nv) = false := by
  rw [fallbackPid]
  cases hpid : (nv.map fun nv => nv.oneospospid.text).filter fun pid => !unconfigured pid with
  | none => exact unconfigured_internalPid
  | some pid => exact (configured_of_filter hpid).2

theorem selectedPid_configured (nv : Option NvConfig) (dir : ConfigDir) :
    unconfigured (selectedPid nv dir) = false := by
  rw [selectedPid]
  cases hpid : ((atcmdReadOneosposcfg dir).map fun r => r.pid.text).filter
      fun pid => !unconfigured pid with
  | none => exact fallbackPid_configured nv
  | some pid => exact (configured_of_filter hpid).2

theorem fallbackPid_length_lt {nv : Option NvConfig} (hnv : NvTerminated nv) :
    (fallbackPid nv).length < 64 := by
  rw [fallbackPid]
  cases hpid : (nv.map fun nv => nv.oneospospid.text).filter fun pid => !unconfigured pid with
  | none => decide
  | some pid =>
    obtain ⟨n, hn, rfl⟩ := Option.map_eq_some_iff.mp (configured_of_filter hpid).1
    exact hnv n hn

/-- The pid of every source ends inside the buffer of `cm_lbs_init_oneospos`. -/
theorem selectedPid_length_lt {nv : Option NvConfig} {dir : ConfigDir}
    (hdir : RecordTerminated dir) (hnv : NvTerminated nv) : (selectedPid nv dir).length < 64 := by
  rw [selectedPid]
  cases hpid : ((atcmdReadOneosposcfg dir).map fun r => r.pid.text).filter
      fun pid => !unconfigured pid with
  | none => exact fallbackPid_length_lt hnv
  | some pid =>
    obtain ⟨r, hr, rfl⟩ := Option.map_eq_some_iff.mp (configured_of_filter hpid).1
    exact hdir r hr

theorem pidStr_of_terminated {r : OneosposConfig} (h : r.pid.text.length < 64) :
    r.pidStr = r.pid.text := by
  rw [OneosposConfig.pidStr, Field.cstringAt_bytes, if_neg (by omega)]

/-- A zero byte stands in the member where a usable pid of the NV record ends. -/
def FieldCovered (nv : Option NvConfig) (pid : Field 64) : Prop :=
  ∀ n, nv = some n → unconfigured n.oneospospid.text = false →
    pid.bytes[n.oneospospid.text.length]? = some 0

/-- A record without a pid of its own has that zero byte. -/
def PidCovered (nv : Option NvConfig) (dir : ConfigDir) : Prop :=
  ∀ r, atcmdReadOneosposcfg dir = some r → unconfigured r.pid.text = true →
    FieldCovered nv r.pid

/-- A usable pid of the NV record is copied over what the record has. -/
theorem oneosposFallbackPid_usable {nv : NvConfig} {cfg : OneosposConfig}
    (h : unconfigured nv.oneospospid.text = false) :
    oneosposFallbackPid (some nv) cfg = { cfg with
      pid := cfg.pid.overwrite nv.oneospospid.text nv.oneospospid.text_length_le } := by
  simp only [oneosposFallbackPid, oneosposSetnvConfig, h, Bool.false_eq_true, if_false,
    Option.getD_some]

theorem fallbackPid_usable {nv : NvConfig} (h : unconfigured nv.oneospospid.text = false) :
    fallbackPid (some nv) = nv.oneospospid.text := by
  simp only [fallbackPid, Option.map_some, Option.filter_some, h, Bool.not_false, if_true,
    Option.getD_some]

/-- The built-in pid is put into a cleared member. -/
theorem oneosposFallbackPid_internal {nv : Option NvConfig} {cfg : OneosposConfig}
    (h : ∀ n, nv = some n → unconfigured n.oneospospid.text = true) :
    (oneosposFallbackPid nv cfg).pidStr = fallbackPid nv := by
  have hinternal : ∀ rest, cstringAt ((Field.store (n := 64) cmLbsOneosposInternalPid
      internalPid_length_le).bytes ++ rest) = cmLbsOneosposInternalPid := by
    have hholds : Field.Holds (Field.store (n := 64) cmLbsOneosposInternalPid
        internalPid_length_le) cmLbsOneosposInternalPid := ⟨by decide, by decide, rfl⟩
    exact hholds.cstringAt
  cases nv with
  | none => exact hinternal _
  | some nv =>
    have hkey := h nv rfl
    simp only [oneosposFallbackPid, oneosposSetnvConfig, fallbackPid, hkey, if_true,
      Option.getD_none, Option.map_some, Option.filter_some, Bool.not_true, Bool.false_eq_true,
      if_false]
    exact hinternal _

/-- The fallback leaves one whole pid exactly in a member that covers it. -/
theorem oneosposFallbackPid_pidStr_iff {nv : Option NvConfig} {cfg : OneosposConfig}
    (hnv : NvTerminated nv) :
    (oneosposFallbackPid nv cfg).pidStr = fallbackPid nv ↔ FieldCovered nv cfg.pid := by
  by_cases husable : ∃ n, nv = some n ∧ unconfigured n.oneospospid.text = false
  · obtain ⟨n, rfl, hn⟩ := husable
    have hcovered : FieldCovered (some n) cfg.pid ↔
        cfg.pid.bytes[n.oneospospid.text.length]? = some 0 := by
      refine ⟨fun h => h n rfl hn, fun h m hm _ => ?_⟩
      cases hm
      exact h
    rw [hcovered, oneosposFallbackPid_usable hn, fallbackPid_usable hn]
    exact Field.cstringAt_overwrite_iff (nul_notMem_cstringAt _) (hnv n rfl) _
  · refine iff_of_true (oneosposFallbackPid_internal fun n hn => ?_) fun n hn husable' =>
      absurd ⟨n, hn, husable'⟩ husable
    by_contra hne
    exact husable ⟨n, hn, Bool.eq_false_iff.mpr hne⟩

/-- What the fallback leaves begins with the pid of its source. -/
theorem fallbackPid_begins {nv : Option NvConfig} {cfg : OneosposConfig} :
    ∃ rest, (oneosposFallbackPid nv cfg).pidStr = fallbackPid nv ++ rest := by
  by_cases husable : ∃ n, nv = some n ∧ unconfigured n.oneospospid.text = false
  · obtain ⟨n, rfl, hn⟩ := husable
    rw [oneosposFallbackPid_usable hn, fallbackPid_usable hn]
    refine ⟨cstringAt (cfg.pid.bytes.drop n.oneospospid.text.length ++ cfg.behindPid), ?_⟩
    have hnul := bytes_ne_nul (nul_notMem_cstringAt n.oneospospid.bytes)
    rw [OneosposConfig.pidStr, Field.overwrite, List.append_assoc, cstringAt]
    exact List.takeWhile_append_of_pos hnul
  · refine ⟨[], ?_⟩
    rw [List.append_nil]
    refine oneosposFallbackPid_internal fun n hn => ?_
    by_contra hne
    exact husable ⟨n, hn, Bool.eq_false_iff.mpr hne⟩

/-- The pid that a location command hands out begins with that of the first source that has
one, and ends with it exactly when the record covers it. -/
theorem oneosposMlbslocAttr_pid {nv : Option NvConfig} {dir : ConfigDir}
    (hdir : RecordTerminated dir) (hnv : NvTerminated nv) :
    ∃ rest, (oneosposMlbslocAttr nv dir).pid = some (selectedPid nv dir ++ rest) ∧
      (rest = [] ↔ PidCovered nv dir) := by
  cases hread : atcmdReadOneosposcfg dir with
  | none =>
    have hcovered : FieldCovered nv (Field.zero 64) := by
      intro n hn _
      have hlt := hnv n hn
      rw [Field.zero, List.getElem?_replicate, if_pos hlt]
    have hfallback : (oneosposFallbackPid nv
        { OneosposConfig.zero with
          precision := cmLbsPrecisionDefault
          nearbtsEnable := cmLbsNearbtsEnable
          coordinateEnable := cmLbsOneosCoordinate }).pidStr = fallbackPid nv :=
      (oneosposFallbackPid_pidStr_iff hnv).mpr hcovered
    refine ⟨[], ?_, iff_of_true rfl fun r hr => ?_⟩
    · simp only [oneosposMlbslocAttr, hread, hfallback, fallbackPid_configured,
        Bool.false_eq_true, if_false]
      simp [selectedPid, hread]
    · rw [hread] at hr
      cases hr
  | some r =>
    have hstr := pidStr_of_terminated (hdir r hread)
    cases hpid : unconfigured r.pid.text with
    | true =>
      obtain ⟨rest, hrest⟩ := @fallbackPid_begins nv r
      have hselected : selectedPid nv dir = fallbackPid nv := by
        simp [selectedPid, hread, Option.filter_some, hpid]
      have hpids : PidCovered nv dir ↔ FieldCovered nv r.pid := by
        refine ⟨fun h => h r hread hpid, fun h r' hr' _ => ?_⟩
        rw [hread] at hr'
        cases hr'
        exact h
      refine ⟨rest, ?_, ?_⟩
      · simp only [oneosposMlbslocAttr, hread, hstr, hpid, if_true, hselected]
        rw [hrest]
      · rw [hpids, ← oneosposFallbackPid_pidStr_iff hnv, hrest,
          List.append_right_eq_self]
    | false =>
      refine ⟨[], ?_, iff_of_true rfl fun r' hr' hunconfigured => ?_⟩
      · simp only [oneosposMlbslocAttr, hread, hstr, hpid, Bool.false_eq_true, if_false]
        simp [selectedPid, hread, Option.filter_some, hpid]
      · rw [hread] at hr'
        cases hr'
        exact absurd (hpid.symm.trans hunconfigured) (by decide)

/-- Everything that `cm_lbs_init_oneospos` allocates. -/
def initOneosposAlloc : InitOneosposAlloc := ⟨true, true, ⟨true, ⟨true, true⟩, true⟩⟩

/-- The session record that `cm_lbs_init` makes of the attribute has the same pid. -/
theorem initOneospos_session {nv : Option NvConfig} {attr : OneosposLocationAttr} {pid : CStr}
    (hattr : attr.pid = some pid) (hpid : unconfigured pid = false) (hlen : pid.length < 64) :
    initOneospos nv initOneosposAlloc none (some attr) =
      some (0, some ⟨pid, attr.nearbtsEnable⟩) := by
  have hconfig : oneosposPidConfig nv true attr.pid = pid := by
    simp [oneosposPidConfig, hattr, Option.filter_some, hpid]
  simp [initOneospos, initOneosposAlloc, hconfig, AmapRequest.inBuffer, hlen, createAttr]

/-- The content of the request that a location command comes to, with this UE
information and with all memory: `cm_lbs_init` and then `cm_oneospos_location` for the
session record that it leaves. -/
def mlbslocContent (nv : Option NvConfig) (dir : ConfigDir) (ue : OneosposUeInfo) :
    Option (Option CStr) := do
  let (_, session) ← initOneospos nv initOneosposAlloc none (some (oneosposMlbslocAttr nv dir))
  let pid := session.map OneosposAttr.pid
  match ← createAttr initOneosposAlloc.attr pid (some ue) with
  | none => some none
  | some client => createHttpContent true { client with ueinfo := some ue }

/-- What stands in a content in front of the pid and right behind it. -/
def HasPid (content pid : CStr) : Prop :=
  ∃ rest, content = cstr "\x7b\"pid\":\"" ++ pid ++ cstr "\",\"cellList\":\"" ++ rest

theorem createHttpContent_hasPid {client : OneosposClient} {content : CStr}
    (h : createHttpContent true client = some (some content)) : HasPid content client.pid := by
  simp only [createHttpContent] at h
  split at h
  · cases h
  · rename_i ue hue
    obtain ⟨bts, -, h⟩ := Option.bind_eq_some_iff.mp h
    obtain ⟨text, htext, heq⟩ := Option.map_eq_some_iff.mp h
    cases heq
    simp only [AmapRequest.inBuffer] at htext
    split_ifs at htext
    cases htext
    refine ⟨bts ++ cstr "\"," ++ (cstr "\"batchId\":\"" ++ ue.imei ++ cstr "\"\x7d"), ?_⟩
    have hcell : cstr "\",\"cellList\":\"" = cstr "\"," ++ cstr "\"cellList\":\"" := by decide
    rw [hcell]
    simp only [List.append_assoc]

theorem createHttpContent_pid_injective {p q : CStr} {ue : OneosposUeInfo} {content : CStr}
    (hp : createHttpContent true ⟨p, some ue⟩ = some (some content))
    (hq : createHttpContent true ⟨q, some ue⟩ = some (some content)) : p = q := by
  simp only [createHttpContent, if_true] at hp hq
  obtain ⟨bts, hbts, hp⟩ := Option.bind_eq_some_iff.mp hp
  rw [hbts, Option.bind_eq_bind, Option.bind_some] at hq
  obtain ⟨text, htext, heq⟩ := Option.map_eq_some_iff.mp hp
  obtain ⟨text', htext', heq'⟩ := Option.map_eq_some_iff.mp hq
  cases heq
  cases heq'
  simp only [AmapRequest.inBuffer] at htext htext'
  split_ifs at htext htext'
  have hsame := Option.some.inj (htext.trans htext'.symm)
  simp only [List.append_assoc] at hsame
  exact List.append_cancel_right (List.append_cancel_left hsame)

/-- UE information of a cell without texts. -/
def sampleUe : OneosposUeInfo := ⟨[], [], ⟨[], [], 460, 0, 20⟩, none⟩

theorem createHttpContent_sampleUe {pid : CStr} (h : pid.length < 64) :
    ∃ content, createHttpContent true ⟨pid, some sampleUe⟩ = some (some content) := by
  have hbts : AmapRequest.inBuffer 512 (cstr "460,0,,,20") = some (cstr "460,0,,,20") := rfl
  have hfits : ∀ {text : CStr}, text.length < 1024 →
      (AmapRequest.inBuffer 1024 text).map some = some (some text) :=
    fun hlen => congrArg (Option.map some) (if_pos hlen)
  have hserving : List.intercalate (cstr ",") [decimal 460, decimal 0, [], [], decimal 20] ++ [] =
      cstr "460,0,,,20" := by decide
  simp only [createHttpContent, if_true, sampleUe, hserving, hbts, Option.bind_eq_bind,
    Option.bind_some]
  refine ⟨_, hfits ?_⟩
  have hconst : "\x7b\"pid\":\"".length = 8 ∧ "\",".length = 2 ∧ "\"cellList\":\"".length = 12 ∧
      "\"batchId\":\"".length = 11 ∧ "\"\x7d".length = 2 ∧ "460,0,,,20".length = 10 := by decide
  simp only [List.length_append, length_cstr, List.length_nil]
  omega

/-- The content of a location command is the one for the first source that has a pid, and
has the whole of that pid. -/
def PostsPid (nv : Option NvConfig) (dir : ConfigDir) (ue : OneosposUeInfo) : Prop :=
  mlbslocContent nv dir ue = createHttpContent true ⟨selectedPid nv dir, some ue⟩ ∧
    ∀ content, mlbslocContent nv dir ue = some (some content) →
      HasPid content (selectedPid nv dir)

theorem mlbslocContent_eq {nv : Option NvConfig} {dir : ConfigDir} {pid : CStr}
    (hattr : (oneosposMlbslocAttr nv dir).pid = some pid) (hpid : unconfigured pid = false)
    (hlen : pid.length < 64) (ue : OneosposUeInfo) :
    mlbslocContent nv dir ue = createHttpContent true ⟨pid, some ue⟩ := by
  have hsession := @initOneospos_session nv _ _ hattr hpid hlen
  have halloc : initOneosposAlloc.attr = ⟨true, ⟨true, true⟩, true⟩ := rfl
  simp only [mlbslocContent, hsession, halloc, createAttr, if_true, Option.bind_eq_bind,
    Option.bind_some, Option.map_some]

/-- A longer pid than the buffer of `cm_lbs_init_oneospos` takes is a fault. -/
theorem mlbslocContent_overflow {nv : Option NvConfig} {dir : ConfigDir} {pid : CStr}
    (hattr : (oneosposMlbslocAttr nv dir).pid = some pid) (hpid : unconfigured pid = false)
    (hlen : 64 ≤ pid.length) (ue : OneosposUeInfo) : mlbslocContent nv dir ue = none := by
  have hconfig : oneosposPidConfig nv true (oneosposMlbslocAttr nv dir).pid = pid := by
    simp [oneosposPidConfig, hattr, Option.filter_some, hpid]
  have hinit :
      initOneospos nv initOneosposAlloc none (some (oneosposMlbslocAttr nv dir)) = none := by
    simp [initOneospos, initOneosposAlloc, hconfig, AmapRequest.inBuffer, not_lt.mpr hlen]
  simp only [mlbslocContent, hinit, Option.bind_eq_bind, Option.bind_none]

theorem unconfigured_append {pid : CStr} (h : unconfigured pid = false) (rest : CStr) :
    unconfigured (pid ++ rest) = false := by
  by_contra hne
  rw [Bool.not_eq_false] at hne
  have hpos := length_pos_of_configured h
  have hle := length_le_one_of_unconfigured hne
  rw [List.length_append] at hle
  have hrest : rest = [] := List.eq_nil_of_length_eq_zero (by omega)
  rw [hrest, List.append_nil, h] at hne
  cases hne

/-- The contents of location commands have the whole pid of the first source that has one,
whatever the UE information is, exactly when a record without a pid of its own has a zero
byte where the pid of the NV record ends. -/
theorem mlbslocContent_pid_iff {nv : Option NvConfig} {dir : ConfigDir}
    (hdir : RecordTerminated dir) (hnv : NvTerminated nv) :
    (∀ ue, PostsPid nv dir ue) ↔ PidCovered nv dir := by
  obtain ⟨rest, hattr, hcovered⟩ := oneosposMlbslocAttr_pid hdir hnv
  have hselected := selectedPid_configured nv dir
  have hlen := selectedPid_length_lt hdir hnv
  rw [← hcovered]
  constructor
  · intro h
    by_contra hrest
    obtain ⟨content, hcontent⟩ := createHttpContent_sampleUe hlen
    have hposts := (h sampleUe).1
    have hpid := unconfigured_append hselected rest
    rw [hcontent] at hposts
    rcases Nat.lt_or_ge (selectedPid nv dir ++ rest).length 64 with hlt | hge
    · rw [mlbslocContent_eq hattr hpid hlt] at hposts
      have hsame := createHttpContent_pid_injective hposts hcontent
      exact hrest (List.append_right_eq_self.mp hsame)
    · rw [mlbslocContent_overflow hattr hpid hge] at hposts
      cases hposts
  · rintro rfl ue
    rw [List.append_nil] at hattr
    have hcontent := mlbslocContent_eq hattr hselected hlen ue
    refine ⟨hcontent, ?_⟩
    intro content h
    rw [hcontent] at h
    exact createHttpContent_hasPid h

/-- OneOS is selected and its record has this pid member. -/
def pidDir (pid : Field 64) : ConfigDir where
  atcmd := some .oneospos
  amapv10 := none
  amapv20 := none
  oneospos := some { OneosposConfig.zero with pid := pid }

theorem pidDir_terminated {pid : Field 64} (h : pid.text.length < 64) :
    RecordTerminated (pidDir pid) := by
  intro r hr
  cases hr
  exact h

/-- An NV record with the pid "xy". -/
def pidNv : NvConfig := { sampleNv with oneospospid := Field.store (cstr "xy") (by decide) }

theorem pidNv_terminated : NvTerminated (some pidNv) := by
  intro n hn
  cases hn
  decide

/-- Over a cleared pid the one of the NV record is whole. -/
theorem mlbslocContent_pid_cleared :
    (∃ content, mlbslocContent (some pidNv) (pidDir (Field.zero 64)) sampleUe =
      some (some content) ∧ HasPid content (cstr "xy")) ∧
      ∀ ue, PostsPid (some pidNv) (pidDir (Field.zero 64)) ue := by
  have hcovered : PidCovered (some pidNv) (pidDir (Field.zero 64)) := by
    intro r hr _ n hn _
    cases hr
    cases hn
    decide
  have hposts := (mlbslocContent_pid_iff (pidDir_terminated (by decide)) pidNv_terminated).mpr
    hcovered
  exact ⟨⟨_, rfl, (hposts sampleUe).2 _ rfl⟩, hposts⟩

/-- The empty pid of this record ends in front of the old bytes "bcdef". -/
def oldPid : Field 64 :=
  ⟨0 :: cstr "bcdef" ++ List.replicate 58 0, by decide⟩

/-- The old bytes of the record show behind the pid of the NV record. -/
theorem mlbslocContent_mixes_pids :
    oldPid.text = [] ∧
      (∃ content, mlbslocContent (some pidNv) (pidDir oldPid) sampleUe = some (some content) ∧
        HasPid content (cstr "xycdef")) ∧
      ¬ PostsPid (some pidNv) (pidDir oldPid) sampleUe := by
  refine ⟨by decide, ⟨_, rfl, _, rfl⟩, fun h => ?_⟩
  exact absurd h.1 (by decide)

/-- A pid as `AT+MLBSCFG` stores it. -/
def StoredPid (dir : ConfigDir) : Prop :=
  ∀ r, atcmdReadOneosposcfg dir = some r →
    ∃ v, ∃ h : v.length ≤ 64, 0 ∉ v ∧ r.pid = Field.store v h

theorem oneosposAssign_storedPid {r r' : OneosposConfig} {s : Setting}
    (hr : ∃ v, ∃ h : v.length ≤ 64, 0 ∉ v ∧ r.pid = Field.store v h)
    (hs : AtConfigRefinement.Setting.Terminated s) (h : oneosposAssign r s = some r') :
    ∃ v, ∃ h : v.length ≤ 64, 0 ∉ v ∧ r'.pid = Field.store v h := by
  cases s with
  | pid v =>
    obtain ⟨f, hf, rfl⟩ := Option.map_eq_some_iff.mp h
    obtain ⟨hlen, rfl⟩ := AtConfigRefinement.storeKey_eq_some hf
    exact ⟨v, hlen, hs, rfl⟩
  | precision n | nearbtsEnable n | oneosChangeCoordinate n =>
    cases h
    exact hr
  | method p | apikey v | descrMode n | signEnable n | signKey v => cases h

theorem effect_storedPid {dir dir' : ConfigDir} {c : SetCommand} {code : Option LbsState}
    (h : AtConfigRefinement.Effect dir c code dir') (hdir : StoredPid dir) : StoredPid dir' := by
  intro r hr
  cases h with
  | rejected => exact hdir r hr
  | method p => exact hdir r hr
  | amap s r' =>
    simp only [atcmdReadOneosposcfg, atcmdWriteAmapcfg] at hr
    split_ifs at hr <;> exact hdir r hr
  | oneospos s r' hp hs hne hacc hass =>
    rw [atcmdReadOneosposcfg_write] at hr
    cases hr
    refine oneosposAssign_storedPid ?_ (AtConfigRefinement.setting_terminated hs) hass
    cases hread : atcmdReadOneosposcfg dir with
    | none => exact ⟨[], by decide, by decide, rfl⟩
    | some r => exact hdir r hread

theorem runSets_storedPid {dir : ConfigDir} (hsel : AtConfigRefinement.Selected dir)
    (hdir : StoredPid dir) (cs : List SetCommand) : StoredPid (runSets dir cs) := by
  induction cs generalizing dir with
  | nil => exact hdir
  | cons c cs ih =>
    have heff := AtConfigRefinement.run_effect hsel c
    exact ih (heff.selected hsel) (effect_storedPid heff hdir)

/-- A pid that commands have stored covers every pid of the NV record. -/
theorem pidCovered_of_storedPid {nv : Option NvConfig} {dir : ConfigDir} (hnv : NvTerminated nv)
    (h : StoredPid dir) : PidCovered nv dir := by
  intro r hr hunconfigured n hn husable
  obtain ⟨v, hlen, hnul, hstore⟩ := h r hr
  rw [hstore, Field.text_store hnul hlen] at hunconfigured
  have hle := length_le_one_of_unconfigured hunconfigured
  have hpos := length_pos_of_configured husable
  have hholds : r.pid.Holds v := ⟨by omega, hnul, hstore⟩
  exact (hholds.getElem?_eq_nul_iff (hnv n hn)).mpr (by omega)

/-- In the stores that `AT+MLBSCFG` makes of an empty directory no old bytes show. -/
theorem runSets_pidCovered {nv : Option NvConfig} (hnv : NvTerminated nv)
    (cs : List SetCommand) : PidCovered nv (runSets emptyDir cs) := by
  have hempty : StoredPid emptyDir := by
    intro r hr
    cases hr
  exact pidCovered_of_storedPid hnv
    (runSets_storedPid AtConfigRefinement.emptyDir_selected hempty cs)

end Oneospos

end AtCredentials
