import LinuxBuild.AtConfigRefinement

/-!
# What setting one option does to the report of another

Two things join options that should be independent. A full key member has no
terminator, so its digest covers the member behind it, and the OneOS getter shows
the built-in pid only while there is no OneOS record at all. These are the only
cases in which a set command changes the report of another option.
-/
namespace AtConfigReport
open CString LbsTypes AtConfig AtConfigRefinement

def Flag (n : Int32) : Prop := n = 0 ∨ n = 1

def PrecisionInRange (n : Int32) : Prop := 1 ≤ n ∧ n ≤ 8

instance (n : Int32) : Decidable (PrecisionInRange n) := inferInstanceAs (Decidable (_ ∧ _))

structure AmapInRange (r : AmapConfig) : Prop where
  signalEnable : Flag r.signalEnable
  precision : PrecisionInRange r.precision
  descrMode : Flag r.descrMode
  nearbtsEnable : Flag r.nearbtsEnable

structure OneosposInRange (r : OneosposConfig) : Prop where
  precision : PrecisionInRange r.precision
  nearbtsEnable : Flag r.nearbtsEnable
  coordinateEnable : Flag r.coordinateEnable

/-- Every stored number passed its range check. -/
structure DirInRange (dir : ConfigDir) : Prop where
  amapv10 : ∀ r, dir.amapv10 = some r → AmapInRange r
  amapv20 : ∀ r, dir.amapv20 = some r → AmapInRange r
  oneospos : ∀ r, dir.oneospos = some r → OneosposInRange r

def SettingInRange : Setting → Prop
  | .precision n => PrecisionInRange n
  | .descrMode n | .signEnable n | .nearbtsEnable n | .oneosChangeCoordinate n => Flag n
  | _ => True

theorem numberIn_bounds {lo hi n : Int32} {v : CStr} (h : numberIn lo hi v = some n) :
    lo ≤ n ∧ n ≤ hi := by
  simp only [numberIn] at h
  split at h
  · split at h
    · cases h
    · cases h
      grind
  · cases h

theorem flag_of_numberIn {n : Int32} {v : CStr} (h : numberIn 0 1 v = some n) : Flag n := by
  have := numberIn_bounds h
  simp only [Flag]
  grind

theorem checkSetting_inRange {op : AtcmdOption} {v : CStr} {s : Setting}
    (h : checkSetting op v = some s) : SettingInRange s := by
  have hop := checkSetting_option h
  subst hop
  cases s <;> try trivial
  all_goals
    simp only [Setting.option, checkSetting, Option.map_eq_some_iff, Setting.precision.injEq,
      Setting.descrMode.injEq, Setting.signEnable.injEq, Setting.nearbtsEnable.injEq,
      Setting.oneosChangeCoordinate.injEq, exists_eq_right] at h
  case precision => exact numberIn_bounds h
  all_goals exact flag_of_numberIn h

theorem setting_inRange {c : SetCommand} {s : Setting} (h : SetCommand.setting c = some s) :
    SettingInRange s := by
  obtain ⟨op, -, hs⟩ := Option.bind_eq_some_iff.mp h
  exact checkSetting_inRange hs

theorem amapBase_inRange : AmapInRange amapBase :=
  ⟨Or.inl rfl, by decide, Or.inl rfl, Or.inl rfl⟩

theorem oneosposBase_inRange : OneosposInRange oneosposBase :=
  ⟨by decide, Or.inl rfl, Or.inr rfl⟩

theorem amapAssign_inRange {r r' : AmapConfig} {s : Setting} (hr : AmapInRange r)
    (hs : SettingInRange s) (h : amapAssign r s = some r') : AmapInRange r' := by
  cases s <;> simp only [amapAssign, Option.map_eq_some_iff, Option.some.injEq, reduceCtorEq] at h
  case apikey | signKey =>
    obtain ⟨f, -, rfl⟩ := h
    exact ⟨hr.signalEnable, hr.precision, hr.descrMode, hr.nearbtsEnable⟩
  all_goals subst h
  case precision => exact ⟨hr.signalEnable, hs, hr.descrMode, hr.nearbtsEnable⟩
  case descrMode => exact ⟨hr.signalEnable, hr.precision, hs, hr.nearbtsEnable⟩
  case signEnable => exact ⟨hs, hr.precision, hr.descrMode, hr.nearbtsEnable⟩
  case nearbtsEnable => exact ⟨hr.signalEnable, hr.precision, hr.descrMode, hs⟩

theorem oneosposAssign_inRange {r r' : OneosposConfig} {s : Setting} (hr : OneosposInRange r)
    (hs : SettingInRange s) (h : oneosposAssign r s = some r') : OneosposInRange r' := by
  cases s <;>
    simp only [oneosposAssign, Option.map_eq_some_iff, Option.some.injEq, reduceCtorEq] at h
  case pid =>
    obtain ⟨f, -, rfl⟩ := h
    exact ⟨hr.precision, hr.nearbtsEnable, hr.coordinateEnable⟩
  all_goals subst h
  case precision => exact ⟨hs, hr.nearbtsEnable, hr.coordinateEnable⟩
  case nearbtsEnable => exact ⟨hr.precision, hs, hr.coordinateEnable⟩
  case oneosChangeCoordinate => exact ⟨hr.precision, hr.nearbtsEnable, hs⟩

theorem readAmapcfg_inRange {dir : ConfigDir} (h : DirInRange dir) (p : LocationPlatform) :
    AmapInRange ((atcmdReadAmapcfg dir p).getD amapBase) := by
  cases hr : atcmdReadAmapcfg dir p with
  | none => exact amapBase_inRange
  | some r =>
    simp only [atcmdReadAmapcfg] at hr
    split at hr
    · exact h.amapv10 r hr
    · exact h.amapv20 r hr

theorem readOneosposcfg_inRange {dir : ConfigDir} (h : DirInRange dir) :
    OneosposInRange ((atcmdReadOneosposcfg dir).getD oneosposBase) := by
  cases hr : atcmdReadOneosposcfg dir with
  | none => exact oneosposBase_inRange
  | some r => exact h.oneospos r hr

theorem effect_inRange {dir dir' : ConfigDir} {c : SetCommand} {code : Option LbsState}
    (h : Effect dir c code dir') (hd : DirInRange dir) : DirInRange dir' := by
  cases h with
  | rejected => exact hd
  | method p => exact ⟨hd.amapv10, hd.amapv20, hd.oneospos⟩
  | amap s r' hp hs hne hacc hass =>
    have hr' := amapAssign_inRange (readAmapcfg_inRange hd _) (setting_inRange hs) hass
    simp only [atcmdWriteAmapcfg]
    split
    · exact ⟨fun r h => Option.some.inj h ▸ hr', hd.amapv20, hd.oneospos⟩
    · exact ⟨hd.amapv10, fun r h => Option.some.inj h ▸ hr', hd.oneospos⟩
  | oneospos s r' hp hs hne hacc hass =>
    have hr' := oneosposAssign_inRange (readOneosposcfg_inRange hd) (setting_inRange hs) hass
    exact ⟨hd.amapv10, hd.amapv20, fun r h => Option.some.inj h ▸ hr'⟩

theorem runSets_inRange {dir : ConfigDir} (hsel : Selected dir) (hd : DirInRange dir)
    (cs : List SetCommand) : DirInRange (runSets dir cs) := by
  induction cs generalizing dir with
  | nil => exact hd
  | cons c cs ih =>
    have heff := run_effect hsel c
    exact ih (heff.selected hsel) (effect_inRange heff hd)

theorem emptyDir_inRange : DirInRange emptyDir where
  amapv10 _ h := by cases h
  amapv20 _ h := by cases h
  oneospos _ h := by cases h

section Strings

/-- What a string that runs into a flag reads there. -/
def flagByte (n : Int32) : CStr := if n = 0 then [] else [1]

theorem cstringAt_flag {n : Int32} (hn : Flag n) (rest : List UInt8) :
    cstringAt (intBytes n ++ rest) = flagByte n := by
  rcases hn with rfl | rfl <;> rfl

theorem flagByte_inj {n m : Int32} (hn : Flag n) (hm : Flag m) :
    flagByte n = flagByte m ↔ n = m := by
  rcases hn with rfl | rfl <;> rcases hm with rfl | rfl <;> decide

theorem precision_cases {n : Int32} (hn : PrecisionInRange n) :
    n = 1 ∨ n = 2 ∨ n = 3 ∨ n = 4 ∨ n = 5 ∨ n = 6 ∨ n = 7 ∨ n = 8 := by
  obtain ⟨lo, hi⟩ := hn
  grind

theorem cstringAt_precision {n : Int32} (hn : PrecisionInRange n) (rest : List UInt8) :
    cstringAt (intBytes n ++ rest) = [n.toUInt32.toUInt8] := by
  rcases precision_cases hn with rfl | rfl | rfl | rfl | rfl | rfl | rfl | rfl <;> rfl

theorem precisionByte_inj {n m : Int32} (hn : PrecisionInRange n) (hm : PrecisionInRange m) :
    n.toUInt32.toUInt8 = m.toUInt32.toUInt8 ↔ n = m := by
  refine ⟨?_, fun h => h ▸ rfl⟩
  rcases precision_cases hn with rfl | rfl | rfl | rfl | rfl | rfl | rfl | rfl <;>
    rcases precision_cases hm with rfl | rfl | rfl | rfl | rfl | rfl | rfl | rfl <;> decide

theorem signatureKeyStr_eq {r : AmapConfig} (hr : AmapInRange r) :
    r.signatureKeyStr =
      if r.signatureKey.text.length = 128 then r.signatureKey.text ++ flagByte r.signalEnable
      else r.signatureKey.text := by
  rw [AmapConfig.signatureKeyStr, Field.cstringAt_bytes, AmapConfig.behindSignatureKey,
    List.append_assoc, List.append_assoc, cstringAt_flag hr.signalEnable]

theorem apikeyStr_eq (r : AmapConfig) :
    r.apikeyStr =
      if r.apikey.text.length = 128 then r.apikey.text ++ r.signatureKeyStr
      else r.apikey.text := by
  have hbehind : r.behindApikey = r.signatureKey.bytes ++ r.behindSignatureKey := by
    simp only [AmapConfig.behindApikey, AmapConfig.behindSignatureKey, List.append_assoc]
  rw [AmapConfig.apikeyStr, Field.cstringAt_bytes, hbehind]
  rfl

theorem pidStr_eq {r : OneosposConfig} (hr : OneosposInRange r) :
    r.pidStr =
      if r.pid.text.length = 64 then r.pid.text ++ [r.precision.toUInt32.toUInt8]
      else r.pid.text := by
  rw [OneosposConfig.pidStr, Field.cstringAt_bytes, OneosposConfig.behindPid,
    List.append_assoc, cstringAt_precision hr.precision]

/-- Texts that are run on into the same bytes when they fill their field stay
different. -/
theorem runOn_inj {n : Nat} {v w t : CStr} (hv : v.length ≤ n) (hw : w.length ≤ n) :
    (if v.length = n then v ++ t else v) = (if w.length = n then w ++ t else w) ↔ v = w := by
  constructor
  · intro h
    have hlen := congrArg List.length h
    by_cases hvn : v.length = n <;> by_cases hwn : w.length = n
    · rw [if_pos hvn, if_pos hwn] at h
      exact List.append_cancel_right h
    · rw [if_pos hvn, if_neg hwn, List.length_append] at hlen
      omega
    · rw [if_neg hvn, if_pos hwn, List.length_append] at hlen
      omega
    · rw [if_neg hvn, if_neg hwn] at h
      exact h
  · rintro rfl
    rfl

end Strings

section Frame

theorem signatureKeyStr_frame {r r' : AmapConfig} {s : Setting} (hr : AmapInRange r)
    (hs : SettingInRange s) (hne : s.option ≠ .signKey) (h : amapAssign r s = some r') :
    r'.signatureKeyStr = r.signatureKeyStr ↔
      ¬ (r.signatureKey.text.length = 128 ∧ ∃ n, s = .signEnable n ∧ n ≠ r.signalEnable) := by
  have hr' := amapAssign_inRange hr hs h
  rw [signatureKeyStr_eq hr, signatureKeyStr_eq hr']
  cases s <;> simp only [amapAssign, Option.map_eq_some_iff, Option.some.injEq, reduceCtorEq] at h
  case signKey => exact absurd rfl hne
  case apikey =>
    obtain ⟨f, -, rfl⟩ := h
    simp
  all_goals subst h
  case signEnable n =>
    by_cases hfull : r.signatureKey.text.length = 128
    · simp only [hfull, if_true, List.append_cancel_left_eq, true_and, not_exists, not_and,
        Setting.signEnable.injEq, not_not]
      rw [flagByte_inj hs hr.signalEnable]
      exact ⟨fun h m hm => hm ▸ h, fun h => h n rfl⟩
    · simp [hfull]
  all_goals simp

theorem apikeyStr_frame {r r' : AmapConfig} {s : Setting} (hr : AmapInRange r)
    (hs : SettingInRange s) (hterm : Setting.Terminated s) (hne : s.option ≠ .apikey)
    (h : amapAssign r s = some r') :
    r'.apikeyStr = r.apikeyStr ↔
      ¬ (r.apikey.text.length = 128 ∧
        ((∃ v, s = .signKey v ∧ v ≠ r.signatureKey.text) ∨
          r.signatureKey.text.length = 128 ∧ ∃ n, s = .signEnable n ∧ n ≠ r.signalEnable)) := by
  have hr' := amapAssign_inRange hr hs h
  have hsame : r'.apikey = r.apikey := by
    cases s <;>
      simp only [amapAssign, Option.map_eq_some_iff, Option.some.injEq, reduceCtorEq] at h
    case apikey => exact absurd rfl hne
    case signKey =>
      obtain ⟨f, -, rfl⟩ := h
      rfl
    all_goals
      subst h
      rfl
  rw [apikeyStr_eq, apikeyStr_eq, hsame]
  by_cases hfull : r.apikey.text.length = 128
  · simp only [hfull, if_true, List.append_cancel_left_eq, true_and, not_or]
    by_cases hk : s.option = .signKey
    · obtain ⟨v, rfl⟩ : ∃ v, s = .signKey v := by
        cases s <;> first | exact ⟨_, rfl⟩ | cases hk
      simp only [amapAssign, Option.map_eq_some_iff] at h
      obtain ⟨f, hf, rfl⟩ := h
      have htext : f.text = v := storeKey_text hterm hf
      rw [signatureKeyStr_eq hr, signatureKeyStr_eq hr']
      simp only [htext]
      rw [runOn_inj (htext ▸ f.text_length_le) r.signatureKey.text_length_le]
      simp
    · rw [signatureKeyStr_frame hr hs hk h]
      have hno : ∀ v, s ≠ .signKey v := by
        rintro v rfl
        exact hk rfl
      simp [hno]
  · simp [hfull]

theorem pidStr_frame {r r' : OneosposConfig} {s : Setting} (hr : OneosposInRange r)
    (hs : SettingInRange s) (hne : s.option ≠ .pid) (h : oneosposAssign r s = some r') :
    r'.pidStr = r.pidStr ↔
      ¬ (r.pid.text.length = 64 ∧ ∃ n, s = .precision n ∧ n ≠ r.precision) := by
  have hr' := oneosposAssign_inRange hr hs h
  rw [pidStr_eq hr, pidStr_eq hr']
  cases s <;>
    simp only [oneosposAssign, Option.map_eq_some_iff, Option.some.injEq, reduceCtorEq] at h
  case pid => exact absurd rfl hne
  all_goals subst h
  case precision n =>
    by_cases hfull : r.pid.text.length = 64
    · simp only [hfull, if_true, List.append_cancel_left_eq, List.cons.injEq, and_true, true_and,
        not_exists, not_and, Setting.precision.injEq, not_not]
      rw [precisionByte_inj hs hr.precision]
      exact ⟨fun h m hm => hm ▸ h, fun h => h n rfl⟩
    · simp [hfull]
  all_goals simp

/-- Apart from the digests, a report depends on its own option only. -/
theorem amapReport_frame {r r' : AmapConfig} {s : Setting} (h : amapAssign r s = some r')
    {op : AtcmdOption} (hne : op ≠ s.option) (hkey : op ≠ .apikey) (hsig : op ≠ .signKey)
    (md5 : CStr → Digest) (p : LocationPlatform) :
    amapReport md5 p r' op = amapReport md5 p r op := by
  cases s <;> simp only [amapAssign, Option.map_eq_some_iff, Option.some.injEq, reduceCtorEq] at h
  case apikey | signKey =>
    obtain ⟨f, -, rfl⟩ := h
    cases op <;> first | rfl | exact absurd rfl hkey | exact absurd rfl hsig
  all_goals
    subst h
    cases op <;> first | rfl | exact absurd rfl hkey | exact absurd rfl hsig | exact absurd rfl hne

theorem oneosposReport_frame {r r' : OneosposConfig} {s : Setting}
    (h : oneosposAssign r s = some r') {op : AtcmdOption} (hne : op ≠ s.option)
    (hpid : op ≠ .pid) (md5 : CStr → Digest) :
    oneosposReport md5 r' op = oneosposReport md5 r op := by
  cases s <;>
    simp only [oneosposAssign, Option.map_eq_some_iff, Option.some.injEq, reduceCtorEq] at h
  case pid =>
    obtain ⟨f, -, rfl⟩ := h
    cases op <;> first | rfl | exact absurd rfl hpid
  all_goals
    subst h
    cases op <;> first | rfl | exact absurd rfl hpid | exact absurd rfl hne

/-- Digests agree under every hash function only for equal texts. -/
theorem atcmdMd5_same_iff (a b : CStr) :
    (∀ md5, some (atcmdMd5 md5 a) = some (atcmdMd5 md5 b)) ↔ a = b := by
  constructor
  · intro h
    by_contra hne
    let md5 : CStr → Digest := fun x =>
      if x = a then ⟨List.replicate 16 0, rfl⟩ else ⟨List.replicate 16 1, rfl⟩
    have hsame := Option.some.inj (h md5)
    have hb : b ≠ a := Ne.symm hne
    simp only [atcmdMd5, md5, if_true, hb, if_false] at hsame
    exact absurd hsame (by decide)
  · rintro rfl md5
    rfl

theorem finishReport_inj {sub : CStr} {a b : Option CStr}
    (h : finishReport sub a = finishReport sub b) : a = b := by
  cases a <;> cases b <;> simp_all [finishReport]

/-- The shape of both getters once the option and the record are known. -/
def getRecord (mem : CfgSite → Bool) (sub : CStr) (report : Option CStr) :
    LbsState × Option CStr :=
  if !mem .attr then (.memroyErr, none) else finishReport sub report

theorem getRecord_same_iff (sub : CStr) (f g : (CStr → Digest) → Option CStr) :
    (∀ md5 mem, getRecord mem sub (f md5) = getRecord mem sub (g md5)) ↔ ∀ md5, f md5 = g md5 := by
  constructor
  · intro h md5
    exact finishReport_inj (h md5 fun _ => true)
  · intro h md5 mem
    rw [h md5]

/-- The AMAP record that is read, or the one that stands in for a missing file. -/
def amapShown (dir : ConfigDir) : AmapConfig :=
  (atcmdReadAmapcfg dir (atcmdGetplatform dir)).getD amapBase

/-- The record that the OneOS getter shows when there is none. -/
def oneosposShown : OneosposConfig :=
  { oneosposBase with pid := Field.store cmLbsOneosposInternalPid internalPid_length_le }

theorem mlbscfgGet_amap {dir : ConfigDir} (hp : IsAmap (atcmdGetplatform dir)) {sub : CStr}
    {op : AtcmdOption} (hop : subcmdToOption sub = some op) (hne : op ≠ .method)
    (md5 : CStr → Digest) (mem : CfgSite → Bool) :
    mlbscfgGet md5 mem dir sub =
      getRecord mem sub (amapReport md5 (atcmdGetplatform dir) (amapShown dir) op) := by
  have hno := hp.ne_oneospos
  simp only [mlbscfgGet, hop, Option.some.injEq, hne, if_false, hno, amapConfigGet]
  rfl

theorem mlbscfgGet_oneospos {dir : ConfigDir} (hp : atcmdGetplatform dir = .oneospos)
    {sub : CStr} {op : AtcmdOption} (hop : subcmdToOption sub = some op) (hne : op ≠ .method)
    (md5 : CStr → Digest) (mem : CfgSite → Bool) :
    mlbscfgGet md5 mem dir sub = getRecord mem sub
      (oneosposReport md5 ((atcmdReadOneosposcfg dir).getD oneosposShown) op) := by
  simp only [mlbscfgGet, hop, Option.some.injEq, hne, if_false, hp, if_true, oneosposConfigGet]
  rfl

end Frame

/-- The set commands that change the report of an option that is not theirs. -/
inductive Interferes (dir : ConfigDir) (c : SetCommand) (sub : CStr) : Prop where
  /-- The first OneOS record: its pid is empty, not the built-in one shown so far. -/
  | firstRecord : atcmdGetplatform dir = .oneospos → dir.oneospos = none →
      subcmdToOption sub = some .pid → Interferes dir c sub
  | fullPid (r : OneosposConfig) (n : Int32) : atcmdGetplatform dir = .oneospos →
      dir.oneospos = some r → subcmdToOption sub = some .pid → r.pid.text.length = 64 →
      SetCommand.setting c = some (.precision n) → n ≠ r.precision → Interferes dir c sub
  | fullApikey (v : CStr) : IsAmap (atcmdGetplatform dir) →
      subcmdToOption sub = some .apikey → (amapShown dir).apikey.text.length = 128 →
      SetCommand.setting c = some (.signKey v) → v ≠ (amapShown dir).signatureKey.text →
      Interferes dir c sub
  | fullKeys (n : Int32) : IsAmap (atcmdGetplatform dir) →
      subcmdToOption sub = some .apikey → (amapShown dir).apikey.text.length = 128 →
      (amapShown dir).signatureKey.text.length = 128 →
      SetCommand.setting c = some (.signEnable n) → n ≠ (amapShown dir).signalEnable →
      Interferes dir c sub
  | fullSignKey (n : Int32) : IsAmap (atcmdGetplatform dir) →
      subcmdToOption sub = some .signKey → (amapShown dir).signatureKey.text.length = 128 →
      SetCommand.setting c = some (.signEnable n) → n ≠ (amapShown dir).signalEnable →
      Interferes dir c sub

theorem not_interferes_of_option {dir : ConfigDir} {c : SetCommand} {sub : CStr}
    (hpid : subcmdToOption sub ≠ some .pid) (hkey : subcmdToOption sub ≠ some .apikey)
    (hsig : subcmdToOption sub ≠ some .signKey) : ¬ Interferes dir c sub := by
  intro h
  cases h with
  | firstRecord _ _ h => exact hpid h
  | fullPid _ _ _ _ h => exact hpid h
  | fullApikey _ _ h => exact hkey h
  | fullKeys _ _ h => exact hkey h
  | fullSignKey _ _ h => exact hsig h

/-- Both reads of one option agree under every hash function. -/
def SameReport (dir dir' : ConfigDir) (sub : CStr) : Prop :=
  ∀ md5 mem, mlbscfgGet md5 mem dir' sub = mlbscfgGet md5 mem dir sub

theorem sameReport_of_platform {dir dir' : ConfigDir} {sub : CStr}
    (hp : atcmdGetplatform dir' = atcmdGetplatform dir)
    (hsub : subcmdToOption sub = none ∨ subcmdToOption sub = some .method) :
    SameReport dir dir' sub := by
  intro md5 mem
  rcases hsub with h | h
  · simp [mlbscfgGet, amapConfigGet, oneosposConfigGet, h, hp]
  · simp [mlbscfgGet, h, hp]

section Options
variable {dir : ConfigDir} {c : SetCommand} {s : Setting} {sub : CStr}

theorem apikey_interferes_iff (hp : IsAmap (atcmdGetplatform dir))
    (hs : SetCommand.setting c = some s) (hop : subcmdToOption sub = some .apikey) :
    Interferes dir c sub ↔
      (amapShown dir).apikey.text.length = 128 ∧
        ((∃ v, s = .signKey v ∧ v ≠ (amapShown dir).signatureKey.text) ∨
          (amapShown dir).signatureKey.text.length = 128 ∧
            ∃ n, s = .signEnable n ∧ n ≠ (amapShown dir).signalEnable) := by
  constructor
  · intro h
    cases h with
    | firstRecord _ _ h => simp [hop] at h
    | fullPid _ _ _ _ h => simp [hop] at h
    | fullApikey v _ _ hfull hset hv =>
      exact ⟨hfull, Or.inl ⟨v, Option.some.inj (hs.symm.trans hset), hv⟩⟩
    | fullKeys n _ _ hfull hsig hset hn =>
      exact ⟨hfull, Or.inr ⟨hsig, n, Option.some.inj (hs.symm.trans hset), hn⟩⟩
    | fullSignKey _ _ h => simp [hop] at h
  · rintro ⟨hfull, ⟨v, rfl, hv⟩ | ⟨hsig, n, rfl, hn⟩⟩
    · exact .fullApikey v hp hop hfull hs hv
    · exact .fullKeys n hp hop hfull hsig hs hn

theorem signKey_interferes_iff (hp : IsAmap (atcmdGetplatform dir))
    (hs : SetCommand.setting c = some s) (hop : subcmdToOption sub = some .signKey) :
    Interferes dir c sub ↔
      (amapShown dir).signatureKey.text.length = 128 ∧
        ∃ n, s = .signEnable n ∧ n ≠ (amapShown dir).signalEnable := by
  constructor
  · intro h
    cases h with
    | firstRecord _ _ h => simp [hop] at h
    | fullPid _ _ _ _ h => simp [hop] at h
    | fullApikey _ _ h => simp [hop] at h
    | fullKeys _ _ h => simp [hop] at h
    | fullSignKey n _ _ hsig hset hn =>
      exact ⟨hsig, n, Option.some.inj (hs.symm.trans hset), hn⟩
  · rintro ⟨hsig, n, rfl, hn⟩
    exact .fullSignKey n hp hop hsig hs hn

theorem not_interferes_amap_pid (hp : IsAmap (atcmdGetplatform dir))
    (hop : subcmdToOption sub = some .pid) : ¬ Interferes dir c sub := by
  have hno := hp.ne_oneospos
  intro h
  cases h with
  | firstRecord h => exact hno h
  | fullPid _ _ h => exact hno h
  | fullApikey _ _ h => simp [hop] at h
  | fullKeys _ _ h => simp [hop] at h
  | fullSignKey _ _ h => simp [hop] at h

theorem sameReport_amap {r' : AmapConfig} (hd : DirInRange dir)
    (hp : IsAmap (atcmdGetplatform dir)) (hs : SetCommand.setting c = some s)
    (hass : amapAssign (amapShown dir) s = some r') {op : AtcmdOption}
    (hop : subcmdToOption sub = some op) (hm : op ≠ .method) (hne : op ≠ s.option) :
    SameReport dir (atcmdWriteAmapcfg dir (atcmdGetplatform dir) r') sub ↔
      ¬ Interferes dir c sub := by
  have hr : AmapInRange (amapShown dir) := readAmapcfg_inRange hd (atcmdGetplatform dir)
  have hrange := setting_inRange hs
  have hget := mlbscfgGet_amap hp hop hm
  have hp' : IsAmap (atcmdGetplatform (atcmdWriteAmapcfg dir (atcmdGetplatform dir) r')) := by
    simpa using hp
  have hget' := mlbscfgGet_amap hp' hop hm
  have hshown : amapShown (atcmdWriteAmapcfg dir (atcmdGetplatform dir) r') = r' := by
    simp [amapShown]
  simp only [atcmdGetplatform_writeAmapcfg, hshown] at hget'
  simp only [SameReport, hget, hget']
  rw [getRecord_same_iff sub (fun md5 => amapReport md5 _ r' op)
    (fun md5 => amapReport md5 _ (amapShown dir) op)]
  cases op
  case apikey =>
    simp only [amapReport]
    rw [atcmdMd5_same_iff, apikeyStr_frame hr hrange (setting_terminated hs) (Ne.symm hne) hass]
    exact not_congr (apikey_interferes_iff hp hs hop).symm
  case signKey =>
    simp only [amapReport]
    rw [atcmdMd5_same_iff, signatureKeyStr_frame hr hrange (Ne.symm hne) hass]
    exact not_congr (signKey_interferes_iff hp hs hop).symm
  case pid => exact iff_of_true (fun _ => rfl) (not_interferes_amap_pid hp hop)
  all_goals
    refine iff_of_true (fun md5 => amapReport_frame hass hne (by decide) (by decide) md5 _) ?_
    exact not_interferes_of_option (by simp [hop]) (by simp [hop]) (by simp [hop])

/-- A pid that stays in the record is shown as before; the first record replaces
the built-in pid by an empty one. -/
theorem pidStr_shown_iff {r' : OneosposConfig} (hd : DirInRange dir)
    (hp : atcmdGetplatform dir = .oneospos) (hs : SetCommand.setting c = some s)
    (hop : subcmdToOption sub = some .pid) (hne : s.option ≠ .pid)
    (hass : oneosposAssign ((atcmdReadOneosposcfg dir).getD oneosposBase) s = some r') :
    r'.pidStr = ((atcmdReadOneosposcfg dir).getD oneosposShown).pidStr ↔
      ¬ Interferes dir c sub := by
  have hr := readOneosposcfg_inRange hd
  have hframe := pidStr_frame hr (setting_inRange hs) hne hass
  cases hread : atcmdReadOneosposcfg dir with
  | none =>
    rw [hread, Option.getD_none] at hframe
    have hkept : r'.pidStr = oneosposBase.pidStr :=
      hframe.mpr fun h => absurd h.1 (by decide)
    have hdiff : oneosposBase.pidStr ≠ oneosposShown.pidStr := by decide
    refine iff_of_false ?_ ?_
    · rw [Option.getD_none, hkept]
      exact hdiff
    · exact not_not_intro (.firstRecord hp hread hop)
  | some r =>
    rw [hread, Option.getD_some] at hframe
    rw [Option.getD_some, hframe]
    refine not_congr ⟨?_, ?_⟩
    · rintro ⟨hfull, n, rfl, hn⟩
      exact .fullPid r n hp hread hop hfull hs hn
    · intro h
      cases h with
      | firstRecord _ h => simp [atcmdReadOneosposcfg, h] at hread
      | fullPid r₁ n _ h _ hfull hset hn =>
        obtain rfl : r₁ = r := Option.some.inj (h.symm.trans hread)
        exact ⟨hfull, n, Option.some.inj (hs.symm.trans hset), hn⟩
      | fullApikey _ _ h => simp [hop] at h
      | fullKeys _ _ h => simp [hop] at h
      | fullSignKey _ _ h => simp [hop] at h

theorem oneosposReport_shown {op : AtcmdOption} (hpid : op ≠ .pid) (dir : ConfigDir)
    (md5 : CStr → Digest) :
    oneosposReport md5 ((atcmdReadOneosposcfg dir).getD oneosposBase) op =
      oneosposReport md5 ((atcmdReadOneosposcfg dir).getD oneosposShown) op := by
  cases atcmdReadOneosposcfg dir with
  | none => cases op <;> first | rfl | exact absurd rfl hpid
  | some r => rfl

theorem not_interferes_oneospos (hp : atcmdGetplatform dir = .oneospos)
    (hop : subcmdToOption sub ≠ some .pid) : ¬ Interferes dir c sub := by
  have hno : ¬ IsAmap (atcmdGetplatform dir) := by
    rw [hp]
    decide
  intro h
  cases h with
  | firstRecord _ _ h => exact hop h
  | fullPid _ _ _ _ h => exact hop h
  | fullApikey _ h => exact hno h
  | fullKeys _ h => exact hno h
  | fullSignKey _ h => exact hno h

theorem sameReport_oneospos {r' : OneosposConfig} (hd : DirInRange dir)
    (hp : atcmdGetplatform dir = .oneospos) (hs : SetCommand.setting c = some s)
    (hass : oneosposAssign ((atcmdReadOneosposcfg dir).getD oneosposBase) s = some r')
    {op : AtcmdOption} (hop : subcmdToOption sub = some op) (hm : op ≠ .method)
    (hne : op ≠ s.option) :
    SameReport dir (atcmdWriteOneosposcfg dir r') sub ↔ ¬ Interferes dir c sub := by
  have hget := mlbscfgGet_oneospos hp hop hm
  have hp' : atcmdGetplatform (atcmdWriteOneosposcfg dir r') = .oneospos := hp
  have hget' := mlbscfgGet_oneospos hp' hop hm
  simp only [atcmdReadOneosposcfg_write, Option.getD_some] at hget'
  simp only [SameReport, hget, hget']
  rw [getRecord_same_iff sub (fun md5 => oneosposReport md5 r' op)
    (fun md5 => oneosposReport md5 ((atcmdReadOneosposcfg dir).getD oneosposShown) op)]
  by_cases hpid : op = .pid
  · subst hpid
    simp only [oneosposReport]
    rw [atcmdMd5_same_iff]
    exact pidStr_shown_iff hd hp hs hop (Ne.symm hne) hass
  · refine iff_of_true (fun md5 => ?_) (not_interferes_oneospos hp (by simpa [hop] using hpid))
    rw [oneosposReport_frame hass hne hpid md5]
    exact oneosposReport_shown hpid dir md5

end Options

/-- An accepted set command of one option leaves the report of another as it was,
whatever the hash function, exactly when it does not interfere with it. -/
theorem mlbscfgGet_frame_iff (cs : List SetCommand) (c : SetCommand) (sub : CStr)
    (accepted : (c.run (runSets emptyDir cs)).1 = some .ok)
    (hop : subcmdToOption c.subcmd ≠ some .method)
    (other : subcmdToOption sub ≠ subcmdToOption c.subcmd) :
    SameReport (runSets emptyDir cs) (c.run (runSets emptyDir cs)).2 sub ↔
      ¬ Interferes (runSets emptyDir cs) c sub := by
  have hd := runSets_inRange emptyDir_selected emptyDir_inRange cs
  have hsel := (runSets_simulates emptyDir_selected cs).2
  generalize runSets emptyDir cs = dir at accepted hd hsel ⊢
  have heff := run_effect hsel c
  rw [accepted] at heff
  generalize (c.run dir).2 = dir' at heff ⊢
  have plain : ∀ {dir'}, atcmdGetplatform dir' = atcmdGetplatform dir →
      subcmdToOption sub = none ∨ subcmdToOption sub = some .method →
      (SameReport dir dir' sub ↔ ¬ Interferes dir c sub) := by
    intro dir' hp hsub
    refine iff_of_true (sameReport_of_platform hp hsub) (not_interferes_of_option ?_ ?_ ?_)
    all_goals rcases hsub with h | h <;> simp [h]
  cases heff with
  | rejected _ hcode => exact absurd rfl hcode
  | method p _ hacc => exact absurd (accepts_option hacc) hop
  | amap s r' hp hs hne hacc hass =>
    have hc := accepts_option hacc
    cases hsub : subcmdToOption sub with
    | none => exact plain (by simp) (Or.inl hsub)
    | some op =>
      by_cases hm : op = .method
      · exact plain (by simp) (Or.inr (hm ▸ hsub))
      · refine sameReport_amap hd hp hs hass hsub hm ?_
        rintro rfl
        exact other (hsub.trans hc.symm)
  | oneospos s r' hp hs hne hacc hass =>
    have hc := accepts_option hacc
    cases hsub : subcmdToOption sub with
    | none => exact plain (by simp) (Or.inl hsub)
    | some op =>
      by_cases hm : op = .method
      · exact plain (by simp) (Or.inr (hm ▸ hsub))
      · refine sameReport_oneospos hd hp hs hass hsub hm ?_
        rintro rfl
        exact other (hsub.trans hc.symm)

/-- `AT+MLBSCFG="precision","3"` -/
def setPrecision : SetCommand where
  subcmd := cstr "precision"
  value := cstr "3"
  valueTerminated := by decide
  mem _ := true

theorem mlbscfgGet_frame_iff_precision :
    SameReport (runSets emptyDir []) (setPrecision.run (runSets emptyDir [])).2 (cstr "nearbtsen") ↔
      ¬ Interferes (runSets emptyDir []) setPrecision (cstr "nearbtsen") :=
  mlbscfgGet_frame_iff [] setPrecision _ (by decide) (by decide) (by decide)

/-- The first precision set on OneOS replaces the reported built-in pid by the
empty one. -/
theorem setPrecision_changes_pid :
    (setPrecision.run emptyDir).1 = some .ok ∧ subcmdToOption setPrecision.subcmd ≠ some .method ∧
      subcmdToOption (cstr "pid") ≠ subcmdToOption setPrecision.subcmd ∧
      ¬ SameReport emptyDir (setPrecision.run emptyDir).2 (cstr "pid") := by
  refine ⟨by decide, by decide, by decide, ?_⟩
  intro h
  let md5 : CStr → Digest := fun x =>
    if x = [] then ⟨List.replicate 16 0, rfl⟩ else ⟨List.replicate 16 1, rfl⟩
  exact absurd (h md5 fun _ => true) (by decide)

end AtConfigReport
