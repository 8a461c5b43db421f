import LinuxBuild.AtConfig
import Mathlib.Logic.Function.Basic

/-!
# The configuration store as one record per platform

The abstract machine has a selected platform and, for every platform, an optional
record from options to values. An accepted command changes the selection or one
option of the selected record, which is created with the platform's defaults on
its first change. The four files simulate this machine over all command runs.
-/
namespace AtConfigRefinement
open CString LbsTypes AtConfig

inductive Value where
  | text (s : CStr)
  | number (n : Int32)
  deriving DecidableEq

/-- The options a platform does not have are `none`. -/
abbrev Record := AtcmdOption → Option Value

structure Machine where
  selected : LocationPlatform
  record : LocationPlatform → Option Record

def amapRecord (apikey signKey : CStr) (signEnable precision descrMode nearbts : Int32) : Record
  | .apikey => some (.text apikey)
  | .signKey => some (.text signKey)
  | .signEnable => some (.number signEnable)
  | .precision => some (.number precision)
  | .descrMode => some (.number descrMode)
  | .nearbtsEnable => some (.number nearbts)
  | _ => none

def oneosposRecord (pid : CStr) (precision nearbts coordinate : Int32) : Record
  | .pid => some (.text pid)
  | .precision => some (.number precision)
  | .nearbtsEnable => some (.number nearbts)
  | .oneosChangeCoordinate => some (.number coordinate)
  | _ => none

def defaults : LocationPlatform → Record
  | .amap10 => amapRecord [] [] 0 8 0 0
  | .amap20 => amapRecord [] [] 0 8 0 0
  | .oneospos => oneosposRecord [] 8 0 1
  | .other _ => fun _ => none

def initial : Machine := ⟨.oneospos, fun _ => none⟩

def IsAmap (p : LocationPlatform) : Prop := p = .amap10 ∨ p = .amap20

instance (p : LocationPlatform) : Decidable (IsAmap p) := inferInstanceAs (Decidable (_ ∨ _))

theorem IsAmap.ne_oneospos {p : LocationPlatform} (hp : IsAmap p) : p ≠ .oneospos := by
  rintro rfl
  rcases hp with h | h <;> cases h

/-- A string that passes for digits and whose value lies between the bounds. -/
def numeral (lo hi : Int32) (v : CStr) : Option Value :=
  if stringIsDigital v ∧ lo ≤ atoi v ∧ atoi v ≤ hi then some (.number (atoi v)) else none

/-- The value that a string is for an option of the platform, if it is one. -/
def meaning (p : LocationPlatform) (op : AtcmdOption) (v : CStr) : Option Value :=
  match op with
  | .method =>
    if stringIsDigital v ∧ (atoi v = 10 ∨ atoi v = 11 ∨ atoi v = 40) then some (.number (atoi v))
    else none
  | .apikey | .signKey => if IsAmap p ∧ v.length ≤ 128 then some (.text v) else none
  | .pid => if p = .oneospos ∧ v.length ≤ 64 then some (.text v) else none
  | .precision => numeral 1 8 v
  | .nearbtsEnable => numeral 0 1 v
  | .descrMode | .signEnable => if IsAmap p then numeral 0 1 v else none
  | .oneosChangeCoordinate => if p = .oneospos then numeral 0 1 v else none
  | .oneosInternalPid => none

def enoughMemory (mem : CfgSite → Bool) (op : AtcmdOption) : Bool :=
  mem .attr && (op ≠ .method || mem .atcmdCfg)

/-- The option and the value a command sets, if the machine accepts it. -/
def Machine.accepts (m : Machine) (c : SetCommand) : Option (AtcmdOption × Value) :=
  match subcmdToOption c.subcmd with
  | none => none
  | some op =>
    if enoughMemory c.mem op then (meaning m.selected op c.value).map (op, ·) else none

/-- One option of the selected record takes a new value. -/
def Machine.assign (m : Machine) (op : AtcmdOption) (x : Value) : Machine :=
  let record := (m.record m.selected).getD (defaults m.selected)
  { m with
    record := Function.update m.record m.selected (some (Function.update record op (some x))) }

def Machine.step (m : Machine) (c : SetCommand) : Machine :=
  match m.accepts c with
  | none => m
  | some (.method, .number n) => { m with selected := .ofCode n }
  | some (op, x) => m.assign op x

def Machine.run (m : Machine) : List SetCommand → Machine
  | [] => m
  | c :: cs => (m.step c).run cs

def absAmap (r : AmapConfig) : Record :=
  amapRecord r.apikey.text r.signatureKey.text r.signalEnable r.precision r.descrMode
    r.nearbtsEnable

def absOneospos (r : OneosposConfig) : Record :=
  oneosposRecord r.pid.text r.precision r.nearbtsEnable r.coordinateEnable

def abs (dir : ConfigDir) : Machine where
  selected := atcmdGetplatform dir
  record
    | .amap10 => dir.amapv10.map absAmap
    | .amap20 => dir.amapv20.map absAmap
    | .oneospos => dir.oneospos.map absOneospos
    | .other _ => none

/-- The selected platform has a back end. -/
def Selected (dir : ConfigDir) : Prop :=
  IsAmap (atcmdGetplatform dir) ∨ atcmdGetplatform dir = .oneospos

def Setting.value : Setting → Value
  | .method p => .number p.code
  | .apikey v => .text v
  | .precision n => .number n
  | .descrMode n => .number n
  | .signEnable n => .number n
  | .signKey v => .text v
  | .pid v => .text v
  | .nearbtsEnable n => .number n
  | .oneosChangeCoordinate n => .number n

theorem abs_emptyDir : abs emptyDir = initial := by
  simp only [abs, initial, emptyDir]
  congr
  funext p
  cases p <;> rfl

theorem numberIn_numeral (lo hi : Int32) (v : CStr) :
    (numberIn lo hi v).map Value.number = numeral lo hi v := by
  simp only [numberIn, numeral]
  by_cases hd : stringIsDigital v = true
  · by_cases hr : atoi v < lo ∨ atoi v > hi
    · have : ¬ (lo ≤ atoi v ∧ atoi v ≤ hi) := by grind
      simp [hd, hr, this]
    · have : lo ≤ atoi v ∧ atoi v ≤ hi := by grind
      simp [hd, hr, this]
  · simp [hd]

theorem ofCode_backed (n : Int32) :
    (LocationPlatform.ofCode n = .amap10 ∨ LocationPlatform.ofCode n = .amap20 ∨
      LocationPlatform.ofCode n = .oneospos) ↔ n = 10 ∨ n = 11 ∨ n = 40 := by
  simp only [LocationPlatform.ofCode]
  split
  · simp_all
  split
  · simp_all
  split <;> simp_all

theorem checkSetting_option {op : AtcmdOption} {v : CStr} {s : Setting}
    (h : checkSetting op v = some s) : s.option = op := by
  cases op <;> simp only [checkSetting, Option.map_eq_some_iff] at h
  case method =>
    split at h
    · split at h
      · cases h
        rfl
      · cases h
    · cases h
  case oneosInternalPid => cases h
  case apikey | signKey | pid =>
    cases h
    rfl
  all_goals
    obtain ⟨n, -, rfl⟩ := h
    rfl

/-- The texts of a checked setting are the command's own string. -/
def Setting.Terminated : Setting → Prop
  | .apikey v | .signKey v | .pid v => 0 ∉ v
  | _ => True

theorem checkSetting_terminated {op : AtcmdOption} {v : CStr} {s : Setting} (hv : 0 ∉ v)
    (h : checkSetting op v = some s) : Setting.Terminated s := by
  have hop := checkSetting_option h
  cases s <;> try trivial
  all_goals
    subst hop
    cases h
    exact hv

/-- The platform has the option, and a text fits its field. -/
def fits (p : LocationPlatform) : Setting → Bool
  | .method _ => false
  | .apikey v | .signKey v => decide (IsAmap p ∧ v.length ≤ 128)
  | .pid v => decide (p = .oneospos ∧ v.length ≤ 64)
  | .precision _ | .nearbtsEnable _ => true
  | .descrMode _ | .signEnable _ => decide (IsAmap p)
  | .oneosChangeCoordinate _ => decide (p = .oneospos)

/-- For every option but the selection, a string has a meaning exactly when the
command's own checks pass and the setting fits the platform. -/
theorem meaning_eq (p : LocationPlatform) {op : AtcmdOption} (v : CStr) (hop : op ≠ .method) :
    meaning p op v =
      (checkSetting op v).bind fun s => if fits p s then some (Setting.value s) else none := by
  cases op
  case method => exact absurd rfl hop
  case apikey | signKey | pid => simp [meaning, checkSetting, fits, Setting.value]
  case oneosInternalPid => rfl
  case precision | nearbtsEnable =>
    simp only [meaning, checkSetting, ← numberIn_numeral, Option.map_eq_bind, Option.bind_assoc,
      Option.bind_some, Function.comp_apply, fits, if_true]
    rfl
  all_goals
    simp only [meaning, checkSetting, ← numberIn_numeral, Option.map_eq_bind, Option.bind_assoc,
      Option.bind_some, Function.comp_apply, fits, decide_eq_true_eq]
    split
    · rfl
    · simp

theorem storeKey_eq_some {n : Nat} {v : CStr} {f : Field n} (h : storeKey n v = some f) :
    ∃ hv : v.length ≤ n, f = Field.store v hv := by
  simp only [storeKey] at h
  split at h
  · cases h
    exact ⟨_, rfl⟩
  · cases h

theorem storeKey_text {n : Nat} {v : CStr} (hv : 0 ∉ v) {f : Field n}
    (h : storeKey n v = some f) : f.text = v := by
  obtain ⟨hl, rfl⟩ := storeKey_eq_some h
  exact Field.text_store hv hl

theorem storeKey_isSome (n : Nat) (v : CStr) : (storeKey n v).isSome = decide (v.length ≤ n) := by
  simp only [storeKey]
  split <;> simp_all

theorem amapAssign_isSome {p : LocationPlatform} (hp : IsAmap p) (r : AmapConfig) (s : Setting) :
    (amapAssign r s).isSome = fits p s := by
  have hno := hp.ne_oneospos
  cases s <;> simp [amapAssign, fits, hp, hno, storeKey_isSome]

theorem oneosposAssign_isSome (r : OneosposConfig) (s : Setting) :
    (oneosposAssign r s).isSome = fits .oneospos s := by
  have hno : ¬ IsAmap .oneospos := by decide
  cases s <;> simp [oneosposAssign, fits, hno, storeKey_isSome]

/-- The AMAP switch changes one option of the record. -/
theorem absAmap_assign {r r' : AmapConfig} {s : Setting} (hs : Setting.Terminated s)
    (h : amapAssign r s = some r') :
    absAmap r' = Function.update (absAmap r) s.option (some (Setting.value s)) := by
  funext op
  cases s <;> simp only [amapAssign, Option.map_eq_some_iff, Option.some.injEq,
    reduceCtorEq] at h
  case apikey | signKey =>
    obtain ⟨f, hf, rfl⟩ := h
    have htext := storeKey_text hs hf
    cases op <;> simp [absAmap, amapRecord, Setting.option, Setting.value, htext]
  all_goals
    subst h
    cases op <;> simp [absAmap, amapRecord, Setting.option, Setting.value]

theorem absOneospos_assign {r r' : OneosposConfig} {s : Setting} (hs : Setting.Terminated s)
    (h : oneosposAssign r s = some r') :
    absOneospos r' = Function.update (absOneospos r) s.option (some (Setting.value s)) := by
  funext op
  cases s <;> simp only [oneosposAssign, Option.map_eq_some_iff, Option.some.injEq,
    reduceCtorEq] at h
  case pid =>
    obtain ⟨f, hf, rfl⟩ := h
    have htext := storeKey_text hs hf
    cases op <;> simp [absOneospos, oneosposRecord, Setting.option, Setting.value, htext]
  all_goals
    subst h
    cases op <;> simp [absOneospos, oneosposRecord, Setting.option, Setting.value]

/-- The setting that the command's strings stand for, before memory and platform
are looked at. -/
def SetCommand.setting (c : SetCommand) : Option Setting :=
  (subcmdToOption c.subcmd).bind fun op => checkSetting op c.value

theorem setting_terminated {c : SetCommand} {s : Setting} (h : SetCommand.setting c = some s) :
    Setting.Terminated s := by
  obtain ⟨op, -, hs⟩ := Option.bind_eq_some_iff.mp h
  exact checkSetting_terminated c.valueTerminated hs

/-- The record that an AMAP command starts from when there is none. -/
def amapBase : AmapConfig :=
  { AmapConfig.zero with
    precision := cmLbsPrecisionDefault
    descrMode := cmLbsDescrModeDefault
    signalEnable := cmLbsSignatureEnDefault }

def oneosposBase : OneosposConfig :=
  { OneosposConfig.zero with
    precision := cmLbsPrecisionDefault
    coordinateEnable := cmLbsOneosCoordinate }

/-- What one command can do to the files; `s` is the setting that its strings
stand for. -/
inductive Effect (dir : ConfigDir) (c : SetCommand) : Option LbsState → ConfigDir → Prop where
  | rejected (code : Option LbsState) :
      code ≠ some .ok → (abs dir).accepts c = none → Effect dir c code dir
  | method (p : LocationPlatform) :
      p = .amap10 ∨ p = .amap20 ∨ p = .oneospos →
      (abs dir).accepts c = some (.method, .number p.code) →
      Effect dir c (some .ok) (atcmdWriteAtcmdcfg dir p)
  | amap (s : Setting) (r' : AmapConfig) :
      IsAmap (atcmdGetplatform dir) → SetCommand.setting c = some s → s.option ≠ .method →
      (abs dir).accepts c = some (s.option, Setting.value s) →
      amapAssign ((atcmdReadAmapcfg dir (atcmdGetplatform dir)).getD amapBase) s = some r' →
      Effect dir c (some .ok) (atcmdWriteAmapcfg dir (atcmdGetplatform dir) r')
  | oneospos (s : Setting) (r' : OneosposConfig) :
      atcmdGetplatform dir = .oneospos → SetCommand.setting c = some s → s.option ≠ .method →
      (abs dir).accepts c = some (s.option, Setting.value s) →
      oneosposAssign ((atcmdReadOneosposcfg dir).getD oneosposBase) s = some r' →
      Effect dir c (some .ok) (atcmdWriteOneosposcfg dir r')

/-- How a command ends whose strings stand for no setting. -/
def refusal (c : SetCommand) : Option LbsState :=
  match subcmdToOption c.subcmd with
  | some op => if logsValue op c.value then none else some .paramErr
  | none => some .paramErr

theorem refusal_ne_ok (c : SetCommand) : refusal c ≠ some .ok := by
  simp only [refusal]
  split
  · split_ifs <;> decide
  · decide

theorem checkSetting_method {v : CStr} {p : LocationPlatform}
    (h : checkSetting .method v = some (.method p)) :
    p = .amap10 ∨ p = .amap20 ∨ p = .oneospos := by
  simp only [checkSetting] at h
  split at h
  · split at h
    · cases h
      assumption
    · cases h
  · cases h

theorem meaning_method (p : LocationPlatform) (v : CStr) :
    meaning p .method v = (checkSetting .method v).map Setting.value := by
  by_cases hd : stringIsDigital v = true
  · by_cases hn : atoi v = 10 ∨ atoi v = 11 ∨ atoi v = 40
    · have hcode : (LocationPlatform.ofCode (atoi v)).code = atoi v := by
        rcases hn with h | h | h <;> rw [h] <;> rfl
      simp [meaning, checkSetting, hd, hn, (ofCode_backed (atoi v)).mpr hn,
        Setting.value, hcode]
    · have hb := mt (ofCode_backed (atoi v)).mp hn
      simp only [meaning, checkSetting, hd, hn, hb, if_true, and_false, if_false,
        Option.map_none]
  · simp [meaning, checkSetting, hd]

theorem accepts_none {m : Machine} {c : SetCommand} (h : SetCommand.setting c = none) :
    m.accepts c = none := by
  simp only [SetCommand.setting] at h
  simp only [Machine.accepts]
  cases hop : subcmdToOption c.subcmd with
  | none => rfl
  | some op =>
    rw [hop, Option.bind_some] at h
    have hm : meaning m.selected op c.value = none := by
      by_cases ho : op = .method
      · rw [ho, meaning_method, ← ho, h]
        rfl
      · rw [meaning_eq _ _ ho, h]
        rfl
    simp [hm]

theorem accepts_some {m : Machine} {c : SetCommand} {s : Setting}
    (h : SetCommand.setting c = some s) :
    m.accepts c =
      if enoughMemory c.mem s.option ∧ (s.option = .method ∨ fits m.selected s) then
        some (s.option, Setting.value s)
      else none := by
  obtain ⟨op, hop, hs⟩ := Option.bind_eq_some_iff.mp h
  obtain rfl := checkSetting_option hs
  simp only [Machine.accepts, hop]
  by_cases ho : s.option = .method
  · rw [ho] at hs ⊢
    simp [meaning_method, hs]
  · rw [meaning_eq _ _ ho, hs]
    by_cases hm : enoughMemory c.mem s.option = true <;>
      by_cases hf : fits m.selected s = true <;> simp [ho, hm, hf]

theorem run_eq (c : SetCommand) (dir : ConfigDir) :
    c.run dir = match SetCommand.setting c with
      | none => (refusal c, dir)
      | some s => (some (atcmdSetoption c.mem dir s).1, (atcmdSetoption c.mem dir s).2) := by
  simp only [SetCommand.run, mlbscfgSet, SetCommand.setting, refusal]
  cases subcmdToOption c.subcmd with
  | none => rfl
  | some op => cases hcheck : checkSetting op c.value with
    | none => simp [hcheck]
    | some s => simp [hcheck]

/-- Of the settings of an AMAP platform only `method` is not an assignment. -/
theorem amapSetoption_eq {mem : CfgSite → Bool} {dir : ConfigDir} {s : Setting}
    (hne : s.option ≠ .method) (hp : IsAmap (atcmdGetplatform dir)) :
    amapSetoption mem dir s = if !mem .attr then (.memroyErr, dir) else
      match amapAssign ((atcmdReadAmapcfg dir (atcmdGetplatform dir)).getD amapBase) s with
      | none => (.paramErr, dir)
      | some r' => (.ok, atcmdWriteAmapcfg dir (atcmdGetplatform dir) r') := by
  have hp' : atcmdGetplatform dir = .amap10 ∨ atcmdGetplatform dir = .amap20 := hp
  cases s
  case method => exact absurd rfl hne
  all_goals
    simp only [amapSetoption, hp', if_true]
    rfl

theorem amapSetoption_effect {dir : ConfigDir} {c : SetCommand} {s : Setting}
    (hs : SetCommand.setting c = some s) (hne : s.option ≠ .method)
    (hp : IsAmap (atcmdGetplatform dir)) :
    Effect dir c (some (amapSetoption c.mem dir s).1) (amapSetoption c.mem dir s).2 := by
  have hacc : (abs dir).accepts c = _ := accepts_some hs
  have hmem : enoughMemory c.mem s.option = c.mem .attr := by simp [enoughMemory, hne]
  rw [hmem] at hacc
  rw [amapSetoption_eq hne hp]
  by_cases ha : c.mem .attr = true
  · have hsome := amapAssign_isSome hp
      ((atcmdReadAmapcfg dir (atcmdGetplatform dir)).getD amapBase) s
    cases hass : amapAssign ((atcmdReadAmapcfg dir (atcmdGetplatform dir)).getD amapBase) s with
    | none =>
      rw [hass] at hsome
      have hf : fits (abs dir).selected s = false := hsome.symm
      simp only [ha, Bool.not_true, Bool.false_eq_true, if_false]
      exact .rejected _ (by decide) (by rw [hacc]; simp [hne, hf])
    | some r' =>
      rw [hass] at hsome
      have hf : fits (abs dir).selected s = true := hsome.symm
      simp only [ha, Bool.not_true, Bool.false_eq_true, if_false]
      exact .amap s r' hp hs hne (by rw [hacc]; simp [ha, hf]) hass
  · simp only [ha, Bool.not_false, if_true]
    exact .rejected _ (by decide) (by rw [hacc]; simp [ha])

theorem oneosposSetoption_eq {mem : CfgSite → Bool} {dir : ConfigDir} {s : Setting} :
    oneosposSetoption mem dir s = if !mem .attr then (.paramErr, dir) else
      match oneosposAssign ((atcmdReadOneosposcfg dir).getD oneosposBase) s with
      | none => (.paramErr, dir)
      | some r' => (.ok, atcmdWriteOneosposcfg dir r') := rfl

theorem oneosposSetoption_effect {dir : ConfigDir} {c : SetCommand} {s : Setting}
    (hs : SetCommand.setting c = some s) (hne : s.option ≠ .method)
    (hp : atcmdGetplatform dir = .oneospos) :
    Effect dir c (some (oneosposSetoption c.mem dir s).1)
      (oneosposSetoption c.mem dir s).2 := by
  have hacc : (abs dir).accepts c = _ := accepts_some hs
  have hmem : enoughMemory c.mem s.option = c.mem .attr := by simp [enoughMemory, hne]
  have hsel : (abs dir).selected = .oneospos := hp
  rw [hmem, hsel] at hacc
  rw [oneosposSetoption_eq]
  by_cases ha : c.mem .attr = true
  · have hsome := oneosposAssign_isSome ((atcmdReadOneosposcfg dir).getD oneosposBase) s
    cases hass : oneosposAssign ((atcmdReadOneosposcfg dir).getD oneosposBase) s with
    | none =>
      rw [hass] at hsome
      have hf : fits .oneospos s = false := hsome.symm
      simp only [ha, Bool.not_true, Bool.false_eq_true, if_false]
      exact .rejected _ (by decide) (by rw [hacc]; simp [hne, hf])
    | some r' =>
      rw [hass] at hsome
      have hf : fits .oneospos s = true := hsome.symm
      simp only [ha, Bool.not_true, Bool.false_eq_true, if_false]
      exact .oneospos s r' hp hs hne (by rw [hacc]; simp [ha, hf]) hass
  · simp only [ha, Bool.not_false, if_true]
    exact .rejected _ (by decide) (by rw [hacc]; simp [ha])

theorem method_effect {dir : ConfigDir} {c : SetCommand} {p : LocationPlatform}
    (hs : SetCommand.setting c = some (.method p)) :
    Effect dir c (some (amapSetoption c.mem dir (.method p)).1)
      (amapSetoption c.mem dir (.method p)).2 := by
  have hacc : (abs dir).accepts c = _ := accepts_some hs
  obtain ⟨op, -, hcheck⟩ := Option.bind_eq_some_iff.mp hs
  obtain rfl := checkSetting_option hcheck
  have hb := checkSetting_method hcheck
  simp only [Setting.option, true_or, and_true, enoughMemory, ne_eq, not_true_eq_false,
    decide_false, Bool.false_or] at hacc
  by_cases ha : c.mem .attr = true
  · by_cases hc : c.mem .atcmdCfg = true
    · simp only [amapSetoption, ha, hc, Bool.not_true, Bool.false_eq_true, if_false]
      exact .method p hb (by rw [hacc]; simp [ha, hc, Setting.value])
    · simp only [amapSetoption, ha, hc, Bool.not_true, Bool.false_eq_true, if_false,
        Bool.not_false, if_true]
      exact .rejected _ (by decide) (by rw [hacc]; simp [hc])
  · simp only [amapSetoption, ha, Bool.not_false, if_true]
    exact .rejected _ (by decide) (by rw [hacc]; simp [ha])

theorem run_effect {dir : ConfigDir} (hsel : Selected dir) (c : SetCommand) :
    Effect dir c (c.run dir).1 (c.run dir).2 := by
  rw [run_eq]
  cases hs : SetCommand.setting c with
  | none => exact .rejected _ (refusal_ne_ok c) (accepts_none hs)
  | some s =>
    simp only [atcmdSetoption]
    by_cases hm : s.option = .method
    · rw [if_pos hm]
      cases s <;> first | exact method_effect hs | cases hm
    rw [if_neg hm]
    rcases hsel with hp | hp
    · rw [if_neg hp.ne_oneospos]
      exact amapSetoption_effect hs hm hp
    · rw [if_pos hp]
      exact oneosposSetoption_effect hs hm hp

theorem accepts_option {m : Machine} {c : SetCommand} {op : AtcmdOption} {x : Value}
    (h : m.accepts c = some (op, x)) : subcmdToOption c.subcmd = some op := by
  simp only [Machine.accepts] at h
  cases hop : subcmdToOption c.subcmd with
  | none => simp [hop] at h
  | some op' =>
    simp only [hop] at h
    split at h
    · obtain ⟨y, -, he⟩ := Option.map_eq_some_iff.mp h
      cases he
      rfl
    · cases h

theorem record_amap {dir : ConfigDir} {p : LocationPlatform} (hp : IsAmap p) :
    ((abs dir).record p).getD (defaults p) =
      absAmap ((atcmdReadAmapcfg dir p).getD amapBase) := by
  rcases hp with rfl | rfl
  · simp only [abs, atcmdReadAmapcfg, if_true]
    cases dir.amapv10 <;> rfl
  · simp only [abs, atcmdReadAmapcfg]
    cases dir.amapv20 <;> rfl

theorem record_oneospos (dir : ConfigDir) :
    ((abs dir).record .oneospos).getD (defaults .oneospos) =
      absOneospos ((atcmdReadOneosposcfg dir).getD oneosposBase) := by
  simp only [abs, atcmdReadOneosposcfg]
  cases dir.oneospos <;> rfl

theorem abs_writeAmapcfg {dir : ConfigDir} {p : LocationPlatform} (hp : IsAmap p)
    (r : AmapConfig) :
    abs (atcmdWriteAmapcfg dir p r) =
      { abs dir with record := Function.update (abs dir).record p (some (absAmap r)) } := by
  rcases hp with rfl | rfl
  all_goals
    simp only [abs, atcmdWriteAmapcfg, atcmdGetplatform, if_true, reduceCtorEq, if_false]
    congr
    funext q
    cases q <;> simp

theorem abs_writeOneosposcfg (dir : ConfigDir) (r : OneosposConfig) :
    abs (atcmdWriteOneosposcfg dir r) =
      { abs dir with
        record := Function.update (abs dir).record .oneospos (some (absOneospos r)) } := by
  simp only [abs, atcmdWriteOneosposcfg, atcmdGetplatform]
  congr
  funext q
  cases q <;> simp

theorem step_rejected {m : Machine} {c : SetCommand} (h : m.accepts c = none) : m.step c = m := by
  rw [Machine.step, h]

theorem step_field {m : Machine} {c : SetCommand} {op : AtcmdOption} {x : Value}
    (hop : op ≠ .method) (h : m.accepts c = some (op, x)) : m.step c = m.assign op x := by
  rw [Machine.step, h]
  cases op <;> first | rfl | exact absurd rfl hop

/-- A command does to the files what the machine does to its state. -/
theorem Effect.simulates {dir dir' : ConfigDir} {c : SetCommand} {code : Option LbsState}
    (h : Effect dir c code dir') : abs dir' = (abs dir).step c := by
  cases h with
  | rejected _ hcode hacc => rw [step_rejected hacc]
  | method p hp hacc =>
    have hcode : LocationPlatform.ofCode p.code = p := by
      rcases hp with rfl | rfl | rfl <;> rfl
    simp only [Machine.step, hacc, hcode]
    rfl
  | amap s r' hp hs hne hacc hass =>
    rw [step_field hne hacc, abs_writeAmapcfg hp, absAmap_assign (setting_terminated hs) hass,
      ← record_amap hp]
    rfl
  | oneospos s r' hp hs hne hacc hass =>
    rw [step_field hne hacc, abs_writeOneosposcfg, absOneospos_assign (setting_terminated hs) hass,
      ← record_oneospos, ← hp]
    rfl

theorem Effect.selected {dir dir' : ConfigDir} {c : SetCommand} {code : Option LbsState}
    (h : Effect dir c code dir') (hsel : Selected dir) : Selected dir' := by
  cases h with
  | rejected => exact hsel
  | method p hp =>
    rcases hp with rfl | rfl | rfl
    · exact Or.inl (Or.inl rfl)
    · exact Or.inl (Or.inr rfl)
    · exact Or.inr rfl
  | amap s r' =>
    rw [Selected, atcmdGetplatform_writeAmapcfg]
    exact hsel
  | oneospos => exact hsel

theorem Effect.code_ok_iff {dir dir' : ConfigDir} {c : SetCommand} {code : Option LbsState}
    (h : Effect dir c code dir') : code = some .ok ↔ ((abs dir).accepts c).isSome := by
  cases h with
  | rejected _ hcode hacc => simp [hcode, hacc]
  | method p _ hacc => simp [hacc]
  | amap s r' _ _ _ hacc => simp [hacc]
  | oneospos s r' _ _ _ hacc => simp [hacc]

/-- The parts of the store that a command leaves alone. -/
structure Confined (dir : ConfigDir) (c : SetCommand) (code : Option LbsState)
    (dir' : ConfigDir) : Prop where
  rejected : code ≠ some .ok → dir' = dir
  selection : subcmdToOption c.subcmd = some .method → ∃ p, dir' = { dir with atcmd := p }
  atcmd : subcmdToOption c.subcmd ≠ some .method → dir'.atcmd = dir.atcmd
  amapv10 : atcmdGetplatform dir ≠ .amap10 → dir'.amapv10 = dir.amapv10
  amapv20 : atcmdGetplatform dir ≠ .amap20 → dir'.amapv20 = dir.amapv20
  oneospos : atcmdGetplatform dir ≠ .oneospos → dir'.oneospos = dir.oneospos

theorem Effect.confined {dir dir' : ConfigDir} {c : SetCommand} {code : Option LbsState}
    (h : Effect dir c code dir') : Confined dir c code dir' := by
  cases h with
  | rejected _ hcode =>
    exact ⟨fun _ => rfl, fun _ => ⟨dir.atcmd, rfl⟩, fun _ => rfl, fun _ => rfl, fun _ => rfl,
      fun _ => rfl⟩
  | method p _ hacc =>
    exact ⟨fun h => absurd rfl h, fun _ => ⟨some p, rfl⟩,
      fun h => absurd (accepts_option hacc) h, fun _ => rfl, fun _ => rfl, fun _ => rfl⟩
  | amap s r' hp _ hne hacc =>
    have hop := accepts_option hacc
    refine ⟨fun h => absurd rfl h, ?_, ?_, ?_, ?_, ?_⟩
    · intro h
      rw [hop] at h
      exact absurd (Option.some.inj h) hne
    all_goals
      intro h
      rcases hp with hp | hp <;> simp_all [atcmdWriteAmapcfg]
  | oneospos s r' hp _ hne hacc =>
    have hop := accepts_option hacc
    refine ⟨fun h => absurd rfl h, ?_, fun _ => rfl, fun _ => rfl, fun _ => rfl,
      fun h => absurd hp h⟩
    intro h
    rw [hop] at h
    exact absurd (Option.some.inj h) hne

theorem emptyDir_selected : Selected emptyDir := Or.inr rfl

theorem runSets_simulates {dir : ConfigDir} (hsel : Selected dir) (cs : List SetCommand) :
    abs (runSets dir cs) = (abs dir).run cs ∧ Selected (runSets dir cs) := by
  induction cs generalizing dir with
  | nil => exact ⟨rfl, hsel⟩
  | cons c cs ih =>
    have heff := run_effect hsel c
    have hrest := ih (heff.selected hsel)
    rw [heff.simulates] at hrest
    exact hrest

/-- After any commands from the empty directory the files are the machine's
state after these commands. The next command is accepted exactly when the
machine accepts it, and touches nothing but the selection or the record of the
platform selected at that moment. -/
theorem mlbscfgSet_refines (cs : List SetCommand) :
    abs (runSets emptyDir cs) = initial.run cs ∧
      ∀ c : SetCommand,
        ((c.run (runSets emptyDir cs)).1 = some .ok ↔ ((initial.run cs).accepts c).isSome) ∧
        Confined (runSets emptyDir cs) c (c.run (runSets emptyDir cs)).1
          (c.run (runSets emptyDir cs)).2 := by
  obtain ⟨habs, hsel⟩ := runSets_simulates emptyDir_selected cs
  rw [abs_emptyDir] at habs
  refine ⟨habs, fun c => ?_⟩
  have heff := run_effect hsel c
  rw [← habs]
  exact ⟨heff.code_ok_iff, heff.confined⟩

end AtConfigRefinement
