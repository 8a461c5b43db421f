import LinuxBuild.AtConfigReport

/-!
# Which strings are numbers

A numeric subcommand scans for digits, converts with `atoi` and tests the range of what
`atoi` returned. The scan passes the empty string, and `atoi` keeps the low 32 bits of a
long numeral. Most refusals are logged, with a text at an address made of one byte.
-/
namespace AtNumerals
open CString LbsTypes AtConfig AtConfigRefinement

/-- The options whose values are numbers. -/
inductive NumericOption where
  | method
  | precision
  | descrMode
  | signEnable
  | nearbtsEnable
  | oneosChangeCoordinate
  deriving DecidableEq, Repr

namespace NumericOption

def option : NumericOption → AtcmdOption
  | .method => .method
  | .precision => .precision
  | .descrMode => .descrMode
  | .signEnable => .signEnable
  | .nearbtsEnable => .nearbtsEnable
  | .oneosChangeCoordinate => .oneosChangeCoordinate

/-- The setting that a number makes. -/
def setting : NumericOption → Int32 → Setting
  | .method, n => .method (.ofCode n)
  | .precision, n => .precision n
  | .descrMode, n => .descrMode n
  | .signEnable, n => .signEnable n
  | .nearbtsEnable, n => .nearbtsEnable n
  | .oneosChangeCoordinate, n => .oneosChangeCoordinate n

/-- The permitted set of an option. -/
def Permits : NumericOption → Int32 → Prop
  | .method, n => n = 10 ∨ n = 11 ∨ n = 40
  | .precision, n => 1 ≤ n ∧ n ≤ 8
  | .descrMode, n => 0 ≤ n ∧ n ≤ 1
  | .signEnable, n => 0 ≤ n ∧ n ≤ 1
  | .nearbtsEnable, n => 0 ≤ n ∧ n ≤ 1
  | .oneosChangeCoordinate, n => 0 ≤ n ∧ n ≤ 1

instance : (op : NumericOption) → (n : Int32) → Decidable (op.Permits n)
  | .method, _ => inferInstanceAs (Decidable (_ ∨ _ ∨ _))
  | .precision, _ => inferInstanceAs (Decidable (_ ∧ _))
  | .descrMode, _ => inferInstanceAs (Decidable (_ ∧ _))
  | .signEnable, _ => inferInstanceAs (Decidable (_ ∧ _))
  | .nearbtsEnable, _ => inferInstanceAs (Decidable (_ ∧ _))
  | .oneosChangeCoordinate, _ => inferInstanceAs (Decidable (_ ∧ _))

/-- The platform has the option; a platform that can be selected has a back end. -/
def Has (p : LocationPlatform) : NumericOption → Prop
  | .method | .precision | .nearbtsEnable => IsAmap p ∨ p = .oneospos
  | .descrMode | .signEnable => IsAmap p
  | .oneosChangeCoordinate => p = .oneospos

/-- The values that the command refuses with the fault of a log: those that do not pass
for digits, and where the range is part of the same log those out of range too. -/
def Logged (op : NumericOption) (v : CStr) : Prop :=
  match op with
  | .method | .nearbtsEnable => ¬ stringIsDigital v
  | .precision | .descrMode | .signEnable | .oneosChangeCoordinate =>
    ¬ (stringIsDigital v ∧ op.Permits (atoi v))

end NumericOption

open NumericOption

/-- The string is a non-empty sequence of digits with the value `n`. -/
def Denotes (s : CStr) (n : Int32) : Prop :=
  s ≠ [] ∧ s.all isDigit ∧ (digitsValue 0 s : Int) = n.toInt

/-- The store with a number put in for an option. -/
def setNumber (m : Machine) (op : NumericOption) (n : Int32) : Machine :=
  if op = .method then { m with selected := .ofCode n } else m.assign op.option (.number n)

/-- The command succeeds and leaves `n` as the value of the option. -/
def Stores (dir : ConfigDir) (c : SetCommand) (op : NumericOption) (n : Int32) : Prop :=
  (c.run dir).1 = some .ok ∧ abs (c.run dir).2 = setNumber (abs dir) op n

/-- The numbers stored are the permitted ones that the string denotes, and every other
string is refused. -/
def Conforms (dir : ConfigDir) (c : SetCommand) (op : NumericOption) : Prop :=
  (∀ n, Stores dir c op n ↔ Denotes c.value n ∧ op.Permits n) ∧
    ((∀ n, ¬ (Denotes c.value n ∧ op.Permits n)) → c.run dir = (some .paramErr, dir))

section Atoi

/-- Digits are converted from the first one. -/
theorem strtol_digits {s : CStr} (h : s.all isDigit) :
    strtol s = min (digitsValue 0 s : Int) (2 ^ 63 - 1) := by
  cases s with
  | nil => rfl
  | cons c s =>
    have hc : isDigit c = true := List.all_eq_true.mp h c List.mem_cons_self
    have hspace : isSpace c = false := by
      simp only [isDigit, isSpace] at hc ⊢
      grind
    have hminus : c ≠ 45 := by
      rintro rfl
      exact absurd hc (by decide)
    have hplus : c ≠ 43 := by
      rintro rfl
      exact absurd hc (by decide)
    simp only [strtol, List.dropWhile_cons, hspace, Bool.false_eq_true, if_false]
    split
    · rename_i heq
      exact absurd (List.cons.inj heq).1 hminus
    · rename_i heq
      exact absurd (List.cons.inj heq).1 hplus
    · rfl

theorem toInt_atoi {s : CStr} (h : s.all isDigit) (hlt : digitsValue 0 s < 2 ^ 31) :
    (atoi s).toInt = digitsValue 0 s := by
  rw [atoi, strtol_digits h, min_eq_left (by omega), Int32.toInt_ofInt]
  have hsize : Int32.size = 2 ^ 32 := rfl
  exact Int.bmod_eq_of_le (by omega) (by omega)

/-- The values that `atoi` takes from digits: the numeral itself, a negative number, or
the low 32 bits of a numeral that needs more. -/
theorem atoi_cases {s : CStr} (h : s.all isDigit) :
    (digitsValue 0 s < 2 ^ 31 ∧ (atoi s).toInt = digitsValue 0 s) ∨ (atoi s).toInt < 0 ∨
      (2 ^ 32 ≤ digitsValue 0 s ∧ digitsValue 0 s < 2 ^ 63 ∧
        atoi s = Int32.ofNat (digitsValue 0 s)) := by
  rcases Nat.lt_or_ge (digitsValue 0 s) (2 ^ 31) with hlow | hlow
  · exact Or.inl ⟨hlow, toInt_atoi h hlow⟩
  rcases Nat.lt_or_ge (digitsValue 0 s) (2 ^ 63) with hhigh | hhigh
  · have hexact : atoi s = Int32.ofInt (digitsValue 0 s) := by
      rw [atoi, strtol_digits h, min_eq_left (by omega)]
    rcases Nat.lt_or_ge (digitsValue 0 s) (2 ^ 32) with hmid | hmid
    · refine Or.inr (Or.inl ?_)
      rw [hexact, Int32.toInt_ofInt, Int.bmod_def]
      simp only [Int32.size]
      split_ifs <;> omega
    · exact Or.inr (Or.inr ⟨hmid, hhigh, by rw [hexact]; rfl⟩)
  · refine Or.inr (Or.inl ?_)
    rw [atoi, strtol_digits h, min_eq_right (by omega)]
    decide

end Atoi

section Checks
variable {op : NumericOption} {dir : ConfigDir} {c : SetCommand}

theorem stringIsDigital_of_all {v : CStr} (h : v.all isDigit) : stringIsDigital v = true :=
  List.all_eq_true.mpr fun b hb => List.all_eq_true.mp h b (List.mem_of_mem_take hb)

theorem NumericOption.Permits.toInt_nonneg {n : Int32} (h : op.Permits n) : 0 ≤ n.toInt := by
  cases op with
  | method => rcases h with rfl | rfl | rfl <;> decide
  | precision =>
    have hone : (1 : Int32).toInt = 1 := rfl
    have hle := Int32.le_iff_toInt_le.mp h.1
    omega
  | descrMode | signEnable | nearbtsEnable | oneosChangeCoordinate =>
    exact Int32.le_iff_toInt_le.mp h.1

/-- Every numeric subcommand makes the same checks on its string. -/
theorem checkSetting_numeric (op : NumericOption) (v : CStr) :
    checkSetting op.option v =
      if stringIsDigital v ∧ op.Permits (atoi v) then some (op.setting (atoi v)) else none := by
  by_cases hd : stringIsDigital v = true
  · cases op with
    | method =>
      simp only [option, checkSetting, hd, ofCode_backed, Permits, setting, if_true, true_and]
    | precision | descrMode | signEnable | nearbtsEnable | oneosChangeCoordinate =>
      simp only [option, checkSetting, numberIn, hd, Permits, setting, if_true, true_and,
        cmLbsPrecisionMin, cmLbsPrecisionMax, cmLbsDescrModeMin, cmLbsDescrModeMax]
      split_ifs <;> first | rfl | grind
  · cases op <;> simp [option, checkSetting, numberIn, hd]

/-- What is refused and logged with its text. -/
theorem logged_iff (op : NumericOption) (v : CStr) : op.Logged v ↔
    ¬ (stringIsDigital v ∧ op.Permits (atoi v)) ∧ logsValue op.option v = true := by
  cases op with
  | method | nearbtsEnable =>
    simp only [Logged, logsValue, option, Bool.not_eq_true', Bool.not_eq_true]
    exact ⟨fun h => ⟨fun hchecks => by simp [h] at hchecks, h⟩, fun h => h.2⟩
  | precision | descrMode | signEnable | oneosChangeCoordinate =>
    exact (and_iff_left rfl).symm

theorem setting_numeric (hop : subcmdToOption c.subcmd = some op.option) :
    SetCommand.setting c =
      if stringIsDigital c.value ∧ op.Permits (atoi c.value) then some (op.setting (atoi c.value))
      else none := by
  rw [SetCommand.setting, hop]
  exact checkSetting_numeric op c.value

theorem setting_option (op : NumericOption) (n : Int32) : (op.setting n).option = op.option := by
  cases op <;> rfl

theorem NumericOption.Has.selected (h : Has (atcmdGetplatform dir) op) : Selected dir := by
  cases op with
  | method | precision | nearbtsEnable => exact h
  | descrMode | signEnable => exact Or.inl h
  | oneosChangeCoordinate => exact Or.inr h

theorem NumericOption.Has.fits {p : LocationPlatform} (h : Has p op) (hne : op ≠ .method)
    (n : Int32) : fits p (op.setting n) = true := by
  cases op with
  | method => exact absurd rfl hne
  | precision | nearbtsEnable => rfl
  | descrMode | signEnable | oneosChangeCoordinate => exact decide_eq_true h

theorem option_eq_method_iff : op.option = .method ↔ op = .method := by
  cases op <;> decide

/-- A string that passes the checks is accepted. -/
theorem accepts_numeric (hop : subcmdToOption c.subcmd = some op.option)
    (hhas : Has (atcmdGetplatform dir) op) (hmem : enoughMemory c.mem op.option)
    (hd : stringIsDigital c.value) (hpermits : op.Permits (atoi c.value)) :
    (abs dir).accepts c = some (op.option, Setting.value (op.setting (atoi c.value))) := by
  have hset := setting_numeric hop
  rw [if_pos ⟨hd, hpermits⟩] at hset
  rw [accepts_some hset, setting_option, if_pos]
  refine ⟨hmem, ?_⟩
  by_cases hmethod : op = .method
  · exact Or.inl (option_eq_method_iff.mpr hmethod)
  · exact Or.inr (hhas.fits hmethod _)

theorem step_numeric {m : Machine} {n : Int32} (hpermits : op.Permits n)
    (hacc : m.accepts c = some (op.option, Setting.value (op.setting n))) :
    m.step c = setNumber m op n := by
  by_cases hmethod : op = .method
  · subst hmethod
    have hcode : (LocationPlatform.ofCode n).code = n := by
      rcases hpermits with rfl | rfl | rfl <;> rfl
    have hvalue : Setting.value (NumericOption.method.setting n) = .number n :=
      congrArg Value.number hcode
    rw [hvalue] at hacc
    rw [Machine.step, hacc]
    rfl
  · have hvalue : Setting.value (op.setting n) = .number n := by
      cases op <;> first | rfl | exact absurd rfl hmethod
    rw [hvalue] at hacc
    rw [step_field (mt option_eq_method_iff.mp hmethod) hacc, setNumber, if_neg hmethod]

theorem ofCode_injective {n n' : Int32}
    (h : LocationPlatform.ofCode n = LocationPlatform.ofCode n') : n = n' := by
  simp only [LocationPlatform.ofCode] at h
  split_ifs at h <;> simp_all

/-- Different numbers make different stores. -/
theorem setNumber_injective {m : Machine} {n n' : Int32}
    (h : setNumber m op n = setNumber m op n') : n = n' := by
  simp only [setNumber] at h
  split_ifs at h
  · exact ofCode_injective (congrArg Machine.selected h)
  · have hrecord := congrFun (congrArg Machine.record h) m.selected
    simp only [Machine.assign, Function.update_self, Option.some.injEq] at hrecord
    have hvalue := congrFun hrecord op.option
    simp only [Function.update_self, Option.some.injEq, Value.number.injEq] at hvalue
    exact hvalue

/-- What is stored is what `atoi` returned, if it is permitted. -/
theorem stores_iff (hop : subcmdToOption c.subcmd = some op.option)
    (hhas : Has (atcmdGetplatform dir) op) (hmem : enoughMemory c.mem op.option) (n : Int32) :
    Stores dir c op n ↔
      stringIsDigital c.value ∧ op.Permits (atoi c.value) ∧ n = atoi c.value := by
  have heff := run_effect hhas.selected c
  by_cases hchecks : stringIsDigital c.value ∧ op.Permits (atoi c.value)
  · have hacc := accepts_numeric hop hhas hmem hchecks.1 hchecks.2
    have hok : (c.run dir).1 = some .ok := by
      rw [heff.code_ok_iff, hacc]
      rfl
    rw [Stores, heff.simulates, step_numeric hchecks.2 hacc]
    constructor
    · rintro ⟨-, hsame⟩
      exact ⟨hchecks.1, hchecks.2, (setNumber_injective hsame).symm⟩
    · rintro ⟨-, -, rfl⟩
      exact ⟨hok, rfl⟩
  · refine iff_of_false ?_ fun h => hchecks ⟨h.1, h.2.1⟩
    rintro ⟨hok, -⟩
    have hset := setting_numeric hop
    rw [if_neg hchecks] at hset
    rw [run_eq, hset] at hok
    exact refusal_ne_ok c hok

/-- A string that does not pass the checks stores nothing, and its log may fault. -/
theorem run_refused (hop : subcmdToOption c.subcmd = some op.option)
    (h : ¬ (stringIsDigital c.value ∧ op.Permits (atoi c.value))) :
    c.run dir = (if logsValue op.option c.value then none else some .paramErr, dir) := by
  have hset := setting_numeric hop
  rw [if_neg h] at hset
  rw [run_eq, hset, refusal, hop]

theorem not_stores_of_refused (hop : subcmdToOption c.subcmd = some op.option)
    (h : ¬ (stringIsDigital c.value ∧ op.Permits (atoi c.value))) (n : Int32) :
    ¬ Stores dir c op n := by
  rintro ⟨hok, -⟩
  rw [run_refused hop h] at hok
  split_ifs at hok
  cases hok

/-- A value whose log faults is not refused as it should be. -/
theorem not_conforms_of_logged (hop : subcmdToOption c.subcmd = some op.option)
    (h : op.Logged c.value) : ¬ Conforms dir c op := by
  obtain ⟨hchecks, hlogs⟩ := (logged_iff op c.value).mp h
  rintro ⟨hstores, hrefused⟩
  have hrun := hrefused fun n hn => not_stores_of_refused hop hchecks n ((hstores n).mpr hn)
  rw [run_refused hop hchecks, if_pos hlogs] at hrun
  cases hrun

theorem run_refused_quietly (hop : subcmdToOption c.subcmd = some op.option)
    (hlog : ¬ op.Logged c.value)
    (h : ¬ (stringIsDigital c.value ∧ op.Permits (atoi c.value))) :
    c.run dir = (some .paramErr, dir) := by
  have hlogs : ¬ logsValue op.option c.value = true :=
    fun hlogs => hlog ((logged_iff op c.value).mpr ⟨h, hlogs⟩)
  rw [run_refused hop h, if_neg hlogs]

theorem Denotes.eq_atoi {s : CStr} {n : Int32} (h : Denotes s n) : n = atoi s := by
  obtain ⟨-, hd, hvalue⟩ := h
  have hlt := n.toInt_lt
  rw [← Int32.toInt_inj, toInt_atoi hd (by omega), hvalue]

/-- Acceptance is right exactly when what passes the checks is a numeral of what is
stored. -/
theorem conforms_iff_denotes (hop : subcmdToOption c.subcmd = some op.option)
    (hhas : Has (atcmdGetplatform dir) op) (hmem : enoughMemory c.mem op.option) :
    Conforms dir c op ↔ ¬ op.Logged c.value ∧
      (stringIsDigital c.value → op.Permits (atoi c.value) → Denotes c.value (atoi c.value)) := by
  constructor
  · intro h
    refine ⟨fun hlog => not_conforms_of_logged hop hlog h, fun hd hpermits => ?_⟩
    exact ((h.1 _).mp ((stores_iff hop hhas hmem _).mpr ⟨hd, hpermits, rfl⟩)).1
  · rintro ⟨hlog, h⟩
    refine ⟨fun n => ?_, fun hnone => run_refused_quietly hop hlog fun hchecks => ?_⟩
    · rw [stores_iff hop hhas hmem]
      constructor
      · rintro ⟨hd, hpermits, rfl⟩
        exact ⟨h hd hpermits, hpermits⟩
      · rintro ⟨hden, hpermits⟩
        have heq := hden.eq_atoi
        exact ⟨stringIsDigital_of_all hden.2.1, heq ▸ hpermits, heq⟩
    · exact hnone _ ⟨h hchecks.1 hchecks.2, hchecks.2⟩

/-- With enough memory a numeric subcommand takes exactly the numerals of its permitted
numbers, unless its log faults, or it is given the empty string where 0 is permitted, a
numeral of 2^32 or more whose low 32 bits are a permitted number, or a string so long that
it passes for digits with other characters in it. -/
theorem conforms_with_memory_iff (hop : subcmdToOption c.subcmd = some op.option)
    (hhas : Has (atcmdGetplatform dir) op) (hmem : enoughMemory c.mem op.option) :
    Conforms dir c op ↔ ¬ op.Logged c.value ∧ (c.value = [] → ¬ op.Permits 0) ∧
      (c.value.all isDigit → 2 ^ 32 ≤ digitsValue 0 c.value → digitsValue 0 c.value < 2 ^ 63 →
        ¬ op.Permits (Int32.ofNat (digitsValue 0 c.value))) ∧
      (stringIsDigital c.value → ¬ c.value.all isDigit → ¬ op.Permits (atoi c.value)) := by
  rw [conforms_iff_denotes hop hhas hmem]
  refine and_congr_right fun _ => ?_
  constructor
  · intro h
    refine ⟨fun hnil hpermits => ?_, fun hd hlow hhigh hpermits => ?_, fun hd hnot hpermits => ?_⟩
    · have hatoi : atoi c.value = 0 := by
        rw [hnil]
        rfl
      have hall : c.value.all isDigit = true := by
        rw [hnil]
        rfl
      exact (h (stringIsDigital_of_all hall) (hatoi ▸ hpermits)).1 hnil
    · have hatoi : atoi c.value = Int32.ofNat (digitsValue 0 c.value) := by
        rw [atoi, strtol_digits hd, min_eq_left (by omega)]
        rfl
      have hvalue := (h (stringIsDigital_of_all hd) (hatoi ▸ hpermits)).2.2
      have hlt := (atoi c.value).toInt_lt
      omega
    · exact hnot (h hd hpermits).2.1
  · rintro ⟨hempty, hlong, hpart⟩ hscan hpermits
    have hd : c.value.all isDigit = true := by
      by_contra hnot
      exact hpart hscan hnot hpermits
    rcases atoi_cases hd with ⟨-, hvalue⟩ | hneg | ⟨hlow, hhigh, hatoi⟩
    · refine ⟨fun hnil => hempty hnil ?_, hd, hvalue.symm⟩
      rw [hnil] at hpermits
      exact hpermits
    · exact absurd hpermits.toInt_nonneg (not_le.mpr hneg)
    · exact absurd (hatoi ▸ hpermits) (hlong hd hlow hhigh)

/-- Without memory a string that passes the checks is refused, on OneOS as a wrong
parameter. -/
theorem run_without_memory (hop : subcmdToOption c.subcmd = some op.option)
    (hmem : enoughMemory c.mem op.option = false)
    (hchecks : stringIsDigital c.value ∧ op.Permits (atoi c.value)) :
    c.run dir = (some (if op ≠ .method ∧ atcmdGetplatform dir = .oneospos then .paramErr
      else .memroyErr), dir) := by
  have hset := setting_numeric hop
  rw [if_pos hchecks] at hset
  rw [run_eq, hset]
  simp only [atcmdSetoption, setting_option]
  by_cases hmethod : op = .method
  · subst hmethod
    have hfull : ¬ (c.mem .attr = true ∧ c.mem .atcmdCfg = true) := by
      simpa [enoughMemory, NumericOption.option] using hmem
    have hcode : ¬ (NumericOption.method ≠ .method ∧ atcmdGetplatform dir = .oneospos) :=
      fun h => h.1 rfl
    rw [if_neg hcode]
    simp only [NumericOption.option, if_true, amapSetoption, setting]
    cases hattr : c.mem .attr with
    | false => rfl
    | true =>
      have hcfg : c.mem .atcmdCfg = false := by simpa [hattr] using hfull
      rw [hcfg]
      rfl
  · have hne := mt option_eq_method_iff.mp hmethod
    have hattr : c.mem .attr = false := by simpa [enoughMemory, hne] using hmem
    rw [if_neg hne]
    by_cases hone : atcmdGetplatform dir = .oneospos
    · simp [oneosposSetoption, hattr, hone, hmethod]
    · simp [amapSetoption, hattr, hone]

/-- Without memory nothing is stored, so a permitted numeral is not taken. -/
theorem conforms_without_memory_iff (hop : subcmdToOption c.subcmd = some op.option)
    (hmem : enoughMemory c.mem op.option = false) :
    Conforms dir c op ↔ ¬ op.Logged c.value ∧
      (stringIsDigital c.value → op.Permits (atoi c.value) →
        ¬ Denotes c.value (atoi c.value) ∧ op ≠ .method ∧
          atcmdGetplatform dir = .oneospos) := by
  by_cases hchecks : stringIsDigital c.value ∧ op.Permits (atoi c.value)
  · have hlog : ¬ op.Logged c.value := fun hlog => ((logged_iff op c.value).mp hlog).1 hchecks
    rw [and_iff_right hlog]
    have hrun := @run_without_memory _ dir _ hop hmem hchecks
    have hno : ∀ n, ¬ Stores dir c op n := by
      rintro n ⟨hok, -⟩
      rw [hrun] at hok
      split_ifs at hok <;> cases hok
    constructor
    · rintro ⟨hstores, hrefused⟩ - -
      have hnone : ∀ n, ¬ (Denotes c.value n ∧ op.Permits n) :=
        fun n h => hno n ((hstores n).mpr h)
      have hcode := hrefused hnone
      rw [hrun] at hcode
      refine ⟨fun h => hnone _ ⟨h, hchecks.2⟩, ?_⟩
      split_ifs at hcode with hone
      · exact hone
      · cases hcode
    · intro h
      obtain ⟨hnot, hone⟩ := h hchecks.1 hchecks.2
      refine ⟨fun n => iff_of_false (hno n) ?_, fun _ => by rw [hrun, if_pos hone]⟩
      rintro ⟨hden, -⟩
      exact hnot (hden.eq_atoi ▸ hden)
  · rw [and_iff_left fun hd hpermits => absurd ⟨hd, hpermits⟩ hchecks]
    refine ⟨fun h hlog => not_conforms_of_logged hop hlog h, fun hlog => ?_⟩
    refine ⟨fun n => iff_of_false (not_stores_of_refused hop hchecks n) ?_,
      fun _ => run_refused_quietly hop hlog hchecks⟩
    rintro ⟨hden, hpermits⟩
    exact hchecks ⟨stringIsDigital_of_all hden.2.1, hden.eq_atoi ▸ hpermits⟩

end Checks

/-- A numeric subcommand takes exactly the numerals of its permitted numbers and refuses
the rest, unless the log of a refusal faults, or it is given the empty string where 0 is
permitted, a numeral of 2^32 or more whose low 32 bits are a permitted number, or a string
so long that it passes for digits with other characters in it. Without memory no numeral
may be one that is permitted, and what passes the checks is refused in the same way on
OneOS only. -/
theorem conforms_iff {op : NumericOption} {dir : ConfigDir} {c : SetCommand}
    (hop : subcmdToOption c.subcmd = some op.option) (hhas : Has (atcmdGetplatform dir) op) :
    Conforms dir c op ↔ ¬ op.Logged c.value ∧
      (enoughMemory c.mem op.option = true → (c.value = [] → ¬ op.Permits 0) ∧
        (c.value.all isDigit → 2 ^ 32 ≤ digitsValue 0 c.value → digitsValue 0 c.value < 2 ^ 63 →
          ¬ op.Permits (Int32.ofNat (digitsValue 0 c.value))) ∧
        (stringIsDigital c.value → ¬ c.value.all isDigit → ¬ op.Permits (atoi c.value))) ∧
      (enoughMemory c.mem op.option = false → stringIsDigital c.value →
        op.Permits (atoi c.value) →
        ¬ Denotes c.value (atoi c.value) ∧ op ≠ .method ∧ atcmdGetplatform dir = .oneospos) := by
  cases hmem : enoughMemory c.mem op.option with
  | true =>
    rw [conforms_with_memory_iff hop hhas hmem]
    refine and_congr_right fun _ => ?_
    exact ⟨fun h => ⟨fun _ => h, fun hno => by cases hno⟩, fun h => h.1 rfl⟩
  | false =>
    rw [conforms_without_memory_iff hop hmem]
    refine and_congr_right fun _ => ?_
    exact ⟨fun h => ⟨fun hno => (by cases hno), fun _ => h⟩, fun h => h.2 rfl⟩

/-- `AT+MLBSCFG` with enough memory. -/
def command (subcmd v : CStr) (hv : 0 ∉ v) : SetCommand where
  subcmd := subcmd
  value := v
  valueTerminated := hv
  mem _ := true

theorem emptyDir_has {op : NumericOption} (h : op = .precision ∨ op = .nearbtsEnable) :
    Has (atcmdGetplatform emptyDir) op := by
  rcases h with rfl | rfl <;> exact Or.inr rfl

/-- Leading zeros are part of a numeral. -/
theorem conforms_precision :
    subcmdToOption (cstr "precision") = some NumericOption.precision.option ∧
      Conforms emptyDir (command (cstr "precision") (cstr "005") (by decide)) .precision := by
  have hop : subcmdToOption (cstr "precision") = some NumericOption.precision.option := by decide
  refine ⟨hop, (conforms_iff hop (emptyDir_has (Or.inl rfl))).mpr ⟨?_, fun _ => ⟨?_, ?_, ?_⟩, ?_⟩⟩
  · exact fun h => h (by decide)
  · exact fun h => absurd h (by decide)
  · exact fun _ h => absurd h (by decide)
  · exact fun _ h => absurd (by decide) h
  · exact fun hno => absurd hno (by decide)

/-- The log of a value that is not a number faults; the empty string stores the flag 0, and
4294967297 stores the precision 1. -/
theorem conforms_fails :
    ((command (cstr "precision") (cstr "abc") (by decide)).run emptyDir = (none, emptyDir) ∧
        ∀ n, ¬ Denotes (cstr "abc") n) ∧
    (Stores emptyDir (command (cstr "nearbtsen") [] (by decide)) .nearbtsEnable 0 ∧
        ¬ Denotes [] 0) ∧
      Stores emptyDir (command (cstr "precision") (cstr "4294967297") (by decide)) .precision 1 ∧
      ¬ Denotes (cstr "4294967297") 1 := by
  refine ⟨⟨by decide, fun n h => absurd h.2.1 (by decide)⟩, ⟨?_, fun h => h.1 rfl⟩, ?_,
    fun h => absurd h.2.2 (by decide)⟩
  · exact (stores_iff (by decide) (emptyDir_has (Or.inr rfl)) rfl 0).mpr (by decide)
  · exact (stores_iff (by decide) (emptyDir_has (Or.inl rfl)) rfl 1).mpr (by decide)

end AtNumerals
