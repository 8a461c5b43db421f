import LinuxBuild.CString
import LinuxBuild.PartialRun
import Mathlib.Data.List.GetD

/-!
# The settings of the file commands

`AT+MFCFG` shows and sets what the other file commands use. A parameter that is left out has
the length 0, or the command ends in front of it. The parsers of the parameters belong to
the AT framework and are given from outside.
-/
namespace FileAtConfig
open CString PartialRun

/-- `FS_CmccCfg_t` -/
structure FsCmccCfg where
  timeout : UInt16
  inputfmt : UInt16
  outputfmt : UInt16
  fragsize : UInt16
  interval : UInt8
  deriving DecidableEq

/-- `FS_CMCC_INFMT_ASC`, and the other input formats in their order -/
def infmtAsc : UInt32 := 0
def infmtHex : UInt32 := 1
def infmtEsc : UInt32 := 2

/-- `FS_CMCC_OUTFMT_ORG` and `FS_CMCC_OUTFMT_HEX` -/
def outfmtOrg : UInt32 := 0
def outfmtHex : UInt32 := 1

/-- `g_cmcc_cfg` as it starts -/
def gCmccCfg : FsCmccCfg := ⟨10, infmtAsc.toUInt16, outfmtOrg.toUInt16, 0, 200⟩

/-- The result codes that these commands return -/
inductive FsRet where
  | ok
  | operationNotAllowed
  | paramInvalid
  | valueInvalid
  | failToOpen
  | failToWrite
  | failToRead
  deriving DecidableEq

/-- The commands distinguish a setting and a test from the rest. -/
inductive AtCmdType where
  | set
  | test
  | other
  deriving DecidableEq

/-- A command as the framework hands it over, every parameter with its own length -/
structure AtCmd where
  cmdType : AtCmdType
  paraList : List CStr

/-- What a command sends: a line in front of its result code, if any, and the code. -/
structure Response where
  report : Option CStr
  ret : FsRet

def Response.only (ret : FsRet) : Response := ⟨none, ret⟩

/-- `cm_at_param_parsing_to_string` with its maximal length, and
`cm_at_param_parsing_to_uint32_with_range` -/
structure Parsers where
  toString : CStr → Nat → Option CStr
  toUint32WithRange : CStr → UInt32 → UInt32 → Option UInt32

/-- The last input format that is permitted; the escaped one depends on the build. -/
def infmtLast (escape : Bool) : UInt32 := if escape then infmtEsc else infmtHex

section Command
variable (p : Parsers) (escape : Bool) (cfg : FsCmccCfg)

def timeoutReport : CStr :=
  cstr "\r\n+MFCFG: \"timeout\"," ++ decimal cfg.timeout.toUInt32.toInt32 ++ cstr "\r\n"

def encodingReport : CStr :=
  cstr "\r\n+MFCFG: \"encoding\"," ++ decimal cfg.inputfmt.toUInt32.toInt32 ++ cstr "," ++
    decimal cfg.outputfmt.toUInt32.toInt32 ++ cstr "\r\n"

def testReport : CStr :=
  if escape then
    cstr "\r\n+MFCFG: \"timeout\",(1-120)\r\n+MFCFG: \"encoding\",(0-2),(0-1)\r\n"
  else cstr "\r\n+MFCFG: \"timeout\",(1-120)\r\n+MFCFG: \"encoding\",(0-1),(0-1)\r\n"

/-- `AT+MFCFG="timeout"` -/
def mfcfgTimeout (para : List CStr) : FsCmccCfg × Response :=
  if para.length ≠ 1 ∧ para.length ≠ 2 then (cfg, .only .paramInvalid)
  else if para.length = 1 then (cfg, ⟨timeoutReport cfg, .ok⟩)
  else
    match p.toUint32WithRange (para.getD 1 []) 1 120 with
    | none => (cfg, .only .paramInvalid)
    | some param1 => ({ cfg with timeout := param1.toUInt16 }, .only .ok)

/-- The first parameter of `AT+MFCFG="encoding"`. Without one it stays what it is at first. -/
def encodingParam1 (para : List CStr) : Option Int32 :=
  if (para.getD 1 []).length ≠ 0 then
    (p.toUint32WithRange (para.getD 1 []) infmtAsc (infmtLast escape)).map UInt32.toInt32
  else some (-1)

/-- `AT+MFCFG="encoding"` -/
def mfcfgEncoding (para : List CStr) : FsCmccCfg × Response :=
  if para.length < 1 ∨ 3 < para.length then (cfg, .only .paramInvalid)
  else if para.length = 1 then (cfg, ⟨encodingReport cfg, .ok⟩)
  else
    match encodingParam1 p escape para with
    | none => (cfg, .only .paramInvalid)
    | some param1 =>
      if para.length = 3 ∧ (para.getD 2 []).length ≠ 0 then
        match p.toUint32WithRange (para.getD 2 []) outfmtOrg outfmtHex with
        | none => (cfg, .only .paramInvalid)
        | some param2 =>
          ({ cfg with
              outputfmt := param2.toUInt16
              inputfmt := param1.toUInt32.toUInt16 }, .only .ok)
      else ({ cfg with inputfmt := param1.toUInt32.toUInt16 }, .only .ok)

/-- `at_MFCFG_req` -/
def atMfcfgReq (cmd : AtCmd) : FsCmccCfg × Response :=
  match cmd.cmdType with
  | .set =>
    if cmd.paraList.length < 1 then (cfg, .only .paramInvalid)
    else
      match p.toString (cmd.paraList.getD 0 []) 0 with
      | none => (cfg, .only .paramInvalid)
      | some param =>
        if param = cstr "timeout" then mfcfgTimeout p cfg cmd.paraList
        else if param = cstr "encoding" then mfcfgEncoding p escape cfg cmd.paraList
        else (cfg, .only .paramInvalid)
  | .test => (cfg, ⟨testReport escape, .ok⟩)
  | .other => (cfg, .only .operationNotAllowed)

/-- One command after the other -/
def mfcfgStep (cmd : AtCmd) : Option (FsCmccCfg × Response) := some (atMfcfgReq p escape cfg cmd)

end Command

/-- A parser of numbers takes exactly the texts of the numbers in its range, and the text of
length 0 is none. -/
structure Parsers.Exact (p : Parsers) (Denotes : CStr → UInt32 → Prop) : Prop where
  range : ∀ {text lo hi v},
    p.toUint32WithRange text lo hi = some v ↔ Denotes text v ∧ lo ≤ v ∧ v ≤ hi
  empty : ∀ v, ¬ Denotes [] v

/-- The settings that the command can change -/
inductive Setting where
  | timeout
  | inputfmt
  | outputfmt

namespace Setting

/-- The name that a command gives for the setting, and the place of its parameter -/
def name : Setting → CStr
  | timeout => cstr "timeout"
  | inputfmt | outputfmt => cstr "encoding"

def place : Setting → Nat
  | timeout | inputfmt => 1
  | outputfmt => 2

def value (cfg : FsCmccCfg) : Setting → UInt16
  | timeout => cfg.timeout
  | inputfmt => cfg.inputfmt
  | outputfmt => cfg.outputfmt

/-- The command has a parameter for the setting. -/
def Given (p : Parsers) (cmd : AtCmd) (x : Setting) : Prop :=
  cmd.cmdType = .set ∧ p.toString (cmd.paraList.getD 0 []) 0 = some x.name ∧
    cmd.paraList.getD x.place [] ≠ []

end Setting

/-- Every setting has a permitted value. -/
structure Valid (escape : Bool) (cfg : FsCmccCfg) : Prop where
  timeout : 1 ≤ cfg.timeout ∧ cfg.timeout ≤ 120
  inputfmt : cfg.inputfmt ≤ (infmtLast escape).toUInt16
  outputfmt : cfg.outputfmt ≤ 1

/-- What a command may do to the configuration -/
structure Lawful (p : Parsers) (escape : Bool) (cfg : FsCmccCfg) (cmd : AtCmd) : Prop where
  valid : Valid escape (atMfcfgReq p escape cfg cmd).1
  error : (atMfcfgReq p escape cfg cmd).2.ret ≠ .ok → (atMfcfgReq p escape cfg cmd).1 = cfg
  omitted : ∀ x : Setting, ¬ x.Given p cmd →
    x.value (atMfcfgReq p escape cfg cmd).1 = x.value cfg

/-- The command sets the encoding without an input format, and its output format is left out
as well or is permitted. -/
def OmitsInput (p : Parsers) (Denotes : CStr → UInt32 → Prop) (cmd : AtCmd) : Prop :=
  cmd.cmdType = .set ∧ p.toString (cmd.paraList.getD 0 []) 0 = some (cstr "encoding") ∧
    (cmd.paraList.length = 2 ∨ cmd.paraList.length = 3) ∧ cmd.paraList.getD 1 [] = [] ∧
    (cmd.paraList.getD 2 [] = [] ∨ ∃ v, Denotes (cmd.paraList.getD 2 []) v ∧ v ≤ 1)

variable {p : Parsers} {escape : Bool} {cfg : FsCmccCfg} {cmd : AtCmd} {para : List CStr}
variable {Denotes : CStr → UInt32 → Prop}

/-- Every line fits into the buffer that it is written to. -/
theorem report_length {line : CStr} (h : (atMfcfgReq p escape cfg cmd).2.report = some line) :
    line.length < 80 := by
  have htimeout : (timeoutReport cfg).length < 80 := by
    have hdecimal := (decimal_length cfg.timeout.toUInt32.toInt32).2
    simp only [timeoutReport, List.length_append, length_cstr]
    have hfront : "\r\n+MFCFG: \"timeout\",".length = 20 := by decide
    have hend : "\r\n".length = 2 := by decide
    omega
  have hencoding : (encodingReport cfg).length < 80 := by
    have hin := (decimal_length cfg.inputfmt.toUInt32.toInt32).2
    have hout := (decimal_length cfg.outputfmt.toUInt32.toInt32).2
    simp only [encodingReport, List.length_append, length_cstr]
    have hfront : "\r\n+MFCFG: \"encoding\",".length = 21 := by decide
    have hcomma : ",".length = 1 := by decide
    have hend : "\r\n".length = 2 := by decide
    omega
  have htest : (testReport escape).length < 80 := by
    cases escape <;> decide
  simp only [atMfcfgReq, mfcfgTimeout, mfcfgEncoding] at h
  repeat' split at h
  all_goals cases h
  · exact htimeout
  · exact hencoding
  · exact htest

/-- Small numbers keep their order when they are cut to 16 bits. -/
theorem toUInt16_le {v w : UInt32} (h : v ≤ w) (hw : w ≤ 120) : v.toUInt16 ≤ w.toUInt16 := by
  have hnat : v.toNat ≤ w.toNat := UInt32.le_iff_toNat_le.mp h
  have hsmall : w.toNat ≤ 120 := UInt32.le_iff_toNat_le.mp hw
  rw [UInt16.le_iff_toNat_le, UInt32.toNat_toUInt16, UInt32.toNat_toUInt16]
  omega

theorem infmtLast_le (escape : Bool) : infmtLast escape ≤ 120 := by
  cases escape <;> decide

theorem gCmccCfg_valid (escape : Bool) : Valid escape gCmccCfg := by
  cases escape <;> exact ⟨by decide, by decide, by decide⟩

/-- The input format that a command leads to is the value of its first parameter, or the
largest value that there is. -/
theorem encodingParam1_cases (h : p.Exact Denotes) {param1 : Int32}
    (hparam : encodingParam1 p escape para = some param1) :
    (para.getD 1 [] = [] ∧ param1.toUInt32.toUInt16 = 65535) ∨
      (para.getD 1 [] ≠ [] ∧ param1.toUInt32.toUInt16 ≤ (infmtLast escape).toUInt16) := by
  simp only [encodingParam1, ne_eq, List.length_eq_zero_iff] at hparam
  split_ifs at hparam with hempty
  · exact Or.inl ⟨hempty, by cases hparam; decide⟩
  · obtain ⟨v, hv, rfl⟩ := Option.map_eq_some_iff.mp hparam
    refine Or.inr ⟨hempty, ?_⟩
    rw [UInt32.toUInt32_toInt32]
    exact toUInt16_le (h.range.mp hv).2.2 (infmtLast_le escape)

/-- The output format that a command leads to -/
def SetsOutput (Denotes : CStr → UInt32 → Prop) (cfg : FsCmccCfg) (para : List CStr)
    (outputfmt : UInt16) : Prop :=
  (para.getD 2 [] = [] ∧ outputfmt = cfg.outputfmt) ∨
    (para.getD 2 [] ≠ [] ∧ ∃ v, Denotes (para.getD 2 []) v ∧ v ≤ 1 ∧ outputfmt = v.toUInt16)

/-- A setting of the encoding that is not refused -/
theorem mfcfgEncoding_of_output (h : p.Exact Denotes) {param1 : Int32} {outputfmt : UInt16}
    (hlength : para.length = 2 ∨ para.length = 3)
    (hparam : encodingParam1 p escape para = some param1)
    (hout : SetsOutput Denotes cfg para outputfmt) :
    mfcfgEncoding p escape cfg para =
      ({ cfg with outputfmt := outputfmt, inputfmt := param1.toUInt32.toUInt16 },
        .only .ok) := by
  have hmany : ¬ (para.length < 1 ∨ 3 < para.length) := by omega
  have hquery : ¬ para.length = 1 := by omega
  rw [mfcfgEncoding, if_neg hmany, if_neg hquery, hparam]
  simp only [ne_eq, List.length_eq_zero_iff]
  rcases hout with ⟨hempty, rfl⟩ | ⟨hgiven, v, hv, hle, rfl⟩
  · rw [if_neg fun hthird => hthird.2 hempty]
  · have hthird : para.length = 3 := by
      rcases hlength with htwo | hthree
      · exact absurd (List.getD_eq_default _ _ (by omega)) hgiven
      · exact hthree
    have hparse : p.toUint32WithRange (para.getD 2 []) outfmtOrg outfmtHex = some v :=
      h.range.mpr ⟨hv, UInt32.zero_le, hle⟩
    rw [if_pos ⟨hthird, hgiven⟩, hparse]

/-- Everything else that a command about the encoding does leaves the settings alone. -/
theorem mfcfgEncoding_cases (h : p.Exact Denotes) :
    (mfcfgEncoding p escape cfg para).1 = cfg ∨
      ∃ param1 outputfmt, (para.length = 2 ∨ para.length = 3) ∧
        encodingParam1 p escape para = some param1 ∧ SetsOutput Denotes cfg para outputfmt := by
  by_cases hlength : para.length = 2 ∨ para.length = 3
  · cases hparam : encodingParam1 p escape para with
    | none =>
      left
      rw [mfcfgEncoding, hparam]
      split_ifs <;> rfl
    | some param1 =>
      by_cases hempty : para.getD 2 [] = []
      · exact Or.inr ⟨param1, _, hlength, rfl, Or.inl ⟨hempty, rfl⟩⟩
      · cases hparse : p.toUint32WithRange (para.getD 2 []) outfmtOrg outfmtHex with
        | some v =>
          obtain ⟨hv, -, hle⟩ := h.range.mp hparse
          exact Or.inr ⟨param1, _, hlength, rfl, Or.inr ⟨hempty, v, hv, hle, rfl⟩⟩
        | none =>
          have hthree : para.length = 3 := by
            refine hlength.resolve_left fun htwo => hempty ?_
            exact List.getD_eq_default _ _ htwo.le
          have hthird : para.length = 3 ∧ (para.getD 2 []).length ≠ 0 :=
            ⟨hthree, fun hzero => hempty (List.length_eq_zero_iff.mp hzero)⟩
          left
          rw [mfcfgEncoding, hparam, hparse, if_neg (by omega), if_neg (by omega)]
          simp only [if_pos hthird]
  · left
    by_cases hone : para.length = 1
    · rw [mfcfgEncoding, if_neg (by omega), if_pos hone]
    · rw [mfcfgEncoding, if_pos (by omega)]

theorem mfcfgTimeout_cases (h : p.Exact Denotes) :
    (mfcfgTimeout p cfg para).1 = cfg ∨
      para.getD 1 [] ≠ [] ∧ ∃ v : UInt32, 1 ≤ v ∧ v ≤ 120 ∧
        mfcfgTimeout p cfg para = ({ cfg with timeout := v.toUInt16 }, .only .ok) := by
  by_cases hset : para.length = 2
  · have hcount : ¬ (para.length ≠ 1 ∧ para.length ≠ 2) := by omega
    have hquery : ¬ para.length = 1 := by omega
    rw [mfcfgTimeout, if_neg hcount, if_neg hquery]
    cases hparse : p.toUint32WithRange (para.getD 1 []) 1 120 with
    | none => exact Or.inl rfl
    | some v =>
      obtain ⟨hv, hlow, hhigh⟩ := h.range.mp hparse
      exact Or.inr ⟨fun hempty => h.empty v (hempty ▸ hv), v, hlow, hhigh, rfl⟩
  · left
    by_cases hone : para.length = 1
    · rw [mfcfgTimeout, if_neg (by omega), if_pos hone]
    · rw [mfcfgTimeout, if_pos ⟨hone, hset⟩]

/-- A command changes nothing, or it sets the timeout or the encoding and succeeds. -/
theorem atMfcfgReq_cases (h : p.Exact Denotes) :
    (atMfcfgReq p escape cfg cmd).1 = cfg ∨
      (Setting.timeout.Given p cmd ∧ ∃ v : UInt32, 1 ≤ v ∧ v ≤ 120 ∧
        atMfcfgReq p escape cfg cmd = ({ cfg with timeout := v.toUInt16 }, .only .ok)) ∨
      (cmd.cmdType = .set ∧ p.toString (cmd.paraList.getD 0 []) 0 = some (cstr "encoding") ∧
        ∃ param1 outputfmt, (cmd.paraList.length = 2 ∨ cmd.paraList.length = 3) ∧
          encodingParam1 p escape cmd.paraList = some param1 ∧
          SetsOutput Denotes cfg cmd.paraList outputfmt ∧
          atMfcfgReq p escape cfg cmd =
            ({ cfg with outputfmt := outputfmt, inputfmt := param1.toUInt32.toUInt16 },
              .only .ok)) := by
  cases htype : cmd.cmdType with
  | test => exact Or.inl (by rw [atMfcfgReq, htype])
  | other => exact Or.inl (by rw [atMfcfgReq, htype])
  | set =>
    by_cases hnone : cmd.paraList.length < 1
    · exact Or.inl (by simp only [atMfcfgReq, htype, if_pos hnone])
    cases hname : p.toString (cmd.paraList.getD 0 []) 0 with
    | none => exact Or.inl (by simp only [atMfcfgReq, htype, if_neg hnone, hname])
    | some param =>
      by_cases htimeout : param = cstr "timeout"
      · subst htimeout
        have hreq : atMfcfgReq p escape cfg cmd = mfcfgTimeout p cfg cmd.paraList := by
          simp only [atMfcfgReq, htype, if_neg hnone, hname, if_true]
        rcases @mfcfgTimeout_cases p cfg cmd.paraList Denotes h with
          hsame | ⟨hgiven, v, hlow, hhigh, hv⟩
        · exact Or.inl (by rw [hreq, hsame])
        · exact Or.inr (Or.inl ⟨⟨htype, hname, hgiven⟩, v, hlow, hhigh, hreq.trans hv⟩)
      · by_cases hencoding : param = cstr "encoding"
        · subst hencoding
          have hreq : atMfcfgReq p escape cfg cmd = mfcfgEncoding p escape cfg cmd.paraList := by
            simp only [atMfcfgReq, htype, if_neg hnone, hname, if_neg htimeout, if_true]
          rcases @mfcfgEncoding_cases p escape cfg cmd.paraList Denotes h with
            hsame | ⟨param1, outputfmt, hlength, hparam, hout⟩
          · exact Or.inl (by rw [hreq, hsame])
          · refine Or.inr (Or.inr ⟨rfl, rfl, param1, outputfmt, hlength, hparam, hout, ?_⟩)
            rw [hreq]
            exact mfcfgEncoding_of_output h hlength hparam hout
        · left
          simp only [atMfcfgReq, htype, if_neg hnone, hname, if_neg htimeout, if_neg hencoding]

/-- A command that omits the input format sets the largest value. -/
theorem inputfmt_of_omitsInput (h : p.Exact Denotes) (homits : OmitsInput p Denotes cmd) :
    (atMfcfgReq p escape cfg cmd).1.inputfmt = 65535 := by
  obtain ⟨htype, hname, hlength, hempty, hout⟩ := homits
  have hsome : ¬ cmd.paraList.length < 1 := by omega
  have hother : ¬ cstr "encoding" = cstr "timeout" := by decide
  have hreq : atMfcfgReq p escape cfg cmd = mfcfgEncoding p escape cfg cmd.paraList := by
    simp only [atMfcfgReq, htype, if_neg hsome, hname, if_neg hother, if_true]
  have hparam : encodingParam1 p escape cmd.paraList = some (-1) := by
    rw [encodingParam1, hempty]
    rfl
  have hsets : ∃ outputfmt, SetsOutput Denotes cfg cmd.paraList outputfmt := by
    by_cases hnone : cmd.paraList.getD 2 [] = []
    · exact ⟨_, Or.inl ⟨hnone, rfl⟩⟩
    · obtain ⟨v, hv, hle⟩ := hout.resolve_left hnone
      exact ⟨_, Or.inr ⟨hnone, v, hv, hle, rfl⟩⟩
  obtain ⟨outputfmt, hsets⟩ := hsets
  rw [hreq, mfcfgEncoding_of_output h hlength hparam hsets]
  rfl

theorem lawful_of_unchanged (hvalid : Valid escape cfg)
    (hsame : (atMfcfgReq p escape cfg cmd).1 = cfg) : Lawful p escape cfg cmd where
  valid := hsame.symm ▸ hvalid
  error _ := hsame
  omitted x _ := by rw [hsame]

theorem SetsOutput.le {outputfmt : UInt16} (hout : SetsOutput Denotes cfg para outputfmt)
    (hvalid : Valid escape cfg) : outputfmt ≤ 1 := by
  rcases hout with ⟨-, rfl⟩ | ⟨-, v, -, hle, rfl⟩
  · exact hvalid.outputfmt
  · exact toUInt16_le hle (by decide)

/-- From a valid configuration a command does what it may do unless it omits the input
format. -/
theorem lawful_iff (h : p.Exact Denotes) (hvalid : Valid escape cfg) :
    Lawful p escape cfg cmd ↔ ¬ OmitsInput p Denotes cmd := by
  constructor
  · intro hlawful homits
    have hle := hlawful.valid.inputfmt
    rw [inputfmt_of_omitsInput h homits] at hle
    exact absurd hle (by cases escape <;> decide)
  intro hgives
  rcases @atMfcfgReq_cases p escape cfg cmd Denotes h with
    hsame | ⟨hgiven, v, hlow, hhigh, hreq⟩ |
      ⟨htype, hname, param1, outputfmt, hlength, hparam, hout, hreq⟩
  · exact lawful_of_unchanged hvalid hsame
  · refine ⟨?_, ?_, ?_⟩
    · rw [hreq]
      refine ⟨⟨?_, ?_⟩, hvalid.inputfmt, hvalid.outputfmt⟩
      · exact toUInt16_le hlow hhigh
      · exact toUInt16_le hhigh (by decide)
    · rw [hreq]
      exact fun herror => absurd rfl herror
    · rw [hreq]
      intro x hx
      cases x with
      | timeout => exact absurd hgiven hx
      | inputfmt => rfl
      | outputfmt => rfl
  · have hinput : cmd.paraList.getD 1 [] ≠ [] := by
      intro hempty
      refine hgives ⟨htype, hname, hlength, hempty, ?_⟩
      rcases hout with ⟨hnone, -⟩ | ⟨-, v, hv, hle, -⟩
      · exact Or.inl hnone
      · exact Or.inr ⟨v, hv, hle⟩
    have hinfmt := ((encodingParam1_cases h hparam).resolve_left fun hno => hinput hno.1).2
    refine ⟨?_, ?_, ?_⟩
    · rw [hreq]
      exact ⟨hvalid.timeout, hinfmt, hout.le hvalid⟩
    · rw [hreq]
      exact fun herror => absurd rfl herror
    · rw [hreq]
      intro x hx
      cases x with
      | timeout => rfl
      | inputfmt => exact absurd ⟨htype, hname, hinput⟩ hx
      | outputfmt =>
        rcases hout with ⟨-, rfl⟩ | ⟨hgiven, -⟩
        · rfl
        · exact absurd ⟨htype, hname, hgiven⟩ hx

theorem Lawful.valid_after (h : Lawful p escape cfg cmd) {cfg' : FsCmccCfg} {o : Response}
    (hstep : mfcfgStep p escape cfg cmd = some (cfg', o)) : Valid escape cfg' := by
  have hvalid := h.valid
  rwa [Option.some.inj hstep] at hvalid

/-- The settings stay valid, omitted parameters leave them alone and failed commands change
nothing, exactly in the runs whose commands do not set the encoding without an input
format. -/
theorem config_lawful_iff (h : p.Exact Denotes) {trace : List (AtCmd × Response)}
    {s : FsCmccCfg} :
    Run (mfcfgStep p escape) (fun _ => Lawful p escape) gCmccCfg trace s ∧ Valid escape s ↔
      Run (mfcfgStep p escape) (fun _ _ cmd => ¬ OmitsInput p Denotes cmd) gCmccCfg trace s := by
  have hiff : Run (mfcfgStep p escape) (fun _ => Lawful p escape) gCmccCfg trace s ↔
      Run (mfcfgStep p escape) (fun _ _ cmd => ¬ OmitsInput p Denotes cmd) gCmccCfg trace s :=
    @Run.law_iff _ _ _ _ _ (fun _ => Valid escape) _ _ (gCmccCfg_valid escape)
      (fun _ hlawful hstep => hlawful.valid_after hstep) (lawful_iff h) _ _
  rw [← hiff]
  refine and_iff_left_of_imp fun hrun => ?_
  exact @Run.invariant _ _ _ _ _ _ (fun _ => Valid escape) (gCmccCfg_valid escape)
    (fun _ hlawful hstep => hlawful.valid_after hstep) _ _ hrun

/-- A decimal numeral -/
def Decimal (text : CStr) (v : UInt32) : Prop :=
  text ≠ [] ∧ text.all isDigit ∧ digitsValue 0 text = v.toNat

/-- Strings stand in quotes and numbers are decimal. -/
def plainParsers : Parsers where
  toString text _ :=
    if text.head? = some 34 ∧ text.tail.getLast? = some 34 then some text.tail.dropLast else none
  toUint32WithRange text lo hi :=
    if text ≠ [] ∧ text.all isDigit ∧ lo.toNat ≤ digitsValue 0 text ∧
        digitsValue 0 text ≤ hi.toNat then
      some (UInt32.ofNat (digitsValue 0 text))
    else none

theorem plainParsers_exact : plainParsers.Exact Decimal where
  range := by
    intro text lo hi v
    have hlt := hi.toNat_lt
    simp only [plainParsers, Decimal, UInt32.le_iff_toNat_le, Option.ite_none_right_eq_some,
      Option.some.injEq]
    constructor
    · rintro ⟨⟨hsome, hdigits, hlow, hhigh⟩, rfl⟩
      rw [UInt32.toNat_ofNat_of_lt' (lt_of_le_of_lt hhigh hlt)]
      exact ⟨⟨hsome, hdigits, rfl⟩, hlow, hhigh⟩
    · rintro ⟨⟨hsome, hdigits, hvalue⟩, hlow, hhigh⟩
      rw [hvalue, UInt32.ofNat_toNat]
      exact ⟨⟨hsome, hdigits, hlow, hhigh⟩, rfl⟩
  empty := fun _ hempty => hempty.1 rfl

def mfcfgSet (paraList : List String) : AtCmd := ⟨.set, paraList.map cstr⟩

def timeoutThenEncoding : List (AtCmd × Response) :=
  [(mfcfgSet ["\"timeout\"", "30"], .only .ok), (mfcfgSet ["\"encoding\"", "1", "1"], .only .ok)]

theorem config_lawful_timeoutThenEncoding :
    (Run (mfcfgStep plainParsers false) (fun _ => Lawful plainParsers false) gCmccCfg
          timeoutThenEncoding ⟨30, 1, 1, 0, 200⟩ ∧ Valid false ⟨30, 1, 1, 0, 200⟩ ↔
      Run (mfcfgStep plainParsers false) (fun _ _ cmd => ¬ OmitsInput plainParsers Decimal cmd)
        gCmccCfg timeoutThenEncoding ⟨30, 1, 1, 0, 200⟩) ∧
    Run (mfcfgStep plainParsers false) (fun _ _ cmd => ¬ OmitsInput plainParsers Decimal cmd)
      gCmccCfg timeoutThenEncoding ⟨30, 1, 1, 0, 200⟩ := by
  refine ⟨config_lawful_iff plainParsers_exact, .snoc (.snoc .start ?_ rfl) ?_ rfl⟩
  · rintro ⟨-, hname, -⟩
    exact absurd hname (by decide)
  · rintro ⟨-, -, -, hempty, -⟩
    exact absurd hempty (by decide)

/-- `AT+MFCFG="encoding",,1` sets the input format that it leaves out. -/
theorem omitted_input_format_is_set : ∃ s o, plainParsers.Exact Decimal ∧
    Run (mfcfgStep plainParsers false) (fun _ _ _ => True) gCmccCfg
      [(mfcfgSet ["\"encoding\"", "", "1"], o)] s ∧
    o.ret = .ok ∧ ¬ Setting.inputfmt.Given plainParsers (mfcfgSet ["\"encoding\"", "", "1"]) ∧
    s.inputfmt = 65535 ∧ ¬ Valid false s := by
  refine ⟨_, _, plainParsers_exact, .snoc .start trivial rfl, rfl, ?_, rfl, ?_⟩
  · rintro ⟨-, -, hgiven⟩
    exact hgiven rfl
  · rintro ⟨-, hinput, -⟩
    exact absurd hinput (by decide)

end FileAtConfig
