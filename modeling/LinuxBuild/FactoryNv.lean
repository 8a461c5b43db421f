import LinuxBuild.AmapSignature
import LinuxBuild.AtConfigReport
import LinuxBuild.AtLocation
import LinuxBuild.CBuffer
import LinuxBuild.PartialRun

/-!
# The factory record

One command writes and queries the items of a record in NV memory. A write reads the whole
record, changes one item and writes the record back, and it does so on a cleared record when
the read fails. The strings lie next to each other and are stored without a terminator when
they fill their member.
-/
namespace FactoryNv
open CString CBuffer LbsTypes AmapRequest AtLocation PartialRun

/-- The string members of `cm_lbs_nvconfig_t` -/
inductive NvcfgString where
  | oneospospid
  | amapv1key
  | amapv1signa
  | amapv2key
  | amapv2signa
  deriving DecidableEq, Repr

/-- Its `int` members -/
inductive NvcfgEnable where
  | amapv1signaEn
  | amapv2signaEn
  deriving DecidableEq, Repr

/-- `cm_lbs_atcmd_nvcfg_type_t`, without its last constant -/
inductive NvcfgType where
  | string (i : NvcfgString)
  | enable (e : NvcfgEnable)
  | clearnall
  deriving DecidableEq, Repr

def nvcfgOptionInfo : List (NvcfgType × CStr) :=
  [(.string .oneospospid, cstr "oneospospid"),
    (.string .amapv1key, cstr "amapv1key"),
    (.string .amapv1signa, cstr "amapv1signa"),
    (.string .amapv2key, cstr "amapv2key"),
    (.string .amapv2signa, cstr "amapv2signa"),
    (.enable .amapv1signaEn, cstr "amapv1sinaen"),
    (.enable .amapv2signaEn, cstr "amapv2sinaen"),
    (.clearnall, cstr "clearnall")]

/-- `cm_lbs_atcmd_mlbsfact_typefind`; `none` is `LBS_ATCMD_NVCFG_NULL`. -/
def mlbsfactTypefind (subcmd : CStr) : Option NvcfgType :=
  (nvcfgOptionInfo.find? fun op => op.2 = subcmd).map Prod.fst

/-- `cm_lbs_atcmd_mlbsfact_stringfind` -/
def mlbsfactStringfind (type : NvcfgType) : Option CStr :=
  (nvcfgOptionInfo.find? fun op => op.1 = type).map Prod.snd

/-- `CM_LBS_NVCONFIG_ONEOSPOS_PIDLEN`, `CM_LBS_NVCONFIG_AMAP_KEYLEN` and
`CM_LBS_NVCONFIG_AMAP_SIGNALEN` -/
def NvcfgString.size : NvcfgString → Nat
  | .oneospospid => 64
  | .amapv1key | .amapv1signa | .amapv2key | .amapv2signa => 128

section Record
variable (nv : NvConfig)

def member : (i : NvcfgString) → Field i.size
  | .oneospospid => nv.oneospospid
  | .amapv1key => nv.amapv1key
  | .amapv1signa => nv.amapv1signa
  | .amapv2key => nv.amapv2key
  | .amapv2signa => nv.amapv2signa

def setMember : (i : NvcfgString) → Field i.size → NvConfig
  | .oneospospid, f => { nv with oneospospid := f }
  | .amapv1key, f => { nv with amapv1key := f }
  | .amapv1signa, f => { nv with amapv1signa := f }
  | .amapv2key, f => { nv with amapv2key := f }
  | .amapv2signa, f => { nv with amapv2signa := f }

def flag : NvcfgEnable → Int32
  | .amapv1signaEn => nv.amapv1signaEnable
  | .amapv2signaEn => nv.amapv2signaEnable

def setFlag : NvcfgEnable → Int32 → NvConfig
  | .amapv1signaEn, n => { nv with amapv1signaEnable := n }
  | .amapv2signaEn, n => { nv with amapv2signaEnable := n }

def behindAmapv2signa : List UInt8 :=
  intBytes nv.amapv1signaEnable ++ intBytes nv.amapv2signaEnable

def behindAmapv2key : List UInt8 := nv.amapv2signa.bytes ++ behindAmapv2signa nv

def behindAmapv1signa : List UInt8 := nv.amapv2key.bytes ++ behindAmapv2key nv

def behindAmapv1key : List UInt8 := nv.amapv1signa.bytes ++ behindAmapv1signa nv

def behindOneospospid : List UInt8 := nv.amapv1key.bytes ++ behindAmapv1key nv

/-- The bytes of the record behind the member. -/
def behind : NvcfgString → List UInt8
  | .oneospospid => behindOneospospid nv
  | .amapv1key => behindAmapv1key nv
  | .amapv1signa => behindAmapv1signa nv
  | .amapv2key => behindAmapv2key nv
  | .amapv2signa => behindAmapv2signa nv

/-- The member as the string functions see it. A flag of 0 or 1 has a zero byte, so no
string goes on behind the record. -/
def memberString (i : NvcfgString) : CStr := cstringAt ((member nv i).bytes ++ behind nv i)

end Record

/-- The memory of `cm_lbs_malloc`, which is cleared. -/
def clearedNv : NvConfig where
  oneospospid := .zero 64
  amapv1key := .zero 128
  amapv1signa := .zero 128
  amapv2key := .zero 128
  amapv2signa := .zero 128
  amapv1signaEnable := 0
  amapv2signaEnable := 0

/-- Which calls of a command succeed: the allocation, the read and the write. -/
structure NvEnv where
  alloc : Bool
  read : Bool
  write : Bool

/-- `cm_lbs_read_nv_data` on what the NV memory holds, if it holds a record. A NULL record
is refused. -/
def readNvData (env : NvEnv) (stored : Option NvConfig) : Option NvConfig :=
  if env.alloc ∧ env.read then stored else none

/-- The cases of the `switch` of `cm_lbs_atcmd_mlbsfact_write`; `none` is
`LBS_ATCMD_PARAERR`. -/
def writeItem (nv : NvConfig) (param : CStr) : NvcfgType → Option NvConfig
  | .string i =>
    if h : param.length ≤ i.size then some (setMember nv i (Field.store param h)) else none
  | .enable e =>
    let en := atoi param
    if 1 = en ∨ 0 = en then some (setFlag nv e en) else none
  | .clearnall => none

/-- `cm_lbs_atcmd_mlbsfact_write`, with what the NV memory holds behind it -/
def mlbsfactWrite (env : NvEnv) (stored : Option NvConfig) (type : NvcfgType) (param : CStr) :
    AtcmdErrcode × Option NvConfig :=
  if env.alloc then
    -- the result of the read is not looked at
    match writeItem ((readNvData env stored).getD clearedNv) param type with
    | none => (.paraErr, stored)
    | some nv => if env.write then (.success, some nv) else (.unknowErr, stored)
  else (.unknowErr, stored)

/-- The cases of the `switch` of `cm_lbs_atcmd_mlbsfact_read`, which fill `param[128]`. -/
def readItem (nv : NvConfig) : NvcfgType → Option (Field 128)
  | .string i => strcat (Field.zero 128) (memberString nv i)
  | .enable e => do
    let enBuf ← sprintf (Field.zero 2) (decimal (flag nv e))
    let en ← string enBuf
    strcat (Field.zero 128) en
  | .clearnall => some (Field.zero 128)

def showItem (md5 : CStr → Digest) (param : CStr) : NvcfgType → CStr
  | .enable _ => param
  | .string _ | .clearnall =>
    if param.length = 1 ∧ param = cstr "0" then cstr "none" else cmLbsMd5 md5 param

/-- The text in front of the item. -/
def itemHead (subcmd : CStr) : CStr := cstr "\"" ++ subcmd ++ cstr "\"" ++ cstr ","

/-- `cm_lbs_atcmd_mlbsfact_read`, with the text it appends to `at_rsp`; `none` is a fault. -/
def mlbsfactRead (md5 : CStr → Digest) (env : NvEnv) (stored : Option NvConfig)
    (type : NvcfgType) (atRsp : Bool) : Option (AtcmdErrcode × CStr) :=
  if atRsp then
    match readNvData env stored with
    | none => some (.unknowErr, [])
    | some nvconfig =>
      match mlbsfactStringfind type with
      | none => some (.unknowErr, [])
      | some subCmd => do
        let param ← readItem nvconfig type
        let param ← string param
        some (.success, itemHead subCmd ++ showItem md5 param type)
  else some (.unknowErr, [])

/-- `cm_lbs_atcmd_mlbsfact_clearn` -/
def mlbsfactClearn : AtcmdErrcode := .unknowErr

/-- `cm_lbs_atcmd_mlbsfact`: its result, what the NV memory holds behind it, and the text it
appends to `at_rsp`. -/
def atcmdMlbsfact (md5 : CStr → Digest) (env : NvEnv) (stored : Option NvConfig)
    (subcmd : CStr) (arg : Option CStr) (atRsp : Bool) :
    Option (AtcmdErrcode × Option NvConfig × CStr) :=
  match mlbsfactTypefind subcmd with
  | none => some (.paraErr, stored, [])
  | some .clearnall => some (mlbsfactClearn, stored, [])
  | some type =>
    let cmdParam := arg.getD []
    if cmdParam = [] then do
      let (ret, rsp) ← mlbsfactRead md5 env stored type atRsp
      some (ret, stored, rsp)
    else
      let (ret, stored') := mlbsfactWrite env stored type cmdParam
      some (ret, stored', [])

/-- A command with the outcome of its calls. Its argument is a C string. -/
structure FactCommand where
  subcmd : CStr
  arg : Option CStr
  atRsp : Bool
  env : NvEnv
  terminated : ∀ v ∈ arg, 0 ∉ v

/-- The strings and the values that were accepted last, or were there from the start. -/
structure Accepted where
  string : NvcfgString → CStr
  enable : NvcfgEnable → Int32

def Accepted.take (acc : Accepted) (v : CStr) : NvcfgType → Accepted
  | .string i => { acc with string := Function.update acc.string i v }
  | .enable e => { acc with enable := Function.update acc.enable e (atoi v) }
  | .clearnall => acc

/-- What is to be reported. -/
def Accepted.report (acc : Accepted) (md5 : CStr → Digest) : NvcfgType → CStr
  | .string i => if acc.string i = cstr "0" then cstr "none" else cmLbsMd5 md5 (acc.string i)
  | .enable e => decimal (acc.enable e)
  | .clearnall => []

structure FactState where
  stored : Option NvConfig
  accepted : Accepted

def FactState.record (s : FactState) : NvConfig := s.stored.getD clearedNv

/-- The contents of the record, each string up to its terminator or its end. -/
def contents (nv : NvConfig) : Accepted where
  string i := (member nv i).text
  enable := flag nv

def FactState.start (stored : Option NvConfig) : FactState :=
  ⟨stored, contents (stored.getD clearedNv)⟩

/-- A write that succeeds has accepted its argument. -/
def accept (acc : Accepted) (c : FactCommand) (ret : AtcmdErrcode) : Accepted :=
  if ret = .success ∧ c.arg.getD [] ≠ [] then
    ((mlbsfactTypefind c.subcmd).map (acc.take (c.arg.getD []))).getD acc
  else acc

def factStep (md5 : CStr → Digest) (s : FactState) (c : FactCommand) :
    Option (FactState × AtcmdErrcode × CStr) := do
  let (ret, stored, rsp) ← atcmdMlbsfact md5 c.env s.stored c.subcmd c.arg c.atRsp
  some (⟨stored, accept s.accepted c ret⟩, ret, rsp)

/-- Every query that could come next returns, and if it succeeds it reports what was accepted
last. -/
def Exact (s : FactState) : Prop :=
  ∀ (md5 : CStr → Digest) (c : FactCommand), c.arg.getD [] = [] →
    ∃ ret rsp, atcmdMlbsfact md5 c.env s.stored c.subcmd c.arg c.atRsp =
        some (ret, s.stored, rsp) ∧
      (ret = .success → ∃ type, mlbsfactTypefind c.subcmd = some type ∧
        rsp = itemHead c.subcmd ++ s.accepted.report md5 type)

/-- The arguments that a write accepts. -/
def Valid (v : CStr) : NvcfgType → Prop
  | .string i => v.length ≤ i.size
  | .enable _ => atoi v = 0 ∨ atoi v = 1
  | .clearnall => False

/-- The command writes the string to the item. -/
structure Writes (c : FactCommand) (type : NvcfgType) (v : CStr) : Prop where
  subcmd : mlbsfactTypefind c.subcmd = some type
  arg : c.arg = some v
  nonempty : v ≠ []
  alloc : c.env.alloc = true
  write : c.env.write = true
  valid : Valid v type

/-- No other item has a string or a value. -/
structure NoOther (acc : Accepted) (type : NvcfgType) : Prop where
  strings : ∀ i, .string i ≠ type → acc.string i = []
  enables : ∀ e, .enable e ≠ type → acc.enable e = 0

/-- The string ends in front of the next one. -/
def Ends (acc : Accepted) (i : NvcfgString) : Prop :=
  (acc.string i).length < i.size ∨ i = .oneospospid ∧ acc.string .amapv1key = []

/-- The record was read if there is something to lose, and a string that fills its member
is in front of an empty one. -/
structure Keeps (s : FactState) (c : FactCommand) (type : NvcfgType) (v : CStr) : Prop where
  read : c.env.read = true ∨ NoOther s.accepted type
  ends : ∀ i, Ends (s.accepted.take v type) i

section Record
variable {nv nv' : NvConfig}

/-- A member is read as a string of its size or less exactly if it holds that string and
the reader stops where the member ends. -/
theorem memberString_eq_iff {i : NvcfgString} {v : CStr} (hv : v.length ≤ i.size) :
    memberString nv i = v ∧ v.length < 128 ↔
      (member nv i).text = v ∧
        (v.length < i.size ∨ i = .oneospospid ∧ nv.amapv1key.text = []) := by
  have hsize : i.size = 128 ∨ i = .oneospospid := by cases i <;> simp [NvcfgString.size]
  have hmax : i.size ≤ 128 := by cases i <;> decide
  have hle := (member nv i).text_length_le
  rw [memberString, Field.cstringAt_bytes]
  by_cases hfull : (member nv i).text.length = i.size
  · rw [if_pos hfull]
    constructor
    · rintro ⟨rfl, hlt⟩
      rw [List.length_append] at hv hlt
      have hnil : cstringAt (behind nv i) = [] := List.length_eq_zero_iff.mp (by omega)
      obtain rfl : i = .oneospospid := hsize.resolve_left (by omega)
      refine ⟨by rw [hnil, List.append_nil], Or.inr ⟨rfl, ?_⟩⟩
      have hkey := nv.amapv1key.cstringAt_bytes (behindAmapv1key nv)
      rw [show cstringAt (nv.amapv1key.bytes ++ behindAmapv1key nv) = [] from hnil] at hkey
      split_ifs at hkey with h
      · exact (List.append_eq_nil_iff.mp hkey.symm).1
      · exact hkey.symm
    · rintro ⟨rfl, h⟩
      obtain ⟨rfl, hkey⟩ := h.resolve_left (by omega)
      have hnil : cstringAt (behind nv .oneospospid) = [] := by
        refine (nv.amapv1key.cstringAt_bytes (behindAmapv1key nv)).trans ?_
        rw [hkey]
        rfl
      rw [hnil, List.append_nil, hfull]
      exact ⟨rfl, by decide⟩
  · rw [if_neg hfull]
    constructor
    · rintro ⟨rfl, -⟩
      exact ⟨rfl, Or.inl (by omega)⟩
    · rintro ⟨rfl, -⟩
      exact ⟨rfl, by omega⟩

theorem texts_setMember (i : NvcfgString) (f : Field i.size) :
    (fun j => (member (setMember nv i f) j).text) =
      Function.update (fun j => (member nv j).text) i f.text := by
  funext j
  cases i <;> cases j <;> rfl

theorem flag_setMember (i : NvcfgString) (f : Field i.size) :
    flag (setMember nv i f) = flag nv := by
  funext e
  cases i <;> cases e <;> rfl

theorem texts_setFlag (e : NvcfgEnable) (n : Int32) :
    (fun j => (member (setFlag nv e n) j).text) = fun j => (member nv j).text := by
  funext j
  cases e <;> cases j <;> rfl

theorem flag_setFlag (e : NvcfgEnable) (n : Int32) :
    flag (setFlag nv e n) = Function.update (flag nv) e n := by
  funext e'
  cases e <;> cases e' <;> rfl

/-- A write changes its item only. -/
theorem contents_writeItem {v : CStr} {type : NvcfgType} (hv : 0 ∉ v)
    (h : writeItem nv v type = some nv') : contents nv' = (contents nv).take v type := by
  cases type with
  | string i =>
    simp only [writeItem, Option.dite_none_right_eq_some, Option.some.injEq] at h
    obtain ⟨hle, rfl⟩ := h
    have hstrings := @texts_setMember nv i (Field.store v hle)
    rw [Field.text_store hv hle] at hstrings
    simp only [contents, Accepted.take, Accepted.mk.injEq]
    exact ⟨hstrings, flag_setMember i _⟩
  | enable e =>
    simp only [writeItem, Option.ite_none_right_eq_some, Option.some.injEq] at h
    obtain ⟨-, rfl⟩ := h
    simp only [contents, Accepted.take, Accepted.mk.injEq]
    exact ⟨texts_setFlag e _, flag_setFlag e _⟩
  | clearnall => cases h

theorem writeItem_of_valid {v : CStr} {type : NvcfgType} (h : Valid v type) :
    ∃ nv', writeItem nv v type = some nv' := by
  cases type with
  | string i => exact ⟨_, dif_pos h⟩
  | enable e => exact ⟨_, if_pos (h.symm.imp Eq.symm Eq.symm)⟩
  | clearnall => exact h.elim

theorem valid_of_writeItem {v : CStr} {type : NvcfgType} (h : writeItem nv v type = some nv') :
    Valid v type := by
  cases type with
  | string i =>
    simp only [writeItem, Option.dite_none_right_eq_some] at h
    exact h.1
  | enable e =>
    simp only [writeItem, Option.ite_none_right_eq_some] at h
    exact h.1.symm.imp Eq.symm Eq.symm
  | clearnall => cases h

end Record

section Step
variable {md5 : CStr → Digest} {s t : FactState} {c : FactCommand} {o : AtcmdErrcode × CStr}

theorem atcmdMlbsfact_query {type : NvcfgType} (htype : mlbsfactTypefind c.subcmd = some type)
    (hne : type ≠ .clearnall) (harg : c.arg.getD [] = []) :
    atcmdMlbsfact md5 c.env s.stored c.subcmd c.arg c.atRsp =
      (mlbsfactRead md5 c.env s.stored type c.atRsp).map fun r => (r.1, s.stored, r.2) := by
  rw [atcmdMlbsfact, htype]
  cases type with
  | clearnall => exact absurd rfl hne
  | string i | enable e =>
    rw [Option.map_eq_bind]
    exact if_pos harg

theorem atcmdMlbsfact_write {type : NvcfgType} (htype : mlbsfactTypefind c.subcmd = some type)
    (hne : type ≠ .clearnall) (harg : c.arg.getD [] ≠ []) :
    atcmdMlbsfact md5 c.env s.stored c.subcmd c.arg c.atRsp =
      some ((mlbsfactWrite c.env s.stored type (c.arg.getD [])).1,
        (mlbsfactWrite c.env s.stored type (c.arg.getD [])).2, []) := by
  rw [atcmdMlbsfact, htype]
  cases type with
  | clearnall => exact absurd rfl hne
  | string i | enable e => exact if_neg harg

/-- A write fails and changes nothing, or the changed record is stored. -/
theorem mlbsfactWrite_cases (env : NvEnv) (stored : Option NvConfig) (type : NvcfgType)
    (v : CStr) :
    (mlbsfactWrite env stored type v).1 ≠ .success ∧
        (mlbsfactWrite env stored type v).2 = stored ∧
        ¬ (env.alloc = true ∧ env.write = true ∧ Valid v type) ∨
      env.alloc = true ∧ env.write = true ∧
        ∃ nv, writeItem ((readNvData env stored).getD clearedNv) v type = some nv ∧
          mlbsfactWrite env stored type v = (.success, some nv) := by
  cases halloc : env.alloc with
  | false =>
    left
    simp only [mlbsfactWrite, halloc, Bool.false_eq_true, if_false]
    exact ⟨by decide, trivial, fun h => h.1⟩
  | true =>
    cases hitem : writeItem ((readNvData env stored).getD clearedNv) v type with
    | none =>
      left
      simp only [mlbsfactWrite, halloc, if_true, hitem]
      refine ⟨by decide, trivial, ?_⟩
      rintro ⟨-, -, hvalid⟩
      obtain ⟨nv, hnv⟩ := writeItem_of_valid hvalid
      rw [hitem] at hnv
      cases hnv
    | some nv =>
      cases hwrite : env.write with
      | false =>
        left
        simp only [mlbsfactWrite, halloc, if_true, hitem, hwrite, Bool.false_eq_true, if_false]
        exact ⟨by decide, trivial, fun h => h.2.1⟩
      | true =>
        right
        refine ⟨rfl, rfl, nv, rfl, ?_⟩
        simp only [mlbsfactWrite, halloc, if_true, hitem, hwrite]

/-- A command leaves everything as it is, or is a write that is accepted. -/
theorem factStep_cases (h : factStep md5 s c = some (t, o)) :
    (t = s ∧ ∀ type v, ¬ Writes c type v) ∨
      ∃ type v nv, Writes c type v ∧
        writeItem ((readNvData c.env s.stored).getD clearedNv) v type = some nv ∧
        t = ⟨some nv, s.accepted.take v type⟩ := by
  obtain ⟨⟨ret, stored, rsp⟩, hrun, hstep⟩ := Option.bind_eq_some_iff.mp h
  cases hstep
  cases htype : mlbsfactTypefind c.subcmd with
  | none =>
    rw [atcmdMlbsfact, htype] at hrun
    cases hrun
    refine Or.inl ⟨rfl, fun type v hw => ?_⟩
    cases htype.symm.trans hw.subcmd
  | some type =>
    by_cases hclear : type = .clearnall
    · subst hclear
      rw [atcmdMlbsfact, htype] at hrun
      cases hrun
      refine Or.inl ⟨rfl, fun type v hw => ?_⟩
      cases htype.symm.trans hw.subcmd
      exact hw.valid
    · by_cases harg : c.arg.getD [] = []
      · rw [atcmdMlbsfact_query htype hclear harg] at hrun
        obtain ⟨⟨ret, rsp⟩, -, hr⟩ := Option.map_eq_some_iff.mp hrun
        cases hr
        refine Or.inl ⟨by simp [accept, harg], fun type v hw => ?_⟩
        rw [hw.arg] at harg
        exact hw.nonempty harg
      · rw [atcmdMlbsfact_write htype hclear harg] at hrun
        cases hrun
        rcases mlbsfactWrite_cases c.env s.stored type (c.arg.getD []) with
          ⟨hret, hstored, hno⟩ | ⟨halloc, hwrite, nv, hitem, hrun⟩
        · refine Or.inl ⟨?_, fun type' v hw => ?_⟩
          · rw [hstored, accept, if_neg fun h => hret h.1]
          · cases htype.symm.trans hw.subcmd
            rw [hw.arg] at hno
            exact hno ⟨hw.alloc, hw.write, hw.valid⟩
        · have hsome : c.arg = some (c.arg.getD []) := by
            cases hc : c.arg with
            | none => rw [hc] at harg; exact absurd rfl harg
            | some v => rfl
          refine Or.inr ⟨type, c.arg.getD [], nv, ?_, hitem, ?_⟩
          · exact ⟨htype, hsome, harg, halloc, hwrite, valid_of_writeItem hitem⟩
          · rw [hrun, accept, if_pos ⟨rfl, harg⟩, htype]
            rfl

end Step

section Report

theorem showItem_string (md5 : CStr → Digest) (v : CStr) (i : NvcfgString) :
    showItem md5 v (.string i) = if v = cstr "0" then cstr "none" else cmLbsMd5 md5 v := by
  have hiff : (v.length = 1 ∧ v = cstr "0") ↔ v = cstr "0" := by
    refine ⟨And.right, ?_⟩
    rintro rfl
    exact ⟨rfl, rfl⟩
  simp only [showItem, hiff]

/-- The reports agree under every hash function only for equal strings. -/
theorem showItem_same_iff {a b : CStr} {i : NvcfgString} :
    (∀ md5, showItem md5 a (.string i) = showItem md5 b (.string i)) ↔ a = b := by
  have hnone : ∀ md5 v, cmLbsMd5 md5 v ≠ cstr "none" := by
    intro md5 v heq
    have hlen := congrArg List.length heq
    rw [cmLbsMd5, AmapSignature.dataToHex_length, (md5 v).size] at hlen
    exact absurd hlen (by decide)
  constructor
  · intro h
    simp only [showItem_string] at h
    by_cases ha : a = cstr "0"
    · by_cases hb : b = cstr "0"
      · rw [ha, hb]
      · have := h fun _ => Field.zero 16
        rw [if_pos ha, if_neg hb] at this
        exact absurd this.symm (hnone _ _)
    · by_cases hb : b = cstr "0"
      · have := h fun _ => Field.zero 16
        rw [if_neg ha, if_pos hb] at this
        exact absurd this (hnone _ _)
      · apply (AtConfigReport.atcmdMd5_same_iff a b).mp
        intro md5
        have := h md5
        rw [if_neg ha, if_neg hb] at this
        exact congrArg some this
  · rintro rfl md5
    rfl

/-- The string of `param` that a query has for the item. -/
def itemText (nv : NvConfig) (type : NvcfgType) : Option CStr := (readItem nv type).bind string

theorem itemText_string_iff {nv : NvConfig} {i : NvcfgString} {p : CStr} :
    itemText nv (.string i) = some p ↔ memberString nv i = p ∧ p.length < 128 := by
  have hempty : string (Field.zero 128) = some [] := by decide
  have hnul : 0 ∉ memberString nv i := nul_notMem_cstringAt _
  rw [itemText, readItem]
  rcases Nat.lt_or_ge (memberString nv i).length 128 with h | h
  · obtain ⟨g, hg, hstring⟩ := strcat_of_lt hempty hnul (by simpa using h)
    rw [hg, Option.bind_some, hstring, List.nil_append, Option.some.injEq]
    constructor
    · rintro rfl
      exact ⟨rfl, h⟩
    · exact And.left
  · rw [strcat_of_le hempty (by simpa using h)]
    refine iff_of_false (fun hno => by cases hno) ?_
    rintro ⟨rfl, hlt⟩
    omega

theorem itemText_enable {nv : NvConfig} {e : NvcfgEnable} (h : flag nv e = 0 ∨ flag nv e = 1) :
    itemText nv (.enable e) = some (decimal (flag nv e)) := by
  rw [itemText, readItem]
  rcases h with h | h
  · rw [h]
    decide
  · rw [h]
    decide

theorem mlbsfactStringfind_typefind {subcmd : CStr} {type : NvcfgType}
    (h : mlbsfactTypefind subcmd = some type) : mlbsfactStringfind type = some subcmd := by
  obtain ⟨op, hfind, rfl⟩ := Option.map_eq_some_iff.mp h
  obtain rfl : op.2 = subcmd := by simpa using List.find?_some hfind
  have hall : ∀ op ∈ nvcfgOptionInfo, mlbsfactStringfind op.1 = some op.2 := by decide
  exact hall op (List.mem_of_find?_eq_some hfind)

theorem mlbsfactTypefind_surjective (type : NvcfgType) :
    ∃ subcmd, mlbsfactTypefind subcmd = some type := by
  have hall : ∀ op ∈ nvcfgOptionInfo, mlbsfactTypefind op.2 = some op.1 := by decide
  have hmem : ∃ subcmd, (type, subcmd) ∈ nvcfgOptionInfo := by
    cases type with
    | string i => cases i <;> simp [nvcfgOptionInfo]
    | enable e => cases e <;> simp [nvcfgOptionInfo]
    | clearnall => simp [nvcfgOptionInfo]
  obtain ⟨subcmd, hsubcmd⟩ := hmem
  exact ⟨subcmd, hall _ hsubcmd⟩

/-- A query that reads the record answers with its item. -/
theorem mlbsfactRead_record {md5 : CStr → Digest} {env : NvEnv} {stored : Option NvConfig}
    {nv : NvConfig} {subcmd : CStr} {type : NvcfgType}
    (htype : mlbsfactTypefind subcmd = some type) (hread : readNvData env stored = some nv) :
    mlbsfactRead md5 env stored type true =
      (itemText nv type).map fun p => (.success, itemHead subcmd ++ showItem md5 p type) := by
  rw [mlbsfactRead, if_pos rfl, hread, itemText]
  simp only [mlbsfactStringfind_typefind htype]
  cases readItem nv type with
  | none => rfl
  | some g => rw [Option.map_eq_bind]; rfl

end Report

/-- Strings that fit their members, and flags that are on or off. -/
structure Accepted.Bounded (acc : Accepted) : Prop where
  strings : ∀ i, (acc.string i).length ≤ i.size
  enables : ∀ e, acc.enable e = 0 ∨ acc.enable e = 1

theorem Accepted.Bounded.take {acc : Accepted} (h : acc.Bounded) {v : CStr} {type : NvcfgType}
    (hv : Valid v type) : (acc.take v type).Bounded := by
  cases type with
  | string i =>
    refine ⟨fun j => ?_, h.enables⟩
    by_cases hj : j = i
    · subst hj
      simpa [Accepted.take, Valid] using hv
    · simpa [Accepted.take, hj] using h.strings j
  | enable e =>
    refine ⟨h.strings, fun j => ?_⟩
    by_cases hj : j = e
    · subst hj
      simpa [Accepted.take, Valid] using hv
    · simpa [Accepted.take, hj] using h.enables j
  | clearnall => exact h

/-- Two accounts agree behind a write if they agreed on the other items. -/
theorem take_eq_take_iff {a b : Accepted} {v : CStr} {type : NvcfgType} (hne : type ≠ .clearnall) :
    a.take v type = b.take v type ↔
      (∀ i, .string i ≠ type → a.string i = b.string i) ∧
        ∀ e, .enable e ≠ type → a.enable e = b.enable e := by
  cases type with
  | string i =>
    simp only [Accepted.take, Accepted.mk.injEq, ne_eq, NvcfgType.string.injEq, reduceCtorEq,
      not_false_eq_true, forall_const, funext_iff]
    refine and_congr_left' (forall_congr' fun j => ?_)
    by_cases hj : j = i
    · simp [hj]
    · simp [hj]
  | enable e =>
    simp only [Accepted.take, Accepted.mk.injEq, ne_eq, NvcfgType.enable.injEq, reduceCtorEq,
      not_false_eq_true, forall_const, funext_iff]
    refine and_congr_right' (forall_congr' fun j => ?_)
    by_cases hj : j = e
    · simp [hj]
    · simp [hj]
  | clearnall => exact absurd rfl hne

/-- What holds in every state of a run. -/
structure Reached (s : FactState) : Prop where
  accepted : s.accepted.Bounded
  record : (contents s.record).Bounded
  fresh : s.stored = none → s.accepted = contents clearedNv

/-- The record holds what was accepted, and no string runs on. -/
structure Sound (s : FactState) : Prop where
  contents : contents s.record = s.accepted
  ends : ∀ i, Ends s.accepted i

theorem contents_clearedNv : contents clearedNv = ⟨fun _ => [], fun _ => 0⟩ := by
  have hstrings : (contents clearedNv).string = fun _ => [] := by
    funext i
    cases i <;> decide
  have henables : (contents clearedNv).enable = fun _ => 0 := by
    funext e
    cases e <;> rfl
  exact (Accepted.mk.injEq _ _ _ _).mpr ⟨hstrings, henables⟩

theorem contents_clearedNv_bounded : (contents clearedNv).Bounded := by
  rw [contents_clearedNv]
  exact ⟨fun _ => Nat.zero_le _, fun _ => Or.inl rfl⟩

section Run
variable {md5 : CStr → Digest} {s t : FactState} {c : FactCommand} {o : AtcmdErrcode × CStr}

/-- A write works on the stored record or on a cleared one. -/
theorem readNvData_getD (env : NvEnv) (s : FactState) :
    (readNvData env s.stored).getD clearedNv =
      if env.alloc = true ∧ env.read = true then s.record else clearedNv := by
  rw [readNvData]
  split_ifs <;> rfl

theorem Reached.step (h : Reached s) (hstep : factStep md5 s c = some (t, o)) : Reached t := by
  rcases factStep_cases hstep with ⟨rfl, -⟩ | ⟨type, v, nv, hw, hitem, rfl⟩
  · exact h
  · have hcontents := contents_writeItem (c.terminated v (hw.arg ▸ rfl)) hitem
    refine ⟨h.accepted.take hw.valid, ?_, fun hno => by cases hno⟩
    change (contents nv).Bounded
    rw [hcontents, readNvData_getD]
    split_ifs
    · exact h.record.take hw.valid
    · exact contents_clearedNv_bounded.take hw.valid

/-- A write keeps the record sound exactly under its condition. -/
theorem sound_step_iff (h : Sound s) {type : NvcfgType} {v : CStr} {nv : NvConfig}
    (hw : Writes c type v)
    (hitem : writeItem ((readNvData c.env s.stored).getD clearedNv) v type = some nv) :
    Sound ⟨some nv, s.accepted.take v type⟩ ↔ Keeps s c type v := by
  have hne : type ≠ .clearnall := by
    rintro rfl
    exact hw.valid
  have hcontents := contents_writeItem (c.terminated v (hw.arg ▸ rfl)) hitem
  have hread : contents nv = s.accepted.take v type ↔
      c.env.read = true ∨ NoOther s.accepted type := by
    rw [hcontents, readNvData_getD]
    by_cases hr : c.env.read = true
    · rw [if_pos ⟨hw.alloc, hr⟩, h.contents]
      exact iff_of_true rfl (Or.inl hr)
    · rw [if_neg fun h => hr h.2, take_eq_take_iff hne, contents_clearedNv]
      constructor
      · rintro ⟨hs, he⟩
        exact Or.inr ⟨fun i hi => (hs i hi).symm, fun e hi => (he e hi).symm⟩
      · intro hor
        obtain ⟨hs, he⟩ := hor.resolve_left hr
        exact ⟨fun i hi => (hs i hi).symm, fun e hi => (he e hi).symm⟩
  constructor
  · rintro ⟨hc, hends⟩
    exact ⟨hread.mp hc, hends⟩
  · rintro ⟨hc, hends⟩
    exact ⟨hread.mpr hc, hends⟩

/-- The text that a query finds in the record for an item that is what was accepted. -/
theorem itemText_of_sound (hr : Reached s) (h : Sound s) {nv : NvConfig}
    (hstored : s.stored = some nv) {type : NvcfgType} (hne : type ≠ .clearnall) :
    ∃ p, itemText nv type = some p ∧ ∀ md5, showItem md5 p type = s.accepted.report md5 type := by
  have hrecord : s.record = nv := by rw [FactState.record, hstored]; rfl
  have hcontents := h.contents
  rw [hrecord] at hcontents
  cases type with
  | clearnall => exact absurd rfl hne
  | string i =>
    have htext : ∀ j, (member nv j).text = s.accepted.string j := fun j => by
      rw [← hcontents]
      rfl
    refine ⟨s.accepted.string i, ?_, fun md5 => showItem_string md5 _ i⟩
    rw [itemText_string_iff, memberString_eq_iff (hr.accepted.strings i)]
    refine ⟨htext i, (h.ends i).imp id ?_⟩
    rintro ⟨rfl, hkey⟩
    exact ⟨rfl, (htext .amapv1key).trans hkey⟩
  | enable e =>
    have hflag : flag nv e = s.accepted.enable e := by
      rw [← hcontents]
      rfl
    refine ⟨decimal (flag nv e), itemText_enable ?_, fun md5 => ?_⟩
    · rw [hflag]
      exact hr.accepted.enables e
    · rw [hflag]
      rfl

theorem exact_of_sound (hr : Reached s) (h : Sound s) : Exact s := by
  intro md5 c harg
  cases htype : mlbsfactTypefind c.subcmd with
  | none =>
    refine ⟨.paraErr, [], ?_, fun h => by cases h⟩
    rw [atcmdMlbsfact, htype]
  | some type =>
    by_cases hclear : type = .clearnall
    · subst hclear
      refine ⟨.unknowErr, [], ?_, fun h => by cases h⟩
      rw [atcmdMlbsfact, htype]
      rfl
    · rw [atcmdMlbsfact_query htype hclear harg]
      cases hrsp : c.atRsp with
      | false => exact ⟨.unknowErr, [], rfl, fun h => by cases h⟩
      | true =>
        cases hread : readNvData c.env s.stored with
        | none =>
          refine ⟨.unknowErr, [], ?_, fun h => by cases h⟩
          rw [mlbsfactRead, hread]
          rfl
        | some nv =>
          have hstored : s.stored = some nv := by
            rw [readNvData, Option.ite_none_right_eq_some] at hread
            exact hread.2
          obtain ⟨p, hp, hshow⟩ := itemText_of_sound hr h hstored hclear
          refine ⟨.success, itemHead c.subcmd ++ showItem md5 p type, ?_, fun _ => ?_⟩
          · rw [mlbsfactRead_record htype hread, hp]
            rfl
          · exact ⟨type, rfl, by rw [hshow]⟩

/-- An exact query finds a text that is shown as what was accepted. -/
theorem itemText_of_exact (h : Exact s) {nv : NvConfig} (hstored : s.stored = some nv)
    {type : NvcfgType} (hne : type ≠ .clearnall) :
    ∃ p, itemText nv type = some p ∧ ∀ md5, showItem md5 p type = s.accepted.report md5 type := by
  obtain ⟨subcmd, htype⟩ := mlbsfactTypefind_surjective type
  let query : FactCommand := ⟨subcmd, none, true, ⟨true, true, true⟩, fun v hv => by cases hv⟩
  have hanswer : ∀ md5, ∃ ret rsp,
      (itemText nv type).map (fun p => (AtcmdErrcode.success, s.stored,
        itemHead subcmd ++ showItem md5 p type)) = some (ret, s.stored, rsp) ∧
      (ret = .success → rsp = itemHead subcmd ++ s.accepted.report md5 type) := by
    intro md5
    obtain ⟨ret, rsp, hrun, hshow⟩ := h md5 query rfl
    have hread : readNvData query.env s.stored = some nv := hstored
    rw [atcmdMlbsfact_query htype hne rfl, mlbsfactRead_record htype hread, Option.map_map] at hrun
    refine ⟨ret, rsp, hrun, fun hret => ?_⟩
    obtain ⟨type', htype', hrsp⟩ := hshow hret
    cases htype.symm.trans htype'
    exact hrsp
  cases hp : itemText nv type with
  | none =>
    obtain ⟨ret, rsp, hrun, -⟩ := hanswer fun _ => Field.zero 16
    rw [hp] at hrun
    cases hrun
  | some p =>
    refine ⟨p, rfl, fun md5 => ?_⟩
    obtain ⟨ret, rsp, hrun, hshow⟩ := hanswer md5
    rw [hp] at hrun
    cases hrun
    exact List.append_cancel_left (hshow rfl)

theorem decimal_flag_inj {m n : Int32} (hm : m = 0 ∨ m = 1) (hn : n = 0 ∨ n = 1)
    (h : decimal m = decimal n) : m = n := by
  rcases hm with rfl | rfl <;> rcases hn with rfl | rfl <;> revert h <;> decide

theorem sound_of_exact (hr : Reached s) (h : Exact s) : Sound s := by
  cases hstored : s.stored with
  | none =>
    have haccepted := hr.fresh hstored
    refine ⟨?_, fun i => Or.inl ?_⟩
    · rw [FactState.record, hstored, haccepted]
      rfl
    · rw [haccepted, contents_clearedNv]
      cases i <;> decide
  | some nv =>
    have hrecord : s.record = nv := by rw [FactState.record, hstored]; rfl
    have hstring : ∀ i, (member nv i).text = s.accepted.string i ∧
        ((s.accepted.string i).length < i.size ∨ i = .oneospospid ∧ nv.amapv1key.text = []) := by
      intro i
      have hne : NvcfgType.string i ≠ .clearnall := by simp
      obtain ⟨p, hp, hshow⟩ := itemText_of_exact h hstored hne
      have heq : p = s.accepted.string i := by
        apply showItem_same_iff.mp
        intro md5
        rw [hshow, showItem_string]
        rfl
      rw [itemText_string_iff, heq] at hp
      exact (memberString_eq_iff (hr.accepted.strings i)).mp hp
    have henable : flag nv = s.accepted.enable := by
      funext e
      have hflag : flag nv e = 0 ∨ flag nv e = 1 := hrecord ▸ hr.record.enables e
      have hne : NvcfgType.enable e ≠ .clearnall := by simp
      obtain ⟨p, hp, hshow⟩ := itemText_of_exact h hstored hne
      cases (itemText_enable hflag).symm.trans hp
      exact decimal_flag_inj hflag (hr.accepted.enables e) (hshow fun _ => Field.zero 16)
    refine ⟨?_, fun i => (hstring i).2.imp id ?_⟩
    · rw [hrecord]
      exact (Accepted.mk.injEq _ _ _ _).mpr ⟨funext fun i => (hstring i).1, henable⟩
    · rintro ⟨rfl, hkey⟩
      exact ⟨rfl, (hstring .amapv1key).1.symm.trans hkey⟩

theorem exact_iff_sound (hr : Reached s) : Exact s ↔ Sound s :=
  ⟨sound_of_exact hr, exact_of_sound hr⟩

end Run

/-- Every string ends inside its member and the flags are on or off. -/
structure Terminated (nv : NvConfig) : Prop where
  strings : ∀ i, (member nv i).text.length < i.size
  enables : ∀ e, flag nv e = 0 ∨ flag nv e = 1

theorem start_reached {stored : Option NvConfig} (h : Terminated (stored.getD clearedNv)) :
    Reached (.start stored) := by
  have hbounded : (contents (stored.getD clearedNv)).Bounded :=
    ⟨fun i => (h.strings i).le, h.enables⟩
  refine ⟨hbounded, hbounded, ?_⟩
  rintro rfl
  rfl

theorem start_sound {stored : Option NvConfig} (h : Terminated (stored.getD clearedNv)) :
    Sound (.start stored) := ⟨rfl, fun i => Or.inl (h.strings i)⟩

theorem reached_of_run {md5 : CStr → Digest} {stored : Option NvConfig}
    (h : Terminated (stored.getD clearedNv)) {s : FactState}
    {trace : List (FactCommand × AtcmdErrcode × CStr)}
    {ok : List (FactCommand × AtcmdErrcode × CStr) → FactState → FactCommand → Prop}
    (hrun : Run (factStep md5) ok (.start stored) trace s) : Reached s :=
  @Run.invariant _ _ _ _ _ _ (fun _ => Reached) (start_reached h)
    (fun hs _ hstep => hs.step hstep) _ _ hrun

/-- If the command is a write, it is made under its condition. -/
def KeepsAll (s : FactState) (c : FactCommand) : Prop :=
  ∀ type v, Writes c type v → Keeps s c type v

/-- Every query of a run is exact as long as every write reads the record, or has nothing to
lose, and no accepted string fills its member in front of another one. -/
theorem queries_exact_iff (md5 : CStr → Digest) {stored : Option NvConfig}
    (h : Terminated (stored.getD clearedNv)) {s : FactState}
    {trace : List (FactCommand × AtcmdErrcode × CStr)} :
    Run (factStep md5) (fun _ s _ => Exact s) (.start stored) trace s ∧ Exact s ↔
      Run (factStep md5) (fun _ => KeepsAll) (.start stored) trace s := by
  apply Run.good_iff
  · exact exact_of_sound (start_reached h) (start_sound h)
  · intro trace s t c o hrun hexact hstep
    have hr := reached_of_run h hrun
    have hsound := sound_of_exact hr hexact
    rw [exact_iff_sound (hr.step hstep)]
    rcases factStep_cases hstep with ⟨rfl, hno⟩ | ⟨type, v, nv, hw, hitem, rfl⟩
    · exact iff_of_true hsound fun type v hw => absurd hw (hno type v)
    · rw [sound_step_iff hsound hw hitem]
      constructor
      · intro hk type' v' hw'
        cases hw.subcmd.symm.trans hw'.subcmd
        cases hw.arg.symm.trans hw'.arg
        exact hk
      · intro hk
        exact hk type v hw

/-- The command that sets the item, with the outcome of its read. -/
def setCommand (subcmd v : CStr) (read : Bool) (hv : 0 ∉ v) : FactCommand where
  subcmd := subcmd
  arg := some v
  atRsp := true
  env := ⟨true, read, true⟩
  terminated := by
    rintro _ ⟨⟩
    exact hv

def setPid : FactCommand := setCommand (cstr "oneospospid") (cstr "p") true (by decide)

def setKey (read : Bool) : FactCommand :=
  setCommand (cstr "amapv1key") (cstr "k") read (by decide)

theorem erased_terminated : Terminated ((none : Option NvConfig).getD clearedNv) := by
  refine ⟨fun i => ?_, fun e => ?_⟩
  · cases i <;> decide
  · cases e <;> decide

theorem queries_exact_setPid : ∃ s o,
    (Run (factStep fun _ => Field.zero 16) (fun _ s _ => Exact s) (.start none) [(setPid, o)] s ∧
        Exact s ↔
      Run (factStep fun _ => Field.zero 16) (fun _ => KeepsAll) (.start none) [(setPid, o)] s) ∧
    Run (factStep fun _ => Field.zero 16) (fun _ => KeepsAll) (.start none) [(setPid, o)] s := by
  refine ⟨_, _, queries_exact_iff _ erased_terminated, .snoc .start ?_ rfl⟩
  intro type v hw
  obtain rfl : type = .string .oneospospid := Option.some.inj (hw.subcmd.symm.trans (by decide))
  obtain rfl : v = cstr "p" := (Option.some.inj hw.arg).symm
  exact ⟨Or.inl rfl, fun i => Or.inl (by cases i <;> decide)⟩

/-- A key is set while the record cannot be read, and the pid that was set before it is
gone. -/
theorem failed_read_loses_pid : ∃ s o o',
    Run (factStep fun _ => Field.zero 16) (fun _ _ _ => True) (.start none)
        [(setPid, o), (setKey false, o')] s ∧
      s.accepted.string .oneospospid = cstr "p" ∧ memberString s.record .oneospospid = [] ∧
      ¬ Exact s := by
  have h₁ : Run (factStep fun _ => Field.zero 16) (fun _ _ _ => True) (.start none) _ _ :=
    .snoc (i := setPid) .start trivial rfl
  have h₂ := h₁.snoc (i := setKey false) trivial rfl
  refine ⟨_, _, _, h₂, rfl, by decide, fun hexact => ?_⟩
  have hsound := sound_of_exact (reached_of_run erased_terminated h₂) hexact
  have hpid := congrArg (fun acc => acc.string .oneospospid) hsound.contents
  exact absurd hpid (by decide)

end FactoryNv
