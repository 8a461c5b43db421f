import Mathlib.Data.Bool.AllAny
import LinuxBuild.AtCredentials
import LinuxBuild.JsonText
import LinuxBuild.PrintedNumbers
import LinuxBuild.RequestItems

/-!
# The content of a OneOS request as a JSON document

The content is put together from its strings as they are. It is the document that it is
meant to be for the pids that need no escape sequence, while the configuration accepts
any pid that is not too long.
-/
namespace HttpContent
open CString LbsTypes AmapRequest BackendTypes OneosposBackend JsonText PrintedNumbers

/-- The serving cell of a request. -/
def servingCell (cell : CellInfo) : CStr :=
  List.intercalate (cstr ",")
    [decimal cell.mcc, decimal cell.mnc, cell.lac, cell.cellid, decimal cell.signal]

/-- The cell list of a request: the serving cell, and behind a bar the neighbour cells if
they have more than three characters. -/
def cellList (ue : OneosposUeInfo) : CStr :=
  servingCell ue.cellInfo ++ match ue.nearbts with
    | some nearbts => if 3 < nearbts.length then cstr "|" ++ nearbts else []
    | none => []

/-- The document that a content stands for. -/
def contentValue (pid : CStr) (ue : OneosposUeInfo) : Value :=
  .obj [(cstr "pid", .str pid), (cstr "cellList", .str (cellList ue)),
    (cstr "batchId", .str ue.imei)]

/-- Letters, digits, commas and bars. -/
def CellByte (c : UInt8) : Prop :=
  (65 ≤ c ∧ c ≤ 90) ∨ (97 ≤ c ∧ c ≤ 122) ∨ (48 ≤ c ∧ c ≤ 57) ∨ c = 44 ∨ c = 124

instance : DecidablePred CellByte := fun c => inferInstanceAs
  (Decidable ((65 ≤ c ∧ c ≤ 90) ∨ (97 ≤ c ∧ c ≤ 122) ∨ (48 ≤ c ∧ c ≤ 57) ∨ c = 44 ∨ c = 124))

/-- UE information whose strings consist of such bytes. -/
structure CellTexts (ue : OneosposUeInfo) : Prop where
  imei : ∀ c ∈ ue.imei, CellByte c
  lac : ∀ c ∈ ue.cellInfo.lac, CellByte c
  cellid : ∀ c ∈ ue.cellInfo.cellid, CellByte c
  nearbts : ∀ n, ue.nearbts = some n → ∀ c ∈ n, CellByte c

/-- A byte that JSON and UTF-8 take as it is. -/
def Harmless (c : UInt8) : Prop := Plain c ∧ c ≤ 0x7F

theorem harmless_of_toNat {c : UInt8}
    (h : (32 ≤ c.toNat ∧ c.toNat ≤ 127) ∧ c.toNat ≠ 34 ∧ c.toNat ≠ 92) : Harmless c := by
  refine ⟨⟨UInt8.le_iff_toNat_le.mpr h.1.1, ?_, ?_⟩, UInt8.le_iff_toNat_le.mpr h.1.2⟩
  · rintro rfl
    exact h.2.1 rfl
  · rintro rfl
    exact h.2.2 rfl

theorem CellByte.harmless {c : UInt8} (h : CellByte c) : Harmless c := by
  apply harmless_of_toNat
  simp only [CellByte, UInt8.le_iff_toNat_le, ← UInt8.toNat_inj] at h
  have hvalues : (65 : UInt8).toNat = 65 ∧ (90 : UInt8).toNat = 90 ∧ (97 : UInt8).toNat = 97 ∧
      (122 : UInt8).toNat = 122 ∧ (48 : UInt8).toNat = 48 ∧ (57 : UInt8).toNat = 57 ∧
      (44 : UInt8).toNat = 44 ∧ (124 : UInt8).toNat = 124 := by decide
  omega

theorem decimal_harmless (n : Int32) : ∀ c ∈ decimal n, Harmless c := by
  intro c hc
  rcases decimal_bytes n c hc with rfl | hdigit
  · exact harmless_of_toNat (by decide)
  · have hbyte : CellByte c := by
      simp only [CString.isDigit, Bool.and_eq_true, decide_eq_true_eq] at hdigit
      exact Or.inr (Or.inr (Or.inl hdigit))
    exact hbyte.harmless

theorem cellList_harmless {ue : OneosposUeInfo} (h : CellTexts ue) :
    ∀ c ∈ cellList ue, Harmless c := by
  intro c hc
  rw [cellList, List.mem_append] at hc
  rcases hc with hc | hc
  · rcases RequestItems.mem_intercalate hc with hc | ⟨p, hp, hc⟩
    · exact harmless_of_toNat (by rw [List.mem_singleton.mp hc]; decide)
    · simp only [List.mem_cons, List.not_mem_nil, or_false] at hp
      rcases hp with rfl | rfl | rfl | rfl | rfl
      · exact decimal_harmless _ c hc
      · exact decimal_harmless _ c hc
      · exact (h.lac c hc).harmless
      · exact (h.cellid c hc).harmless
      · exact decimal_harmless _ c hc
  · split at hc
    · rename_i n hn
      split_ifs at hc
      · rcases List.mem_append.mp hc with hc | hc
        · exact harmless_of_toNat (by rw [List.mem_singleton.mp hc]; decide)
        · exact (h.nearbts n hn c hc).harmless
      · cases hc
    · cases hc

/-- The content behind the pid. -/
def contentTail (ue : OneosposUeInfo) : CStr :=
  34 :: 44 :: (memberHead (cstr "cellList") ++ (cellList ue ++
    34 :: 44 :: (memberHead (cstr "batchId") ++ (ue.imei ++ [34, 125]))))

/-- A request whose texts fit the buffers gets its content. -/
theorem createHttpContent_eq {pid : CStr} {ue : OneosposUeInfo} (hpid : pid.length < 64)
    (hcells : (cellList ue).length < 512) (himei : ue.imei.length < 24) :
    createHttpContent true ⟨pid, some ue⟩ =
      some (some (123 :: memberHead (cstr "pid") ++ (pid ++ contentTail ue))) := by
  have hcontent : cstr "\x7b\"pid\":\"" ++ pid ++ cstr "\"," ++
      (cstr "\"cellList\":\"" ++ cellList ue ++ cstr "\",") ++
      (cstr "\"batchId\":\"" ++ ue.imei ++ cstr "\"\x7d") =
      123 :: memberHead (cstr "pid") ++ (pid ++ contentTail ue) := by
    simp only [contentTail, List.append_assoc]
    rfl
  have hlen : (123 :: memberHead (cstr "pid") ++ (pid ++ contentTail ue)).length < 1024 := by
    rw [← hcontent]
    simp only [List.length_append, length_cstr]
    have hconst : "\x7b\"pid\":\"".length = 8 ∧ "\",".length = 2 ∧ "\"cellList\":\"".length = 12 ∧
        "\"batchId\":\"".length = 11 ∧ "\"\x7d".length = 2 := by decide
    omega
  have hbts : inBuffer 512 (cellList ue) = some (cellList ue) := if_pos hcells
  simp only [createHttpContent, if_true]
  change (inBuffer 512 (cellList ue)).bind _ = _
  rw [hbts, Option.bind_some, hcontent, inBuffer, if_pos hlen]
  rfl

/-- The names of the members are plain. -/
theorem names_plain : ∀ name ∈ [cstr "pid", cstr "cellList", cstr "batchId"], ∀ c ∈ name,
    Plain c := by
  have hall : ∀ name ∈ [cstr "pid", cstr "cellList", cstr "batchId"],
      name.all fun c => decide (Plain c) := by decide
  exact fun name hname => List.all_iff_forall_prop.mp (hall name hname)

theorem contentTail_ascii {ue : OneosposUeInfo} (h : CellTexts ue) :
    ∀ c ∈ contentTail ue, c ≤ 0x7F := by
  have hcells : ∀ c ∈ cellList ue, c ≤ 0x7F := fun c hc => (cellList_harmless h c hc).2
  have himei : ∀ c ∈ ue.imei, c ≤ 0x7F := fun c hc => (h.imei c hc).harmless.2
  have hcellName : ∀ c ∈ memberHead (cstr "cellList"), c ≤ 0x7F :=
    List.all_iff_forall_prop.mp (by decide)
  have hbatchName : ∀ c ∈ memberHead (cstr "batchId"), c ≤ 0x7F :=
    List.all_iff_forall_prop.mp (by decide)
  have hquote : (34 : UInt8) ≤ 0x7F ∧ (44 : UInt8) ≤ 0x7F ∧ (125 : UInt8) ≤ 0x7F := by decide
  simp only [contentTail, List.forall_mem_cons, List.forall_mem_append]
  exact ⟨hquote.1, hquote.2.1, hcellName, hcells, hquote.1, hquote.2.1, hbatchName, himei,
    hquote.1, hquote.2.2, by simp⟩

/-- A plain pid is read back, and so are the cells and the batch id behind it. -/
theorem value_content {pid : CStr} {ue : OneosposUeInfo} (hpid : ∀ c ∈ pid, Plain c)
    (h : CellTexts ue) :
    value 6 (123 :: memberHead (cstr "pid") ++ (pid ++ contentTail ue)) =
      some (contentValue pid ue, []) := by
  have hnames := names_plain
  simp only [List.forall_mem_cons] at hnames
  have hcells : ∀ c ∈ cellList ue, Plain c := fun c hc => (cellList_harmless h c hc).1
  have himei : ∀ c ∈ ue.imei, Plain c := fun c hc => (h.imei c hc).harmless.1
  rw [List.cons_append, value_object, contentTail,
    members_comma hnames.1 hpid, members_comma hnames.2.1 hcells,
    members_brace hnames.2.2.1 himei]
  rfl

/-- A pid that is read back is plain, whatever follows it. -/
theorem plain_of_value {pid : CStr} {ue : OneosposUeInfo} {fuel : Nat} {rest : CStr}
    (h : value fuel (123 :: memberHead (cstr "pid") ++ (pid ++ contentTail ue)) =
      some (contentValue pid ue, rest)) : ∀ c ∈ pid, Plain c := by
  cases fuel with
  | zero =>
    rw [value] at h
    cases h
  | succ fuel =>
    rw [List.cons_append, value_object] at h
    obtain ⟨⟨l, rest'⟩, hmembers, heq⟩ := Option.map_eq_some_iff.mp h
    have hmember : l = _ := Value.obj.inj (Prod.mk.inj heq).1
    rw [hmember] at hmembers
    obtain ⟨text, rest', hlit, htext⟩ :=
      literal_of_members (names_plain _ List.mem_cons_self) hmembers
    rw [← Value.str.inj htext, contentTail, memberHead] at hlit
    exact plain_of_literal hlit

/-- The content denotes its document exactly for the pids that stand for themselves in
JSON. -/
theorem content_denotes_iff (pid : CStr) (ue : OneosposUeInfo) (h : CellTexts ue)
    (hpid : pid.length < 64) (hcells : (cellList ue).length < 512)
    (himei : ue.imei.length < 24) :
    (∃ content, createHttpContent true ⟨pid, some ue⟩ = some (some content) ∧
      Denotes content (contentValue pid ue)) ↔ (∀ c ∈ pid, Plain c) ∧ ValidUtf8 pid := by
  have hhead : ∀ c ∈ 123 :: memberHead (cstr "pid"), c ≤ 0x7F :=
    List.all_iff_forall_prop.mp (by decide)
  have hutf8 := @validUtf8_between pid _ _ hhead (contentTail_ascii h) (List.cons_ne_nil _ _)
  rw [createHttpContent_eq hpid hcells himei]
  simp only [Option.some.injEq, exists_eq_left', Denotes, hutf8]
  rw [and_comm]
  refine and_congr_left fun _ => ⟨?_, fun hplain => ⟨6, [], value_content hplain h, rfl⟩⟩
  rintro ⟨fuel, rest, hvalue, -⟩
  exact plain_of_value hvalue

/-- With OneOS selected every pid that fits its member is accepted. -/
theorem mlbscfgSet_pid {dir : AtConfig.ConfigDir} {pid : CStr} (hlen : pid.length ≤ 64)
    (hdir : AtConfig.atcmdGetplatform dir = .oneospos) :
    (AtConfig.mlbscfgSet (fun _ => true) dir (cstr "pid") (some pid)).1 = some .ok := by
  have hoption : AtConfig.subcmdToOption (cstr "pid") = some .pid := by decide
  simp [AtConfig.mlbscfgSet, hoption, AtConfig.checkSetting, AtConfig.atcmdSetoption,
    AtConfig.Setting.option, hdir, AtConfig.oneosposSetoption, AtConfig.oneosposAssign,
    AtConfig.storeKey, hlen]

/-- UE information with one neighbour cell. -/
def cellUe : OneosposUeInfo :=
  ⟨cstr "860000000000000", cstr "460000000000000", ⟨cstr "6f1a", cstr "2b67", 460, 0, -80⟩,
    some (cstr "460,0,28442,11111")⟩

theorem cellUe_texts : CellTexts cellUe := by
  have hbyte : ∀ n ∈ [cellUe.imei, cellUe.cellInfo.lac, cellUe.cellInfo.cellid,
      cstr "460,0,28442,11111"], ∀ c ∈ n, CellByte c := by
    have hall : ∀ n ∈ [cellUe.imei, cellUe.cellInfo.lac, cellUe.cellInfo.cellid,
        cstr "460,0,28442,11111"], n.all fun c => decide (CellByte c) := by decide
    exact fun n hn => List.all_iff_forall_prop.mp (hall n hn)
  refine ⟨hbyte _ (by simp), hbyte _ (by simp), hbyte _ (by simp), ?_⟩
  intro n hn
  cases hn
  exact hbyte _ (by simp)

theorem content_denotes_m5 :
    ∃ content, createHttpContent true ⟨cstr "m5CAIkqYGa", some cellUe⟩ = some (some content) ∧
      Denotes content (contentValue (cstr "m5CAIkqYGa") cellUe) :=
  (content_denotes_iff _ cellUe cellUe_texts (by decide) (by decide) (by decide)).mpr
    ⟨List.all_iff_forall_prop.mp (by decide), by decide⟩

/-- A pid with a quote is accepted and ends its string too early. -/
theorem content_denotes_quote :
    (AtConfig.mlbscfgSet (fun _ => true) AtConfig.emptyDir (cstr "pid") (some (cstr "a\"b"))).1 =
        some .ok ∧
      ¬ ∃ content, createHttpContent true ⟨cstr "a\"b", some cellUe⟩ = some (some content) ∧
        Denotes content (contentValue (cstr "a\"b") cellUe) := by
  refine ⟨mlbscfgSet_pid (by decide) rfl, ?_⟩
  rintro ⟨content, hcontent, -, fuel, rest, hvalue, -⟩
  rw [createHttpContent_eq (by decide) (by decide) (by decide)] at hcontent
  cases hcontent
  have hquote := plain_of_value hvalue 34 (by decide)
  exact absurd hquote (by decide)

end HttpContent
