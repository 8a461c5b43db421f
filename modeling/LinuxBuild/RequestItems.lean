import LinuxBuild.AmapSignature
import LinuxBuild.NearbtsLoop
import LinuxBuild.PrintedNumbers
import LinuxBuild.QueryText

/-!
# The items of a request path

Both versions write their parameters one behind the other and sign what they have written.
Read as a query, the parameters are the fields of the request in alphabetical order of
their keys.
-/
namespace RequestItems
open CString LbsTypes BackendTypes AmapRequest AmapSignature NearbtsLoop PrintedNumbers QueryText

/-- The serving cell as the value of `bts`; version 2 adds the age of the cell. -/
def cellText (platform : LocationPlatform) (cell : CellInfo) (age : CStr) : CStr :=
  let fields := [decimal cell.mcc, decimal cell.mnc, cell.lac, cell.cellid, decimal cell.signal]
  List.intercalate (cstr ",") (if platform = .amap20 then fields ++ [age] else fields)

/-- The neighbour cells as the value of `nearbts`; in version 2 up to five characters are
no cell. -/
def nearbtsForm (platform : LocationPlatform) (nearbts : CStr) : Option CStr :=
  if platform = .amap20 then
    if nearbts.length ≤ 5 then none else some (agedCells nearbts)
  else some nearbts

def optionalItem (key : String) (value : Option CStr) : List (Item UInt8) :=
  value.toList.map fun v => (cstr key, v)

/-- The items behind the first one, with the texts of the serving cell and of the
neighbour cells. -/
def furtherItems (platform : LocationPlatform) (ue : AmapUeInfo) (apikey : CStr)
    (showFieldsEnable : Int32) (cell : CStr) (nearbts : Option CStr) : List (Item UInt8) :=
  [(cstr "bts", cell), (cstr "cdma", cstr "0"), (cstr "imei", ue.imei), (cstr "key", apikey)] ++
    optionalItem "nearbts" nearbts ++ optionalItem "network" ue.networkType ++
    [(cstr "output", cstr "json")] ++ optionalItem "serverip" ue.serverIp ++
    if platform = .amap20 ∧ showFieldsEnable = 1 then
      [(cstr "show_fields", cstr "formatted_address,addressComponent")]
    else []

def requestItems (platform : LocationPlatform) (ue : AmapUeInfo) (apikey : CStr)
    (showFieldsEnable : Int32) (cell : CStr) (nearbts : Option CStr) : List (Item UInt8) :=
  (cstr "accesstype", cstr "0") :: furtherItems platform ue apikey showFieldsEnable cell nearbts

/-- Each key with the value of its field. -/
def fieldItems (platform : LocationPlatform) (ue : AmapUeInfo) (apikey : CStr)
    (showFieldsEnable : Int32) : List (Item UInt8) :=
  requestItems platform ue apikey showFieldsEnable
    (cellText platform ue.cellInfo (unsignedDecimal ue.cage))
    (ue.nearbts.bind (nearbtsForm platform))

/-- What a path has between the `?` and `&sig=`. -/
def signedPart (path : CStr) : Option CStr := do
  let query ← cutAt (cstr "?") path
  let parts ← cutAt (cstr "&sig=") query.2
  some parts.1

/-- The path is the version's prefix, the fields in alphabetical order of their keys, and
the signature of just this text and the sign key. -/
structure SignedRequest (md5 : CStr → Digest) (platform : LocationPlatform)
    (apikey signKey : CStr) (showFieldsEnable : Int32) (ue : AmapUeInfo) (path params : CStr) :
    Prop where
  shape : path =
    pathHead platform ++ params ++ cstr "&sig=" ++ lowerHexMd5 md5 (params ++ signKey)
  fields : items 38 61 params = fieldItems platform ue apikey showFieldsEnable
  sorted : ((items 38 61 params).map Prod.fst).Pairwise (· < ·)
  signed : signedPart path = some params

/-- The texts of the request that come from outside. -/
def fieldTexts (ue : AmapUeInfo) (apikey : CStr) : List CStr :=
  [ue.imei, ue.cellInfo.lac, ue.cellInfo.cellid, apikey] ++ ue.nearbts.toList ++
    ue.networkType.toList ++ ue.serverIp.toList

/-- A request with both keys and signing enabled, whose texts are free of `&` and `=` and
fit their buffers. -/
structure Renderable (ue : AmapUeInfo) (auth : AmapAuthentication) (apikey signKey : CStr) :
    Prop where
  platform : auth.platform = .amap10 ∨ auth.platform = .amap20
  keys : auth.apikey = some apikey ∧ auth.digitalSignKey = some signKey
  enabled : auth.digitalSignEnable ≠ 0
  clean : ∀ text ∈ fieldTexts ue apikey, 38 ∉ text ∧ 61 ∉ text
  cells : CellsFit auth.platform ue
  fits : FitsBuffers auth.platform
    (requestParams auth.platform ue apikey auth.showFieldsEnable) signKey

/-- There is memory for the signature, and in version 2 for neighbour cells that are sent,
and the age of the cell is printed as it is. -/
def Faithful (alloc : PathAlloc) (platform : LocationPlatform) (ue : AmapUeInfo) : Prop :=
  alloc.signature = true ∧ (platform = .amap20 →
    (∀ n, ue.nearbts = some n → 5 < n.length → alloc.nearbts = true) ∧ ue.cage.toNat < 2 ^ 31)

section Rendering
variable {platform : LocationPlatform} {ue : AmapUeInfo} {apikey : CStr}
variable {showFieldsEnable : Int32} {cell : CStr} {nearbts : Option CStr}

theorem optionalParam_eq {name key : String} (h : cstr name = 38 :: (cstr key ++ [61]))
    (value : Option CStr) :
    optionalParam name value = (optionalItem key value).flatMap fun i => 38 :: piece 61 i := by
  cases value with
  | none => rfl
  | some v => simp [optionalParam, param, optionalItem, piece, h]

/-- The parameters are the rendered items. -/
theorem params_eq_render (platform : LocationPlatform) (ue : AmapUeInfo) (apikey : CStr)
    (showFieldsEnable : Int32) (nearbts : Option CStr) :
    paramsBeforeKey platform ue ++ param "&key=" apikey ++
        paramsAfterKey platform ue nearbts showFieldsEnable =
      render 38 61 (requestItems platform ue apikey showFieldsEnable
        (cellText platform ue.cellInfo (decimal ue.cage.toInt32)) nearbts) := by
  have haccess : cstr "accesstype=0" = piece 61 (cstr "accesstype", cstr "0") := rfl
  have hbts : bts platform ue =
      38 :: piece 61 (cstr "bts", cellText platform ue.cellInfo (decimal ue.cage.toInt32)) := rfl
  have hcdma : cstr "&cdma=0" = 38 :: piece 61 (cstr "cdma", cstr "0") := rfl
  have himei : param "&imei=" ue.imei = 38 :: piece 61 (cstr "imei", ue.imei) := rfl
  have hkey : param "&key=" apikey = 38 :: piece 61 (cstr "key", apikey) := rfl
  have houtput : cstr "&output=json" = 38 :: piece 61 (cstr "output", cstr "json") := rfl
  have hshow : cstr "&show_fields=formatted_address,addressComponent" =
      38 :: piece 61 (cstr "show_fields", cstr "formatted_address,addressComponent") := rfl
  have hnearbts := @optionalParam_eq "&nearbts=" "nearbts" (by decide) nearbts
  have hnetwork := @optionalParam_eq "&network=" "network" (by decide) ue.networkType
  have hserver := @optionalParam_eq "&serverip=" "serverip" (by decide) ue.serverIp
  rw [requestItems, render_cons, furtherItems, paramsBeforeKey, paramsAfterKey, haccess, hbts,
    hcdma, himei, hkey, houtput, hshow, hnearbts, hnetwork, hserver]
  split_ifs <;> simp only [List.flatMap_append, List.flatMap_cons, List.flatMap_nil,
    List.append_assoc, List.append_nil, List.cons_append, List.nil_append]

/-- The keys of all items that a request can have. -/
def allKeys : List CStr :=
  [cstr "accesstype", cstr "bts", cstr "cdma", cstr "imei", cstr "key", cstr "nearbts",
    cstr "network", cstr "output", cstr "serverip", cstr "show_fields"]

theorem keys_sublist :
    ((requestItems platform ue apikey showFieldsEnable cell nearbts).map Prod.fst).Sublist
      allKeys := by
  have hoptional : ∀ (key : String) (value : Option CStr),
      ((optionalItem key value).map Prod.fst).Sublist [cstr key] := by
    intro key value
    cases value with
    | none => exact List.nil_sublist _
    | some v => exact List.Sublist.refl _
  have hshow : ((if platform = .amap20 ∧ showFieldsEnable = 1 then
      [(cstr "show_fields", cstr "formatted_address,addressComponent")] else []).map
      Prod.fst).Sublist [cstr "show_fields"] := by
    split_ifs
    · exact List.Sublist.refl _
    · exact List.nil_sublist _
  simp only [requestItems, furtherItems, List.map_cons, List.map_append, List.map_nil]
  exact ((((((List.Sublist.refl [cstr "accesstype", cstr "bts", cstr "cdma", cstr "imei",
    cstr "key"]).append (hoptional _ _)).append (hoptional _ _)).append
    (List.Sublist.refl _)).append (hoptional _ _)).append hshow)

/-- The keys increase alphabetically, whichever items are there. -/
theorem keys_sorted :
    ((requestItems platform ue apikey showFieldsEnable cell nearbts).map Prod.fst).Pairwise
      (· < ·) :=
  List.Pairwise.sublist keys_sublist (by decide)

theorem key_clean {item : Item UInt8}
    (h : item ∈ requestItems platform ue apikey showFieldsEnable cell nearbts) :
    38 ∉ item.1 ∧ 61 ∉ item.1 ∧ item.1 ≠ cstr "sig" := by
  have hall : ∀ key ∈ allKeys, 38 ∉ key ∧ 61 ∉ key ∧ key ≠ cstr "sig" := by decide
  exact hall _ (keys_sublist.subset (List.mem_map_of_mem h))

/-- The items determine the texts of the cells. -/
theorem requestItems_inj {cell' : CStr} {nearbts' : Option CStr} :
    requestItems platform ue apikey showFieldsEnable cell nearbts =
        requestItems platform ue apikey showFieldsEnable cell' nearbts' ↔
      cell = cell' ∧ nearbts = nearbts' := by
  constructor
  · intro h
    simp only [requestItems, furtherItems, List.cons.injEq, List.cons_append, List.nil_append,
      List.append_assoc, Prod.mk.injEq, true_and] at h
    refine ⟨h.1, ?_⟩
    have hnearbts := List.append_cancel_right h.2
    cases nearbts <;> cases nearbts' <;> simp_all [optionalItem]
  · rintro ⟨rfl, rfl⟩
    rfl

theorem cellText_inj {cell : CellInfo} {age age' : CStr} :
    cellText platform cell age = cellText platform cell age' ↔ platform = .amap20 → age = age' := by
  simp only [cellText]
  split_ifs with h
  · simp [List.intercalate_cons_cons, h]
  · simp [h]

/-- A letter of a joined text is one of the separator or of a part. -/
theorem mem_intercalate {c : UInt8} {sep : CStr} {parts : List CStr}
    (h : c ∈ List.intercalate sep parts) : c ∈ sep ∨ ∃ p ∈ parts, c ∈ p := by
  induction parts with
  | nil => simp at h
  | cons p parts ih =>
    cases parts with
    | nil => exact Or.inr ⟨p, List.mem_cons_self, by simpa using h⟩
    | cons q parts =>
      rw [List.intercalate_cons_cons, List.mem_append, List.mem_append] at h
      rcases h with (h | h) | h
      · exact Or.inr ⟨p, List.mem_cons_self, h⟩
      · exact Or.inl h
      · rcases ih h with h | ⟨r, hr, hc⟩
        · exact Or.inl h
        · exact Or.inr ⟨r, List.mem_cons_of_mem _ hr, hc⟩

theorem amp_notMem_decimal (n : Int32) : 38 ∉ decimal n := by
  intro h
  rcases decimal_bytes n 38 h with h | h
  · exact absurd h (by decide)
  · exact absurd h (by decide)

theorem amp_notMem_cellText (cell : CellInfo) (age : Int32) (hlac : 38 ∉ cell.lac)
    (hcellid : 38 ∉ cell.cellid) : 38 ∉ cellText platform cell (decimal age) := by
  intro h
  rcases mem_intercalate h with h | ⟨p, hp, h⟩
  · exact absurd h (by decide)
  · have hparts : p = decimal cell.mcc ∨ p = decimal cell.mnc ∨ p = cell.lac ∨ p = cell.cellid ∨
        p = decimal cell.signal ∨ p = decimal age := by
      split_ifs at hp
      · simpa [or_assoc] using hp
      · simp only [List.mem_cons, List.not_mem_nil, or_false] at hp
        tauto
    rcases hparts with rfl | rfl | rfl | rfl | rfl | rfl
    · exact amp_notMem_decimal _ h
    · exact amp_notMem_decimal _ h
    · exact hlac h
    · exact hcellid h
    · exact amp_notMem_decimal _ h
    · exact amp_notMem_decimal _ h

theorem amp_notMem_agedCells {nearbts : CStr} (h : 38 ∉ nearbts) : 38 ∉ agedCells nearbts := by
  intro hmem
  rw [agedCells_eq, nearbtsText_eq, List.mem_append] at hmem
  rcases hmem with hmem | hmem
  · obtain ⟨c, hc, hmem⟩ := List.mem_flatMap.mp hmem
    rw [cellBytes] at hmem
    split_ifs at hmem with hbar
    · rw [hbar] at hmem
      exact absurd hmem (by decide)
    · rw [List.mem_singleton] at hmem
      exact h (hmem ▸ hc)
  · exact absurd hmem (by decide)

end Rendering

section Path
variable {md5 : CStr → Digest} {alloc : PathAlloc} {ue : AmapUeInfo} {auth : AmapAuthentication}
variable {apikey signKey : CStr}

/-- The neighbour cells that reach the path. -/
def sentNearbts (alloc : Bool) (platform : LocationPlatform) (ue : AmapUeInfo) : Option CStr :=
  if platform = .amap20 ∧ alloc = false then none else ue.nearbts.bind (nearbtsForm platform)

theorem requestNearbts_eq {platform : LocationPlatform} (h : CellsFit platform ue)
    (alloc : Bool) : requestNearbts platform alloc ue = some (sentNearbts alloc platform ue) := by
  simp only [requestNearbts, sentNearbts]
  by_cases hplatform : platform = .amap20
  · cases hn : ue.nearbts with
    | none => simp [hplatform]
    | some n =>
      simp only [hplatform, if_true, true_and, Option.bind_some, nearbtsForm,
        amav2dealNearbtsCreate]
      by_cases hshort : n.length ≤ 5
      · simp [hshort]
      · have hfits := h.neighbours hplatform n hn (by omega)
        cases alloc <;> simp [hshort, inBuffer, hfits, agedCells_eq]
  · cases ue.nearbts <;> simp [hplatform, nearbtsForm]

/-- The parameters that the request gets. -/
def sentItems (alloc : Bool) (ue : AmapUeInfo) (auth : AmapAuthentication) (apikey : CStr) :
    List (Item UInt8) :=
  requestItems auth.platform ue apikey auth.showFieldsEnable
    (cellText auth.platform ue.cellInfo (decimal ue.cage.toInt32))
    (sentNearbts alloc auth.platform ue)

theorem amp_notMem_sentNearbts {platform : LocationPlatform} {v : CStr}
    {alloc : Bool} (h : ∀ n, ue.nearbts = some n → 38 ∉ n)
    (hv : sentNearbts alloc platform ue = some v) : 38 ∉ v := by
  rw [sentNearbts, Option.ite_none_left_eq_some] at hv
  obtain ⟨n, hn, hv⟩ := Option.bind_eq_some_iff.mp hv.2
  rw [nearbtsForm] at hv
  split_ifs at hv
  · cases hv
    exact amp_notMem_agedCells (h n hn)
  · cases hv
    exact h v hn

theorem sentItems_clean (h : Renderable ue auth apikey signKey) (alloc : Bool) :
    ∀ item ∈ sentItems alloc ue auth apikey, Clean 38 61 item := by
  intro item hitem
  obtain ⟨hamp, heq, -⟩ := key_clean hitem
  have hclean : ∀ text ∈ fieldTexts ue apikey, 38 ∉ text := fun text ht => (h.clean text ht).1
  simp only [fieldTexts, List.mem_append, List.mem_cons, List.not_mem_nil, or_false,
    Option.mem_toList] at hclean
  refine ⟨hamp, heq, ?_⟩
  have hcell := @amp_notMem_cellText auth.platform ue.cellInfo ue.cage.toInt32
    (hclean _ (by simp)) (hclean _ (by simp))
  have hnearbts : ∀ v, ue.nearbts = some v → 38 ∉ v := fun v hv => hclean v (by simp [hv])
  have himei := hclean ue.imei (by simp)
  have hkey := hclean apikey (by simp)
  have hnetwork : ∀ v, ue.networkType = some v → 38 ∉ v := fun v hv => hclean v (by simp [hv])
  have hserver : ∀ v, ue.serverIp = some v → 38 ∉ v := fun v hv => hclean v (by simp [hv])
  simp only [sentItems, requestItems, furtherItems, optionalItem, List.mem_cons, List.mem_append,
    List.mem_map, Option.mem_toList, List.not_mem_nil, or_false] at hitem
  rcases hitem with rfl | (((((rfl | rfl | rfl | rfl) | ⟨v, hv, rfl⟩) | ⟨v, hv, rfl⟩) | rfl) |
    ⟨v, hv, rfl⟩) | hshow
  · exact (by decide : (38 : UInt8) ∉ cstr "0")
  · exact hcell
  · exact (by decide : (38 : UInt8) ∉ cstr "0")
  · exact himei
  · exact hkey
  · exact amp_notMem_sentNearbts hnearbts hv
  · exact hnetwork v hv
  · exact (by decide : (38 : UInt8) ∉ cstr "json")
  · exact hserver v hv
  · split_ifs at hshow
    · rw [List.mem_singleton.mp hshow]
      exact (by decide : (38 : UInt8) ∉ cstr "formatted_address,addressComponent")
    · exact absurd hshow List.not_mem_nil

/-- The text of these items is what the path holds and what is signed. -/
def sentParams (alloc : Bool) (ue : AmapUeInfo) (auth : AmapAuthentication) (apikey : CStr) :
    CStr :=
  render 38 61 (sentItems alloc ue auth apikey)

theorem items_sentParams (h : Renderable ue auth apikey signKey) (alloc : Bool) :
    items 38 61 (sentParams alloc ue auth apikey) = sentItems alloc ue auth apikey :=
  items_render (by decide) (List.cons_ne_nil _ _) (sentItems_clean h alloc)

theorem shownNearbts_eq (platform : LocationPlatform) (ue : AmapUeInfo) :
    shownNearbts platform ue = ue.nearbts.bind (nearbtsForm platform) := by
  simp only [shownNearbts]
  by_cases hplatform : platform = .amap20
  · cases ue.nearbts <;> simp [hplatform, nearbtsForm, agedCells_eq]
  · cases ue.nearbts <;> simp [hplatform, nearbtsForm]

/-- Without memory for the neighbour cells the parameters only get shorter. -/
theorem sentParams_length_le (alloc : Bool) (ue : AmapUeInfo) (auth : AmapAuthentication)
    (apikey : CStr) : (sentParams alloc ue auth apikey).length ≤
      (requestParams auth.platform ue apikey auth.showFieldsEnable).length := by
  rw [sentParams, sentItems, ← params_eq_render, requestParams, shownNearbts_eq, sentNearbts]
  split_ifs
  · simp only [paramsAfterKey, optionalParam, List.length_append, List.length_nil]
    omega
  · exact le_rfl

theorem sentParams_fits (h : Renderable ue auth apikey signKey) (alloc : Bool) :
    FitsBuffers auth.platform (sentParams alloc ue auth apikey) signKey := by
  have hle := sentParams_length_le alloc ue auth apikey
  have hfits := h.fits
  simp only [FitsBuffers, List.length_append] at hfits ⊢
  omega

/-- The path of a request that fits its buffers. -/
theorem createRequstHttpPath_eq (h : Renderable ue auth apikey signKey) :
    createRequstHttpPath md5 alloc ue auth =
      let params := sentParams alloc.nearbts ue auth apikey
      some (.ok (pathHead auth.platform ++ params ++
        if alloc.signature then cstr "&sig=" ++ lowerHexMd5 md5 (params ++ signKey) else [])) := by
  have hfits := sentParams_fits h alloc.nearbts
  have hparams := params_eq_render auth.platform ue apikey auth.showFieldsEnable
    (sentNearbts alloc.nearbts auth.platform ue)
  have hcreate : createRequstHttpPath md5 alloc ue auth =
      (signedPath md5 alloc ue auth).map .ok := by
    rcases h.platform with hplatform | hplatform <;> simp only [createRequstHttpPath, hplatform]
  obtain ⟨hapi, hsign⟩ := h.keys
  rw [hcreate]
  simp only [signedPath, hapi, hsign, requestNearbts_eq h.cells, inBuffer, h.cells.serving,
    if_true, Option.bind_eq_bind, Option.bind_some, h.enabled, if_false, hparams]
  rw [← sentItems, ← sentParams]
  have hprefix : (pathHead auth.platform ++
      sentParams alloc.nearbts ue auth apikey).length < httpPathLenmax := by
    have hlen := hfits.2
    omega
  simp only [if_pos hprefix, Option.bind_some]
  cases hsignature : alloc.signature with
  | false =>
    simp only [digitalSignature, Bool.false_eq_true, if_false, Option.bind_some, optionalParam,
      List.append_nil, if_pos hprefix, Option.map_some]
  | true =>
    have hsignature := @digitalSignature_eq_some_iff md5 (sentParams alloc.nearbts ue auth apikey)
      signKey (some (lowerHexMd5 md5 (sentParams alloc.nearbts ue auth apikey ++ signKey)))
    have hlen : (pathHead auth.platform ++ sentParams alloc.nearbts ue auth apikey ++
        optionalParam "&sig=" (some (lowerHexMd5 md5 (sentParams alloc.nearbts ue auth apikey ++
          signKey)))).length < httpPathLenmax := by
      rw [optionalParam, List.length_append, length_param, lowerHexMd5_length]
      exact hfits.2
    rw [hsignature.mpr ⟨hfits.1, rfl⟩, Option.bind_some, if_pos hlen, if_pos rfl, Option.map_some]
    rfl

theorem fieldItems_eq_iff {platform : LocationPlatform} {alloc : Bool} {showFieldsEnable : Int32} :
    requestItems platform ue apikey showFieldsEnable
          (cellText platform ue.cellInfo (decimal ue.cage.toInt32))
          (sentNearbts alloc platform ue) =
        fieldItems platform ue apikey showFieldsEnable ↔
      (platform = .amap20 → (∀ n, ue.nearbts = some n → 5 < n.length → alloc = true) ∧
        ue.cage.toNat < 2 ^ 31) := by
  rw [fieldItems, requestItems_inj, cellText_inj, decimal_toInt32_iff, sentNearbts]
  by_cases hplatform : platform = .amap20
  · simp only [hplatform, true_and, forall_const]
    rw [and_comm]
    refine and_congr_left fun _ => ?_
    cases hn : ue.nearbts with
    | none => simp
    | some n =>
      simp only [Option.bind_some, nearbtsForm, if_true, Option.some.injEq, forall_eq']
      rcases Nat.lt_or_ge 5 n.length with hlong | hshort
      · cases alloc <;> simp [hlong]
      · simp [hshort]
  · simp [hplatform]

/-- Between the `?` and the signature stands the signed text. -/
theorem signedPart_eq (h : Renderable ue auth apikey signKey) (alloc : Bool) (sig : CStr) :
    signedPart (pathHead auth.platform ++ sentParams alloc ue auth apikey ++ cstr "&sig=" ++ sig) =
      some (sentParams alloc ue auth apikey) := by
  have hhead : ∃ start, pathHead auth.platform = start ++ [63] ∧ 63 ∉ start := by
    rcases h.platform with hplatform | hplatform <;> rw [hplatform]
    · exact ⟨cstr "/position", rfl, by decide⟩
    · exact ⟨cstr "/v5/position/IoT", rfl, by decide⟩
  obtain ⟨start, hstart, hfree⟩ := hhead
  have hquery : ∀ query, cutAt (cstr "?") (start ++ [63] ++ query) = some (start, query) := by
    intro query
    have hpat : cstr "?" = [63] := rfl
    rw [hpat, List.append_assoc, cutAt_append_of_notMem hfree, cutAt_append_self]
    simp
  have hsig : cstr "&sig=" = 38 :: (cstr "sig" ++ [61]) := rfl
  have hparams := @cutAt_render _ _ 38 61 (sentItems alloc ue auth apikey) (cstr "sig") (by decide)
    (List.cons_ne_nil _ _) (sentItems_clean h alloc) (by decide)
    (fun item hitem => (key_clean hitem).2.2) sig
  rw [← sentParams] at hparams
  rw [hstart, List.append_assoc, List.append_assoc, signedPart, hquery, ← List.append_assoc, hsig]
  simp only [Option.bind_eq_bind, Option.bind_some, hparams]

/-- An unsigned path is no signed request: its last item would have the key `sig`. -/
theorem unsigned_ne (h : Renderable ue auth apikey signKey) (alloc : Bool) (params sig : CStr) :
    sentParams alloc ue auth apikey ≠ params ++ cstr "&sig=" ++ sig := by
  intro heq
  have hsig : params ++ cstr "&sig=" ++ sig = params ++ 38 :: (cstr "sig" ++ 61 :: sig) := by
    rw [List.append_assoc]
    rfl
  obtain ⟨value, rest, hlast⟩ := @items_key _ _ 38 61 (by decide) (cstr "sig") (by decide) sig
  have hitems := items_sentParams h alloc
  rw [heq, hsig, items_append, hlast] at hitems
  have hmem : (cstr "sig", value) ∈ sentItems alloc ue auth apikey := by
    rw [← hitems]
    exact List.mem_append_right _ List.mem_cons_self
  exact (key_clean hmem).2.2 rfl

theorem faithful_of_signedRequest (h : Renderable ue auth apikey signKey) {path params : CStr}
    (hpath : createRequstHttpPath md5 alloc ue auth = some (.ok path))
    (hrequest : SignedRequest md5 auth.platform apikey signKey auth.showFieldsEnable ue path
      params) : Faithful alloc auth.platform ue := by
  rw [Faithful, ← fieldItems_eq_iff, ← sentItems]
  rw [createRequstHttpPath_eq h] at hpath
  have hshape := hrequest.shape
  rw [← Except.ok.inj (Option.some.inj hpath), List.append_assoc, List.append_assoc,
    List.append_assoc, List.append_cancel_left_eq] at hshape
  cases hsignature : alloc.signature with
  | false =>
    rw [hsignature] at hshape
    simp only [Bool.false_eq_true, if_false, List.append_nil] at hshape
    rw [← List.append_assoc] at hshape
    exact absurd hshape (unsigned_ne h _ _ _)
  | true =>
    rw [hsignature, if_pos rfl, ← List.append_assoc, ← List.append_assoc] at hshape
    have hparams := (List.append_inj' hshape (by simp only [lowerHexMd5_length])).1
    rw [List.append_cancel_right_eq] at hparams
    refine ⟨rfl, ?_⟩
    rw [← items_sentParams h, hparams]
    exact hrequest.fields

/-- The path is the signed request of its fields exactly when memory and the printed age
do not fail it. -/
theorem signedRequest_iff (md5 : CStr → Digest) (alloc : PathAlloc) (ue : AmapUeInfo)
    (auth : AmapAuthentication) (apikey signKey : CStr) (h : Renderable ue auth apikey signKey) :
    (∃ path params, createRequstHttpPath md5 alloc ue auth = some (.ok path) ∧
      SignedRequest md5 auth.platform apikey signKey auth.showFieldsEnable ue path params) ↔
      Faithful alloc auth.platform ue := by
  constructor
  · rintro ⟨path, params, hpath, hrequest⟩
    exact faithful_of_signedRequest h hpath hrequest
  · rw [Faithful, ← fieldItems_eq_iff, ← sentItems]
    rintro ⟨hsignature, hfields⟩
    have hitems := items_sentParams h alloc.nearbts
    refine ⟨_, sentParams alloc.nearbts ue auth apikey, createRequstHttpPath_eq h, ?_⟩
    rw [hsignature, if_pos rfl, ← List.append_assoc]
    exact ⟨rfl, hitems.trans hfields, hitems ▸ keys_sorted, signedPart_eq h _ _⟩

end Path

/-- UE information with a cell of this age and all optional texts. -/
def fullUe (cage : UInt32) : AmapUeInfo :=
  ⟨cstr "860000000000000", cstr "460000000000000", cage, ⟨cstr "6f1a", cstr "2b67", 460, 0, -80⟩,
    some (cstr "LTE"), some (cstr "460,0,28442,11111|460,0,28442,22222"), some (cstr "10.0.0.1")⟩

def fullAuth (platform : LocationPlatform) : AmapAuthentication :=
  ⟨platform, 1, some (cstr "sign"), some (cstr "key"), 10, 1⟩

theorem fullUe_renderable (cage : UInt32) (h : cage = 5 ∨ cage = 2147483648) :
    Renderable (fullUe cage) (fullAuth .amap20) (cstr "key") (cstr "sign") := by
  refine ⟨Or.inr rfl, ⟨rfl, rfl⟩, by decide, ?_, ⟨?_, ?_⟩, ?_⟩
  · intro text htext
    have hall : ∀ text ∈ fieldTexts (fullUe 5) (cstr "key"), 38 ∉ text ∧ 61 ∉ text := by decide
    exact hall text htext
  · rcases h with rfl | rfl <;> decide
  · intro _ n hn _
    cases hn
    decide
  · rcases h with rfl | rfl <;> constructor <;> decide +kernel

/-- A version 2 request with all its items and a fresh cell. -/
theorem signedRequest_iff_full :
    ∃ path params, createRequstHttpPath (fun _ => Field.zero 16) ⟨true, true⟩ (fullUe 5)
        (fullAuth .amap20) = some (.ok path) ∧
      SignedRequest (fun _ => Field.zero 16) .amap20 (cstr "key") (cstr "sign") 1 (fullUe 5) path
        params :=
  (signedRequest_iff (fun _ => Field.zero 16) ⟨true, true⟩ (fullUe 5) (fullAuth .amap20)
    (cstr "key") (cstr "sign") (fullUe_renderable 5 (Or.inl rfl))).mpr
    ⟨rfl, fun _ => ⟨fun _ _ _ => rfl, by decide⟩⟩

/-- A cell of 2^31 seconds is sent as one of -2^31 seconds. -/
theorem signedRequest_negative_age :
    Renderable (fullUe 2147483648) (fullAuth .amap20) (cstr "key") (cstr "sign") ∧
      ¬ ∃ path params, createRequstHttpPath (fun _ => Field.zero 16) ⟨true, true⟩
          (fullUe 2147483648) (fullAuth .amap20) = some (.ok path) ∧
        SignedRequest (fun _ => Field.zero 16) .amap20 (cstr "key") (cstr "sign") 1
          (fullUe 2147483648) path params := by
  have hrenderable := fullUe_renderable 2147483648 (Or.inr rfl)
  refine ⟨hrenderable, ?_⟩
  rintro ⟨path, params, hpath, hrequest⟩
  have hage := ((faithful_of_signedRequest hrenderable hpath hrequest).2 rfl).2
  exact absurd hage (by decide)

end RequestItems
