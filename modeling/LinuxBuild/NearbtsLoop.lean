import LinuxBuild.AmapRequest
import LinuxBuild.CBuffer

/-!
# The neighbour cells of an AMAP 2.0 request, byte by byte

The loop reads the cells at one index and writes at another one, which runs ahead by two
for every bar. The buffer is 64 bytes longer than the cells, whatever the number of bars.
-/
namespace NearbtsLoop
open CString CBuffer AmapRequest

variable {n : Nat}

/-- The loop from the rest of the cells on, with the index `j` at which it writes. -/
def copyCells (f : Field n) (j : Nat) : CStr → Option (Field n)
  | [] => some f
  | c :: rest =>
    if c = 124 then do
      let f ← putByte f j 44
      let f ← putByte f (j + 1) 53
      let f ← putByte f (j + 2) c
      copyCells f (j + 3) rest
    else do
      let f ← putByte f j c
      copyCells f (j + 1) rest

/-- `__amav2deal_nearbts_create` with its buffer -/
def nearbtsCreate (alloc : Bool) (nearBts : CStr) : Option (Option CStr) :=
  if nearBts.length ≤ 5 then some none
  else if alloc then do
    let f ← copyCells (Field.zero (nearBts.length + 64)) 0 nearBts
    let f ← strcat f (cstr ",5")
    (string f).map some
  else some none

/-- The cells with the age 5 behind each of them. -/
def agedCells (nearBts : CStr) : CStr :=
  List.intercalate (cstr "|") ((nearBts.splitOn 124).map (· ++ cstr ",5"))

/-- What the loop makes of a byte. -/
def cellBytes (c : UInt8) : CStr := if c = 124 then cstr ",5" ++ [c] else [c]

/-- A buffer that holds `v` and is cleared behind it, perhaps without a terminator. -/
def Filled (f : Field n) (v : CStr) : Prop := f.bytes = v ++ List.replicate (n - v.length) 0

/-- The writing index stands behind what has been written. -/
theorem Filled.putBytes {f : Field n} {v : CStr} (h : Filled f v) (bytes : CStr)
    (hle : v.length + bytes.length ≤ n) :
    ∃ g, CBuffer.putBytes f v.length bytes = some g ∧ Filled g (v ++ bytes) := by
  obtain ⟨g, hg, hbytes⟩ := @CBuffer.putBytes_of_le n f v.length bytes hle
  have hleft : n - v.length - bytes.length = n - (v ++ bytes).length := by
    rw [List.length_append, Nat.sub_sub]
  refine ⟨g, hg, ?_⟩
  rw [Filled, hbytes, h, List.take_left, ← List.drop_drop, List.drop_left, List.drop_replicate,
    hleft]

/-- The loop writes the bytes of one cell after the other. -/
theorem copyCells_eq (f : Field n) (j : Nat) (rest : CStr) :
    copyCells f j rest = putBytes f j (rest.flatMap cellBytes) := by
  induction rest generalizing f j with
  | nil => rfl
  | cons c rest ih =>
    rw [List.flatMap_cons, putBytes_append]
    by_cases hbar : c = 124
    · have hbytes : cellBytes c = [44, 53, c] := if_pos hbar
      simp only [copyCells, if_pos hbar, hbytes, putBytes, ih, Option.bind_eq_bind,
        Option.bind_assoc, Option.bind_some, List.length_cons, List.length_nil]
    · have hbytes : cellBytes c = [c] := if_neg hbar
      simp only [copyCells, if_neg hbar, hbytes, putBytes, ih, Option.bind_eq_bind,
        Option.bind_assoc, Option.bind_some, List.length_cons, List.length_nil]

theorem length_flatMap_cellBytes (s : CStr) :
    (s.flatMap cellBytes).length = s.length + 2 * s.count 124 := by
  induction s with
  | nil => rfl
  | cons c s ih =>
    rw [List.flatMap_cons, List.length_append, ih, List.length_cons]
    by_cases hbar : c = 124
    · have hthree : (cellBytes c).length = 3 := by rw [cellBytes, if_pos hbar]; rfl
      rw [hbar, List.count_cons_self, ← hbar, hthree]
      omega
    · have hone : (cellBytes c).length = 1 := by rw [cellBytes, if_neg hbar]; rfl
      rw [List.count_cons_of_ne hbar, hone]
      omega

theorem nearbtsText_eq (s : CStr) : nearbtsText s = s.flatMap cellBytes ++ cstr ",5" := rfl

/-- The text that the loop builds is the one with every cell aged. -/
theorem agedCells_eq (s : CStr) : agedCells s = nearbtsText s := by
  rw [nearbtsText_eq]
  induction s with
  | nil => rfl
  | cons c s ih =>
    have hne : (s.splitOn 124).map (· ++ cstr ",5") ≠ [] := by simp
    rw [List.flatMap_cons, List.append_assoc, ← ih, agedCells, List.splitOn_cons_eq_if_modifyHead]
    by_cases hbar : c = 124
    · rw [if_pos (by simpa using hbar), List.map_cons, List.intercalate_cons_of_ne_nil hne,
        cellBytes, if_pos hbar, hbar]
      rfl
    · rw [if_neg (by simpa using hbar), cellBytes, if_neg hbar, agedCells]
      cases hsplit : s.splitOn 124 with
      | nil => exact absurd hsplit (List.splitOn_ne_nil 124 s)
      | cons p ps =>
        cases ps with
        | nil => simp
        | cons q qs => simp [List.intercalate_cons_cons]

theorem nul_notMem_cellBytes {s : CStr} (h : 0 ∉ s) : 0 ∉ s.flatMap cellBytes := by
  intro hmem
  obtain ⟨c, hc, hzero⟩ := List.mem_flatMap.mp hmem
  by_cases hbar : c = 124
  · rw [cellBytes, if_pos hbar, hbar] at hzero
    exact absurd hzero (by decide)
  · rw [cellBytes, if_neg hbar, List.mem_singleton] at hzero
    exact h (hzero ▸ hc)

theorem Filled.string {f : Field n} {v : CStr} (h : Filled f v) (hnul : 0 ∉ v)
    (hv : v.length ≤ n) : CBuffer.string f = if v.length < n then some v else none := by
  have hstore : f = Field.store v hv := by
    cases f
    congr
  have htext : f.text = v := by rw [hstore, Field.text_store hnul hv]
  rw [CBuffer.string, htext]

/-- Whatever the cells are, the loop returns their text with the ages as long as that
leaves room for its terminator, and runs out of its buffer otherwise. -/
theorem nearbtsCreate_eq (alloc : Bool) (nearBts : CStr) (hnul : 0 ∉ nearBts) :
    nearbtsCreate alloc nearBts = amav2dealNearbtsCreate alloc nearBts := by
  simp only [nearbtsCreate, amav2dealNearbtsCreate]
  split_ifs with hshort halloc
  · rfl
  · set size := nearBts.length + 64
    have hzero : Filled (Field.zero size) [] := by simp [Filled, Field.zero]
    have hnul' := nul_notMem_cellBytes hnul
    rw [inBuffer, nearbtsText_eq, copyCells_eq]
    rcases Nat.lt_or_ge size (nearBts.flatMap cellBytes).length with hlong | hfits
    · have hcopy := @putBytes_of_lt size (Field.zero size) 0 (nearBts.flatMap cellBytes)
        (Nat.zero_le _) (by omega)
      rw [if_neg (by simp only [List.length_append]; omega)]
      simp only [hcopy, Option.bind_eq_bind, Option.bind_none, Option.map_none]
    · obtain ⟨f, hcopy, hf⟩ := hzero.putBytes (nearBts.flatMap cellBytes) (by simpa using hfits)
      simp only [List.length_nil, List.nil_append] at hcopy hf
      have hstring := hf.string hnul' hfits
      have hcomma : (0 : UInt8) ∉ cstr ",5" := by decide
      have htwo : (cstr ",5").length = 2 := rfl
      simp only [hcopy, Option.bind_eq_bind, Option.bind_some]
      rcases Nat.lt_or_ge (nearBts.flatMap cellBytes ++ cstr ",5").length size with hroom | hfull
      · rw [List.length_append] at hroom
        rw [if_pos (by omega)] at hstring
        obtain ⟨g, hcat, hgstring⟩ := strcat_of_lt hstring hcomma hroom
        rw [if_pos (by rwa [List.length_append])]
        simp only [hcat, Option.bind_some, hgstring]
      · rw [if_neg (by omega)]
        rw [List.length_append] at hfull
        have hcat : strcat f (cstr ",5") = none := by
          split_ifs at hstring with hlt
          · exact strcat_of_le hstring hfull
          · rw [strcat, hstring]
            rfl
        simp only [hcat, Option.bind_none, Option.map_none]
  · rfl

/-- The function ages every cell exactly when no more than 30 bars separate them. -/
theorem nearbtsCreate_aged_iff (nearBts : CStr) (hnul : 0 ∉ nearBts) (hlong : 5 < nearBts.length) :
    nearbtsCreate true nearBts = some (some (agedCells nearBts)) ↔ nearBts.count 124 ≤ 30 := by
  have hlen := length_flatMap_cellBytes nearBts
  have htwo : (cstr ",5").length = 2 := rfl
  rw [nearbtsCreate_eq true nearBts hnul, amav2dealNearbtsCreate, if_neg (by omega), if_pos rfl,
    inBuffer, agedCells_eq, nearbtsText_eq, List.length_append]
  split_ifs with hfits
  · exact iff_of_true rfl (by omega)
  · refine iff_of_false ?_ (by omega)
    intro h
    cases h

theorem nearbtsCreate_aged_two :
    nearbtsCreate true (cstr "460,0,1|460,0,2") =
      some (some (agedCells (cstr "460,0,1|460,0,2"))) :=
  (nearbtsCreate_aged_iff _ (by decide) (by decide)).mpr (by decide)

/-- With 31 bars the terminator is the byte behind the buffer. -/
theorem nearbtsCreate_bars :
    nearbtsCreate true (List.replicate 31 124) ≠ some (some (agedCells (List.replicate 31 124))) ∧
      nearbtsCreate true (List.replicate 31 124) = none := by
  have hnone : nearbtsCreate true (List.replicate 31 124) = none := by decide
  exact ⟨hnone ▸ (Option.some_ne_none _).symm, hnone⟩

end NearbtsLoop
