import LinuxBuild.ByteStream
import Mathlib.Data.UInt

/-!
# The check of a seek

The size and the position of a file and the offset of a seek are all 32 bits wide, the
offset with a sign and the others without. The sums are unsigned, so they wrap, and no
sum is below zero.
-/
namespace FileSeek
open ByteStream

/-- `ftell` -/
def ftell (fp : File UInt8) : Nat := fp.pos

/-- `cm_file_get_size_by_file_point` -/
def cmFileGetSizeByFilePoint (fp : File UInt8) : UInt32 × File UInt8 :=
  let pos := UInt32.ofNat (ftell fp)
  let fp := fp.seek 0 .fromEnd
  let size := UInt32.ofNat (ftell fp)
  let fp := fp.seek pos.toNat .set
  (size, fp)

/-- `is_fs_OverFlow`: next to an unsigned operand the offset is converted. -/
def isFsOverFlow (fp : File UInt8) (offset : Int32) (dir : UInt32) : Bool × File UInt8 :=
  let (fsize, fp) := cmFileGetSizeByFilePoint fp
  let curPos := UInt32.ofNat (ftell fp)
  let overFlow :=
    if dir = 0 then offset < 0 || offset.toUInt32 > fsize
    else if dir = 1 then offset.toUInt32 + curPos > fsize || offset.toUInt32 + curPos < 0
    else offset > 0 || fsize + offset.toUInt32 < 0
  (overFlow, fp)

/-- The direction as `fseek` takes it. -/
def whence (dir : UInt32) : Whence := if dir = 0 then .set else if dir = 1 then .cur else .fromEnd

/-- The position that is asked for lies outside the file. -/
def Outside (fp : File UInt8) (offset : Int32) (dir : UInt32) : Prop :=
  fp.target offset.toInt (whence dir) < 0 ∨ fp.size < fp.target offset.toInt (whence dir)

variable {fp : File UInt8} {offset : Int32} {dir : UInt32}

/-- Converted to unsigned, an offset is taken modulo 2^32. -/
theorem toNat_toUInt32 (offset : Int32) :
    (offset.toUInt32.toNat : Int) = offset.toInt % 2 ^ 32 := by
  have hbits : offset.toInt = (offset.toUInt32.toNat : Int).bmod (2 ^ 32) :=
    BitVec.toInt_eq_toNat_bmod offset.toBitVec
  have hlt : offset.toUInt32.toNat < 2 ^ 32 := offset.toUInt32.toNat_lt
  have hmod : ((offset.toUInt32.toNat : Int).bmod (2 ^ 32)) % ((2 ^ 32 : Nat) : Int) =
      offset.toUInt32.toNat % ((2 ^ 32 : Nat) : Int) := Int.bmod_emod
  rw [hbits]
  omega

theorem cmFileGetSizeByFilePoint_eq (hsize : fp.size < 2 ^ 32) (hpos : fp.pos ≤ fp.size) :
    cmFileGetSizeByFilePoint fp = (UInt32.ofNat fp.size, fp) := by
  have htell : (UInt32.ofNat fp.pos).toNat = fp.pos :=
    UInt32.toNat_ofNat_of_lt (hpos.trans_lt hsize)
  simp only [cmFileGetSizeByFilePoint, ftell, seek_end_pos, htell, seek_seek_pos]

/-- What the check answers in integers. -/
def overFlows (fp : File UInt8) (offset : Int32) (dir : UInt32) : Prop :=
  if dir = 0 then offset.toInt < 0 ∨ fp.size < offset.toInt
  else if dir = 1 then fp.size < (offset.toInt + fp.pos) % 2 ^ 32
  else 0 < offset.toInt

theorem isFsOverFlow_spec (hsize : fp.size < 2 ^ 32) (hpos : fp.pos ≤ fp.size) :
    ((isFsOverFlow fp offset dir).1 = true ↔ overFlows fp offset dir) ∧
      (isFsOverFlow fp offset dir).2 = fp := by
  have hfsize : (UInt32.ofNat fp.size).toNat = fp.size := UInt32.toNat_ofNat_of_lt hsize
  have hcurPos : (UInt32.ofNat fp.pos).toNat = fp.pos :=
    UInt32.toNat_ofNat_of_lt (hpos.trans_lt hsize)
  have hoffset := toNat_toUInt32 offset
  have hlow := offset.le_toInt
  have hhigh := offset.toInt_lt
  have hzero : (0 : Int32).toInt = 0 := rfl
  have hnone : (0 : UInt32).toNat = 0 := rfl
  simp only [isFsOverFlow, cmFileGetSizeByFilePoint_eq hsize hpos, overFlows, ftell]
  refine ⟨?_, trivial⟩
  split_ifs with h0 h1
  · simp only [Bool.or_eq_true, decide_eq_true_eq, gt_iff_lt, Int32.lt_iff_toInt_lt,
      UInt32.lt_iff_toNat_lt, hfsize, hzero]
    omega
  · simp only [Bool.or_eq_true, decide_eq_true_eq, gt_iff_lt, UInt32.lt_iff_toNat_lt, hfsize,
      UInt32.toNat_add, hcurPos, hnone]
    omega
  · simp only [Bool.or_eq_true, decide_eq_true_eq, gt_iff_lt, Int32.lt_iff_toInt_lt,
      UInt32.lt_iff_toNat_lt, hzero, hnone]
    omega

theorem overFlows_set_iff : overFlows fp offset 0 ↔ Outside fp offset 0 := by
  have htarget : fp.target offset.toInt (whence 0) = offset.toInt := Int.zero_add _
  rw [overFlows, if_pos rfl, Outside, htarget]

/-- From the current position the sum wraps. -/
theorem overFlows_cur_iff (hsize : fp.size < 2 ^ 32) (hpos : fp.pos ≤ fp.size) :
    (overFlows fp offset 1 ↔ Outside fp offset 1) ↔
      (fp.pos + offset.toInt : Int) < 2 ^ 32 ∧
        (0 ≤ (fp.pos + offset.toInt : Int) ∨ (fp.size : Int) < fp.pos + offset.toInt + 2 ^ 32) := by
  have htarget : fp.target offset.toInt (whence 1) = fp.pos + offset.toInt := rfl
  have hlow := offset.le_toInt
  have hhigh := offset.toInt_lt
  rw [overFlows, if_neg (by decide), if_pos rfl, Outside, htarget]
  omega

/-- From the end only the offsets behind it are seen. -/
theorem overFlows_end_iff :
    (overFlows fp offset 2 ↔ Outside fp offset 2) ↔ 0 ≤ (fp.size + offset.toInt : Int) := by
  have htarget : fp.target offset.toInt (whence 2) = fp.size + offset.toInt := rfl
  rw [overFlows, if_neg (by decide), if_neg (by decide), Outside, htarget]
  omega

theorem dir_cases (h : dir ≤ 2) : dir = 0 ∨ dir = 1 ∨ dir = 2 := by
  have hle : dir.toNat ≤ 2 := UInt32.le_iff_toNat_le.mp h
  simp only [← UInt32.toNat_inj]
  have h0 : (0 : UInt32).toNat = 0 := rfl
  have h1 : (1 : UInt32).toNat = 1 := rfl
  have h2 : (2 : UInt32).toNat = 2 := rfl
  omega

/-- The check leaves the position alone. It tells the targets outside the file from the
others unless one from the end lies in front of the file, or one from the current position
is 2^32 or more, or so far below zero that it wraps into the file. -/
theorem isFsOverFlow_iff (hsize : fp.size < 2 ^ 32) (hpos : fp.pos ≤ fp.size) (hdir : dir ≤ 2) :
    (((isFsOverFlow fp offset dir).1 = true ↔ Outside fp offset dir) ∧
      (isFsOverFlow fp offset dir).2 = fp) ↔
      (dir = 1 → (fp.pos + offset.toInt : Int) < 2 ^ 32 ∧
        (0 ≤ (fp.pos + offset.toInt : Int) ∨ (fp.size : Int) < fp.pos + offset.toInt + 2 ^ 32)) ∧
      (dir = 2 → 0 ≤ (fp.size + offset.toInt : Int)) := by
  obtain ⟨hanswer, hsame⟩ := @isFsOverFlow_spec fp offset dir hsize hpos
  rw [hanswer]
  have h10 : (0 : UInt32) ≠ 1 := by decide
  have h20 : (0 : UInt32) ≠ 2 := by decide
  have h21 : (1 : UInt32) ≠ 2 := by decide
  rcases dir_cases hdir with rfl | rfl | rfl
  · exact iff_of_true ⟨overFlows_set_iff, hsame⟩ ⟨fun h => absurd h h10, fun h => absurd h h20⟩
  · rw [overFlows_cur_iff hsize hpos]
    exact ⟨fun h => ⟨fun _ => h.1, fun h => absurd h h21⟩, fun h => ⟨h.1 rfl, hsame⟩⟩
  · rw [overFlows_end_iff]
    exact ⟨fun h => ⟨fun h => absurd h h21.symm, fun _ => h.1⟩, fun h => ⟨h.2 rfl, hsame⟩⟩

/-- A file of ten bytes, read up to the fourth one. -/
def tenBytes : File UInt8 := ⟨List.replicate 10 0, 4, none⟩

/-- Back by three bytes from the fourth one. -/
theorem isFsOverFlow_back :
    ((isFsOverFlow tenBytes (-3) 1).1 = true ↔ Outside tenBytes (-3) 1) ∧
      (isFsOverFlow tenBytes (-3) 1).2 = tenBytes := by
  refine (isFsOverFlow_iff (by decide) (by decide) (by decide)).mpr ⟨fun _ => ?_, ?_⟩
  · decide
  · exact fun h => absurd h (by decide)

/-- Eleven bytes in front of the end there is no byte of ten, and the check does not
say so. -/
theorem isFsOverFlow_fails :
    (isFsOverFlow tenBytes (-11) 2).1 = false ∧ Outside tenBytes (-11) 2 := by
  have htarget : tenBytes.target (-11 : Int32).toInt (whence 2) = -1 := by decide
  exact ⟨by decide, Or.inl (by rw [htarget]; decide)⟩

end FileSeek
