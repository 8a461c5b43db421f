import LinuxBuild.CString

/-!
# Numbers as `printf` prints them

`%d` prints a sign and digits. Given an unsigned number it takes the upper half of the
values for negative ones.
-/
namespace PrintedNumbers
open CString

/-- The decimal text of an unsigned number. -/
def unsignedDecimal (n : UInt32) : CStr := cstr (toString n.toNat)

theorem repr_digits (n : Nat) : ∀ c ∈ cstr n.repr, isDigit c = true := by
  intro c hc
  rw [cstr, Nat.toList_repr] at hc
  obtain ⟨d, hd, rfl⟩ := List.mem_map.mp hc
  have hdigit := Nat.isDigit_of_mem_toDigits (by decide) (by decide) hd
  simp only [Char.isDigit, Bool.and_eq_true, decide_eq_true_eq] at hdigit
  obtain ⟨hlow, hhigh⟩ := hdigit
  have hlow : 48 ≤ d.val.toNat := by simpa using UInt32.le_iff_toNat_le.mp hlow
  have hhigh : d.val.toNat ≤ 57 := by simpa using UInt32.le_iff_toNat_le.mp hhigh
  have hval : d.toUInt8.toNat = d.val.toNat := by
    simp only [Char.toUInt8, UInt32.toNat_toUInt8]
    omega
  simp only [isDigit, Bool.and_eq_true, decide_eq_true_eq, UInt8.le_iff_toNat_le, hval]
  exact ⟨hlow, hhigh⟩

theorem decimal_of_nonneg {n : Int32} (h : 0 ≤ n.toInt) :
    decimal n = cstr n.toInt.toNat.repr := by
  rw [decimal, Int.toString_eq_repr, Int.repr_eq_if, if_pos h]

theorem decimal_of_neg {n : Int32} (h : n.toInt < 0) :
    decimal n = 45 :: cstr (-n.toInt).toNat.repr := by
  rw [decimal, Int.toString_eq_repr, Int.repr_eq_if, if_neg (by omega), cstr, String.toList_append,
    List.map_append]
  rfl

/-- A printed number consists of digits and perhaps a minus sign. -/
theorem decimal_bytes (n : Int32) : ∀ c ∈ decimal n, c = 45 ∨ isDigit c = true := by
  intro c hc
  rcases lt_or_ge n.toInt 0 with hneg | hpos
  · rw [decimal_of_neg hneg] at hc
    rcases List.mem_cons.mp hc with rfl | hc
    · exact Or.inl rfl
    · exact Or.inr (repr_digits _ c hc)
  · rw [decimal_of_nonneg hpos] at hc
    exact Or.inr (repr_digits _ c hc)

theorem toInt_toInt32 (n : UInt32) :
    n.toInt32.toInt = if n.toNat < 2 ^ 31 then (n.toNat : Int) else n.toNat - 2 ^ 32 := by
  have hcond := BitVec.toInt_eq_toNat_cond n.toBitVec
  have htoInt : n.toInt32.toInt = n.toBitVec.toInt := rfl
  rw [htoInt, hcond]
  split_ifs <;> simp_all <;> omega

/-- `%d` prints an unsigned number as it is exactly when it is below 2^31. -/
theorem decimal_toInt32_iff (n : UInt32) :
    decimal n.toInt32 = unsignedDecimal n ↔ n.toNat < 2 ^ 31 := by
  have hvalue := toInt_toInt32 n
  constructor
  · intro heq
    by_contra hlarge
    rw [if_neg hlarge] at hvalue
    have hbound := n.toNat_lt
    rw [decimal_of_neg (by omega)] at heq
    have hmem : (45 : UInt8) ∈ cstr (Nat.repr n.toNat) := by
      have hcons : (45 : UInt8) ∈ unsignedDecimal n := heq ▸ List.mem_cons_self
      exact hcons
    exact absurd (repr_digits _ _ hmem) (by decide)
  · intro hsmall
    rw [if_pos hsmall] at hvalue
    rw [decimal_of_nonneg (by omega), hvalue]
    rfl

theorem decimal_toInt32_length {n : UInt32} {d : Nat} (hn : n.toNat < 2 ^ 31) (hd : 0 < d)
    (h : n.toNat < 10 ^ d) : (decimal n.toInt32).length ≤ d := by
  rw [(decimal_toInt32_iff n).mpr hn, unsignedDecimal, length_cstr]
  exact (Nat.length_repr_le_iff hd).mpr h

end PrintedNumbers
