import Mathlib.Algebra.Order.Field.Basic
import Mathlib.Analysis.Real.Pi.Bounds
import Mathlib.Analysis.SpecialFunctions.Trigonometric.Bounds
import Mathlib.Analysis.SpecialFunctions.Pow.Real
import Mathlib.Tactic.Linarith
import Mathlib.Tactic.Positivity
import Mathlib.Tactic.NormNum

/-!
# The change of coordinates in exact arithmetic

The guards around the constants keep those that the mathematics header has already
defined, and that is so for `M_E`: the eccentricity of the ellipsoid is Euler's number.
The functions of the mathematics library are parameters; a root of a negative number and
a quotient by zero have no value.
-/
namespace Coordinate

/-- The functions of the mathematics library that are called; `root` is `pow(x, 0.5)` where
that has a value. -/
structure Libm (K : Type*) where
  sin : K → K
  cos : K → K
  root : K → K

section Code
variable {K : Type*} [Field K] [LinearOrder K]

/-- `M_PI` of the mathematics header -/
def mPi : K := 3.14159265358979323846

/-- `M_E` of the mathematics header -/
def mE : K := 2.7182818284590452354

/-- `M_A` -/
def mA : K := 6378245

/-- A quotient whose divisor may be zero. -/
def quotient (a b : K) : Option K := if b = 0 then none else some (a / b)

/-- `pow(x, 0.5)` -/
def powHalf (m : Libm K) (x : K) : Option K := if x < 0 then none else some (m.root x)

def transformLat (m : Libm K) (lat lon : K) : Option K := do
  let root ← powHalf m |lon|
  let tlat := -100 + 2 * lon + 3 * lat + 0.2 * lat * lat + 0.1 * lon * lat + 0.2 * root
  let tlat := tlat + (20 * m.sin (6 * lon * mPi) + 20 * m.sin (2 * lon * mPi)) * 2 / 3
  let tlat := tlat + (20 * m.sin (lat * mPi) + 40 * m.sin (lat / 3 * mPi)) * 2 / 3
  some (tlat + (160 * m.sin (lat / 12 * mPi) + 320 * m.sin (lat * mPi / 30)) * 2 / 3)

def transformLon (m : Libm K) (lat lon : K) : Option K := do
  let root ← powHalf m |lon|
  let tlon := 300 + lon + 2 * lat + 0.1 * lon * lon + 0.1 * lon * lat + 0.1 * root
  let tlon := tlon + (20 * m.sin (6 * lon * mPi) + 20 * m.sin (2 * lon * mPi)) * 2 / 3
  let tlon := tlon + (20 * m.sin (lon * mPi) + 40 * m.sin (lon / 3 * mPi)) * 2 / 3
  some (tlon + (150 * m.sin (lon / 12 * mPi) + 300 * m.sin (lon / 30 * mPi)) * 2 / 3)

/-- The latitude in radians. -/
def ratlat (lat : K) : K := lat / 180 * mPi

/-- The number whose root is taken. -/
def magic (m : Libm K) (lat : K) : K := 1 - mE * m.sin (ratlat lat) * m.sin (ratlat lat)

def transformLoc (m : Libm K) (lat lon : K) : Option (K × K) := do
  let tlat ← transformLat m (lat - 35) (lon - 105)
  let tlon ← transformLon m (lat - 35) (lon - 105)
  let sqrtmagic ← powHalf m (magic m lat)
  let meridian ← quotient (mA * (1 - mE)) (magic m lat * sqrtmagic)
  let tlat ← quotient (tlat * 180) (meridian * mPi)
  let parallel ← quotient mA sqrtmagic
  let tlon ← quotient (tlon * 180) (parallel * m.cos (ratlat lat) * mPi)
  some (lat + tlat, lon + tlon)

def wgs84ToGcj02 (m : Libm K) (lat lon : K) : Option (K × K) := transformLoc m lat lon

def gcj02ToWgs84 (m : Libm K) (lat lon : K) : Option (K × K) :=
  (transformLoc m lat lon).map fun temp => (lat * 2 - temp.1, lon * 2 - temp.2)

/-- The divisors of `transformLoc` that are not constants. -/
def divisors (m : Libm K) (lat : K) : List K :=
  let sqrtmagic := m.root (magic m lat)
  [magic m lat * sqrtmagic, mA * (1 - mE) / (magic m lat * sqrtmagic) * mPi, sqrtmagic,
    mA / sqrtmagic * m.cos (ratlat lat) * mPi]

/-- The root is taken of a positive number, no divisor is zero, and both changes of
coordinates have a value at every longitude. -/
structure DefinedAt (m : Libm K) (lat : K) : Prop where
  positive : 0 < magic m lat
  divisors : ∀ d ∈ divisors m lat, d ≠ 0
  wgs : ∀ lon, (wgs84ToGcj02 m lat lon).isSome
  gcj : ∀ lon, (gcj02ToWgs84 m lat lon).isSome

/-- What is used of the mathematics library at an angle inside the quarter circles: the
sine has a modulus below 1, it lies on the circle with the cosine, and positive numbers
have positive roots. -/
structure Lawful (m : Libm K) (x : K) : Prop where
  modulus : |m.sin x| < 1
  circle : m.sin x ^ 2 + m.cos x ^ 2 = 1
  root_pos : ∀ y, 0 < y → 0 < m.root y

end Code

section Definedness
variable {K : Type*} [Field K] [LinearOrder K] [IsStrictOrderedRing K]
variable {m : Libm K} {lat lon : K}

theorem mE_gt_one : (1 : K) < mE := by
  rw [mE]
  norm_num

theorem mPi_pos : (0 : K) < mPi := by
  rw [mPi]
  norm_num

theorem mA_pos : (0 : K) < mA := by
  rw [mA]
  norm_num

omit [IsStrictOrderedRing K] in
theorem powHalf_of_nonneg {x : K} (h : 0 ≤ x) : powHalf m x = some (m.root x) :=
  if_neg (not_lt.mpr h)

omit [IsStrictOrderedRing K] in
theorem quotient_of_ne {a b : K} (h : b ≠ 0) : quotient a b = some (a / b) := if_neg h

theorem magic_pos_iff : 0 < magic m lat ↔ m.sin (ratlat lat) ^ 2 < 1 / mE := by
  have hpos : (0 : K) < mE := one_pos.trans mE_gt_one
  rw [magic, sub_pos, mul_assoc, ← sq, lt_div_iff₀' hpos]

theorem cos_ne_zero (h : Lawful m (ratlat lat)) : m.cos (ratlat lat) ≠ 0 := by
  intro hcos
  have hcircle := h.circle
  rw [hcos, zero_pow two_ne_zero, add_zero] at hcircle
  have hlt := (sq_lt_one_iff_abs_lt_one _).mpr h.modulus
  exact hlt.ne hcircle

theorem divisors_ne_zero (h : Lawful m (ratlat lat)) (hpos : 0 < magic m lat) :
    ∀ d ∈ divisors m lat, d ≠ 0 := by
  have hroot := (h.root_pos _ hpos).ne'
  have hmagic := hpos.ne'
  have hE : (1 : K) - mE ≠ 0 := (sub_neg.mpr mE_gt_one).ne
  have hA : (mA : K) ≠ 0 := mA_pos.ne'
  have hPi : (mPi : K) ≠ 0 := mPi_pos.ne'
  simp only [divisors, List.forall_mem_cons]
  exact ⟨mul_ne_zero hmagic hroot,
    mul_ne_zero (div_ne_zero (mul_ne_zero hA hE) (mul_ne_zero hmagic hroot)) hPi, hroot,
    mul_ne_zero (mul_ne_zero (div_ne_zero hA hroot) (cos_ne_zero h)) hPi, by simp⟩

/-- Where the root is taken of a positive number, everything has a value. -/
theorem transformLoc_isSome (h : Lawful m (ratlat lat)) (hpos : 0 < magic m lat) (lon : K) :
    (transformLoc m lat lon).isSome := by
  have hdivisors := divisors_ne_zero h hpos
  simp only [divisors, List.forall_mem_cons] at hdivisors
  obtain ⟨hmeridian, hlat, hroot, hlon, -⟩ := hdivisors
  have habs : ∀ x : K, powHalf m |x| = some (m.root |x|) := fun x =>
    powHalf_of_nonneg (abs_nonneg x)
  simp [transformLoc, transformLat, transformLon, habs, powHalf_of_nonneg hpos.le,
    quotient_of_ne hmeridian, quotient_of_ne hlat, quotient_of_ne hroot, quotient_of_ne hlon]

/-- The root decides about everything else. -/
theorem definedAt_iff_magic (h : Lawful m (ratlat lat)) : DefinedAt m lat ↔ 0 < magic m lat := by
  constructor
  · exact DefinedAt.positive
  · intro hpos
    have hsome := transformLoc_isSome h hpos
    refine ⟨hpos, divisors_ne_zero h hpos, hsome, fun lon => ?_⟩
    rw [gcj02ToWgs84, Option.isSome_map]
    exact hsome lon

/-- Both changes of coordinates are defined exactly where the square of the sine of the
latitude is below `1 / M_E`. -/
theorem definedAt_iff (m : Libm K) (lat : K) (h : Lawful m (ratlat lat)) :
    DefinedAt m lat ↔ m.sin (ratlat lat) ^ 2 < 1 / mE :=
  (definedAt_iff_magic h).trans magic_pos_iff

end Definedness

section Real
open Real

/-- The mathematics library in exact arithmetic. -/
noncomputable def realLibm : Libm ℝ := ⟨Real.sin, Real.cos, Real.sqrt⟩

theorem ratlat_mem {lat : ℝ} (h : -90 < lat ∧ lat < 90) :
    -(π / 2) < ratlat lat ∧ ratlat lat < π / 2 := by
  have hpi : (mPi : ℝ) < π := by
    rw [mPi]
    exact pi_gt_d20
  have hpos : (0 : ℝ) < mPi := mPi_pos
  rw [ratlat]
  constructor <;> nlinarith

theorem realLibm_lawful {lat : ℝ} (h : -90 < lat ∧ lat < 90) :
    Lawful realLibm (ratlat lat) := by
  have hmem := ratlat_mem h
  have hcos : 0 < Real.cos (ratlat lat) := cos_pos_of_mem_Ioo hmem
  refine ⟨?_, sin_sq_add_cos_sq _, fun y hy => Real.sqrt_pos.mpr hy⟩
  change |Real.sin (ratlat lat)| < 1
  rw [← sq_lt_one_iff_abs_lt_one]
  nlinarith [sin_sq_add_cos_sq (ratlat lat)]

/-- At 30 degrees both changes are defined. -/
theorem definedAt_30 : DefinedAt realLibm (30 : ℝ) := by
  refine (definedAt_iff realLibm 30 (realLibm_lawful (by norm_num))).mpr ?_
  have hangle : ratlat (30 : ℝ) = 3.14159265358979323846 / 6 := by
    rw [ratlat, mPi]
    norm_num
  have hle : Real.sin (ratlat 30) ≤ 0.53 := by
    refine (sin_le (by rw [hangle]; norm_num)).trans ?_
    rw [hangle]
    norm_num
  have hnonneg : 0 ≤ Real.sin (ratlat 30) := by
    refine sin_nonneg_of_nonneg_of_le_pi ?_ ?_ <;> rw [hangle]
    · norm_num
    · linarith [pi_gt_three]
  have hsmall : (0.53 : ℝ) ^ 2 < 1 / mE := by
    rw [mE]
    norm_num
  exact (pow_le_pow_left₀ hnonneg hle 2).trans_lt hsmall

/-- At 45 degrees the root is taken of a negative number. -/
theorem not_definedAt_45 :
    Lawful realLibm (ratlat (45 : ℝ)) ∧ ¬ DefinedAt realLibm (45 : ℝ) := by
  refine ⟨realLibm_lawful (by norm_num), fun h => ?_⟩
  have hsq := magic_pos_iff.mp h.positive
  have hangle : ratlat (45 : ℝ) = 3.14159265358979323846 / 4 := by
    rw [ratlat, mPi]
    norm_num
  have hsin : 0.7 < Real.sin (ratlat 45) := by
    have hcube := sin_gt_sub_cube (x := ratlat 45) (by rw [hangle]; norm_num)
    rw [hangle] at hcube ⊢
    norm_num at hcube ⊢
    linarith
  have hlarge : (1 : ℝ) / mE < 0.7 ^ 2 := by
    rw [mE]
    norm_num
  have hmono : (0.7 : ℝ) ^ 2 < Real.sin (ratlat 45) ^ 2 := by
    exact pow_lt_pow_left₀ hsin (by norm_num) two_ne_zero
  exact absurd hsq (not_lt.mpr (hlarge.trans hmono).le)

/-- In degrees, the latitudes with a value are those below the arc sine of `1 / √M_E`. -/
theorem definedAt_real_iff {lat : ℝ} (h : -90 < lat ∧ lat < 90) :
    DefinedAt realLibm lat ↔ |lat| < arcsin (√(1 / mE)) * 180 / mPi := by
  have hmem := ratlat_mem h
  have hPi : (0 : ℝ) < mPi := mPi_pos
  have habs : |ratlat lat| ≤ π := by
    rw [abs_le]
    constructor <;> linarith [pi_pos]
  have hquarter : |ratlat lat| ∈ Set.Ico (-(π / 2)) (π / 2) := by
    refine ⟨by linarith [abs_nonneg (ratlat lat), pi_pos], abs_lt.mpr hmem⟩
  have hratlat : |ratlat lat| = |lat| * mPi / 180 := by
    rw [ratlat, abs_mul, abs_div, abs_of_pos hPi, abs_of_pos (by norm_num : (0 : ℝ) < 180)]
    ring
  rw [definedAt_iff_magic (realLibm_lawful h), magic_pos_iff]
  change Real.sin (ratlat lat) ^ 2 < 1 / mE ↔ _
  rw [← sq_abs, ← Real.lt_sqrt (abs_nonneg _), abs_sin_eq_sin_abs_of_abs_le_pi habs,
    ← lt_arcsin_iff_sin_lt' hquarter, hratlat, div_lt_iff₀ (by norm_num), lt_div_iff₀ hPi]

end Real

end Coordinate
