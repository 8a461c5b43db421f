import LinuxBuild.AtUrc

/-!
# A coordinate with a given number of decimals

The conversion is meant to cut or fill up the fraction of a numeral. It counts the
decimals from the point without asking whether there is one, and returns at once when
there are eight of them.
-/
namespace AtDecimal
open CString AtConfig CBuffer AtUrc

/-- A decimal numeral: an optional sign, at least one digit, and a fraction if there is
a point. -/
structure Numeral where
  sign : CStr
  whole : CStr
  fraction : Option CStr
  sign_cases : sign = [] ∨ sign = cstr "+" ∨ sign = cstr "-"
  whole_ne_nil : whole ≠ []
  whole_digits : ∀ c ∈ whole, isDigit c
  fraction_digits : ∀ f, fraction = some f → ∀ c ∈ f, isDigit c

namespace Numeral

/-- The part in front of the point. -/
def integerPart (x : Numeral) : CStr := x.sign ++ x.whole

def text (x : Numeral) : CStr :=
  match x.fraction with
  | none => x.integerPart
  | some f => x.integerPart ++ 46 :: f

/-- The first `k` digits of a fraction, filled up with zeros. -/
def digits (k : Nat) (f : CStr) : CStr := f.take k ++ List.replicate (k - f.length) 48

/-- The numeral with exactly `k` decimals. -/
def assigned (x : Numeral) (k : Nat) : CStr :=
  x.integerPart ++ 46 :: digits k (x.fraction.getD [])

/-- What the conversion leaves in its buffer. -/
def produced (x : Numeral) (k : Nat) : CStr :=
  match x.fraction with
  | none => if k = 8 then x.text else x.text ++ List.replicate (k + 1) 48
  | some f => if f.length = 8 then x.text else x.assigned k

end Numeral

open Numeral

theorem length_digits (k : Nat) (f : CStr) : (digits k f).length = k := by
  simp only [digits, List.length_append, List.length_take, List.length_replicate]
  omega

theorem digits_of_le {k : Nat} {f : CStr} (h : k ≤ f.length) : digits k f = f.take k := by
  rw [digits, Nat.sub_eq_zero_of_le h]
  exact List.append_nil _

theorem digits_of_ge {k : Nat} {f : CStr} (h : f.length ≤ k) :
    digits k f = f ++ List.replicate (k - f.length) 48 := by
  rw [digits, List.take_of_length_le h]

theorem isDigit_ne {c : UInt8} (h : isDigit c = true) : c ≠ 0 ∧ c ≠ 46 := by
  constructor <;> rintro rfl <;> exact absurd h (by decide)

theorem integerPart_ne {x : Numeral} {c : UInt8} (h : c ∈ x.integerPart) : c ≠ 0 ∧ c ≠ 46 := by
  rcases List.mem_append.mp h with hsign | hwhole
  · rcases x.sign_cases with hx | hx | hx <;> rw [hx] at hsign
    · cases hsign
    · rw [List.mem_singleton.mp hsign]
      decide
    · rw [List.mem_singleton.mp hsign]
      decide
  · exact isDigit_ne (x.whole_digits c hwhole)

theorem nul_notMem_text (x : Numeral) : 0 ∉ x.text := by
  have hint : 0 ∉ x.integerPart := fun h => (integerPart_ne h).1 rfl
  cases hf : x.fraction with
  | none => simpa only [text, hf] using hint
  | some f =>
    have hfrac : 0 ∉ f := fun h => (isDigit_ne (x.fraction_digits f hf 0 h)).1 rfl
    simp [text, hf, hint, hfrac]

theorem point_notMem_text {x : Numeral} (h : x.fraction = none) : 46 ∉ x.text := by
  simp only [text, h]
  exact fun hmem => (integerPart_ne hmem).2 rfl

theorem pointIndex_of_notMem {s : CStr} (h : 46 ∉ s) : pointIndex s = s.length := by
  rw [pointIndex, List.takeWhile_eq_self_iff.mpr]
  intro c hc
  simpa using ne_of_mem_of_not_mem hc h

theorem pointIndex_append_point {s : CStr} (h : 46 ∉ s) (f : CStr) :
    pointIndex (s ++ 46 :: f) = s.length := by
  have hs : ∀ c ∈ s, decide (c ≠ 46) = true := by
    intro c hc
    simpa using ne_of_mem_of_not_mem hc h
  rw [pointIndex, List.takeWhile_append_of_pos hs]
  simp

theorem point_notMem_integerPart (x : Numeral) : 46 ∉ x.integerPart :=
  fun h => (integerPart_ne h).2 rfl

theorem decimalLen_none {x : Numeral} (h : x.fraction = none) : decimalLen x.text = -1 := by
  rw [decimalLen, pointIndex_of_notMem (point_notMem_text h)]
  omega

theorem decimalLen_some {x : Numeral} {f : CStr} (h : x.fraction = some f) :
    decimalLen x.text = f.length := by
  simp only [text, h, decimalLen, pointIndex_append_point (point_notMem_integerPart x),
    List.length_append, List.length_cons]
  omega

section Buffer
variable {n : Nat} {count : Int32}

/-- Without more decimals than asked for, the copied text is kept or filled up. -/
theorem assign_short {src : CStr} (hsrc : 0 ∉ src) (hcount : InRange count)
    (hlen : src.length < n) (hne : decimalLen src ≠ 8) (hshort : decimalLen src ≤ count.toInt)
    (hpatch : count.toInt - decimalLen src ≤ 8)
    (hroom : src.length + (count.toInt - decimalLen src).toNat < n) :
    ∃ out, stringAssignDecimal (some src) (Field.zero n) count = some out ∧
      string out = some (src ++ List.replicate (count.toInt - decimalLen src).toNat 48) := by
  obtain ⟨g, hg, hstring⟩ := memcpy_zero_of_lt hsrc hlen
  have hzero : (48 : UInt8) ≠ 0 := by decide
  obtain ⟨g', hg', hstring'⟩ := strcatTimes_of_lt hzero hstring hroom
  refine ⟨g', ?_, hstring'⟩
  simp only [stringAssignDecimal, if_neg hcount.not_gt, hg, if_neg hne, if_neg hshort.not_gt,
    if_neg hpatch.not_gt, Option.bind_eq_bind, Option.bind_some]
  exact hg'

/-- A text that is returned as it was copied. -/
theorem assign_kept {src : CStr} (hsrc : 0 ∉ src) (hcount : InRange count)
    (hlen : src.length < n) (h : decimalLen src = 8 ∨ 8 < count.toInt - decimalLen src) :
    ∃ out, stringAssignDecimal (some src) (Field.zero n) count = some out ∧
      string out = some src := by
  obtain ⟨g, hg, hstring⟩ := memcpy_zero_of_lt hsrc hlen
  refine ⟨g, ?_, hstring⟩
  have hrange := hcount.toInt
  simp only [stringAssignDecimal, if_neg hcount.not_gt, hg, Option.bind_eq_bind,
    Option.bind_some]
  rcases h with h | h
  · rw [if_pos h]
  · rw [if_neg (by omega), if_neg (by omega), if_pos h]

/-- With decimals to spare the text is cut behind the ones asked for. -/
theorem assign_cut {s f : CStr} (hs : 0 ∉ s ++ 46 :: f) (hpoint : 46 ∉ s)
    (hcount : InRange count) (hlen : (s ++ 46 :: f).length < n) (hne : f.length ≠ 8)
    (hlong : count.toInt < f.length) :
    ∃ out, stringAssignDecimal (some (s ++ 46 :: f)) (Field.zero n) count = some out ∧
      string out = some (s ++ 46 :: f.take count.toInt.toNat) := by
  have hrange := hcount.toInt
  have hindex := pointIndex_append_point hpoint f
  have hlength : (s ++ 46 :: f).length = s.length + f.length + 1 := by
    simp only [List.length_append, List.length_cons]
    omega
  have hdecimal : decimalLen (s ++ 46 :: f) = f.length := by
    rw [decimalLen, hindex, hlength]
    omega
  have hcut : (pointIndex (s ++ 46 :: f) + count.toInt + 1).toNat =
      s.length + (count.toInt.toNat + 1) := by omega
  have hcopy : memcpy (Field.zero n) (s ++ 46 :: f) =
      some ((Field.zero n).overwrite (s ++ 46 :: f) hlen.le) := dif_pos hlen.le
  have htake : ((Field.zero n).overwrite (s ++ 46 :: f) hlen.le).bytes.take
      (s.length + (count.toInt.toNat + 1)) = s ++ 46 :: f.take count.toInt.toNat := by
    change (s ++ 46 :: f ++ _).take _ = _
    rw [List.take_append_of_le_length (by omega), List.take_length_add_append,
      List.take_succ_cons]
  have hnul : 0 ∉ s ++ 46 :: f.take count.toInt.toNat := by
    intro h
    refine hs ?_
    simp only [List.mem_append, List.mem_cons] at h ⊢
    exact h.imp_right (Or.imp_right List.mem_of_mem_take)
  obtain ⟨out, hout, hstring⟩ := setNul_of_lt (f := (Field.zero n).overwrite _ hlen.le)
    (i := s.length + (count.toInt.toNat + 1)) (by omega) (htake ▸ hnul)
  refine ⟨out, ?_, htake ▸ hstring⟩
  simp only [stringAssignDecimal, if_neg hcount.not_gt, hcopy, hdecimal, Option.bind_eq_bind,
    Option.bind_some]
  rw [if_neg (by omega), if_pos hlong, if_pos (by omega), hcut]
  exact hout

/-- The buffer holds `produced` in the end. -/
theorem assign_produced (x : Numeral) (hcount : InRange count) (htext : x.text.length < n)
    (hroom : (x.assigned count.toInt.toNat).length < n) :
    ∃ out, stringAssignDecimal (some x.text) (Field.zero n) count = some out ∧
      string out = some (x.produced count.toInt.toNat) := by
  have hrange := hcount.toInt
  have hlength : (x.assigned count.toInt.toNat).length =
      x.integerPart.length + count.toInt.toNat + 1 := by
    simp only [assigned, List.length_append, List.length_cons, length_digits]
    omega
  cases hf : x.fraction with
  | none =>
    have hdecimal := decimalLen_none hf
    have hplain : x.text = x.integerPart := by simp only [text, hf]
    simp only [produced, hf]
    split_ifs with height
    · exact assign_kept (nul_notMem_text x) hcount htext (Or.inr (by omega))
    · have hpatch : (count.toInt - decimalLen x.text).toNat = count.toInt.toNat + 1 := by omega
      rw [← hpatch]
      exact assign_short (nul_notMem_text x) hcount htext (by omega) (by omega) (by omega)
        (by rw [hplain] at *; omega)
  | some f =>
    have hdecimal := decimalLen_some hf
    have hplain : x.text = x.integerPart ++ 46 :: f := by simp only [text, hf]
    have hlen : x.text.length = x.integerPart.length + f.length + 1 := by
      simp only [hplain, List.length_append, List.length_cons]
      omega
    simp only [produced, hf]
    split_ifs with height
    · exact assign_kept (nul_notMem_text x) hcount htext (Or.inl (by omega))
    · rcases Nat.lt_or_ge count.toInt.toNat f.length with hlong | hshort
      · have hassigned : x.assigned count.toInt.toNat =
            x.integerPart ++ 46 :: f.take count.toInt.toNat := by
          rw [assigned, hf, Option.getD_some, digits_of_le hlong.le]
        rw [hassigned, hplain]
        exact assign_cut (hplain ▸ nul_notMem_text x) (point_notMem_integerPart x) hcount
          (hplain ▸ htext) height (by omega)
      · have hpatch : (count.toInt - decimalLen x.text).toNat = count.toInt.toNat - f.length := by
          omega
        have hassigned : x.assigned count.toInt.toNat =
            x.text ++ List.replicate (count.toInt - decimalLen x.text).toNat 48 := by
          rw [assigned, hf, Option.getD_some, digits_of_ge hshort, hpatch, hplain,
            List.append_assoc]
          rfl
        rw [hassigned]
        exact assign_short (nul_notMem_text x) hcount htext (by omega) (by omega) (by omega)
          (by omega)

end Buffer

/-- What is produced is what is asked for unless the point is missing or eight decimals
are to be cut. -/
theorem produced_eq_assigned_iff (x : Numeral) {k : Nat} :
    x.produced k = x.assigned k ↔ ∃ f, x.fraction = some f ∧ (f.length = 8 → k = 8) := by
  cases hf : x.fraction with
  | none =>
    refine iff_of_false ?_ (by rintro ⟨f, h, -⟩; cases h)
    intro h
    have hpoint : 46 ∈ x.assigned k := by simp [assigned]
    rw [← h] at hpoint
    simp only [produced, hf] at hpoint
    split_ifs at hpoint
    · exact point_notMem_text hf hpoint
    · rcases List.mem_append.mp hpoint with h | h
      · exact point_notMem_text hf h
      · exact absurd (List.eq_of_mem_replicate h) (by decide)
  | some f =>
    have hplain : x.text = x.integerPart ++ 46 :: f := by simp only [text, hf]
    simp only [produced, hf, Option.some.injEq, exists_eq_left']
    split_ifs with height
    · rw [hplain, assigned, hf, Option.getD_some, List.append_cancel_left_eq, List.cons.injEq]
      constructor
      · rintro ⟨-, h⟩ -
        have hlen := congrArg List.length h
        rw [length_digits] at hlen
        omega
      · intro h
        refine ⟨rfl, ?_⟩
        rw [h height, ← height, digits_of_le le_rfl, List.take_length]
    · exact iff_of_true rfl fun h => absurd h height

/-- A numeral gets exactly the decimals asked for when it has a point, and not eight
decimals of which fewer are wanted. -/
theorem stringAssignDecimal_assigned_iff (x : Numeral) {n : Nat} {count : Int32}
    (hcount : InRange count) (htext : x.text.length < n)
    (hroom : (x.assigned count.toInt.toNat).length < n) :
    (∃ out, stringAssignDecimal (some x.text) (Field.zero n) count = some out ∧
      string out = some (x.assigned count.toInt.toNat)) ↔
      ∃ f, x.fraction = some f ∧ (f.length = 8 → count = 8) := by
  obtain ⟨out, hout, hstring⟩ := assign_produced x hcount htext hroom
  have hproduced : (∃ out, stringAssignDecimal (some x.text) (Field.zero n) count = some out ∧
      string out = some (x.assigned count.toInt.toNat)) ↔
      x.produced count.toInt.toNat = x.assigned count.toInt.toNat := by
    constructor
    · rintro ⟨out', hout', hstring'⟩
      rw [hout] at hout'
      cases hout'
      exact Option.some.inj (hstring.symm.trans hstring')
    · intro h
      exact ⟨out, hout, h ▸ hstring⟩
  have height : count.toInt.toNat = 8 ↔ count = 8 := by
    have hrange := hcount.toInt
    rw [← Int32.toInt_inj]
    have : (8 : Int32).toInt = 8 := rfl
    omega
  rw [hproduced, produced_eq_assigned_iff]
  simp only [height]

/-- 104 with the fraction `f`. -/
def longitude (f : Option CStr) (hf : ∀ g, f = some g → ∀ c ∈ g, isDigit c) : Numeral where
  sign := []
  whole := cstr "104"
  fraction := f
  sign_cases := Or.inl rfl
  whole_ne_nil := by decide
  whole_digits := List.all_eq_true.mp (by decide)
  fraction_digits := hf

def wholeLongitude : Numeral := longitude none fun _ h => by cases h

def eightDecimals : Numeral :=
  longitude (some (cstr "06012345")) fun _ h => by
    cases h
    exact List.all_eq_true.mp (by decide)

def fourDecimals : Numeral :=
  longitude (some (cstr "0601")) fun _ h => by
    cases h
    exact List.all_eq_true.mp (by decide)

theorem five_inRange : InRange 5 := ⟨by decide, by decide⟩

/-- Four decimals are filled up to five. -/
theorem assigned_fourDecimals :
    fourDecimals.assigned 5 = cstr "104.06010" ∧
      ∃ out, stringAssignDecimal (some fourDecimals.text) (Field.zero 16) 5 = some out ∧
        string out = some (fourDecimals.assigned 5) :=
  ⟨by decide, (stringAssignDecimal_assigned_iff fourDecimals five_inRange (by decide)
    (by decide)).mpr ⟨cstr "0601", rfl, by decide⟩⟩

/-- Without a point six zeros are put behind the integer part, and eight decimals stay
when five are asked for. -/
theorem assigned_fails :
    (stringAssignDecimal (some wholeLongitude.text) (Field.zero 16) 5).bind string =
        some (cstr "104000000") ∧
      wholeLongitude.assigned 5 = cstr "104.00000" ∧
      (stringAssignDecimal (some eightDecimals.text) (Field.zero 16) 5).bind string =
        some (cstr "104.06012345") ∧
      eightDecimals.assigned 5 = cstr "104.06012" := by
  decide

end AtDecimal
