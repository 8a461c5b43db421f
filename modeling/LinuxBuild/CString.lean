import Mathlib.Data.List.Basic
import Mathlib.Data.List.TakeWhile
import Mathlib.Data.UInt

/-!
# C strings, fixed-size fields and numerals

A C string is the list of the bytes in front of its terminator. Objects are
shorter than 2^31 bytes, so the `int` lengths of the source are exact, except where a
conversion is written out.
-/
namespace CString

abbrev CStr := List UInt8

/-- The bytes of a literal of the source; every literal modelled here is ASCII. -/
def cstr (s : String) : CStr := s.toList.map Char.toUInt8

/-- What the string functions see at the start of a piece of memory. -/
def cstringAt (mem : List UInt8) : CStr := mem.takeWhile (· ≠ 0)

theorem bytes_ne_nul {v : CStr} (hv : 0 ∉ v) : ∀ b ∈ v, decide (b ≠ 0) = true := by
  intro b hb
  have : b ≠ 0 := fun h => hv (h ▸ hb)
  simpa using this

theorem cstringAt_append_nul {v : CStr} (hv : 0 ∉ v) (rest : List UInt8) :
    cstringAt (v ++ 0 :: rest) = v := by
  rw [cstringAt, List.takeWhile_append_of_pos (bytes_ne_nul hv)]
  simp

/-- An array member `uint8_t f[n]` of a record. -/
structure Field (n : Nat) where
  bytes : List UInt8
  size : bytes.length = n
  deriving DecidableEq

def Field.zero (n : Nat) : Field n := ⟨List.replicate n 0, List.length_replicate⟩

/-- `memset(f, 0, n); memcpy(f, v, strlen(v))` -/
def Field.store {n : Nat} (v : CStr) (h : v.length ≤ n) : Field n where
  bytes := v ++ List.replicate (n - v.length) 0
  size := by
    rw [List.length_append, List.length_replicate]
    omega

/-- `strncpy(f, v, strlen(v))`: the terminator is not copied. -/
def Field.overwrite {n : Nat} (f : Field n) (v : CStr) (h : v.length ≤ n) : Field n where
  bytes := v ++ f.bytes.drop v.length
  size := by
    rw [List.length_append, List.length_drop, f.size]
    omega

/-- The text of the field read inside its own bounds. -/
def Field.text {n : Nat} (f : Field n) : CStr := cstringAt f.bytes

theorem Field.text_length_le {n : Nat} (f : Field n) : f.text.length ≤ n := by
  have hle : f.text.length ≤ f.bytes.length := (List.takeWhile_prefix _).length_le
  exact hle.trans_eq f.size

theorem Field.text_store {n : Nat} {v : CStr} (hv : 0 ∉ v) (h : v.length ≤ n) :
    (Field.store v h).text = v := by
  simp only [Field.text, Field.store]
  cases hk : n - v.length with
  | zero => simpa [cstringAt] using List.takeWhile_eq_self_iff.mpr (bytes_ne_nul hv)
  | succ k => exact cstringAt_append_nul hv _

/-- A field without a terminator is read on into the bytes behind it. -/
theorem Field.cstringAt_bytes {n : Nat} (f : Field n) (rest : List UInt8) :
    cstringAt (f.bytes ++ rest) =
      if f.text.length = n then f.text ++ cstringAt rest else f.text := by
  have hsplit := @List.takeWhile_append _ (· ≠ 0) f.bytes rest
  rw [f.size] at hsplit
  have htext : f.text.length = n → f.text = f.bytes := by
    intro h
    exact (List.takeWhile_prefix _).eq_of_length (h.trans f.size.symm)
  by_cases h : f.text.length = n
  · rw [if_pos h, htext h]
    exact hsplit.trans (if_pos h)
  · rw [if_neg h]
    exact hsplit.trans (if_neg h)

theorem cstringAt_eq_nil_iff {mem : List UInt8} (h : mem ≠ []) :
    cstringAt mem = [] ↔ mem.head? = some 0 := by
  cases mem with
  | nil => exact absurd rfl h
  | cons b mem =>
    by_cases hb : b = 0
    · simp [cstringAt, hb]
    · simp [cstringAt, hb]

/-- A string stored in a field and read back over the bytes `rest` behind the
field is the same string exactly when a terminator is left in the field, or is
the first byte behind it. -/
theorem Field.cstringAt_store_iff {n : Nat} {v : CStr} (hv : 0 ∉ v) (h : v.length ≤ n)
    {rest : List UInt8} (hrest : rest ≠ []) :
    cstringAt ((Field.store v h).bytes ++ rest) = v ↔ v.length < n ∨ rest.head? = some 0 := by
  rw [Field.cstringAt_bytes, Field.text_store hv h]
  by_cases hfull : v.length = n
  · rw [if_pos hfull, List.append_right_eq_self, cstringAt_eq_nil_iff hrest]
    exact ⟨Or.inr, fun h => h.resolve_left (by omega)⟩
  · rw [if_neg hfull]
    exact iff_of_true rfl (Or.inl (by omega))

/-- A string copied over a field is read back as it was exactly when a terminator
happens to stand behind it. -/
theorem Field.cstringAt_overwrite_iff {n : Nat} {f : Field n} {v : CStr} (hv : 0 ∉ v)
    (h : v.length < n) (rest : List UInt8) :
    cstringAt ((f.overwrite v h.le).bytes ++ rest) = v ↔ f.bytes[v.length]? = some 0 := by
  have hlt : v.length < f.bytes.length := f.size.symm ▸ h
  have hsplit : cstringAt ((f.overwrite v h.le).bytes ++ rest) =
      v ++ cstringAt (f.bytes.drop v.length ++ rest) := by
    rw [Field.overwrite, List.append_assoc, cstringAt,
      List.takeWhile_append_of_pos (bytes_ne_nul hv)]
    rfl
  rw [hsplit, List.append_right_eq_self, List.drop_eq_getElem_cons hlt, List.cons_append,
    cstringAt_eq_nil_iff (List.cons_ne_nil _ _), List.getElem?_eq_getElem hlt]
  rfl

theorem nul_notMem_cstringAt (mem : List UInt8) : 0 ∉ cstringAt mem := by
  intro hmem
  have h := List.mem_takeWhile_imp hmem
  exact absurd h (by decide)

/-- A field that is cleared behind its string. -/
def Field.Holds {n : Nat} (f : Field n) (v : CStr) : Prop :=
  ∃ h : v.length < n, 0 ∉ v ∧ f = Field.store v h.le

theorem Field.Holds.text {n : Nat} {f : Field n} {v : CStr} (h : f.Holds v) : f.text = v := by
  obtain ⟨hlt, hv, rfl⟩ := h
  exact Field.text_store hv hlt.le

theorem Field.Holds.cstringAt {n : Nat} {f : Field n} {v : CStr} (h : f.Holds v)
    (rest : List UInt8) : CString.cstringAt (f.bytes ++ rest) = v := by
  have hlt : v.length < n := h.1
  rw [Field.cstringAt_bytes, h.text, if_neg (by omega)]

/-- The zero bytes of a cleared field are those behind its string. -/
theorem Field.Holds.getElem?_eq_nul_iff {n i : Nat} {f : Field n} {v : CStr} (h : f.Holds v)
    (hi : i < n) : f.bytes[i]? = some 0 ↔ v.length ≤ i := by
  obtain ⟨hlt, hv, rfl⟩ := h
  simp only [Field.store]
  rcases Nat.lt_or_ge i v.length with hin | hbehind
  · rw [List.getElem?_append_left hin, List.getElem?_eq_getElem hin, Option.some.injEq]
    refine iff_of_false ?_ (by omega)
    intro hzero
    exact hv (hzero ▸ List.getElem_mem hin)
  · rw [List.getElem?_append_right hbehind, List.getElem?_replicate, if_pos (by omega)]
    exact iff_of_true rfl hbehind

/-- The little-endian bytes of an `int`. -/
def intBytes (n : Int32) : List UInt8 :=
  let u := n.toUInt32
  [u.toUInt8, (u >>> 8).toUInt8, (u >>> 16).toUInt8, (u >>> 24).toUInt8]

/-- `cm_lbs_isdigit` -/
def isDigit (c : UInt8) : Bool := 48 ≤ c && c ≤ 57

/-- `tolower` in the C locale. -/
def tolower (c : UInt8) : UInt8 := if 65 ≤ c && c ≤ 90 then c + 32 else c

/-- `isspace` in the C locale. -/
def isSpace (c : UInt8) : Bool := c == 32 || (9 ≤ c && c ≤ 13)

/-- The value of the leading digits, accumulated from the left. -/
def digitsValue (acc : Nat) : CStr → Nat
  | [] => acc
  | c :: s => if isDigit c then digitsValue (acc * 10 + (c.toNat - 48)) s else acc

/-- `strtol(s, NULL, 10)` with a 64-bit `long`: it saturates. -/
def strtol (s : CStr) : Int :=
  match s.dropWhile isSpace with
  | 45 :: t => max (-(digitsValue 0 t : Int)) (-2 ^ 63)
  | 43 :: t => min (digitsValue 0 t : Int) (2 ^ 63 - 1)
  | t => min (digitsValue 0 t : Int) (2 ^ 63 - 1)

/-- `atoi` as in glibc: `(int) strtol(s, NULL, 10)`. -/
def atoi (s : CStr) : Int32 := Int32.ofInt (strtol s)

/-- `sprintf(buf, "%d", n)` -/
def decimal (n : Int32) : CStr := cstr (toString n.toInt)

theorem length_cstr (s : String) : (cstr s).length = s.length := by
  rw [cstr, List.length_map, String.length_toList]

theorem decimal_length (n : Int32) : 0 < (decimal n).length ∧ (decimal n).length ≤ 11 := by
  have hlt := n.toInt_lt
  have hle := n.le_toInt
  rw [decimal, length_cstr, Int.toString_eq_repr, Int.repr_eq_if]
  split_ifs with h
  · have hdigits : n.toInt.toNat.repr.length ≤ 10 := by
      rw [Nat.length_repr_le_iff (by decide)]
      omega
    have hpos := Nat.length_repr_pos (n := n.toInt.toNat)
    omega
  · have hdigits : (-n.toInt).toNat.repr.length ≤ 10 := by
      rw [Nat.length_repr_le_iff (by decide)]
      omega
    rw [String.length_append]
    have hsign : "-".length = 1 := rfl
    omega

end CString
