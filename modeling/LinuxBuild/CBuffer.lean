import LinuxBuild.CString

/-!
# Writes into buffers of a fixed size

A write that leaves the buffer is a fault, and so is reading a string from a buffer
that has no terminator.
-/
namespace CBuffer
open CString

variable {n : Nat} {f g : Field n} {s v : CStr}

/-- `memcpy(f, v, len)` -/
def memcpy (f : Field n) (v : List UInt8) : Option (Field n) :=
  if h : v.length ≤ n then some (f.overwrite v h) else none

/-- `f[i] = '\0'` -/
def setNul (f : Field n) (i : Nat) : Option (Field n) :=
  if i < n then some ⟨f.bytes.set i 0, by rw [List.length_set, f.size]⟩ else none

/-- The string that `%s`, `strlen` and `strcat` find in the buffer. -/
def string (f : Field n) : Option CStr := if f.text.length < n then some f.text else none

/-- `sprintf` with a result that is known -/
def sprintf (f : Field n) (v : CStr) : Option (Field n) := memcpy f (v ++ [0])

/-- `strcat(f, v)` -/
def strcat (f : Field n) (v : CStr) : Option (Field n) := do
  let s ← string f
  memcpy f (s ++ v ++ [0])

theorem string_eq_some_iff : string f = some s ↔ f.text = s ∧ s.length < n := by
  simp only [string]
  split_ifs with h
  · constructor
    · intro hs
      cases hs
      exact ⟨rfl, h⟩
    · rintro ⟨rfl, -⟩
      rfl
  · refine iff_of_false (fun hs => nomatch hs) ?_
    rintro ⟨rfl, hlt⟩
    exact h hlt

theorem length_lt_of_string (h : string f = some s) : s.length < n :=
  (string_eq_some_iff.mp h).2

theorem nul_notMem_of_string (h : string f = some s) : 0 ∉ s := by
  rw [← (string_eq_some_iff.mp h).1]
  exact nul_notMem_cstringAt _

/-- The buffer holds the string and its terminator. -/
structure Carries (f : Field n) (v : CStr) : Prop where
  clean : 0 ∉ v
  bytes : ∃ rest, f.bytes = v ++ 0 :: rest

theorem Carries.length_lt (h : Carries f v) : v.length < n := by
  obtain ⟨rest, hbytes⟩ := h.bytes
  have hsize := f.size
  rw [hbytes, List.length_append, List.length_cons] at hsize
  omega

theorem Carries.string (h : Carries f v) : string f = some v := by
  obtain ⟨rest, hbytes⟩ := h.bytes
  refine string_eq_some_iff.mpr ⟨?_, h.length_lt⟩
  rw [Field.text, hbytes]
  exact cstringAt_append_nul h.clean rest

theorem Carries.getElem?_end (h : Carries f v) : f.bytes[v.length]? = some 0 := by
  obtain ⟨rest, hbytes⟩ := h.bytes
  simp [hbytes]

theorem Carries.getElem?_of_lt {p : Nat} (h : Carries f v) (hp : p < v.length) :
    f.bytes[p]? = v[p]? := by
  obtain ⟨rest, hbytes⟩ := h.bytes
  rw [hbytes, List.getElem?_append_left hp]

/-- A text that is written with its terminator can be read back. -/
theorem sprintf_carries (hv : 0 ∉ v) (h : v.length < n) :
    ∃ g, sprintf f v = some g ∧ Carries g v := by
  have hle : (v ++ [0]).length ≤ n := by
    simp only [List.length_append, List.length_singleton]
    omega
  refine ⟨f.overwrite (v ++ [0]) hle, dif_pos hle, hv, f.bytes.drop (v ++ [0]).length, ?_⟩
  exact List.append_assoc _ _ _

theorem sprintf_of_lt (hv : 0 ∉ v) (h : v.length < n) :
    ∃ g, sprintf f v = some g ∧ string g = some v := by
  obtain ⟨g, hg, hcarries⟩ := sprintf_carries hv h
  exact ⟨g, hg, hcarries.string⟩

theorem sprintf_of_le (h : n ≤ v.length) : sprintf f v = none := by
  refine dif_neg ?_
  simp only [List.length_append, List.length_singleton]
  omega

theorem strcat_of_lt (hs : string f = some s) (hv : 0 ∉ v) (h : s.length + v.length < n) :
    ∃ g, strcat f v = some g ∧ string g = some (s ++ v) := by
  have hsv : 0 ∉ s ++ v := by simp [hv, nul_notMem_of_string hs]
  obtain ⟨g, hg, hstring⟩ := @sprintf_of_lt n f (s ++ v) hsv (by simpa using h)
  refine ⟨g, ?_, hstring⟩
  rw [strcat, hs]
  exact hg

theorem strcat_of_le (hs : string f = some s) (h : n ≤ s.length + v.length) :
    strcat f v = none := by
  rw [strcat, hs]
  exact sprintf_of_le (by simpa using h)

/-- `while (k--) strcat(f, v)` -/
def strcatTimes (v : CStr) : Nat → Field n → Option (Field n)
  | 0, f => some f
  | k + 1, f => do
    let f ← strcat f v
    strcatTimes v k f

theorem strcatTimes_of_lt {b : UInt8} (hb : b ≠ 0) {k : Nat} (hs : string f = some s)
    (h : s.length + k < n) :
    ∃ g, strcatTimes [b] k f = some g ∧ string g = some (s ++ List.replicate k b) := by
  induction k generalizing f s with
  | zero => exact ⟨f, rfl, by simpa using hs⟩
  | succ k ih =>
    have hv : (0 : UInt8) ∉ [b] := by simpa using hb.symm
    obtain ⟨g, hg, hstring⟩ := @strcat_of_lt n f s [b] hs hv (by simp; omega)
    obtain ⟨g', hg', hstring'⟩ := ih hstring (by simp; omega)
    refine ⟨g', ?_, ?_⟩
    · rw [strcatTimes, hg]
      exact hg'
    · rw [hstring', List.append_assoc]
      rfl

theorem strcatTimes_of_le {b : UInt8} (hb : b ≠ 0) {k : Nat} (hs : string f = some s)
    (h : n ≤ s.length + k) : strcatTimes [b] k f = none := by
  induction k generalizing f s with
  | zero => exact absurd (length_lt_of_string hs) (by omega)
  | succ k ih =>
    by_cases hfull : n ≤ s.length + 1
    · rw [strcatTimes, strcat_of_le hs (by simpa using hfull)]
      rfl
    · have hv : (0 : UInt8) ∉ [b] := by simpa using hb.symm
      obtain ⟨g, hg, hstring⟩ := @strcat_of_lt n f s [b] hs hv (by simp; omega)
      rw [strcatTimes, hg]
      exact ih hstring (by simp; omega)

/-- Nothing can be appended to a buffer that has no terminator. -/
theorem strcatTimes_of_unterminated {k : Nat} (hs : string f = none) :
    strcatTimes v (k + 1) f = none := by
  rw [strcatTimes, strcat, hs]
  rfl

/-- A string copied into a cleared buffer without its terminator. -/
theorem memcpy_zero_of_lt (hv : 0 ∉ v) (h : v.length < n) :
    ∃ g, memcpy (Field.zero n) v = some g ∧ string g = some v := by
  refine ⟨(Field.zero n).overwrite v h.le, dif_pos h.le, string_eq_some_iff.mpr ⟨?_, h⟩⟩
  have hzero : Field.Holds (Field.zero n) [] := ⟨Nat.zero_lt_of_lt h, List.not_mem_nil, rfl⟩
  have hnul := (hzero.getElem?_eq_nul_iff h).mpr (Nat.zero_le _)
  have htext := (Field.cstringAt_overwrite_iff hv h []).mpr hnul
  rwa [List.append_nil] at htext

/-- A string that fills the buffer leaves it without a terminator. -/
theorem memcpy_of_eq (hv : 0 ∉ v) (h : v.length = n) :
    ∃ g, memcpy f v = some g ∧ g.bytes = v ∧ string g = none := by
  have hbytes : (f.overwrite v h.le).bytes = v := by
    simp [Field.overwrite, h, f.size]
  refine ⟨f.overwrite v h.le, dif_pos h.le, hbytes, if_neg ?_⟩
  rw [Field.text, hbytes, cstringAt, List.takeWhile_eq_self_iff.mpr (bytes_ne_nul hv)]
  omega

theorem memcpy_of_lt (h : n < v.length) : memcpy f v = none := dif_neg (by omega)

/-- A terminator cuts off what is behind it. -/
theorem setNul_of_lt {i : Nat} (hi : i < n) (hv : 0 ∉ f.bytes.take i) :
    ∃ g, setNul f i = some g ∧ string g = some (f.bytes.take i) := by
  refine ⟨_, if_pos hi, string_eq_some_iff.mpr ⟨?_, ?_⟩⟩
  · have hlt : i < f.bytes.length := f.size.symm ▸ hi
    change cstringAt (f.bytes.set i 0) = f.bytes.take i
    rw [List.set_eq_take_append_cons_drop, if_pos hlt]
    exact cstringAt_append_nul hv _
  · rw [List.length_take, f.size]
    omega

/-- `f[j] = c` -/
def putByte (f : Field n) (j : Nat) (c : UInt8) : Option (Field n) :=
  if j < n then some ⟨f.bytes.set j c, by rw [List.length_set, f.size]⟩ else none

/-- The bytes one after the other, from `f[j]` on -/
def putBytes (f : Field n) (j : Nat) : List UInt8 → Option (Field n)
  | [] => some f
  | c :: bytes => do
    let f ← putByte f j c
    putBytes f (j + 1) bytes

theorem putBytes_append (f : Field n) (j : Nat) (bytes more : List UInt8) :
    putBytes f j (bytes ++ more) =
      (putBytes f j bytes).bind fun g => putBytes g (j + bytes.length) more := by
  induction bytes generalizing f j with
  | nil => rfl
  | cons c bytes ih =>
    rw [List.cons_append, putBytes, putBytes, List.length_cons]
    cases putByte f j c with
    | none => rfl
    | some g =>
      simp only [Option.bind_eq_bind, Option.bind_some, ih, Nat.add_assoc, Nat.add_comm 1]

/-- The last byte or one before it leaves the buffer. -/
theorem putBytes_of_lt {j : Nat} {bytes : List UInt8} (hj : j ≤ n) (h : n < j + bytes.length) :
    putBytes f j bytes = none := by
  induction bytes generalizing f j with
  | nil =>
    rw [List.length_nil] at h
    omega
  | cons c bytes ih =>
    rw [List.length_cons] at h
    rw [putBytes, putByte]
    split_ifs with hlt
    · exact ih hlt (by omega)
    · rfl

/-- What is in front of the bytes and behind them stays. -/
theorem putBytes_of_le {j : Nat} {bytes : List UInt8} (h : j + bytes.length ≤ n) :
    ∃ g, putBytes f j bytes = some g ∧
      g.bytes = f.bytes.take j ++ bytes ++ f.bytes.drop (j + bytes.length) := by
  induction bytes generalizing f j with
  | nil => exact ⟨f, rfl, by simp⟩
  | cons c bytes ih =>
    rw [List.length_cons] at h
    have hlt : j < f.bytes.length := by
      rw [f.size]
      omega
    obtain ⟨g, hg, hbytes⟩ := @ih ⟨f.bytes.set j c, by rw [List.length_set, f.size]⟩ (j + 1)
      (by omega)
    refine ⟨g, ?_, ?_⟩
    · rw [putBytes, putByte, if_pos (by omega)]
      exact hg
    · have htake : (f.bytes.set j c).take (j + 1) = f.bytes.take j ++ [c] := by
        have hlen : (f.bytes.take j ++ [c]).length = j + 1 := by
          rw [List.length_append, List.length_take, Nat.min_eq_left hlt.le, List.length_singleton]
        rw [List.set_eq_take_append_cons_drop, if_pos hlt, List.append_cons]
        exact List.take_left' hlen
      have hdrop : (f.bytes.set j c).drop (j + 1 + bytes.length) =
          f.bytes.drop (j + (c :: bytes).length) := by
        rw [List.drop_set_of_lt (by omega), List.length_cons]
        congr 1
        omega
      rw [hbytes, htake, hdrop, List.append_assoc, List.append_assoc, List.append_assoc]
      rfl

/-- The `len` bytes from `f[j]` on -/
def getBytes (f : Field n) (j len : Nat) : Option CStr :=
  if j + len ≤ n then some ((f.bytes.drop j).take len) else none

/-- The buffer begins with the bytes `v`. -/
def Starts (f : Field n) (v : CStr) : Prop := v <+: f.bytes

theorem Starts.append {more : CStr} (h : Starts f (v ++ more)) : Starts f v :=
  (List.prefix_append v more).trans h

/-- Bytes put behind the first ones -/
theorem Starts.putBytes {bytes : CStr} (h : Starts f v) (hle : v.length + bytes.length ≤ n) :
    ∃ g, putBytes f v.length bytes = some g ∧ Starts g (v ++ bytes) := by
  obtain ⟨g, hg, hbytes⟩ := @putBytes_of_le n f v.length bytes hle
  refine ⟨g, hg, ?_⟩
  rw [Starts, hbytes, ← List.prefix_iff_eq_take.mp h]
  exact List.prefix_append _ _

theorem Starts.getBytes {bytes : CStr} (h : Starts f (v ++ bytes)) :
    getBytes f v.length bytes.length = some bytes := by
  obtain ⟨rest, hbytes⟩ := h
  have hsize := f.size
  rw [← hbytes, List.length_append, List.length_append] at hsize
  rw [CBuffer.getBytes, if_pos (by omega), ← hbytes, List.append_assoc, List.drop_left,
    List.take_left]

/-- `snprintf(f, sizeof(f), "%s", v)` -/
def snprintf (f : Field n) (v : CStr) : Option (Field n) := sprintf f (v.take (n - 1))

/-- The string is ended early and put together again. -/
theorem Carries.cut (h : Carries f v) {front behind : CStr} {c : UInt8}
    (hv : v = front ++ c :: behind) :
    ∃ g, setNul f front.length = some g ∧ Carries g front ∧
      putByte g front.length c = some f := by
  subst hv
  obtain ⟨rest, hbytes⟩ := h.bytes
  have hlt : front.length < n := by
    have hall := h.length_lt
    rw [List.length_append, List.length_cons] at hall
    omega
  have hclean := h.clean
  simp only [List.mem_append, not_or] at hclean
  have hset : ∀ d e, (front ++ d :: (behind ++ 0 :: rest)).set front.length e =
      front ++ e :: (behind ++ 0 :: rest) := by
    intro d e
    rw [List.set_append_right _ _ le_rfl, Nat.sub_self, List.set_cons_zero]
  rw [List.append_assoc, List.cons_append] at hbytes
  refine ⟨_, if_pos hlt, ⟨hclean.1, behind ++ 0 :: rest, ?_⟩, ?_⟩
  · change f.bytes.set front.length 0 = _
    rw [hbytes, hset]
  · rw [putByte, if_pos hlt]
    congr 1
    cases f
    simp only [Field.mk.injEq] at hbytes ⊢
    rw [hbytes, hset, hset]

theorem snprintf_of_lt (hv : 0 ∉ v) (h : v.length < n) :
    ∃ g, snprintf f v = some g ∧ Carries g v := by
  rw [snprintf, List.take_of_length_le (by omega)]
  exact sprintf_carries hv h

theorem getElem?_of_setNul {i j : Nat} (h : setNul f i = some g) (hne : i ≠ j) :
    g.bytes[j]? = f.bytes[j]? := by
  rw [setNul] at h
  split at h
  · cases h
    exact List.getElem?_set_ne hne
  · cases h

end CBuffer
