import LinuxBuild.CJsonParse

/-!
# The parser stays inside its buffers

The first loop of `parse_string` counts pairs of a backslash and the byte behind it, and its
block is as long as the string less these pairs. The second loop takes other steps: a sequence
with four characters that are no digits swallows backslashes, and a backslash may then be paired
with the closing quote. The block is long enough all the same.
-/
namespace CJsonSafety
open CString CJsonParse

/-- How many pairs begin in a text; `inside` when its first byte is the second of a pair -/
def pairs : Bool → List UInt8 → Nat
  | _, [] => 0
  | true, _ :: s => pairs false s
  | false, c :: s => if c = 92 then 1 + pairs true s else pairs false s

/-- Whether the byte behind a text is the second of a pair -/
def inside : Bool → List UInt8 → Bool
  | i, [] => i
  | true, _ :: s => inside false s
  | false, c :: s => inside (c = 92) s

variable {i : Bool} {s t out bytes content : List UInt8} {c : UInt8}

theorem pairs_append (i : Bool) (s t : List UInt8) :
    pairs i (s ++ t) = pairs i s + pairs (inside i s) t := by
  induction s generalizing i with
  | nil => simp [pairs, inside]
  | cons c s ih =>
    cases i with
    | true => simp only [List.cons_append, pairs, inside, ih]
    | false =>
      by_cases hc : c = 92
      · simp only [List.cons_append, pairs, inside, hc, if_true, decide_true, ih, Nat.add_assoc]
      · simp only [List.cons_append, pairs, inside, if_neg hc, decide_eq_false hc, ih]

theorem inside_append (i : Bool) (s t : List UInt8) :
    inside i (s ++ t) = inside (inside i s) t := by
  induction s generalizing i with
  | nil => rfl
  | cons c s ih => cases i <;> simp only [List.cons_append, inside, ih]

/-- No two pairs overlap. -/
theorem two_mul_pairs_le (i : Bool) (s : List UInt8) : 2 * pairs i s ≤ s.length + 1 := by
  have hboth : 2 * pairs false s ≤ s.length + 1 ∧ 2 * pairs true s ≤ s.length := by
    induction s with
    | nil => exact ⟨by simp [pairs], by simp [pairs]⟩
    | cons c s ih =>
      rw [List.length_cons]
      refine ⟨?_, ?_⟩
      · rw [pairs]
        split_ifs <;> omega
      · rw [pairs]
        omega
  cases i with
  | true => omega
  | false => exact hboth.1

theorem stringEnd_spec {length skipped : Nat} (h : stringEnd s = some (length, skipped)) :
    s[length]? = some 34 ∧ skipped = pairs false (s.take length) ∧
      inside false (s.take length) = false := by
  fun_induction stringEnd s generalizing length skipped with
  | case1 => cases h
  | case2 s =>
    cases h
    exact ⟨rfl, rfl, rfl⟩
  | case3 hquote => cases h
  | case4 hquote d s ih =>
    obtain ⟨⟨k, n⟩, hk, heq⟩ := Option.map_eq_some_iff.mp h
    cases heq
    obtain ⟨hend, hn, hout⟩ := ih hk
    refine ⟨hend, ?_, ?_⟩
    · rw [List.take_succ_cons, List.take_succ_cons, pairs, if_pos rfl, pairs, ← hn, Nat.add_comm]
    · rw [List.take_succ_cons, List.take_succ_cons, inside, decide_eq_true rfl, inside, hout]
  | case5 c s hquote hback ih =>
    obtain ⟨⟨k, n⟩, hk, heq⟩ := Option.map_eq_some_iff.mp h
    cases heq
    obtain ⟨hend, hn, hout⟩ := ih hk
    refine ⟨hend, ?_, ?_⟩
    · rw [List.take_succ_cons, pairs, if_neg hback, ← hn]
    · rw [List.take_succ_cons, inside, decide_eq_false hback, hout]

section Codes

theorem hexDigit_lt {d : Nat} (h : hexDigit c = some d) : d < 16 := by
  have hlt := c.toNat_lt
  rw [hexDigit] at h
  simp only [UInt8.le_iff_toNat_le] at h
  have h48 : (48 : UInt8).toNat = 48 := rfl
  have h57 : (57 : UInt8).toNat = 57 := rfl
  have h65 : (65 : UInt8).toNat = 65 := rfl
  have h70 : (70 : UInt8).toNat = 70 := rfl
  have h97 : (97 : UInt8).toNat = 97 := rfl
  have h102 : (102 : UInt8).toNat = 102 := rfl
  split_ifs at h <;> cases h <;> omega

/-- Four digits inside the buffer are read, and are a number of 16 bits. -/
theorem hexLoop_lt {left place h : Nat} (hleft : 0 < left) (hplace : place + left ≤ content.length)
    (hsmall : h + 16 ≤ 16 ^ (5 - left)) (hfour : left ≤ 4) :
    ∃ v, hexLoop content left place h = some v ∧ v < 16 ^ 4 := by
  induction left generalizing place h with
  | zero => omega
  | succ left ih =>
    have hlt : place < content.length := by omega
    rw [hexLoop, List.getElem?_eq_getElem hlt]
    cases hd : hexDigit content[place] with
    | none => exact ⟨0, by simp [hd], by decide⟩
    | some d =>
      have hdigit := hexDigit_lt hd
      cases left with
      | zero =>
        refine ⟨h + d, by simp [hd, hexLoop], ?_⟩
        have hpow : 16 ^ (5 - (0 + 1)) = 16 ^ 4 := rfl
        omega
      | succ left =>
        have hpow : 16 ^ (5 - (left + 1)) = 16 * 16 ^ (5 - (left + 1 + 1)) := by
          rw [← pow_succ']
          congr 1
          omega
        obtain ⟨v, hv, hbound⟩ := @ih (place + 1) ((h + d) * 16) (by omega) (by omega)
          (by omega) (by omega)
        exact ⟨v, by simp [hd, hv], hbound⟩

theorem parseHex4_lt {input : Nat} (h : input + 4 ≤ content.length) :
    ∃ v, parseHex4 content input = some v ∧ v < 65536 :=
  hexLoop_lt (by decide) h (by decide) (by decide)

theorem utf8Tail_length (k codepoint : Nat) (out : List UInt8) :
    (utf8Tail k codepoint out).2.length = k + out.length := by
  induction k generalizing codepoint out with
  | zero => rw [utf8Tail, Nat.zero_add]
  | succ k ih =>
    rw [utf8Tail, ih, List.length_cons]
    omega

/-- A code of 16 bits takes at most three bytes. -/
theorem encodeUtf8_length {codepoint : Nat} (h : encodeUtf8 codepoint = some out) :
    out.length ≤ 4 ∧ (codepoint < 0x10000 → out.length ≤ 3) := by
  rw [encodeUtf8] at h
  split_ifs at h with h1 h2 h3 h4
  · cases h
    simp [utf8Tail_length]
  · cases h
    simp [utf8Tail_length]
  · cases h
    simp [utf8Tail_length]
  · cases h
    simp only [List.length_cons, utf8Tail_length, List.length_nil]
    omega

/-- A sequence of six or twelve characters that ends inside the string. -/
theorem utf16LiteralToUtf8_returns {p inputEnd : Nat} (hend : inputEnd < content.length) :
    ∃ r, utf16LiteralToUtf8 content p inputEnd = some r ∧
      ∀ length bytes, r = some (length, bytes) → p + length ≤ inputEnd ∧
        (length = 6 ∧ bytes.length ≤ 3 ∨ length = 12 ∧ bytes.length ≤ 4) := by
  rw [utf16LiteralToUtf8]
  by_cases hshort : inputEnd - p < 6
  · exact ⟨none, if_pos hshort, by simp⟩
  obtain ⟨code, hcode, hlt⟩ := @parseHex4_lt content (p + 2) (by omega)
  simp only [if_neg hshort, hcode, Option.bind_eq_bind, Option.bind_some]
  split_ifs with hlow hhigh hsecond
  · exact ⟨none, rfl, by simp⟩
  · exact ⟨none, rfl, by simp⟩
  · have hback : p + 6 < content.length := by omega
    have hu : p + 6 + 1 < content.length := by omega
    obtain ⟨code₂, hcode₂, -⟩ := @parseHex4_lt content (p + 6 + 2) (by omega)
    simp only [List.getElem?_eq_getElem hback, List.getElem?_eq_getElem hu, hcode₂,
      Option.bind_some]
    split_ifs with hnone hrange
    · exact ⟨none, rfl, by simp⟩
    · exact ⟨none, rfl, by simp⟩
    · refine ⟨_, rfl, ?_⟩
      intro length bytes heq
      obtain ⟨out, hout, hpair⟩ := Option.map_eq_some_iff.mp heq
      cases hpair
      exact ⟨by omega, Or.inr ⟨rfl, (encodeUtf8_length hout).1⟩⟩
  · refine ⟨_, rfl, ?_⟩
    intro length bytes heq
    obtain ⟨out, hout, hpair⟩ := Option.map_eq_some_iff.mp heq
    cases hpair
    exact ⟨by omega, Or.inl ⟨rfl, (encodeUtf8_length hout).2 hlt⟩⟩

end Codes

/-- What of the string is still to be read at the input pointer -/
def left (content : List UInt8) (p inputEnd : Nat) : List UInt8 :=
  (content.drop p).take (inputEnd - p)

theorem length_left {p inputEnd : Nat} (h : inputEnd < content.length) :
    (left content p inputEnd).length = inputEnd - p := by
  rw [left, List.length_take, List.length_drop]
  omega

theorem left_add (content : List UInt8) (p k inputEnd : Nat) :
    left content (p + k) inputEnd = (left content p inputEnd).drop k := by
  rw [left, left, List.drop_take, List.drop_drop, Nat.sub_add_eq]

/-- The output in front of an input pointer leaves room for the rest of the string, less its
pairs, and the terminator. -/
structure Fits (content : List UInt8) (inputEnd capacity p : Nat) (output : List UInt8)
    (i : Bool) : Prop where
  ends : inside i (left content p inputEnd) = false
  room : output.length + (left content p inputEnd).length + 1 ≤
    capacity + pairs i (left content p inputEnd)

theorem Fits.step {p inputEnd capacity k : Nat} (h : Fits content inputEnd capacity p out i)
    (hk : bytes.length + pairs i ((left content p inputEnd).take k) ≤
      ((left content p inputEnd).take k).length) :
    ∃ output, put capacity out bytes = some output ∧
      Fits content inputEnd capacity (p + k) output
        (inside i ((left content p inputEnd).take k)) := by
  obtain ⟨hends, hroom⟩ := h
  generalize hs : left content p inputEnd = s at hk hends hroom
  rw [← List.take_append_drop k s] at hends hroom
  rw [inside_append] at hends
  rw [pairs_append, List.length_append] at hroom
  have hpairs := two_mul_pairs_le (inside i (s.take k)) (s.drop k)
  have hfit : out.length + bytes.length ≤ capacity := by
    have hle : pairs (inside i (s.take k)) (s.drop k) ≤ (s.drop k).length + 1 := by omega
    omega
  refine ⟨out ++ bytes, if_pos hfit, ?_, ?_⟩
  · rw [left_add, hs, hends]
  · rw [left_add, hs, List.length_append]
    omega

theorem Fits.escape {p inputEnd capacity k : Nat} (h : Fits content inputEnd capacity p out i)
    (hend : inputEnd < content.length)
    (hk : p + k ≤ inputEnd ∧ (k = 6 ∧ bytes.length ≤ 3 ∨ k = 12 ∧ bytes.length ≤ 4)) :
    ∃ output, put capacity out bytes = some output ∧
      Fits content inputEnd capacity (p + k) output
        (inside i ((left content p inputEnd).take k)) := by
  refine h.step ?_
  have hlen : ((left content p inputEnd).take k).length = k := by
    rw [List.length_take, length_left hend]
    omega
  have hpairs := two_mul_pairs_le i ((left content p inputEnd).take k)
  omega

theorem left_cons {p inputEnd : Nat} (hp : p < inputEnd) (hend : inputEnd < content.length)
    (hc : content[p]? = some c) :
    left content p inputEnd = c :: left content (p + 1) inputEnd := by
  have hlt : p < content.length := by omega
  obtain ⟨-, rfl⟩ := List.getElem?_eq_some_iff.mp hc
  have hsub : inputEnd - p = inputEnd - (p + 1) + 1 := by omega
  rw [left, left, hsub, List.drop_eq_getElem_cons hlt, List.take_succ_cons]

/-- A byte that is no backslash -/
theorem Fits.plain {p inputEnd capacity : Nat} (h : Fits content inputEnd capacity p out i)
    (hp : p < inputEnd) (hend : inputEnd < content.length) (hc : content[p]? = some c)
    (hplain : c ≠ 92) :
    ∃ output, put capacity out [c] = some output ∧
      Fits content inputEnd capacity (p + 1) output
        (inside i ((left content p inputEnd).take 1)) := by
  refine h.step ?_
  rw [left_cons hp hend hc]
  cases i <;> simp [pairs, hplain]

/-- A backslash with the byte behind it, which may be the closing quote -/
theorem Fits.short {p inputEnd capacity : Nat} {d : UInt8}
    (h : Fits content inputEnd capacity p out i) (hp : p < inputEnd)
    (hend : inputEnd < content.length) (hc : content[p]? = some 92) :
    ∃ output, put capacity out [d] = some output ∧
      Fits content inputEnd capacity (p + 2) output
        (inside i ((left content p inputEnd).take 2)) := by
  refine h.step ?_
  have hcons := left_cons hp hend hc
  by_cases hlast : p + 1 = inputEnd
  · have hnil : left content (p + 1) inputEnd = [] := by
      rw [left, hlast, Nat.sub_self, List.take_zero]
    have hends := h.ends
    rw [hcons, hnil] at hends ⊢
    cases i with
    | false => exact absurd hends (by decide)
    | true => simp [pairs]
  · have hlt : p + 1 < content.length := by omega
    have hnext := left_cons (by omega) hend (List.getElem?_eq_getElem hlt)
    rw [hcons, hnext]
    cases i with
    | false => simp [pairs]
    | true =>
      simp only [List.take_succ_cons, List.take_zero, pairs, List.length_cons, List.length_nil]
      split_ifs <;> simp

/-- The second loop returns, and what it has put out has room for its terminator. -/
theorem unescape_returns {p inputEnd capacity fuel : Nat}
    (h : Fits content inputEnd capacity p out i) (hend : inputEnd < content.length)
    (hfuel : inputEnd - p < fuel) :
    ∃ r p', unescape content inputEnd capacity fuel p out = some (r, p') ∧
      ∀ output, r = some output → output.length + 1 ≤ capacity := by
  induction fuel generalizing p out i with
  | zero => omega
  | succ fuel ih =>
    rw [unescape]
    by_cases hp : p < inputEnd
    · have hlt : p < content.length := by omega
      have hlt' : p + 1 < content.length := by omega
      obtain ⟨c, hc⟩ : ∃ c, content[p]? = some c := ⟨_, List.getElem?_eq_getElem hlt⟩
      simp only [if_pos hp, hc, Option.bind_eq_bind, Option.bind_some]
      by_cases hback : c = 92
      · subst hback
        rw [if_neg (by simp), escapeAt, List.getElem?_eq_getElem hlt']
        simp only [Option.bind_eq_bind, Option.bind_some]
        by_cases hu : content[p + 1] = 117
        · obtain ⟨r, hr, hbound⟩ := @utf16LiteralToUtf8_returns content p inputEnd hend
          rw [if_pos hu, hr]
          simp only [Option.bind_some]
          cases r with
          | none => exact ⟨none, p, rfl, by simp⟩
          | some sequence =>
            obtain ⟨length, bytes⟩ := sequence
            obtain ⟨output, hput, hfits⟩ := h.escape hend (hbound length bytes rfl)
            simp only [hput, Option.bind_some]
            obtain ⟨hle, hlength⟩ := hbound length bytes rfl
            exact ih hfits (by omega)
        · rw [if_neg hu]
          cases hshort : shortEscape content[p + 1] with
          | none => exact ⟨none, p, rfl, by simp⟩
          | some d =>
            obtain ⟨output, hput, hfits⟩ := @Fits.short _ _ _ p inputEnd capacity d h hp hend hc
            simp only [Option.map_some, Option.bind_some, hput]
            exact ih hfits (by omega)
      · obtain ⟨output, hput, hfits⟩ := h.plain hp hend hc hback
        simp only [if_pos (show c ≠ 92 from hback), hput, Option.bind_some]
        exact ih hfits (by omega)
    · have hnil : left content p inputEnd = [] := by
        have hzero : inputEnd - p = 0 := by omega
        rw [left, hzero, List.take_zero]
      have hroom := h.room
      rw [hnil, List.length_nil, pairs] at hroom
      have hput : put capacity out [0] = some (out ++ [0]) := if_pos (by simpa using hroom)
      simp only [if_neg hp, hput, Option.bind_eq_bind, Option.bind_some]
      refine ⟨some out, p, rfl, ?_⟩
      rintro _ ⟨⟩
      simpa using hroom

variable {D : Type} {env : Env D} {b : ParseBuffer} {fuel : Nat}

theorem ownedItems_append (l m : List (Item D)) :
    ownedItems (l ++ m) = ownedItems l + ownedItems m := by
  induction l with
  | nil => rw [List.nil_append, ownedItems, Nat.zero_add]
  | cons item l ih => rw [List.cons_append, ownedItems, ownedItems, ih, ← Nat.add_assoc]

theorem ownedMembers_append (l m : List (List UInt8 × Item D)) :
    ownedMembers (l ++ m) = ownedMembers l + ownedMembers m := by
  induction l with
  | nil => rw [List.nil_append, ownedMembers, Nat.zero_add]
  | cons member l ih => rw [List.cons_append, ownedMembers, ownedMembers, ih, ← Nat.add_assoc]

theorem nestingItems_append (l m : List (Item D)) :
    nestingItems (l ++ m) = max (nestingItems l) (nestingItems m) := by
  induction l with
  | nil => rw [List.nil_append, nestingItems, Nat.zero_max]
  | cons item l ih => rw [List.cons_append, nestingItems, nestingItems, ih, max_assoc]

theorem nestingMembers_append (l m : List (List UInt8 × Item D)) :
    nestingMembers (l ++ m) = max (nestingMembers l) (nestingMembers m) := by
  induction l with
  | nil => rw [List.nil_append, nestingMembers, Nat.zero_max]
  | cons member l ih => rw [List.cons_append, nestingMembers, nestingMembers, ih, max_assoc]

section Buffer

theorem first_eq : first env b = env.content[b.offset]? := List.head?_drop

theorem offset_lt_of_first {c : UInt8} (h : first env b = some c) :
    b.offset < env.content.length := by
  rw [first_eq] at h
  exact (List.getElem?_eq_some_iff.mp h).1

/-- White space leads to the last byte at most. -/
theorem skip_spec (env : Env D) (b : ParseBuffer) :
    (bufferSkipWhitespace env b).heap = b.heap ∧ (bufferSkipWhitespace env b).depth = b.depth ∧
      b.offset ≤ (bufferSkipWhitespace env b).offset ∧
      (b.offset ≤ env.content.length →
        (bufferSkipWhitespace env b).offset ≤ env.content.length) ∧
      (b.offset < env.content.length →
        (bufferSkipWhitespace env b).offset < env.content.length) := by
  rw [bufferSkipWhitespace]
  by_cases hend : env.content.length ≤ b.offset
  · rw [if_pos hend]
    exact ⟨rfl, rfl, le_rfl, id, id⟩
  · have hle : ((rest env b).takeWhile (· ≤ 32)).length ≤ env.content.length - b.offset := by
      have htake := (List.takeWhile_prefix (· ≤ 32) (l := rest env b)).length_le
      rwa [rest, List.length_drop] at htake
    rw [if_neg hend]
    refine ⟨rfl, rfl, ?_, ?_, ?_⟩ <;> dsimp only <;> split_ifs <;> omega

theorem allocateBlock_cases (env : Env D) (b : ParseBuffer) :
    (∃ b₁ b₂, allocateBlock env b = (some b₁, b₂) ∧ b₁.offset = b.offset ∧ b₁.depth = b.depth ∧
        b₁.heap.live = b.heap.live + 1) ∨
      ∃ b₂, allocateBlock env b = (none, b₂) ∧ b₂.offset = b.offset ∧ b₂.depth = b.depth ∧
        b₂.heap.live = b.heap.live := by
  rw [allocateBlock]
  split_ifs
  · exact Or.inl ⟨_, _, rfl, rfl, rfl, rfl⟩
  · exact Or.inr ⟨_, rfl, rfl, rfl, rfl⟩

theorem release_eq {blocks : Nat} (h : blocks ≤ b.heap.live) :
    ∃ b', release b blocks = some b' ∧ b'.offset = b.offset ∧ b'.depth = b.depth ∧
      b'.heap.live + blocks = b.heap.live := by
  refine ⟨{ b with heap := { b.heap with live := b.heap.live - blocks } }, ?_, rfl, rfl, ?_⟩
  · rw [release, Heap.free, if_pos h]
    rfl
  · exact Nat.sub_add_cancel h

theorem startsWith_length {literal : String} (h : startsWith env b literal = true) :
    b.offset + (cstr literal).length ≤ env.content.length ∨ (cstr literal).length = 0 := by
  have hle := (List.isPrefixOf_iff_prefix.mp h).length_le
  rw [rest, List.length_drop] at hle
  omega

theorem digitsLen_le (s : CStr) : digitsLen s ≤ s.length :=
  (List.takeWhile_prefix _).length_le

theorem signLen_le (s : CStr) : signLen s ≤ s.length := by
  rw [signLen]
  cases s with
  | nil => simp
  | cons c s =>
    split_ifs
    · simp
    · simp

theorem head_length {s : CStr} (h : s.head? = some c) : s.tail.length + 1 = s.length := by
  cases s with
  | nil => cases h
  | cons d s => rfl

theorem mantissaLen_le (s : CStr) : mantissaLen s ≤ s.length := by
  have hsign := signLen_le s
  have hwhole := digitsLen_le (s.drop (signLen s))
  rw [List.length_drop] at hwhole
  rw [mantissaLen]
  split_ifs with hpoint hnone hnone
  · exact Nat.zero_le _
  · have hhead := head_length hpoint
    have hfraction := digitsLen_le (s.drop (signLen s + digitsLen (s.drop (signLen s)))).tail
    rw [List.length_drop] at hhead
    omega
  · exact Nat.zero_le _
  · omega

theorem exponentLen_le (s : CStr) : exponentLen s ≤ s.length := by
  rw [exponentLen]
  split_ifs with hletter
  · have hhead : s.tail.length + 1 = s.length := hletter.elim head_length head_length
    have hsign := signLen_le s.tail
    have hdigits := digitsLen_le (s.tail.drop (signLen s.tail))
    rw [List.length_drop] at hdigits
    dsimp only
    split_ifs <;> omega
  · exact Nat.zero_le _

theorem numeralLen_le (s : CStr) : numeralLen s ≤ s.length := by
  have hmantissa := mantissaLen_le s
  have hexponent := exponentLen_le (s.drop (mantissaLen s))
  rw [List.length_drop] at hexponent
  rw [numeralLen]
  split_ifs <;> omega

end Buffer

/-- What a parse leaves: the blocks of its item, an offset behind the item that is larger than
the number of these blocks, and the depth as it was. -/
structure Returns (env : Env D) (b : ParseBuffer) (r : Option (Item D)) (b' : ParseBuffer) :
    Prop where
  live : b'.heap.live = b.heap.live + r.elim 0 Item.owned
  moves : ∀ item, r = some item →
    b.offset + item.owned < b'.offset ∧ b'.offset ≤ env.content.length
  depth : ∀ item, r = some item → b'.depth = b.depth ∧ b.depth + item.nesting ≤ nestingLimit

theorem Returns.failed {b' : ParseBuffer} (h : b'.heap.live = b.heap.live) :
    Returns env b none b' := ⟨h, by simp, by simp⟩

/-- An item that takes no block and no depth -/
theorem Returns.scalar {item : Item D} {k : Nat} (howned : item.owned = 0)
    (hnesting : item.nesting = 0) (hpos : 0 < k) (hk : b.offset + k ≤ env.content.length)
    (hdepth : b.depth ≤ nestingLimit) : Returns env b (some item) (b.move k) where
  live := by
    change b.heap.live = b.heap.live + item.owned
    rw [howned, Nat.add_zero]
  moves := by
    rintro _ ⟨⟩
    exact ⟨by rw [howned]; exact Nat.lt_add_of_pos_right hpos, hk⟩
  depth := by
    rintro _ ⟨⟩
    exact ⟨rfl, by rwa [hnesting]⟩

theorem literal_returns {literal : String} {item : Item D} {k : Nat}
    (h : startsWith env b literal = true) (hlen : (cstr literal).length = k) (hpos : 0 < k)
    (howned : item.owned = 0) (hnesting : item.nesting = 0) (hdepth : b.depth ≤ nestingLimit) :
    Returns env b (some item) (b.move k) := by
  subst hlen
  exact .scalar howned hnesting hpos
    ((startsWith_length h).resolve_right (Nat.ne_of_gt hpos)) hdepth

theorem parseNumber_returns (hdepth : b.depth ≤ nestingLimit) :
    Returns env b (parseNumber env b).1 (parseNumber env b).2 := by
  rw [parseNumber]
  generalize htext : ((rest env b).take 63).takeWhile isNumberChar = text
  dsimp only
  by_cases hnone : numeralLen text = 0
  · rw [if_pos hnone]
    exact .failed rfl
  · rw [if_neg hnone]
    refine .scalar rfl rfl (Nat.pos_of_ne_zero hnone) ?_ hdepth
    have hnumeral := numeralLen_le text
    have htake := (List.takeWhile_prefix isNumberChar (l := (rest env b).take 63)).length_le
    rw [htext, List.length_take, rest, List.length_drop] at htake
    omega

/-- A name or a text: its block, and its quotes. -/
theorem parseString_returns (hb : b.offset < env.content.length) :
    ∃ r b', parseString env b = some (r, b') ∧ b'.depth = b.depth ∧
      b'.heap.live = b.heap.live + (if r.isSome then 1 else 0) ∧
      (r.isSome → b.offset + 2 ≤ b'.offset ∧ b'.offset ≤ env.content.length) := by
  rw [parseString, List.getElem?_eq_getElem hb]
  simp only [Option.bind_eq_bind, Option.bind_some]
  split_ifs with hquote
  · exact ⟨none, _, rfl, rfl, rfl, by simp⟩
  cases hend : stringEnd (rest env (b.move 1)) with
  | none => exact ⟨none, _, rfl, rfl, rfl, by simp⟩
  | some ends =>
    obtain ⟨length, skipped⟩ := ends
    obtain ⟨hclose, hskipped, hinside⟩ := stringEnd_spec hend
    rw [rest, List.getElem?_drop] at hclose
    have hlt : b.offset + 1 + length < env.content.length :=
      (List.getElem?_eq_some_iff.mp hclose).1
    rcases allocateBlock_cases env b with ⟨b₁, b₂, hb₁, ho, hd, hl⟩ | ⟨b₂, hb₂, ho, hd, hl⟩
    · have hleft : left env.content (b.offset + 1) (b.offset + 1 + length) =
          (rest env (b.move 1)).take length := by
        rw [left, Nat.add_sub_cancel_left]
        rfl
      have hfits : Fits env.content (b.offset + 1 + length) (length + 1 - skipped + 1)
          (b.offset + 1) [] false := by
        refine ⟨by rw [hleft, hinside], ?_⟩
        have hlen := length_left (p := b.offset + 1) hlt
        rw [hleft] at hlen
        rw [hleft, ← hskipped, hlen, List.length_nil]
        omega
      obtain ⟨r, p', hloop, -⟩ := @unescape_returns _ _ _ _ _ _ (length + 1) hfits hlt (by omega)
      simp only [hb₁, ho, hloop, Option.bind_some]
      cases r with
      | none =>
        obtain ⟨b₃, hb₃, -, hdepth, hfreed⟩ := @release_eq b₁ 1 (by omega)
        rw [hb₃]
        refine ⟨none, _, rfl, hdepth.trans hd, ?_, by simp⟩
        change b₃.heap.live = b.heap.live + 0
        omega
      | some output => exact ⟨some output, _, rfl, hd, hl, fun _ => ⟨by dsimp only; omega, hlt⟩⟩
    · simp only [hb₂]
      exact ⟨none, _, rfl, hd, hl, by simp⟩

theorem failWith_eq {blocks : Nat} (h : blocks ≤ b.heap.live) :
    ∃ b', @failWith D b blocks = some (none, b') ∧ b'.heap.live + blocks = b.heap.live := by
  obtain ⟨b', hb', -, -, hlive⟩ := release_eq h
  refine ⟨b', ?_, hlive⟩
  rw [failWith, hb']
  rfl

/-- What a loop leaves that has put together `blocks` blocks already and is one level below the
item: the blocks of the item, or none of them. -/
structure LoopReturns (env : Env D) (b : ParseBuffer) (blocks : Nat) (r : Option (Item D))
    (b' : ParseBuffer) : Prop where
  live : b'.heap.live + blocks = b.heap.live + r.elim 0 Item.owned
  moves : ∀ item, r = some item →
    b.offset + item.owned < b'.offset + blocks ∧ b'.offset ≤ env.content.length
  depth : ∀ item, r = some item →
    b'.depth + 1 = b.depth ∧ b'.depth + item.nesting ≤ nestingLimit

section Loops
variable {blocks k : Nat} {r : Option (Item D)} {item : Item D} {b' d : ParseBuffer}

theorem LoopReturns.failed (h : b'.heap.live + blocks = b.heap.live) :
    LoopReturns env b blocks none b' := ⟨h, by simp, by simp⟩

/-- One more item with `k` blocks has been put together. -/
theorem LoopReturns.next (h : LoopReturns env d (blocks + k) r b')
    (hlive : d.heap.live = b.heap.live + k) (hoffset : b.offset + k < d.offset)
    (hdepth : d.depth = b.depth) : LoopReturns env b blocks r b' where
  live := by
    have h' := h.live
    omega
  moves := by
    intro item hitem
    have h' := h.moves item hitem
    omega
  depth := by
    intro item hitem
    rw [← hdepth]
    exact h.depth item hitem

/-- The closing bracket behind the last item -/
theorem LoopReturns.closed (howned : item.owned = blocks + k)
    (hlive : d.heap.live = b.heap.live + k) (hoffset : b.offset + k < d.offset)
    (hend : d.offset < env.content.length) (hdepth : d.depth = b.depth) (hpos : 0 < b.depth)
    (hnesting : b.depth + item.nesting ≤ nestingLimit + 1) :
    ∃ r b', closeWith d item = some (r, b') ∧ LoopReturns env b blocks r b' := by
  refine ⟨some item, _, rfl, ?_, ?_, ?_⟩
  · change d.heap.live + blocks = b.heap.live + item.owned
    omega
  · rintro _ ⟨⟩
    dsimp only
    omega
  · rintro _ ⟨⟩
    dsimp only
    omega

theorem LoopReturns.returns (h : LoopReturns env d 0 r b')
    (hlive : d.heap.live = b.heap.live) (hoffset : b.offset ≤ d.offset)
    (hdepth : d.depth = b.depth + 1) : Returns env b r b' where
  live := by
    have h' := h.live
    omega
  moves := by
    intro item hitem
    have h' := h.moves item hitem
    omega
  depth := by
    intro item hitem
    have h' := h.depth item hitem
    omega

theorem loop_failWith (h : blocks ≤ d.heap.live) (hlive : d.heap.live + k = b.heap.live + blocks) :
    ∃ r b', failWith d blocks = some (r, b') ∧ LoopReturns env b k r b' := by
  obtain ⟨b', hb', hfreed⟩ := @failWith_eq D d blocks h
  exact ⟨none, b', hb', .failed (by omega)⟩

end Loops

/-- What is proved of a function under a fuel, by induction on it: three turns for every byte
that is left. -/
structure Specs (env : Env D) (fuel : Nat) : Prop where
  value : ∀ b, b.depth ≤ nestingLimit → 3 * (env.content.length - b.offset) + 3 ≤ fuel →
    ∃ r b', parseValue env fuel b = some (r, b') ∧ Returns env b r b'
  array : ∀ b, first env b = some 91 → 3 * (env.content.length - b.offset) + 2 ≤ fuel →
    ∃ r b', parseArray env fuel b = some (r, b') ∧ Returns env b r b'
  object : ∀ b, first env b = some 123 → 3 * (env.content.length - b.offset) + 2 ≤ fuel →
    ∃ r b', parseObject env fuel b = some (r, b') ∧ Returns env b r b'
  items : ∀ b head, b.offset < env.content.length →
    3 * (env.content.length - b.offset) + 1 ≤ fuel → ownedItems head ≤ b.heap.live →
    0 < b.depth → b.depth + nestingItems head ≤ nestingLimit →
    ∃ r b', arrayLoop env fuel b head = some (r, b') ∧ LoopReturns env b (ownedItems head) r b'
  members : ∀ b head, b.offset < env.content.length →
    3 * (env.content.length - b.offset) + 1 ≤ fuel → ownedMembers head ≤ b.heap.live →
    0 < b.depth → b.depth + nestingMembers head ≤ nestingLimit →
    ∃ r b', objectLoop env fuel b head = some (r, b') ∧ LoopReturns env b (ownedMembers head) r b'

section Steps

theorem parseArray_returns (h : Specs env fuel) (hfirst : first env b = some 91)
    (hfuel : 3 * (env.content.length - b.offset) + 2 ≤ fuel + 1) :
    ∃ r b', parseArray env (fuel + 1) b = some (r, b') ∧ Returns env b r b' := by
  have hb := offset_lt_of_first hfirst
  have hread : env.content[b.offset]? = some 91 := first_eq.symm.trans hfirst
  rw [parseArray]
  split_ifs with hdeep
  · exact ⟨none, b, rfl, .failed rfl⟩
  simp only [hread, Option.bind_eq_bind, Option.bind_some]
  obtain ⟨hheap, hdepth, hge, -, -⟩ :=
    skip_spec env (ParseBuffer.move { b with depth := b.depth + 1 } 1)
  have hfirst' := @offset_lt_of_first D env
    (bufferSkipWhitespace env (ParseBuffer.move { b with depth := b.depth + 1 } 1))
  generalize bufferSkipWhitespace env (ParseBuffer.move { b with depth := b.depth + 1 } 1) = d
    at hheap hdepth hge hfirst'
  change d.heap = b.heap at hheap
  change d.depth = b.depth + 1 at hdepth
  change b.offset + 1 ≤ d.offset at hge
  rw [if_neg (by simp)]
  cases hc : first env d with
  | none => exact ⟨none, _, rfl, .failed (congrArg Heap.live hheap)⟩
  | some c =>
    have hd := hfirst' hc
    dsimp only
    split_ifs with hclose
    · refine ⟨some (.array []), _, rfl, ?_, ?_, ?_⟩
      · exact congrArg Heap.live hheap
      · rintro _ ⟨⟩
        rw [Item.owned, ownedItems]
        dsimp only
        omega
      · rintro _ ⟨⟩
        rw [Item.nesting, nestingItems]
        dsimp only
        omega
    · obtain ⟨r, b', hloop, hreturns⟩ := h.items { d with offset := d.offset - 1 } []
        (by dsimp only; omega) (by dsimp only; omega) (Nat.zero_le _) (by dsimp only; omega)
        (by rw [nestingItems]; dsimp only; omega)
      refine ⟨r, b', hloop, hreturns.returns ?_ ?_ hdepth⟩
      · exact congrArg Heap.live hheap
      · dsimp only
        omega

theorem parseObject_returns (h : Specs env fuel) (hfirst : first env b = some 123)
    (hfuel : 3 * (env.content.length - b.offset) + 2 ≤ fuel + 1) :
    ∃ r b', parseObject env (fuel + 1) b = some (r, b') ∧ Returns env b r b' := by
  have hb := offset_lt_of_first hfirst
  rw [parseObject]
  split_ifs with hdeep
  · exact ⟨none, b, rfl, .failed rfl⟩
  have hbrace : first env { b with depth := b.depth + 1 } = some 123 := hfirst
  obtain ⟨hheap, hdepth, hge, -, -⟩ :=
    skip_spec env (ParseBuffer.move { b with depth := b.depth + 1 } 1)
  have hfirst' := @offset_lt_of_first D env
    (bufferSkipWhitespace env (ParseBuffer.move { b with depth := b.depth + 1 } 1))
  dsimp only
  rw [if_neg (not_not.mpr hbrace)]
  generalize bufferSkipWhitespace env (ParseBuffer.move { b with depth := b.depth + 1 } 1) = d
    at hheap hdepth hge hfirst'
  change d.heap = b.heap at hheap
  change d.depth = b.depth + 1 at hdepth
  change b.offset + 1 ≤ d.offset at hge
  cases hc : first env d with
  | none => exact ⟨none, _, rfl, .failed (congrArg Heap.live hheap)⟩
  | some c =>
    have hd := hfirst' hc
    dsimp only
    split_ifs with hclose
    · refine ⟨some (.object []), _, rfl, ?_, ?_, ?_⟩
      · exact congrArg Heap.live hheap
      · rintro _ ⟨⟩
        rw [Item.owned, ownedMembers]
        dsimp only
        omega
      · rintro _ ⟨⟩
        rw [Item.nesting, nestingMembers]
        dsimp only
        omega
    · obtain ⟨r, b', hloop, hreturns⟩ := h.members { d with offset := d.offset - 1 } []
        (by dsimp only; omega) (by dsimp only; omega) (Nat.zero_le _) (by dsimp only; omega)
        (by rw [nestingMembers]; dsimp only; omega)
      refine ⟨r, b', hloop, hreturns.returns ?_ ?_ hdepth⟩
      · exact congrArg Heap.live hheap
      · dsimp only
        omega

theorem arrayLoop_returns (h : Specs env fuel) {head : List (Item D)}
    (hb : b.offset < env.content.length)
    (hfuel : 3 * (env.content.length - b.offset) + 1 ≤ fuel + 1)
    (hlive : ownedItems head ≤ b.heap.live) (hpos : 0 < b.depth)
    (hdepth : b.depth + nestingItems head ≤ nestingLimit) :
    ∃ r b', arrayLoop env (fuel + 1) b head = some (r, b') ∧
      LoopReturns env b (ownedItems head) r b' := by
  rw [arrayLoop]
  rcases allocateBlock_cases env b with ⟨b₁, b₂, hb₁, ho, hd, hl⟩ | ⟨b₂, hb₂, ho, hd, hl⟩
  · simp only [hb₁]
    obtain ⟨hheap, hskip, hge, -, -⟩ := skip_spec env (b₁.move 1)
    generalize bufferSkipWhitespace env (b₁.move 1) = d at hheap hskip hge
    change d.heap = b₁.heap at hheap
    change d.depth = b₁.depth at hskip
    change b₁.offset + 1 ≤ d.offset at hge
    have hlive₁ : d.heap.live = b.heap.live + 1 := by rw [hheap, hl]
    obtain ⟨r, b₃, hvalue, hreturns⟩ := h.value d (by omega) (by omega)
    simp only [hvalue, Option.bind_eq_bind, Option.bind_some]
    have hlive₃ := hreturns.live
    cases r with
    | none =>
      change b₃.heap.live = d.heap.live + 0 at hlive₃
      exact loop_failWith (by omega) (by omega)
    | some item =>
      change b₃.heap.live = d.heap.live + item.owned at hlive₃
      obtain ⟨hmoves, hend⟩ := hreturns.moves item rfl
      obtain ⟨hdepth₃, hnesting⟩ := hreturns.depth item rfl
      obtain ⟨hheap₃, hskip₃, hge₃, -, -⟩ := skip_spec env b₃
      have hfirst' := @offset_lt_of_first D env (bufferSkipWhitespace env b₃)
      dsimp only
      generalize bufferSkipWhitespace env b₃ = e at hheap₃ hskip₃ hge₃ hfirst'
      have hblocks : ownedItems (head ++ [item]) = ownedItems head + (item.owned + 1) := by
        rw [ownedItems_append, ownedItems, ownedItems, Nat.add_zero]
      have hdeep : nestingItems (head ++ [item]) = max (nestingItems head) item.nesting := by
        rw [nestingItems_append, nestingItems, nestingItems, Nat.max_zero]
      have hlive₄ : e.heap.live = b.heap.live + (item.owned + 1) := by
        rw [hheap₃, hlive₃, hlive₁]
        omega
      split_ifs with hcomma hclose
      · have he := hfirst' hcomma
        obtain ⟨r, b', hloop, hrest⟩ := h.items e (head ++ [item]) he (by omega)
          (by rw [hblocks]; omega) (by omega) (by rw [hdeep]; omega)
        rw [hblocks] at hrest
        exact ⟨r, b', hloop, hrest.next hlive₄ (by omega) (by omega)⟩
      · have he := hfirst' hclose
        refine LoopReturns.closed (k := item.owned + 1) ?_ hlive₄ (by omega) he (by omega) hpos ?_
        · rw [Item.owned, hblocks]
        · rw [Item.nesting, hdeep]
          omega
      · refine loop_failWith ?_ ?_
        · rw [hblocks]
          omega
        · rw [hblocks]
          omega
  · simp only [hb₂]
    exact loop_failWith (by omega) (by omega)

theorem objectLoop_returns (h : Specs env fuel) {head : List (List UInt8 × Item D)}
    (_ : b.offset < env.content.length)
    (hfuel : 3 * (env.content.length - b.offset) + 1 ≤ fuel + 1)
    (hlive : ownedMembers head ≤ b.heap.live) (hpos : 0 < b.depth)
    (hdepth : b.depth + nestingMembers head ≤ nestingLimit) :
    ∃ r b', objectLoop env (fuel + 1) b head = some (r, b') ∧
      LoopReturns env b (ownedMembers head) r b' := by
  rw [objectLoop]
  rcases allocateBlock_cases env b with ⟨b₁, b₂, hb₁, ho, hd, hl⟩ | ⟨b₂, hb₂, ho, hd, hl⟩
  · simp only [hb₁]
    by_cases hlast : env.content.length ≤ b₁.offset + 1
    · rw [if_pos hlast]
      exact loop_failWith (by omega) (by omega)
    rw [if_neg hlast]
    obtain ⟨hheap, hskip, hge, -, hlt⟩ := skip_spec env (b₁.move 1)
    generalize bufferSkipWhitespace env (b₁.move 1) = d at hheap hskip hge hlt
    change d.heap = b₁.heap at hheap
    change d.depth = b₁.depth at hskip
    change b₁.offset + 1 ≤ d.offset at hge
    change b₁.offset + 1 < env.content.length → d.offset < env.content.length at hlt
    have hlive₁ : d.heap.live = b.heap.live + 1 := by rw [hheap, hl]
    obtain ⟨name, b₂, hname, hdepth₂, hlive₂, hmoves₂⟩ :=
      @parseString_returns D env d (hlt (by omega))
    simp only [hname, Option.bind_eq_bind, Option.bind_some]
    cases name with
    | none =>
      change b₂.heap.live = d.heap.live + 0 at hlive₂
      exact loop_failWith (by omega) (by omega)
    | some name =>
      change b₂.heap.live = d.heap.live + 1 at hlive₂
      obtain ⟨hmoves, -⟩ := hmoves₂ rfl
      obtain ⟨hheap₂, hskip₂, hge₂, -, -⟩ := skip_spec env b₂
      dsimp only
      generalize bufferSkipWhitespace env b₂ = e at hheap₂ hskip₂ hge₂
      have hlive₃ : e.heap.live = b.heap.live + 2 := by rw [hheap₂, hlive₂, hlive₁]
      split_ifs with hcolon
      · exact loop_failWith (by omega) (by omega)
      · obtain ⟨hheap₃, hskip₃, hge₃, -, -⟩ := skip_spec env (e.move 1)
        generalize bufferSkipWhitespace env (e.move 1) = g at hheap₃ hskip₃ hge₃
        change g.heap = e.heap at hheap₃
        change g.depth = e.depth at hskip₃
        change e.offset + 1 ≤ g.offset at hge₃
        have hlive₄ : g.heap.live = b.heap.live + 2 := by rw [hheap₃, hlive₃]
        obtain ⟨r, b₃, hvalue, hreturns⟩ := h.value g (by omega) (by omega)
        simp only [hvalue, Option.bind_some]
        have hlive₅ := hreturns.live
        cases r with
        | none =>
          change b₃.heap.live = g.heap.live + 0 at hlive₅
          exact loop_failWith (by omega) (by omega)
        | some item =>
          change b₃.heap.live = g.heap.live + item.owned at hlive₅
          obtain ⟨hmoves₃, hend⟩ := hreturns.moves item rfl
          obtain ⟨hdepth₃, hnesting⟩ := hreturns.depth item rfl
          obtain ⟨hheap₆, hskip₆, hge₆, -, -⟩ := skip_spec env b₃
          have hfirst' := @offset_lt_of_first D env (bufferSkipWhitespace env b₃)
          dsimp only
          generalize bufferSkipWhitespace env b₃ = q at hheap₆ hskip₆ hge₆ hfirst'
          have hblocks : ownedMembers (head ++ [(name, item)]) =
              ownedMembers head + (item.owned + 2) := by
            rw [ownedMembers_append, ownedMembers, ownedMembers, Nat.add_zero]
          have hdeep : nestingMembers (head ++ [(name, item)]) =
              max (nestingMembers head) item.nesting := by
            rw [nestingMembers_append, nestingMembers, nestingMembers, Nat.max_zero]
          have hlive₆ : q.heap.live = b.heap.live + (item.owned + 2) := by
            rw [hheap₆, hlive₅, hlive₄]
            omega
          split_ifs with hcomma hclose
          · have hq := hfirst' hcomma
            obtain ⟨r, b', hloop, hrest⟩ := h.members q (head ++ [(name, item)]) hq (by omega)
              (by rw [hblocks]; omega) (by omega) (by rw [hdeep]; omega)
            rw [hblocks] at hrest
            exact ⟨r, b', hloop, hrest.next hlive₆ (by omega) (by omega)⟩
          · have hq := hfirst' hclose
            refine LoopReturns.closed (k := item.owned + 2) ?_ hlive₆ (by omega) hq (by omega)
              hpos ?_
            · rw [Item.owned, hblocks]
            · rw [Item.nesting, hdeep]
              omega
          · refine loop_failWith ?_ ?_
            · rw [hblocks]
              omega
            · rw [hblocks]
              omega
  · simp only [hb₂]
    exact loop_failWith (by omega) (by omega)

theorem parseValue_returns (h : Specs env fuel) (hdepth : b.depth ≤ nestingLimit)
    (hfuel : 3 * (env.content.length - b.offset) + 3 ≤ fuel + 1) :
    ∃ r b', parseValue env (fuel + 1) b = some (r, b') ∧ Returns env b r b' := by
  rw [parseValue]
  split_ifs with hnull hfalse htrue
  · exact ⟨_, _, rfl, literal_returns hnull rfl (by decide) rfl rfl hdepth⟩
  · exact ⟨_, _, rfl, literal_returns hfalse rfl (by decide) rfl rfl hdepth⟩
  · exact ⟨_, _, rfl, literal_returns htrue rfl (by decide) rfl rfl hdepth⟩
  cases hc : first env b with
  | none => exact ⟨none, b, rfl, .failed rfl⟩
  | some c =>
    have hb := offset_lt_of_first hc
    dsimp only
    split_ifs with hquote hnumber hbracket hbrace
    · obtain ⟨r, b', hstring, hsame, hlive, hmoves⟩ := @parseString_returns D env b hb
      simp only [hstring, Option.bind_eq_bind, Option.bind_some]
      cases r with
      | none => exact ⟨none, b', rfl, .failed hlive⟩
      | some output =>
        refine ⟨some (.string output), b', rfl, hlive, ?_, ?_⟩
        · rintro _ ⟨⟩
          have hend := hmoves rfl
          rw [Item.owned]
          omega
        · rintro _ ⟨⟩
          exact ⟨hsame, hdepth⟩
    · exact ⟨(parseNumber env b).1, (parseNumber env b).2, congrArg some Prod.mk.eta.symm,
        parseNumber_returns hdepth⟩
    · subst hbracket
      exact h.array b hc (by omega)
    · subst hbrace
      exact h.object b hc (by omega)
    · exact ⟨none, b, rfl, .failed rfl⟩

end Steps

theorem specs (env : Env D) (fuel : Nat) : Specs env fuel := by
  induction fuel with
  | zero => exact ⟨by omega, by omega, by omega, by omega, by omega⟩
  | succ fuel ih =>
    exact ⟨fun _ => parseValue_returns ih, fun _ => parseArray_returns ih,
      fun _ => parseObject_returns ih, fun _ _ => arrayLoop_returns ih,
      fun _ _ => objectLoop_returns ih⟩

/-- What a parse leaves behind: after a failure as many blocks as before, otherwise as many more
as the item has. -/
structure Sound (env : Env D) (live : Nat) (p : Parsed D) : Prop where
  failed : p.item = none → p.buffer.heap.live = live ∧
    ∃ position, p.error = some position ∧ position ≤ env.content.length - 1
  parsed : ∀ item, p.item = some item → p.error = none ∧
    p.buffer.heap.live = live + item.owned + 1 ∧ p.buffer.offset ≤ env.content.length ∧
    item.owned < env.content.length ∧ item.nesting ≤ nestingLimit

theorem Sound.fail {live : Nat} (h : b.heap.live = live) : Sound env live (parseFailed env b) where
  failed := by
    refine fun _ => ⟨h, _, rfl, ?_⟩
    split_ifs <;> omega
  parsed := by
    rintro _ ⟨⟩

theorem skipUtf8Bom_spec (env : Env D) (b : ParseBuffer) :
    (skipUtf8Bom env b).heap = b.heap ∧ (skipUtf8Bom env b).depth = b.depth := by
  rw [skipUtf8Bom]
  split_ifs <;> exact ⟨rfl, rfl⟩

/-- Whatever the buffer holds and whichever allocations fail, the parser reads inside the buffer
and writes inside its blocks, frees as many blocks as it has to, and comes to an end. -/
theorem parseWithLengthOpts_sound (env : Env D) (fuel live : Nat) (requireNullTerminated : Bool)
    (hfuel : 3 * env.content.length + 3 ≤ fuel) :
    ∃ p, parseWithLengthOpts env fuel live requireNullTerminated = some p ∧ Sound env live p := by
  rw [parseWithLengthOpts]
  by_cases hlength : env.content.length = 0
  · rw [if_pos hlength]
    exact ⟨_, rfl, .fail rfl⟩
  rw [if_neg hlength]
  rcases allocateBlock_cases env ⟨0, 0, ⟨0, live⟩⟩ with
    ⟨b₁, b₂, hb₁, -, hd, hl⟩ | ⟨b₂, hb₂, -, -, hl⟩
  · simp only [hb₁]
    change b₁.depth = 0 at hd
    change b₁.heap.live = live + 1 at hl
    obtain ⟨hheap, hdepth⟩ := skipUtf8Bom_spec env b₁
    obtain ⟨hheap', hdepth', -, -, -⟩ := skip_spec env (skipUtf8Bom env b₁)
    generalize bufferSkipWhitespace env (skipUtf8Bom env b₁) = d at hheap' hdepth'
    have hlive : d.heap.live = live + 1 := by rw [hheap', hheap, hl]
    have hzero : d.depth = 0 := by rw [hdepth', hdepth, hd]
    obtain ⟨r, b₃, hvalue, hreturns⟩ :=
      (specs env fuel).value d (hzero.trans_le (Nat.zero_le _)) (by omega)
    simp only [hvalue, Option.bind_eq_bind, Option.bind_some]
    have hlive₃ := hreturns.live
    cases r with
    | none =>
      change b₃.heap.live = d.heap.live + 0 at hlive₃
      obtain ⟨b₄, hb₄, -, -, hl₄⟩ := @release_eq b₃ 1 (by omega)
      simp only [hb₄, Option.bind_some]
      exact ⟨_, rfl, .fail (by omega)⟩
    | some item =>
      change b₃.heap.live = d.heap.live + item.owned at hlive₃
      obtain ⟨hmoves, hend⟩ := hreturns.moves item rfl
      obtain ⟨-, hnesting⟩ := hreturns.depth item rfl
      obtain ⟨hheap₄, -, -, hend₄, -⟩ := skip_spec env b₃
      have hend₄ := hend₄ hend
      dsimp only
      generalize bufferSkipWhitespace env b₃ = e at hheap₄ hend₄
      have hlive₄ : e.heap.live = b₃.heap.live := congrArg Heap.live hheap₄
      split_ifs with hrequire hnul
      · obtain ⟨b₅, hb₅, -, -, hl₅⟩ := @release_eq e (item.owned + 1) (by omega)
        simp only [hb₅, Option.bind_some]
        exact ⟨_, rfl, .fail (by omega)⟩
      · refine ⟨_, rfl, by rintro ⟨⟩, ?_⟩
        rintro _ ⟨⟩
        exact ⟨rfl, by dsimp only; omega, hend₄, by omega, by omega⟩
      · refine ⟨_, rfl, by rintro ⟨⟩, ?_⟩
        rintro _ ⟨⟩
        exact ⟨rfl, by dsimp only; omega, hend, by omega, by omega⟩
  · simp only [hb₂]
    exact ⟨_, rfl, .fail hl⟩

/-- A string that is not closed, in a buffer without a terminator -/
theorem parseWithLengthOpts_sound_open :
    ∃ p, parseWithLengthOpts
      ⟨[91, 34, 92], fun _ => true, ⟨List.length, (· ≥ 9), (· ≤ 0), fun n => Int32.ofNat n⟩⟩ 12 5
      false = some p ∧ Sound ⟨[91, 34, 92], fun _ => true,
        ⟨List.length, (· ≥ 9), (· ≤ 0), fun n => Int32.ofNat n⟩⟩ 5 p :=
  parseWithLengthOpts_sound _ 12 5 false (by decide)

end CJsonSafety
