import LinuxBuild.CJsonSafety
import LinuxBuild.CJsonPrinted

/-!
# Reading what was printed

What is left of an item when its text is read again, and the parser on the texts of strings
and numbers. Strings come back up to their first `NUL`, numbers as `strtod` reads their text,
and what is no finite number comes back as `null`.
-/
namespace CJsonRoundTrip
open CString CJsonParse CJsonPrint CJsonText CJsonSafety

variable {D : Type}

/-- The number behind a text -/
def readNumber (numbers : Printing D) (text : CStr) : Item D :=
  .number (numbers.strtod text) (saturate numbers.toDoubles (numbers.strtod text))

mutual
/-- What is left of an item after it was printed and read -/
def reread (numbers : Printing D) : Item D → Item D
  | .null => .null
  | .bool b => .bool b
  | .number d i =>
    if numbers.isFinite d then readNumber numbers (numberText numbers d i) else .null
  | .string s => .string (cstringAt (s ++ [0]))
  | .array child => .array (rereadItems numbers child)
  | .object child => .object (rereadMembers numbers child)

def rereadItems (numbers : Printing D) : List (Item D) → List (Item D)
  | [] => []
  | item :: items => reread numbers item :: rereadItems numbers items

def rereadMembers (numbers : Printing D) :
    List (List UInt8 × Item D) → List (List UInt8 × Item D)
  | [] => []
  | (name, item) :: members =>
    (cstringAt (name ++ [0]), reread numbers item) :: rereadMembers numbers members
end

variable {env : Env D} {b b' : ParseBuffer} {s t ws : List UInt8} {c : UInt8}

section Buffer

theorem rest_of_offset (h : rest env b = s ++ t) (hoffset : b'.offset = b.offset + s.length) :
    rest env b' = t := by
  rw [rest] at h
  rw [rest, hoffset, ← List.drop_drop, h, List.drop_left]

theorem rest_move (h : rest env b = s ++ t) : rest env (b.move s.length) = t :=
  rest_of_offset h rfl

theorem offset_add_length (h : rest env b = c :: t) :
    b.offset + (t.length + 1) = env.content.length := by
  have hlength := congrArg List.length h
  rw [rest, List.length_drop, List.length_cons] at hlength
  omega

theorem first_of_rest (h : rest env b = c :: t) : first env b = some c := by
  rw [first, h, List.head?_cons]

theorem skip_of_rest (h : rest env b = ws ++ c :: t) (hws : ∀ w ∈ ws, w ≤ 32) (hc : ¬c ≤ 32) :
    bufferSkipWhitespace env b = b.move ws.length := by
  have hlength := congrArg List.length h
  rw [rest, List.length_drop, List.length_append, List.length_cons] at hlength
  have htake : (rest env b).takeWhile (· ≤ 32) = ws := by
    rw [h, List.takeWhile_append_of_pos fun w hw => decide_eq_true (hws w hw),
      List.takeWhile_cons_of_neg (by simpa using hc), List.append_nil]
  rw [bufferSkipWhitespace, if_neg (by omega), htake]
  dsimp only
  rw [if_neg (by omega)]
  rfl

theorem skip_none (h : rest env b = c :: t) (hc : ¬c ≤ 32) : bufferSkipWhitespace env b = b :=
  @skip_of_rest D env b t [] c h (fun _ hw => by cases hw) hc

theorem startsWith_ne {literal : String} {d : UInt8} {l : CStr} (hl : cstr literal = d :: l)
    (h : rest env b = c :: t) (hne : c ≠ d) : startsWith env b literal = false := by
  rw [startsWith, hl, h, List.isPrefixOf_cons_cons, beq_false_of_ne hne.symm, Bool.false_and]

theorem allocateBlock_granted (halloc : ∀ n, env.allocate n = true) (b : ParseBuffer) :
    ∃ b₁ b₂, allocateBlock env b = (some b₁, b₂) ∧ b₁.offset = b.offset ∧ b₁.depth = b.depth := by
  rw [allocateBlock, if_pos (halloc _)]
  exact ⟨_, _, rfl, rfl, rfl⟩

end Buffer

section Strings

theorem hexDigit_high (c : UInt8) : hexDigit (hexDigitOf (c / 16)) = some (c / 16).toNat :=
  @forall_byte (fun c => hexDigit (hexDigitOf (c / 16)) = some (c / 16).toNat)
    (by decide +kernel) c

theorem hexDigit_low (c : UInt8) : hexDigit (hexDigitOf (c % 16)) = some (c % 16).toNat :=
  @forall_byte (fun c => hexDigit (hexDigitOf (c % 16)) = some (c % 16).toNat)
    (by decide +kernel) c

theorem escapeLetter_short (c e : UInt8) (h : escapeLetter c = some e) :
    e ≠ 117 ∧ shortEscape e = some c := by
  have hall := @forall_byte (fun c => ∀ e ∈ escapeLetter c, e ≠ 117 ∧ shortEscape e = some c)
    (by decide +kernel) c
  exact hall e h

theorem encodeUtf8_low (c : UInt8) (h : c < 32) : encodeUtf8 c.toNat = some [c] :=
  @forall_byte (fun c => c < 32 → encodeUtf8 c.toNat = some [c]) (by decide +kernel) c h

/-- A byte of a string is plain, or has a letter, or is a control character. -/
theorem escaped_cases (c : UInt8) :
    escaped c = [c] ∧ c ≠ 34 ∧ c ≠ 92 ∨ (∃ e, escapeLetter c = some e ∧ escaped c = [92, e]) ∨
      c < 32 ∧ escaped c = 92 :: unicodeEscape c := by
  rw [escaped]
  split_ifs with hplain
  · exact Or.inl ⟨rfl, hplain.2⟩
  · right
    cases hletter : escapeLetter c with
    | some e => exact Or.inl ⟨e, rfl, rfl⟩
    | none =>
      refine Or.inr ⟨?_, rfl⟩
      by_contra hge
      refine hplain ⟨?_, ?_, ?_⟩
      · rw [UInt8.lt_iff_toNat_lt] at hge ⊢
        change ¬c.toNat < 32 at hge
        change 31 < c.toNat
        omega
      · rintro rfl
        cases hletter
      · rintro rfl
        cases hletter

theorem stringEnd_plain {l n : Nat} (hquote : c ≠ 34) (hback : c ≠ 92)
    (h : stringEnd t = some (l, n)) : stringEnd (c :: t) = some (l + 1, n) := by
  rw [stringEnd.eq_def]
  simp [hquote, hback, h]

theorem stringEnd_pair {l n : Nat} (h : stringEnd t = some (l, n)) :
    stringEnd (92 :: c :: t) = some (l + 2, n + 1) := by
  rw [stringEnd.eq_def]
  simp [h]

theorem hexDigitOf_ne (d : UInt8) : hexDigitOf (d / 16) ≠ 34 ∧ hexDigitOf (d / 16) ≠ 92 ∧
    hexDigitOf (d % 16) ≠ 34 ∧ hexDigitOf (d % 16) ≠ 92 :=
  @forall_byte (fun d => hexDigitOf (d / 16) ≠ 34 ∧ hexDigitOf (d / 16) ≠ 92 ∧
    hexDigitOf (d % 16) ≠ 34 ∧ hexDigitOf (d % 16) ≠ 92) (by decide +kernel) d

/-- The first loop of `parse_string` on what one byte was printed as -/
theorem stringEnd_escaped {l n : Nat} (c : UInt8) (h : stringEnd t = some (l, n)) :
    ∃ k, stringEnd (escaped c ++ t) = some (l + (escaped c).length, n + k) ∧
      k + 1 ≤ (escaped c).length := by
  rcases escaped_cases c with ⟨heq, hquote, hback⟩ | ⟨e, -, heq⟩ | ⟨-, heq⟩
  · rw [heq]
    exact ⟨0, stringEnd_plain hquote hback h, le_rfl⟩
  · rw [heq]
    exact ⟨1, stringEnd_pair h, le_rfl⟩
  · rw [heq]
    obtain ⟨h1, h2, h3, h4⟩ := hexDigitOf_ne c
    exact ⟨1, stringEnd_pair (stringEnd_plain (by decide) (by decide) (stringEnd_plain (by decide)
      (by decide) (stringEnd_plain h1 h2 (stringEnd_plain h3 h4 h)))),
      Nat.le_add_left 2 4⟩

theorem stringEnd_flatMap (s t : List UInt8) :
    ∃ n, stringEnd (s.flatMap escaped ++ 34 :: t) = some ((s.flatMap escaped).length, n) ∧
      n + s.length ≤ (s.flatMap escaped).length := by
  induction s with
  | nil => exact ⟨0, by rw [stringEnd.eq_def]; rfl, le_rfl⟩
  | cons c s ih =>
    obtain ⟨n, hn, hle⟩ := ih
    obtain ⟨k, hk, hle'⟩ := stringEnd_escaped c hn
    refine ⟨n + k, ?_, ?_⟩
    · rw [List.flatMap_cons, List.append_assoc, hk, List.length_append, Nat.add_comm]
    · rw [List.flatMap_cons, List.length_append, List.length_cons]
      omega

variable {content : List UInt8} {p inputEnd : Nat}

theorem getElem?_of_drop (h : content.drop p = s) (k : Nat) : content[p + k]? = s[k]? := by
  rw [← h, List.getElem?_drop]

/-- `parse_hex4` reads what `%04x` has written. -/
theorem parseHex4_printed (c : UInt8)
    (h : content.drop p = 48 :: 48 :: hexDigitOf (c / 16) :: hexDigitOf (c % 16) :: t) :
    parseHex4 content p = some c.toNat := by
  have h0 := getElem?_of_drop h 0
  have h1 := getElem?_of_drop h 1
  have h2 := getElem?_of_drop h 2
  have h3 := getElem?_of_drop h 3
  simp only [Nat.add_zero, List.getElem?_cons_zero, List.getElem?_cons_succ] at h0 h1 h2 h3
  have hzero : hexDigit 48 = some 0 := rfl
  have hvalue : (c / 16).toNat * 16 + (c % 16).toNat = c.toNat := by
    rw [UInt8.toNat_div, UInt8.toNat_mod]
    exact Nat.div_add_mod' _ _
  simp only [parseHex4, hexLoop, h0, h1, h2, h3, hzero, hexDigit_high, hexDigit_low,
    Option.bind_eq_bind, Option.bind_some, Nat.add_assoc, Nat.reduceAdd, Nat.reduceLT, if_true,
    Nat.lt_irrefl, if_false, Nat.zero_mul, Nat.zero_add, hvalue]

/-- An escape sequence stands for the byte it was printed for. -/
theorem escapeAt_escaped (hback : escaped c ≠ [c]) (h : content.drop p = escaped c ++ t)
    (hend : p + (escaped c).length ≤ inputEnd) :
    content[p]? = some 92 ∧
      escapeAt content p inputEnd = some (some ((escaped c).length, [c])) := by
  rcases escaped_cases c with ⟨heq, -, -⟩ | ⟨e, hletter, heq⟩ | ⟨hlow, heq⟩
  · exact absurd heq hback
  · rw [heq] at h hend ⊢
    obtain ⟨hne, hshort⟩ := escapeLetter_short c e hletter
    have h0 := getElem?_of_drop h 0
    have h1 := getElem?_of_drop h 1
    refine ⟨h0, ?_⟩
    rw [escapeAt, h1]
    simp [hne, hshort]
  · rw [heq] at h hend ⊢
    have hhex : content.drop (p + 2) =
        48 :: 48 :: hexDigitOf (c / 16) :: hexDigitOf (c % 16) :: t := by
      rw [← List.drop_drop, h]
      rfl
    have h0 := getElem?_of_drop h 0
    have h1 := getElem?_of_drop h 1
    have hlt := c.toNat_lt
    have hlength : (92 :: unicodeEscape c).length = 6 := rfl
    rw [hlength] at hend ⊢
    refine ⟨h0, ?_⟩
    change content[p + 1]? = some 117 at h1
    rw [escapeAt, h1]
    simp only [Option.bind_eq_bind, Option.bind_some, if_true]
    rw [utf16LiteralToUtf8, if_neg (by omega), parseHex4_printed c hhex]
    simp only [Option.bind_eq_bind, Option.bind_some]
    rw [if_neg (by omega), if_neg (by omega), encodeUtf8_low c hlow]
    rfl

theorem put_of_le {capacity : Nat} {out bytes : List UInt8}
    (h : out.length + bytes.length ≤ capacity) :
    CJsonParse.put capacity out bytes = some (out ++ bytes) := if_pos h

/-- The second loop of `parse_string` gives the string back. -/
theorem unescape_flatMap {capacity fuel : Nat} {out : List UInt8}
    (h : content.drop p = s.flatMap escaped ++ 34 :: t)
    (hend : inputEnd = p + (s.flatMap escaped).length)
    (hroom : out.length + s.length + 1 ≤ capacity) (hfuel : (s.flatMap escaped).length < fuel) :
    unescape content inputEnd capacity fuel p out = some (some (out ++ s), inputEnd) := by
  induction s generalizing p out fuel with
  | nil =>
    rw [List.flatMap_nil, List.length_nil] at hend hfuel
    cases fuel with
    | zero => omega
    | succ fuel =>
      rw [List.length_nil] at hroom
      have hput := @put_of_le capacity out [0] (by rw [List.length_singleton]; omega)
      rw [unescape, if_neg (by omega), hput, hend, List.append_nil]
      rfl
  | cons c s ih =>
    rw [List.flatMap_cons, List.append_assoc] at h
    rw [List.flatMap_cons, List.length_append] at hend hfuel
    rw [List.length_cons] at hroom
    have hpos := length_escaped c
    have hnext : content.drop (p + (escaped c).length) = s.flatMap escaped ++ 34 :: t := by
      rw [← List.drop_drop, h, List.drop_left]
    have hput := @put_of_le capacity out [c] (by rw [List.length_singleton]; omega)
    cases fuel with
    | zero => omega
    | succ fuel =>
      have hloop := @ih (p + (escaped c).length) fuel (out ++ [c]) hnext (by omega)
        (by rw [List.length_append, List.length_singleton]; omega) (by omega)
      rw [List.append_assoc, List.singleton_append] at hloop
      rw [unescape, if_pos (by omega)]
      by_cases hplain : escaped c = [c]
      · rw [hplain] at h hloop
        have h0 : content[p]? = some c := getElem?_of_drop h 0
        have hne : c ≠ 92 := by
          rintro rfl
          cases hplain
        simp only [h0, Option.bind_eq_bind, Option.bind_some, if_pos hne, hput]
        exact hloop
      · obtain ⟨h0, hescape⟩ := escapeAt_escaped hplain h (show _ ≤ inputEnd by omega)
        simp only [h0, hescape, Option.bind_eq_bind, Option.bind_some, ne_eq, not_true_eq_false,
          if_false, hput]
        exact hloop

/-- `parse_string` gives a printed string back. -/
theorem parseString_quoted (halloc : ∀ n, env.allocate n = true)
    (h : rest env b = quoted s ++ t) :
    ∃ b', parseString env b = some (some s, b') ∧ b'.offset = b.offset + (quoted s).length ∧
      b'.depth = b.depth := by
  obtain ⟨n, hn, hle⟩ := stringEnd_flatMap s t
  have hcons : rest env b = 34 :: (s.flatMap escaped ++ 34 :: t) := by
    rw [h, quoted]
    simp
  have hquote : env.content[b.offset]? = some 34 := first_eq.symm.trans (first_of_rest hcons)
  have hmove : rest env (b.move 1) = s.flatMap escaped ++ 34 :: t :=
    @rest_move D env b [34] _ hcons
  obtain ⟨b₁, b₂, hb₁, hoffset, hdepth⟩ := allocateBlock_granted halloc b
  have hloop := @unescape_flatMap s t env.content (b.offset + 1)
    (b.offset + 1 + (s.flatMap escaped).length) ((s.flatMap escaped).length + 1 - n + 1)
    ((s.flatMap escaped).length + 1) [] hmove rfl (by rw [List.length_nil]; omega) (by omega)
  refine ⟨{ b₁ with offset := b.offset + 1 + (s.flatMap escaped).length + 1 }, ?_, ?_, hdepth⟩
  · rw [parseString, hquote]
    simp only [Option.bind_eq_bind, Option.bind_some, ne_eq, not_true_eq_false, if_false, hmove,
      hn, hb₁, hoffset, hloop, List.nil_append]
  · rw [quoted, List.length_cons, List.length_append, List.length_singleton]
    dsimp only
    omega

end Strings

section Numbers

/-- A text that `parse_number` takes as a whole -/
structure IsNumeral (text : CStr) : Prop where
  length_lt : text.length < 26
  letters : ∀ c ∈ text, isNumberChar c = true
  whole : numeralLen text = text.length
  head : ∃ c rest, text = c :: rest ∧ (c = 45 ∨ isDigit c = true)

/-- What is documented for `%1.15g` and `%1.17g`: a finite `double` is printed as a numeral. -/
structure Numerals (numbers : Printing D) : Prop extends CJsonText.Fits numbers where
  g15_numeral : ∀ d, numbers.isFinite d = true → IsNumeral (numbers.g15 d)
  g17_numeral : ∀ d, numbers.isFinite d = true → IsNumeral (numbers.g17 d)

/-- What stands behind a number does not belong to it. -/
def Follows (t : List UInt8) : Prop := ∀ c, t.head? = some c → isNumberChar c = false

theorem isNumberChar_of_isDigit (h : isDigit c = true) : isNumberChar c = true := by
  simp [isNumberChar, h]

theorem digitsLen_of_digits (h : ∀ c ∈ s, isDigit c = true) : digitsLen s = s.length := by
  rw [digitsLen, List.takeWhile_eq_self_iff.mpr h]

theorem numeralLen_of_digits (h : ∀ c ∈ s, isDigit c = true) (hs : s ≠ []) :
    numeralLen s = s.length ∧ numeralLen (45 :: s) = s.length + 1 := by
  have hpos := List.length_pos_of_ne_nil hs
  have hlen := digitsLen_of_digits h
  have hsign : signLen s = 0 := by
    cases s with
    | nil => exact absurd rfl hs
    | cons d s =>
      have hd := h d List.mem_cons_self
      rw [signLen, if_neg]
      rintro (heq | heq) <;> cases heq <;> cases hd
  have hmantissa : mantissaLen s = s.length := by
    simp only [mantissaLen, hsign, List.drop_zero, hlen, Nat.zero_add, List.drop_length,
      List.head?_nil, reduceCtorEq, if_false, Nat.add_zero]
    rw [if_neg (by omega)]
  have hnegative : mantissaLen (45 :: s) = s.length + 1 := by
    have hminus : signLen (45 :: s) = 1 := rfl
    have hdrop : (45 :: s).drop (1 + s.length) = [] :=
      List.drop_eq_nil_of_le (by rw [List.length_cons, Nat.add_comm])
    simp only [mantissaLen, hminus, List.drop_succ_cons, List.drop_zero, hlen, hdrop,
      List.head?_nil, reduceCtorEq, if_false, Nat.add_zero]
    rw [if_neg (by omega), Nat.add_comm]
  constructor
  · rw [numeralLen, if_neg (by omega), hmantissa, List.drop_length]
    rfl
  · rw [numeralLen, if_neg (by omega), hnegative,
      show s.length + 1 = (45 :: s).length from rfl, List.drop_length]
    rfl

theorem repr_ne_nil (n : Nat) : cstr n.repr ≠ [] := by
  intro h
  have hlength := length_cstr n.repr
  have hpos : 0 < n.repr.length := Nat.length_repr_pos
  rw [h, List.length_nil] at hlength
  omega

theorem decimal_numeral (n : Int32) : IsNumeral (decimal n) := by
  have hlength : (decimal n).length < 26 := (decimal_length n).2.trans_lt (by decide)
  have hletters : ∀ c ∈ decimal n, isNumberChar c = true := by
    intro c hc
    rcases PrintedNumbers.decimal_bytes n c hc with rfl | hd
    · rfl
    · exact isNumberChar_of_isDigit hd
  rcases lt_or_ge n.toInt 0 with hneg | hpos
  · have hdigits := PrintedNumbers.repr_digits (-n.toInt).toNat
    have hnil := repr_ne_nil (-n.toInt).toNat
    rw [PrintedNumbers.decimal_of_neg hneg] at hlength hletters ⊢
    exact ⟨hlength, hletters, (numeralLen_of_digits hdigits hnil).2, _, _, rfl, Or.inl rfl⟩
  · have hdigits := PrintedNumbers.repr_digits n.toInt.toNat
    have hnil := repr_ne_nil n.toInt.toNat
    rw [PrintedNumbers.decimal_of_nonneg hpos] at hlength hletters ⊢
    refine ⟨hlength, hletters, (numeralLen_of_digits hdigits hnil).1, ?_⟩
    obtain ⟨c, rest, hcons⟩ := List.exists_cons_of_ne_nil hnil
    exact ⟨c, rest, hcons, Or.inr (hdigits c (hcons ▸ List.mem_cons_self))⟩

theorem Numerals.numberText {numbers : Printing D} (h : Numerals numbers) {d : D} (i : Int32)
    (hd : numbers.isFinite d = true) : IsNumeral (numberText numbers d i) := by
  rw [CJsonPrint.numberText, hd, Bool.not_true, if_neg Bool.false_ne_true]
  split_ifs
  · exact decimal_numeral i
  · cases numbers.sscanf (numbers.g15 d) with
    | none => exact h.g17_numeral d hd
    | some test =>
      dsimp only
      split_ifs
      · exact h.g15_numeral d hd
      · exact h.g17_numeral d hd

theorem parseNumber_numeral {text : CStr} (hnumeral : IsNumeral text)
    (h : rest env b = text ++ t) (ht : Follows t) :
    parseNumber env b = (some (.number (env.doubles.strtod text)
      (saturate env.doubles (env.doubles.strtod text))), b.move text.length) := by
  obtain ⟨hlength, hletters, hwhole, c, r, hcons, -⟩ := hnumeral
  have htext : ((rest env b).take 63).takeWhile isNumberChar = text := by
    rw [h, List.take_append, List.take_of_length_le (by omega),
      List.takeWhile_append_of_pos hletters]
    cases t with
    | nil => rw [List.take_nil, List.takeWhile_nil, List.append_nil]
    | cons d t =>
      have hd := ht d rfl
      obtain ⟨k, hk⟩ : ∃ k, 63 - text.length = k + 1 := ⟨63 - text.length - 1, by omega⟩
      rw [hk, List.take_succ_cons, List.takeWhile_cons_of_neg (by rw [hd]; decide),
        List.append_nil]
  have hpos : text.length ≠ 0 := by
    rw [hcons]
    exact Nat.succ_ne_zero _
  rw [parseNumber]
  simp only [htext, hwhole, if_neg hpos, List.take_length]

end Numbers

section Values
variable {fuel : Nat}

theorem parseValue_literal {literal : String} {item : Item D} {k : Nat}
    (h : rest env b = cstr literal ++ t) (hk : (cstr literal).length = k)
    (hcases : literal = "null" ∧ item = .null ∨ literal = "false" ∧ item = .bool false ∨
      literal = "true" ∧ item = .bool true) :
    parseValue env (fuel + 1) b = some (some item, b.move k) := by
  have hstart : startsWith env b literal = true := by
    rw [startsWith, h]
    exact List.isPrefixOf_iff_prefix.mpr (List.prefix_append _ _)
  rw [parseValue]
  rcases hcases with ⟨rfl, rfl⟩ | ⟨rfl, rfl⟩ | ⟨rfl, rfl⟩
  · rw [if_pos hstart, ← hk]
    rfl
  · rw [startsWith_ne rfl h (by decide), if_neg Bool.false_ne_true, if_pos hstart, ← hk]
    rfl
  · rw [startsWith_ne rfl h (by decide), if_neg Bool.false_ne_true,
      startsWith_ne rfl h (by decide), if_neg Bool.false_ne_true, if_pos hstart, ← hk]
    rfl

/-- The branch of `parse_value` for an item that is no literal -/
theorem parseValue_cons (h : rest env b = c :: t) (hn : c ≠ 110) (hf : c ≠ 102) (ht : c ≠ 116) :
    parseValue env (fuel + 1) b =
      if c = 34 then (parseString env b).map fun r => (r.1.map .string, r.2)
      else if c = 45 ∨ 48 ≤ c ∧ c ≤ 57 then some (parseNumber env b)
      else if c = 91 then parseArray env fuel b
      else if c = 123 then parseObject env fuel b
      else some (none, b) := by
  rw [parseValue, startsWith_ne rfl h hn, if_neg Bool.false_ne_true, startsWith_ne rfl h hf,
    if_neg Bool.false_ne_true, startsWith_ne rfl h ht, if_neg Bool.false_ne_true,
    first_of_rest h]
  dsimp only
  congr 1
  cases parseString env b <;> rfl

variable {numbers : Printing D} {format : Bool}

theorem render_head (h : Numerals numbers) (indent : Nat) (item : Item D) :
    ∃ c r, render numbers format indent item = c :: r ∧ ¬c ≤ 32 ∧ c ≠ 93 ∧ c ≠ 0xEF := by
  cases item with
  | null => exact ⟨110, [117, 108, 108], rfl, by decide, by decide, by decide⟩
  | bool b =>
    cases b
    · exact ⟨102, [97, 108, 115, 101], rfl, by decide, by decide, by decide⟩
    · exact ⟨116, [114, 117, 101], rfl, by decide, by decide, by decide⟩
  | number d i =>
    rw [render]
    by_cases hd : numbers.isFinite d = true
    · obtain ⟨c, r, hcons, hc⟩ := (h.numberText i hd).head
      refine ⟨c, r, hcons, ?_⟩
      rcases hc with rfl | hdigit
      · exact ⟨by decide, by decide, by decide⟩
      · refine ⟨fun hle => ?_, (by rintro rfl; cases hdigit), (by rintro rfl; cases hdigit)⟩
        rw [isDigit, Bool.and_eq_true, decide_eq_true_eq] at hdigit
        exact absurd (UInt8.le_trans hdigit.1 hle) (by decide)
    · rw [numberText, Bool.eq_false_iff.mpr hd, Bool.not_false, if_pos rfl]
      exact ⟨110, [117, 108, 108], rfl, by decide, by decide, by decide⟩
  | string s =>
    rw [render]
    exact ⟨34, _, rfl, by decide, by decide, by decide⟩
  | array child =>
    rw [render]
    exact ⟨91, _, rfl, by decide, by decide, by decide⟩
  | object child =>
    rw [render]
    cases format
    · exact ⟨123, _, rfl, by decide, by decide, by decide⟩
    · exact ⟨123, _, rfl, by decide, by decide, by decide⟩

/-- `parse_value` reads the text of the item, wherever it stands. -/
def Rereads (env : Env D) (numbers : Printing D) (format : Bool) (item : Item D) : Prop :=
  ∀ indent fuel b tail, rest env b = render numbers format indent item ++ tail → Follows tail →
    b.depth + item.nesting ≤ nestingLimit →
    3 * (render numbers format indent item).length ≤ fuel →
    ∃ b', parseValue env fuel b = some (some (reread numbers item), b') ∧
      b'.offset = b.offset + (render numbers format indent item).length ∧ b'.depth = b.depth

theorem follows_cons (h : isNumberChar c = false) : Follows (c :: t) := by
  rintro _ ⟨⟩
  exact h

theorem not_isNumberChar_of_le (h : c ≤ 32) : isNumberChar c = false :=
  @forall_byte (fun c => c ≤ 32 → isNumberChar c = false) (by decide +kernel) c h

theorem follows_white (h : ∀ w ∈ ws, w ≤ 32) : Follows (ws ++ 125 :: t) := by
  cases ws with
  | nil => exact follows_cons (by decide)
  | cons w ws => exact follows_cons (not_isNumberChar_of_le (h w List.mem_cons_self))

theorem white_formatted {bytes : List UInt8} (h : ∀ w ∈ bytes, w ≤ 32) :
    ∀ w ∈ formatted format bytes [], w ≤ 32 := by
  cases format with
  | true => exact h
  | false => exact fun _ hw => by cases hw

theorem white_tabs (depth : Nat) : ∀ w ∈ tabs format depth, w ≤ 32 := by
  refine white_formatted fun w hw => ?_
  rw [List.eq_of_mem_replicate hw]
  decide

end Values

end CJsonRoundTrip
