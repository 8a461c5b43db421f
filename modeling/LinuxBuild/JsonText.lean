import Mathlib.Data.List.Basic
import Mathlib.Data.UInt

/-!
# JSON texts

A reader for JSON texts as bytes. A string is read byte by byte: a byte is taken as it is,
or belongs to an escape sequence. The values are read under a bound on their depth and
number, so a text denotes a value when it is read under some bound.
-/
namespace JsonText

/-- Where the reader stands inside a string. -/
inductive LitState where
  | plain
  | escape
  | hex (high : Option Nat) (left acc : Nat)
  | high (h : Nat)
  | highEscape (h : Nat)
  deriving DecidableEq

/-- The character of an escape sequence of two bytes. -/
def shortEscape (c : UInt8) : Option UInt8 :=
  if c = 34 then some 34 else if c = 92 then some 92 else if c = 47 then some 47
  else if c = 98 then some 8 else if c = 102 then some 12 else if c = 110 then some 10
  else if c = 114 then some 13 else if c = 116 then some 9 else none

def hexDigit (c : UInt8) : Option Nat :=
  if 48 ≤ c ∧ c ≤ 57 then some (c.toNat - 48)
  else if 65 ≤ c ∧ c ≤ 70 then some (c.toNat - 55)
  else if 97 ≤ c ∧ c ≤ 102 then some (c.toNat - 87) else none

def utf8 (n : Nat) : List UInt8 := String.utf8EncodeChar (Char.ofNat n)

/-- Four digits are a character, or the first or the second half of one. -/
def codeUnit (high : Option Nat) (unit : Nat) : Option (LitState × List UInt8) :=
  match high with
  | none =>
    if 0xD800 ≤ unit ∧ unit < 0xDC00 then some (.high unit, [])
    else if 0xDC00 ≤ unit ∧ unit < 0xE000 then none
    else some (.plain, utf8 unit)
  | some h =>
    if 0xDC00 ≤ unit ∧ unit < 0xE000 then
      some (.plain, utf8 (0x10000 + (h - 0xD800) * 0x400 + (unit - 0xDC00)))
    else none

/-- One byte of a string that does not close it, and what it adds to the value. -/
def litStep : LitState → UInt8 → Option (LitState × List UInt8)
  | .plain, c =>
    if c = 92 then some (.escape, []) else if c < 32 then none else some (.plain, [c])
  | .escape, c =>
    if c = 117 then some (.hex none 4 0, []) else (shortEscape c).map fun b => (.plain, [b])
  | .hex high left acc, c => do
    let d ← hexDigit c
    if left ≤ 1 then codeUnit high (acc * 16 + d)
    else some (.hex high (left - 1) (acc * 16 + d), [])
  | .high h, c => if c = 92 then some (.highEscape h, []) else none
  | .highEscape h, c => if c = 117 then some (.hex (some h) 4 0, []) else none

/-- The value of the string up to its closing quote, and the text behind that. -/
def literal : LitState → List UInt8 → Option (List UInt8 × List UInt8)
  | _, [] => none
  | q, c :: s =>
    if q = .plain ∧ c = 34 then some ([], s)
    else do
      let (q, out) ← litStep q c
      let (v, rest) ← literal q s
      some (out ++ v, rest)

/-- Bytes that stand for themselves in a string. -/
def Plain (c : UInt8) : Prop := 32 ≤ c ∧ c ≠ 34 ∧ c ≠ 92

instance : DecidablePred Plain := fun c => inferInstanceAs (Decidable (32 ≤ c ∧ c ≠ 34 ∧ c ≠ 92))

theorem litStep_plain {c : UInt8} (h : Plain c) : litStep .plain c = some (.plain, [c]) := by
  have hlt : ¬ c < 32 := UInt8.not_lt.mpr h.1
  rw [litStep, if_neg h.2.2, if_neg hlt]

/-- Plain bytes are read as they are. -/
theorem literal_plain {v : List UInt8} (h : ∀ c ∈ v, Plain c) (rest : List UInt8) :
    literal .plain (v ++ 34 :: rest) = some (v, rest) := by
  induction v with
  | nil => rfl
  | cons c v ih =>
    have hc := h c List.mem_cons_self
    have hnot : ¬ (LitState.plain = .plain ∧ c = 34) := fun hquote => hc.2.1 hquote.2
    rw [List.cons_append, literal, if_neg hnot, litStep_plain hc]
    have hrest := ih fun b hb => h b (List.mem_cons_of_mem _ hb)
    simp only [Option.bind_eq_bind, Option.bind_some, hrest]
    rfl

/-- Bytes of a string none of which closes it. -/
def feed : LitState → List UInt8 → Option (LitState × List UInt8)
  | q, [] => some (q, [])
  | q, c :: s =>
    if q = .plain ∧ c = 34 then none
    else do
      let (q, out) ← litStep q c
      let (q, v) ← feed q s
      some (q, out ++ v)

/-- The bytes that a state has taken in and may still give back. -/
def LitState.credit : LitState → Nat
  | .hex _ left _ => 4 - left
  | _ => 0

section Feed
variable {q q' : LitState} {c : UInt8} {s t out v rest : List UInt8}

theorem feed_cons_eq_some_iff : feed q (c :: s) = some (q', v) ↔
    ¬ (q = .plain ∧ c = 34) ∧ ∃ r out w, litStep q c = some (r, out) ∧
      feed r s = some (q', w) ∧ v = out ++ w := by
  rw [feed]
  split_ifs with hquote
  · simp [hquote]
  · simp only [Option.bind_eq_bind, Option.bind_eq_some_iff, Option.some.injEq, Prod.mk.injEq,
      Prod.exists, hquote, not_false_eq_true, true_and]
    constructor
    · rintro ⟨r, out, hstep, _, w, hfeed, rfl, rfl⟩
      exact ⟨r, out, w, hstep, hfeed, rfl⟩
    · rintro ⟨r, out, w, hstep, hfeed, rfl⟩
      exact ⟨r, out, hstep, q', w, hfeed, rfl, rfl⟩

/-- A string either closes inside a piece of the text or goes on behind it. -/
theorem literal_append (h : literal q (s ++ t) = some (v, rest)) :
    (∃ s₁ s₂, s = s₁ ++ 34 :: s₂ ∧ feed q s₁ = some (.plain, v)) ∨
      ∃ q' out w, feed q s = some (q', out) ∧ literal q' t = some (w, rest) ∧ v = out ++ w := by
  induction s generalizing q v with
  | nil => exact Or.inr ⟨q, [], v, rfl, h, rfl⟩
  | cons c s ih =>
    rw [List.cons_append, literal] at h
    split_ifs at h with hquote
    · cases h
      exact Or.inl ⟨[], s, by rw [hquote.2]; rfl, by rw [hquote.1]; rfl⟩
    · obtain ⟨⟨r, out⟩, hstep, h⟩ := Option.bind_eq_some_iff.mp h
      obtain ⟨⟨w, rest'⟩, hlit, h⟩ := Option.bind_eq_some_iff.mp h
      cases h
      rcases ih hlit with ⟨s₁, s₂, rfl, hfeed⟩ | ⟨q', out', w', hfeed, hlit', rfl⟩
      · exact Or.inl ⟨c :: s₁, s₂, rfl,
          feed_cons_eq_some_iff.mpr ⟨hquote, r, out, w, hstep, hfeed, rfl⟩⟩
      · exact Or.inr ⟨q', out ++ out', w',
          feed_cons_eq_some_iff.mpr ⟨hquote, r, out, out', hstep, hfeed, rfl⟩, hlit',
          (List.append_assoc _ _ _).symm⟩

theorem codeUnit_length {high : Option Nat} {unit : Nat}
    (h : codeUnit high unit = some (q', out)) : out.length + q'.credit ≤ 4 := by
  have hutf8 : ∀ n, (utf8 n).length ≤ 4 := by
    intro n
    rw [utf8, String.length_utf8EncodeChar]
    exact Char.utf8Size_le_four _
  simp only [codeUnit] at h
  split at h
  · split_ifs at h
    · obtain ⟨rfl, rfl⟩ := Prod.mk.inj (Option.some.inj h)
      exact Nat.zero_le _
    · obtain ⟨rfl, rfl⟩ := Prod.mk.inj (Option.some.inj h)
      exact hutf8 _
  · split_ifs at h
    obtain ⟨rfl, rfl⟩ := Prod.mk.inj (Option.some.inj h)
    rw [LitState.credit, Nat.add_zero]
    · exact hutf8 _
    · exact fun _ _ _ h => LitState.noConfusion h

/-- One byte gives back no more than it and the credit before it. -/
theorem litStep_length (h : litStep q c = some (q', out)) :
    out.length + q'.credit ≤ q.credit + 1 := by
  cases q with
  | plain =>
    simp only [litStep] at h
    split_ifs at h <;> cases h <;> simp [LitState.credit]
  | escape =>
    simp only [litStep] at h
    split_ifs at h
    · cases h
      exact Nat.zero_le _
    · obtain ⟨b, -, h⟩ := Option.map_eq_some_iff.mp h
      cases h
      exact le_rfl
  | hex high left acc =>
    obtain ⟨d, -, h⟩ := Option.bind_eq_some_iff.mp h
    split_ifs at h with hlast
    · have hlen := codeUnit_length h
      change out.length + q'.credit ≤ 4 - left + 1
      omega
    · cases h
      simp only [LitState.credit, List.length_nil]
      omega
  | high n =>
    simp only [litStep] at h
    split_ifs at h
    cases h
    exact Nat.zero_le _
  | highEscape n =>
    simp only [litStep] at h
    split_ifs at h
    cases h
    exact Nat.zero_le _

theorem feed_length (h : feed q s = some (q', v)) :
    v.length + q'.credit ≤ s.length + q.credit := by
  induction s generalizing q v with
  | nil =>
    cases h
    exact le_rfl
  | cons c s ih =>
    obtain ⟨-, r, out, w, hstep, hfeed, rfl⟩ := feed_cons_eq_some_iff.mp h
    have hout := litStep_length hstep
    have hrest := ih hfeed
    simp only [List.length_append, List.length_cons]
    omega

/-- Bytes that give back as many bytes are plain. -/
theorem plain_of_feed (h : feed .plain s = some (.plain, v)) (hlen : s.length ≤ v.length) :
    v = s ∧ ∀ c ∈ s, Plain c := by
  induction s generalizing v with
  | nil =>
    cases h
    exact ⟨rfl, by simp⟩
  | cons c s ih =>
    obtain ⟨hquote, r, out, w, hstep, hfeed, rfl⟩ := feed_cons_eq_some_iff.mp h
    have hrest := feed_length hfeed
    simp only [litStep] at hstep
    split_ifs at hstep with hescape hcontrol
    · cases hstep
      simp only [LitState.credit, List.nil_append, List.length_cons] at hrest hlen
      omega
    · cases hstep
      obtain ⟨rfl, hplain⟩ := ih hfeed (by simpa using hlen)
      have hc : Plain c := ⟨UInt8.not_lt.mp hcontrol, fun h => hquote ⟨rfl, h⟩, hescape⟩
      exact ⟨rfl, by simpa using ⟨hc, hplain⟩⟩

/-- Only a backslash opens an escape sequence. -/
theorem litStep_escape (h : litStep q c = some (.escape, out)) : c = 92 := by
  cases q with
  | plain =>
    simp only [litStep] at h
    split_ifs at h with hescape
    · exact hescape
    · cases h
  | escape =>
    simp only [litStep] at h
    split_ifs at h
    · cases h
    · obtain ⟨b, -, h⟩ := Option.map_eq_some_iff.mp h
      cases h
  | hex high left acc =>
    obtain ⟨d, -, h⟩ := Option.bind_eq_some_iff.mp h
    split_ifs at h
    · cases high with
      | none =>
        simp only [codeUnit] at h
        split_ifs at h <;> exact absurd (Prod.mk.inj (Option.some.inj h)).1 (by simp)
      | some n =>
        simp only [codeUnit] at h
        split_ifs at h
        exact absurd (Prod.mk.inj (Option.some.inj h)).1 (by simp)
    · cases h
  | high n =>
    simp only [litStep] at h
    split_ifs at h
    cases h
  | highEscape n =>
    simp only [litStep] at h
    split_ifs at h
    cases h

/-- A text that ends inside an escape sequence of two bytes ends with its backslash. -/
theorem feed_escape (h : feed q s = some (.escape, v)) :
    s = [] ∧ q = .escape ∨ s.getLast? = some 92 := by
  induction s generalizing q v with
  | nil =>
    cases h
    exact Or.inl ⟨rfl, rfl⟩
  | cons c s ih =>
    obtain ⟨-, r, out, w, hstep, hfeed, -⟩ := feed_cons_eq_some_iff.mp h
    rcases ih hfeed with ⟨rfl, rfl⟩ | hlast
    · exact Or.inr (congrArg some (litStep_escape hstep))
    · cases s with
      | nil => cases hlast
      | cons d s => exact Or.inr hlast

/-- In front of `","` a text is read as itself only if it is plain: otherwise it closes too
early, gives back too little, or ends with a backslash where its value ends with a comma. -/
theorem plain_of_literal (h : literal .plain (s ++ 34 :: 44 :: 34 :: t) = some (s, rest)) :
    ∀ c ∈ s, Plain c := by
  rcases literal_append h with ⟨s₁, s₂, heq, hfeed⟩ | ⟨q', out, w, hfeed, hlit, heq⟩
  · have hlen := feed_length hfeed
    have hshort := congrArg List.length heq
    simp only [LitState.credit, List.length_append, List.length_cons] at hlen hshort
    omega
  · cases q' with
    | plain =>
      rw [literal, if_pos ⟨rfl, rfl⟩] at hlit
      cases hlit
      rw [List.append_nil] at heq
      exact (plain_of_feed hfeed (le_of_eq (congrArg List.length heq))).2
    | escape =>
      have hvalue : literal .escape (34 :: 44 :: 34 :: t) = some ([34, 44], t) := rfl
      rw [hvalue] at hlit
      cases hlit
      rcases feed_escape hfeed with ⟨-, hq⟩ | hlast
      · cases hq
      · rw [heq] at hlast
        simp at hlast
    | hex high left acc => cases hlit
    | high n => cases hlit
    | highEscape n => cases hlit

end Feed

/-- A value; a number is kept as it is written. -/
inductive Value where
  | null
  | bool (b : Bool)
  | num (text : List UInt8)
  | str (text : List UInt8)
  | arr (items : List Value)
  | obj (members : List (List UInt8 × Value))

def isSpace (c : UInt8) : Bool := c == 32 || c == 9 || c == 10 || c == 13

def skipSpace (s : List UInt8) : List UInt8 := s.dropWhile isSpace

def isDigit (c : UInt8) : Bool := 48 ≤ c && c ≤ 57

/-- At least one digit, and the text behind the digits. -/
def digits (s : List UInt8) : Option (List UInt8 × List UInt8) :=
  let d := s.takeWhile isDigit
  if d = [] then none else some (d, s.dropWhile isDigit)

/-- A part of a number that starts with one of these letters, if it is there. -/
def numberPart (letters : List UInt8) (body : List UInt8 → Option (List UInt8 × List UInt8)) :
    List UInt8 → Option (List UInt8 × List UInt8)
  | [] => some ([], [])
  | c :: s => if c ∈ letters then (body s).map fun r => (c :: r.1, r.2) else some ([], c :: s)

def exponent : List UInt8 → Option (List UInt8 × List UInt8)
  | [] => none
  | c :: s =>
    if c = 43 ∨ c = 45 then (digits s).map fun r => (c :: r.1, r.2) else digits (c :: s)

/-- An integer without a leading zero, and perhaps a fraction and an exponent. -/
def unsignedNumber (s : List UInt8) : Option (List UInt8 × List UInt8) := do
  let (whole, s) ← digits s
  if whole.head? = some 48 ∧ whole.length ≠ 1 then none
  else do
    let (fraction, s) ← numberPart [46] digits s
    let (exp, s) ← numberPart [101, 69] exponent s
    some (whole ++ fraction ++ exp, s)

def number : List UInt8 → Option (List UInt8 × List UInt8)
  | 45 :: s => (unsignedNumber s).map fun r => (45 :: r.1, r.2)
  | s => unsignedNumber s

/-- The values that are neither strings nor made of other values. -/
def scalar (s : List UInt8) : Option (Value × List UInt8) :=
  if [110, 117, 108, 108] <+: s then some (.null, s.drop 4)
  else if [116, 114, 117, 101] <+: s then some (.bool true, s.drop 4)
  else if [102, 97, 108, 115, 101] <+: s then some (.bool false, s.drop 5)
  else (number s).map fun r => (.num r.1, r.2)

mutual

/-- The value in front of a text, behind white space, and the text behind it. -/
def value : Nat → List UInt8 → Option (Value × List UInt8)
  | 0, _ => none
  | fuel + 1, s =>
    match skipSpace s with
    | [] => none
    | c :: s =>
      if c = 34 then (literal .plain s).map fun r => (.str r.1, r.2)
      else if c = 123 then
        if (skipSpace s).head? = some 125 then some (.obj [], (skipSpace s).tail)
        else (members fuel s).map fun r => (.obj r.1, r.2)
      else if c = 91 then
        if (skipSpace s).head? = some 93 then some (.arr [], (skipSpace s).tail)
        else (elements fuel s).map fun r => (.arr r.1, r.2)
      else scalar (c :: s)

/-- The members of an object up to its closing brace. -/
def members : Nat → List UInt8 → Option (List (List UInt8 × Value) × List UInt8)
  | 0, _ => none
  | fuel + 1, s =>
    match skipSpace s with
    | [] => none
    | c :: s =>
      if c = 34 then do
        let (name, s) ← literal .plain s
        match skipSpace s with
        | [] => none
        | c :: s =>
          if c = 58 then do
            let (v, s) ← value fuel s
            match skipSpace s with
            | [] => none
            | c :: s =>
              if c = 44 then (members fuel s).map fun r => ((name, v) :: r.1, r.2)
              else if c = 125 then some ([(name, v)], s) else none
          else none
      else none

/-- The items of an array up to its closing bracket. -/
def elements : Nat → List UInt8 → Option (List Value × List UInt8)
  | 0, _ => none
  | fuel + 1, s => do
    let (v, s) ← value fuel s
    match skipSpace s with
    | [] => none
    | c :: s =>
      if c = 44 then (elements fuel s).map fun r => (v :: r.1, r.2)
      else if c = 93 then some ([v], s) else none

end

/-- The ranges that the bytes behind the first one of a character have to be in. -/
def tailRanges (c : UInt8) : Option (List (UInt8 × UInt8)) :=
  if c ≤ 0x7F then some []
  else if 0xC2 ≤ c ∧ c ≤ 0xDF then some [(0x80, 0xBF)]
  else if c = 0xE0 then some [(0xA0, 0xBF), (0x80, 0xBF)]
  else if c = 0xED then some [(0x80, 0x9F), (0x80, 0xBF)]
  else if 0xE1 ≤ c ∧ c ≤ 0xEF then some [(0x80, 0xBF), (0x80, 0xBF)]
  else if c = 0xF0 then some [(0x90, 0xBF), (0x80, 0xBF), (0x80, 0xBF)]
  else if 0xF1 ≤ c ∧ c ≤ 0xF3 then some [(0x80, 0xBF), (0x80, 0xBF), (0x80, 0xBF)]
  else if c = 0xF4 then some [(0x80, 0x8F), (0x80, 0xBF), (0x80, 0xBF)]
  else none

/-- What a text of UTF-8 characters leaves open. -/
def utf8Rest : List (UInt8 × UInt8) → List UInt8 → Option (List (UInt8 × UInt8))
  | q, [] => some q
  | [], c :: s => do
    let q ← tailRanges c
    utf8Rest q s
  | (low, high) :: q, c :: s => if low ≤ c ∧ c ≤ high then utf8Rest q s else none

/-- The bytes are characters in UTF-8. -/
def ValidUtf8 (s : List UInt8) : Prop := utf8Rest [] s = some []

instance : DecidablePred ValidUtf8 := fun s => inferInstanceAs (Decidable (utf8Rest [] s = some []))

/-- The text is a JSON document of this value. -/
def Denotes (text : List UInt8) (v : Value) : Prop :=
  ValidUtf8 text ∧ ∃ fuel rest, value fuel text = some (v, rest) ∧ skipSpace rest = []

section Utf8
variable {q : List (UInt8 × UInt8)} {s t : List UInt8}

theorem utf8Rest_append (q : List (UInt8 × UInt8)) (s t : List UInt8) :
    utf8Rest q (s ++ t) = (utf8Rest q s).bind fun r => utf8Rest r t := by
  induction s generalizing q with
  | nil => cases q <;> rfl
  | cons c s ih =>
    cases q with
    | nil =>
      simp only [List.cons_append, utf8Rest]
      cases tailRanges c with
      | none => rfl
      | some r => exact ih r
    | cons r q =>
      simp only [List.cons_append, utf8Rest]
      split_ifs
      · exact ih q
      · rfl

/-- No byte of a character behind its first one is ASCII. -/
theorem tailRanges_low {c : UInt8} (h : tailRanges c = some q) : ∀ r ∈ q, 0x80 ≤ r.1 := by
  simp only [tailRanges] at h
  split_ifs at h <;> cases h <;> simp

theorem utf8Rest_low {q' : List (UInt8 × UInt8)} (h : utf8Rest q s = some q')
    (hq : ∀ r ∈ q, 0x80 ≤ r.1) : ∀ r ∈ q', 0x80 ≤ r.1 := by
  induction s generalizing q with
  | nil =>
    cases q <;> cases h <;> exact hq
  | cons c s ih =>
    cases q with
    | nil =>
      obtain ⟨r, hr, h⟩ := Option.bind_eq_some_iff.mp h
      exact ih h (tailRanges_low hr)
    | cons r q =>
      simp only [utf8Rest] at h
      split_ifs at h
      exact ih h fun r hr => hq r (List.mem_cons_of_mem _ hr)

theorem utf8Rest_ascii (h : ∀ c ∈ s, c ≤ 0x7F) : utf8Rest [] s = some [] := by
  induction s with
  | nil => rfl
  | cons c s ih =>
    have hc : tailRanges c = some [] := if_pos (h c List.mem_cons_self)
    simp only [utf8Rest, hc, Option.bind_eq_bind, Option.bind_some]
    exact ih fun b hb => h b (List.mem_cons_of_mem _ hb)

/-- Between ASCII texts only the text in the middle decides about UTF-8. -/
theorem validUtf8_between {a b : List UInt8} (ha : ∀ c ∈ a, c ≤ 0x7F) (hb : ∀ c ∈ b, c ≤ 0x7F)
    (hne : b ≠ []) : ValidUtf8 (a ++ (s ++ b)) ↔ ValidUtf8 s := by
  rw [ValidUtf8, utf8Rest_append, utf8Rest_ascii ha, Option.bind_some, utf8Rest_append, ValidUtf8]
  cases hs : utf8Rest [] s with
  | none => simp
  | some q =>
    rw [Option.bind_some]
    cases q with
    | nil => exact iff_of_true (utf8Rest_ascii hb) rfl
    | cons r q =>
      refine iff_of_false ?_ (by simp)
      obtain ⟨c, t, rfl⟩ := List.exists_cons_of_ne_nil hne
      have hlow := utf8Rest_low hs (by simp) r List.mem_cons_self
      have hc := hb c List.mem_cons_self
      have hnot : ¬ (r.1 ≤ c ∧ c ≤ r.2) := by
        rintro ⟨hle, -⟩
        have habsurd : (0x80 : UInt8) ≤ 0x7F := UInt8.le_trans hlow (UInt8.le_trans hle hc)
        exact absurd habsurd (by decide)
      rw [utf8Rest, if_neg hnot]
      exact (Option.some_ne_none _).symm

end Utf8

section Members
variable {fuel : Nat} {name s rest : List UInt8}

theorem skipSpace_cons {c : UInt8} (h : isSpace c = false) (s : List UInt8) :
    skipSpace (c :: s) = c :: s := by
  rw [skipSpace, List.dropWhile_cons, h]
  rfl

/-- What a member starts with: its plain name, the colon and the quote of its value. -/
def memberHead (name : List UInt8) : List UInt8 := 34 :: (name ++ [34, 58, 34])

theorem value_string (s : List UInt8) :
    value (fuel + 1) (34 :: s) = (literal .plain s).map fun r => (.str r.1, r.2) := by
  rw [value, skipSpace_cons rfl]
  rfl

/-- A member with a plain name goes on with the string that is its value. -/
theorem members_head (hname : ∀ c ∈ name, Plain c) (s : List UInt8) :
    members (fuel + 2) (memberHead name ++ s) = (literal .plain s).bind fun r =>
      match skipSpace r.2 with
      | [] => none
      | c :: s =>
        if c = 44 then (members (fuel + 1) s).map fun l => ((name, .str r.1) :: l.1, l.2)
        else if c = 125 then some ([(name, .str r.1)], s) else none := by
  have hhead : memberHead name ++ s = 34 :: (name ++ 34 :: 58 :: 34 :: s) := by
    simp [memberHead]
  rw [hhead, members, skipSpace_cons rfl]
  simp only [if_true, literal_plain hname, Option.bind_eq_bind, Option.bind_some,
    skipSpace_cons (c := 58) rfl, value_string]
  cases literal .plain s with
  | none => rfl
  | some r => rfl

/-- A member with a plain value in front of a comma. -/
theorem members_comma {v : List UInt8} (hname : ∀ c ∈ name, Plain c) (hv : ∀ c ∈ v, Plain c)
    (s : List UInt8) : members (fuel + 2) (memberHead name ++ (v ++ 34 :: 44 :: s)) =
      (members (fuel + 1) s).map fun l => ((name, .str v) :: l.1, l.2) := by
  rw [members_head hname, literal_plain hv, Option.bind_some]
  simp only [skipSpace_cons (c := 44) rfl, if_true]

/-- The last member of an object. -/
theorem members_brace {v : List UInt8} (hname : ∀ c ∈ name, Plain c) (hv : ∀ c ∈ v, Plain c)
    (s : List UInt8) : members (fuel + 2) (memberHead name ++ (v ++ 34 :: 125 :: s)) =
      some ([(name, .str v)], s) := by
  rw [members_head hname, literal_plain hv, Option.bind_some]
  simp only [skipSpace_cons (c := 125) rfl]
  rfl

/-- The value of the first member is the string behind its name. -/
theorem literal_of_members {k : List UInt8} {v : Value} {l : List (List UInt8 × Value)}
    (hname : ∀ c ∈ name, Plain c)
    (h : members fuel (memberHead name ++ s) = some ((k, v) :: l, rest)) :
    ∃ text rest', literal .plain s = some (text, rest') ∧ v = .str text := by
  cases fuel with
  | zero =>
    rw [members] at h
    cases h
  | succ fuel =>
    cases fuel with
    | zero =>
      have hhead : memberHead name ++ s = 34 :: (name ++ 34 :: 58 :: 34 :: s) := by
        simp [memberHead]
      rw [hhead, members, skipSpace_cons rfl] at h
      simp [literal_plain hname, skipSpace_cons (c := 58) rfl, value] at h
    | succ fuel =>
      rw [members_head hname] at h
      obtain ⟨⟨text, rest'⟩, hlit, h⟩ := Option.bind_eq_some_iff.mp h
      refine ⟨text, rest', hlit, ?_⟩
      split at h
      · cases h
      · split_ifs at h
        · obtain ⟨l', -, h⟩ := Option.map_eq_some_iff.mp h
          cases h
          rfl
        · cases h
          rfl

/-- An object with a member is read member by member. -/
theorem value_object (name s : List UInt8) : value (fuel + 1) (123 :: (memberHead name ++ s)) =
    (members fuel (memberHead name ++ s)).map fun r => (.obj r.1, r.2) := by
  have hquote : (skipSpace (memberHead name ++ s)).head? ≠ some 125 := by
    rw [memberHead, List.cons_append, skipSpace_cons rfl, List.head?_cons]
    decide
  rw [value, skipSpace_cons rfl]
  simp only [if_neg hquote]
  rfl

end Members

end JsonText
