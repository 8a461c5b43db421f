import LinuxBuild.CJsonPrint
import LinuxBuild.PrintedNumbers

/-!
# The text of an item

What the printer is to write, without its buffer: the text for an item at a depth, with and
without format.
-/
namespace CJsonText
open CString CJsonParse CJsonPrint

variable {D : Type}

/-- Arrays by their items and objects by the items of their members -/
@[elab_as_elim]
theorem item_induction {P : Item D → Prop} (null : P .null) (bool : ∀ b, P (.bool b))
    (number : ∀ d i, P (.number d i)) (string : ∀ s, P (.string s))
    (array : ∀ child, (∀ item ∈ child, P item) → P (.array child))
    (object : ∀ child, (∀ member ∈ child, P member.2) → P (.object child)) (item : Item D) :
    P item := by
  refine @Item.rec D P (fun child => ∀ item ∈ child, P item)
    (fun child => ∀ member ∈ child, P member.2) (fun member => P member.2) null bool number string
    array object ?_ ?_ ?_ ?_ ?_ item
  · intro item hitem
    cases hitem
  · intro head tail hhead htail item hitem
    rcases List.mem_cons.mp hitem with rfl | hmem
    · exact hhead
    · exact htail item hmem
  · intro member hmember
    cases hmember
  · intro head tail hhead htail member hmember
    rcases List.mem_cons.mp hmember with rfl | hmem
    · exact hhead
    · exact htail member hmem
  · intro name item hitem
    exact hitem

/-- A byte of a string -/
def escaped (c : UInt8) : CStr :=
  if 31 < c ∧ c ≠ 34 ∧ c ≠ 92 then [c]
  else 92 :: ((escapeLetter c).map fun e => [e]).getD (unicodeEscape c)

def quoted (s : CStr) : CStr := 34 :: (s.flatMap escaped ++ [34])

mutual
def render (numbers : Printing D) (format : Bool) : Nat → Item D → CStr
  | _, .null => cstr "null"
  | _, .bool false => cstr "false"
  | _, .bool true => cstr "true"
  | _, .number valuedouble valueint => numberText numbers valuedouble valueint
  | _, .string valuestring => quoted (cstringAt (valuestring ++ [0]))
  | depth, .array child => 91 :: (renderItems numbers format (depth + 1) child ++ [93])
  | depth, .object child => formatted format [123, 10] [123] ++
      renderMembers numbers format (depth + 1) child ++ tabs format depth ++ [125]

def renderItems (numbers : Printing D) (format : Bool) : Nat → List (Item D) → CStr
  | _, [] => []
  | depth, item :: items => render numbers format depth item ++
      (if items.isEmpty then [] else formatted format [44, 32] [44]) ++
        renderItems numbers format depth items

def renderMembers (numbers : Printing D) (format : Bool) :
    Nat → List (List UInt8 × Item D) → CStr
  | _, [] => []
  | depth, (name, item) :: members => tabs format depth ++ quoted (cstringAt (name ++ [0])) ++
      formatted format [58, 9] [58] ++ render numbers format depth item ++
        ((if members.isEmpty then [] else [44]) ++ formatted format [10] []) ++
          renderMembers numbers format depth members
end

section Strings
variable {c : UInt8} {s : CStr}

theorem escapeLetter_eq_none (h : 31 < c ∧ c ≠ 34 ∧ c ≠ 92) : escapeLetter c = none := by
  obtain ⟨hlow, hquote, hback⟩ := h
  rw [escapeLetter, if_neg hquote, if_neg hback]
  rw [if_neg, if_neg, if_neg, if_neg, if_neg]
  all_goals
    rintro rfl
    exact absurd hlow (by decide)

/-- The first loop counts what the second writes. -/
theorem length_escaped (c : UInt8) : (escaped c).length = 1 + escapeCost c := by
  rw [escaped, escapeCost]
  by_cases hplain : 31 < c ∧ c ≠ 34 ∧ c ≠ 92
  · have hhigh : ¬c < 32 := by
      intro hlt
      have h := hplain.1
      rw [UInt8.lt_iff_toNat_lt] at h hlt
      change 31 < c.toNat at h
      change c.toNat < 32 at hlt
      omega
    rw [if_pos hplain, escapeLetter_eq_none hplain, if_neg (by simp), if_neg hhigh]
    rfl
  · rw [if_neg hplain]
    cases hletter : escapeLetter c with
    | some e => rfl
    | none =>
      have hlow : c < 32 := by
        by_contra hge
        refine hplain ⟨?_, ?_, ?_⟩
        · rw [UInt8.lt_iff_toNat_lt] at hge ⊢
          change ¬c.toNat < 32 at hge
          change 31 < c.toNat
          omega
        · rintro rfl
          cases hletter
        · rintro rfl
          cases hletter
      rw [if_neg (by simp), if_pos hlow]
      rfl

theorem escapeCharacters_cons (c : UInt8) (s : CStr) :
    escapeCharacters (c :: s) = escapeCost c + escapeCharacters s := by
  rw [escapeCharacters, List.map_cons, List.sum_cons, escapeCharacters]

theorem length_flatMap_escaped (s : CStr) :
    (s.flatMap escaped).length = s.length + escapeCharacters s := by
  induction s with
  | nil => rfl
  | cons c s ih =>
    rw [List.flatMap_cons, List.length_append, ih, length_escaped, escapeCharacters_cons,
      List.length_cons]
    omega

theorem length_quoted (s : CStr) :
    (quoted s).length = s.length + escapeCharacters s + 2 := by
  rw [quoted, List.length_cons, List.length_append, length_flatMap_escaped, List.length_singleton]

/-- A string without escapes is copied as it is. -/
theorem flatMap_escaped_of_cost (h : escapeCharacters s = 0) : s.flatMap escaped = s := by
  induction s with
  | nil => rfl
  | cons c s ih =>
    rw [escapeCharacters_cons] at h
    have hcost : escapeCost c = 0 := by omega
    rw [List.flatMap_cons, ih (by omega)]
    have hlength := length_escaped c
    rw [hcost, escaped] at hlength
    rw [escaped]
    split_ifs at hlength ⊢ with hplain
    · rfl
    · cases hletter : escapeLetter c with
      | some e => simp [hletter] at hlength
      | none => simp [hletter, unicodeEscape] at hlength

theorem forall_byte {P : UInt8 → Prop} (h : ∀ n : Fin 256, P (UInt8.ofNat n)) (c : UInt8) :
    P c := by
  have hc := h ⟨c.toNat, c.toNat_lt⟩
  rwa [UInt8.ofNat_toNat] at hc

theorem nul_notMem_escaped (c : UInt8) : 0 ∉ escaped c :=
  @forall_byte (fun c => 0 ∉ escaped c) (by decide +kernel) c

theorem nul_notMem_quoted (s : CStr) : 0 ∉ quoted s := by
  rw [quoted]
  intro hmem
  rcases List.mem_cons.mp hmem with heq | hmem
  · cases heq
  rcases List.mem_append.mp hmem with hmem | hmem
  · obtain ⟨c, -, hnul⟩ := List.mem_flatMap.mp hmem
    exact nul_notMem_escaped c hnul
  · cases List.mem_singleton.mp hmem

end Strings

section Values
variable {numbers : Printing D} {format : Bool}

/-- What is documented for the formats of a `double`: their texts fit the 26 bytes. -/
structure Fits (numbers : Printing D) : Prop where
  g15 : ∀ d, (numbers.g15 d).length < 26 ∧ 0 ∉ numbers.g15 d
  g17 : ∀ d, (numbers.g17 d).length < 26 ∧ 0 ∉ numbers.g17 d

theorem decimal_fits (n : Int32) : (decimal n).length < 26 ∧ 0 ∉ decimal n := by
  refine ⟨(decimal_length n).2.trans_lt (by decide), ?_⟩
  intro hmem
  rcases PrintedNumbers.decimal_bytes n 0 hmem with h | h <;> cases h

theorem Fits.numberText (h : Fits numbers) (d : D) (i : Int32) :
    (numberText numbers d i).length < 26 ∧ 0 ∉ numberText numbers d i := by
  rw [CJsonPrint.numberText]
  split_ifs
  · exact ⟨by decide, by decide⟩
  · exact decimal_fits i
  · cases numbers.sscanf (numbers.g15 d) with
    | none => exact h.g17 d
    | some test =>
      dsimp only
      split_ifs
      · exact h.g15 d
      · exact h.g17 d

/-- Whole numbers in the place of the `double` values -/
def wholeNumbers : Printing Int32 where
  strtod := atoi
  geIntMax := (· = Int32.maxValue)
  leIntMin := (· = Int32.minValue)
  toInt := id
  isFinite := fun _ => true
  equalsInt := (· = ·)
  g15 := decimal
  g17 := decimal
  sscanf := fun s => some (atoi s)
  compareDouble := (· = ·)

theorem wholeNumbers_fits : Fits wholeNumbers := ⟨decimal_fits, decimal_fits⟩

theorem nul_notMem_formatted {bytes plain : List UInt8} (hbytes : 0 ∉ bytes) (hplain : 0 ∉ plain) :
    0 ∉ formatted format bytes plain := by
  cases format with
  | true => exact hbytes
  | false => exact hplain

theorem nul_notMem_tabs (depth : Nat) : 0 ∉ tabs format depth := by
  refine nul_notMem_formatted (fun h => ?_) List.not_mem_nil
  cases List.eq_of_mem_replicate h

theorem nul_notMem_render (h : Fits numbers) (item : Item D) (depth : Nat) :
    0 ∉ render numbers format depth item := by
  induction item using item_induction generalizing depth with
  | null =>
    rw [render]
    decide
  | bool b => cases b <;> rw [render] <;> decide
  | number d i =>
    rw [render]
    exact (h.numberText d i).2
  | string s =>
    rw [render]
    exact nul_notMem_quoted _
  | array child ih =>
    have hitems : 0 ∉ renderItems numbers format (depth + 1) child := by
      induction child with
      | nil =>
        rw [renderItems]
        exact List.not_mem_nil
      | cons item items hrest =>
        rw [renderItems]
        simp only [List.mem_append, not_or]
        refine ⟨⟨ih item List.mem_cons_self (depth + 1), ?_⟩,
          hrest fun i hi => ih i (List.mem_cons_of_mem _ hi)⟩
        split_ifs
        · exact List.not_mem_nil
        · exact nul_notMem_formatted (by decide) (by decide)
    rw [render]
    simp [hitems]
  | object child ih =>
    have hmembers : 0 ∉ renderMembers numbers format (depth + 1) child := by
      induction child with
      | nil =>
        rw [renderMembers]
        exact List.not_mem_nil
      | cons member members hrest =>
        obtain ⟨name, item⟩ := member
        rw [renderMembers]
        simp only [List.mem_append, not_or]
        refine ⟨⟨⟨⟨⟨nul_notMem_tabs _, nul_notMem_quoted _⟩, ?_⟩,
          ih (name, item) List.mem_cons_self (depth + 1)⟩, ?_, ?_⟩,
          hrest fun m hm => ih m (List.mem_cons_of_mem _ hm)⟩
        · exact nul_notMem_formatted (by decide) (by decide)
        · split_ifs <;> decide
        · exact nul_notMem_formatted (by decide) (by decide)
    rw [render]
    simp only [List.mem_append, not_or]
    exact ⟨⟨⟨nul_notMem_formatted (by decide) (by decide), hmembers⟩, nul_notMem_tabs _⟩,
      by decide⟩

end Values

end CJsonText
