import LinuxBuild.CJsonReading

/-!
# The parser takes printed text

The loops of the parser on the texts of arrays and objects, and by induction on the item the
parser on every text that is not nested too deeply.
-/
namespace CJsonRoundTrip
open CString CJsonParse CJsonPrint CJsonText CJsonSafety

variable {D : Type} {env : Env D} {b b' : ParseBuffer} {s t ws : List UInt8} {c : UInt8}
variable {numbers : Printing D} {format : Bool}

/-- What the loop of `parse_array` does with an item -/
def arrayNext (env : Env D) (loop : ParseBuffer → List (Item D) →
      Option (Option (Item D) × ParseBuffer)) (head : List (Item D)) :
    Option (Item D) × ParseBuffer → Option (Option (Item D) × ParseBuffer)
  | (none, b) => failWith b (ownedItems head + 1)
  | (some item, b) =>
    let b := bufferSkipWhitespace env b
    if first env b = some 44 then loop b (head ++ [item])
    else if first env b = some 93 then closeWith b (.array (head ++ [item]))
    else failWith b (ownedItems (head ++ [item]))

/-- One turn of the loop, up to the item -/
theorem arrayLoop_turn (halloc : ∀ n, env.allocate n = true) (hnum : Numerals numbers)
    {item : Item D} {indent fuel : Nat} {head : List (Item D)} (hws : ∀ w ∈ ws, w ≤ 32)
    (hrest : rest env b = c :: (ws ++ (render numbers format indent item ++ t))) :
    ∃ e, e.offset = b.offset + (1 + ws.length) ∧ e.depth = b.depth ∧
      rest env e = render numbers format indent item ++ t ∧
      arrayLoop env (fuel + 1) b head =
        (parseValue env fuel e).bind (arrayNext env (arrayLoop env fuel) head) := by
  obtain ⟨d, r, hhead, hspace, -, -⟩ := @render_head D numbers format hnum indent item
  obtain ⟨b₁, b₂, hb₁, hoffset, hdepth₁⟩ := allocateBlock_granted halloc b
  have hrest₁ := @rest_of_offset D env b (b₁.move 1) [c] _ hrest (by
    rw [ParseBuffer.move, hoffset]
    rfl)
  have hskip : bufferSkipWhitespace env (b₁.move 1) = (b₁.move 1).move ws.length := by
    rw [hhead] at hrest₁
    exact skip_of_rest hrest₁ hws hspace
  refine ⟨(b₁.move 1).move ws.length, ?_, hdepth₁, rest_move hrest₁, ?_⟩
  · rw [ParseBuffer.move, ParseBuffer.move, hoffset, ← Nat.add_assoc]
  · rw [arrayLoop]
    simp only [hb₁, hskip]
    refine congrArg _ (funext fun r => ?_)
    obtain ⟨item, b⟩ := r
    cases item <;> rfl

theorem comma_white (format : Bool) :
    ∃ ws, formatted format [44, 32] [44] = 44 :: ws ∧ ∀ w ∈ ws, w ≤ 32 := by
  cases format
  · exact ⟨[], rfl, fun _ hw => by cases hw⟩
  · exact ⟨[32], rfl, List.forall_mem_singleton.mpr (by decide)⟩

/-- The text behind an item that another one follows -/
theorem renderItems_cons (numbers : Printing D) (format : Bool) (indent : Nat)
    (item next : Item D) (items : List (Item D)) :
    renderItems numbers format indent (item :: next :: items) =
      render numbers format indent item ++ (formatted format [44, 32] [44] ++
        renderItems numbers format indent (next :: items)) := by
  rw [renderItems, List.isEmpty_cons, if_neg Bool.false_ne_true, List.append_assoc]

theorem renderItems_singleton (numbers : Printing D) (format : Bool) (indent : Nat)
    (item : Item D) : renderItems numbers format indent [item] =
      render numbers format indent item := by
  rw [renderItems, renderItems, List.isEmpty_nil, if_pos rfl, List.append_nil, List.append_nil]

theorem arrayLoop_reread (halloc : ∀ n, env.allocate n = true) (hnum : Numerals numbers)
    {child : List (Item D)} (h : ∀ item ∈ child, Rereads env numbers format item)
    (hchild : child ≠ []) {indent fuel : Nat} {head : List (Item D)} {tail : List UInt8}
    (hws : ∀ w ∈ ws, w ≤ 32)
    (hrest : rest env b = c :: (ws ++ (renderItems numbers format indent child ++ 93 :: tail)))
    (hdepth : b.depth + nestingItems child ≤ nestingLimit)
    (hfuel : 3 * (renderItems numbers format indent child).length + 1 ≤ fuel) :
    ∃ b', arrayLoop env fuel b head =
        some (some (.array (head ++ rereadItems numbers child)), b') ∧
      b'.offset = b.offset + (1 + ws.length +
        (renderItems numbers format indent child).length + 1) ∧
      b'.depth = b.depth - 1 := by
  induction child generalizing b head fuel c ws with
  | nil => exact absurd rfl hchild
  | cons item items ih =>
    have hitem := h item List.mem_cons_self indent
    rw [nestingItems] at hdepth
    obtain ⟨k, rfl⟩ : ∃ k, fuel = k + 1 := ⟨fuel - 1, by omega⟩
    cases items with
    | nil =>
      rw [renderItems_singleton] at hrest hfuel ⊢
      obtain ⟨e, ho, hd, hrest₁, hturn⟩ := @arrayLoop_turn D env b _ ws c numbers format halloc
        hnum item indent k head hws hrest
      obtain ⟨b₁, hvalue, hoff, hdep⟩ := hitem k e _ hrest₁ (follows_cons (by decide))
        (by omega) (by omega)
      have hrest₂ := rest_of_offset hrest₁ hoff
      rw [hturn, hvalue, Option.bind_some]
      simp only [arrayNext, skip_none hrest₂ (by decide), first_of_rest hrest₂, closeWith]
      refine ⟨_, rfl, ?_, ?_⟩
      · dsimp only
        omega
      · dsimp only
        rw [hdep, hd]
    | cons next items =>
      obtain ⟨ws', hsep, hws'⟩ := comma_white format
      rw [renderItems_cons, hsep] at hrest hfuel ⊢
      simp only [List.append_assoc, List.cons_append, List.length_append, List.length_cons]
        at hrest hfuel ⊢
      obtain ⟨e, ho, hd, hrest₁, hturn⟩ := @arrayLoop_turn D env b _ ws c numbers format halloc
        hnum item indent k head hws hrest
      obtain ⟨b₁, hvalue, hoff, hdep⟩ := hitem k e _ hrest₁ (follows_cons (by decide))
        (by omega) (by omega)
      have hrest₂ := rest_of_offset hrest₁ hoff
      obtain ⟨b', hloop, hoff', hdep'⟩ := @ih b₁ ws' 44
        (fun i hi => h i (List.mem_cons_of_mem _ hi)) (List.cons_ne_nil _ _) k
        (head ++ [reread numbers item]) hws' hrest₂ (by omega) (by omega)
      rw [hturn, hvalue, Option.bind_some]
      simp only [arrayNext, skip_none hrest₂ (by decide), first_of_rest hrest₂, if_true]
      refine ⟨b', ?_, by omega, by omega⟩
      rw [hloop, List.append_assoc]
      rfl

/-- What the loop of `parse_object` does with the item of a member -/
def objectNext (env : Env D) (loop : ParseBuffer → List (List UInt8 × Item D) →
      Option (Option (Item D) × ParseBuffer)) (head : List (List UInt8 × Item D))
    (name : List UInt8) :
    Option (Item D) × ParseBuffer → Option (Option (Item D) × ParseBuffer)
  | (none, b) => failWith b (ownedMembers head + 2)
  | (some item, b) =>
    let b := bufferSkipWhitespace env b
    if first env b = some 44 then loop b (head ++ [(name, item)])
    else if first env b = some 125 then closeWith b (.object (head ++ [(name, item)]))
    else failWith b (ownedMembers (head ++ [(name, item)]))

theorem colon_white (format : Bool) :
    ∃ ws, formatted format [58, 9] [58] = 58 :: ws ∧ ∀ w ∈ ws, w ≤ 32 := by
  cases format
  · exact ⟨[], rfl, fun _ hw => by cases hw⟩
  · exact ⟨[9], rfl, List.forall_mem_singleton.mpr (by decide)⟩

/-- One turn of the loop, from the byte in front of the white space before a name up to the
item -/
theorem objectLoop_turn (halloc : ∀ n, env.allocate n = true) (hnum : Numerals numbers)
    {name : CStr} {item : Item D} {indent fuel : Nat} {head : List (List UInt8 × Item D)}
    (hws : ∀ w ∈ ws, w ≤ 32) (hrest : rest env b = c :: (ws ++ (quoted name ++
      (formatted format [58, 9] [58] ++ (render numbers format indent item ++ t))))) :
    ∃ e, e.offset = b.offset +
        (1 + ws.length + (quoted name).length + (formatted format [58, 9] [58]).length) ∧
      e.depth = b.depth ∧ rest env e = render numbers format indent item ++ t ∧
      objectLoop env (fuel + 1) b head =
        (parseValue env fuel e).bind (objectNext env (objectLoop env fuel) head name) := by
  obtain ⟨d, r, hhead, hspace, -, -⟩ := @render_head D numbers format hnum indent item
  obtain ⟨ws', hcolon, hws'⟩ := colon_white format
  rw [hcolon] at hrest ⊢
  obtain ⟨b₁, b₂, hb₁, hoffset, hdepth₁⟩ := allocateBlock_granted halloc b
  have hlast : ¬env.content.length ≤ b₁.offset + 1 := by
    have hend := offset_add_length hrest
    simp only [List.length_append, List.length_cons] at hend
    omega
  have hrest₁ := @rest_of_offset D env b (b₁.move 1) [c] _ hrest (by
    rw [ParseBuffer.move, hoffset]
    rfl)
  have hskip := skip_of_rest (by rw [quoted, List.cons_append] at hrest₁; exact hrest₁) hws
    (by decide)
  obtain ⟨b₃, hname, hoff₃, hdep₃⟩ := parseString_quoted halloc (rest_move hrest₁)
  have hrest₃ := rest_of_offset (rest_move hrest₁) hoff₃
  have hrest₄ := @rest_move D env b₃ [58] _ hrest₃
  have hskip₄ : bufferSkipWhitespace env (b₃.move 1) = (b₃.move 1).move ws'.length := by
    rw [hhead] at hrest₄
    exact skip_of_rest hrest₄ hws' hspace
  refine ⟨(b₃.move 1).move ws'.length, ?_, hdep₃.trans hdepth₁, rest_move hrest₄, ?_⟩
  · simp only [ParseBuffer.move] at hoff₃ ⊢
    rw [List.length_cons]
    omega
  · rw [objectLoop]
    simp only [hb₁, if_neg hlast, hskip, hname, Option.bind_eq_bind, Option.bind_some,
      skip_none hrest₃ (by decide), first_of_rest hrest₃, ne_eq, not_true_eq_false, if_false,
      hskip₄]
    refine congrArg _ (funext fun r => ?_)
    obtain ⟨item, b⟩ := r
    cases item <;> rfl

/-- The text of some members from the first name on -/
def membersText (numbers : Printing D) (format : Bool) (indent : Nat) :
    List (List UInt8 × Item D) → CStr
  | [] => []
  | (name, item) :: members => quoted (cstringAt (name ++ [0])) ++
      (formatted format [58, 9] [58] ++ (render numbers format indent item ++
        (if members.isEmpty then formatted format [10] []
          else 44 :: (formatted format [10] [] ++ tabs format indent ++
            membersText numbers format indent members))))

theorem renderMembers_eq {child : List (List UInt8 × Item D)} (h : child ≠ []) (indent : Nat) :
    renderMembers numbers format indent child =
      tabs format indent ++ membersText numbers format indent child := by
  induction child with
  | nil => exact absurd rfl h
  | cons member members ih =>
    obtain ⟨name, item⟩ := member
    rw [renderMembers, membersText]
    cases members with
    | nil =>
      rw [renderMembers]
      simp
    | cons next members =>
      rw [ih (List.cons_ne_nil _ _)]
      simp

theorem white_append {ws' : List UInt8} (h : ∀ w ∈ ws, w ≤ 32) (h' : ∀ w ∈ ws', w ≤ 32) :
    ∀ w ∈ ws ++ ws', w ≤ 32 := by
  intro w hw
  rcases List.mem_append.mp hw with hw | hw
  · exact h w hw
  · exact h' w hw

theorem white_newline : ∀ w ∈ formatted format [10] [], w ≤ 32 :=
  white_formatted (List.forall_mem_singleton.mpr (by decide))

theorem objectLoop_reread (halloc : ∀ n, env.allocate n = true) (hnum : Numerals numbers)
    {child : List (List UInt8 × Item D)} (h : ∀ m ∈ child, Rereads env numbers format m.2)
    (hchild : child ≠ []) {indent fuel : Nat} {head : List (List UInt8 × Item D)}
    {close tail : List UInt8} (hws : ∀ w ∈ ws, w ≤ 32) (hclose : ∀ w ∈ close, w ≤ 32)
    (hrest : rest env b = c :: (ws ++ (membersText numbers format indent child ++
      (close ++ 125 :: tail))))
    (hdepth : b.depth + nestingMembers child ≤ nestingLimit)
    (hfuel : 3 * (membersText numbers format indent child).length + 1 ≤ fuel) :
    ∃ b', objectLoop env fuel b head =
        some (some (.object (head ++ rereadMembers numbers child)), b') ∧
      b'.offset = b.offset + (1 + ws.length +
        (membersText numbers format indent child).length + close.length + 1) ∧
      b'.depth = b.depth - 1 := by
  induction child generalizing b head fuel c ws with
  | nil => exact absurd rfl hchild
  | cons member members ih =>
    obtain ⟨name, item⟩ := member
    have hitem : Rereads env numbers format item := h (name, item) List.mem_cons_self
    rw [nestingMembers] at hdepth
    rw [membersText] at hrest hfuel ⊢
    obtain ⟨k, rfl⟩ : ∃ k, fuel = k + 1 := ⟨fuel - 1, by omega⟩
    simp only [List.append_assoc, List.length_append] at hrest hfuel ⊢
    obtain ⟨e, ho, hd, hrest₁, hturn⟩ := @objectLoop_turn D env b _ ws c numbers format halloc
      hnum _ item indent k head hws hrest
    rw [hturn]
    cases members with
    | nil =>
      simp only [List.isEmpty_nil, if_true] at hrest₁ hfuel ⊢
      have hbehind := white_append (@white_newline format) hclose
      rw [← List.append_assoc (formatted format [10] [])] at hrest₁
      obtain ⟨b₁, hvalue, hoff, hdep⟩ := hitem indent k e _ hrest₁ (follows_white hbehind)
        (by omega) (by omega)
      have hrest₂ := rest_of_offset hrest₁ hoff
      rw [hvalue, Option.bind_some]
      simp only [objectNext, skip_of_rest hrest₂ hbehind (by decide),
        first_of_rest (rest_move hrest₂), closeWith]
      refine ⟨_, rfl, ?_, ?_⟩
      · simp only [ParseBuffer.move, List.length_append]
        omega
      · simp only [ParseBuffer.move]
        omega
    | cons next members =>
      simp only [List.isEmpty_cons, if_neg Bool.false_ne_true, List.cons_append,
        List.length_cons, List.append_assoc, List.length_append] at hrest₁ hfuel ⊢
      obtain ⟨b₁, hvalue, hoff, hdep⟩ := hitem indent k e _ hrest₁ (follows_cons (by decide))
        (by omega) (by omega)
      have hrest₂ := rest_of_offset hrest₁ hoff
      have hrest₃ := hrest₂
      rw [← List.append_assoc (formatted format [10] [])] at hrest₃
      obtain ⟨b', hloop, hoff', hdep'⟩ := @ih b₁ (formatted format [10] [] ++ tabs format indent)
        44 (fun m hm => h m (List.mem_cons_of_mem _ hm)) (List.cons_ne_nil _ _) k
        (head ++ [(cstringAt (name ++ [0]), reread numbers item)])
        (white_append white_newline (white_tabs indent)) hrest₃ (by omega) (by omega)
      rw [List.length_append] at hoff'
      rw [hvalue, Option.bind_some]
      simp only [objectNext, skip_none hrest₂ (by decide), first_of_rest hrest₂, if_true]
      refine ⟨b', ?_, by omega, by omega⟩
      rw [hloop, List.append_assoc]
      rfl

theorem renderItems_head (hnum : Numerals numbers) {child : List (Item D)} (hchild : child ≠ [])
    (indent : Nat) :
    ∃ c r, renderItems numbers format indent child = c :: r ∧ ¬c ≤ 32 ∧ c ≠ 93 := by
  cases child with
  | nil => exact absurd rfl hchild
  | cons item items =>
    obtain ⟨c, r, hhead, hspace, hne, -⟩ := @render_head D numbers format hnum indent item
    rw [renderItems, hhead]
    exact ⟨c, _, rfl, hspace, hne⟩

/-- `parse_array` enters its loop with the bracket in front of the first item. -/
theorem parseArray_open (hnum : Numerals numbers) {child : List (Item D)} (hchild : child ≠ [])
    {indent fuel : Nat} (hdepth : b.depth < nestingLimit)
    (hrest : rest env b = 91 :: (renderItems numbers format indent child ++ t)) :
    parseArray env (fuel + 1) b = arrayLoop env fuel { b with depth := b.depth + 1 } [] := by
  obtain ⟨c, r, hhead, hspace, hne⟩ := @renderItems_head D numbers format hnum child hchild indent
  have hbracket : env.content[b.offset]? = some 91 := first_eq.symm.trans (first_of_rest hrest)
  have hcons : rest env (ParseBuffer.move { b with depth := b.depth + 1 } 1) = c :: (r ++ t) := by
    rw [hhead, List.cons_append] at hrest
    exact @rest_move D env { b with depth := b.depth + 1 } [91] _ hrest
  rw [parseArray, if_neg (Nat.not_le.mpr hdepth)]
  simp only [hbracket, Option.bind_eq_bind, Option.bind_some, ne_eq, not_true_eq_false, if_false,
    skip_none hcons hspace, first_of_rest hcons, if_neg hne]
  rfl

theorem parseArray_reread (halloc : ∀ n, env.allocate n = true) (hnum : Numerals numbers)
    {child : List (Item D)} (h : ∀ item ∈ child, Rereads env numbers format item)
    {indent fuel : Nat} {tail : List UInt8}
    (hrest : rest env b = 91 :: (renderItems numbers format indent child ++ 93 :: tail))
    (hdepth : b.depth + (nestingItems child + 1) ≤ nestingLimit)
    (hfuel : 3 * (renderItems numbers format indent child).length + 2 ≤ fuel) :
    ∃ b', parseArray env fuel b = some (some (.array (rereadItems numbers child)), b') ∧
      b'.offset = b.offset + ((renderItems numbers format indent child).length + 2) ∧
      b'.depth = b.depth := by
  obtain ⟨k, rfl⟩ : ∃ k, fuel = k + 1 := ⟨fuel - 1, by omega⟩
  have hrest' : rest env { b with depth := b.depth + 1 } =
      [91] ++ (renderItems numbers format indent child ++ 93 :: tail) := hrest
  by_cases hchild : child = []
  · have hbracket : env.content[b.offset]? = some 91 := first_eq.symm.trans (first_of_rest hrest)
    subst hchild
    have hmove := rest_move hrest'
    rw [renderItems, List.nil_append] at hmove
    have hskip := skip_none hmove (by decide)
    rw [List.length_singleton] at hskip hmove
    rw [parseArray, if_neg (by omega)]
    simp only [hbracket, Option.bind_eq_bind, Option.bind_some, ne_eq, not_true_eq_false, if_false,
      hskip, first_of_rest hmove, if_true, closeWith]
    refine ⟨_, rfl, ?_, Nat.add_sub_cancel _ _⟩
    rw [renderItems]
    rfl
  · obtain ⟨b', hloop, hoff, hdep⟩ := @arrayLoop_reread D env { b with depth := b.depth + 1 }
      [] 91 numbers format halloc hnum child h hchild indent k [] tail
      (fun _ hw => by cases hw) hrest' (by dsimp only; omega) (by omega)
    rw [parseArray_open hnum hchild (by omega) hrest]
    refine ⟨b', hloop, ?_, ?_⟩
    · rw [hoff, List.length_nil]
      dsimp only
      omega
    · rw [hdep]
      exact Nat.add_sub_cancel _ _

/-- `parse_object` enters its loop with one byte in front of the first name, which may be white
space. -/
theorem parseObject_open {child : List (List UInt8 × Item D)} (hchild : child ≠ [])
    {indent fuel : Nat} (hdepth : b.depth < nestingLimit) (hws : ∀ w ∈ ws, w ≤ 32)
    (hrest : rest env b = 123 :: (ws ++ (renderMembers numbers format indent child ++ t))) :
    ∃ e x, e.offset = b.offset + (ws.length + (tabs format indent).length) ∧
      e.depth = b.depth + 1 ∧
      rest env e = x :: ([] ++ (membersText numbers format indent child ++ t)) ∧
      parseObject env (fuel + 1) b = objectLoop env fuel e [] := by
  obtain ⟨r, hquote⟩ : ∃ r, membersText numbers format indent child = 34 :: r := by
    cases child with
    | nil => exact absurd rfl hchild
    | cons m members =>
      rw [membersText]
      exact ⟨_, rfl⟩
  rw [renderMembers_eq hchild, List.append_assoc, ← List.append_assoc ws] at hrest
  have hmove := @rest_move D env { b with depth := b.depth + 1 } [123] _ hrest
  have hskip := skip_of_rest (by rw [hquote, List.cons_append] at hmove; exact hmove)
    (white_append hws (white_tabs indent)) (by decide)
  have hname := rest_move hmove
  rw [hquote, List.cons_append] at hname
  obtain ⟨front, x, hlast⟩ : ∃ front x, 123 :: (ws ++ tabs format indent) = front ++ [x] :=
    ⟨_, _, (List.dropLast_append_getLast (List.cons_ne_nil _ _)).symm⟩
  have hlength := congrArg List.length hlast
  rw [List.length_cons, List.length_append, List.length_append, List.length_singleton] at hlength
  refine ⟨⟨b.offset + front.length, b.depth + 1, b.heap⟩, x, ?_, rfl, ?_, ?_⟩
  · dsimp only
    omega
  · refine @rest_of_offset D env b _ front _ ?_ rfl
    rw [hrest, ← List.cons_append, hlast, List.append_assoc]
    rfl
  · rw [List.length_singleton] at hskip hname
    rw [parseObject, if_neg (Nat.not_le.mpr hdepth)]
    have hbrace := @first_of_rest D env { b with depth := b.depth + 1 } _ _ hrest
    simp only [hbrace, ne_eq, not_true_eq_false, if_false, hskip, first_of_rest hname]
    rw [if_neg (by decide)]
    congr 1
    simp only [ParseBuffer.move, List.length_append, ParseBuffer.mk.injEq, and_true]
    omega

theorem parseObject_reread (halloc : ∀ n, env.allocate n = true) (hnum : Numerals numbers)
    {child : List (List UInt8 × Item D)} (h : ∀ m ∈ child, Rereads env numbers format m.2)
    {indent fuel : Nat} {close tail : List UInt8} (hws : ∀ w ∈ ws, w ≤ 32)
    (hclose : ∀ w ∈ close, w ≤ 32)
    (hrest : rest env b = 123 :: (ws ++ (renderMembers numbers format indent child ++
      (close ++ 125 :: tail))))
    (hdepth : b.depth + (nestingMembers child + 1) ≤ nestingLimit)
    (hfuel : 3 * (renderMembers numbers format indent child).length + 2 ≤ fuel) :
    ∃ b', parseObject env fuel b = some (some (.object (rereadMembers numbers child)), b') ∧
      b'.offset = b.offset + (ws.length + (renderMembers numbers format indent child).length +
        close.length + 2) ∧ b'.depth = b.depth := by
  obtain ⟨k, rfl⟩ : ∃ k, fuel = k + 1 := ⟨fuel - 1, by omega⟩
  by_cases hchild : child = []
  · subst hchild
    rw [renderMembers, List.nil_append, ← List.append_assoc] at hrest
    have hmove := @rest_move D env { b with depth := b.depth + 1 } [123] _ hrest
    have hskip := skip_of_rest hmove (white_append hws hclose) (by decide)
    have hend := rest_move hmove
    have hbrace := @first_of_rest D env { b with depth := b.depth + 1 } _ _ hrest
    rw [List.length_singleton] at hskip hend
    rw [parseObject, if_neg (by omega)]
    simp only [hbrace, ne_eq, not_true_eq_false, if_false, hskip, first_of_rest hend, if_true,
      closeWith]
    refine ⟨_, rfl, ?_, Nat.add_sub_cancel _ _⟩
    simp only [ParseBuffer.move, renderMembers, List.length_append, List.length_nil]
    omega
  · obtain ⟨e, x, ho, hd, hstart, hopen⟩ := @parseObject_open D env b _ ws numbers format child
      hchild indent k (by omega) hws hrest
    have htext := congrArg List.length (@renderMembers_eq D numbers format child hchild indent)
    rw [List.length_append] at htext
    obtain ⟨b', hloop, hoff, hdep⟩ := @objectLoop_reread D env e [] x numbers format halloc hnum
      child h hchild indent k [] close tail (fun _ hw => by cases hw) hclose hstart
      (by omega) (by omega)
    rw [List.length_nil] at hoff
    rw [hopen]
    exact ⟨b', hloop, by omega, by omega⟩

theorem literal_reread {literal : String} {item : Item D} {fuel : Nat} {tail : List UInt8}
    (hrest : rest env b = cstr literal ++ tail) (hfuel : 3 * (cstr literal).length ≤ fuel)
    (hpos : 0 < (cstr literal).length)
    (hcases : literal = "null" ∧ item = .null ∨ literal = "false" ∧ item = .bool false ∨
      literal = "true" ∧ item = .bool true) :
    ∃ b', parseValue env fuel b = some (some item, b') ∧
      b'.offset = b.offset + (cstr literal).length ∧ b'.depth = b.depth := by
  obtain ⟨k, rfl⟩ : ∃ k, fuel = k + 1 := ⟨fuel - 1, by omega⟩
  exact ⟨_, parseValue_literal hrest rfl hcases, rfl, rfl⟩

theorem value_reread (hdoubles : env.doubles = numbers.toDoubles)
    (halloc : ∀ n, env.allocate n = true) (hnum : Numerals numbers) (item : Item D) :
    Rereads env numbers format item := by
  induction item using item_induction with
  | null =>
    intro indent fuel b tail hrest _ _ hfuel
    rw [render] at hrest hfuel ⊢
    rw [reread]
    exact literal_reread hrest hfuel (by decide) (Or.inl ⟨rfl, rfl⟩)
  | bool v =>
    intro indent fuel b tail hrest _ _ hfuel
    rw [reread]
    cases v
    · rw [render] at hrest hfuel ⊢
      exact literal_reread hrest hfuel (by decide) (Or.inr (Or.inl ⟨rfl, rfl⟩))
    · rw [render] at hrest hfuel ⊢
      exact literal_reread hrest hfuel (by decide) (Or.inr (Or.inr ⟨rfl, rfl⟩))
  | number d i =>
    intro indent fuel b tail hrest htail _ hfuel
    rw [render] at hrest hfuel ⊢
    rw [reread]
    by_cases hd : numbers.isFinite d = true
    · have hnumeral := hnum.numberText i hd
      obtain ⟨c, r, hcons, hc⟩ := hnumeral.head
      have hnumber := parseNumber_numeral hnumeral hrest htail
      rw [hcons, List.cons_append] at hrest
      have hpos : 0 < (numberText numbers d i).length := by
        rw [hcons]
        exact Nat.succ_pos _
      obtain ⟨k, rfl⟩ : ∃ k, fuel = k + 1 := ⟨fuel - 1, by omega⟩
      have hdigit : c = 45 ∨ 48 ≤ c ∧ c ≤ 57 := by
        refine hc.imp_right fun h => ?_
        rwa [isDigit, Bool.and_eq_true, decide_eq_true_eq, decide_eq_true_eq] at h
      have hne : ∀ e : UInt8, isDigit e = false → e ≠ 45 → c ≠ e := by
        rintro e he he' rfl
        rcases hc with h | h
        · exact he' h
        · rw [he] at h
          cases h
      refine ⟨b.move (numberText numbers d i).length, ?_, rfl, rfl⟩
      rw [parseValue_cons hrest (hne 110 rfl (by decide)) (hne 102 rfl (by decide))
        (hne 116 rfl (by decide)), if_neg (hne 34 rfl (by decide)), if_pos hdigit, hnumber,
        hdoubles, if_pos hd]
      rfl
    · have hnull : numberText numbers d i = cstr "null" := by
        rw [numberText, Bool.eq_false_iff.mpr hd, Bool.not_false, if_pos rfl]
      rw [hnull] at hrest hfuel ⊢
      rw [if_neg hd]
      exact literal_reread hrest hfuel (by decide) (Or.inl ⟨rfl, rfl⟩)
  | string s =>
    intro indent fuel b tail hrest _ _ hfuel
    rw [render] at hrest hfuel ⊢
    rw [reread]
    have hquoted := length_quoted (cstringAt (s ++ [0]))
    obtain ⟨b', hstring, hoff, hdep⟩ := parseString_quoted halloc hrest
    obtain ⟨k, rfl⟩ : ∃ k, fuel = k + 1 := ⟨fuel - 1, by omega⟩
    refine ⟨b', ?_, hoff, hdep⟩
    rw [quoted, List.cons_append] at hrest
    rw [parseValue_cons hrest (by decide) (by decide) (by decide), if_pos rfl, hstring]
    rfl
  | array child ih =>
    intro indent fuel b tail hrest _ hdepth hfuel
    rw [render] at hrest hfuel ⊢
    rw [reread]
    rw [Item.nesting] at hdepth
    simp only [List.cons_append, List.append_assoc, List.length_cons, List.length_append,
      List.length_nil] at hrest hfuel ⊢
    obtain ⟨k, rfl⟩ : ∃ k, fuel = k + 1 := ⟨fuel - 1, by omega⟩
    rw [parseValue_cons hrest (by decide) (by decide) (by decide), if_neg (by decide),
      if_neg (by decide), if_pos rfl]
    exact parseArray_reread halloc hnum ih hrest hdepth (by omega)
  | object child ih =>
    intro indent fuel b tail hrest _ hdepth hfuel
    obtain ⟨ws, hopen, hws⟩ : ∃ ws, formatted format [123, 10] [123] = 123 :: ws ∧
        ∀ w ∈ ws, w ≤ 32 := by
      cases format
      · exact ⟨[], rfl, fun _ hw => by cases hw⟩
      · exact ⟨[10], rfl, List.forall_mem_singleton.mpr (by decide)⟩
    rw [render, hopen] at hrest hfuel ⊢
    rw [reread]
    rw [Item.nesting] at hdepth
    simp only [List.cons_append, List.append_assoc, List.length_cons, List.length_append,
      List.length_nil] at hrest hfuel ⊢
    obtain ⟨k, rfl⟩ : ∃ k, fuel = k + 1 := ⟨fuel - 1, by omega⟩
    obtain ⟨b', hobject, hoff, hdep⟩ := parseObject_reread halloc hnum ih hws
      (white_tabs indent) hrest hdepth (show _ ≤ k by omega)
    rw [parseValue_cons hrest (by decide) (by decide) (by decide), if_neg (by decide),
      if_neg (by decide), if_neg (by decide), if_pos rfl]
    exact ⟨b', hobject, by omega, hdep⟩

end CJsonRoundTrip
