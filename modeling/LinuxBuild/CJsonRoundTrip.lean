import LinuxBuild.CJsonReread

/-!
# Printed text is read again

The parser takes a printed text exactly when its item is not nested too deeply; the printer has
no such limit. Text and item go round when the strings hold no `NUL` and the numbers print back
to themselves.
-/
namespace CJsonRoundTrip
open CString CJsonParse CJsonPrint CJsonText CJsonSafety

variable {D : Type} {env : Env D} {b b' : ParseBuffer} {s t ws : List UInt8} {c : UInt8}

section Values
variable {numbers : Printing D} {format : Bool}

/-- The text of an item that is nested too deeply is refused, if there is an answer at all. -/
def Refuses (env : Env D) (numbers : Printing D) (format : Bool) (item : Item D) : Prop :=
  ∀ indent fuel b tail, rest env b = render numbers format indent item ++ tail → Follows tail →
    b.depth ≤ nestingLimit → nestingLimit < b.depth + item.nesting →
    3 * (render numbers format indent item).length ≤ fuel →
    ∀ r b', parseValue env fuel b = some (r, b') → r = none

theorem failWith_none {blocks : Nat} {r : Option (Item D)}
    (h : failWith b blocks = some (r, b')) : r = none := by
  rw [failWith] at h
  cases hrelease : release b blocks with
  | none =>
    rw [hrelease] at h
    cases h
  | some b₁ =>
    rw [hrelease] at h
    cases h
    rfl

/-- A loop fails with its item. -/
theorem none_of_bind {next : Option (Item D) × ParseBuffer →
      Option (Option (Item D) × ParseBuffer)} {value : Option (Option (Item D) × ParseBuffer)}
    {r : Option (Item D)} {blocks : Nat} (hvalue : ∀ r b', value = some (r, b') → r = none)
    (hnext : ∀ b, next (none, b) = failWith b blocks) (h : value.bind next = some (r, b')) :
    r = none := by
  cases value with
  | none => cases h
  | some p =>
    obtain ⟨r₁, b₁⟩ := p
    have hnone := hvalue r₁ b₁ rfl
    subst hnone
    rw [Option.bind_some, hnext] at h
    exact failWith_none h

theorem arrayLoop_refuses (halloc : ∀ n, env.allocate n = true) (hnum : Numerals numbers)
    {child : List (Item D)} (h : ∀ item ∈ child, Rereads env numbers format item)
    (hrefuses : ∀ item ∈ child, Refuses env numbers format item) {indent fuel : Nat}
    {head : List (Item D)} {tail : List UInt8} (hws : ∀ w ∈ ws, w ≤ 32)
    (hrest : rest env b = c :: (ws ++ (renderItems numbers format indent child ++ 93 :: tail)))
    (hle : b.depth ≤ nestingLimit) (hdepth : nestingLimit < b.depth + nestingItems child)
    (hfuel : 3 * (renderItems numbers format indent child).length + 1 ≤ fuel)
    {r : Option (Item D)} (hloop : arrayLoop env fuel b head = some (r, b')) : r = none := by
  induction child generalizing b head fuel c ws with
  | nil =>
    rw [nestingItems] at hdepth
    omega
  | cons item items ih =>
    have hitem := h item List.mem_cons_self indent
    have hdeep := hrefuses item List.mem_cons_self indent
    rw [nestingItems] at hdepth
    obtain ⟨k, rfl⟩ : ∃ k, fuel = k + 1 := ⟨fuel - 1, by omega⟩
    cases items with
    | nil =>
      rw [renderItems_singleton] at hrest hfuel
      rw [nestingItems, Nat.max_zero] at hdepth
      obtain ⟨e, -, hd, hrest₁, hturn⟩ := @arrayLoop_turn D env b _ ws c numbers format halloc
        hnum item indent k head hws hrest
      rw [hturn] at hloop
      exact none_of_bind (hdeep k e _ hrest₁ (follows_cons (by decide)) (by omega) (by omega)
        (by omega)) (fun _ => rfl) hloop
    | cons next items =>
      obtain ⟨ws', hsep, hws'⟩ := comma_white format
      rw [renderItems_cons, hsep] at hrest hfuel
      simp only [List.append_assoc, List.cons_append, List.length_append, List.length_cons]
        at hrest hfuel
      obtain ⟨e, -, hd, hrest₁, hturn⟩ := @arrayLoop_turn D env b _ ws c numbers format halloc
        hnum item indent k head hws hrest
      rw [hturn] at hloop
      rcases Nat.lt_or_ge nestingLimit (b.depth + item.nesting) with hhere | hbehind
      · exact none_of_bind (hdeep k e _ hrest₁ (follows_cons (by decide)) (by omega) (by omega)
          (by omega)) (fun _ => rfl) hloop
      · obtain ⟨b₁, hvalue, hoff, hdep⟩ := hitem k e _ hrest₁ (follows_cons (by decide))
          (by omega) (by omega)
        have hrest₂ := rest_of_offset hrest₁ hoff
        rw [hvalue, Option.bind_some] at hloop
        simp only [arrayNext, skip_none hrest₂ (by decide), first_of_rest hrest₂, if_true] at hloop
        exact ih (fun i hi => h i (List.mem_cons_of_mem _ hi))
          (fun i hi => hrefuses i (List.mem_cons_of_mem _ hi)) hws' hrest₂ (by omega) (by omega)
          (by omega) hloop

theorem objectLoop_refuses (halloc : ∀ n, env.allocate n = true) (hnum : Numerals numbers)
    {child : List (List UInt8 × Item D)} (h : ∀ m ∈ child, Rereads env numbers format m.2)
    (hrefuses : ∀ m ∈ child, Refuses env numbers format m.2) {indent fuel : Nat}
    {head : List (List UInt8 × Item D)} {close tail : List UInt8} (hws : ∀ w ∈ ws, w ≤ 32)
    (hclose : ∀ w ∈ close, w ≤ 32)
    (hrest : rest env b = c :: (ws ++ (membersText numbers format indent child ++
      (close ++ 125 :: tail))))
    (hle : b.depth ≤ nestingLimit) (hdepth : nestingLimit < b.depth + nestingMembers child)
    (hfuel : 3 * (membersText numbers format indent child).length + 1 ≤ fuel)
    {r : Option (Item D)} (hloop : objectLoop env fuel b head = some (r, b')) : r = none := by
  induction child generalizing b head fuel c ws with
  | nil =>
    rw [nestingMembers] at hdepth
    omega
  | cons member members ih =>
    obtain ⟨name, item⟩ := member
    have hitem : Rereads env numbers format item := h (name, item) List.mem_cons_self
    have hdeep : Refuses env numbers format item := hrefuses (name, item) List.mem_cons_self
    rw [nestingMembers] at hdepth
    rw [membersText] at hrest hfuel
    obtain ⟨k, rfl⟩ : ∃ k, fuel = k + 1 := ⟨fuel - 1, by omega⟩
    simp only [List.append_assoc, List.length_append] at hrest hfuel
    obtain ⟨e, -, hd, hrest₁, hturn⟩ := @objectLoop_turn D env b _ ws c numbers format halloc
      hnum _ item indent k head hws hrest
    rw [hturn] at hloop
    cases members with
    | nil =>
      rw [nestingMembers, Nat.max_zero] at hdepth
      simp only [List.isEmpty_nil, if_true] at hrest₁ hfuel
      rw [← List.append_assoc (formatted format [10] [])] at hrest₁
      exact none_of_bind (hdeep indent k e _ hrest₁ (follows_white (white_append white_newline
        hclose)) (by omega) (by omega) (by omega)) (fun _ => rfl) hloop
    | cons next members =>
      simp only [List.isEmpty_cons, if_neg Bool.false_ne_true, List.cons_append,
        List.length_cons, List.append_assoc, List.length_append] at hrest₁ hfuel
      rcases Nat.lt_or_ge nestingLimit (b.depth + item.nesting) with hhere | hbehind
      · exact none_of_bind (hdeep indent k e _ hrest₁ (follows_cons (by decide)) (by omega)
          (by omega) (by omega)) (fun _ => rfl) hloop
      · obtain ⟨b₁, hvalue, hoff, hdep⟩ := hitem indent k e _ hrest₁ (follows_cons (by decide))
          (by omega) (by omega)
        have hrest₂ := rest_of_offset hrest₁ hoff
        rw [hvalue, Option.bind_some] at hloop
        simp only [objectNext, skip_none hrest₂ (by decide), first_of_rest hrest₂, if_true]
          at hloop
        rw [← List.append_assoc (formatted format [10] [])] at hrest₂
        exact ih (fun m hm => h m (List.mem_cons_of_mem _ hm))
          (fun m hm => hrefuses m (List.mem_cons_of_mem _ hm))
          (white_append white_newline (white_tabs indent)) hrest₂ (by omega) (by omega)
          (by omega) hloop

theorem refuses_flat {item : Item D} (h : item.nesting = 0) : Refuses env numbers format item := by
  intro indent fuel b tail _ _ hle hlt
  omega

theorem value_refuses (hdoubles : env.doubles = numbers.toDoubles)
    (halloc : ∀ n, env.allocate n = true) (hnum : Numerals numbers) (item : Item D) :
    Refuses env numbers format item := by
  have hall := fun item => @value_reread D env numbers format hdoubles halloc hnum item
  induction item using item_induction with
  | null => exact refuses_flat rfl
  | bool v => exact refuses_flat rfl
  | number d i => exact refuses_flat rfl
  | string s => exact refuses_flat rfl
  | array child ih =>
    intro indent fuel b tail hrest _ hle hdepth hfuel r b' hvalue
    rw [render] at hrest hfuel
    rw [Item.nesting] at hdepth
    simp only [List.cons_append, List.append_assoc, List.length_cons, List.length_append,
      List.length_nil] at hrest hfuel
    obtain ⟨k, rfl⟩ : ∃ k, fuel = k + 1 + 1 := ⟨fuel - 2, by omega⟩
    rw [parseValue_cons hrest (by decide) (by decide) (by decide), if_neg (by decide),
      if_neg (by decide), if_pos rfl] at hvalue
    by_cases hfull : nestingLimit ≤ b.depth
    · rw [parseArray, if_pos hfull] at hvalue
      cases hvalue
      rfl
    · have hchild : child ≠ [] := by
        rintro rfl
        rw [nestingItems] at hdepth
        omega
      rw [parseArray_open hnum hchild (by omega) hrest] at hvalue
      exact @arrayLoop_refuses D env { b with depth := b.depth + 1 } _ [] 91 numbers format halloc
        hnum child (fun item _ => hall item) ih _ _ _ _ (fun _ hw => by cases hw) hrest
        (by dsimp only; omega) (by dsimp only; omega) (by omega) r hvalue
  | object child ih =>
    intro indent fuel b tail hrest _ hle hdepth hfuel r b' hvalue
    obtain ⟨ws, hopen, hws⟩ : ∃ ws, formatted format [123, 10] [123] = 123 :: ws ∧
        ∀ w ∈ ws, w ≤ 32 := by
      cases format
      · exact ⟨[], rfl, fun _ hw => by cases hw⟩
      · exact ⟨[10], rfl, List.forall_mem_singleton.mpr (by decide)⟩
    rw [render, hopen] at hrest hfuel
    rw [Item.nesting] at hdepth
    simp only [List.cons_append, List.append_assoc, List.length_cons, List.length_append,
      List.length_nil] at hrest hfuel
    obtain ⟨k, rfl⟩ : ∃ k, fuel = k + 1 + 1 := ⟨fuel - 2, by omega⟩
    rw [parseValue_cons hrest (by decide) (by decide) (by decide), if_neg (by decide),
      if_neg (by decide), if_neg (by decide), if_pos rfl] at hvalue
    by_cases hfull : nestingLimit ≤ b.depth
    · rw [parseObject, if_pos hfull] at hvalue
      cases hvalue
      rfl
    · have hchild : child ≠ [] := by
        rintro rfl
        rw [nestingMembers] at hdepth
        omega
      obtain ⟨e, x, ho, hd, hstart, henter⟩ := @parseObject_open D env b _ ws numbers format child
        hchild (indent + 1) k (by omega) hws hrest
      have htext := congrArg List.length
        (@renderMembers_eq D numbers format child hchild (indent + 1))
      rw [List.length_append] at htext
      rw [henter] at hvalue
      exact objectLoop_refuses halloc hnum (fun m _ => hall m.2) ih (fun _ hw => by cases hw)
        (white_tabs indent) hstart (by omega) (by omega) (by omega) hvalue

end Values

section Documents
variable {numbers : Printing D}

theorem skipUtf8Bom_none (h : rest env b = c :: t) (hc : c ≠ 0xEF) : skipUtf8Bom env b = b := by
  rw [skipUtf8Bom, if_neg]
  rintro ⟨-, hbom⟩
  rw [h, List.take_succ_cons] at hbom
  exact hc (List.cons.inj hbom).1

/-- `cJSON_Parse` on the text of an item: the item is read again exactly when it is not nested
more than 1000 times; otherwise nothing is left of it. -/
theorem parse_text (numbers : Printing D) (hnum : Numerals numbers) (format : Bool)
    (item : Item D) (allocate : Nat → Bool) (halloc : ∀ n, allocate n = true) (fuel live : Nat)
    (hfuel : 3 * (render numbers format 0 item).length + 6 ≤ fuel) :
    ∃ p, parse numbers.toDoubles allocate fuel live (render numbers format 0 item) = some p ∧
      (item.nesting ≤ nestingLimit → p.item = some (reread numbers item)) ∧
      (nestingLimit < item.nesting → p.item = none ∧ p.buffer.heap.live = live) := by
  generalize henv : (⟨render numbers format 0 item ++ [0], allocate, numbers.toDoubles⟩ : Env D) =
    env
  have hcontent : env.content = render numbers format 0 item ++ [0] := by rw [← henv]
  have hdoubles : env.doubles = numbers.toDoubles := by rw [← henv]
  have hgrant : ∀ n, env.allocate n = true := by rw [← henv]; exact halloc
  have hlength : env.content.length = (render numbers format 0 item).length + 1 := by
    rw [hcontent, List.length_append, List.length_singleton]
  obtain ⟨c, r, hhead, hspace, -, hbom⟩ := @render_head D numbers format hnum 0 item
  obtain ⟨b₁, hb₁, hoffset, hdepth, hlive⟩ : ∃ b₁, (allocateBlock env ⟨0, 0, ⟨0, live⟩⟩).1 =
      some b₁ ∧ b₁.offset = 0 ∧ b₁.depth = 0 ∧ b₁.heap.live = live + 1 := by
    rw [allocateBlock, if_pos (hgrant _)]
    exact ⟨_, rfl, rfl, rfl, rfl⟩
  have hrest : rest env b₁ = render numbers format 0 item ++ [0] := by
    rw [rest, hoffset, List.drop_zero, hcontent]
  have hcons := hrest
  rw [hhead, List.cons_append] at hcons
  have hpair : allocateBlock env ⟨0, 0, ⟨0, live⟩⟩ =
      (some b₁, (allocateBlock env ⟨0, 0, ⟨0, live⟩⟩).2) := Prod.ext hb₁ rfl
  rw [parse, henv, parseWithLengthOpts, if_neg (by omega), hpair]
  simp only [skipUtf8Bom_none hcons hbom, skip_none hcons hspace]
  rcases Nat.lt_or_ge nestingLimit item.nesting with hdeep | hflat
  · obtain ⟨r, b', hvalue, hreturns⟩ :=
      (specs env fuel).value b₁ (by omega) (by omega)
    have hr := value_refuses hdoubles hgrant hnum item 0 fuel b₁ [0] hrest
      (follows_cons (by decide)) (by omega) (by omega) (by omega) r b' hvalue
    subst hr
    have hsame : b'.heap.live = b₁.heap.live := hreturns.live
    obtain ⟨b'', hrelease, -, -, hreleased⟩ := @release_eq b' 1 (by omega)
    simp only [hvalue, hrelease, Option.bind_eq_bind, Option.bind_some]
    refine ⟨_, rfl, fun h => absurd h (by omega), fun _ => ⟨rfl, ?_⟩⟩
    change b''.heap.live = live
    omega
  · obtain ⟨b', hvalue, -, -⟩ := value_reread hdoubles hgrant hnum item 0 fuel b₁ [0] hrest
      (follows_cons (by decide)) (by omega) (by omega)
    simp only [hvalue, Option.bind_eq_bind, Option.bind_some, if_neg Bool.false_ne_true]
    exact ⟨_, rfl, fun _ => rfl, fun h => absurd h (by omega)⟩

mutual
/-- What comes back as it was: finite numbers whose text stands for them, with an `int` that
belongs to them, and strings without `NUL` -/
def Keeps (numbers : Printing D) : Item D → Prop
  | .null => True
  | .bool _ => True
  | .number d i => numbers.isFinite d = true ∧ numbers.strtod (numberText numbers d i) = d ∧
      saturate numbers.toDoubles d = i
  | .string s => 0 ∉ s
  | .array child => KeepsItems numbers child
  | .object child => KeepsMembers numbers child

def KeepsItems (numbers : Printing D) : List (Item D) → Prop
  | [] => True
  | item :: items => Keeps numbers item ∧ KeepsItems numbers items

def KeepsMembers (numbers : Printing D) : List (List UInt8 × Item D) → Prop
  | [] => True
  | (name, item) :: members => 0 ∉ name ∧ Keeps numbers item ∧ KeepsMembers numbers members
end

theorem cstringAt_nul_eq_iff {s : List UInt8} : cstringAt (s ++ [0]) = s ↔ 0 ∉ s := by
  constructor
  · intro h
    rw [← h]
    exact nul_notMem_cstringAt _
  · exact fun h => cstringAt_append_nul h []

theorem rereadItems_eq_iff {child : List (Item D)}
    (h : ∀ item ∈ child, reread numbers item = item ↔ Keeps numbers item) :
    rereadItems numbers child = child ↔ KeepsItems numbers child := by
  induction child with
  | nil => exact iff_of_true rfl trivial
  | cons item items ih =>
    rw [rereadItems, KeepsItems, List.cons.injEq, h item List.mem_cons_self,
      ih fun i hi => h i (List.mem_cons_of_mem _ hi)]

theorem rereadMembers_eq_iff {child : List (List UInt8 × Item D)}
    (h : ∀ m ∈ child, reread numbers m.2 = m.2 ↔ Keeps numbers m.2) :
    rereadMembers numbers child = child ↔ KeepsMembers numbers child := by
  induction child with
  | nil => exact iff_of_true rfl trivial
  | cons member members ih =>
    obtain ⟨name, item⟩ := member
    have hitem : reread numbers item = item ↔ Keeps numbers item :=
      h (name, item) List.mem_cons_self
    rw [rereadMembers, KeepsMembers, List.cons.injEq, Prod.mk.injEq, cstringAt_nul_eq_iff, hitem,
      ih fun m hm => h m (List.mem_cons_of_mem _ hm), and_assoc]

/-- An item comes back as it was exactly when all its numbers and strings do. -/
theorem reread_eq_iff (numbers : Printing D) (item : Item D) :
    reread numbers item = item ↔ Keeps numbers item := by
  induction item using item_induction with
  | null => exact iff_of_true rfl trivial
  | bool v => exact iff_of_true rfl trivial
  | number d i =>
    rw [reread, Keeps]
    by_cases hd : numbers.isFinite d = true
    · rw [if_pos hd, readNumber, Item.number.injEq]
      constructor
      · rintro ⟨hsame, hint⟩
        exact ⟨hd, hsame, by rwa [hsame] at hint⟩
      · rintro ⟨-, hsame, hint⟩
        exact ⟨hsame, by rwa [hsame]⟩
    · rw [if_neg hd]
      exact iff_of_false (by rintro ⟨⟩) fun h => hd h.1
  | string s => rw [reread, Keeps, Item.string.injEq, cstringAt_nul_eq_iff]
  | array child ih => rw [reread, Keeps, Item.array.injEq, rereadItems_eq_iff ih]
  | object child ih => rw [reread, Keeps, Item.object.injEq, rereadMembers_eq_iff ih]

/-- What `cJSON_Print` returns and `cJSON_Parse` reads again: the item itself comes back exactly
when it is nested at most 1000 times and keeps its numbers and strings. -/
theorem print_parse (env : PrintEnv D) (hnum : Numerals env.numbers) (format : Bool)
    (item : Item D) (live : Nat) (block : List UInt8) (heap : Heap)
    (hprint : print env format item live = some (some block, heap)) (allocate : Nat → Bool)
    (halloc : ∀ n, allocate n = true) (fuel : Nat) (hfuel : 3 * block.length + 3 ≤ fuel) :
    ∃ p, parse env.numbers.toDoubles allocate fuel heap.live (cstringAt block) = some p ∧
      (item.nesting ≤ nestingLimit → p.item = some (reread env.numbers item)) ∧
      (nestingLimit < item.nesting → p.item = none) ∧
      (p.item = some item ↔ item.nesting ≤ nestingLimit ∧ Keeps env.numbers item) := by
  have hblock : block = render env.numbers format 0 item ++ [0] := by
    obtain ⟨r, heap', hr, hcases⟩ :=
      CJsonPrinted.print_text env hnum.toFits format item live
    rw [hprint] at hr
    rcases hcases with ⟨hnone, -⟩ | ⟨hsome, -⟩
    · subst hnone
      cases hr
    · subst hsome
      cases hr
      rfl
  have hclean : 0 ∉ render env.numbers format 0 item := nul_notMem_render hnum.toFits item 0
  rw [hblock, List.length_append, List.length_singleton] at hfuel
  rw [hblock, cstringAt_append_nul hclean]
  obtain ⟨p, hp, hread, hrefused⟩ :=
    parse_text env.numbers hnum format item allocate halloc fuel heap.live (by omega)
  refine ⟨p, hp, hread, fun h => (hrefused h).1, ?_⟩
  rcases Nat.lt_or_ge nestingLimit item.nesting with hdeep | hflat
  · rw [(hrefused hdeep).1]
    exact iff_of_false (by rintro ⟨⟩) fun h => absurd h.1 (by omega)
  · rw [hread hflat, Option.some.injEq, reread_eq_iff]
    exact (and_iff_right hflat).symm

theorem wholeNumbers_numerals : Numerals wholeNumbers where
  toFits := wholeNumbers_fits
  g15_numeral := fun d _ => decimal_numeral d
  g17_numeral := fun d _ => decimal_numeral d

/-- `["A\n", true]` is printed and read again. -/
theorem print_parse_array :
    ∃ block heap p,
      print ⟨wholeNumbers, true, false, true, fun _ => true, fun _ _ => 0⟩ true
        (.array [.string [65, 10], .bool true]) 0 = some (some block, heap) ∧
      parse wholeNumbers.toDoubles (fun _ => true) (3 * block.length + 3) heap.live
        (cstringAt block) = some p ∧
      ((Item.array [.string [65, 10], .bool true] : Item Int32).nesting ≤ nestingLimit →
        p.item = some (reread wholeNumbers (.array [.string [65, 10], .bool true]))) ∧
      (nestingLimit < (Item.array [.string [65, 10], .bool true] : Item Int32).nesting →
        p.item = none) ∧
      (p.item = some (.array [.string [65, 10], .bool true]) ↔
        (Item.array [.string [65, 10], .bool true] : Item Int32).nesting ≤ nestingLimit ∧
          Keeps wholeNumbers (.array [.string [65, 10], .bool true])) := by
  obtain ⟨heap, hprint⟩ := CJsonPrinted.print_granted
    ⟨wholeNumbers, true, false, true, fun _ => true, fun _ _ => 0⟩ wholeNumbers_fits true
    (.array [.string [65, 10], .bool true]) 0 (fun _ => rfl) (by decide)
  obtain ⟨p, hp⟩ := print_parse ⟨wholeNumbers, true, false, true, fun _ => true, fun _ _ => 0⟩
    wholeNumbers_numerals true (.array [.string [65, 10], .bool true]) 0 _ heap hprint
    (fun _ => true) (fun _ => rfl) _ le_rfl
  exact ⟨_, heap, p, hprint, hp⟩

end Documents

end CJsonRoundTrip
