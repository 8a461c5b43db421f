import LinuxBuild.CJsonText

/-!
# The printer writes the text

Every part of the printer starts behind the text that is written already and leaves its own
text there. What it asks `ensure` for is at most two bytes more than it writes, so that a buffer
of a fixed size is large enough exactly when it has two bytes beside the text.
-/
namespace CJsonPrinted
open CString CJsonParse CJsonPrint CJsonText FallibleStep

variable {D : Type}

/-- How long the buffer may get, and how many blocks are held with it -/
structure Frame (env : PrintEnv D) where
  limit : Nat
  live : Nat
  le_intMax : limit ≤ intMax
  grows : env.noalloc = false → limit = intMax
  held : env.noalloc = false → 0 < live

variable {env : PrintEnv D} (F : Frame env)

/-- The buffer is there, with this memory and at this depth. -/
structure Kept (depth : Nat) (memory : List UInt8) (p : PrintBuffer) : Prop where
  buffer : p.buffer = some memory
  depth_eq : p.depth = depth
  live_eq : p.heap.live = F.live
  le_limit : memory.length ≤ F.limit
  full : env.noalloc = true → memory.length = F.limit

/-- The offset stands behind the text `before`. -/
def At (before : CStr) (depth : Nat) (p : PrintBuffer) : Prop :=
  ∃ behind, Kept F depth (before ++ behind) p ∧ p.offset = before.length ∧
    (behind = [] → before = [] ∧ (env.noalloc = true ∨ env.hasReallocate = true))

/-- There is room for more bytes and one. -/
def Room (before : CStr) (depth needed : Nat) (p : PrintBuffer) : Prop :=
  ∃ behind, Kept F depth (before ++ behind) p ∧ p.offset = before.length ∧ needed < behind.length

/-- The text is written behind `before`, with its terminator; the offset is somewhere in it. -/
def Written (before text : CStr) (depth : Nat) (p : PrintBuffer) : Prop :=
  ∃ behind, Kept F depth (before ++ (text ++ 0 :: behind)) p ∧ behind ≠ [] ∧
    before.length ≤ p.offset ∧ p.offset ≤ before.length + text.length

/-- The buffer may not get as long as it should, or an allocation was refused and the buffer is
gone. -/
def Failed (need : Nat) (p : PrintBuffer) : Prop :=
  (∃ memory, p.buffer = some memory ∧ p.heap.live = F.live ∧ F.limit < need ∧
      (env.noalloc = true → memory.length = F.limit)) ∨
    p.buffer = none ∧ p.heap.live + 1 = F.live ∧ env.noalloc = false ∧
      ∃ n < p.heap.asked, env.allocate n = false

variable {F} {before text : CStr} {depth need need' : Nat} {E : PrintBuffer → Prop}

theorem At.depth_eq {p : PrintBuffer} (h : At F before depth p) : p.depth = depth := by
  obtain ⟨behind, hkept, -, -⟩ := h
  exact hkept.depth_eq

theorem Failed.le {p : PrintBuffer} (h : Failed F need p) (hle : need ≤ need') :
    Failed F need' p := by
  rcases h with ⟨memory, hbuffer, hlive, hlimit, hfull⟩ | hgone
  · exact Or.inl ⟨memory, hbuffer, hlive, by omega, hfull⟩
  · exact Or.inr hgone

theorem Written.at_offset {p : PrintBuffer} (h : Written F before text depth p)
    (hoffset : p.offset = before.length + text.length) : At F (before ++ text) depth p := by
  obtain ⟨behind, hkept, -, -, -⟩ := h
  refine ⟨0 :: behind, ?_, ?_, fun h => by cases h⟩
  · rwa [List.append_assoc]
  · rw [hoffset, List.length_append]

/-- A text needs two bytes more than it has. -/
theorem Written.length_le {p : PrintBuffer} (h : Written F before text depth p) :
    before.length + text.length + 2 ≤ F.limit := by
  obtain ⟨behind, hkept, hbehind, -, -⟩ := h
  have hlimit := hkept.le_limit
  have hpos := List.length_pos_of_ne_nil hbehind
  simp only [List.length_append, List.length_cons] at hlimit
  omega

section Memory
variable {memory bytes behind : List UInt8}

theorem writeAt_append (h : bytes.length ≤ behind.length) :
    writeAt (before ++ behind) before.length bytes =
      some (before ++ (bytes ++ behind.drop bytes.length)) := by
  rw [writeAt, if_pos (by rw [List.length_append]; omega), List.take_left', List.append_assoc,
    List.drop_append]
  · simp
  · rfl

theorem length_freshBlock (env : PrintEnv D) (n size : Nat) :
    (freshBlock env n size).length = size := by
  rw [freshBlock, List.length_map, List.length_range]

theorem grow_spec {newsize : Nat} {p : PrintBuffer} (hkept : Kept F depth (before ++ behind) p)
    (hoffset : p.offset = before.length) (hbehind : behind = [] → env.hasReallocate = true)
    (halloc : env.noalloc = false) (hsize : before.length + behind.length ≤ newsize)
    (hlimit : newsize ≤ intMax) :
    (∃ t, grow env newsize (before ++ behind) p = some (true, t) ∧
      ∃ more, Kept F depth (before ++ more) t ∧ t.offset = before.length ∧
        before.length + more.length = newsize) ∨
      ∃ t, grow env newsize (before ++ behind) p = some (false, t) ∧ Failed F need t := by
  have hheld := F.held halloc
  have hlive := hkept.live_eq
  rw [grow]
  by_cases hgrant : env.allocate p.heap.asked = true
  · left
    by_cases hre : env.hasReallocate = true
    · simp only [hre, if_true, realloc, hgrant]
      refine ⟨_, rfl, behind ++ (freshBlock env p.heap.asked newsize).drop
        (before ++ behind).length, ?_, hoffset, ?_⟩
      · rw [List.take_of_length_le (by rw [List.length_append]; exact hsize), List.append_assoc]
        refine ⟨rfl, hkept.depth_eq, hlive, ?_, fun h => absurd (halloc.symm.trans h) (by decide)⟩
        simp only [List.length_append, List.length_drop, length_freshBlock, F.grows halloc]
        omega
      · simp only [List.length_append, List.length_drop, length_freshBlock]
        omega
    · have hpos : 0 < behind.length :=
        List.length_pos_of_ne_nil fun h => hre (hbehind h)
      have hplace : p.offset < (before ++ behind).length := by
        rw [List.length_append]
        omega
      simp only [if_neg hre, malloc, hgrant, if_true, if_pos hplace, Heap.free,
        if_pos (Nat.le_add_left 1 p.heap.live), Option.bind_eq_bind, Option.bind_some]
      refine ⟨_, rfl, behind.take 1 ++ (freshBlock env p.heap.asked newsize).drop (p.offset + 1),
        ?_, hoffset, ?_⟩
      · have htake : (before ++ behind).take (p.offset + 1) = before ++ behind.take 1 := by
          rw [hoffset, List.take_append, List.take_of_length_le (Nat.le_succ _),
            Nat.add_sub_cancel_left]
        rw [htake, List.append_assoc]
        refine ⟨rfl, hkept.depth_eq, by rw [← hlive]; rfl, ?_,
          fun h => absurd (halloc.symm.trans h) (by decide)⟩
        simp only [List.length_append, List.length_drop, List.length_take, length_freshBlock,
          F.grows halloc]
        omega
      · simp only [List.length_append, List.length_drop, List.length_take, length_freshBlock]
        omega
  · right
    have hrefused : env.allocate p.heap.asked = false := Bool.eq_false_iff.mpr hgrant
    have hfree : 1 ≤ p.heap.live := by omega
    by_cases hre : env.hasReallocate = true
    · simp only [hre, if_true, realloc, hrefused, if_neg Bool.false_ne_true, Heap.free,
        if_pos hfree, Option.bind_eq_bind, Option.bind_some]
      exact ⟨_, rfl, Or.inr ⟨rfl, by dsimp only; omega, halloc, p.heap.asked,
        Nat.lt_succ_self _, hrefused⟩⟩
    · simp only [if_neg hre, malloc, hrefused, if_neg Bool.false_ne_true, Heap.free,
        if_pos hfree, Option.bind_eq_bind, Option.bind_some]
      exact ⟨_, rfl, Or.inr ⟨rfl, by dsimp only; omega, halloc, p.heap.asked,
        Nat.lt_succ_self _, hrefused⟩⟩

end Memory

theorem ensure_spec (needed : Nat) :
    Triple (At F before depth) (ensure env needed) (Room F before depth needed)
      (Failed F (before.length + needed + 1)) := by
  rintro p ⟨behind, hkept, hoffset, hbehind⟩
  have hlimit := F.le_intMax
  have hlength : (before ++ behind).length = before.length + behind.length :=
    List.length_append
  have hstays : F.limit < before.length + needed + 1 →
      Failed F (before.length + needed + 1) p :=
    fun h => Or.inl ⟨_, hkept.buffer, hkept.live_eq, h, hkept.full⟩
  have hle := hkept.le_limit
  rw [hlength] at hle
  rw [ensure, hkept.buffer]
  dsimp only
  rw [if_neg]
  · by_cases hbig : intMax < needed
    · rw [if_pos hbig]
      exact Or.inr ⟨p, rfl, hstays (by omega)⟩
    rw [if_neg hbig, hoffset, hlength]
    by_cases hfits : needed + (before.length + 1) ≤ before.length + behind.length
    · rw [if_pos hfits]
      exact Or.inl ⟨p, rfl, behind, hkept, hoffset, by omega⟩
    rw [if_neg hfits]
    by_cases halloc : env.noalloc = true
    · rw [if_pos halloc]
      have hfull := hkept.full halloc
      exact Or.inr ⟨p, rfl, hstays (by omega)⟩
    rw [if_neg halloc]
    have halloc' : env.noalloc = false := Bool.eq_false_iff.mpr halloc
    have hgrow : ∀ newsize, needed + (before.length + 1) ≤ newsize → newsize ≤ intMax →
        (∃ t, grow env newsize (before ++ behind) p = some (true, t) ∧
          Room F before depth needed t) ∨
        ∃ t, grow env newsize (before ++ behind) p = some (false, t) ∧
          Failed F (before.length + needed + 1) t := by
      intro newsize hnew hmax
      rcases @grow_spec D env F before depth (before.length + needed + 1) behind newsize p hkept
        hoffset (fun h => (hbehind h).2.resolve_left halloc) halloc' (by omega) hmax with
        ⟨t, ht, more, hmore, hplace, hsum⟩ | hfailed
      · exact Or.inl ⟨t, ht, more, hmore, hplace, by omega⟩
      · exact Or.inr hfailed
    split_ifs with hhalf hmax
    · exact hgrow intMax hmax le_rfl
    · exact Or.inr ⟨p, rfl, hstays (by omega)⟩
    · exact hgrow _ (by omega) (by omega)
  · rw [hlength]
    rintro ⟨hpos, hout⟩
    have hnil : behind = [] := List.eq_nil_of_length_eq_zero (by omega)
    have hempty := (hbehind hnil).1
    rw [hnil, hempty] at hpos
    exact absurd hpos (by decide)

/-- Bytes behind the text -/
theorem store_spec {bytes : List UInt8} {needed n : Nat} (hbytes : bytes.length ≤ needed) :
    Triple (Room F before depth needed) (store bytes n)
      (fun p => ∃ behind, Kept F depth (before ++ (bytes ++ behind)) p ∧ behind ≠ [] ∧
        p.offset = before.length + n) E := by
  apply triple_of_succeeds
  rintro p ⟨behind, hkept, hoffset, hroom⟩
  have hle : bytes.length ≤ behind.length := by omega
  refine ⟨{ p with
    buffer := some (before ++ (bytes ++ behind.drop bytes.length)), offset := p.offset + n },
    ?_, behind.drop bytes.length, ⟨rfl, hkept.depth_eq, hkept.live_eq, ?_, ?_⟩, ?_, ?_⟩
  · rw [store, hkept.buffer, hoffset]
    simp only [Option.bind_eq_bind, Option.bind_some, writeAt_append hle]
  · have hlimit := hkept.le_limit
    simp only [List.length_append, List.length_drop] at hlimit ⊢
    omega
  · intro hnoalloc
    have hfull := hkept.full hnoalloc
    simp only [List.length_append, List.length_drop] at hfull ⊢
    omega
  · intro hnil
    have hlength := congrArg List.length hnil
    rw [List.length_drop, List.length_nil] at hlength
    omega
  · dsimp only
    rw [hoffset]

theorem emit_spec {bytes : List UInt8} {needed n : Nat} (hbytes : bytes.length ≤ needed) :
    Triple (At F before depth) (emit env needed bytes n)
      (fun p => ∃ behind, Kept F depth (before ++ (bytes ++ behind)) p ∧ behind ≠ [] ∧
        p.offset = before.length + n) (Failed F (before.length + needed + 1)) :=
  (ensure_spec needed).andThen (store_spec hbytes)

/-- A text without a terminator -/
theorem emit_open {bytes : List UInt8} {needed : Nat} (hbytes : bytes.length ≤ needed) :
    Triple (At F before depth) (emit env needed bytes bytes.length)
      (At F (before ++ bytes) depth) (Failed F (before.length + needed + 1)) := by
  refine (emit_spec hbytes).mono (fun _ => id) ?_ fun _ => id
  rintro p ⟨behind, hkept, hbehind, hoffset⟩
  refine ⟨behind, ?_, ?_, fun h => absurd h hbehind⟩
  · rwa [List.append_assoc]
  · rw [hoffset, List.length_append]

theorem emitText_spec (more : Nat) (text : List UInt8) :
    Triple (At F before depth) (emitText env more text) (At F (before ++ text) depth)
      (Failed F (before.length + (text.length + more) + 1)) :=
  emit_open (Nat.le_add_right _ more)

/-- A text that is written with its terminator -/
theorem emit_written {needed n : Nat} (hn : n ≤ text.length) (hneeded : needed = text.length + 1) :
    Triple (At F before depth) (emit env needed (text ++ [0]) n) (Written F before text depth)
      (Failed F (before.length + text.length + 2)) := by
  refine (emit_spec (by rw [hneeded, List.length_append]; exact le_rfl)).mono (fun _ => id) ?_
    fun _ h => h.le (by omega)
  rintro p ⟨behind, hkept, hbehind, hoffset⟩
  rw [List.append_assoc] at hkept
  exact ⟨behind, hkept, hbehind, by omega, by omega⟩

theorem emitTerminated_spec (text : List UInt8) :
    Triple (At F before depth) (emitTerminated env text) (At F (before ++ text) depth)
      (Failed F (before.length + text.length + 2)) := by
  refine (emit_spec (by rw [List.length_append]; exact le_rfl)).mono (fun _ => id) ?_
    fun _ h => h.le (by omega)
  rintro p ⟨behind, hkept, hbehind, hoffset⟩
  rw [List.append_assoc] at hkept
  exact Written.at_offset ⟨behind, hkept, hbehind, by omega, by omega⟩ hoffset

theorem updateOffset_written (htext : 0 ∉ text) :
    Triple (Written F before text depth) updateOffset
      (fun p => Written F before text depth p ∧ p.offset = before.length + text.length) E := by
  apply triple_of_succeeds
  rintro p ⟨behind, hkept, hbehind, hge, hle⟩
  -- what is left of the text at the offset
  have hsplit : (before ++ (text ++ 0 :: behind)).drop p.offset =
      text.drop (p.offset - before.length) ++ 0 :: behind := by
    have hinside : p.offset - before.length - text.length = 0 := by omega
    rw [List.drop_append, List.drop_eq_nil_of_le hge, List.nil_append, List.drop_append,
      hinside, List.drop_zero]
  have hclean : 0 ∉ text.drop (p.offset - before.length) := fun h => htext (List.mem_of_mem_drop h)
  refine ⟨{ p with offset := before.length + text.length }, ?_, ⟨behind, ⟨hkept.buffer,
    hkept.depth_eq, hkept.live_eq, hkept.le_limit, hkept.full⟩, hbehind, Nat.le_add_right _ _,
    le_rfl⟩, rfl⟩
  rw [updateOffset, hkept.buffer]
  dsimp only
  rw [hsplit, cstringAt_append_nul hclean, List.length_drop,
    show p.offset + (text.length - (p.offset - before.length)) = before.length + text.length by
      omega, if_pos]
  simp only [List.length_append, List.length_cons]
  omega

theorem updateOffset_spec (htext : 0 ∉ text) :
    Triple (Written F before text depth) updateOffset (At F (before ++ text) depth) E :=
  (updateOffset_written htext).mono (fun _ => id) (fun _ h => h.1.at_offset h.2) fun _ => id

section Strings
variable {s : CStr} {written behind : List UInt8}

/-- One write of the loop, at the end of what it has written -/
theorem writeAt_end {place : Nat} {bytes : List UInt8} (hplace : place = written.length)
    (h : bytes.length ≤ behind.length) :
    ∃ behind', writeAt (written ++ behind) place bytes = some (written ++ bytes ++ behind') ∧
      bytes.length + behind'.length = behind.length := by
  subst hplace
  refine ⟨behind.drop bytes.length, ?_, ?_⟩
  · rw [writeAt_append h, List.append_assoc]
  · rw [List.length_drop]
    omega

/-- A terminator that `sprintf` leaves is written over. -/
theorem writeAt_nul {place : Nat} {bytes : List UInt8} (hplace : place = written.length)
    (h : bytes.length < behind.length) :
    ∃ behind', writeAt (written ++ behind) place (bytes ++ [0]) =
        some (written ++ bytes ++ behind') ∧
      bytes.length + behind'.length = behind.length := by
  obtain ⟨behind', hwrite, hlength⟩ := @writeAt_end written behind place (bytes ++ [0]) hplace
    (by rw [List.length_append]; exact h)
  refine ⟨0 :: behind', ?_, ?_⟩
  · rw [hwrite]
    simp
  · rw [List.length_append, List.length_singleton] at hlength
    rw [List.length_cons]
    omega

theorem escapeLoop_spec {output : Nat} (houtput : output = written.length)
    (h : (s.flatMap escaped).length < behind.length) :
    ∃ behind', escapeLoop s output (written ++ behind) =
        some (written ++ s.flatMap escaped ++ behind') ∧
      (s.flatMap escaped).length + behind'.length = behind.length := by
  induction s generalizing output written behind with
  | nil => exact ⟨behind, by rw [escapeLoop, List.flatMap_nil, List.append_nil], by simp⟩
  | cons c s ih =>
    rw [List.flatMap_cons, List.length_append] at h
    rw [List.flatMap_cons, escapeLoop, List.length_append, ← List.append_assoc]
    by_cases hplain : 31 < c ∧ c ≠ 34 ∧ c ≠ 92
    · have hescaped : escaped c = [c] := if_pos hplain
      rw [if_pos hplain]
      rw [hescaped, List.length_singleton] at h ⊢
      obtain ⟨b₁, hb₁, hl₁⟩ := @writeAt_end written behind output [c] houtput (by simp; omega)
      rw [List.length_singleton] at hl₁
      obtain ⟨b₂, hb₂, hl₂⟩ := @ih (written ++ [c]) b₁ (output + 1)
        (by simp [houtput]) (by omega)
      refine ⟨b₂, ?_, by omega⟩
      rw [hb₁]
      exact hb₂
    · rw [if_neg hplain]
      rw [escaped, if_neg hplain] at h ⊢
      obtain ⟨b₁, hb₁, hl₁⟩ := @writeAt_end written behind output [92] houtput (by simp; omega)
      rw [List.length_singleton] at hl₁
      simp only [hb₁, Option.bind_eq_bind, Option.bind_some]
      cases hletter : escapeLetter c with
      | some e =>
        simp only [hletter, Option.map_some, Option.getD_some, List.length_cons,
          List.length_nil] at h ⊢
        obtain ⟨b₂, hb₂, hl₂⟩ := @writeAt_end (written ++ [92]) b₁ (output + 1) [e]
          (by simp [houtput]) (by simp; omega)
        rw [List.length_singleton] at hl₂
        obtain ⟨b₃, hb₃, hl₃⟩ := @ih (written ++ [92] ++ [e]) b₂ (output + 2)
          (by simp [houtput]) (by omega)
        refine ⟨b₃, ?_, by omega⟩
        rw [hb₂]
        simpa using hb₃
      | none =>
        have hlength : (unicodeEscape c).length = 5 := rfl
        simp only [hletter, Option.map_none, Option.getD_none, List.length_cons, hlength] at h ⊢
        obtain ⟨b₂, hb₂, hl₂⟩ := @writeAt_nul (written ++ [92]) b₁ (output + 1) (unicodeEscape c)
          (by simp [houtput]) (by rw [hlength]; omega)
        rw [hlength] at hl₂
        obtain ⟨b₃, hb₃, hl₃⟩ := @ih (written ++ [92] ++ unicodeEscape c) b₂
          (output + 6)
          (by simp [houtput, hlength]) (by omega)
        refine ⟨b₃, ?_, by omega⟩
        rw [hb₂]
        simpa using hb₃

theorem printStringPtr_spec (input : CStr) :
    Triple (At F before depth) (printStringPtr env input) (Written F before (quoted input) depth)
      (Failed F (before.length + (quoted input).length + 2)) := by
  have hquoted := length_quoted input
  have hlength := length_flatMap_escaped input
  have hfail : ∀ p, Failed F (before.length + (input.length + escapeCharacters input + 3) + 1) p →
      Failed F (before.length + (quoted input).length + 2) p := fun p h => h.le (by omega)
  refine ((ensure_spec _).failure hfail).andThen (triple_of_succeeds ?_)
  rintro p ⟨behind, hkept, hoffset, hroom⟩
  have hlimit := hkept.le_limit
  have hfull := hkept.full
  rw [List.length_append] at hlimit hfull
  obtain ⟨b₁, hb₁, hl₁⟩ := @writeAt_end before behind p.offset [34] hoffset (by simp; omega)
  rw [List.length_singleton] at hl₁
  have hbody : ∃ b₂, (if escapeCharacters input = 0
      then writeAt (before ++ [34] ++ b₁) (p.offset + 1) input
      else escapeLoop input (p.offset + 1) (before ++ [34] ++ b₁)) =
        some (before ++ [34] ++ input.flatMap escaped ++ b₂) ∧
      (input.flatMap escaped).length + b₂.length = b₁.length := by
    have hplace : p.offset + 1 = (before ++ [34]).length := by simp [hoffset]
    split_ifs with hcost
    · rw [flatMap_escaped_of_cost hcost]
      exact writeAt_end hplace (by omega)
    · exact escapeLoop_spec hplace (by omega)
  obtain ⟨b₂, hb₂, hl₂⟩ := hbody
  obtain ⟨b₃, hb₃, hl₃⟩ := @writeAt_end (before ++ [34] ++ input.flatMap escaped) b₂
    (p.offset + (input.length + escapeCharacters input) + 1) [34, 0]
    (by simp only [List.length_append, List.length_singleton]; omega) (by simp; omega)
  rw [List.length_cons, List.length_singleton] at hl₃
  have htext : before ++ [34] ++ input.flatMap escaped ++ [34, 0] ++ b₃ =
      before ++ (quoted input ++ 0 :: b₃) := by simp [quoted]
  rw [htext] at hb₃
  refine ⟨{ p with buffer := some (before ++ (quoted input ++ 0 :: b₃)) }, ?_, b₃,
    ⟨rfl, hkept.depth_eq, hkept.live_eq, ?_, ?_⟩, ?_, by dsimp only; omega, by dsimp only; omega⟩
  · simp only [hkept.buffer, Option.bind_eq_bind, Option.bind_some, hb₁]
    by_cases hcost : escapeCharacters input = 0
    · rw [if_pos hcost] at hb₂ ⊢
      simp only [hb₂, Option.bind_some, hb₃]
    · rw [if_neg hcost] at hb₂ ⊢
      simp only [hb₂, Option.bind_some, hb₃]
  · simp only [List.length_append, List.length_cons]
    omega
  · intro hnoalloc
    have := hfull hnoalloc
    simp only [List.length_append, List.length_cons]
    omega
  · rintro rfl
    rw [List.length_nil] at hl₃
    omega

end Strings

section Values

theorem deeper_spec : Triple (At F before depth) deeper (At F before (depth + 1)) E := by
  apply triple_of_succeeds
  rintro p ⟨behind, hkept, hoffset, hbehind⟩
  exact ⟨_, rfl, behind, ⟨hkept.buffer, congrArg (· + 1) hkept.depth_eq, hkept.live_eq,
    hkept.le_limit, hkept.full⟩, hoffset, hbehind⟩

theorem shallower_spec :
    Triple (Written F before text (depth + 1)) shallower (Written F before text depth) E := by
  apply triple_of_succeeds
  rintro p ⟨behind, hkept, hbehind, hge, hle⟩
  exact ⟨_, rfl, behind, ⟨hkept.buffer, congrArg (· - 1) hkept.depth_eq, hkept.live_eq,
    hkept.le_limit, hkept.full⟩, hbehind, hge, hle⟩

theorem Written.absorb {first : CStr} {p : PrintBuffer}
    (h : Written F (before ++ first) text depth p) : Written F before (first ++ text) depth p := by
  obtain ⟨behind, hkept, hbehind, hge, hle⟩ := h
  rw [List.length_append] at hge hle
  refine ⟨behind, ?_, hbehind, by omega, by rw [List.length_append]; omega⟩
  rwa [List.append_assoc, ← List.append_assoc first] at hkept

theorem printNumber_spec (h : Fits env.numbers) (d : D) (i : Int32) :
    Triple (At F before depth) (printNumber env d i)
      (Written F before (numberText env.numbers d i) depth)
      (Failed F (before.length + (numberText env.numbers d i).length + 2)) := by
  intro p hp
  rw [printNumber, if_pos (h.numberText d i).1]
  exact emit_written le_rfl rfl p hp

/-- `print_value` prints the item, wherever it starts. -/
def Prints (F : Frame env) (item : Item D) : Prop :=
  ∀ before depth, Triple (At F before depth) (printValue env item)
    (Written F before (render env.numbers env.format depth item) depth)
    (Failed F (before.length + (render env.numbers env.format depth item).length + 2))

theorem printArrayLoop_spec (hfits : Fits env.numbers) {child : List (Item D)}
    (h : ∀ item ∈ child, Prints F item) :
    Triple (At F before depth) (printArrayLoop env child)
      (At F (before ++ renderItems env.numbers env.format depth child) depth)
      (Failed F (before.length + (renderItems env.numbers env.format depth child).length + 2)) := by
  induction child generalizing before with
  | nil =>
    rw [printArrayLoop, renderItems, List.append_nil]
    exact triple_done
  | cons item items ih =>
    have hrest := fun before => @ih before fun i hi => h i (List.mem_cons_of_mem _ hi)
    rw [printArrayLoop, renderItems]
    generalize htext : render env.numbers env.format depth item = text
    have hclean : 0 ∉ text := by
      rw [← htext]
      exact nul_notMem_render hfits item depth
    have hvalue := h item List.mem_cons_self before depth
    rw [htext] at hvalue
    rw [← List.append_assoc, ← List.append_assoc]
    refine (hvalue.failure fun _ h => h.le ?_).andThen ((updateOffset_spec hclean).andThen
      (Triple.andThen ?_ ((hrest _).failure fun _ h => h.le ?_)))
    · simp only [List.length_append]
      omega
    · split_ifs
      · rw [List.append_nil]
        exact triple_done
      · refine (emitTerminated_spec _).failure fun _ h => h.le ?_
        simp only [List.length_append]
        omega
    · simp only [List.length_append]
      omega

theorem tabs_spec (before : CStr) :
    Triple (At F before depth)
      (fun p => if env.format then emitText env 0 (tabs true p.depth) p else done p)
      (At F (before ++ tabs env.format depth) depth)
      (Failed F (before.length + (tabs env.format depth).length + 1)) := by
  intro p hp
  dsimp only
  by_cases hformat : env.format = true
  · rw [if_pos hformat, hformat, hp.depth_eq]
    exact emitText_spec 0 _ p hp
  · rw [if_neg hformat, Bool.eq_false_iff.mpr hformat]
    exact Or.inl ⟨p, rfl, by rwa [tabs, formatted, if_neg Bool.false_ne_true, List.append_nil]⟩

/-- The brace behind the members stands as deep as the object. -/
theorem closeBrace_spec :
    Triple (At F before (depth + 1))
      (fun p => emit env (if env.format then p.depth + 1 else 2)
        (tabs env.format (p.depth - 1) ++ [125, 0]) 0 p)
      (Written F before (tabs env.format depth ++ [125]) (depth + 1))
      (Failed F (before.length + (tabs env.format depth ++ [125]).length + 2)) := by
  intro p hp
  dsimp only
  have hneeded : (if env.format then p.depth + 1 else 2) =
      (tabs env.format depth ++ [125]).length + 1 := by
    rw [hp.depth_eq, tabs, formatted]
    split_ifs <;> simp
  have hbytes : tabs env.format (p.depth - 1) ++ [125, 0] =
      tabs env.format depth ++ [125] ++ [0] := by
    rw [hp.depth_eq, Nat.add_sub_cancel, List.append_assoc]
    rfl
  rw [hneeded, hbytes]
  exact emit_written (Nat.zero_le _) rfl p hp

theorem printObjectLoop_spec (hfits : Fits env.numbers) {child : List (List UInt8 × Item D)}
    (h : ∀ member ∈ child, Prints F member.2) :
    Triple (At F before depth) (printObjectLoop env child)
      (At F (before ++ renderMembers env.numbers env.format depth child) depth)
      (Failed F
        (before.length + (renderMembers env.numbers env.format depth child).length + 2)) := by
  induction child generalizing before with
  | nil =>
    rw [printObjectLoop, renderMembers, List.append_nil]
    exact triple_done
  | cons member members ih =>
    obtain ⟨name, item⟩ := member
    have hrest := fun before => @ih before fun m hm => h m (List.mem_cons_of_mem _ hm)
    rw [printObjectLoop, renderMembers]
    generalize htext : render env.numbers env.format depth item = text
    have hclean : 0 ∉ text := by
      rw [← htext]
      exact nul_notMem_render hfits item depth
    have hvalue := fun before => h (name, item) List.mem_cons_self before depth
    rw [htext] at hvalue
    simp only [← List.append_assoc before]
    refine Triple.andThen ?_ (((printStringPtr_spec _).failure fun _ h => h.le ?_).andThen
      ((updateOffset_spec (nul_notMem_quoted _)).andThen
        (((emitText_spec 0 _).failure fun _ h => h.le ?_).andThen
          (((hvalue _).failure fun _ h => h.le ?_).andThen ((updateOffset_spec hclean).andThen
            (((emitTerminated_spec _).failure fun _ h => h.le ?_).andThen
              ((hrest _).failure fun _ h => h.le ?_)))))))
    · refine (tabs_spec _).failure fun _ h => h.le ?_
      simp only [List.length_append]
      omega
    all_goals
      simp only [List.length_append]
      omega

theorem printValue_spec (hfits : Fits env.numbers) (F : Frame env) (item : Item D) :
    Prints F item := by
  induction item using item_induction with
  | null =>
    intro before depth
    rw [printValue, render]
    exact emit_written (Nat.zero_le _) rfl
  | bool b =>
    intro before depth
    cases b <;> rw [printValue, render] <;> exact emit_written (Nat.zero_le _) rfl
  | number d i =>
    intro before depth
    rw [printValue, render]
    exact printNumber_spec hfits d i
  | string s =>
    intro before depth
    rw [printValue, render]
    exact printStringPtr_spec _
  | array child ih =>
    intro before depth
    have hloop := fun before => @printArrayLoop_spec D env F before (depth + 1) hfits child ih
    rw [printValue, render]
    generalize renderItems env.numbers env.format (depth + 1) child = text at hloop
    have hopen := @emit_open D env F before depth [91] 1 le_rfl
    have hclose := @emit_written D env F (before ++ [91] ++ text) [93] (depth + 1) 2 0
      (Nat.zero_le _) rfl
    refine (hopen.failure fun _ h => h.le ?_).andThen (deeper_spec.andThen
      (((hloop _).failure fun _ h => h.le ?_).andThen
        (Triple.andThen (hclose.mono (fun _ => id) ?_ fun _ h => h.le ?_) shallower_spec)))
    · simp only [List.length_cons, List.length_append]
      omega
    · simp only [List.length_cons, List.length_append, List.length_nil]
      omega
    · intro p hp
      rw [List.append_assoc] at hp
      simpa using hp.absorb
    · simp only [List.length_cons, List.length_append, List.length_nil]
      omega
  | object child ih =>
    intro before depth
    have hloop := fun before => @printObjectLoop_spec D env F before (depth + 1) hfits child ih
    rw [printValue, render]
    generalize renderMembers env.numbers env.format (depth + 1) child = text at hloop
    refine ((emitText_spec 1 _).failure fun _ h => h.le ?_).andThen (deeper_spec.andThen
      (((hloop _).failure fun _ h => h.le ?_).andThen
        (Triple.andThen (closeBrace_spec.mono (fun _ => id) ?_ fun _ h => h.le ?_)
          shallower_spec)))
    · simp only [List.length_append]
      omega
    · simp only [List.length_append]
      omega
    · intro p hp
      rw [List.append_assoc] at hp
      simpa using hp.absorb
    · simp only [List.length_append]
      omega

end Values

section Entry

/-- A buffer that may grow, of one block beside those held before -/
def growing (env : PrintEnv D) (live : Nat) : Frame env where
  limit := intMax
  live := live + 1
  le_intMax := le_rfl
  grows := fun _ => rfl
  held := fun _ => Nat.succ_pos live

/-- A buffer of a fixed size -/
def fixed (env : PrintEnv D) (hnoalloc : env.noalloc = true) (limit : Nat)
    (h : limit ≤ intMax) : Frame env where
  limit := limit
  live := 0
  le_intMax := h
  grows := fun h => absurd (h.symm.trans hnoalloc) (by decide)
  held := fun h => absurd (h.symm.trans hnoalloc) (by decide)

variable {live : Nat} {p : PrintBuffer} {heap : Heap} {r : Option (List UInt8)}

/-- No text: nothing is held any more, and there is a reason. -/
def GivenUp (env : PrintEnv D) (live need : Nat) (heap : Heap) : Prop :=
  heap.live = live ∧ (intMax < need ∨ ∃ n < heap.asked, env.allocate n = false)

theorem giveUp_spec (h : Failed (growing env live) need p) :
    ∃ heap, giveUp p = some (none, heap) ∧ GivenUp env live need heap := by
  rcases h with ⟨memory, hbuffer, hlive, hlimit, -⟩ | ⟨hbuffer, hlive, -, n, hn, hrefused⟩
  · change p.heap.live = live + 1 at hlive
    refine ⟨⟨p.heap.asked, p.heap.live - 1⟩, ?_, ?_, Or.inl hlimit⟩
    · rw [giveUp, hbuffer]
      simp only [Heap.free, if_pos (hlive ▸ Nat.le_add_left 1 live), Option.bind_eq_bind,
        Option.bind_some]
    · dsimp only
      omega
  · change p.heap.live + 1 = live + 1 at hlive
    refine ⟨p.heap, ?_, by omega, Or.inr ⟨n, hn, hrefused⟩⟩
    rw [giveUp, hbuffer]

/-- The text moves to a block of its own, or there is no memory for it. -/
theorem shrink_spec (h : Written (growing env live) [] text depth p)
    (hoffset : p.offset = text.length) :
    ∃ r heap, shrink env p = some (r, heap) ∧
      (r = none ∧ GivenUp env live need heap ∨
        r = some (text ++ [0]) ∧ heap.live = live + 1) := by
  obtain ⟨behind, hkept, -, -, -⟩ := h
  have hbuffer := hkept.buffer
  have hlive := hkept.live_eq
  rw [List.nil_append] at hbuffer
  change p.heap.live = live + 1 at hlive
  have htake : (text ++ 0 :: behind).take (p.offset + 1) = text ++ [0] := by
    rw [hoffset, List.take_append, List.take_of_length_le (Nat.le_succ _),
      Nat.add_sub_cancel_left, List.take_succ_cons, List.take_zero]
  have hfree : 1 ≤ p.heap.live := hlive ▸ Nat.le_add_left 1 live
  rw [shrink, hbuffer]
  simp only [Option.bind_eq_bind, Option.bind_some]
  by_cases hgrant : env.allocate p.heap.asked = true
  · by_cases hre : env.hasReallocate = true
    · have hfresh : (freshBlock env p.heap.asked (p.offset + 1)).drop
          (text ++ 0 :: behind).length = [] := by
        refine List.drop_eq_nil_of_le ?_
        rw [length_freshBlock, hoffset, List.length_append, List.length_cons]
        omega
      simp only [hre, if_true, realloc, hgrant, hfresh, List.append_nil, htake]
      exact ⟨_, _, rfl, Or.inr ⟨rfl, hlive⟩⟩
    · have hblock := length_freshBlock env p.heap.asked (p.offset + 1)
      have hcopy : writeAt (freshBlock env p.heap.asked (p.offset + 1)) 0 (text ++ [0]) =
          some (text ++ [0]) := by
        have h := @writeAt_append [] (text ++ [0]) (freshBlock env p.heap.asked (p.offset + 1))
          (by rw [hblock, hoffset, List.length_append, List.length_singleton])
        rwa [List.nil_append, List.nil_append, List.drop_eq_nil_of_le, List.append_nil] at h
        rw [hblock, hoffset, List.length_append, List.length_singleton]
      have hend : writeAt (text ++ [0]) p.offset [0] = some (text ++ [0]) := by
        rw [hoffset]
        exact writeAt_append le_rfl
      simp only [if_neg hre, malloc, hgrant, if_true, htake, hcopy, hend, Option.bind_some,
        Heap.free, if_pos (Nat.le_add_left 1 p.heap.live)]
      exact ⟨_, _, rfl, Or.inr ⟨rfl, by rw [← hlive]; rfl⟩⟩
  · have hrefused : env.allocate p.heap.asked = false := Bool.eq_false_iff.mpr hgrant
    have hgone : GivenUp env live need ⟨p.heap.asked + 1, p.heap.live - 1⟩ :=
      ⟨by dsimp only; omega, Or.inr ⟨_, Nat.lt_succ_self _, hrefused⟩⟩
    by_cases hre : env.hasReallocate = true
    · simp only [hre, if_true, realloc, hrefused, if_neg Bool.false_ne_true, giveUp, Heap.free,
        if_pos hfree, Option.bind_eq_bind, Option.bind_some]
      exact ⟨_, _, rfl, Or.inl ⟨rfl, hgone⟩⟩
    · simp only [if_neg hre, malloc, hrefused, if_neg Bool.false_ne_true, giveUp, Heap.free,
        if_pos hfree, Option.bind_eq_bind, Option.bind_some]
      exact ⟨_, _, rfl, Or.inl ⟨rfl, hgone⟩⟩

/-- The printer starts at the front of a block. -/
theorem at_start {memory : List UInt8} (hlive : heap.live = live + 1)
    (hlength : memory.length ≤ intMax) (halloc : env.noalloc = false)
    (h : memory = [] → env.hasReallocate = true) :
    At (growing env live) [] 0 ⟨some memory, 0, 0, heap⟩ :=
  ⟨memory, ⟨rfl, rfl, hlive, hlength, fun h => absurd (halloc.symm.trans h) (by decide)⟩, rfl,
    fun hnil => ⟨rfl, Or.inr (h hnil)⟩⟩

/-- `print` returns the text of the item in a block of its own, or nothing. Without a refused
allocation there is a text exactly as long as its length stays two bytes below `INT_MAX`. -/
theorem print_text (env : PrintEnv D) (hfits : Fits env.numbers) (format : Bool)
    (item : Item D) (live : Nat) :
    ∃ r heap, print env format item live = some (r, heap) ∧
      (r = none ∧ GivenUp env live ((render env.numbers format 0 item).length + 2) heap ∨
        r = some (render env.numbers format 0 item ++ [0]) ∧ heap.live = live + 1 ∧
          (render env.numbers format 0 item).length + 2 ≤ intMax) := by
  rw [print]
  dsimp only
  generalize henv : ({ env with format := format, noalloc := false } : PrintEnv D) = env'
  have hnumbers : env'.numbers = env.numbers := by rw [← henv]
  have hformat : env'.format = format := by rw [← henv]
  have hallocate : env'.allocate = env.allocate := by rw [← henv]
  have halloc : env'.noalloc = false := by rw [← henv]
  have hgiven : ∀ need heap, GivenUp env' live need heap → GivenUp env live need heap := by
    intro need heap h
    rwa [GivenUp, hallocate] at h
  rw [← hnumbers] at hfits ⊢
  rw [← hformat]
  rw [malloc]
  split_ifs with hgrant
  · have hfresh := length_freshBlock env' 0 256
    have hstart := @at_start D env' live ⟨1, live + 1⟩ (freshBlock env' 0 256) rfl
      (by rw [hfresh]; decide) halloc (fun h => by rw [h] at hfresh; cases hfresh)
    have hclean : 0 ∉ render env'.numbers env'.format 0 item := nul_notMem_render hfits item 0
    have hspec := (printValue_spec hfits (growing env' live) item [] 0).andThen
      (updateOffset_written hclean)
    dsimp only
    rcases hspec _ hstart with ⟨p, hp, hwritten, hoffset⟩ | ⟨p, hp, hfailed⟩
    · simp only [hp, Option.bind_eq_bind, Option.bind_some, if_true]
      rw [List.length_nil, Nat.zero_add] at hoffset
      obtain ⟨r, heap, hr, hcases⟩ := @shrink_spec D env' _ 0
        ((render env'.numbers env'.format 0 item).length + 2) live p hwritten hoffset
      have hle := hwritten.length_le
      rw [List.length_nil, Nat.zero_add] at hle
      refine ⟨r, heap, hr, ?_⟩
      rcases hcases with ⟨hnone, hgone⟩ | ⟨hsome, hlive⟩
      · exact Or.inl ⟨hnone, hgiven _ _ hgone⟩
      · exact Or.inr ⟨hsome, hlive, hle⟩
    · simp only [hp, Option.bind_eq_bind, Option.bind_some, if_neg Bool.false_ne_true]
      rw [List.length_nil, Nat.zero_add] at hfailed
      obtain ⟨heap, hheap, hgone⟩ := giveUp_spec hfailed
      exact ⟨none, heap, hheap, Or.inl ⟨rfl, hgiven _ _ hgone⟩⟩
  · exact ⟨none, _, rfl, Or.inl ⟨rfl, rfl, Or.inr ⟨0, Nat.zero_lt_one, by
      rw [← hallocate]; exact Bool.eq_false_iff.mpr hgrant⟩⟩⟩

theorem print_granted (env : PrintEnv D) (hfits : Fits env.numbers) (format : Bool)
    (item : Item D) (live : Nat) (hgrant : ∀ n, env.allocate n = true)
    (hle : (render env.numbers format 0 item).length + 2 ≤ intMax) :
    ∃ heap, print env format item live =
      some (some (render env.numbers format 0 item ++ [0]), heap) := by
  obtain ⟨r, heap, hr, hcases⟩ := print_text env hfits format item live
  rcases hcases with ⟨-, -, hwhy⟩ | ⟨hsome, -⟩
  · rcases hwhy with hlong | ⟨n, -, hrefused⟩
    · omega
    · rw [hgrant n] at hrefused
      cases hrefused
  · exact ⟨heap, hsome ▸ hr⟩

/-- `print` does not fault, and it holds the block of its text or nothing. If no allocation is
refused there is a text exactly when it ends two bytes below `INT_MAX`. -/
theorem print_iff (env : PrintEnv D) (hfits : Fits env.numbers) (format : Bool) (item : Item D)
    (live : Nat) :
    ∃ r heap, print env format item live = some (r, heap) ∧
      heap.live = live + (if r.isSome then 1 else 0) ∧
      (∀ block, r = some block → block = render env.numbers format 0 item ++ [0]) ∧
      ((∀ n, env.allocate n = true) →
        (r.isSome ↔ (render env.numbers format 0 item).length + 2 ≤ intMax)) := by
  obtain ⟨r, heap, hr, hcases⟩ := print_text env hfits format item live
  refine ⟨r, heap, hr, ?_⟩
  rcases hcases with ⟨rfl, hlive, hwhy⟩ | ⟨rfl, hlive, hle⟩
  · refine ⟨hlive, by rintro _ ⟨⟩, fun hgrant => iff_of_false (by decide) ?_⟩
    rcases hwhy with hlong | ⟨n, -, hrefused⟩
    · omega
    · rw [hgrant n] at hrefused
      cases hrefused
  · refine ⟨hlive, ?_, fun _ => iff_of_true rfl hle⟩
    rintro _ ⟨⟩
    rfl

/-- An array that contains itself as text, and a heap that is used up -/
theorem print_iff_array :
    ∃ r heap, print ⟨wholeNumbers, false, false, false, (· < 1), fun _ _ => 0⟩ true
        (.array [.array [], .string [91, 93]]) 4 = some (r, heap) ∧
      heap.live = 4 + (if r.isSome then 1 else 0) ∧
      (∀ block, r = some block →
        block = render wholeNumbers true 0 (.array [.array [], .string [91, 93]]) ++ [0]) ∧
      ((∀ n : Nat, decide (n < 1) = true) → (r.isSome ↔
        (render wholeNumbers true 0 (.array [.array [], .string [91, 93]])).length + 2 ≤
          intMax)) :=
  print_iff ⟨wholeNumbers, false, false, false, (· < 1), fun _ _ => 0⟩ wholeNumbers_fits true
    (.array [.array [], .string [91, 93]]) 4

/-- `cJSON_PrintBuffered` returns a buffer that holds the text of the item, or nothing. An empty
buffer needs a `realloc`: without one, `ensure` copies a byte that is not there. -/
theorem printBuffered_returns (env : PrintEnv D) (hfits : Fits env.numbers) (format : Bool)
    (item : Item D) (prebuffer : Int32) (live : Nat)
    (hempty : prebuffer ≠ 0 ∨ env.hasReallocate = true) :
    ∃ r heap, printBuffered env format item prebuffer live = some (r, heap) ∧
      (r = none ∧ heap.live = live ∧ (prebuffer < 0 ∨
          intMax < (render env.numbers format 0 item).length + 2 ∨
          ∃ n < heap.asked, env.allocate n = false) ∨
        ∃ memory, r = some memory ∧ cstringAt memory = render env.numbers format 0 item ∧
          heap.live = live + 1 ∧
          (render env.numbers format 0 item).length + 2 ≤ memory.length) := by
  rw [printBuffered]
  dsimp only
  generalize henv : ({ env with format := format, noalloc := false } : PrintEnv D) = env'
  have hnumbers : env'.numbers = env.numbers := by rw [← henv]
  have hformat : env'.format = format := by rw [← henv]
  have hallocate : env'.allocate = env.allocate := by rw [← henv]
  have hre : env'.hasReallocate = env.hasReallocate := by rw [← henv]
  have halloc : env'.noalloc = false := by rw [← henv]
  rw [← hnumbers] at hfits ⊢
  rw [← hre] at hempty
  rw [← hformat, ← hallocate]
  by_cases hneg : prebuffer < 0
  · rw [if_pos hneg]
    exact ⟨none, _, rfl, Or.inl ⟨rfl, rfl, Or.inl hneg⟩⟩
  rw [if_neg hneg, malloc]
  split_ifs with hgrant
  · have hfresh := length_freshBlock env' 0 prebuffer.toInt.toNat
    have hmax : prebuffer.toInt.toNat ≤ intMax := by
      have hlt := prebuffer.toInt_lt
      rw [intMax]
      omega
    have hstart := @at_start D env' live ⟨1, live + 1⟩ (freshBlock env' 0 prebuffer.toInt.toNat)
      rfl (by rwa [hfresh]) halloc (fun h => hempty.resolve_left fun hne => by
        rw [h, List.length_nil] at hfresh
        have hge := Int32.le_iff_toInt_le.mp (Int32.not_lt.mp hneg)
        change 0 ≤ prebuffer.toInt at hge
        exact hne (Int32.toInt_inj.mp (show prebuffer.toInt = 0 by omega)))
    have hclean : 0 ∉ render env'.numbers env'.format 0 item := nul_notMem_render hfits item 0
    have hspec := printValue_spec hfits (growing env' live) item [] 0
    dsimp only
    rcases hspec _ hstart with ⟨p, hp, hwritten⟩ | ⟨p, hp, hfailed⟩
    · simp only [hp, Option.bind_eq_bind, Option.bind_some, if_true]
      obtain ⟨behind, hkept, hbehind, -, -⟩ := hwritten
      refine ⟨p.buffer, p.heap, rfl, Or.inr ⟨_, hkept.buffer, ?_, hkept.live_eq, ?_⟩⟩
      · exact cstringAt_append_nul hclean behind
      · have hpos := List.length_pos_of_ne_nil hbehind
        simp only [List.length_append, List.length_cons, List.length_nil]
        omega
    · simp only [hp, Option.bind_eq_bind, Option.bind_some, if_neg Bool.false_ne_true]
      rw [List.length_nil, Nat.zero_add] at hfailed
      obtain ⟨heap, hheap, hlive, hwhy⟩ := giveUp_spec hfailed
      exact ⟨none, heap, hheap, Or.inl ⟨rfl, hlive, Or.inr hwhy⟩⟩
  · exact ⟨none, _, rfl, Or.inl ⟨rfl, rfl, Or.inr (Or.inr ⟨0, Nat.zero_lt_one,
      Bool.eq_false_iff.mpr hgrant⟩)⟩⟩

/-- A prebuffer of three bytes that has to grow -/
theorem printBuffered_returns_true :
    ∃ r heap, printBuffered ⟨wholeNumbers, false, false, false, fun _ => true, fun _ _ => 7⟩ false
        (.bool true) 3 0 = some (r, heap) ∧
      (r = none ∧ heap.live = 0 ∧ ((3 : Int32) < 0 ∨
          intMax < (render wholeNumbers false 0 (.bool true)).length + 2 ∨
          ∃ n < heap.asked, (fun _ => true : Nat → Bool) n = false) ∨
        ∃ memory, r = some memory ∧ cstringAt memory = render wholeNumbers false 0 (.bool true) ∧
          heap.live = 0 + 1 ∧
          (render wholeNumbers false 0 (.bool true)).length + 2 ≤ memory.length) :=
  printBuffered_returns ⟨wholeNumbers, false, false, false, fun _ => true, fun _ _ => 7⟩
    wholeNumbers_fits false (.bool true) 3 0 (Or.inl (by decide))

/-- `cJSON_PrintPreallocated` stays inside the bytes it was given, and succeeds exactly when they
are two more than the text has. -/
theorem printPreallocated_iff (env : PrintEnv D) (hfits : Fits env.numbers) (format : Bool)
    (item : Item D) (buffer : List UInt8) (length : Int32) (hpos : 0 ≤ length)
    (hbuffer : length.toInt.toNat ≤ buffer.length) :
    ∃ printed out, printPreallocated env format item buffer length = some (printed, out) ∧
      out.length = buffer.length ∧
      out.drop length.toInt.toNat = buffer.drop length.toInt.toNat ∧
      (printed = true ↔
        (render env.numbers format 0 item).length + 2 ≤ length.toInt.toNat) ∧
      (printed = true → cstringAt out = render env.numbers format 0 item) := by
  rw [printPreallocated]
  dsimp only
  rw [if_neg (Int32.not_lt.mpr hpos)]
  generalize henv : ({ env with format := format, noalloc := true } : PrintEnv D) = env'
  have hnumbers : env'.numbers = env.numbers := by rw [← henv]
  have hformat : env'.format = format := by rw [← henv]
  have hnoalloc : env'.noalloc = true := by rw [← henv]
  rw [← hnumbers] at hfits ⊢
  rw [← hformat]
  generalize hn : length.toInt.toNat = n at hbuffer
  have hmax : n ≤ intMax := by
    have hlt := length.toInt_lt
    rw [← hn, intMax]
    omega
  have hlength : (buffer.take n).length = n := List.length_take_of_le hbuffer
  have hstart : At (fixed env' hnoalloc n hmax) [] 0 ⟨some (buffer.take n), 0, 0, ⟨0, 0⟩⟩ :=
    ⟨buffer.take n, ⟨rfl, rfl, rfl, hlength.le, fun _ => hlength⟩, rfl,
      fun _ => ⟨rfl, Or.inl hnoalloc⟩⟩
  have hclean : 0 ∉ render env'.numbers env'.format 0 item := nul_notMem_render hfits item 0
  have hout : ∀ memory : List UInt8, memory.length = n →
      (memory ++ buffer.drop n).length = buffer.length ∧
        (memory ++ buffer.drop n).drop n = buffer.drop n := by
    intro memory hmemory
    refine ⟨?_, List.drop_left' hmemory⟩
    rw [List.length_append, List.length_drop]
    omega
  rcases printValue_spec hfits (fixed env' hnoalloc n hmax) item [] 0 _ hstart with
    ⟨p, hp, hwritten⟩ | ⟨p, hp, hfailed⟩
  · have hle := hwritten.length_le
    rw [List.length_nil, Nat.zero_add] at hle
    obtain ⟨behind, hkept, hbehind, -, -⟩ := hwritten
    have hkeeps := hout _ (hkept.full hnoalloc)
    simp only [hp, hkept.buffer, Option.bind_eq_bind, Option.bind_some]
    refine ⟨true, _, rfl, hkeeps.1, hkeeps.2, iff_of_true rfl hle, fun _ => ?_⟩
    rw [List.nil_append, List.append_assoc, List.cons_append]
    exact cstringAt_append_nul hclean _
  · rcases hfailed with ⟨memory, hmemory, -, hlimit, hfull⟩ | ⟨-, -, halloc, -⟩
    · have hkeeps := hout memory (hfull hnoalloc)
      rw [List.length_nil, Nat.zero_add] at hlimit
      change n < _ at hlimit
      simp only [hp, hmemory, Option.bind_eq_bind, Option.bind_some]
      exact ⟨false, _, rfl, hkeeps.1, hkeeps.2, iff_of_false Bool.false_ne_true (by omega),
        by rintro ⟨⟩⟩
    · exact absurd (halloc.symm.trans hnoalloc) (by decide)

/-- Five bytes hold the text with its terminator, and are one too few. -/
theorem printPreallocated_iff_true :
    ∃ printed out, printPreallocated ⟨wholeNumbers, false, false, false, fun _ => true,
        fun _ _ => 7⟩ false (.bool true) (List.replicate 8 1) 5 = some (printed, out) ∧
      out.length = (List.replicate 8 (1 : UInt8)).length ∧
      out.drop (5 : Int32).toInt.toNat =
        (List.replicate 8 (1 : UInt8)).drop (5 : Int32).toInt.toNat ∧
      (printed = true ↔
        (render wholeNumbers false 0 (.bool true)).length + 2 ≤ (5 : Int32).toInt.toNat) ∧
      (printed = true → cstringAt out = render wholeNumbers false 0 (.bool true)) :=
  printPreallocated_iff ⟨wholeNumbers, false, false, false, fun _ => true, fun _ _ => 7⟩
    wholeNumbers_fits false (.bool true) (List.replicate 8 1) 5 (by decide) (by decide)

end Entry

end CJsonPrinted
