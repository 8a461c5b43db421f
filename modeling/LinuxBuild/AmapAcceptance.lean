import LinuxBuild.ParserFaults

/-!
# Which version 1 responses are accepted, and with what record

A response counts as a success by its status, its location text and the members of its
result. The info text decides between the failures only, although one of its values
stands for the success event.
-/
namespace AmapAcceptance
open CString LbsTypes CJson AmapParse ParserFaults

theorem splitComma_eq_some_iff {text before behind : CStr} :
    splitComma text = some (before, behind) ↔ text = before ++ 44 :: behind ∧ 44 ∉ before := by
  constructor
  · intro h
    have happend := List.takeWhile_append_dropWhile (p := (· ≠ 44)) (l := text)
    have hfront : 44 ∉ text.takeWhile (· ≠ 44) := by
      intro hmem
      simpa using List.mem_takeWhile_imp hmem
    simp only [splitComma] at h
    split at h
    · cases h
    · rename_i c rest hdrop
      cases h
      refine ⟨?_, hfront⟩
      have hc : c = 44 := by
        have hhead := List.head?_dropWhile_not (· ≠ 44) text
        rw [hdrop] at hhead
        simpa using hhead
      rw [hdrop, hc] at happend
      exact happend.symm
  · rintro ⟨rfl, hfront⟩
    have hall : ∀ c ∈ before, decide (c ≠ 44) = true := by
      intro c hc
      simpa using ne_of_mem_of_not_mem hc hfront
    simp only [splitComma]
    rw [List.dropWhile_append_of_pos hall, List.takeWhile_append_of_pos hall]
    simp

section Members
variable {alloc : RspMember → Bool} {item : Json} {blocks : List (String × RspMember)}
variable {rsp : RspMembers}

/-- The copies leave every member alone that is not on their list. -/
theorem copyMembers_of_notMem {f : RspMember} (hf : f ∉ blocks.map Prod.snd) :
    (copyMembers alloc item blocks rsp).2 f = rsp f := by
  induction blocks generalizing rsp with
  | nil => rfl
  | cons b blocks ih =>
    simp only [List.map_cons, List.mem_cons, not_or] at hf
    simp only [copyMembers]
    split
    · exact ih hf.2
    · split
      · rw [ih hf.2, Function.update_of_ne hf.1]
      · exact Function.update_of_ne hf.1 _ _

/-- When no copy fails, each member on the list is the text of its child. -/
theorem copyMembers_eq_text (hwhole : (copyMembers alloc item blocks rsp).1 = true)
    (hnodup : (blocks.map Prod.snd).Nodup) (hrsp : ∀ b ∈ blocks, rsp b.2 = none) :
    ∀ b ∈ blocks, (copyMembers alloc item blocks rsp).2 b.2 =
      (item.getObjectItem b.1).bind (·.valuestring) := by
  induction blocks generalizing rsp with
  | nil => simp
  | cons b blocks ih =>
    simp only [List.map_cons, List.nodup_cons] at hnodup
    have hrest : ∀ b' ∈ blocks, rsp b'.2 = none := fun b' hb => hrsp b' (List.mem_cons_of_mem _ hb)
    rw [List.forall_mem_cons]
    simp only [copyMembers] at hwhole ⊢
    cases hchild : item.getObjectItem b.1 with
    | none =>
      simp only [hchild] at hwhole
      refine ⟨?_, ih hwhole hnodup.2 hrest⟩
      rw [copyMembers_of_notMem hnodup.1]
      exact hrsp b List.mem_cons_self
    | some child =>
      simp only [hchild] at hwhole
      cases hcopy : amapCopyLocationRsp (alloc b.2) child.valuestring with
      | error e =>
        rw [hcopy] at hwhole
        cases hwhole
      | ok v =>
        simp only [hcopy] at hwhole ⊢
        refine ⟨?_, ih hwhole hnodup.2 fun b' hb => ?_⟩
        · rw [copyMembers_of_notMem hnodup.1, Function.update_self]
          exact (amapCopy_eq_ok_iff.mp hcopy).1.symm
        · have hne : b'.2 ≠ b.2 := fun h => hnodup.1 (h ▸ List.mem_map_of_mem hb)
          rw [Function.update_of_ne hne]
          exact hrest b' hb

end Members

/-- The position fills the two halves and nothing else. -/
theorem copyPosition_of_notHalf {alloc : RspMember → Bool} {halves : CStr × CStr} {f : RspMember}
    (hlon : f ≠ .longitude) (hlat : f ≠ .latitude) : (copyPosition alloc halves).2 f = none := by
  simp only [copyPosition]
  split
  · rfl
  · split
    · exact Function.update_of_ne hlon _ _
    · dsimp only
      rw [Function.update_of_ne hlat, Function.update_of_ne hlon]
      rfl

/-- The record of a success: the halves of the location, and for every other member the
text of its child, if there is one. -/
structure Recorded (result : Json) (before behind : CStr) (rsp : RspMembers) : Prop where
  longitude : rsp .longitude = some before
  latitude : rsp .latitude = some behind
  district : rsp .district = none
  members : ∀ b ∈ amapv1Members, rsp b.2 = (result.getObjectItem b.1).bind (·.valuestring)

theorem amapv1Copy_recorded {alloc : RspMember → Bool} {result : Json} {before behind : CStr}
    {rsp : RspMembers} (h : amapv1Copy alloc result (before, behind) = (.succeed, rsp)) :
    Recorded result before behind rsp := by
  have hhalves := (amapv1Copy_spec alloc result (before, behind)).2 (by rw [h])
  rw [h] at hhalves
  have hfree := @copyPosition_of_notHalf alloc (before, behind)
  have hnot : ∀ b ∈ amapv1Members, b.2 ≠ .longitude ∧ b.2 ≠ .latitude := by decide
  simp only [amapv1Copy] at h
  split at h
  · cases h
  · rename_i rsp' hposition
    rw [hposition] at hfree
    obtain ⟨hevent, rfl⟩ := Prod.mk.inj h
    have hwhole : (copyMembers alloc result amapv1Members rsp').1 = true := by
      by_contra hcontra
      simp [eventOf, hcontra] at hevent
    refine ⟨hhalves.1, hhalves.2, ?_, ?_⟩
    · rw [copyMembers_of_notMem (by decide)]
      exact hfree (by decide) (by decide)
    · refine copyMembers_eq_text hwhole (by decide) fun b hb => ?_
      exact hfree (hnot b hb).1 (hnot b hb).2

/-- What makes a response a success with the two halves of its location: a 1 in the
status, a result, a location with text of 1 to 255 bytes on either side of its first
comma, and such a text in every listed member that is there. -/
structure Acceptable (doc result : Json) (status before behind : CStr) : Prop where
  one : 49 ∈ status
  found : doc.getObjectItem "result" = some result
  location : ∃ text, HasText result "location" text ∧ text = before ++ 44 :: behind ∧ 44 ∉ before
  fits : Fits before ∧ Fits behind
  members : ∀ b ∈ amapv1Members, ∀ child, result.getObjectItem b.1 = some child →
    ∃ v, child.valuestring = some v ∧ Fits v

theorem acceptable_iff {doc : Json} {status before behind : CStr}
    (hstatus : HasText doc "status" status) :
    (∃ result, Acceptable doc result status before behind) ↔
      V1Accepted (fun _ => true) doc (before, behind) := by
  constructor
  · rintro ⟨result, hone, hresult, ⟨text, ⟨location, hlocation, htext⟩, hsplit⟩, hfits, hmembers⟩
    obtain ⟨child, hchild, hvalue⟩ := hstatus
    refine ⟨⟨child, status, hchild, hvalue, hone⟩, ⟨result, location, text, hresult, hlocation,
      htext, splitComma_eq_some_iff.mpr hsplit, ?_⟩, ⟨hfits.1, rfl⟩, hfits.2, rfl⟩
    intro b hb child hchild
    obtain ⟨v, hv, hfits⟩ := hmembers b hb child hchild
    exact ⟨v, hv, hfits, rfl⟩
  · rintro ⟨⟨child, text, hchild, hvalue, hone⟩, ⟨result, location, place, hresult, hlocation,
      hplace, hsplit, hmembers⟩, hbefore, hbehind⟩
    obtain rfl := hstatus.unique ⟨child, hchild, hvalue⟩
    refine ⟨result, hone, hresult, ⟨place, ⟨location, hlocation, hplace⟩,
      splitComma_eq_some_iff.mp hsplit⟩, ⟨hbefore.1, hbehind.1⟩, ?_⟩
    intro b hb child hchild
    obtain ⟨v, hv, hfits, -⟩ := hmembers b hb child hchild
    exact ⟨v, hv, hfits⟩

/-- A success was read off an acceptable response, and its record is the one above. -/
theorem amapv1Parse_recorded {doc : Json} {status : CStr} {rsp : RspMembers}
    (hstatus : HasText doc "status" status)
    (h : amapv1Parse (fun _ => true) (some doc) = some (.succeed, rsp)) :
    ∃ result before behind, Acceptable doc result status before behind ∧
      Recorded result before behind rsp := by
  obtain ⟨halves, haccepted, -⟩ := amapv1Parse_holds h
  obtain ⟨result, hacceptable⟩ := (acceptable_iff hstatus).mpr haccepted
  refine ⟨result, halves.1, halves.2, hacceptable, ?_⟩
  obtain ⟨child, hchild, hvalue⟩ := hstatus
  obtain ⟨text, ⟨location, hlocation, htext⟩, hsplit⟩ := hacceptable.location
  simp only [amapv1Parse, hchild, hvalue, hacceptable.one, decide_true, hacceptable.found,
    hlocation, htext, splitComma_eq_some_iff.mpr hsplit, Option.bind_eq_bind,
    Option.bind_some] at h
  exact amapv1Copy_recorded (Option.some.inj h)

theorem Acceptable.unique {doc result result' : Json} {status before before' behind behind' : CStr}
    (h : Acceptable doc result status before behind)
    (h' : Acceptable doc result' status before' behind') :
    result = result' ∧ before = before' ∧ behind = behind' := by
  obtain rfl : result = result' := Option.some.inj (h.found.symm.trans h'.found)
  obtain ⟨text, htext, hsplit⟩ := h.location
  obtain ⟨text', htext', hsplit'⟩ := h'.location
  obtain rfl := htext.unique htext'
  have heq := (splitComma_eq_some_iff.mpr hsplit).symm.trans (splitComma_eq_some_iff.mpr hsplit')
  cases heq
  exact ⟨rfl, rfl, rfl⟩

/-- The parser can read a response whose status, info and location are strings. -/
theorem v1Readable_of_texts {doc : Json} {status info : CStr}
    (hstatus : HasText doc "status" status) (hinfo : HasText doc "info" info)
    (hlocation : ∀ result, doc.getObjectItem "result" = some result →
      TextIfFound result "location") : V1Readable doc := by
  refine ⟨status, hstatus, ?_, ?_⟩
  · intro location hfound
    simp only [v1Location] at hfound
    split_ifs at hfound
    obtain ⟨result, hresult, hfound⟩ := Option.bind_eq_some_iff.mp hfound
    obtain ⟨text, htext⟩ := Option.ne_none_iff_exists'.mp (hlocation result hresult _ hfound)
    exact ⟨text, htext, fun _ => ⟨info, hinfo⟩⟩
  · rintro - child hchild
    obtain ⟨child', hchild', htext⟩ := hinfo
    rw [hchild] at hchild'
    cases hchild'
    rw [htext]
    exact Option.some_ne_none _

theorem succeed_iff_acceptable {doc : Json} {status : CStr} {event : AmapEvent} {rsp : RspMembers}
    (hstatus : HasText doc "status" status)
    (h : amapv1Parse (fun _ => true) (some doc) = some (event, rsp)) :
    event = .succeed ↔ ∃ result before behind, Acceptable doc result status before behind := by
  constructor
  · rintro rfl
    obtain ⟨result, before, behind, hacceptable, -⟩ := amapv1Parse_recorded hstatus h
    exact ⟨result, before, behind, hacceptable⟩
  · rintro ⟨result, before, behind, hacceptable⟩
    have haccepted := (acceptable_iff hstatus).mp ⟨result, hacceptable⟩
    obtain ⟨rsp', h'⟩ := amapv1Parse_succeed_iff.mpr ⟨_, haccepted⟩
    rw [h] at h'
    exact congrArg Prod.fst (Option.some.inj h')

/-- A response with a readable head is parsed to an event, and the event is a success for
the acceptable responses and no others. -/
theorem amapv1Parse_exact (doc : Json) (status info : CStr) (hstatus : HasText doc "status" status)
    (hinfo : HasText doc "info" info)
    (hlocation : ∀ result, doc.getObjectItem "result" = some result →
      TextIfFound result "location") :
    ∃ event rsp, amapv1Parse (fun _ => true) (some doc) = some (event, rsp) ∧
      (event = .succeed ↔ ∃ result before behind, Acceptable doc result status before behind) ∧
      ∀ result before behind, Acceptable doc result status before behind →
        Recorded result before behind rsp := by
  have hreadable := v1Readable_of_texts hstatus hinfo hlocation
  obtain ⟨⟨event, rsp⟩, hparse⟩ :=
    Option.ne_none_iff_exists'.mp ((amapv1Parse_ne_none_iff (fun _ => true) doc).mpr hreadable)
  have hsucceed := succeed_iff_acceptable hstatus hparse
  refine ⟨event, rsp, hparse, hsucceed, fun result before behind hacceptable => ?_⟩
  obtain rfl := hsucceed.mpr ⟨result, before, behind, hacceptable⟩
  obtain ⟨result', before', behind', hacceptable', hrecorded⟩ := amapv1Parse_recorded hstatus hparse
  obtain ⟨rfl, rfl, rfl⟩ := hacceptable.unique hacceptable'
  exact hrecorded

/-- A version 1 response with this location text in front of the other members. -/
def located (location : String) (members : List (CStr × Json)) : Json :=
  .obj [(cstr "status", .str (cstr "1")), (cstr "info", .str (cstr "OK")),
    (cstr "result", .obj ((cstr "location", .str (cstr location)) :: members))]

theorem located_location (location : String) (members : List (CStr × Json)) :
    ∀ result, (located location members).getObjectItem "result" = some result →
      TextIfFound result "location" := by
  intro result hresult child hchild
  cases hresult
  cases hchild
  exact Option.some_ne_none _

/-- An ordinary position with a city beside it. -/
theorem amapv1Parse_exact_wuxi :
    let doc := located "120.3,31.5" [(cstr "city", .str (cstr "Wuxi"))]
    ∃ event rsp, amapv1Parse (fun _ => true) (some doc) = some (event, rsp) ∧
      (event = .succeed ↔ ∃ result before behind,
        Acceptable doc result (cstr "1") before behind) ∧
      ∀ result before behind, Acceptable doc result (cstr "1") before behind →
        Recorded result before behind rsp :=
  amapv1Parse_exact _ (cstr "1") (cstr "OK") ⟨_, rfl, rfl⟩ ⟨_, rfl, rfl⟩ (located_location _ _)

/-- The second comma of ",1,2" has text on either side, and nothing else is wrong with the
response, but the parser cuts at the first comma and refuses it. -/
theorem amapv1Parse_second_comma :
    ∃ result before behind, (located ",1,2" []).getObjectItem "result" = some result ∧
      HasText (located ",1,2" []) "status" (cstr "1") ∧
      HasText (located ",1,2" []) "info" (cstr "OK") ∧
      HasText result "location" (before ++ 44 :: behind) ∧ Fits before ∧ Fits behind ∧
      (∀ b ∈ amapv1Members, result.getObjectItem b.1 = none) ∧
      ∃ rsp, amapv1Parse (fun _ => true) (some (located ",1,2" [])) = some (.unknownErr, rsp) := by
  refine ⟨_, [44, 49], [50], rfl, ⟨_, rfl, rfl⟩, ⟨_, rfl, rfl⟩, ⟨_, rfl, rfl⟩, ⟨?_, ?_⟩,
    ⟨?_, ?_⟩, ?_, noMembers, rfl⟩ <;> decide

end AmapAcceptance
