import LinuxBuild.OneosposParse

/-!
# Responses that stop a parser

A parser may read a member only behind a check that it was found, and may use the text
of an item only if it is a string. The conditions below name the items that each parser
takes unchecked.
-/
namespace ParserFaults
open CString LbsTypes CJson AmapParse OneosposParse

/-- The member is there and is a string. -/
def HasText (item : Json) (name : String) (text : CStr) : Prop :=
  ∃ child, item.getObjectItem name = some child ∧ child.valuestring = some text

/-- The member is a string if it is there. -/
def TextIfFound (item : Json) (name : String) : Prop :=
  ∀ child, item.getObjectItem name = some child → child.valuestring ≠ none

/-- The location that the version 1 parser works on: only in the result of a status with
a 1. -/
def v1Location (doc : Json) (status : CStr) : Option Json :=
  if 49 ∈ status then (doc.getObjectItem "result").bind (·.getObjectItem "location") else none

/-- The status is a string. A location is a string too, and without a comma the info is
one; without a location the info is a string if it is there. -/
def V1Readable (doc : Json) : Prop :=
  ∃ status, HasText doc "status" status ∧
    (∀ location, v1Location doc status = some location →
      ∃ text, location.valuestring = some text ∧ (44 ∉ text → ∃ info, HasText doc "info" info)) ∧
    (v1Location doc status = none → TextIfFound doc "info")

/-- The members that the version 2 parser asks for before it reads a position. -/
def V2Complete (doc : Json) : Prop :=
  (doc.getObjectItem "status").isSome ∧ (doc.getObjectItem "info").isSome ∧
    (doc.getObjectItem "infocode").isSome ∧ (doc.getObjectItem "position").isSome

/-- In a complete response a location that stands beside a radius is a string; in any
other one the info is a string if it is there. -/
def V2Readable (doc : Json) : Prop :=
  (V2Complete doc → ∀ position, doc.getObjectItem "position" = some position →
    (position.getObjectItem "radius").isSome → TextIfFound position "location") ∧
  (¬ V2Complete doc → TextIfFound doc "info")

/-- The code of a failure is a string if it is there, and each half of a position leaves
room in its buffer. -/
def OneosposReadable (doc : Json) : Prop :=
  ∀ success, doc.getObjectItem "success" = some success →
    (success.isTrue = false → TextIfFound doc "code") ∧
    (success.isTrue = true → ∀ data, doc.getObjectItem "data" = some data →
      ∀ text, HasText data "pos" text → ∀ halves, splitComma text = some halves →
        halves.1.length < 24 ∧ halves.2.length < 24)

theorem splitComma_eq_none_iff {text : CStr} : splitComma text = none ↔ 44 ∉ text := by
  simp only [splitComma]
  constructor
  · intro h
    split at h
    · rename_i hdrop
      intro hmem
      have hall := List.dropWhile_eq_nil_iff.mp hdrop 44 hmem
      exact absurd hall (by decide)
    · cases h
  · intro h
    have hdrop : text.dropWhile (· ≠ 44) = [] := by
      refine List.dropWhile_eq_nil_iff.mpr fun c hc => ?_
      simpa using ne_of_mem_of_not_mem hc h
    rw [hdrop]

/-- Both refusals read the info of the response only if it is there. -/
theorem refusal_ne_none_iff {doc : Json} {f : CStr → AmapEvent} {g : Option Json → Option AmapEvent}
    (hnone : g none = some .unknownErr) (hsome : ∀ info, g (some info) = info.valuestring.map f) :
    ((g (doc.getObjectItem "info")).bind fun event => some (event, noMembers)) ≠ none ↔
      TextIfFound doc "info" := by
  cases hinfo : doc.getObjectItem "info" with
  | none =>
    rw [hnone]
    refine iff_of_true (Option.some_ne_none _) fun child h => ?_
    rw [hinfo] at h
    cases h
  | some info =>
    rw [hsome]
    have htext : TextIfFound doc "info" ↔ info.valuestring ≠ none := by
      simp only [TextIfFound, hinfo, Option.some.injEq, forall_eq']
    rw [htext]
    cases info.valuestring with
    | none => exact iff_of_false (fun h => h rfl) (fun h => h rfl)
    | some v => exact iff_of_true (Option.some_ne_none _) (Option.some_ne_none _)

section Version1
variable {alloc : RspMember → Bool} {doc : Json} {status : CStr} {location : Json}

theorem amapv1Parse_status (h : amapv1Parse alloc (some doc) ≠ none) :
    ∃ status, HasText doc "status" status := by
  obtain ⟨r, hr⟩ := Option.ne_none_iff_exists'.mp h
  obtain ⟨child, hchild, hr⟩ := Option.bind_eq_some_iff.mp hr
  obtain ⟨status, hstatus, -⟩ := Option.bind_eq_some_iff.mp hr
  exact ⟨status, child, hchild, hstatus⟩

theorem HasText.unique {item : Json} {name : String} {text text' : CStr}
    (h : HasText item name text) (h' : HasText item name text') : text = text' := by
  obtain ⟨child, hchild, htext⟩ := h
  obtain ⟨child', hchild', htext'⟩ := h'
  rw [hchild] at hchild'
  cases hchild'
  exact Option.some.inj (htext.symm.trans htext')

theorem amapv1Parse_unlocated (hstatus : HasText doc "status" status)
    (hlocation : v1Location doc status = none) :
    amapv1Parse alloc (some doc) ≠ none ↔ TextIfFound doc "info" := by
  rw [← @refusal_ne_none_iff doc failureEvent amapv1Refusal rfl fun _ => rfl]
  obtain ⟨child, hchild, htext⟩ := hstatus
  have hparse : amapv1Parse alloc (some doc) =
      (amapv1Refusal (doc.getObjectItem "info")).bind fun event => some (event, noMembers) := by
    simp only [amapv1Parse, hchild, htext, Option.bind_eq_bind, Option.bind_some]
    by_cases hone : 49 ∈ status
    · rw [v1Location, if_pos hone] at hlocation
      cases hresult : doc.getObjectItem "result" with
      | none => simp only [hone, decide_true]
      | some result =>
        rw [hresult] at hlocation
        have hmissing : result.getObjectItem "location" = none := hlocation
        simp only [hone, decide_true, hmissing]
    · simp only [hone, decide_false]
  rw [hparse]

theorem amapv1Parse_located (hstatus : HasText doc "status" status)
    (hlocation : v1Location doc status = some location) :
    amapv1Parse alloc (some doc) ≠ none ↔
      ∃ text, location.valuestring = some text ∧ (44 ∉ text → ∃ info, HasText doc "info" info) := by
  obtain ⟨child, hchild, htext⟩ := hstatus
  have hone : 49 ∈ status := by
    by_contra h
    rw [v1Location, if_neg h] at hlocation
    cases hlocation
  rw [v1Location, if_pos hone] at hlocation
  obtain ⟨result, hresult, hfound⟩ := Option.bind_eq_some_iff.mp hlocation
  simp only [amapv1Parse, hchild, htext, hresult, hfound, hone, decide_true, Option.bind_eq_bind,
    Option.bind_some]
  cases hvalue : location.valuestring with
  | none =>
    refine iff_of_false (fun h => h rfl) ?_
    rintro ⟨text, htext, -⟩
    cases htext
  | some text =>
    simp only [Option.bind_some, Option.some.injEq, exists_eq_left', ← splitComma_eq_none_iff]
    cases hsplit : splitComma text with
    | some halves =>
      exact iff_of_true (Option.some_ne_none _) fun h => absurd h (Option.some_ne_none _)
    | none =>
      simp only [forall_const, HasText]
      constructor
      · intro h
        obtain ⟨r, hr⟩ := Option.ne_none_iff_exists'.mp h
        obtain ⟨info, hinfo, hr⟩ := Option.bind_eq_some_iff.mp hr
        obtain ⟨infoText, hinfoText, -⟩ := Option.bind_eq_some_iff.mp hr
        exact ⟨infoText, info, hinfo, hinfoText⟩
      · rintro ⟨infoText, info, hinfo, hinfoText⟩
        rw [hinfo, Option.bind_some, hinfoText]
        exact Option.some_ne_none _

theorem amapv1Parse_ne_none_iff (alloc : RspMember → Bool) (doc : Json) :
    amapv1Parse alloc (some doc) ≠ none ↔ V1Readable doc := by
  by_cases hfound : ∃ status, HasText doc "status" status
  · obtain ⟨status, hstatus⟩ := hfound
    have hreadable : V1Readable doc ↔
        (∀ location, v1Location doc status = some location →
          ∃ text, location.valuestring = some text ∧
            (44 ∉ text → ∃ info, HasText doc "info" info)) ∧
        (v1Location doc status = none → TextIfFound doc "info") := by
      constructor
      · rintro ⟨status', hstatus', h⟩
        rwa [hstatus.unique hstatus']
      · exact fun h => ⟨status, hstatus, h⟩
    rw [hreadable]
    cases hlocation : v1Location doc status with
    | none =>
      rw [amapv1Parse_unlocated hstatus hlocation]
      simp
    | some location =>
      rw [amapv1Parse_located hstatus hlocation]
      simp
  · refine iff_of_false (fun h => hfound (amapv1Parse_status h)) ?_
    rintro ⟨status, hstatus, -⟩
    exact hfound ⟨status, hstatus⟩

end Version1

theorem amapv2Parse_ne_none_iff (alloc : RspMember → Bool) (doc : Json) :
    amapv2Parse alloc (some doc) ≠ none ↔ V2Readable doc := by
  have hrefusal := @refusal_ne_none_iff doc rspcodeParse amapv2Refusal rfl fun _ => rfl
  by_cases hcomplete : V2Complete doc
  · obtain ⟨hstatus, hinfo, hinfocode, hposition⟩ := id hcomplete
    obtain ⟨status, hstatus⟩ := Option.isSome_iff_exists.mp hstatus
    obtain ⟨info, hinfo⟩ := Option.isSome_iff_exists.mp hinfo
    obtain ⟨infocode, hinfocode⟩ := Option.isSome_iff_exists.mp hinfocode
    obtain ⟨position, hposition⟩ := Option.isSome_iff_exists.mp hposition
    have hreadable : V2Readable doc ↔
        ((position.getObjectItem "radius").isSome → TextIfFound position "location") := by
      simp only [V2Readable, hcomplete, hposition, Option.some.injEq, forall_eq', forall_const,
        not_true_eq_false, false_imp_iff, and_true]
    rw [hreadable]
    simp only [amapv2Parse, hstatus, hinfo, hinfocode, hposition, TextIfFound]
    cases hradius : position.getObjectItem "radius" with
    | none =>
      cases hlocation : position.getObjectItem "location" <;> simp
    | some radius =>
      cases hlocation : position.getObjectItem "location" with
      | none => simp
      | some location =>
        cases htext : location.valuestring with
        | none => simp [htext]
        | some text => cases hsplit : splitComma text <;> simp [htext, hsplit]
  · have hreadable : V2Readable doc ↔ TextIfFound doc "info" := by
      simp only [V2Readable, hcomplete, false_imp_iff, true_and, not_false_eq_true, forall_const]
    rw [hreadable, ← hrefusal]
    have hparse : amapv2Parse alloc (some doc) =
        (amapv2Refusal (doc.getObjectItem "info")).bind fun event => some (event, noMembers) := by
      simp only [V2Complete, Option.isSome_iff_exists] at hcomplete
      simp only [amapv2Parse]
      split
      · rename_i status info infocode position hstatus hinfo hinfocode hposition
        exact absurd ⟨⟨_, hstatus⟩, ⟨_, hinfo⟩, ⟨_, hinfocode⟩, ⟨_, hposition⟩⟩ hcomplete
      · rfl
    rw [hparse]

theorem oneosposHttpLocationParse_ne_none_iff (alloc : RspMember → Bool) (doc : Json) :
    oneosposHttpLocationParse alloc (some doc) ≠ none ↔ OneosposReadable doc := by
  simp only [oneosposHttpLocationParse, OneosposReadable]
  cases hsuccess : doc.getObjectItem "success" with
  | none => simp
  | some success =>
    simp only [Option.some.injEq, forall_eq']
    cases htrue : success.isTrue with
    | false =>
      simp only [TextIfFound, forall_const, Bool.false_eq_true, false_imp_iff, and_true]
      cases hcode : doc.getObjectItem "code" with
      | none => simp
      | some code => cases htext : code.valuestring <;> simp [htext]
    | true =>
      simp only [Bool.true_eq_false, false_imp_iff, true_and, forall_const]
      cases hdata : doc.getObjectItem "data" with
      | none => simp
      | some data =>
        simp only [Option.some.injEq, forall_eq', HasText]
        cases hpos : data.getObjectItem "pos" with
        | none => simp
        | some pos =>
          simp only [Option.some.injEq, exists_eq_left', stringParseToLatitudeLongitude]
          cases htext : pos.valuestring with
          | none => simp
          | some text =>
            simp only [Option.some.injEq, forall_eq']
            cases hsplit : splitComma text with
            | none => simp
            | some halves =>
              simp only [Option.some.injEq, forall_eq']
              by_cases hroom : halves.1.length < 24 ∧ halves.2.length < 24
              · rw [if_pos hroom]
                exact iff_of_true (Option.some_ne_none _) hroom
              · rw [if_neg hroom]
                exact iff_of_false (fun h => h rfl) hroom

/-- A response that could not be parsed stops no parser; any other one stops a parser
exactly when it is not readable for that parser. -/
theorem parsers_return_iff (alloc : RspMember → Bool) (parsed : Option Json) :
    (amapv1Parse alloc parsed ≠ none ↔ ∀ doc, parsed = some doc → V1Readable doc) ∧
      (amapv2Parse alloc parsed ≠ none ↔ ∀ doc, parsed = some doc → V2Readable doc) ∧
      (oneosposHttpLocationParse alloc parsed ≠ none ↔
        ∀ doc, parsed = some doc → OneosposReadable doc) := by
  cases parsed with
  | none =>
    have hnone : ∀ P : Json → Prop, ∀ doc, none = some doc → P doc := fun _ _ h => by cases h
    exact ⟨iff_of_true (Option.some_ne_none _) (hnone _),
      iff_of_true (Option.some_ne_none _) (hnone _), iff_of_true (Option.some_ne_none _) (hnone _)⟩
  | some doc =>
    simp only [Option.some.injEq, forall_eq']
    exact ⟨amapv1Parse_ne_none_iff alloc doc, amapv2Parse_ne_none_iff alloc doc,
      oneosposHttpLocationParse_ne_none_iff alloc doc⟩

/-- An empty object, an info that is a number, and a failure whose code is a number. -/
theorem parsers_fault :
    amapv1Parse (fun _ => true) (some (.obj [])) = none ∧
      amapv2Parse (fun _ => true) (some (.obj [(cstr "info", .num 1)])) = none ∧
      oneosposHttpLocationParse (fun _ => true)
        (some (.obj [(cstr "success", .bool false), (cstr "code", .num 10000)])) = none :=
  ⟨rfl, rfl, rfl⟩

end ParserFaults
