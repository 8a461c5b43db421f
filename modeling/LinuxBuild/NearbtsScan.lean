import LinuxBuild.LbsTypes
import LinuxBuild.QueryText

/-!
# The neighbour cells of the modem

`__cm_lbs_GetNearbts` looks for the lines of the answer to `AT^MONNC` one after the other and
prints a record for every LTE cell. The search moves on behind a record only: at a cell of
another RAT it starts again where it was. `cm_freqlock_getoneline`, the parser of the fields
and `cm_util_hextoDec` are given from outside.
-/
namespace NearbtsScan
open CString LbsTypes QueryText

/-- The functions that the search calls, and the network codes that it prints. The codes are
taken to be copies: if they were pointers into the answer to `AT^MONSC`, the `realloc` of its
buffer for this answer would overwrite them. -/
structure ScanEnv where
  /-- the first line and what is behind it, if anything is -/
  getoneline : CStr → CStr × Option CStr
  /-- the first field, and what is behind it -/
  parseRat : CStr → Option CStr × Option CStr
  /-- the second of the fields "s,s,f,f,f" -/
  parsePci : Option CStr → Option CStr
  /-- what a line reads like in the buffer when its fields have been parsed -/
  parsedLine : CStr → CStr
  hextoDec : Option CStr → UInt64
  mcc : CStr
  mnc : CStr

/-- `strcasecmp(rat, "LTE") == 0` -/
def isLte (rat : CStr) : Bool := rat.map tolower = cstr "lte"

/-- `"%s,%s,,%d,|\r\n"`; the number is printed as an `int`. -/
def record (env : ScanEnv) (pci : Option CStr) : CStr :=
  env.mcc ++ cstr "," ++ env.mnc ++ cstr ",," ++
    decimal (env.hextoDec pci).toUInt32.toInt32 ++ cstr ",|\r\n"

/-- `out_len < sizeof(nearbts) - 64`, where `nearbts` is a pointer. -/
def hasRoom (outLen : Int32) : Bool := outLen.toInt64.toUInt64 < (8 : UInt64) - 64

/-- At most `fuel` turns of the loop. The line that is looked at is cut off from the rest. -/
def scanLoop (env : ScanEnv) : Nat → CStr → CStr → Option (LbsState × CStr)
  | 0, _, _ => none
  | fuel + 1, procBuff, out =>
    match cutAt (cstr "^MONNC: ") procBuff with
    | none => some (.err, out)
    | some (front, resultStr) =>
      let (onelineStr, nextlineStr) := env.getoneline resultStr
      match env.parseRat onelineStr with
      | (none, _) => some (.err, out)
      | (some rat, resultNext) =>
        if isLte rat then
          let out := out ++ record env (env.parsePci resultNext)
          match nextlineStr with
          | some nextline =>
            if hasRoom (Int32.ofNat out.length) then scanLoop env fuel nextline out
            else some (.err, out)
          | none => some (.err, out)
        -- `continue`: the condition is tested, and `proc_buff` is still the same
        else if hasRoom (Int32.ofNat out.length) then
          scanLoop env fuel (front ++ cstr "^MONNC: " ++ env.parsedLine onelineStr) out
        else some (.err, out)

/-- The end of `__cm_lbs_GetNearbts`, from the answer `rsp` on -/
def collectNearbts (env : ScanEnv) (fuel : Nat) (rsp : CStr) : Option (LbsState × CStr) :=
  scanLoop env fuel rsp (cstr "nearbts=")

/-- A line of the answer without its name: a RAT and other fields -/
structure Line (eol : CStr) where
  rat : CStr
  fields : CStr
  rat_ne : rat ≠ []
  rat_comma : 44 ∉ rat
  rat_eol : ∀ c ∈ eol, c ∉ rat
  fields_eol : ∀ c ∈ eol, c ∉ fields

variable {eol tail : CStr} {env : ScanEnv} {fuel : Nat} {out : CStr}

def Line.body (l : Line eol) : CStr := l.rat ++ 44 :: l.fields

/-- The answer: its last line may be ended like the others. -/
def responseText (tail : CStr) : List (Line eol) → CStr
  | [] => []
  | l :: lines =>
    cstr "^MONNC: " ++ (l.body ++ if lines.isEmpty then tail else eol ++ responseText tail lines)

/-- The first line is cut off, and the next one is `NULL` when nothing is behind it; fields
end at commas. A parsed line is left as it was or ends behind its first field. -/
structure Reads (env : ScanEnv) (eol : CStr) : Prop where
  comma : 44 ∉ eol
  cutsLine : ∀ {line rest : CStr}, (∀ c ∈ eol, c ∉ line) →
    env.getoneline (line ++ (eol ++ rest)) = (line, if rest.isEmpty then none else some rest)
  lastLine : ∀ {line : CStr}, (∀ c ∈ eol, c ∉ line) → env.getoneline line = (line, none)
  firstField : ∀ {rat rest : CStr}, rat ≠ [] → 44 ∉ rat →
    env.parseRat (rat ++ 44 :: rest) = (some rat, some rest)
  onlyField : ∀ {rat : CStr}, rat ≠ [] → 44 ∉ rat → env.parseRat rat = (some rat, none)
  parsed : ∀ line, env.parsedLine line = line ∨ env.parsedLine line = line.takeWhile (· ≠ 44)

/-- The record of a line -/
def Line.record (env : ScanEnv) (l : Line eol) : CStr :=
  NearbtsScan.record env (env.parsePci (some l.fields))

/-- What is to be collected: a record for every LTE line -/
def records (env : ScanEnv) (lines : List (Line eol)) : CStr :=
  (lines.filter fun l => isLte l.rat).flatMap (Line.record env)

theorem Line.body_eol (h : 44 ∉ eol) (l : Line eol) : ∀ c ∈ eol, c ∉ l.body := by
  intro c hc hmem
  rcases List.mem_append.mp hmem with hrat | hrest
  · exact l.rat_eol c hc hrat
  rcases List.mem_cons.mp hrest with rfl | hfields
  · exact h hc
  · exact l.fields_eol c hc hfields

theorem ne_comma {rat : CStr} (h : 44 ∉ rat) : ∀ c ∈ rat, decide (c ≠ 44) = true := by
  intro c hc
  exact decide_eq_true fun heq => h (heq ▸ hc)

/-- The first field of a line and what is behind it -/
theorem takeWhile_rat {rat : CStr} (h : 44 ∉ rat) (rest : CStr) :
    (rat ++ 44 :: rest).takeWhile (· ≠ 44) = rat ∧
      (rat ++ 44 :: rest).dropWhile (· ≠ 44) = 44 :: rest := by
  rw [List.takeWhile_append_of_pos (ne_comma h), List.dropWhile_append_of_pos (ne_comma h)]
  simp

/-- As long as the printed text is shorter than 2^31, there seems to be room. -/
theorem hasRoom_of_lt {k : Nat} (h : k < 2 ^ 31) : hasRoom (Int32.ofNat k) = true := by
  have hmax : Int32.maxValue.toInt = 2 ^ 31 - 1 := rfl
  have hwide : (Int32.ofNat k).toInt64 = Int64.ofNat k := by
    refine Int32.toInt64_ofNat' ?_
    omega
  have hnat : (UInt64.ofNat k).toNat = k := UInt64.toNat_ofNat_of_lt' (h.trans (by decide))
  have hsize : ((8 : UInt64) - 64).toNat = 2 ^ 64 - 56 := by decide
  rw [hasRoom, hwide, Int64.toUInt64_ofNat']
  refine decide_eq_true (UInt64.lt_iff_toNat_lt.mpr ?_)
  omega

/-- The first line is cut off wherever it stands. -/
theorem getoneline_responseText (henv : Reads env eol) (htail : tail = [] ∨ tail = eol)
    (l : Line eol) (lines : List (Line eol)) :
    env.getoneline (l.body ++ if lines.isEmpty then tail else eol ++ responseText tail lines) =
      (l.body, if lines.isEmpty then none else some (responseText tail lines)) := by
  have hclean := l.body_eol henv.comma
  cases lines with
  | nil =>
    rcases htail with rfl | rfl
    · simpa using henv.lastLine hclean
    · simpa using @Reads.cutsLine _ _ henv _ [] hclean
  | cons l' lines =>
    have hcut := @Reads.cutsLine _ _ henv _ (responseText tail (l' :: lines)) hclean
    have hsome : (responseText tail (l' :: lines)).isEmpty = false := rfl
    simpa [hsome] using hcut

/-- An LTE line is printed and the search goes on behind it. -/
theorem scanLoop_lte (henv : Reads env eol) (htail : tail = [] ∨ tail = eol) {l : Line eol}
    {lines : List (Line eol)} (hlte : isLte l.rat = true)
    (hroom : (out ++ l.record env).length < 2 ^ 31) :
    scanLoop env (fuel + 1) (responseText tail (l :: lines)) out =
      if lines.isEmpty then some (.err, out ++ l.record env)
      else scanLoop env fuel (responseText tail lines) (out ++ l.record env) := by
  have hfirst : env.parseRat l.body = (some l.rat, some l.fields) :=
    henv.firstField l.rat_ne l.rat_comma
  have hrecord : out ++ NearbtsScan.record env (env.parsePci (some l.fields)) =
    out ++ l.record env := rfl
  rw [responseText, scanLoop, cutAt_append_self]
  simp only [getoneline_responseText henv htail, hfirst, hlte, if_true, hrecord]
  cases lines with
  | nil => rfl
  | cons l' lines =>
    simp only [List.isEmpty_cons, Bool.false_eq_true, if_false, if_pos (hasRoom_of_lt hroom)]

/-- Another line is looked at once more. -/
theorem scanLoop_other {line resultStr : CStr} {rat : CStr} {nextlineStr resultNext : Option CStr}
    (hline : env.getoneline resultStr = (line, nextlineStr))
    (hrat : env.parseRat line = (some rat, resultNext)) (hother : isLte rat = false)
    (hroom : out.length < 2 ^ 31) :
    scanLoop env (fuel + 1) (cstr "^MONNC: " ++ resultStr) out =
      scanLoop env fuel (cstr "^MONNC: " ++ env.parsedLine line) out := by
  rw [scanLoop, cutAt_append_self]
  simp only [hline, hrat, hother, Bool.false_eq_true, if_false, if_pos (hasRoom_of_lt hroom),
    List.nil_append]

/-- A line of another RAT as it is seen before it is parsed, or after that -/
def Line.Shows (l : Line eol) (line : CStr) : Prop := line = l.body ∨ line = l.rat

theorem Line.Shows.parseRat (henv : Reads env eol) {l : Line eol} {line : CStr}
    (h : l.Shows line) : ∃ resultNext, env.parseRat line = (some l.rat, resultNext) := by
  rcases h with rfl | rfl
  · exact ⟨_, henv.firstField l.rat_ne l.rat_comma⟩
  · exact ⟨_, henv.onlyField l.rat_ne l.rat_comma⟩

theorem Line.Shows.parsed (henv : Reads env eol) {l : Line eol} {line : CStr}
    (h : l.Shows line) : l.Shows (env.parsedLine line) := by
  rcases henv.parsed line with hsame | hfirst
  · rwa [hsame]
  · rw [hfirst]
    rcases h with rfl | rfl
    · exact Or.inr (takeWhile_rat l.rat_comma l.fields).1
    · exact Or.inr (List.takeWhile_eq_self_iff.mpr (ne_comma l.rat_comma))

theorem Line.Shows.clean (henv : Reads env eol) {l : Line eol} {line : CStr}
    (h : l.Shows line) : ∀ c ∈ eol, c ∉ line := by
  rcases h with rfl | rfl
  · exact l.body_eol henv.comma
  · exact l.rat_eol

/-- The search stays at a line of another RAT for ever. -/
theorem scanLoop_stuck (henv : Reads env eol) {l : Line eol} (hother : isLte l.rat = false)
    (hroom : out.length < 2 ^ 31) {line : CStr} (h : l.Shows line) :
    scanLoop env fuel (cstr "^MONNC: " ++ line) out = none := by
  induction fuel generalizing line with
  | zero => rfl
  | succ fuel ih =>
    obtain ⟨resultNext, hrat⟩ := h.parseRat henv
    rw [scanLoop_other (henv.lastLine (h.clean henv)) hrat hother hroom]
    exact ih (h.parsed henv)

theorem scanLoop_of_other (henv : Reads env eol) (htail : tail = [] ∨ tail = eol) {l : Line eol}
    {lines : List (Line eol)} (hother : isLte l.rat = false) (hroom : out.length < 2 ^ 31) :
    scanLoop env fuel (responseText tail (l :: lines)) out = none := by
  have hshows : l.Shows l.body := Or.inl rfl
  cases fuel with
  | zero => rfl
  | succ fuel =>
    obtain ⟨resultNext, hrat⟩ := hshows.parseRat henv
    rw [responseText, scanLoop_other (getoneline_responseText henv htail l lines) hrat hother hroom]
    exact scanLoop_stuck henv hother hroom (hshows.parsed henv)

theorem records_cons {l : Line eol} (hlte : isLte l.rat = true) (lines : List (Line eol)) :
    out ++ records env (l :: lines) = out ++ l.record env ++ records env lines := by
  have hfilter : (l :: lines).filter (fun l => isLte l.rat) =
      l :: lines.filter fun l => isLte l.rat := List.filter_cons_of_pos hlte
  rw [records, hfilter, List.flatMap_cons, List.append_assoc, records]

theorem length_record_lt {l : Line eol} {lines : List (Line eol)}
    (h : (out ++ l.record env ++ records env lines).length < 2 ^ 31) :
    (out ++ l.record env).length < 2 ^ 31 := by
  rw [List.length_append] at h
  omega

/-- Every turn prints one of the records. -/
theorem scanLoop_all (henv : Reads env eol) (htail : tail = [] ∨ tail = eol)
    {lines : List (Line eol)} (hsome : lines ≠ []) (hlte : ∀ l ∈ lines, isLte l.rat = true)
    (hroom : (out ++ records env lines).length < 2 ^ 31) :
    scanLoop env lines.length (responseText tail lines) out =
      some (.err, out ++ records env lines) := by
  induction lines generalizing out with
  | nil => exact absurd rfl hsome
  | cons l lines ih =>
    obtain ⟨hl, hlines⟩ := List.forall_mem_cons.mp hlte
    rw [records_cons hl] at hroom ⊢
    rw [List.length_cons, scanLoop_lte henv htail hl (length_record_lt hroom)]
    cases lines with
    | nil => simp [records]
    | cons l' lines => exact ih (List.cons_ne_nil _ _) hlines hroom

/-- The search does not get beyond the first line of another RAT. -/
theorem scanLoop_some_other (henv : Reads env eol) (htail : tail = [] ∨ tail = eol)
    {lines : List (Line eol)} (hother : ∃ l ∈ lines, isLte l.rat = false)
    (hroom : (out ++ records env lines).length < 2 ^ 31) :
    scanLoop env fuel (responseText tail lines) out = none := by
  induction lines generalizing fuel out with
  | nil => exact absurd hother (by simp)
  | cons l lines ih =>
    cases hl : isLte l.rat with
    | false =>
      refine scanLoop_of_other henv htail hl ?_
      rw [List.length_append] at hroom
      omega
    | true =>
      obtain ⟨l', hmem, hl'⟩ := hother
      have htail' : l' ∈ lines := by
        refine (List.mem_cons.mp hmem).resolve_left ?_
        rintro rfl
        exact absurd (hl.symm.trans hl') (by decide)
      have hsome : lines.isEmpty = false := by
        cases lines with
        | nil => exact absurd htail' List.not_mem_nil
        | cons l lines => rfl
      rw [records_cons hl] at hroom
      cases fuel with
      | zero => rfl
      | succ fuel =>
        rw [scanLoop_lte henv htail hl (length_record_lt hroom), hsome]
        exact ih ⟨l', htail', hl'⟩ hroom

/-- The loop ends after at most one turn for each line, with one record for each LTE line,
exactly when there is a line and all lines are of LTE cells. -/
theorem collectNearbts_ends_iff (henv : Reads env eol) (htail : tail = [] ∨ tail = eol)
    {lines : List (Line eol)} (hint : (cstr "nearbts=" ++ records env lines).length < 2 ^ 31) :
    (∃ ret, collectNearbts env lines.length (responseText tail lines) =
        some (ret, cstr "nearbts=" ++ records env lines)) ↔
      lines ≠ [] ∧ ∀ l ∈ lines, isLte l.rat = true := by
  constructor
  · rintro ⟨ret, hends⟩
    refine ⟨?_, fun l hmem => ?_⟩
    · rintro rfl
      cases hends
    · by_contra hother
      have hstuck := @scanLoop_some_other eol tail env lines.length _ henv htail lines
        ⟨l, hmem, Bool.eq_false_iff.mpr hother⟩ hint
      cases hends.symm.trans hstuck
  · rintro ⟨hsome, hlte⟩
    exact ⟨_, scanLoop_all henv htail hsome hlte hint⟩

/-- With a line of another RAT it does not end at all. -/
theorem collectNearbts_of_other (henv : Reads env eol) (htail : tail = [] ∨ tail = eol)
    {lines : List (Line eol)} (hint : (cstr "nearbts=" ++ records env lines).length < 2 ^ 31)
    (hother : ∃ l ∈ lines, isLte l.rat = false) (fuel : Nat) :
    collectNearbts env fuel (responseText tail lines) = none :=
  scanLoop_some_other henv htail hother hint

/-- The value of hexadecimal digits -/
def hexNumber (s : CStr) : Nat :=
  s.foldl (fun n c => n * 16 + if c ≤ 57 then c.toNat - 48 else c.toNat - 55) 0

/-- Lines end in front of `"\r\n"`, and the parser ends the first field in the buffer. -/
def plainEnv : ScanEnv where
  getoneline s :=
    match cutAt (cstr "\r\n") s with
    | none => (s, none)
    | some (line, rest) => (line, if rest.isEmpty then none else some rest)
  parseRat s :=
    (some (s.takeWhile (· ≠ 44)),
      if 44 ∈ s then some (s.dropWhile (· ≠ 44)).tail else none)
  parsePci s := s.map fun s => (s.dropWhile (· ≠ 44)).tail.takeWhile (· ≠ 44)
  parsedLine s := s.takeWhile (· ≠ 44)
  hextoDec s := UInt64.ofNat (hexNumber (s.getD []))
  mcc := cstr "460"
  mnc := cstr "00"

theorem plainEnv_reads : Reads plainEnv (cstr "\r\n") where
  comma := by decide
  cutsLine := by
    intro line rest hclean
    have hcut : cutAt (cstr "\r\n") (line ++ (cstr "\r\n" ++ rest)) = some (line, rest) := by
      have hfirst : (13 : UInt8) ∉ line := hclean 13 (by decide)
      rw [show cstr "\r\n" = 13 :: [10] from rfl, cutAt_append_of_notMem hfirst,
        cutAt_append_self]
      simp
    simp only [plainEnv, hcut]
  lastLine := by
    intro line hclean
    have hcut : cutAt (cstr "\r\n") line = none := by
      have hfirst : (13 : UInt8) ∉ line := hclean 13 (by decide)
      have happ := @cutAt_append_of_notMem _ _ 13 [10] line hfirst []
      rw [List.append_nil] at happ
      exact happ
    simp only [plainEnv, hcut]
  firstField := by
    intro rat rest hne hcomma
    obtain ⟨htake, hdrop⟩ := takeWhile_rat hcomma rest
    simp only [plainEnv, htake, hdrop]
    simp
  onlyField := by
    intro rat hne hcomma
    simp only [plainEnv, if_neg hcomma, List.takeWhile_eq_self_iff.mpr (ne_comma hcomma)]
  parsed _ := Or.inr rfl

theorem free_of_crlf {s : CStr} (h : 13 ∉ s ∧ 10 ∉ s) : ∀ c ∈ cstr "\r\n", c ∉ s := by
  intro c hc
  rcases List.mem_cons.mp hc with rfl | hc
  · exact h.1
  · obtain rfl : c = 10 := List.mem_singleton.mp hc
    exact h.2

def cellFields (pci : String) : CStr := cstr "1300," ++ cstr pci ++ cstr ",-80.0,-10.0,5.0"

def lteLine : Line (cstr "\r\n") where
  rat := cstr "LTE"
  fields := cellFields "1A"
  rat_ne := by decide
  rat_comma := by decide
  rat_eol := free_of_crlf (by decide)
  fields_eol := free_of_crlf (by decide)

def nrLine : Line (cstr "\r\n") where
  rat := cstr "NR"
  fields := cellFields "1B"
  rat_ne := by decide
  rat_comma := by decide
  rat_eol := free_of_crlf (by decide)
  fields_eol := free_of_crlf (by decide)

theorem collectNearbts_lteLine :
    ((∃ ret, collectNearbts plainEnv [lteLine, lteLine].length
          (responseText (cstr "\r\n") [lteLine, lteLine]) =
        some (ret, cstr "nearbts=" ++ records plainEnv [lteLine, lteLine])) ↔
      [lteLine, lteLine] ≠ [] ∧ ∀ l ∈ [lteLine, lteLine], isLte l.rat = true) ∧
    cstr "nearbts=" ++ records plainEnv [lteLine, lteLine] =
      cstr "nearbts=460,00,,26,|\r\n460,00,,26,|\r\n" :=
  ⟨collectNearbts_ends_iff plainEnv_reads (Or.inr rfl) (by decide), by decide⟩

/-- One line of another RAT is enough: however often the loop turns, it does not end. -/
theorem nr_line_is_searched_for_ever :
    Reads plainEnv (cstr "\r\n") ∧ isLte nrLine.rat = false ∧
      ∀ fuel, collectNearbts plainEnv fuel (responseText [] [nrLine]) = none :=
  ⟨plainEnv_reads, by decide, fun _ => scanLoop_some_other plainEnv_reads (Or.inl rfl)
    ⟨nrLine, List.mem_cons_self, by decide⟩ (by decide)⟩

end NearbtsScan
