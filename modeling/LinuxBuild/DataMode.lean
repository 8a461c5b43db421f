import LinuxBuild.FileAtConfig
import LinuxBuild.PrintedNumbers

/-!
# Files received in data mode

With a length and no data `AT+MFPUT` and `AT+MFWRITE` go to data mode, where a callback is
handed what comes in, chunk by chunk. The length that is declared and the length received are
kept in two counters, which both commands share. The second one is cleared where a session
ends, except where a write fails. What `fwrite` takes is in the file when the stream has been
closed without an error, and nobody looks for one.
-/
namespace DataMode
open CString FileAtConfig PartialRun PrintedNumbers

/-- `s_file_datamode_data_length` and `s_file_datamode_recv_length` -/
structure Counters where
  dataLength : UInt32
  recvLength : UInt32

/-- How a session ends; a cancelled one cuts the file to a length. -/
inductive Ending where
  | completed
  | timedOut
  | cancelled (length : UInt32)
  | writeFailed
  deriving DecidableEq

/-- What the surroundings do in a callback: the result of `cm_at_cmd_find_quit_symbol` with the
length that it stores, how many bytes the stream takes, and the position in it. -/
structure CbEnv where
  quitSymbol : UInt32 × UInt32
  room : Nat
  ftell : UInt32

/-- What a callback does: the length given to `fwrite`, if it is called, the bytes that the
stream takes, and the answer if the session ends. -/
structure CbRun where
  fwrite : Option UInt32
  stored : CStr
  ended : Option (Ending × Response)

/-- `snprintf` of the count behind the header, into 32 bytes -/
def countReport (header : CStr) (count : UInt32) : CStr :=
  (header ++ decimal count.toInt32 ++ cstr "\r\n").take 31

/-- The length that is written of a chunk when a length was declared -/
def chunkLen (c : Counters) (msgLen : UInt32) : UInt32 :=
  if c.dataLength < c.recvLength + msgLen then c.dataLength - c.recvLength else msgLen

/-- The end of both callbacks -/
def datamodeEnd (header : CStr) (ret : UInt32) (c : Counters) (fwrite : Option UInt32)
    (stored : CStr) : Counters × CbRun :=
  if c.recvLength = c.dataLength ∨ ret = 1 then
    ({ c with recvLength := 0 },
      ⟨fwrite, stored, some (.completed, ⟨some (countReport header c.recvLength), .ok⟩)⟩)
  else (c, ⟨fwrite, stored, none⟩)

/-- What both callbacks do. A chunk of length 0 stands for the timeout, and an `fwrite` that
reads behind the chunk is a fault. -/
def datamodeCb (header : CStr) (cutTo : UInt32 → UInt32) (env : CbEnv) (c : Counters)
    (data : CStr) : Option (Counters × CbRun) :=
  let msgLen := UInt32.ofNat data.length
  if msgLen = 0 then
    some ({ c with recvLength := 0 },
      ⟨none, [], some (.timedOut, ⟨some (countReport header c.recvLength), .ok⟩)⟩)
  else
    let (ret, len) := if 0 < c.dataLength then (0, chunkLen c msgLen) else env.quitSymbol
    if ret = 2 then
      some ({ c with recvLength := 0 },
        ⟨none, [], some (.cancelled (cutTo c.recvLength), .only .ok)⟩)
    else if len ≠ 0 then
      if data.length < len.toNat then none
      else if env.room < len.toNat then
        some (c, ⟨some len, data.take env.room, some (.writeFailed, .only .failToWrite)⟩)
      else
        some (datamodeEnd header ret { c with recvLength := c.recvLength + len } (some len)
          (data.take len.toNat))
    else some (datamodeEnd header ret c none [])

/-- `cm_file_mfput_datamode_cb` -/
def cmFileMfputDatamodeCb (env : CbEnv) (c : Counters) (data : CStr) :
    Option (Counters × CbRun) :=
  datamodeCb (cstr "\r\n+MFPUT: ") (fun _ => 0) env c data

/-- `cm_file_mfwrite_datamode_cb` with the handle of its file -/
def cmFileMfwriteDatamodeCb (fHandle : UInt32) (env : CbEnv) (c : Counters) (data : CStr) :
    Option (Counters × CbRun) :=
  datamodeCb (cstr "\r\n+MFWRITE: " ++ decimal fHandle.toInt32 ++ cstr ",")
    (fun recv => env.ftell - recv) env c data

/-- The command of a session; `AT+MFWRITE` gives the handle of an open file. -/
inductive Target where
  | mfput
  | mfwrite (fHandle : UInt32)

def Target.callback : Target → CbEnv → Counters → CStr → Option (Counters × CbRun)
  | .mfput => cmFileMfputDatamodeCb
  | .mfwrite fHandle => cmFileMfwriteDatamodeCb fHandle

/-- A session with what has come in and what its stream has taken. The callbacks know its
command only. -/
structure Session where
  target : Target
  declared : UInt32
  received : CStr
  written : CStr

def Session.after (session : Session) (data : CStr) (run : CbRun) : Session :=
  { session with
    received := session.received ++ data
    written := session.written ++ run.stored }

/-- The counters, the session that is open, and how the one before it ended, with the number
of bytes that its stream had taken before the last chunk. -/
structure State where
  counters : Counters
  session : Option Session
  last : Option (Ending × Nat)

def State.start : State := ⟨⟨0, 0⟩, none, none⟩

/-- Of the bytes that the stream has taken, the file has the first `flushed` ones when the
stream is closed. -/
def Session.inFile (session : Session) (flushed : Nat) : CStr := session.written.take flushed

/-- A request whose parameters have been checked, with the answer of `cm_at_cmd_set_datamode`,
or a call of the callback. When it ends the session, `AT+MFPUT` closes its stream, and that of
`AT+MFWRITE` is closed later; `flushed` says how many bytes of the session the file has then. -/
inductive Input where
  | request (target : Target) (fsize : UInt32) (accepted : Bool)
  | callback (env : CbEnv) (flushed : Nat) (data : CStr)

/-- What a callback has done, with the bytes that are in the file if it has ended the session -/
inductive Output where
  | entered
  | refused (response : Response)
  | handled (session : Session) (run : CbRun) (filed : Option CStr)

/-- The state that a callback leaves -/
def State.handled (s : State) (session : Session) (data : CStr) (c : Counters) (run : CbRun) :
    State :=
  match run.ended with
  | none => ⟨c, some (session.after data run), s.last⟩
  | some (ending, _) => ⟨c, none, some (ending, session.written.length)⟩

/-- `at_MFPUT_req` and `at_MFWRITE_req` with two parameters, and the callback of the session -/
def step (s : State) : Input → Option (State × Output)
  | .request target fsize accepted =>
    let counters := { s.counters with dataLength := fsize }
    if accepted then
      some ({ s with counters := counters, session := some ⟨target, fsize, [], []⟩ }, .entered)
    else some ({ s with counters := counters }, .refused (.only .operationNotAllowed))
  | .callback env flushed data => do
    let session ← s.session
    let (counters, run) ← session.target.callback env s.counters data
    let after := session.after data run
    some (s.handled session data counters run,
      .handled after run (run.ended.map fun _ => after.inFile flushed))

/-- What of a chunk is still to be written -/
def Session.due (session : Session) (data : CStr) : Nat :=
  min data.length (session.declared.toNat - session.written.length)

def Target.header : Target → CStr
  | .mfput => cstr "\r\n+MFPUT: "
  | .mfwrite fHandle => cstr "\r\n+MFWRITE: " ++ decimal fHandle.toInt32 ++ cstr ","

/-- The handle is one that `AT+MFWRITE` takes. -/
def Target.Valid : Target → Prop
  | .mfput => True
  | .mfwrite fHandle => fHandle ≤ 65535

/-- The count as a decimal number -/
def Target.exactReport (target : Target) (count : Nat) : CStr :=
  target.header ++ cstr (toString count) ++ cstr "\r\n"

/-- What a callback may do in a session. -/
structure Proper (session after : Session) (data : CStr) (run : CbRun) : Prop where
  /-- the part that is due is written, and so never more than the chunk -/
  length : (run.fwrite.getD 0).toNat = session.due data
  /-- the stream has taken the first bytes, unless this write fails -/
  whole : (∀ r, run.ended ≠ some (.writeFailed, r)) →
    after.written = after.received.take after.declared.toNat
  /-- and if it fails, no others -/
  part : after.written <+: after.received ∧ after.written.length ≤ after.declared.toNat
  completes : (∃ r, run.ended = some (.completed, r)) ↔
    after.written.length = after.declared.toNat
  reports : ∀ ending r line, run.ended = some (ending, r) → r.report = some line →
    line = after.target.exactReport after.written.length

/-- What a session may leave in its file. -/
structure Filed (after : Session) (run : CbRun) (filed : Option CStr) : Prop where
  /-- the first bytes of what came in, unless a write has failed -/
  whole : ∀ bytes, filed = some bytes → (∀ r, run.ended ≠ some (.writeFailed, r)) →
    bytes = after.received.take after.declared.toNat
  /-- and if it has, a beginning of them -/
  part : ∀ bytes, filed = some bytes → bytes <+: after.received.take after.declared.toNat

/-- The inputs that a state can get -/
def Fits (s : State) : Input → Prop
  | .request target fsize _ => s.session = none ∧ 0 < fsize ∧ target.Valid
  | .callback _ _ data => s.session ≠ none ∧ data.length < 2 ^ 32

/-- A session starts with a count of 0, and its callbacks do what they may. -/
def Lawful (s : State) (i : Input) : Prop :=
  ∃ t o, step s i = some (t, o) ∧
    match i, o with
    | .request _ _ accepted, _ => accepted = true → t.counters.recvLength = 0
    | .callback _ _ data, .handled after run filed =>
      ∃ session, s.session = some session ∧ Proper session after data run ∧ Filed after run filed
    | _, _ => False

/-- No sum of lengths wraps to one that is not above the declared length, and no count of 2^31
or more is reported. -/
structure Session.Meets (session : Session) (env : CbEnv) (data : CStr) : Prop where
  wrap : 2 ^ 32 ≤ session.written.length + data.length →
    session.declared.toNat + 2 ^ 32 < session.written.length + data.length
  timeout : data = [] → session.written.length < 2 ^ 31
  completed : session.declared.toNat ≤ session.written.length + data.length →
    session.declared.toNat - session.written.length ≤ env.room →
    session.declared.toNat < 2 ^ 31

/-- The bytes of a session that is timed out or completed are in the file when the stream has
been closed. -/
structure Session.Flushes (session : Session) (env : CbEnv) (flushed : Nat) (data : CStr) :
    Prop where
  timeout : data = [] → session.written.length ≤ flushed
  completed : session.declared.toNat ≤ session.written.length + data.length →
    session.declared.toNat - session.written.length ≤ env.room →
    session.declared.toNat ≤ flushed

/-- No session starts when the one before it ended by a failed write and its stream had taken
bytes before that, no callback meets lengths that are too large, and no byte is lost when a stream
is closed. -/
def Meets (s : State) : Input → Prop
  | .request _ _ accepted => accepted = true → ∀ k, s.last = some (.writeFailed, k) → k = 0
  | .callback env flushed data => ∀ session, s.session = some session →
    session.Meets env data ∧ session.Flushes env flushed data

/-- The count that is left when no session is open -/
def carried : Option (Ending × Nat) → Nat
  | some (.writeFailed, k) => k
  | _ => 0

/-- What a session has come to while it is open -/
structure Open (c : Counters) (session : Session) : Prop where
  valid : session.target.Valid
  declared : c.dataLength = session.declared
  count : c.recvLength.toNat = session.written.length
  less : session.written.length < session.declared.toNat
  all : session.written = session.received

/-- The counters tell what has been written. -/
structure Inv (s : State) : Prop where
  active : ∀ session, s.session = some session → Open s.counters session
  idle : s.session = none → s.counters.recvLength.toNat = carried s.last

theorem Inv.start : Inv .start where
  active _ h := by cases h
  idle _ := rfl

variable {s : State} {c : Counters} {session : Session} {env : CbEnv} {data header : CStr}
variable {cutTo : UInt32 → UInt32} {target : Target}

theorem callback_eq (target : Target) : ∃ cutTo, target.callback env c data =
    datamodeCb target.header cutTo env c data := by
  cases target with
  | mfput => exact ⟨fun _ => 0, rfl⟩
  | mfwrite fHandle => exact ⟨fun recv => env.ftell - recv, rfl⟩

/-- The report is cut off nowhere, and it is exact below 2^31. -/
theorem countReport_eq_iff (h : target.Valid) (count : UInt32) :
    countReport target.header count = target.exactReport count.toNat ↔ count.toNat < 2 ^ 31 := by
  have hcount := (decimal_length count.toInt32).2
  have hend : (cstr "\r\n").length = 2 := by decide
  have hheader : target.header.length ≤ 18 := by
    cases target with
    | mfput => decide
    | mfwrite fHandle =>
      have hname : (cstr "\r\n+MFWRITE: ").length = 12 := by decide
      have hcomma : (cstr ",").length = 1 := by decide
      have hdigits : (decimal fHandle.toInt32).length ≤ 5 := by
        have hle : fHandle.toNat ≤ 65535 := UInt32.le_iff_toNat_le.mp h
        exact decimal_toInt32_length (by omega) (by decide) (by omega)
      simp only [Target.header, List.length_append]
      omega
  have hfits : (target.header ++ decimal count.toInt32 ++ cstr "\r\n").length ≤ 31 := by
    simp only [List.length_append]
    omega
  rw [← decimal_toInt32_iff, countReport, List.take_of_length_le hfits, Target.exactReport,
    List.append_left_inj, List.append_right_inj]
  rfl

theorem Open.recv_le (h : Open c session) : c.recvLength ≤ c.dataLength := by
  rw [UInt32.le_iff_toNat_le, h.count, h.declared]
  exact h.less.le

/-- The part that is due is written, unless the sum of the lengths wraps to one that is too
small. -/
theorem chunkLen_toNat_iff (h : Open c session) (hlength : data.length < 2 ^ 32) :
    (chunkLen c (UInt32.ofNat data.length)).toNat = session.due data ↔
      (2 ^ 32 ≤ session.written.length + data.length →
        session.declared.toNat + 2 ^ 32 < session.written.length + data.length) := by
  have hless := h.less
  have hmax := session.declared.toNat_lt
  have hmsg : (UInt32.ofNat data.length).toNat = data.length := UInt32.toNat_ofNat_of_lt' hlength
  have hsum : (c.recvLength + UInt32.ofNat data.length).toNat =
      (session.written.length + data.length) % 2 ^ 32 := by
    rw [UInt32.toNat_add, h.count, hmsg]
  have hleft : (c.dataLength - c.recvLength).toNat =
      session.declared.toNat - session.written.length := by
    rw [UInt32.toNat_sub_of_le _ _ h.recv_le, h.count, h.declared]
  have hcond : c.dataLength < c.recvLength + UInt32.ofNat data.length ↔
      session.declared.toNat < (session.written.length + data.length) % 2 ^ 32 := by
    rw [UInt32.lt_iff_toNat_lt, hsum, h.declared]
  rw [chunkLen, Session.due, Nat.min_def]
  by_cases hover : c.dataLength < c.recvLength + UInt32.ofNat data.length
  · rw [if_pos hover, hleft]
    have hsmall := hcond.mp hover
    split_ifs <;> omega
  · rw [if_neg hover, hmsg]
    have hlarge := mt hcond.mpr hover
    split_ifs <;> omega

theorem datamodeEnd_fwrite {ret : UInt32} {fwrite : Option UInt32} {stored : CStr}
    {c' : Counters} {run : CbRun} (h : datamodeEnd header ret c fwrite stored = (c', run)) :
    run.fwrite = fwrite := by
  rw [datamodeEnd] at h
  split_ifs at h
  · cases h
    rfl
  · cases h
    rfl

theorem datamodeCb_nil : datamodeCb header cutTo env c [] =
    some ({ c with recvLength := 0 },
      ⟨none, [], some (.timedOut, ⟨some (countReport header c.recvLength), .ok⟩)⟩) := rfl

theorem datamodeCb_chunk (h : Open c session) (hdata : data ≠ [])
    (hlength : data.length < 2 ^ 32) {len : UInt32}
    (hlen : chunkLen c (UInt32.ofNat data.length) = len) :
    datamodeCb header cutTo env c data =
      if data.length < len.toNat then none
      else if env.room < len.toNat then
        some (c, ⟨some len, data.take env.room, some (.writeFailed, .only .failToWrite)⟩)
      else
        some (datamodeEnd header 0 { c with recvLength := c.recvLength + len } (some len)
          (data.take len.toNat)) := by
  have hless := h.less
  have hpos : 0 < data.length := List.length_pos_iff.mpr hdata
  have hmsg : (UInt32.ofNat data.length).toNat = data.length := UInt32.toNat_ofNat_of_lt' hlength
  have hchunk : ¬ UInt32.ofNat data.length = 0 := by
    intro hzero
    rw [hzero] at hmsg
    exact absurd hmsg.symm hpos.ne'
  have hdeclared : 0 < c.dataLength := by
    rw [UInt32.lt_iff_toNat_lt, h.declared]
    exact Nat.zero_lt_of_lt hless
  have hsome : len ≠ 0 := by
    rintro rfl
    rw [chunkLen] at hlen
    split_ifs at hlen
    · have hleft := UInt32.toNat_sub_of_le _ _ h.recv_le
      rw [hlen, h.count, h.declared] at hleft
      exact absurd hleft (Nat.sub_pos_of_lt hless).ne
    · exact hchunk hlen
  have hquit : ¬ (0 : UInt32) = 2 := by decide
  simp only [datamodeCb, if_neg hchunk, if_pos hdeclared, hlen, if_neg hquit, if_pos hsome]

/-- A whole write that is due -/
theorem toNat_add_due (h : Open c session) {len : UInt32} (hlen : len.toNat = session.due data) :
    (c.recvLength + len).toNat = session.written.length + session.due data := by
  have hless := h.less
  have hmax := session.declared.toNat_lt
  have hdue : session.due data ≤ session.declared.toNat - session.written.length :=
    Nat.min_le_right _ _
  rw [UInt32.toNat_add, h.count, hlen]
  exact Nat.mod_eq_of_lt (by omega)

/-- The counters are equal when the session has got what was declared. -/
theorem recv_eq_iff (h : Open c session) {len : UInt32} (hlen : len.toNat = session.due data) :
    c.recvLength + len = c.dataLength ↔
      session.written.length + session.due data = session.declared.toNat := by
  rw [← toNat_add_due h hlen, ← h.declared]
  exact UInt32.toNat_inj.symm

theorem proper_of_failed (h : Open c session) {len : UInt32} (hlen : len.toNat = session.due data)
    (hroom : env.room < len.toNat) {run : CbRun}
    (hrun : run = ⟨some len, data.take env.room, some (.writeFailed, .only .failToWrite)⟩) :
    Proper session (session.after data run) data run := by
  subst hrun
  have hless := h.less
  have hdue : session.due data ≤ session.declared.toNat - session.written.length :=
    Nat.min_le_right _ _
  have hstored : (data.take env.room).length ≤ env.room := List.length_take_le _ _
  have hafter : (session.written ++ data.take env.room).length < session.declared.toNat := by
    rw [List.length_append]
    omega
  refine ⟨hlen, fun hnot => absurd rfl (hnot _), ⟨?_, hafter.le⟩, ?_, ?_⟩
  · rw [Session.after, h.all]
    exact (List.prefix_append_right_inj _).mpr (List.take_prefix _ _)
  · exact iff_of_false (by simp) hafter.ne
  · rintro _ _ line ⟨⟩ hline
    cases hline

/-- With what is due of the chunk the stream has the first bytes of what came in. -/
theorem written_append_due (h : Open c session) :
    session.written ++ data.take (session.due data) =
      (session.received ++ data).take session.declared.toNat := by
  have hless := h.less
  have hwhole : session.written.take session.declared.toNat = session.written :=
    List.take_of_length_le hless.le
  have hpart : data.take (session.declared.toNat - session.written.length) =
      data.take (session.due data) := by
    rw [List.take_eq_take_iff, Session.due]
    omega
  rw [← h.all, List.take_append, hwhole, hpart]

theorem length_written_append_due (data : CStr) :
    (session.written ++ data.take (session.due data)).length =
      session.written.length + session.due data := by
  have hle : session.due data ≤ data.length := Nat.min_le_left _ _
  rw [List.length_append, List.length_take_of_le hle]

/-- A whole write completes the session or leaves it open. -/
theorem proper_end_iff (h : Open c session) {len : UInt32} (hlen : len.toNat = session.due data) :
    Proper session
        (session.after data (datamodeEnd session.target.header 0
          { c with recvLength := c.recvLength + len } (some len) (data.take len.toNat)).2) data
        (datamodeEnd session.target.header 0 { c with recvLength := c.recvLength + len } (some len)
          (data.take len.toNat)).2 ↔
      (session.declared.toNat ≤ session.written.length + data.length →
        session.declared.toNat < 2 ^ 31) := by
  have hless := h.less
  have hcount := toNat_add_due h hlen
  have hdue : session.due data = min data.length
    (session.declared.toNat - session.written.length) := rfl
  have hle : session.written.length + session.due data ≤ session.declared.toNat := by omega
  have hwhole := @written_append_due _ _ data h
  have hlength := @length_written_append_due session data
  have hbegins : session.written ++ data.take (session.due data) <+: session.received ++ data := by
    rw [hwhole]
    exact List.take_prefix _ _
  rw [hlen]
  by_cases hfull : c.recvLength + len = c.dataLength
  · have hnat := (recv_eq_iff h hlen).mp hfull
    have hend : datamodeEnd session.target.header 0 { c with recvLength := c.recvLength + len }
        (some len) (data.take (session.due data)) =
          ({ c with recvLength := 0 }, ⟨some len, data.take (session.due data),
            some (.completed, ⟨some (countReport session.target.header (c.recvLength + len)),
              .ok⟩)⟩) := if_pos (Or.inl hfull)
    have hreport : countReport session.target.header (c.recvLength + len) =
        session.target.exactReport (session.written ++ data.take (session.due data)).length ↔
          session.declared.toNat < 2 ^ 31 := by
      rw [hlength, ← hcount, countReport_eq_iff h.valid, hcount, hnat]
    rw [hend]
    constructor
    · intro hproper _
      exact hreport.mp (hproper.reports _ _ _ rfl rfl)
    · intro hsmall
      refine ⟨hlen, fun _ => hwhole, ⟨hbegins, ?_⟩, ?_, ?_⟩
      · exact hlength.trans_le hnat.le
      · exact iff_of_true ⟨_, rfl⟩ (hlength.trans hnat)
      · rintro _ _ line ⟨⟩ ⟨⟩
        exact hreport.mpr (hsmall (by omega))
  · have hnat := mt (recv_eq_iff h hlen).mpr hfull
    have hend : datamodeEnd session.target.header 0 { c with recvLength := c.recvLength + len }
        (some len) (data.take (session.due data)) =
          ({ c with recvLength := c.recvLength + len },
            ⟨some len, data.take (session.due data), none⟩) :=
      if_neg (not_or.mpr ⟨hfull, by decide⟩)
    rw [hend]
    refine iff_of_true ⟨hlen, fun _ => hwhole, ⟨hbegins, ?_⟩, ?_, ?_⟩ fun hlong => ?_
    · exact hlength.trans_le hle
    · exact iff_of_false (by simp) fun heq => hnat (hlength.symm.trans heq)
    · rintro _ _ _ ⟨⟩
    · omega

theorem proper_timeout_iff (h : Open c session) {run : CbRun}
    (hrun : run = ⟨none, [], some (.timedOut,
      ⟨some (countReport session.target.header c.recvLength), .ok⟩)⟩) :
    Proper session (session.after [] run) [] run ↔ session.written.length < 2 ^ 31 := by
  subst hrun
  have hless := h.less
  have hwritten : (session.written ++ []).length = session.written.length := by
    rw [List.append_nil]
  have hreport : countReport session.target.header c.recvLength =
      session.target.exactReport (session.written ++ []).length ↔
        session.written.length < 2 ^ 31 := by
    rw [hwritten, ← h.count, countReport_eq_iff h.valid, h.count]
  constructor
  · intro hproper
    exact hreport.mp (hproper.reports _ _ _ rfl rfl)
  · intro hsmall
    refine ⟨(Nat.zero_min _).symm, fun _ => ?_, ⟨?_, hwritten.trans_le hless.le⟩, ?_, ?_⟩
    · rw [Session.after, ← h.all, List.take_of_length_le (hwritten.trans_le hless.le)]
    · rw [Session.after, h.all]
    · exact iff_of_false (by simp) (hwritten.trans_ne hless.ne)
    · rintro _ _ line ⟨⟩ ⟨⟩
      exact hreport.mpr hsmall

/-- A callback does what it may with its stream exactly when it meets the condition. -/
theorem callback_proper_iff (h : Open c session) (hlength : data.length < 2 ^ 32) :
    (∃ c' run, session.target.callback env c data = some (c', run) ∧
        Proper session (session.after data run) data run) ↔ session.Meets env data := by
  have hless := h.less
  have hmax := session.declared.toNat_lt
  obtain ⟨cutTo, hcb⟩ := @callback_eq c env data session.target
  rw [hcb]
  by_cases hdata : data = []
  · subst hdata
    rw [datamodeCb_nil]
    constructor
    · rintro ⟨_, _, ⟨⟩, hproper⟩
      refine ⟨?_, fun _ => (proper_timeout_iff h rfl).mp hproper, ?_⟩
      · rw [List.length_nil]
        omega
      · rw [List.length_nil]
        omega
    · intro hmeets
      exact ⟨_, _, rfl, (proper_timeout_iff h rfl).mpr (hmeets.timeout rfl)⟩
  have hdue : session.due data = min data.length
    (session.declared.toNat - session.written.length) := rfl
  have hwrap := chunkLen_toNat_iff h hlength
  generalize hlen : chunkLen c (UInt32.ofNat data.length) = len at hwrap
  rw [datamodeCb_chunk h hdata hlength hlen]
  constructor
  · rintro ⟨c', run, hrun, hproper⟩
    split_ifs at hrun with hfault hroom
    · cases hrun
      have hdueLen : len.toNat = session.due data := hproper.length
      refine ⟨hwrap.mp hdueLen, fun hnil => absurd hnil hdata, ?_⟩
      omega
    · have hend := Option.some.inj hrun
      have hdueLen := hproper.length
      rw [datamodeEnd_fwrite hend] at hdueLen
      obtain rfl := congrArg Prod.snd hend
      refine ⟨hwrap.mp hdueLen, fun hnil => absurd hnil hdata, fun hlong _ => ?_⟩
      exact (proper_end_iff h hdueLen).mp hproper hlong
  · intro hmeets
    have hdueLen := hwrap.mpr hmeets.wrap
    rw [if_neg (by omega)]
    by_cases hroom : env.room < len.toNat
    · rw [if_pos hroom]
      exact ⟨_, _, rfl, proper_of_failed h hdueLen hroom rfl⟩
    · rw [if_neg hroom]
      refine ⟨_, _, rfl, (proper_end_iff h hdueLen).mpr fun hlong => ?_⟩
      exact hmeets.completed hlong (by omega)

/-- The file has what it is to have exactly when a session that ends without a failed write is
flushed. -/
theorem filed_iff {after : Session} {run : CbRun} {flushed : Nat}
    (hproper : Proper session after data run) :
    Filed after run (run.ended.map fun _ => after.inFile flushed) ↔
      (run.ended ≠ none → (∀ r, run.ended ≠ some (.writeFailed, r)) →
        after.written.length ≤ flushed) := by
  constructor
  · intro hfiled hended hwhole
    obtain ⟨ended, hsome⟩ := Option.ne_none_iff_exists'.mp hended
    have hbytes := hfiled.whole (after.inFile flushed) (by rw [hsome, Option.map_some]) hwhole
    rw [← hproper.whole hwhole] at hbytes
    exact (List.take_eq_self_iff _).mp hbytes
  · intro hflushed
    constructor
    · intro bytes hbytes hwhole
      obtain ⟨ended, hsome, rfl⟩ := Option.map_eq_some_iff.mp hbytes
      have hended : run.ended ≠ none := by simp [hsome]
      rw [← hproper.whole hwhole]
      exact List.take_of_length_le (hflushed hended hwhole)
    · intro bytes hbytes
      obtain ⟨ended, -, rfl⟩ := Option.map_eq_some_iff.mp hbytes
      obtain ⟨hbegins, hlength⟩ := hproper.part
      have hpart : after.written <+: after.received.take after.declared.toNat := by
        rw [← List.take_of_length_le hlength]
        exact hbegins.take _
      exact (List.take_prefix _ _).trans hpart

/-- What a callback does that writes what is due: a timeout, a write that fails, the end of the
session, or a session that goes on. -/
inductive Handles (c : Counters) (session : Session) (env : CbEnv) (data : CStr) :
    Counters → CbRun → Prop where
  | timesOut (hdata : data = []) : Handles c session env data { c with recvLength := 0 }
      ⟨none, [], some (.timedOut, ⟨some (countReport session.target.header c.recvLength), .ok⟩)⟩
  | fails {len : UInt32} (hdata : data ≠ []) (hroom : env.room < session.due data) :
      Handles c session env data c
        ⟨some len, data.take env.room, some (.writeFailed, .only .failToWrite)⟩
  | completes {len : UInt32} (hdata : data ≠ []) (hroom : session.due data ≤ env.room)
      (hfull : session.written.length + session.due data = session.declared.toNat) :
      Handles c session env data { c with recvLength := 0 }
        ⟨some len, data.take (session.due data), some (.completed,
          ⟨some (countReport session.target.header (c.recvLength + len)), .ok⟩)⟩
  | continues {len : UInt32} (hdata : data ≠ [])
      (hlen : (c.recvLength + len).toNat = session.written.length + session.due data)
      (hopen : session.written.length + session.due data ≠ session.declared.toNat) :
      Handles c session env data { c with recvLength := c.recvLength + len }
        ⟨some len, data.take (session.due data), none⟩

theorem callback_handles (h : Open c session) (hlength : data.length < 2 ^ 32) {c' : Counters}
    {run : CbRun} (hcb : session.target.callback env c data = some (c', run))
    (hproper : Proper session (session.after data run) data run) :
    Handles c session env data c' run := by
  obtain ⟨cutTo, heq⟩ := @callback_eq c env data session.target
  rw [heq] at hcb
  by_cases hdata : data = []
  · subst hdata
    rw [datamodeCb_nil] at hcb
    cases hcb
    exact .timesOut rfl
  generalize hlen : chunkLen c (UInt32.ofNat data.length) = len
  rw [datamodeCb_chunk h hdata hlength hlen] at hcb
  split_ifs at hcb with hfault hroom
  · cases hcb
    have hdueLen : len.toNat = session.due data := hproper.length
    exact .fails hdata (hdueLen ▸ hroom)
  have hend := Option.some.inj hcb
  have hdueLen := hproper.length
  rw [datamodeEnd_fwrite hend] at hdueLen
  have hdueLen : len.toNat = session.due data := hdueLen
  rw [hdueLen] at hroom
  rw [datamodeEnd, hdueLen] at hend
  split_ifs at hend with hfull
  · cases hend
    exact .completes hdata (not_lt.mp hroom)
      ((recv_eq_iff h hdueLen).mp (hfull.resolve_right (by decide)))
  · cases hend
    exact .continues hdata (toNat_add_due h hdueLen)
      (mt (recv_eq_iff h hdueLen).mpr fun heq => hfull (Or.inl heq))

/-- A callback ends its session without a failed write when the timeout comes, or when what was
declared is complete. -/
theorem flushes_iff (h : Open c session) (hlength : data.length < 2 ^ 32) {c' : Counters}
    {run : CbRun} {flushed : Nat} (hcb : session.target.callback env c data = some (c', run))
    (hproper : Proper session (session.after data run) data run) :
    (run.ended ≠ none → (∀ r, run.ended ≠ some (.writeFailed, r)) →
      (session.after data run).written.length ≤ flushed) ↔ session.Flushes env flushed data := by
  have hless := h.less
  have hcount := @length_written_append_due session data
  have hdue : session.due data = min data.length
    (session.declared.toNat - session.written.length) := rfl
  cases callback_handles h hlength hcb hproper with
  | timesOut hdata =>
    subst hdata
    have hwritten : (session.written ++ []).length = session.written.length := by
      rw [List.append_nil]
    constructor
    · intro hflushed
      refine ⟨fun _ => ?_, ?_⟩
      · rw [← hwritten]
        exact hflushed (by simp) (by simp)
      · rw [List.length_nil]
        omega
    · intro hflushes _ _
      exact hwritten.trans_le (hflushes.timeout rfl)
  | fails hdata hroom =>
    constructor
    · intro _
      refine ⟨fun hnil => absurd hnil hdata, ?_⟩
      omega
    · intro _ _ hwhole
      exact absurd rfl (hwhole _)
  | completes hdata hroom hfull =>
    have hafter : (session.written ++ data.take (session.due data)).length =
      session.declared.toNat := hcount.trans hfull
    constructor
    · intro hflushed
      refine ⟨fun hnil => absurd hnil hdata, fun _ _ => ?_⟩
      rw [← hafter]
      exact hflushed (by simp) (by simp)
    · intro hflushes _ _
      exact hafter.trans_le (hflushes.completed (by omega) (by omega))
  | continues hdata hlen hopen =>
    constructor
    · intro _
      refine ⟨fun hnil => absurd hnil hdata, ?_⟩
      omega
    · intro _ hended
      exact absurd rfl hended

/-- A callback does what it may, with its stream and with its file, exactly when it meets the
conditions. -/
theorem callback_lawful_iff (h : Open c session) (hlength : data.length < 2 ^ 32)
    {flushed : Nat} :
    (∃ c' run, session.target.callback env c data = some (c', run) ∧
        Proper session (session.after data run) data run ∧
        Filed (session.after data run) run
          (run.ended.map fun _ => (session.after data run).inFile flushed)) ↔
      session.Meets env data ∧ session.Flushes env flushed data := by
  rw [← callback_proper_iff h hlength]
  constructor
  · rintro ⟨c', run, hcb, hproper, hfiled⟩
    exact ⟨⟨c', run, hcb, hproper⟩,
      (flushes_iff h hlength hcb hproper).mp ((filed_iff hproper).mp hfiled)⟩
  · rintro ⟨⟨c', run, hcb, hproper⟩, hflushes⟩
    exact ⟨c', run, hcb, hproper,
      (filed_iff hproper).mpr ((flushes_iff h hlength hcb hproper).mpr hflushes)⟩

/-- A callback that does what it may leaves the counters right: the count of a session that goes
on is what its stream has taken, and otherwise it is cleared, unless the write has failed. -/
theorem Open.callback (h : Open c session) (hlength : data.length < 2 ^ 32) {c' : Counters}
    {run : CbRun} (hcb : session.target.callback env c data = some (c', run))
    (hproper : Proper session (session.after data run) data run) :
    (run.ended = none → Open c' (session.after data run)) ∧
      ∀ ending r, run.ended = some (ending, r) →
        c'.recvLength.toNat = carried (some (ending, session.written.length)) := by
  have hless := h.less
  have hdue : session.due data = min data.length
    (session.declared.toNat - session.written.length) := rfl
  cases callback_handles h hlength hcb hproper with
  | timesOut | completes =>
    refine ⟨fun hopen => (by cases hopen), ?_⟩
    rintro _ _ ⟨⟩
    rfl
  | fails =>
    refine ⟨fun hopen => (by cases hopen), ?_⟩
    rintro _ _ ⟨⟩
    exact h.count
  | continues _ hlen hopen =>
    have hlt : session.written.length + session.due data < session.declared.toNat := by omega
    have hall : data.take (session.due data) = data := List.take_of_length_le (by omega)
    refine ⟨fun _ => ⟨h.valid, h.declared, ?_, ?_, ?_⟩, ?_⟩
    · exact hlen.trans (length_written_append_due data).symm
    · exact (length_written_append_due data).trans_lt hlt
    · rw [Session.after, h.all, hall]
    · rintro _ _ ⟨⟩

theorem step_callback (hsession : s.session = some session) {flushed : Nat} :
    step s (.callback env flushed data) =
      (session.target.callback env s.counters data).map fun r =>
        (s.handled session data r.1 r.2, .handled (session.after data r.2) r.2
          (r.2.ended.map fun _ => (session.after data r.2).inFile flushed)) := by
  simp only [step, hsession, Option.bind_eq_bind, Option.bind_some]
  cases session.target.callback env s.counters data <;> rfl

theorem lawful_callback_iff (hsession : s.session = some session) {flushed : Nat} :
    Lawful s (.callback env flushed data) ↔
      ∃ c' run, session.target.callback env s.counters data = some (c', run) ∧
        Proper session (session.after data run) data run ∧
        Filed (session.after data run) run
          (run.ended.map fun _ => (session.after data run).inFile flushed) := by
  rw [Lawful, step_callback hsession]
  constructor
  · rintro ⟨t, o, hstep, hlaw⟩
    obtain ⟨r, hr, heq⟩ := Option.map_eq_some_iff.mp hstep
    obtain rfl := congrArg Prod.snd heq
    obtain ⟨session', hsession', hproper, hfiled⟩ := hlaw
    obtain rfl := Option.some.inj (hsession.symm.trans hsession')
    exact ⟨r.1, r.2, hr, hproper, hfiled⟩
  · rintro ⟨c', run, hcb, hproper, hfiled⟩
    refine ⟨s.handled session data c' run, .handled (session.after data run) run
      (run.ended.map fun _ => (session.after data run).inFile flushed), ?_, ?_⟩
    · rw [hcb]
      rfl
    · exact ⟨session, hsession, hproper, hfiled⟩

theorem lawful_request_iff (hinv : Inv s) {fsize : UInt32} {accepted : Bool}
    (hnone : s.session = none) :
    Lawful s (.request target fsize accepted) ↔ Meets s (.request target fsize accepted) := by
  have hidle := hinv.idle hnone
  cases accepted with
  | false =>
    refine iff_of_true ⟨_, _, rfl, fun haccepted => ?_⟩ fun haccepted => ?_
    · cases haccepted
    · cases haccepted
  | true =>
    have hcleared : s.counters.recvLength = 0 ↔ carried s.last = 0 := by
      rw [← hidle, ← UInt32.toNat_inj]
      rfl
    have hlaw : Lawful s (.request target fsize true) ↔ s.counters.recvLength = 0 := by
      constructor
      · rintro ⟨t, o, hstep, hlaw⟩
        cases hstep
        exact hlaw rfl
      · exact fun hzero => ⟨_, _, rfl, fun _ => hzero⟩
    rw [hlaw, hcleared]
    constructor
    · rintro hzero - k hlast
      rwa [hlast] at hzero
    · intro hmeets
      cases hlast : s.last with
      | none => rfl
      | some last =>
        obtain ⟨ending, k⟩ := last
        cases ending with
        | writeFailed => exact hmeets rfl k hlast
        | completed => rfl
        | timedOut => rfl
        | cancelled length => rfl

theorem lawful_iff (hinv : Inv s) {i : Input} (hfits : Fits s i) : Lawful s i ↔ Meets s i := by
  cases i with
  | request target fsize accepted => exact lawful_request_iff hinv hfits.1
  | callback env flushed data =>
    obtain ⟨hsession, hlength⟩ := hfits
    obtain ⟨session, hsome⟩ := Option.ne_none_iff_exists'.mp hsession
    rw [lawful_callback_iff hsome, callback_lawful_iff (hinv.active session hsome) hlength]
    constructor
    · rintro hmeets session' hsession'
      obtain rfl := Option.some.inj (hsome.symm.trans hsession')
      exact hmeets
    · exact fun hmeets => hmeets session hsome

theorem Inv.request (hinv : Inv s) {fsize : UInt32} {accepted : Bool} {t : State} {o : Output}
    (hfits : Fits s (.request target fsize accepted))
    (hlawful : Lawful s (.request target fsize accepted))
    (hstep : step s (.request target fsize accepted) = some (t, o)) : Inv t := by
  obtain ⟨hnone, hpos, hvalid⟩ := hfits
  cases accepted with
  | false =>
    cases hstep
    refine ⟨fun session hsome => ?_, hinv.idle⟩
    cases hnone.symm.trans hsome
  | true =>
    obtain ⟨t', o', hstep', hlaw⟩ := hlawful
    cases hstep
    cases hstep'
    have hzero : s.counters.recvLength = 0 := hlaw rfl
    refine ⟨?_, fun hopen => by cases hopen⟩
    rintro _ ⟨⟩
    refine ⟨hvalid, rfl, ?_, UInt32.lt_iff_toNat_lt.mp hpos, rfl⟩
    rw [hzero]
    rfl

theorem Inv.callback (hinv : Inv s) {t : State} {o : Output} {flushed : Nat}
    (hfits : Fits s (.callback env flushed data)) (hlawful : Lawful s (.callback env flushed data))
    (hstep : step s (.callback env flushed data) = some (t, o)) : Inv t := by
  obtain ⟨hsession, hlength⟩ := hfits
  obtain ⟨session, hsome⟩ := Option.ne_none_iff_exists'.mp hsession
  obtain ⟨c', run, hcb, hproper, -⟩ := (lawful_callback_iff hsome).mp hlawful
  rw [step_callback hsome, hcb] at hstep
  cases hstep
  obtain ⟨hgoes, hends⟩ := (hinv.active session hsome).callback hlength hcb hproper
  cases hended : run.ended with
  | none =>
    have hstate : s.handled session data c' run =
        ⟨c', some (session.after data run), s.last⟩ := by rw [State.handled, hended]
    change Inv (s.handled session data c' run)
    rw [hstate]
    refine ⟨?_, fun hopen => by cases hopen⟩
    rintro _ ⟨⟩
    exact hgoes hended
  | some ended =>
    obtain ⟨ending, r⟩ := ended
    have hstate : s.handled session data c' run =
        ⟨c', none, some (ending, session.written.length)⟩ := by rw [State.handled, hended]
    change Inv (s.handled session data c' run)
    rw [hstate]
    exact ⟨fun _ hopen => (by cases hopen), fun _ => hends ending r hended⟩

theorem Inv.step (hinv : Inv s) {i : Input} (hfits : Fits s i) (hlawful : Lawful s i) {t : State}
    {o : Output} (hstep : step s i = some (t, o)) : Inv t := by
  cases i with
  | request target fsize accepted => exact hinv.request hfits hlawful hstep
  | callback env flushed data => exact hinv.callback hfits hlawful hstep

/-- In the runs of sessions one after the other, every count and every file is right exactly as
long as no session starts with what a failed write has left, no lengths are too large, and
nothing is lost when a stream is closed. -/
theorem sessions_lawful_iff {trace : List (Input × Output)} :
    Run step (fun _ s i => Fits s i ∧ Lawful s i) .start trace s ↔
      Run step (fun _ s i => Fits s i ∧ Meets s i) .start trace s :=
  @Run.law_iff _ _ _ _ _ (fun _ => Inv) (fun s i => Fits s i ∧ Lawful s i)
    (fun s i => Fits s i ∧ Meets s i) Inv.start
    (fun hinv hlaw hstep => hinv.step hlaw.1 hlaw.2 hstep)
    (fun hinv => and_congr_right fun hfits => lawful_iff hinv hfits) _ _

/-- The stream takes as many bytes as there is room for. -/
def roomFor (room : Nat) : CbEnv := ⟨(0, 0), room, 0⟩

/-- A chunk that no buffer of 4096 bytes holds -/
def largeChunk : CStr := List.replicate 4996 101

theorem largeChunk_run {c : Counters} {session : Session} (h : Open c session)
    (hchunk : chunkLen c 4996 = 4996) :
    session.target.callback (roomFor 4092) c largeChunk = some (c, ⟨some 4996,
      largeChunk.take 4092, some (.writeFailed, .only .failToWrite)⟩) := by
  have hlength : largeChunk.length = 4996 := List.length_replicate
  have hne : largeChunk ≠ [] := by
    rw [← List.length_pos_iff, hlength]
    decide
  obtain ⟨cutTo, heq⟩ := @callback_eq c (roomFor 4092) largeChunk session.target
  have hlen : chunkLen c (UInt32.ofNat largeChunk.length) = 4996 := by
    rw [hlength]
    exact hchunk
  have hinside : ¬ largeChunk.length < (4996 : UInt32).toNat := by
    rw [hlength]
    decide
  have hroom : (roomFor 4092).room < (4996 : UInt32).toNat := by decide
  rw [heq, datamodeCb_chunk h hne (by rw [hlength]; decide) hlen, if_neg hinside, if_pos hroom]
  rfl

/-- Four bytes are declared and taken, and none of them is in the file when the stream has been
closed; four are reported. -/
theorem failed_flush_reports_all : ∃ trace s,
    Run step (fun _ => Fits) .start trace s ∧
      trace.map Prod.fst =
        [.request .mfput 4 true, .callback (roomFor 4096) 0 (cstr "ab"),
          .callback (roomFor 4096) 0 (cstr "cd")] ∧
      (trace.map Prod.snd).getLast? = some (.handled ⟨.mfput, 4, cstr "abcd", cstr "abcd"⟩
        ⟨some 2, cstr "cd", some (.completed, ⟨some (cstr "\r\n+MFPUT: 4\r\n"), .ok⟩)⟩
        (some [])) := by
  have h₁ : Run step (fun _ => Fits) .start _ ⟨⟨4, 0⟩, some ⟨.mfput, 4, [], []⟩, none⟩ :=
    .snoc (i := .request .mfput 4 true) .start (by exact ⟨rfl, by decide, trivial⟩) rfl
  have h₂ : Run step (fun _ => Fits) .start _
      ⟨⟨4, 2⟩, some ⟨.mfput, 4, cstr "ab", cstr "ab"⟩, none⟩ :=
    h₁.snoc (i := .callback (roomFor 4096) 0 (cstr "ab"))
      (by exact ⟨Option.some_ne_none _, by decide⟩) rfl
  have h₃ : Run step (fun _ => Fits) .start _ ⟨⟨4, 0⟩, none, some (.completed, 2)⟩ :=
    h₂.snoc (i := .callback (roomFor 4096) 0 (cstr "cd"))
      (by exact ⟨Option.some_ne_none _, by decide⟩) rfl
  exact ⟨_, _, h₃, rfl, rfl⟩

/-- Of 5000 bytes four are taken, and the stream cannot be flushed for the next ones: the write
fails. In a session for two bytes after that a chunk of one byte is written with the length
2 - 4. And a flush that fails at the end of a session leaves its file empty, with the whole
count reported. -/
theorem failed_write_leaves_count :
    (∃ trace s, Run step (fun _ => Fits) .start trace s ∧
      trace.map Prod.fst =
        [.request .mfput 5000 true, .callback (roomFor 4096) 0 (cstr "abcd"),
          .callback (roomFor 4092) 0 largeChunk, .request .mfput 2 true] ∧
      s.session = some ⟨.mfput, 2, [], []⟩ ∧ s.counters.recvLength = 4 ∧
      chunkLen s.counters 1 = 4294967294 ∧
      step s (.callback (roomFor 4096) 1 (cstr "x")) = none ∧
      ¬ Lawful s (.callback (roomFor 4096) 1 (cstr "x"))) ∧
    ∃ trace s, Run step (fun _ => Fits) .start trace s ∧
      trace.map Prod.fst =
        [.request .mfput 4 true, .callback (roomFor 4096) 0 (cstr "ab"),
          .callback (roomFor 4096) 0 (cstr "cd")] ∧
      (trace.map Prod.snd).getLast? = some (.handled ⟨.mfput, 4, cstr "abcd", cstr "abcd"⟩
        ⟨some 2, cstr "cd", some (.completed, ⟨some (cstr "\r\n+MFPUT: 4\r\n"), .ok⟩)⟩
        (some [])) := by
  have h₁ : Run step (fun _ => Fits) .start _ ⟨⟨5000, 0⟩, some ⟨.mfput, 5000, [], []⟩, none⟩ :=
    .snoc (i := .request .mfput 5000 true) .start (by exact ⟨rfl, by decide, trivial⟩) rfl
  have h₂ : Run step (fun _ => Fits) .start _
      ⟨⟨5000, 4⟩, some ⟨.mfput, 5000, cstr "abcd", cstr "abcd"⟩, none⟩ :=
    h₁.snoc (i := .callback (roomFor 4096) 0 (cstr "abcd"))
      (by exact ⟨Option.some_ne_none _, by decide⟩) rfl
  have hopen : Open ⟨5000, 4⟩ ⟨.mfput, 5000, cstr "abcd", cstr "abcd"⟩ :=
    ⟨trivial, rfl, rfl, by decide, rfl⟩
  have hlarge := largeChunk_run hopen rfl
  have hshort : largeChunk.length < 2 ^ 32 := by
    rw [largeChunk, List.length_replicate]
    decide
  have h₃ : Run step (fun _ => Fits) .start _ ⟨⟨5000, 4⟩, none, some (.writeFailed, 4)⟩ :=
    h₂.snoc (i := .callback (roomFor 4092) 0 largeChunk)
      (by exact ⟨Option.some_ne_none _, hshort⟩) (by rw [step_callback rfl, hlarge]; rfl)
  have h₄ : Run step (fun _ => Fits) .start _
      ⟨⟨2, 4⟩, some ⟨.mfput, 2, [], []⟩, some (.writeFailed, 4)⟩ :=
    h₃.snoc (i := .request .mfput 2 true) (by exact ⟨rfl, by decide, trivial⟩) rfl
  refine ⟨⟨_, _, h₄, rfl, rfl, rfl, rfl, rfl, ?_⟩, failed_flush_reports_all⟩
  rintro ⟨t, o, hstep, -⟩
  cases hstep

end DataMode
