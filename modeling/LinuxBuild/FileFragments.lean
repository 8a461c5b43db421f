import LinuxBuild.CBuffer
import LinuxBuild.FileAtConfig
import LinuxBuild.FileMd5
import LinuxBuild.FileSeek

/-!
# Files sent in fragments

`AT+MFREAD` and `AT+MFGET` read a file piece by piece into one buffer, behind a header that is
printed there, and send what the buffer holds. With the output format HEX every piece is
turned into its digits where it stands. The numbers of the loops stay below the length that
they read, so they are natural numbers here.
-/
namespace FileFragments
open CString CBuffer ByteStream FileMd5 FileSeek FileAtConfig

/-- `malloc` with the bytes that it finds there, and `cm_util_hex2str`. -/
structure FragEnv where
  malloc : (n : Nat) → Option (Field n)
  hex2str : CStr → Option CStr

/-- `FS_DEFAULT_FRAG_SIZE` -/
def fsDefaultFragSize : Nat := 8192

/-- `FS_FILENAME_MAX_LEN` -/
def fsFilenameMaxLen : Nat := 128

def fragSize (cfg : FsCmccCfg) : Nat :=
  if 0 < cfg.fragsize then cfg.fragsize.toNat else fsDefaultFragSize

def hexOutput (cfg : FsCmccCfg) : Bool := cfg.outputfmt.toUInt32 = outfmtHex

/-- The part of the buffer that is for the fragments -/
def bufferLen (hex : Bool) (frag total : Nat) : Nat :=
  if hex then (if frag / 2 < total then frag / 2 else total) * 2
  else if frag < total then frag else total

/-- `read_size` when `left` bytes are left -/
def readSize (hex : Bool) (frag left : Nat) : Nat :=
  if hex then (if frag / 2 < left then frag / 2 else left)
  else if frag < left then frag else left

def number (k : Nat) : CStr := decimal (Int32.ofNat k)

section Loops
variable (env : FragEnv) (hex : Bool) {n : Nat}

/-- `fread` behind the first `len` bytes of the buffer, and the digits in place of what was
read. The result is the length that the buffer is filled to. -/
def fill (data : Field n) (len size : Nat) (fp : File UInt8) :
    Option (Except FsRet (Field n × Nat) × File UInt8) := do
  let (count, bytes, fp) := fread size 1 fp
  let data ← putBytes data len bytes
  if count ≠ 1 then some (.error .failToRead, fp)
  else if hex then do
    let source ← getBytes data len size
    match env.hex2str source with
    | none => some (.error .valueInvalid, fp)
    | some digits => do
      let data ← putBytes data len digits
      some (.ok (data, len + size * 2), fp)
  else some (.ok (data, len + size), fp)

/-- The header of a fragment; the first one starts on a line of its own. -/
def mfreadHeader (first : Bool) (fhandle readLen total size : Nat) : CStr :=
  cstr (if first then "\r\n+MFREAD: " else "+MFREAD: ") ++ number fhandle ++ cstr "," ++
    number readLen ++ cstr "," ++ number total ++ cstr "," ++ number size ++ cstr ","

/-- The loop of `at_MFREAD_req` with what has been sent so far -/
def mfreadLoop (fhandle readLen frag : Nat) : Nat → Bool → Nat → Field n → File UInt8 →
    List CStr → Option (List CStr × FsRet × File UInt8)
  | 0, _, _, _, _, _ => none
  | fuel + 1, first, readLength, data, fp, sent =>
    if readLength < readLen then do
      let size := readSize hex frag (readLen - readLength)
      let header := mfreadHeader first fhandle readLen (readLength + size) size
      let data ← putBytes data 0 (header ++ [0])
      match ← fill env hex data header.length size fp with
      | (.error ret, fp) => some (sent, ret, fp)
      | (.ok (data, stringLen), fp) => do
        let data ← putBytes data stringLen (cstr "\r\n")
        let text ← getBytes data 0 (stringLen + 2)
        mfreadLoop fhandle readLen frag fuel false (readLength + size) data fp (sent ++ [text])
    else some (sent, .ok, fp)

def mfgetHeader (fsize : Nat) : CStr := cstr "\r\n+MFGET: " ++ number fsize ++ cstr ","

/-- `cm_at_cmd_send_data_bypass`, at most 8192 bytes first -/
def sendPieces (data : Field n) (len : Nat) : Option (List CStr) :=
  if 8192 < len then do
    let front ← getBytes data 0 8192
    let behind ← getBytes data 8192 (len - 8192)
    some [front, behind]
  else do
    let text ← getBytes data 0 len
    some [text]

/-- `sprintf` of what only some of the chunks have -/
def putIf (c : Prop) [Decidable c] (data : Field n) (len : Nat) (part : CStr) :
    Option (Field n) :=
  if c then putBytes data len (part ++ [0]) else some data

/-- The loop of `at_MFGET_req` -/
def mfgetLoop (fsize frag : Nat) : Nat → Bool → Nat → Field n → File UInt8 → List CStr →
    Option (List CStr × FsRet)
  | 0, _, _, _, _, _ => none
  | fuel + 1, first, total, data, fp, sent =>
    if total < fsize then do
      let size := readSize hex frag (fsize - total)
      let header := if first then mfgetHeader fsize else []
      let data ← putIf first data 0 header
      match ← fill env hex data header.length size fp with
      | (.error ret, _) => some (sent, ret)
      | (.ok (data, len), fp) => do
        let last := if total + size = fsize then cstr "\r\n" else []
        let data ← putIf (total + size = fsize) data len last
        let pieces ← sendPieces data (len + last.length)
        mfgetLoop fsize frag fuel false (total + size) data fp (sent ++ pieces)
    else some (sent, .ok)

end Loops

/-- A file that `AT+MFOPEN` has opened -/
structure OpenFile where
  fMode : UInt32
  fp : File UInt8

/-- What a request has sent, a line of its own before that, its result code, and the file as
it leaves it, if it has come to one. -/
structure Sending where
  report : Option CStr
  sent : List CStr
  ret : FsRet
  fp : Option (File UInt8)

def Sending.only (ret : FsRet) : Sending := ⟨none, [], ret, none⟩

section Requests
variable (p : Parsers) (env : FragEnv) (cfg : FsCmccCfg)

/-- `at_MFREAD_req` from the length on -/
def mfreadFragments (fhandle readLen : UInt32) (fp : File UInt8) : Option Sending :=
  if readLen = 0 then some ⟨none, [], .failToRead, fp⟩
  else
    let hex := hexOutput cfg
    let frag := bufferLen hex (fragSize cfg) readLen.toNat
    match env.malloc (frag + 56) with
    | none => some ⟨none, [], .valueInvalid, fp⟩
    | some data => do
      let (sent, ret, fp) ← mfreadLoop env hex fhandle.toNat readLen.toNat frag
        (readLen.toNat + 1) true 0 data fp []
      some ⟨none, sent, ret, fp⟩

/-- `at_MFREAD_req`; the number of parameters is kept in a byte. -/
def atMfreadReq (find : UInt32 → Option OpenFile) (cmd : AtCmd) : Option Sending :=
  match cmd.cmdType with
  | .set =>
    let para := cmd.paraList
    let paramCnt := para.length % 256
    if paramCnt < 1 ∨ 2 < paramCnt then some (.only .paramInvalid)
    else
      match p.toUint32WithRange (para.getD 0 []) 0 65535 with
      | none => some (.only .paramInvalid)
      | some fhandle =>
        match find fhandle with
        | none => some (.only .valueInvalid)
        | some fileInfo =>
          -- `FS_CMCC_WRONLY` and `FS_CMCC_WR_APPEND`
          if fileInfo.fMode = 1 ∨ fileInfo.fMode = 2 then some (.only .valueInvalid)
          else
            let curPos := UInt32.ofNat (ftell fileInfo.fp)
            let (fsize, fp) := cmFileGetSizeByFilePoint fileInfo.fp
            if paramCnt = 1 then mfreadFragments env cfg fhandle (fsize - curPos) fp
            else
              match p.toUint32WithRange (para.getD 1 []) 0 65535 with
              | none => some ⟨none, [], .paramInvalid, fp⟩
              | some readLen =>
                mfreadFragments env cfg fhandle
                  (if fsize - curPos < readLen then fsize - curPos else readLen) fp
  | _ => some (.only .operationNotAllowed)

/-- `cm_file_get_real_path`, `fopen` and `cm_at_cmd_set_datamode` -/
structure OpenEnv where
  getRealPath : CStr → Option CStr
  fopen : CStr → Option (File UInt8)
  setDatamode : Bool

/-- `at_MFGET_req` from the buffer on -/
def mfgetFragments (fsize : UInt32) (fp : File UInt8) : Option Sending :=
  let hex := hexOutput cfg
  let buffLen := bufferLen hex (fragSize cfg) fsize.toNat
  match env.malloc (buffLen + 32) with
  | none => some (.only .valueInvalid)
  | some data => do
    let (sent, ret) ← mfgetLoop env hex fsize.toNat buffLen (fsize.toNat + 1) true 0 data fp []
    some ⟨none, sent, ret, none⟩

/-- `at_MFGET_req`; the file is closed in the end. -/
def atMfgetReq (openEnv : OpenEnv) (cmd : AtCmd) : Option Sending :=
  match cmd.cmdType with
  | .set =>
    if cmd.paraList.length ≠ 1 then some (.only .paramInvalid)
    else
      match p.toString (cmd.paraList.getD 0 []) fsFilenameMaxLen with
      | none => some (.only .paramInvalid)
      | some fName =>
        match openEnv.getRealPath fName with
        | none => some (.only .paramInvalid)
        | some realPath =>
          match openEnv.fopen realPath with
          | none => some (.only .failToOpen)
          | some fp =>
            let (fsize, fp) := cmFileGetSizeByFilePoint fp
            if fsize = 0 then some ⟨some (cstr "\r\n+MFGET: 0,\r\n"), [], .ok, none⟩
            else if !openEnv.setDatamode then some (.only .operationNotAllowed)
            else mfgetFragments env cfg fsize fp
  | _ => some (.only .operationNotAllowed)

end Requests

def hexValue (c : UInt8) : UInt8 :=
  if c ≤ 57 then c - 48 else if c ≤ 70 then c - 55 else c - 87

/-- Two digits make a byte. -/
def unhex : CStr → CStr
  | high :: low :: digits => (hexValue high * 16 + hexValue low) :: unhex digits
  | _ => []

/-- The bytes that a payload stands for -/
def decode (hex : Bool) (payload : CStr) : CStr := if hex then unhex payload else payload

def encodedLen (hex : Bool) (size : Nat) : Nat := if hex then size * 2 else size

/-- `n` bytes are turned into their `2n` hexadecimal digits. -/
def Hexadecimal (hex2str : CStr → Option CStr) : Prop :=
  ∀ bytes, ∃ digits, hex2str bytes = some digits ∧ digits.length = 2 * bytes.length ∧
    unhex digits = bytes

variable {env : FragEnv} {hex : Bool} {n len frag total left size : Nat} {data : Field n}
variable {fp : File UInt8} {front : CStr}

section Sizes

theorem bufferLen_bounds (hfrag : 2 ≤ frag) (htotal : 0 < total) :
    encodedLen hex 1 ≤ bufferLen hex frag total ∧ bufferLen hex frag total ≤ frag := by
  cases hex
  · simp only [bufferLen, encodedLen, Bool.false_eq_true, if_false]
    split_ifs <;> omega
  · simp only [bufferLen, encodedLen, if_true]
    split_ifs <;> omega

theorem readSize_bounds (hfrag : encodedLen hex 1 ≤ frag) (hleft : 0 < left) :
    0 < readSize hex frag left ∧ readSize hex frag left ≤ left ∧
      encodedLen hex (readSize hex frag left) ≤ frag := by
  cases hex
  · simp only [readSize, encodedLen, Bool.false_eq_true, if_false] at hfrag ⊢
    split_ifs <;> omega
  · simp only [readSize, encodedLen, if_true] at hfrag ⊢
    split_ifs <;> omega

theorem number_length {k d : Nat} (hk : k < 2 ^ 31) (hd : 0 < d) (h : k < 10 ^ d) :
    (number k).length ≤ d := by
  have hint : (Int32.ofNat k).toInt = k := Int32.toInt_ofNat_of_lt hk
  rw [number, decimal, length_cstr, hint]
  exact (Nat.length_repr_le_iff hd).mpr h

theorem mfreadHeader_length {first : Bool} {fhandle readLen : Nat} (hhandle : fhandle ≤ 65535)
    (hread : readLen < 2 ^ 31) (htotal : total ≤ readLen) (hsize : size ≤ readLen) :
    (mfreadHeader first fhandle readLen total size).length ≤ 50 := by
  have hnames : (cstr (if first then "\r\n+MFREAD: " else "+MFREAD: ")).length ≤ 11 := by
    cases first <;> decide
  have hcomma : (cstr ",").length = 1 := by decide
  have h1 := @number_length fhandle 5 (by omega) (by decide) (by omega)
  have h2 := @number_length readLen 10 hread (by decide) (by omega)
  have h3 := @number_length total 10 (by omega) (by decide) (by omega)
  have h4 := @number_length size 10 (by omega) (by decide) (by omega)
  simp only [mfreadHeader, List.length_append]
  omega

theorem mfgetHeader_length {fsize : Nat} (hsize : fsize < 2 ^ 31) :
    (mfgetHeader fsize).length ≤ 21 := by
  have hname : (cstr "\r\n+MFGET: ").length = 10 := by decide
  have hcomma : (cstr ",").length = 1 := by decide
  have hnumber := @number_length fsize 10 hsize (by decide) (by omega)
  simp only [mfgetHeader, List.length_append]
  omega

end Sizes

theorem fread_one (hbad : fp.bad = none) (hpos : 0 < size) (hsize : size ≤ fp.rest.length) :
    fread size 1 fp = (1, fp.rest.take size, fp.advance size) := by
  have hreadable : fp.readable = fp.rest := by
    rw [File.readable, hbad]
  have htake : (fp.rest.take size).length = size := List.length_take_of_le hsize
  rw [fread, File.read, Nat.mul_one, hreadable]
  simp only [htake, Nat.div_self hpos]

/-- A fragment is put behind what the buffer starts with. -/
theorem fill_starts (hhex : Hexadecimal env.hex2str) (hbad : fp.bad = none) (hpos : 0 < size)
    (hsize : size ≤ fp.rest.length) (hstarts : Starts data front)
    (hroom : front.length + encodedLen hex size ≤ n) :
    ∃ payload data', fill env hex data front.length size fp =
        some (.ok (data', (front ++ payload).length), fp.advance size) ∧
      Starts data' (front ++ payload) ∧ decode hex payload = fp.rest.take size ∧
      payload.length = encodedLen hex size := by
  have htake : (fp.rest.take size).length = size := List.length_take_of_le hsize
  have hplain : size ≤ encodedLen hex size := by
    cases hex
    · exact le_rfl
    · exact Nat.le_mul_of_pos_right size (by decide)
  obtain ⟨data₁, hput, hdata₁⟩ := @Starts.putBytes n data front (fp.rest.take size) hstarts
    (by omega)
  have hread : getBytes data₁ front.length size = some (fp.rest.take size) := by
    have hget := hdata₁.getBytes
    rwa [htake] at hget
  cases hex with
  | false =>
    refine ⟨fp.rest.take size, data₁, ?_, hdata₁, rfl, htake⟩
    simp only [fill, fread_one hbad hpos hsize, hput, Option.bind_eq_bind, Option.bind_some,
      ne_eq, not_true_eq_false, if_false, Bool.false_eq_true, List.length_append, htake]
  | true =>
    obtain ⟨digits, hdigits, hlength, hvalue⟩ := hhex (fp.rest.take size)
    have hdouble : digits.length = size * 2 := by omega
    have hfit : front.length + digits.length ≤ n := by
      rw [hdouble]
      exact hroom
    obtain ⟨data₂, hput₂, hdata₂⟩ := hdata₁.append.putBytes hfit
    refine ⟨digits, data₂, ?_, hdata₂, hvalue, hdouble⟩
    simp only [fill, fread_one hbad hpos hsize, hput, Option.bind_eq_bind, Option.bind_some,
      ne_eq, not_true_eq_false, if_false, if_true, hread, hdigits, hput₂, List.length_append,
      hdouble]

/-- The payloads stand for the bytes, none is empty, and none is longer than a fragment. -/
structure Delivers (hex : Bool) (limit : Nat) (bytes : CStr) (payloads : List CStr) : Prop where
  whole : (payloads.map (decode hex)).flatten = bytes
  nonempty : ∀ payload ∈ payloads, decode hex payload ≠ []
  limit : ∀ payload ∈ payloads, payload.length ≤ limit

theorem Delivers.nil : Delivers hex frag [] [] := ⟨rfl, by simp, by simp⟩

/-- A fragment of `size` bytes and what is sent of the bytes behind them -/
theorem Delivers.cons {payload : CStr} {payloads : List CStr} (hpos : 0 < size)
    (hsize : size ≤ left) (hrest : left ≤ fp.rest.length)
    (hvalue : decode hex payload = fp.rest.take size) (hlimit : payload.length ≤ frag)
    (h : Delivers hex frag ((fp.advance size).rest.take (left - size)) payloads) :
    Delivers hex frag (fp.rest.take left) (payload :: payloads) where
  whole := by
    have hfirst : fp.rest.take size = (fp.rest.take left).take size := by
      rw [List.take_take, Nat.min_eq_left hsize]
    have hbehind : (fp.advance size).rest.take (left - size) = (fp.rest.take left).drop size := by
      rw [advance_rest, List.drop_take]
    rw [List.map_cons, List.flatten_cons, hvalue, h.whole, hfirst, hbehind,
      List.take_append_drop]
  nonempty := by
    refine List.forall_mem_cons.mpr ⟨fun hempty => ?_, h.nonempty⟩
    have hlength := congrArg List.length (hvalue.symm.trans hempty)
    rw [List.length_take_of_le (hsize.trans hrest), List.length_nil] at hlength
    omega
  limit := List.forall_mem_cons.mpr ⟨hlimit, h.limit⟩

/-- What `AT+MFREAD` sends: every line says how many bytes there are up to its end. -/
def mfreadLines (hex : Bool) (fhandle readLen : Nat) : Bool → Nat → List CStr → List CStr
  | _, _, [] => []
  | first, total, payload :: payloads =>
    let size := (decode hex payload).length
    (mfreadHeader first fhandle readLen (total + size) size ++ payload ++ cstr "\r\n") ::
      mfreadLines hex fhandle readLen false (total + size) payloads

/-- Every line reports the sum of the lengths up to its own. -/
theorem mfreadLines_getElem? (fhandle readLen : Nat) (first : Bool) (payloads : List CStr)
    (i : Nat) : (mfreadLines hex fhandle readLen first total payloads)[i]? =
      payloads[i]?.map fun payload =>
        mfreadHeader (first && i == 0) fhandle readLen
          (total + ((payloads.take (i + 1)).map (decode hex)).flatten.length)
          (decode hex payload).length ++ payload ++ cstr "\r\n" := by
  induction payloads generalizing first total i with
  | nil => rfl
  | cons payload payloads ih =>
    cases i with
    | zero => simp [mfreadLines]
    | succ i =>
      rw [mfreadLines, List.getElem?_cons_succ, ih, List.getElem?_cons_succ]
      simp [Nat.add_assoc]

theorem mfreadLoop_delivers (hhex : Hexadecimal env.hex2str) (hfrag : encodedLen hex 1 ≤ frag)
    {fhandle readLen readLength fuel : Nat} {first : Bool} {data : CString.Field (frag + 56)}
    {sent : List CStr} (hhandle : fhandle ≤ 65535) (hread : readLen < 2 ^ 31)
    (hle : readLength ≤ readLen) (hbad : fp.bad = none)
    (hrest : readLen - readLength ≤ fp.rest.length) (hfuel : readLen - readLength < fuel) :
    ∃ payloads,
      mfreadLoop env hex fhandle readLen frag fuel first readLength data fp sent =
        some (sent ++ mfreadLines hex fhandle readLen first readLength payloads, .ok,
          fp.advance (readLen - readLength)) ∧
      Delivers hex frag (fp.rest.take (readLen - readLength)) payloads := by
  induction fuel generalizing readLength first data fp sent with
  | zero => omega
  | succ fuel ih =>
    by_cases hmore : readLength < readLen
    · obtain ⟨hpos, hsize, hlimit⟩ := readSize_bounds hfrag (Nat.sub_pos_of_lt hmore)
      generalize hsizeEq : readSize hex frag (readLen - readLength) = size at hpos hsize hlimit
      have hheader : (mfreadHeader first fhandle readLen (readLength + size) size).length ≤ 50 :=
        mfreadHeader_length hhandle hread (by omega) (by omega)
      generalize hheaderEq : mfreadHeader first fhandle readLen (readLength + size) size = header
        at hheader
      -- the header with its terminator
      obtain ⟨data₁, hput₁, hdata₁⟩ := @Starts.putBytes _ data [] (header ++ [0])
        (List.nil_prefix) (by simp; omega)
      rw [List.nil_append] at hdata₁
      change putBytes data 0 (header ++ [0]) = some data₁ at hput₁
      obtain ⟨payload, data₂, hfill, hdata₂, hvalue, hlength⟩ :=
        @fill_starts env hex _ size data₁ fp header hhex hbad hpos (hsize.trans hrest)
          hdata₁.append (by omega)
      -- the end of the line
      have hend : (cstr "\r\n").length = 2 := by decide
      obtain ⟨data₃, hput₃, hdata₃⟩ := @Starts.putBytes _ data₂ (header ++ payload) (cstr "\r\n")
        hdata₂ (by rw [List.length_append]; omega)
      have hget : getBytes data₃ 0 ((header ++ payload).length + 2) =
          some (header ++ payload ++ cstr "\r\n") := by
        have htext := @Starts.getBytes _ data₃ [] (header ++ payload ++ cstr "\r\n") hdata₃
        rwa [List.length_append, hend] at htext
      have hleft : readLen - (readLength + size) = readLen - readLength - size :=
        Nat.sub_add_eq _ _ _
      obtain ⟨payloads, hloop, hdelivers⟩ := @ih (fp.advance size) (readLength + size)
        false data₃ (sent ++ [header ++ payload ++ cstr "\r\n"]) (by omega) hbad
        (by rw [length_advance_rest]; omega) (by omega)
      rw [hleft] at hdelivers
      have hvalueLen : (decode hex payload).length = size := by
        rw [hvalue, List.length_take_of_le (hsize.trans hrest)]
      refine ⟨payload :: payloads, ?_, ?_⟩
      · rw [mfreadLoop, if_pos hmore]
        simp only [hsizeEq, hheaderEq, hput₁, hfill, hput₃, hget, hloop, Option.bind_eq_bind,
          Option.bind_some, mfreadLines, hvalueLen, advance_advance, hleft,
          Nat.add_sub_cancel' hsize]
        rw [List.append_assoc, List.singleton_append]
      · exact hdelivers.cons hpos hsize hrest hvalue (hlength.trans_le hlimit)
    · have hall : readLen - readLength = 0 := by omega
      refine ⟨[], ?_, ?_⟩
      · rw [mfreadLoop, if_neg hmore, hall, mfreadLines, List.append_nil]
        rfl
      · rw [hall, List.take_zero]
        exact .nil

theorem Delivers.eq_nil_iff {bytes : CStr} {payloads : List CStr}
    (h : Delivers hex frag bytes payloads) : payloads = [] ↔ bytes = [] := by
  rw [← h.whole]
  constructor
  · rintro rfl
    rfl
  · intro hempty
    refine List.eq_nil_iff_forall_not_mem.mpr fun payload hmem => h.nonempty payload hmem ?_
    exact List.flatten_eq_nil_iff.mp hempty _ (List.mem_map_of_mem hmem)

/-- What the buffer of `AT+MFGET` holds in turn: the header is in front of the first payload
and the end of the line behind the last one. -/
def mfgetChunks (fsize : Nat) : Bool → List CStr → List CStr
  | _, [] => []
  | first, payload :: payloads =>
    ((if first then mfgetHeader fsize else []) ++ payload ++
      (if payloads.isEmpty then cstr "\r\n" else [])) :: mfgetChunks fsize false payloads

/-- The parts in which a chunk is sent -/
def pieces (chunk : CStr) : List CStr :=
  if 8192 < chunk.length then [chunk.take 8192, chunk.drop 8192] else [chunk]

theorem pieces_flatten (chunk : CStr) : (pieces chunk).flatten = chunk := by
  rw [pieces]
  split_ifs
  · simp
  · simp

theorem sendPieces_eq {chunk : CStr} (h : Starts data chunk) :
    sendPieces data chunk.length = some (pieces chunk) := by
  rw [sendPieces, pieces]
  by_cases hlong : 8192 < chunk.length
  · have hlen : (chunk.take 8192).length = 8192 := List.length_take_of_le hlong.le
    have hsplit : Starts data (chunk.take 8192 ++ chunk.drop 8192) := by
      rwa [List.take_append_drop]
    have hfront : getBytes data 0 8192 = some (chunk.take 8192) := by
      have hget := @Starts.getBytes _ data [] _ hsplit.append
      rwa [hlen] at hget
    have hbehind := hsplit.getBytes
    rw [hlen, List.length_drop] at hbehind
    simp only [if_pos hlong, hfront, hbehind, Option.bind_eq_bind, Option.bind_some]
  · have hget : getBytes data 0 chunk.length = some chunk := @Starts.getBytes _ data [] chunk h
    simp only [if_neg hlong, hget, Option.bind_eq_bind, Option.bind_some]

theorem putIf_starts {c : Prop} [Decidable c] {part : CStr} (hnone : ¬ c → part = [])
    (h : Starts data front) (hroom : front.length + (part.length + 1) ≤ n) :
    ∃ data', putIf c data front.length part = some data' ∧ Starts data' (front ++ part) := by
  by_cases hc : c
  · obtain ⟨data', hput, hdata⟩ := h.putBytes (by rwa [List.length_append] : front.length +
      (part ++ [0]).length ≤ n)
    rw [← List.append_assoc] at hdata
    exact ⟨data', (if_pos hc).trans hput, hdata.append⟩
  · refine ⟨data, if_neg hc, ?_⟩
    rwa [hnone hc, List.append_nil]

theorem mfgetLoop_delivers (hhex : Hexadecimal env.hex2str) (hfrag : encodedLen hex 1 ≤ frag)
    {fsize fuel : Nat} {first : Bool} {data : CString.Field (frag + 32)} {sent : List CStr}
    (hread : fsize < 2 ^ 31) (hle : total ≤ fsize) (hbad : fp.bad = none)
    (hrest : fsize - total ≤ fp.rest.length) (hfuel : fsize - total < fuel) :
    ∃ payloads,
      mfgetLoop env hex fsize frag fuel first total data fp sent =
        some (sent ++ (mfgetChunks fsize first payloads).flatMap pieces, .ok) ∧
      Delivers hex frag (fp.rest.take (fsize - total)) payloads := by
  induction fuel generalizing total first data fp sent with
  | zero => omega
  | succ fuel ih =>
    by_cases hmore : total < fsize
    · obtain ⟨hpos, hsize, hlimit⟩ := readSize_bounds hfrag (Nat.sub_pos_of_lt hmore)
      generalize hsizeEq : readSize hex frag (fsize - total) = size at hpos hsize hlimit
      have hheader : (if first then mfgetHeader fsize else []).length ≤ 21 := by
        cases first
        · exact Nat.zero_le _
        · exact mfgetHeader_length hread
      have hnone : ¬ first = true → (if first then mfgetHeader fsize else []) = [] :=
        fun h => if_neg h
      generalize hheaderEq : (if first then mfgetHeader fsize else []) = header at hheader hnone
      obtain ⟨data₁, hput₁, hdata₁⟩ := @putIf_starts _ data [] (first = true) _ header hnone
        List.nil_prefix (by rw [List.length_nil]; omega)
      change putIf first data 0 header = some data₁ at hput₁
      obtain ⟨payload, data₂, hfill, hdata₂, hvalue, hlength⟩ :=
        @fill_starts env hex _ size data₁ fp header hhex hbad hpos (hsize.trans hrest) hdata₁
          (by omega)
      -- the end of the line behind the last payload
      have hend : (if total + size = fsize then cstr "\r\n" else []).length ≤ 2 := by
        split_ifs
        · exact le_rfl
        · exact Nat.zero_le _
      have hmiddle : ¬ total + size = fsize →
          (if total + size = fsize then cstr "\r\n" else []) = [] := fun h => if_neg h
      generalize hlastEq : (if total + size = fsize then cstr "\r\n" else []) = last
        at hend hmiddle
      obtain ⟨data₃, hput₃, hdata₃⟩ := @putIf_starts _ data₂ (header ++ payload) _ _ last hmiddle
        hdata₂ (by rw [List.length_append]; omega)
      have hpieces := sendPieces_eq hdata₃
      rw [List.length_append] at hpieces
      have htail : fsize - (total + size) ≤ (fp.advance size).rest.length := by
        rw [length_advance_rest]
        omega
      obtain ⟨payloads, hloop, hdelivers⟩ := @ih (total + size) (fp.advance size) false data₃
        (sent ++ pieces (header ++ payload ++ last)) (by omega) hbad htail (by omega)
      have hlast : (if payloads.isEmpty then cstr "\r\n" else []) = last := by
        have hiff : payloads.isEmpty = true ↔ total + size = fsize := by
          rw [List.isEmpty_iff, hdelivers.eq_nil_iff, ← List.length_eq_zero_iff,
            List.length_take_of_le htail]
          omega
        simp only [hiff, hlastEq]
      rw [Nat.sub_add_eq] at hdelivers
      refine ⟨payload :: payloads, ?_, ?_⟩
      · rw [mfgetLoop, if_pos hmore]
        simp only [hsizeEq, hheaderEq, hlastEq, hput₁, hfill, hput₃, hpieces, hloop,
          Option.bind_eq_bind, Option.bind_some, mfgetChunks, hlast]
        rw [List.append_assoc, List.flatMap_cons]
      · exact hdelivers.cons hpos hsize hrest hvalue (hlength.trans_le hlimit)
    · have hall : fsize - total = 0 := by omega
      refine ⟨[], ?_, ?_⟩
      · rw [mfgetLoop, if_neg hmore, mfgetChunks, List.flatMap_nil, List.append_nil]
      · rw [hall, List.take_zero]
        exact .nil

variable {p : Parsers} {cfg : FsCmccCfg} {Denotes : CStr → UInt32 → Prop}

/-- The buffer can be allocated and bytes are turned into their digits. -/
structure Working (env : FragEnv) : Prop where
  malloc : ∀ n, ∃ data, env.malloc n = some data
  hex2str : Hexadecimal env.hex2str

/-- The fragment size that is set, if any, has room for a byte in either format. -/
def FragSet (cfg : FsCmccCfg) : Prop := cfg.fragsize = 0 ∨ 2 ≤ cfg.fragsize

theorem two_le_fragSize (h : FragSet cfg) : 2 ≤ fragSize cfg := by
  rw [fragSize]
  split_ifs with hset
  · rcases h with hzero | htwo
    · rw [hzero] at hset
      exact absurd hset (by decide)
    · exact UInt16.le_iff_toNat_le.mp htwo
  · decide

theorem Delivers.weaken {bytes : CStr} {payloads : List CStr} {limit : Nat}
    (h : Delivers hex frag bytes payloads) (hle : frag ≤ limit) :
    Delivers hex limit bytes payloads :=
  ⟨h.whole, h.nonempty, fun payload hmem => (h.limit payload hmem).trans hle⟩

theorem mfreadFragments_delivers (henv : Working env) (hfrag : FragSet cfg)
    {fhandle readLen : UInt32} (hhandle : fhandle ≤ 65535) (hpos : readLen ≠ 0)
    (hread : readLen.toNat < 2 ^ 31) (hbad : fp.bad = none)
    (hrest : readLen.toNat ≤ fp.rest.length) :
    ∃ payloads, mfreadFragments env cfg fhandle readLen fp =
        some ⟨none, mfreadLines (hexOutput cfg) fhandle.toNat readLen.toNat true 0 payloads, .ok,
          fp.advance readLen.toNat⟩ ∧
      Delivers (hexOutput cfg) (fragSize cfg) (fp.rest.take readLen.toNat) payloads := by
  have hnat : 0 < readLen.toNat := by
    refine Nat.pos_of_ne_zero fun hzero => hpos ?_
    exact UInt32.toNat_inj.mp hzero
  obtain ⟨hroom, hle⟩ := @bufferLen_bounds (hexOutput cfg) _ _ (two_le_fragSize hfrag) hnat
  obtain ⟨data, hdata⟩ := henv.malloc (bufferLen (hexOutput cfg) (fragSize cfg) readLen.toNat + 56)
  obtain ⟨payloads, hloop, hdelivers⟩ := @mfreadLoop_delivers env _ _ fp henv.hex2str hroom
    fhandle.toNat readLen.toNat 0 (readLen.toNat + 1) true data []
    (UInt32.le_iff_toNat_le.mp hhandle) hread (Nat.zero_le _) hbad hrest (Nat.lt_succ_self _)
  rw [Nat.sub_zero] at hloop hdelivers
  refine ⟨payloads, ?_, hdelivers.weaken hle⟩
  simp only [mfreadFragments, if_neg hpos, hdata, hloop, Option.bind_eq_bind, Option.bind_some,
    List.nil_append]

/-- The parameters are a handle and, perhaps, a length. -/
inductive Asks (Denotes : CStr → UInt32 → Prop) : List CStr → UInt32 → Option UInt32 → Prop
  | whole {h : CStr} {handle : UInt32} : Denotes h handle → Asks Denotes [h] handle none
  | length {h l : CStr} {handle len : UInt32} : Denotes h handle → Denotes l len →
      Asks Denotes [h, l] handle (some len)

/-- The request is about an open file that can be read and has bytes behind its position. -/
structure Reads (Denotes : CStr → UInt32 → Prop) (find : UInt32 → Option OpenFile)
    (para : List CStr) (handle : UInt32) (requested : Option UInt32) (info : OpenFile) :
    Prop where
  asks : Asks Denotes para handle requested
  handle_le : handle ≤ 65535
  opened : find handle = some info
  mode : ¬ (info.fMode = 1 ∨ info.fMode = 2)
  bad : info.fp.bad = none
  size : info.fp.size < 2 ^ 31
  pos : info.fp.pos < info.fp.size

/-- How many bytes are requested of those that are left -/
def requestedLen (requested : Option UInt32) (left : Nat) : Nat :=
  match requested with
  | none => left
  | some len => min len.toNat left

theorem Reads.toNat_left {find : UInt32 → Option OpenFile} {para : List CStr} {handle : UInt32}
    {requested : Option UInt32} {info : OpenFile}
    (h : Reads Denotes find para handle requested info) :
    (UInt32.ofNat info.fp.size - UInt32.ofNat info.fp.pos).toNat = info.fp.rest.length := by
  have hsize : (UInt32.ofNat info.fp.size).toNat = info.fp.size :=
    UInt32.toNat_ofNat_of_lt' (h.size.trans (by decide))
  have hpos : (UInt32.ofNat info.fp.pos).toNat = info.fp.pos :=
    UInt32.toNat_ofNat_of_lt' (h.pos.trans (h.size.trans (by decide)))
  have hle : UInt32.ofNat info.fp.pos ≤ UInt32.ofNat info.fp.size := by
    rw [UInt32.le_iff_toNat_le, hsize, hpos]
    exact h.pos.le
  rw [UInt32.toNat_sub_of_le _ _ hle, hsize, hpos, File.rest, List.length_drop]
  rfl

theorem Reads.rest_pos {find : UInt32 → Option OpenFile} {para : List CStr} {handle : UInt32}
    {requested : Option UInt32} {info : OpenFile}
    (h : Reads Denotes find para handle requested info) :
    0 < info.fp.rest.length ∧ info.fp.rest.length < 2 ^ 31 := by
  have hpos := h.pos
  have hsize := h.size
  rw [File.rest, List.length_drop]
  rw [File.size] at hpos hsize
  omega

/-- The length that the loop is given -/
theorem atMfreadReq_eq (hp : p.Exact Denotes) {find : UInt32 → Option OpenFile}
    {para : List CStr} {handle : UInt32} {requested : Option UInt32} {info : OpenFile}
    (h : Reads Denotes find para handle requested info)
    (hlen : ∀ len, requested = some len → len ≤ 65535) :
    ∃ readLen : UInt32, readLen.toNat = requestedLen requested info.fp.rest.length ∧
      atMfreadReq p env cfg find ⟨.set, para⟩ =
        mfreadFragments env cfg handle readLen info.fp := by
  have hleft := h.toNat_left
  have hgetsize : cmFileGetSizeByFilePoint info.fp = (UInt32.ofNat info.fp.size, info.fp) :=
    cmFileGetSizeByFilePoint_eq (h.size.trans (by decide)) h.pos.le
  have hhandle : ∀ {text}, Denotes text handle →
      p.toUint32WithRange text 0 65535 = some handle := fun hd =>
    hp.range.mpr ⟨hd, UInt32.zero_le, h.handle_le⟩
  generalize hlefteq : UInt32.ofNat info.fp.size - UInt32.ofNat info.fp.pos = left at hleft
  cases h.asks with
  | whole hd =>
    refine ⟨left, hleft, ?_⟩
    simp [atMfreadReq, hhandle hd, h.opened, h.mode, hgetsize, ftell, hlefteq]
  | @length _ _ _ len hd hl =>
    have hrange : p.toUint32WithRange _ 0 65535 = some len :=
      hp.range.mpr ⟨hl, UInt32.zero_le, hlen len rfl⟩
    refine ⟨if left < len then left else len, ?_, ?_⟩
    · rw [requestedLen, ← hleft]
      split_ifs with hless
      · exact (Nat.min_eq_right (UInt32.lt_iff_toNat_lt.mp hless).le).symm
      · rw [UInt32.lt_iff_toNat_lt] at hless
        exact (Nat.min_eq_left (by omega)).symm
    · simp [atMfreadReq, hhandle hd, hrange, h.opened, h.mode, hgetsize, ftell, hlefteq]

/-- `AT+MFREAD` with a length that its parser takes -/
theorem atMfreadReq_delivers (hp : p.Exact Denotes) (henv : Working env) (hfrag : FragSet cfg)
    {find : UInt32 → Option OpenFile} {para : List CStr} {handle : UInt32}
    {requested : Option UInt32} {info : OpenFile}
    (h : Reads Denotes find para handle requested info)
    (hlen : ∀ len, requested = some len → 1 ≤ len ∧ len ≤ 65535) :
    ∃ payloads, atMfreadReq p env cfg find ⟨.set, para⟩ =
        some ⟨none, mfreadLines (hexOutput cfg) handle.toNat
          (requestedLen requested info.fp.rest.length) true 0 payloads, .ok,
          info.fp.advance (requestedLen requested info.fp.rest.length)⟩ ∧
      Delivers (hexOutput cfg) (fragSize cfg)
        (info.fp.rest.take (requestedLen requested info.fp.rest.length)) payloads := by
  obtain ⟨readLen, hnat, hreq⟩ := @atMfreadReq_eq env p cfg Denotes hp find para handle requested
    info h fun len heq => (hlen len heq).2
  obtain ⟨hpos, hbig⟩ := h.rest_pos
  have hle : requestedLen requested info.fp.rest.length ≤ info.fp.rest.length := by
    cases requested with
    | none => exact le_rfl
    | some len => exact Nat.min_le_right _ _
  have hsome : 0 < requestedLen requested info.fp.rest.length := by
    cases requested with
    | none => exact hpos
    | some len => exact lt_min (UInt32.le_iff_toNat_le.mp (hlen len rfl).1) hpos
  rw [hreq, ← hnat]
  rw [← hnat] at hle hsome
  refine mfreadFragments_delivers henv hfrag h.handle_le ?_ (by omega) h.bad hle
  rintro rfl
  exact absurd hsome (by decide)

/-- A text denotes one number. -/
theorem denotes_inj (hp : p.Exact Denotes) {text : CStr} {v w : UInt32} (hv : Denotes text v)
    (hw : Denotes text w) : v = w := by
  have hparse : ∀ {u}, Denotes text u → p.toUint32WithRange text 0 0xffffffff = some u := by
    intro u hu
    have hle : u.toNat ≤ 4294967295 := Nat.le_of_lt_succ u.toNat_lt
    exact hp.range.mpr ⟨hu, UInt32.zero_le, UInt32.le_iff_toNat_le.mpr hle⟩
  exact Option.some.inj ((hparse hv).symm.trans (hparse hw))

/-- A length that does not fit into 16 bits is refused. -/
theorem atMfreadReq_refuses (hp : p.Exact Denotes) {find : UInt32 → Option OpenFile}
    {para : List CStr} {handle len : UInt32} {info : OpenFile}
    (h : Reads Denotes find para handle (some len) info) (hlen : 65535 < len) :
    atMfreadReq p env cfg find ⟨.set, para⟩ =
      some ⟨none, [], .paramInvalid, info.fp⟩ := by
  have hgetsize : cmFileGetSizeByFilePoint info.fp = (UInt32.ofNat info.fp.size, info.fp) :=
    cmFileGetSizeByFilePoint_eq (h.size.trans (by decide)) h.pos.le
  cases h.asks with
  | @length t l _ _ hd hl =>
    have hhandle : p.toUint32WithRange t 0 65535 = some handle :=
      hp.range.mpr ⟨hd, UInt32.zero_le, h.handle_le⟩
    have hrange : p.toUint32WithRange l 0 65535 = none := by
      cases hparse : p.toUint32WithRange l 0 65535 with
      | none => rfl
      | some v =>
        obtain ⟨hv, -, hle⟩ := hp.range.mp hparse
        rw [denotes_inj hp hv hl] at hle
        exact absurd (UInt32.lt_of_lt_of_le hlen hle) (UInt32.lt_irrefl _)
    simp [atMfreadReq, hhandle, hrange, h.opened, h.mode, hgetsize]

/-- The name is that of a file that can be opened and sent. -/
structure Gets (p : Parsers) (openEnv : OpenEnv) (name : CStr) (fp : File UInt8) : Prop where
  parsed : ∃ fName realPath, p.toString name fsFilenameMaxLen = some fName ∧
    openEnv.getRealPath fName = some realPath ∧ openEnv.fopen realPath = some fp
  datamode : openEnv.setDatamode = true
  start : fp.pos = 0
  bad : fp.bad = none
  size : fp.size < 2 ^ 31

theorem mfgetFragments_delivers (henv : Working env) (hfrag : FragSet cfg) {fsize : UInt32}
    (hpos : 0 < fsize.toNat) (hread : fsize.toNat < 2 ^ 31) (hbad : fp.bad = none)
    (hrest : fp.rest.length = fsize.toNat) :
    ∃ payloads, mfgetFragments env cfg fsize fp =
        some ⟨none, (mfgetChunks fsize.toNat true payloads).flatMap pieces, .ok, none⟩ ∧
      Delivers (hexOutput cfg) (fragSize cfg) fp.rest payloads := by
  obtain ⟨hroom, hle⟩ := @bufferLen_bounds (hexOutput cfg) _ _ (two_le_fragSize hfrag) hpos
  obtain ⟨data, hdata⟩ := henv.malloc (bufferLen (hexOutput cfg) (fragSize cfg) fsize.toNat + 32)
  obtain ⟨payloads, hloop, hdelivers⟩ := @mfgetLoop_delivers env _ _ 0 fp henv.hex2str hroom
    fsize.toNat (fsize.toNat + 1) true data [] hread (Nat.zero_le _) hbad hrest.ge
    (Nat.lt_succ_self _)
  rw [Nat.sub_zero, ← hrest, List.take_length] at hdelivers
  rw [hrest] at hdelivers
  refine ⟨payloads, ?_, hdelivers.weaken hle⟩
  simp only [mfgetFragments, hdata, hloop, Option.bind_eq_bind, Option.bind_some, List.nil_append]

/-- `AT+MFGET`; the header of an empty file is sent on its own. -/
theorem atMfgetReq_delivers (henv : Working env) (hfrag : FragSet cfg) {openEnv : OpenEnv}
    {name : CStr} (h : Gets p openEnv name fp) :
    ∃ payloads, atMfgetReq p env cfg openEnv ⟨.set, [name]⟩ =
        some ⟨if fp.content = [] then some (cstr "\r\n+MFGET: 0,\r\n") else none,
          (mfgetChunks fp.size true payloads).flatMap pieces, .ok, none⟩ ∧
      Delivers (hexOutput cfg) (fragSize cfg) fp.content payloads := by
  obtain ⟨fName, realPath, hname, hpath, hopen⟩ := h.parsed
  have hgetsize : cmFileGetSizeByFilePoint fp = (UInt32.ofNat fp.size, fp) :=
    cmFileGetSizeByFilePoint_eq (h.size.trans (by decide)) (h.start.trans_le (Nat.zero_le _))
  have hnat : (UInt32.ofNat fp.size).toNat = fp.size :=
    UInt32.toNat_ofNat_of_lt' (h.size.trans (by decide))
  have hrest : fp.rest = fp.content := by
    rw [File.rest, h.start, List.drop_zero]
  by_cases hempty : fp.content = []
  · have hzero : fp.size = 0 := by rw [File.size, hempty, List.length_nil]
    refine ⟨[], ?_, hempty ▸ .nil⟩
    simp [atMfgetReq, hname, hpath, hopen, hgetsize, hzero, hempty, mfgetChunks]
  · have hpos : 0 < fp.size := List.length_pos_iff.mpr hempty
    have hsome : ¬ UInt32.ofNat fp.size = 0 := by
      intro hzero
      rw [hzero] at hnat
      exact absurd hnat.symm hpos.ne'
    have hlength : fp.rest.length = (UInt32.ofNat fp.size).toNat := by
      rw [hnat, hrest, File.size]
    obtain ⟨payloads, hsent, hdelivers⟩ := @mfgetFragments_delivers env fp cfg henv hfrag
      (UInt32.ofNat fp.size) (by rwa [hnat]) (by rw [hnat]; exact h.size) h.bad hlength
    rw [hnat] at hsent
    rw [hrest] at hdelivers
    refine ⟨payloads, ?_, hdelivers⟩
    simp [atMfgetReq, hname, hpath, hopen, hgetsize, hsome, h.datamode, hsent, hempty]

/-- A file is sent whole by `AT+MFGET`, and by `AT+MFREAD` the bytes that are requested of
what is behind its position, as long as the length fits into 16 bits; a longer one is refused
and nothing is sent. The loops end and no write leaves the buffer. -/
theorem fragments_deliver (hp : p.Exact Denotes) (henv : Working env) (hfrag : FragSet cfg) :
    (∀ {find : UInt32 → Option OpenFile} {para : List CStr} {handle : UInt32}
        {requested : Option UInt32} {info : OpenFile},
      Reads Denotes find para handle requested info → (∀ len, requested = some len → 1 ≤ len) →
      ((∀ len, requested = some len → len ≤ 65535) →
        ∃ payloads, atMfreadReq p env cfg find ⟨.set, para⟩ =
            some ⟨none, mfreadLines (hexOutput cfg) handle.toNat
              (requestedLen requested info.fp.rest.length) true 0 payloads, .ok,
              info.fp.advance (requestedLen requested info.fp.rest.length)⟩ ∧
          Delivers (hexOutput cfg) (fragSize cfg)
            (info.fp.rest.take (requestedLen requested info.fp.rest.length)) payloads) ∧
      ((∃ len, requested = some len ∧ 65535 < len) →
        atMfreadReq p env cfg find ⟨.set, para⟩ =
          some ⟨none, [], .paramInvalid, info.fp⟩)) ∧
    ∀ {openEnv : OpenEnv} {name : CStr} {fp : File UInt8}, Gets p openEnv name fp →
      ∃ payloads, atMfgetReq p env cfg openEnv ⟨.set, [name]⟩ =
          some ⟨if fp.content = [] then some (cstr "\r\n+MFGET: 0,\r\n") else none,
            (mfgetChunks fp.size true payloads).flatMap pieces, .ok, none⟩ ∧
        Delivers (hexOutput cfg) (fragSize cfg) fp.content payloads := by
  refine ⟨fun h hlow => ⟨fun hhigh => ?_, ?_⟩, fun h => atMfgetReq_delivers henv hfrag h⟩
  · exact atMfreadReq_delivers hp henv hfrag h fun len hlen => ⟨hlow len hlen, hhigh len hlen⟩
  · rintro ⟨len, rfl, hlong⟩
    exact atMfreadReq_refuses hp h hlong

def plainEnv : FragEnv where
  malloc n := some (Field.zero n)
  hex2str bytes := some (LbsTypes.dataToHex bytes)

theorem hexValue_hexDigit (b : UInt8) : hexValue (LbsTypes.hexDigit (b >>> 4)) * 16 +
    hexValue (LbsTypes.hexDigit (b &&& 15)) = b := by
  have hall : ∀ i : Fin 256, hexValue (LbsTypes.hexDigit (UInt8.ofNat i >>> 4)) * 16 +
      hexValue (LbsTypes.hexDigit (UInt8.ofNat i &&& 15)) = UInt8.ofNat i := by decide +kernel
  have hb := hall ⟨b.toNat, b.toNat_lt⟩
  rwa [UInt8.ofNat_toNat] at hb

theorem plainEnv_working : Working plainEnv where
  malloc n := ⟨_, rfl⟩
  hex2str bytes := by
    refine ⟨_, rfl, ?_⟩
    induction bytes with
    | nil => exact ⟨rfl, rfl⟩
    | cons b bytes ih =>
      refine ⟨?_, ?_⟩
      · rw [LbsTypes.dataToHex, List.length_cons, List.length_cons, ih.1, List.length_cons]
        omega
      · rw [LbsTypes.dataToHex, unhex, hexValue_hexDigit, ih.2]

/-- The second of five bytes is read next. -/
def hello : OpenFile := ⟨0, ⟨cstr "hello", 1, none⟩⟩

def findHello (handle : UInt32) : Option OpenFile := if handle = 1 then some hello else none

def openHello : OpenEnv := ⟨some, fun _ => some ⟨cstr "hello", 0, none⟩, true⟩

/-- Fragments of three characters hold one byte in hexadecimal digits. -/
def threeDigits : FsCmccCfg := ⟨10, 0, 1, 3, 200⟩

theorem hello_reads {para : List CStr} {requested : Option UInt32}
    (h : Asks Decimal para 1 requested) : Reads Decimal findHello para 1 requested hello :=
  ⟨h, by decide, rfl, by decide, rfl, by decide, by decide⟩

theorem fragments_deliver_hello :
    (∃ payloads, atMfreadReq plainParsers plainEnv threeDigits findHello
        ⟨.set, [cstr "1", cstr "3"]⟩ =
          some ⟨none, mfreadLines true 1 3 true 0 payloads, .ok, hello.fp.advance 3⟩ ∧
        Delivers true 3 (cstr "ell") payloads) ∧
    (∃ payloads, atMfgetReq plainParsers plainEnv threeDigits openHello
        ⟨.set, [cstr "\"hello\""]⟩ =
          some ⟨none, (mfgetChunks 5 true payloads).flatMap pieces, .ok, none⟩ ∧
        Delivers true 3 (cstr "hello") payloads) := by
  have hboth := @fragments_deliver plainEnv plainParsers threeDigits Decimal plainParsers_exact
    plainEnv_working (Or.inr (by decide))
  have hasks : Asks Decimal [cstr "1", cstr "3"] 1 (some 3) := by
    refine .length ?_ ?_ <;> exact ⟨by decide, by decide, by decide⟩
  have hgets : Gets plainParsers openHello (cstr "\"hello\"") ⟨cstr "hello", 0, none⟩ :=
    ⟨⟨cstr "hello", cstr "hello", by decide, rfl, rfl⟩, rfl, rfl, rfl, by decide⟩
  refine ⟨(hboth.1 (hello_reads hasks) ?_).1 ?_, hboth.2 hgets⟩
  · rintro _ ⟨⟩
    decide
  · rintro _ ⟨⟩
    decide

/-- 65536 bytes cannot be requested, although the four that are left would be few. -/
theorem long_request_is_refused :
    Reads Decimal findHello [cstr "1", cstr "65536"] 1 (some 65536) hello ∧
      hello.fp.rest.take (requestedLen (some 65536) hello.fp.rest.length) = cstr "ello" ∧
      atMfreadReq plainParsers plainEnv threeDigits findHello ⟨.set, [cstr "1", cstr "65536"]⟩ =
        some ⟨none, [], .paramInvalid, hello.fp⟩ ∧
      ∀ payloads, mfreadLines true 1 4 true 0 payloads = [] →
        ¬ Delivers true 3 (cstr "ello") payloads := by
  refine ⟨hello_reads ?_, by decide, rfl, ?_⟩
  · refine .length ?_ ?_ <;> exact ⟨by decide, by decide, by decide⟩
  · intro payloads hnone hdelivers
    cases payloads with
    | nil => exact absurd hdelivers.whole (by decide)
    | cons payload payloads => exact absurd hnone (List.cons_ne_nil _ _)

end FileFragments
