import LinuxBuild.BufferedFiles
import LinuxBuild.DataMode
import LinuxBuild.FileFragments
import LinuxBuild.OpenFileList

/-!
# The file commands

The requests work on the list of open files, on the files behind it, on the settings and on
the counters of the data mode. The parsers, the path names and the encodings are given from
outside, and so is what can go wrong around a request. In data mode the callback takes what
comes in, and no request is taken until the session has ended.
-/
namespace FileCommands
open CString CBuffer ByteStream BufferedFiles FileMd5 FileSeek FileAtConfig FileFragments DataMode
open HeapList OpenFileList

/-- The result codes of `AT_FS_CMCC_ERRNO_E` that the requests return -/
inductive FileRet where
  | fs (ret : FsRet)
  | fileNoexist
  | descriptorInvalid
  | failToDelete
  deriving DecidableEq

instance : Coe FsRet FileRet := ⟨.fs⟩

/-- The session of the data mode, with the parameter of its callback -/
inductive Session (A : Type) where
  | mfput (fp : OpenFileList.Stream)
  | mfwrite (fileInfo : A)

/-- `g_cmcc_openfile_list`, the files, `g_cmcc_cfg` and the data mode -/
structure FileWorld (A Name : Type) where
  mem : FileMem A
  files : Files Name UInt8
  cfg : FsCmccCfg
  counters : Counters
  session : Option (Session A)

/-- Nothing is open and `AT+MFCFG` has not been used. -/
def FileWorld.start (A Name : Type) : FileWorld A Name :=
  ⟨emptyMem A, .empty Name UInt8, gCmccCfg, ⟨0, 0⟩, none⟩

/-- What the requests are given from outside: the parsers and the encodings, the search for
the end of the data mode, the checksum, the build, the place that a real path leads to, and
`CM_FILE_SYS_PATH`. -/
structure FileLib (Name : Type) extends Parsers where
  toInt32WithRange : CStr → Int32 → Int32 → Option Int32
  str2hex : CStr → Option CStr
  hex2str : CStr → Option CStr
  parseEscstring : CStr → Option CStr
  findQuitSymbol : CStr → UInt32 × UInt32
  md5 : CStr → LbsTypes.Digest
  escape : Bool
  locate : CStr → Name
  fileSysPath : CStr

/-- What the surroundings do during one request: `cm_file_get_real_path`, whether `fopen` and
`rename` are refused, the two uses of `malloc`, how much an `fwrite` takes and writes out,
whether the other calls succeed, the paths that `nftw` comes by if it can start, and the
checksum. -/
structure FileEnv (A : Type) where
  getRealPath : CStr → Bool → Option CStr
  refuse : Bool
  malloc : (n : Nat) → Option (CString.Field n)
  mallocNode : Option A
  room : Nat
  spill : Nat
  fclose : Bool
  fsync : Bool
  ftruncate : Bool
  remove : CStr → Bool
  nftw : CStr → Option (List CStr)
  md5 : Md5Env
  setDatamode : Bool

/-- What a request sends: a line, the data behind it, and its result code. -/
structure Answer where
  report : Option CStr
  sent : List CStr
  ret : FileRet

def Answer.only (ret : FileRet) : Answer := ⟨none, [], ret⟩

/-- A request has been answered, or has changed to the data mode, or a chunk was handled. -/
inductive Output where
  | answered (answer : Answer)
  | entered
  | handled (run : CbRun)

variable {A Name : Type}

def FileWorld.answer (w : FileWorld A Name) (ret : FileRet) : Option (FileWorld A Name × Output) :=
  some (w, .answered (.only ret))

/-- `get_fs_mode` with what `fopen` makes of the text -/
def getFsMode (fMode : UInt32) : Option Mode :=
  if fMode = 0 then some .r
  else if fMode = 1 then some .w
  else if fMode = 2 then some .a
  else if fMode = 3 then some .wPlus
  else if fMode = 4 then some .aPlus
  else none

/-- `fs_check_dir`; the byte in front of an empty name is not its own. -/
def fsCheckDir (fname : CStr) : Option Bool := fname.getLast?.map (· = 47)

section Requests
variable [DecidableEq A] [DecidableEq Name]
variable (lib : FileLib Name) (env : FileEnv A) (fuel : Nat) (w : FileWorld A Name) (cmd : AtCmd)

/-- A name is parsed, and the real path is built from it. -/
def pathOf (para : CStr) (isCreate : Bool) : Option CStr := do
  let fName ← lib.toString para fsFilenameMaxLen
  env.getRealPath fName isCreate

def fopen (realPath : CStr) (mode : Mode) : Option (Files Name UInt8 × OpenFileList.Stream) :=
  if env.refuse then none else w.files.fopen (lib.locate realPath) mode

/-- `find_openflist_byHandle` with the node behind the pointer -/
def findNode (handle : UInt32) : Option (Option (A × FsOpenFileInfo)) := do
  match ← findOpenflistByHandle fuel w.mem handle with
  | none => some none
  | some a => do
    let c ← w.mem.heap a
    some (some (a, c.val))

/-- `at_MFCFG_req` -/
def atMfcfgReq : Option (FileWorld A Name × Output) :=
  let (cfg, response) := FileAtConfig.atMfcfgReq lib.toParsers lib.escape w.cfg cmd
  some ({ w with cfg := cfg }, .answered ⟨response.report, [], response.ret⟩)

/-- `cm_file_get_size` -/
def cmFileGetSize (realPath : CStr) : Int32 :=
  match w.files.load (lib.locate realPath) with
  | some content => Int32.ofNat content.length
  | none => -1

/-- `at_MFSIZE_req`; an empty file is an error. -/
def atMfsizeReq : Option (FileWorld A Name × Output) :=
  match cmd.cmdType with
  | .set =>
    if cmd.paraList.length ≠ 1 then w.answer FsRet.paramInvalid
    else
      match pathOf lib env (cmd.paraList.getD 0 []) false with
      | none => w.answer FsRet.paramInvalid
      | some realPath =>
        let fileLen := cmFileGetSize lib w realPath
        if 0 < fileLen then
          some (w, .answered
            ⟨some (cstr "\r\n+MFSIZE: " ++ decimal fileLen ++ cstr "\r\n"), [], FsRet.ok⟩)
        else w.answer FsRet.valueInvalid
  | _ => w.answer FsRet.operationNotAllowed

/-- What `cm_util_str2hex` leaves in the place of its digits, up to a size -/
def unhexInPlace (srcData : CStr) (size : Nat) : Option CStr :=
  (lib.str2hex (cstringAt srcData)).map fun bytes =>
    (bytes ++ srcData.drop bytes.length).take size

/-- The bytes that `AT+MFPUT` writes; a format that is none of the known ones leaves nothing to
be written. -/
def mfputBytes (fsize : UInt32) (srcData : CStr) : Option CStr :=
  let inputfmt := w.cfg.inputfmt.toUInt32
  let strlen := (cstringAt srcData).length
  if inputfmt = infmtAsc then
    let fsize := if fsize = 0 then (UInt32.ofNat strlen).toNat else fsize.toNat
    if fsize ≠ strlen then none else some (srcData.take fsize)
  else if inputfmt = infmtHex then
    let fsize := if fsize = 0 then (UInt32.ofNat (strlen / 2)).toNat else fsize.toNat
    if strlen % 2 ≠ 0 ∨ fsize ≠ strlen / 2 then none else unhexInPlace lib srcData fsize
  else if lib.escape ∧ inputfmt = infmtEsc then
    if fsize.toNat ≠ strlen then none else lib.parseEscstring (cstringAt srcData)
  else some []

/-- `at_MFPUT_req`; the file is opened, and so cut, before its data are looked at. -/
def atMfputReq : Option (FileWorld A Name × Output) :=
  match cmd.cmdType with
  | .set =>
    if cmd.paraList.length < 2 ∨ 3 < cmd.paraList.length then w.answer FsRet.paramInvalid
    else
      match pathOf lib env (cmd.paraList.getD 0 []) true with
      | none => w.answer FsRet.paramInvalid
      | some realPath =>
        match lib.toUint32WithRange (cmd.paraList.getD 1 []) 0 0xffffffff with
        | none => w.answer FsRet.paramInvalid
        | some fsize =>
          match fopen lib env w realPath .wPlus with
          | none => w.answer FsRet.failToOpen
          | some (files, fp) =>
            if cmd.paraList.length = 2 then
              let counters := { w.counters with dataLength := fsize }
              if env.setDatamode then
                some ({ w with files, counters, session := some (.mfput fp) }, .entered)
              else do
                let files ← files.fclose fp env.fclose
                FileWorld.answer { w with files, counters } FsRet.operationNotAllowed
            else
              match (lib.toString (cmd.paraList.getD 2 []) 65535).bind (mfputBytes lib w fsize) with
              | none => do
                let files ← files.fclose fp env.fclose
                FileWorld.answer { w with files } FsRet.paramInvalid
              | some writeBuff => do
                let (files, written) ← files.fwrite fp writeBuff env.room env.spill
                let files ← files.fclose fp env.fclose
                if written then
                  some ({ w with files }, .answered ⟨some (cstr "\r\n+MFPUT: " ++
                    number writeBuff.length ++ cstr "\r\n"), [], FsRet.ok⟩)
                else FileWorld.answer { w with files } FsRet.failToWrite
  | _ => w.answer FsRet.operationNotAllowed

/-- `at_MFGET_req`; every return behind `fopen` closes the file. -/
def atMfgetReq : Option (FileWorld A Name × Output) :=
  match cmd.cmdType with
  | .set =>
    if cmd.paraList.length ≠ 1 then w.answer FsRet.paramInvalid
    else
      match pathOf lib env (cmd.paraList.getD 0 []) false with
      | none => w.answer FsRet.paramInvalid
      | some realPath =>
        match fopen lib env w realPath .r with
        | none => w.answer FsRet.failToOpen
        | some (files, fp) => do
          let (fsize, file) := cmFileGetSizeByFilePoint (← files.view fp)
          let s ←
            if fsize = 0 then some ⟨some (cstr "\r\n+MFGET: 0,\r\n"), [], .ok, none⟩
            else if !env.setDatamode then some (.only .operationNotAllowed)
            else mfgetFragments ⟨env.malloc, lib.hex2str⟩ w.cfg fsize file
          let files ← files.fclose fp env.fclose
          some ({ w with files }, .answered ⟨s.report, s.sent, s.ret⟩)
  | _ => w.answer FsRet.operationNotAllowed

/-- `at_MFOPEN_req`; the memory of the node is used whether or not there is any. -/
def atMfopenReq : Option (FileWorld A Name × Output) :=
  match cmd.cmdType with
  | .set =>
    if cmd.paraList.length ≠ 2 then w.answer FsRet.paramInvalid
    else
      match lib.toUint32WithRange (cmd.paraList.getD 1 []) 0 4 with
      | none => w.answer FsRet.paramInvalid
      | some fMode =>
        match pathOf lib env (cmd.paraList.getD 0 []) (0 < fMode) with
        | none => w.answer FsRet.paramInvalid
        | some realPath => do
          match fopen lib env w realPath (← getFsMode fMode) with
          | none => w.answer FsRet.failToOpen
          | some (files, fp) => do
            let infoNode ← env.mallocNode
            let (mem, fHandle) ← insertOpenflist fuel
              (allocNode w.mem infoNode (openInfo fp fMode realPath)) infoNode
            some ({ w with mem, files }, .answered ⟨some (cstr "\r\n+MFOPEN: " ++
              decimal fHandle.toInt32 ++ cstr "\r\n"), [], FsRet.ok⟩)
  | _ => w.answer FsRet.operationNotAllowed

/-- `at_MFREAD_req` from the length on. Without errors of the device a read moves the
position. -/
def mfreadFrom (fp : OpenFileList.Stream) (fhandle readLen : UInt32) (file : File UInt8) :
    Option (FileWorld A Name × Output) := do
  let s ← mfreadFragments ⟨env.malloc, lib.hex2str⟩ w.cfg fhandle readLen file
  let left := s.fp.getD file
  let files ← w.files.place fp left.pos (if left.pos = file.pos then .fresh else .read)
  some ({ w with files }, .answered ⟨s.report, s.sent, s.ret⟩)

/-- `at_MFREAD_req`; the number of parameters is kept in a byte. -/
def atMfreadReq : Option (FileWorld A Name × Output) :=
  match cmd.cmdType with
  | .set =>
    let paramCnt := cmd.paraList.length % 256
    if paramCnt < 1 ∨ 2 < paramCnt then w.answer FsRet.paramInvalid
    else
      match lib.toUint32WithRange (cmd.paraList.getD 0 []) 0 65535 with
      | none => w.answer FsRet.paramInvalid
      | some fhandle => do
        match ← findNode fuel w fhandle with
        | none => w.answer FsRet.valueInvalid
        | some (_, fileInfo) =>
          -- `FS_CMCC_WRONLY` and `FS_CMCC_WR_APPEND`
          if fileInfo.fMode = 1 ∨ fileInfo.fMode = 2 then w.answer FsRet.valueInvalid
          else do
            let file ← w.files.view fileInfo.fp
            let curPos := UInt32.ofNat (ftell file)
            let (fsize, file) := cmFileGetSizeByFilePoint file
            if paramCnt = 1 then mfreadFrom lib env w fileInfo.fp fhandle (fsize - curPos) file
            else
              match lib.toUint32WithRange (cmd.paraList.getD 1 []) 0 65535 with
              | none => do
                let files ← w.files.place fileInfo.fp file.pos .fresh
                FileWorld.answer { w with files } FsRet.paramInvalid
              | some readLen =>
                mfreadFrom lib env w fileInfo.fp fhandle
                  (if fsize - curPos < readLen then fsize - curPos else readLen) file
  | _ => w.answer FsRet.operationNotAllowed

/-- The bytes that `AT+MFWRITE` writes -/
def mfwriteBytes (fsize : UInt32) (srcData : CStr) : Option CStr :=
  let inputfmt := w.cfg.inputfmt.toUInt32
  let dataStringLen := UInt32.ofNat srcData.length
  if inputfmt = infmtAsc then
    let fsize := if fsize = 0 then dataStringLen else fsize
    if dataStringLen ≠ fsize then none else some (srcData.take fsize.toNat)
  else if inputfmt = infmtHex then
    let fsize := if fsize = 0 then dataStringLen / 2 else fsize
    if dataStringLen % 2 ≠ 0 ∨ dataStringLen ≠ fsize * 2 then none
    else unhexInPlace lib srcData fsize.toNat
  else if lib.escape ∧ inputfmt = infmtEsc then
    if dataStringLen < fsize then none else lib.parseEscstring (cstringAt srcData)
  else some []

/-- `at_MFWRITE_req` -/
def atMfwriteReq : Option (FileWorld A Name × Output) :=
  match cmd.cmdType with
  | .set =>
    if cmd.paraList.length < 2 ∨ 3 < cmd.paraList.length then w.answer FsRet.paramInvalid
    else
      match lib.toUint32WithRange (cmd.paraList.getD 0 []) 0 65535 with
      | none => w.answer FsRet.paramInvalid
      | some fhandle => do
        match ← findNode fuel w fhandle with
        | none => w.answer FsRet.failToWrite
        | some (a, fileInfo) =>
          -- `FS_CMCC_RDONLY`
          if fileInfo.fMode = 0 then w.answer FsRet.failToWrite
          else
            match lib.toUint32WithRange (cmd.paraList.getD 1 []) 0 0xffffffff with
            | none => w.answer FsRet.paramInvalid
            | some fsize =>
              if cmd.paraList.length = 2 then
                let counters := { w.counters with dataLength := fsize }
                if env.setDatamode then
                  some ({ w with counters, session := some (.mfwrite a) }, .entered)
                else FileWorld.answer { w with counters } FsRet.operationNotAllowed
              else
                match (lib.toString (cmd.paraList.getD 2 []) 0).bind (mfwriteBytes lib w fsize) with
                | none => w.answer FsRet.paramInvalid
                | some writeBuff => do
                  let (files, written) ← w.files.fwrite fileInfo.fp writeBuff env.room env.spill
                  if written then
                    some ({ w with files }, .answered ⟨some (cstr "\r\n+MFWRITE: " ++
                      decimal fhandle.toInt32 ++ cstr "," ++ number writeBuff.length ++
                      cstr "\r\n"), [], FsRet.ok⟩)
                  else FileWorld.answer { w with files } FsRet.failToWrite
  | _ => w.answer FsRet.operationNotAllowed

/-- `at_MFSYNC_req`; what a stream keeps is not written out by `fsync`. -/
def atMfsyncReq : Option (FileWorld A Name × Output) :=
  match cmd.cmdType with
  | .set =>
    if cmd.paraList.length ≠ 1 then w.answer FsRet.paramInvalid
    else
      match lib.toUint32WithRange (cmd.paraList.getD 0 []) 0 65535 with
      | none => w.answer FsRet.paramInvalid
      | some fhandle => do
        match ← findNode fuel w fhandle with
        | none => w.answer .descriptorInvalid
        | some _ => w.answer (if env.fsync then FsRet.ok else FsRet.valueInvalid)
  | _ => w.answer FsRet.operationNotAllowed

/-- `at_MFSEEK_req`; the check of the target moves the stream back and forth. -/
def atMfseekReq : Option (FileWorld A Name × Output) :=
  match cmd.cmdType with
  | .set =>
    if cmd.paraList.length ≠ 1 ∧ cmd.paraList.length ≠ 3 then w.answer FsRet.paramInvalid
    else
      match lib.toUint32WithRange (cmd.paraList.getD 0 []) 0 65535 with
      | none => w.answer FsRet.paramInvalid
      | some fhandle => do
        match ← findNode fuel w fhandle with
        | none => w.answer FsRet.failToWrite
        | some (_, fileInfo) => do
          let file ← w.files.view fileInfo.fp
          if cmd.paraList.length = 1 then
            let pos := Int32.ofNat (ftell file)
            if pos < 0 then w.answer FsRet.valueInvalid
            else
              some (w, .answered ⟨some (cstr "\r\n+MFSEEK: " ++ decimal fhandle.toInt32 ++
                cstr "," ++ decimal pos ++ cstr "\r\n"), [], FsRet.ok⟩)
          else
            match lib.toInt32WithRange (cmd.paraList.getD 1 []) (-0x7fffffff) 0x7fffffff with
            | none => w.answer FsRet.paramInvalid
            | some offset =>
              match lib.toUint32WithRange (cmd.paraList.getD 2 []) 0 2 with
              | none => w.answer FsRet.paramInvalid
              | some direction => do
                let (overFlow, file) := isFsOverFlow file offset direction
                let target := file.target offset.toInt (whence direction)
                let done := !overFlow && decide (0 ≤ target)
                let files ← w.files.place fileInfo.fp (if done then target.toNat else file.pos)
                  .fresh
                FileWorld.answer { w with files } (if done then FsRet.ok else FsRet.valueInvalid)
  | _ => w.answer FsRet.operationNotAllowed

/-- `at_MFTRUNC_req` -/
def atMftruncReq : Option (FileWorld A Name × Output) :=
  match cmd.cmdType with
  | .set =>
    if cmd.paraList.length ≠ 2 then w.answer FsRet.paramInvalid
    else
      match lib.toUint32WithRange (cmd.paraList.getD 0 []) 0 65535 with
      | none => w.answer FsRet.paramInvalid
      | some fhandle =>
        match lib.toUint32WithRange (cmd.paraList.getD 1 []) 0 0xffffffff with
        | none => w.answer FsRet.paramInvalid
        | some length => do
          match ← findNode fuel w fhandle with
          | none => w.answer .descriptorInvalid
          | some (_, fileInfo) => do
            let files ← w.files.place fileInfo.fp 0 .fresh
            if env.ftruncate then do
              let (files, cut) ← files.ftruncate fileInfo.fp length.toNat
              FileWorld.answer { w with files } (if cut then FsRet.ok else FsRet.valueInvalid)
            else FileWorld.answer { w with files } FsRet.valueInvalid
  | _ => w.answer FsRet.operationNotAllowed

/-- `at_MFCLOSE_req`; where `fclose` fails the node stays in the list. -/
def atMfcloseReq : Option (FileWorld A Name × Output) :=
  match cmd.cmdType with
  | .set =>
    if cmd.paraList.length ≠ 1 then w.answer FsRet.paramInvalid
    else
      match lib.toUint32WithRange (cmd.paraList.getD 0 []) 0 65535 with
      | none => w.answer FsRet.paramInvalid
      | some fhandle => do
        match ← findNode fuel w fhandle with
        | none => w.answer .descriptorInvalid
        | some (_, fileInfo) => do
          let files ← w.files.fclose fileInfo.fp env.fclose
          if env.fclose then do
            let mem ← removeOpenflist fuel w.mem fhandle
            FileWorld.answer { w with mem, files } FsRet.ok
          else FileWorld.answer { w with files } .fileNoexist
  | _ => w.answer FsRet.operationNotAllowed

/-- The streams are closed one after the other. -/
def fcloseAll (files : Files Name UInt8) :
    List OpenFileList.Stream → Option (Files Name UInt8)
  | [] => some files
  | fp :: fps => do
    let files ← files.fclose fp env.fclose
    fcloseAll files fps

/-- `close_openflist_byFname` on the list, and on the files that it closes -/
def closeByFname (fname : CStr) : Option (FileWorld A Name) := do
  let mem ← closeOpenflistByFname fuel w.mem (some fname)
  let files ← fcloseAll env w.files (mem.fclosed.drop w.mem.fclosed.length)
  some { w with mem, files }

/-- `close_openflist_byFname` and `remove`, which `cm_remove_directory` consists of as well -/
def closeAndRemove (path : CStr) : Option (FileWorld A Name × Bool) := do
  let w ← closeByFname env fuel w path
  if env.remove path then some ({ w with files := w.files.unlink (lib.locate path) }, true)
  else some (w, false)

/-- The calls of `cm_remove_directory`: the first path that stays is the last one. -/
def removeAll (lib : FileLib Name) (env : FileEnv A) (fuel : Nat) :
    FileWorld A Name → List CStr → Option (FileWorld A Name × Bool)
  | w, [] => some (w, true)
  | w, path :: paths => do
    let (w, removed) ← closeAndRemove lib env fuel w path
    if removed then removeAll lib env fuel w paths else some (w, false)

/-- `nftw` with `cm_remove_directory` -/
def removeTree (path : CStr) : Option (FileWorld A Name × Bool) :=
  match env.nftw path with
  | none => some (w, false)
  | some paths => removeAll lib env fuel w paths

def deleted (r : FileWorld A Name × Bool) : FileWorld A Name × Output :=
  (r.1, .answered (.only (if r.2 then FsRet.ok else .failToDelete)))

/-- `at_MFDELETE_req`; `exe` tells the command without parameters from the rest. -/
def atMfdeleteReq (exe : Bool) : Option (FileWorld A Name × Output) :=
  match cmd.cmdType with
  | .set =>
    if cmd.paraList.length ≠ 1 then w.answer FsRet.paramInvalid
    else
      match lib.toString (cmd.paraList.getD 0 []) fsFilenameMaxLen with
      | none => w.answer FsRet.paramInvalid
      | some fName =>
        match env.getRealPath fName false with
        | none => w.answer FsRet.paramInvalid
        | some realPath => do
          if ← fsCheckDir fName then
            (removeTree lib env fuel w realPath).map deleted
          else (closeAndRemove lib env fuel w realPath).map deleted
  | _ =>
    if exe then (removeTree lib env fuel w lib.fileSysPath).map deleted
    else w.answer FsRet.operationNotAllowed

/-- `at_MFMOVE_req`; the names in the list of open files stay. -/
def atMfmoveReq : Option (FileWorld A Name × Output) :=
  match cmd.cmdType with
  | .set =>
    if cmd.paraList.length ≠ 2 then w.answer FsRet.paramInvalid
    else
      match lib.toString (cmd.paraList.getD 0 []) fsFilenameMaxLen with
      | none => w.answer FsRet.paramInvalid
      | some oldName =>
        match lib.toString (cmd.paraList.getD 1 []) fsFilenameMaxLen with
        | none => w.answer FsRet.paramInvalid
        | some newName =>
          if oldName = [] ∨ newName = [] then w.answer FsRet.paramInvalid
          else
            match env.getRealPath oldName false with
            | none => w.answer FsRet.paramInvalid
            | some oldRealPath =>
              match env.getRealPath newName true with
              | none => w.answer FsRet.paramInvalid
              | some newRealPath =>
                if (w.files.node (lib.locate oldRealPath)).isNone ∨ env.refuse then
                  w.answer .fileNoexist
                else
                  FileWorld.answer { w with
                    files := w.files.rename (lib.locate oldRealPath) (lib.locate newRealPath) }
                    FsRet.ok
  | _ => w.answer FsRet.operationNotAllowed

/-- `at_MFCHECK_req`; the number of parameters is kept in a byte. -/
def atMfcheckReq : Option (FileWorld A Name × Output) :=
  match cmd.cmdType with
  | .set =>
    let paramCnt := cmd.paraList.length % 256
    if paramCnt ≠ 1 ∧ paramCnt ≠ 2 then w.answer FsRet.paramInvalid
    else
      match pathOf lib env (cmd.paraList.getD 0 []) false with
      | none => w.answer FsRet.paramInvalid
      | some realPath =>
        if paramCnt = 2 ∧ lib.toUint32WithRange (cmd.paraList.getD 1 []) 0 0 = none then
          w.answer FsRet.paramInvalid
        else
          match fopen lib env w realPath .r with
          | none => w.answer FsRet.failToOpen
          | some (files, fp) => do
            let run ← fsMd5 lib.md5 env.md5 (← files.view fp)
            let files ← files.fclose fp env.fclose
            match run.output with
            | none => FileWorld.answer { w with files } FsRet.valueInvalid
            | some value =>
              some ({ w with files }, .answered ⟨some (cstr "\r\n+MFCHECK: " ++
                LbsTypes.dataToHex value.bytes ++ cstr "\r\n"), [], FsRet.ok⟩)
  | _ => w.answer FsRet.operationNotAllowed

/-- What a callback does to its file. -/
def takeChunk (files : Files Name UInt8) (fp : OpenFileList.Stream) (data : CStr) (run : CbRun) :
    Option (Files Name UInt8) :=
  match run.fwrite, run.ended with
  | some len, _ => (files.fwrite fp (data.take len.toNat) env.room env.spill).map Prod.fst
  | none, some (.cancelled length, _) => do
    let files ← files.place fp 0 .fresh
    if env.ftruncate then (files.ftruncate fp length.toNat).map Prod.fst else some files
  | none, _ => some files

/-- What the callback is told of its surroundings -/
def cbEnv (file : File UInt8) (data : CStr) : CbEnv :=
  ⟨lib.findQuitSymbol data, env.room, UInt32.ofNat (ftell file)⟩

/-- `cm_file_mfput_datamode_cb`, which closes its file, and `cm_file_mfwrite_datamode_cb` -/
def callback (data : CStr) : Option (FileWorld A Name × Output) := do
  match ← w.session with
  | .mfput fp => do
    let file ← w.files.view fp
    let (counters, run) ← cmFileMfputDatamodeCb (cbEnv lib env file data) w.counters data
    let files ← takeChunk env w.files fp data run
    if run.ended.isSome then do
      let files ← files.fclose fp env.fclose
      some ({ w with files, counters, session := none }, .handled run)
    else some ({ w with files, counters }, .handled run)
  | .mfwrite a => do
    let c ← w.mem.heap a
    let file ← w.files.view c.val.fp
    let (counters, run) ← cmFileMfwriteDatamodeCb c.val.fHandle (cbEnv lib env file data)
      w.counters data
    let files ← takeChunk env w.files c.val.fp data run
    some ({ w with files, counters, session := if run.ended.isSome then none else w.session },
      .handled run)

/-- The requests of the commands that set the mode, change a file or read one. `AT+MFLIST`
and `AT+MFSINFO` are left out, as are directories: a path that is no file has no node. -/
inductive Request where
  | mfcfg
  | mfsize
  | mfput
  | mfget
  | mfopen
  | mfread
  | mfwrite
  | mfsync
  | mfseek
  | mftrunc
  | mfclose
  | mfdelete (exe : Bool)
  | mfmove
  | mfcheck

def Request.run : Request → Option (FileWorld A Name × Output)
  | .mfcfg => atMfcfgReq lib w cmd
  | .mfsize => atMfsizeReq lib env w cmd
  | .mfput => atMfputReq lib env w cmd
  | .mfget => atMfgetReq lib env w cmd
  | .mfopen => atMfopenReq lib env fuel w cmd
  | .mfread => atMfreadReq lib env fuel w cmd
  | .mfwrite => atMfwriteReq lib env fuel w cmd
  | .mfsync => atMfsyncReq lib env fuel w cmd
  | .mfseek => atMfseekReq lib fuel w cmd
  | .mftrunc => atMftruncReq lib env fuel w cmd
  | .mfclose => atMfcloseReq lib env fuel w cmd
  | .mfdelete exe => atMfdeleteReq lib env fuel w cmd exe
  | .mfmove => atMfmoveReq lib env w cmd
  | .mfcheck => atMfcheckReq lib env w cmd

end Requests

/-- A request, or what comes in while the data mode is on -/
inductive Input (A : Type) where
  | request (request : Request) (cmd : AtCmd) (env : FileEnv A)
  | data (data : CStr) (env : FileEnv A)

variable [DecidableEq A] [DecidableEq Name]

def step (lib : FileLib Name) (fuel : Nat) (w : FileWorld A Name) :
    Input A → Option (FileWorld A Name × Output)
  | .request request cmd env => if w.session.isSome then none else request.run lib env fuel w cmd
  | .data data env => callback lib env w data

end FileCommands
