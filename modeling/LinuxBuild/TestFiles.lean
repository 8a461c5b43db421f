import LinuxBuild.DirectoryPath
import LinuxBuild.NvFiles

/-!
# The files of the NV test

The writer of the test opens its file below the working directory; the reader puts the
same name together, and then opens the path it was given. Each of them returns without
closing its stream when the data are not taken or not there.
-/
namespace TestFiles
open CString FileTree DirectoryPath NvFiles

/-- The files, and the number of open streams. -/
structure Host where
  tree : FsTree
  streams : Nat

/-- `fopen(path, "wb+")`, onto an empty file -/
def openWrite (limit : Nat) (cwd : FsLoc) (host : Host) (path : CStr) : Option (Host × FsLoc) :=
  match signs.locate host.tree cwd path with
  | none => none
  | some l =>
    if host.streams < limit ∧ host.tree.takesFile l = true then
      some (⟨host.tree.setFile l [], host.streams + 1⟩, l)
    else none

/-- What a stream delivers; a directory can be opened, but not read. -/
def delivered : Option (Entry (List UInt8)) → Option (List UInt8)
  | none => none
  | some .dir => some []
  | some (.file content) => some content

/-- `fopen(path, "r")`, with what is to be read -/
def openRead (limit : Nat) (cwd : FsLoc) (host : Host) (path : CStr) :
    Option (Host × List UInt8) :=
  match signs.locate host.tree cwd path with
  | none => none
  | some l =>
    if host.streams < limit then
      (delivered (host.tree.entry l)).map fun content => (⟨host.tree, host.streams + 1⟩, content)
    else none

/-- `fclose(fd)` -/
def Host.close (host : Host) : Host := { host with streams := host.streams - 1 }

/-- `sprintf(real_path, "%s%s", "./", file_path)` -/
def realPath (filePath : CStr) : CStr := cstr "./" ++ filePath

/-- `__cm_lbs_FileWrite` -/
def fileWrite (limit : Nat) (cwd : FsLoc) (env : WriteEnv) (host : Host) (filePath : Option CStr)
    (fileData : Option (List UInt8)) (size : UInt32) : Host × Int32 :=
  match filePath, fileData with
  | some filePath, some fileData =>
    if size = 0 ∨ 64 < filePath.length then (host, -1)
    else
      match openWrite limit cwd host (realPath filePath) with
      | none => (host, -1)
      | some (fd, l) =>
        let bytes := (fileData.take size.toNat).take env.flushed
        let fd := { fd with tree := fd.tree.setFile l bytes }
        if env.fwrite then (fd.close, size.toInt32) else (fd, -1)
  | _, _ => (host, -1)

/-- `__cm_lbs_FileRead`; `rdata` says whether there is a buffer. -/
def fileRead (limit : Nat) (cwd : FsLoc) (error : Option Nat) (host : Host)
    (filePath : Option CStr) (rdata : Bool) (readSize : UInt32) : Host × ReadResult :=
  match filePath with
  | none => (host, ⟨-1, []⟩)
  | some filePath =>
    if rdata = false ∨ readSize = 0 ∨ 64 < filePath.length then (host, ⟨-1, []⟩)
    else
      match openRead limit cwd host filePath with
      | none => (host, ⟨-1, []⟩)
      | some (fd, content) =>
        let data := (readable error content).take readSize.toNat
        if data.length = readSize.toNat then (fd.close, ⟨readSize.toInt32, data⟩)
        else (fd, ⟨-1, data⟩)

/-- A path that the functions take. -/
structure FilePath where
  text : CStr
  pos : 1 ≤ text.length
  short : text.length ≤ 64
  clean : 0 ∉ text

/-- `real_path` has 128 bytes. -/
theorem realPath_fits (path : FilePath) : (realPath path.text).length < 128 := by
  have hdir : (cstr "./").length = 2 := rfl
  have hshort := path.short
  rw [realPath, List.length_append]
  omega

/-- A write and a read of the same path, with all they depend on. -/
structure Trial where
  limit : Nat
  cwd : FsLoc
  host : Host
  path : FilePath
  data : NvData
  env : WriteEnv
  error : Option Nat

variable (x : Trial)

def Trial.write : Host × Int32 :=
  fileWrite x.limit x.cwd x.env x.host (some x.path.text) (some x.data.bytes) x.data.len.val

def Trial.read : Host × ReadResult :=
  fileRead x.limit x.cwd x.error x.write.1 (some x.path.text) true x.data.len.val

/-- There is a stream, the writer's path leads to a file or to a place for one, and the
reader's path to something that is there. -/
structure Trial.CanOpen : Prop where
  stream : x.host.streams < x.limit
  writer : ∃ l, signs.locate x.host.tree x.cwd (realPath x.path.text) = some l ∧
    x.host.tree.takesFile l = true
  reader : signs.access x.write.1.tree x.cwd x.path.text = true

/-- What is written is read back from the same file, and both calls close their streams. -/
structure Trial.RoundTrip : Prop where
  back : x.write.2.toInt = x.data.len.val.toNat →
    x.read.2.ret.toInt = x.data.len.val.toNat ∧ x.read.2.data = x.data.bytes ∧
      signs.locate x.write.1.tree x.cwd x.path.text =
        signs.locate x.host.tree x.cwd (realPath x.path.text)
  writer : x.write.1.streams = x.host.streams
  reader : x.read.1.streams = x.write.1.streams

/-- An absolute path leads to the same place from the working directory, and no byte is lost
on the way to the file and back. -/
structure Trial.Faithful : Prop where
  place : x.path.text.head? = some 47 → x.host.tree.walk [] (signs.steps x.path.text) =
    x.host.tree.walk x.cwd (signs.steps x.path.text)
  fwrite : x.env.fwrite = true
  flushed : x.data.len.val.toNat ≤ x.env.flushed
  error : ∀ k, x.error = some k → x.data.len.val.toNat ≤ k

section Calls
variable {x} {l : FsLoc}

theorem locate_realPath (t : FsTree) (cwd : FsLoc) (path : CStr) :
    signs.locate t cwd (realPath path) = t.walk cwd (signs.steps path) := by
  have hsteps : signs.steps (realPath path) = .stay :: signs.steps path :=
    @Signs.steps_append _ _ signs [46] path
  have hstart : signs.start cwd (realPath path) = cwd := rfl
  have hne : realPath path ≠ [] := List.cons_ne_nil _ _
  obtain ⟨step, steps, hpath⟩ := List.exists_cons_of_ne_nil (@Signs.steps_ne_nil _ _ signs path)
  rw [Signs.locate, if_neg hne, hsteps, hstart, hpath, Tree.walk]
  split
  · rfl
  · next hdir => rw [Tree.walk, if_neg hdir]

theorem locate_path (t : FsTree) (cwd : FsLoc) (path : FilePath) :
    signs.locate t cwd path.text = t.walk (signs.start cwd path.text) (signs.steps path.text) :=
  if_neg (List.length_pos_iff.mp path.pos)

/-- The two names are the same one for a relative path. -/
theorem locate_eq_iff (t : FsTree) (cwd : FsLoc) (path : FilePath) :
    signs.locate t cwd path.text = signs.locate t cwd (realPath path.text) ↔
      (path.text.head? = some 47 →
        t.walk [] (signs.steps path.text) = t.walk cwd (signs.steps path.text)) := by
  rw [locate_realPath, locate_path, Signs.start]
  split
  · next habs => exact ⟨fun h _ => h, fun h => h habs⟩
  · next hrel => exact ⟨fun _ habs => absurd habs hrel, fun _ => rfl⟩

theorem write_eq (hstream : x.host.streams < x.limit)
    (hl : signs.locate x.host.tree x.cwd (realPath x.path.text) = some l)
    (htakes : x.host.tree.takesFile l = true) :
    x.write = (⟨x.host.tree.setFile l (x.data.bytes.take x.env.flushed),
        if x.env.fwrite then x.host.streams else x.host.streams + 1⟩,
      if x.env.fwrite then x.data.len.val.toInt32 else -1) := by
  have hguard : ¬ (x.data.len.val = 0 ∨ 64 < x.path.text.length) :=
    not_or.mpr ⟨x.data.len.ne_zero, not_lt.mpr x.path.short⟩
  have hall : x.data.bytes.take x.data.len.val.toNat = x.data.bytes :=
    List.take_of_length_le x.data.size.le
  simp only [Trial.write, fileWrite, if_neg hguard, openWrite, hl, hstream, htakes, hall,
    and_self, if_true, Tree.setFile_setFile]
  split <;> rfl

theorem read_eq {content : List UInt8} (hstream : x.write.1.streams < x.limit)
    (hl : signs.locate x.write.1.tree x.cwd x.path.text = some l)
    (hcontent : delivered (x.write.1.tree.entry l) = some content) :
    x.read = if x.data.len.val.toNat ≤ (readable x.error content).length then
        (x.write.1, ⟨x.data.len.val.toInt32,
          (readable x.error content).take x.data.len.val.toNat⟩)
      else (⟨x.write.1.tree, x.write.1.streams + 1⟩, ⟨-1, readable x.error content⟩) := by
  have hguard : ¬ (true = false ∨ x.data.len.val = 0 ∨ 64 < x.path.text.length) := by
    simpa using ⟨x.data.len.ne_zero, x.path.short⟩
  simp only [Trial.read, fileRead, if_neg hguard, openRead, hl, if_pos hstream, hcontent,
    Option.map_some, List.length_take]
  by_cases henough : x.data.len.val.toNat ≤ (readable x.error content).length
  · rw [if_pos (min_eq_left henough), if_pos henough]
    rfl
  · have hshort : (readable x.error content).length < x.data.len.val.toNat := not_le.mp henough
    rw [if_neg (by omega), if_neg henough, List.take_of_length_le hshort.le]

/-- A write that has its stream leaves it open when `fwrite` does not take the data. -/
theorem write_streams_iff (h : x.CanOpen) :
    x.write.1.streams = x.host.streams ↔ x.env.fwrite = true := by
  obtain ⟨l, hl, htakes⟩ := h.writer
  rw [write_eq h.stream hl htakes]
  cases x.env.fwrite <;> simp

/-- The bytes in front of an input error are the data when no byte is missing. -/
theorem readable_take_iff {bytes : List UInt8} {n flushed : Nat} (hn : bytes.length = n)
    (error : Option Nat) :
    n ≤ (readable error (bytes.take flushed)).length ↔
      n ≤ flushed ∧ ∀ k, error = some k → n ≤ k := by
  cases error with
  | none =>
    simp only [readable, List.length_take, hn]
    simp
  | some k =>
    simp only [readable, List.length_take, hn, Option.some.injEq, forall_eq']
    omega

theorem readable_take_eq {bytes : List UInt8} {n flushed : Nat} (hn : bytes.length = n)
    {error : Option Nat} (h : n ≤ flushed ∧ ∀ k, error = some k → n ≤ k) :
    (readable error (bytes.take flushed)).take n = bytes := by
  rw [List.take_of_length_le (hn.trans_le h.1)]
  cases error with
  | none => exact List.take_of_length_le hn.le
  | some k =>
    rw [readable, List.take_of_length_le (hn.trans_le (h.2 k rfl))]
    exact List.take_of_length_le hn.le

/-- The reader finds what the writer has left. -/
theorem read_of_place (h : x.CanOpen) (hfwrite : x.env.fwrite = true)
    (hplace : signs.locate x.write.1.tree x.cwd x.path.text =
      signs.locate x.host.tree x.cwd (realPath x.path.text)) :
    x.read = if x.data.len.val.toNat ≤
        (readable x.error (x.data.bytes.take x.env.flushed)).length then
        (x.write.1, ⟨x.data.len.val.toInt32,
          (readable x.error (x.data.bytes.take x.env.flushed)).take x.data.len.val.toNat⟩)
      else (⟨x.write.1.tree, x.write.1.streams + 1⟩,
        ⟨-1, readable x.error (x.data.bytes.take x.env.flushed)⟩) := by
  obtain ⟨l, hl, htakes⟩ := h.writer
  have hstream : x.write.1.streams < x.limit := by
    rw [(write_streams_iff h).mpr hfwrite]
    exact h.stream
  refine read_eq hstream (hplace.trans hl) ?_
  rw [write_eq h.stream hl htakes]
  simp only [Tree.setFile_entry_self htakes, delivered]

end Calls

/-- Where both paths can be opened, the round trip and the closing of both streams hold
exactly when no byte is lost and an absolute path means the same file in both places. -/
theorem roundTrip_iff (x : Trial) (h : x.CanOpen) : x.RoundTrip ↔ x.Faithful := by
  obtain ⟨l, hl, htakes⟩ := h.writer
  have hwrite := write_eq h.stream hl htakes
  have htree : signs.locate x.write.1.tree x.cwd x.path.text =
      signs.locate x.host.tree x.cwd x.path.text := by
    rw [hwrite]
    exact Signs.locate_setFile
  have hsize := x.data.size
  constructor
  · intro htrip
    have hfwrite := (write_streams_iff h).mp htrip.writer
    have hret : x.write.2.toInt = x.data.len.val.toNat := by
      rw [hwrite]
      simp only [hfwrite, if_true]
      exact x.data.len.toInt_toInt32
    obtain ⟨hread, -, hplace⟩ := htrip.back hret
    have henough : x.data.len.val.toNat ≤
        (readable x.error (x.data.bytes.take x.env.flushed)).length := by
      by_contra hshort
      have hleak := htrip.reader
      rw [read_of_place h hfwrite hplace, if_neg hshort] at hleak
      simp at hleak
    obtain ⟨hflushed, herror⟩ := (readable_take_iff hsize x.error).mp henough
    rw [htree] at hplace
    exact ⟨(locate_eq_iff _ _ _).mp hplace, hfwrite, hflushed, herror⟩
  · intro hfaithful
    have hplace := htree.trans ((locate_eq_iff _ _ x.path).mpr hfaithful.place)
    have hbytes := And.intro hfaithful.flushed hfaithful.error
    have hread := read_of_place h hfaithful.fwrite hplace
    rw [if_pos ((readable_take_iff hsize x.error).mpr hbytes)] at hread
    refine ⟨fun _ => ⟨?_, ?_, hplace⟩, (write_streams_iff h).mpr hfaithful.fwrite, ?_⟩
    · rw [hread]
      exact x.data.len.toInt_toInt32
    · rw [hread]
      exact readable_take_eq hsize hbytes
    · rw [hread]

/-- The path "cfg" from the root, and a byte -/
def relativeTrial : Trial where
  limit := 1
  cwd := []
  host := ⟨bareTree, 0⟩
  path := ⟨cstr "cfg", by decide, by decide, by decide⟩
  data := nvByte
  env := ⟨true, 1⟩
  error := none

theorem roundTrip_iff_relative : relativeTrial.RoundTrip := by
  have hopen : relativeTrial.CanOpen := ⟨by decide, ⟨[cstr "cfg"], rfl, rfl⟩, by decide⟩
  refine (roundTrip_iff relativeTrial hopen).mpr ⟨fun h => ?_, rfl, le_refl 1, fun k h => ?_⟩
  · exact absurd h (by decide)
  · cases h

/-- A working directory "/w" beside a file "/a" -/
def besideTree : FsTree :=
  (bareTree.put [cstr "w"] .dir (by decide)).setFile [cstr "a"] [1]

/-- The same byte, and the path "/a" -/
def absoluteTrial : Trial where
  limit := 1
  cwd := [cstr "w"]
  host := ⟨besideTree, 0⟩
  path := ⟨cstr "/a", by decide, by decide, by decide⟩
  data := nvByte
  env := ⟨true, 1⟩
  error := none

/-- The byte goes to "/w/a", and what is read comes from "/a". -/
theorem absoluteTrial_reads_other : absoluteTrial.CanOpen ∧ absoluteTrial.write.2 = 1 ∧
    absoluteTrial.read.2 = ⟨1, [1]⟩ ∧ absoluteTrial.data.bytes = [7] ∧
    ¬ absoluteTrial.RoundTrip := by
  refine ⟨⟨by decide, ⟨[cstr "a", cstr "w"], rfl, rfl⟩, by decide⟩, by decide, by decide, rfl, ?_⟩
  intro h
  have hback := (h.back (by decide)).2.1
  exact absurd hback (by decide)

end TestFiles
