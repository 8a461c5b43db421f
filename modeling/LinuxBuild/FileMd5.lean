import LinuxBuild.ByteStream
import LinuxBuild.LbsTypes
import Mathlib.Data.List.Range

/-!
# The checksum of a file

The file is read in blocks of eight bytes. A read of one block answers how many blocks it
has read, and this number is passed on as the length of what is to be hashed.
-/
namespace FileMd5
open CString LbsTypes ByteStream

/-- `fread`: the number of whole items, and all the bytes that were read. -/
def fread (size nmemb : Nat) (fp : File UInt8) : Nat × List UInt8 × File UInt8 :=
  let (bytes, fp) := fp.read (size * nmemb)
  (bytes.length / size, bytes, fp)

/-- `FS_READBUFF_LEN` -/
def fsReadbuffLen : Nat := 8

/-- Whether the buffer is allocated, and what the MD5 functions return; `update` is asked
with the number of blocks passed before. -/
structure Md5Env where
  malloc : Bool
  starts : Int32
  update : Nat → Int32
  finish : Int32

/-- The loop of `fs_md5` with the blocks passed on so far. -/
def md5Loop (env : Md5Env) : Nat → File UInt8 → List CStr → Option (Int32 × List CStr)
  | 0, _, _ => none
  | fuel + 1, fp, updates =>
    let (readLen, buff, fp) := fread fsReadbuffLen 1 fp
    if !env.malloc ∧ buff ≠ [] then none
    else if readLen = 0 then some (0, updates)
    else
      let ret := env.update updates.length
      let updates := updates ++ [buff.take readLen]
      if ret ≠ 0 then some (ret, updates) else md5Loop env fuel fp updates

structure Md5Run where
  ret : Int32
  updates : List CStr
  output : Option Digest

/-- `fs_md5`; `none` is a read into the buffer that was not allocated. -/
def fsMd5 (md5 : CStr → Digest) (env : Md5Env) (fp : File UInt8) : Option Md5Run :=
  if env.starts ≠ 0 then some ⟨env.starts, [], none⟩
  else do
    let (ret, updates) ← md5Loop env (fp.rest.length + 1) fp []
    if ret ≠ 0 then some ⟨ret, updates, none⟩
    else if env.finish ≠ 0 then some ⟨env.finish, updates, none⟩
    else some ⟨0, updates, some (md5 updates.flatten)⟩

/-- The first byte of every whole block. -/
def hashed (content : CStr) : CStr :=
  (List.range (content.length / 8)).map fun i => content.getD (8 * i) 0

theorem length_hashed (content : CStr) : (hashed content).length = content.length / 8 := by
  rw [hashed, List.length_map, List.length_range]

theorem hashed_of_lt {content : CStr} (h : content.length < 8) : hashed content = [] := by
  rw [hashed, Nat.div_eq_of_lt h]
  rfl

theorem hashed_of_ge {content : CStr} (h : 8 ≤ content.length) :
    hashed content = content.take 1 ++ hashed (content.drop 8) := by
  have hblocks : content.length / 8 = (content.drop 8).length / 8 + 1 := by
    rw [List.length_drop]
    omega
  have hfirst : content.take 1 = [content.getD 0 0] := by
    cases content with
    | nil => exact absurd h (by decide)
    | cons b content => rfl
  rw [hashed, hblocks, List.range_succ_eq_map, List.map_cons, List.map_map, hfirst, hashed]
  congr 2
  funext i
  have hindex : 8 * i.succ = 8 + 8 * i := by omega
  simp only [Function.comp_apply, List.getD_eq_getElem?_getD, List.getElem?_drop, hindex]

section Loop
variable {env : Md5Env} {fuel : Nat} {fp : File UInt8} {updates : List CStr}

theorem fread_whole (h : 8 ≤ fp.readable.length) :
    fread fsReadbuffLen 1 fp = (1, fp.readable.take 8, (fp.read 8).2) := by
  have hlength : (fp.read 8).1.length / 8 = 1 := by
    rw [File.read, List.length_take, Nat.min_eq_left h]
  simp only [fread, fsReadbuffLen, Nat.mul_one, hlength]
  rfl

theorem fread_partial (h : fp.readable.length < 8) :
    fread fsReadbuffLen 1 fp = (0, fp.readable, (fp.read 8).2) := by
  have htake : fp.readable.take 8 = fp.readable := List.take_of_length_le h.le
  simp only [fread, fsReadbuffLen, Nat.mul_one, File.read, htake, Nat.div_eq_of_lt h]

/-- Of every whole block its first byte is passed on, and of the last one nothing. -/
theorem md5Loop_hashed {updates' : List CStr}
    (h : md5Loop env fuel fp updates = some (0, updates')) :
    updates'.flatten = updates.flatten ++ hashed fp.readable := by
  induction fuel generalizing fp updates with
  | zero => cases h
  | succ fuel ih =>
    rcases Nat.lt_or_ge fp.readable.length 8 with hlast | hblock
    · simp only [md5Loop, fread_partial hlast] at h
      split_ifs at h
      · cases h
        rw [hashed_of_lt hlast, List.append_nil]
    · simp only [md5Loop, fread_whole hblock, Nat.one_ne_zero, if_false] at h
      split_ifs at h with hnull hcode
      · exact absurd (congrArg Prod.fst (Option.some.inj h)) hcode
      · rw [ih h, read_readable, hashed_of_ge hblock, List.flatten_append, List.append_assoc]
        simp [List.take_take]

/-- With its buffer the loop comes to an end. -/
theorem md5Loop_returns (hmalloc : env.malloc = true) (hfuel : fp.readable.length < fuel) :
    md5Loop env fuel fp updates ≠ none := by
  induction fuel generalizing fp updates with
  | zero => exact absurd hfuel (Nat.not_lt_zero _)
  | succ fuel ih =>
    have hbuffer : ∀ buff : CStr, ¬ ((!env.malloc) = true ∧ buff ≠ []) := by
      intro buff h
      rw [hmalloc] at h
      exact absurd h.1 (by decide)
    rcases Nat.lt_or_ge fp.readable.length 8 with hlast | hblock
    · simp only [md5Loop, fread_partial hlast, if_neg (hbuffer _), if_true]
      exact Option.some_ne_none _
    · simp only [md5Loop, fread_whole hblock, if_neg (hbuffer _), Nat.one_ne_zero, if_false]
      split_ifs
      · exact Option.some_ne_none _
      · refine ih ?_
        rw [read_readable, List.length_drop]
        omega

end Loop

section Checksum
variable {md5 : CStr → Digest} {env : Md5Env} {fp : File UInt8} {run : Md5Run}

theorem fsMd5_returns (md5 : CStr → Digest) (fp : File UInt8) (hmalloc : env.malloc = true) :
    fsMd5 md5 env fp ≠ none := by
  have hfuel : fp.readable.length < fp.rest.length + 1 := Nat.lt_succ_of_le readable_length_le
  obtain ⟨r, hr⟩ := Option.ne_none_iff_exists'.mp (@md5Loop_returns env _ fp [] hmalloc hfuel)
  simp only [fsMd5, hr, Option.bind_eq_bind, Option.bind_some]
  split_ifs <;> exact Option.some_ne_none _

/-- The checksum is that of the bytes passed on. -/
theorem fsMd5_hashed (hrun : fsMd5 md5 env fp = some run) (hret : run.ret = 0) :
    run.updates.flatten = hashed fp.readable ∧ run.output = some (md5 (hashed fp.readable)) := by
  simp only [fsMd5] at hrun
  split at hrun
  · rename_i hstarts
    cases hrun
    exact absurd hret hstarts
  obtain ⟨⟨ret, updates⟩, hloop, hrun⟩ := Option.bind_eq_some_iff.mp hrun
  dsimp only at hrun
  split_ifs at hrun with hcode hfinish
  · cases hrun
    exact absurd hret hcode
  · cases hrun
    exact absurd hret hfinish
  · cases hrun
    have hzero : ret = 0 := not_not.mp hcode
    subst hzero
    have hflatten : updates.flatten = hashed fp.readable := md5Loop_hashed hloop
    exact ⟨hflatten, congrArg (fun bytes => some (md5 bytes)) hflatten⟩

/-- Files that agree on the first byte of every whole block have the same checksum. -/
theorem fsMd5_output_eq {env' : Md5Env} {fp' : File UInt8} {run' : Md5Run}
    (hrun : fsMd5 md5 env fp = some run) (hret : run.ret = 0)
    (hrun' : fsMd5 md5 env' fp' = some run') (hret' : run'.ret = 0)
    (h : hashed fp.readable = hashed fp'.readable) : run.output = run'.output := by
  rw [(fsMd5_hashed hrun hret).2, (fsMd5_hashed hrun' hret').2, h]

/-- What is passed on is the rest of the file only if there is none. -/
theorem hashed_eq_rest_iff (fp : File UInt8) : hashed fp.readable = fp.rest ↔ fp.rest = [] := by
  have hle := @readable_length_le _ fp
  constructor
  · intro h
    have hlength := congrArg List.length h
    rw [length_hashed] at hlength
    exact List.length_eq_zero_iff.mp (by omega)
  · intro h
    rw [h, List.length_nil] at hle
    rw [h]
    exact hashed_of_lt (by omega)

end Checksum

/-- A checksum that succeeds is that of the whole rest of the file if and only if nothing
is left of the file. -/
theorem fsMd5_whole_iff {md5 : CStr → Digest} {env : Md5Env} {fp : File UInt8} {run : Md5Run}
    (hrun : fsMd5 md5 env fp = some run) (hret : run.ret = 0) :
    (run.updates.flatten = fp.rest ∧ run.output = some (md5 fp.rest)) ↔ fp.rest = [] := by
  obtain ⟨hflatten, houtput⟩ := fsMd5_hashed hrun hret
  rw [hflatten, houtput, ← hashed_eq_rest_iff]
  exact ⟨fun h => h.1, fun h => ⟨h, by rw [h]⟩⟩

/-- The MD5 of the empty string. -/
def emptyDigest : Digest :=
  ⟨[0xd4, 0x1d, 0x8c, 0xd9, 0x8f, 0x00, 0xb2, 0x04, 0xe9, 0x80, 0x09, 0x98, 0xec, 0xf8, 0x42,
    0x7e], rfl⟩

def quietEnv : Md5Env := ⟨true, 0, fun _ => 0, 0⟩

def fileOf (content : CStr) : File UInt8 := ⟨content, 0, none⟩

/-- A checksum that knows the empty string. -/
def emptyOrZero (bytes : CStr) : Digest := if bytes = [] then emptyDigest else Field.zero 16

/-- Of a file that has been read to its end, with the checksum of what is left. -/
theorem fsMd5_read_to_end :
    ∃ run, fsMd5 emptyOrZero quietEnv ⟨cstr "abc", 3, none⟩ = some run ∧
      run.updates.flatten = (File.mk (cstr "abc") 3 none).rest ∧
      run.output = some (emptyOrZero (File.mk (cstr "abc") 3 none).rest) := by
  have hrun : fsMd5 emptyOrZero quietEnv ⟨cstr "abc", 3, none⟩ =
      some ⟨0, [], some emptyDigest⟩ := rfl
  exact ⟨_, hrun, (fsMd5_whole_iff hrun rfl).mpr rfl⟩

/-- The checksum of "abc" is that of the empty string, and of sixteen bytes the first and
the ninth are hashed. -/
theorem fsMd5_fails :
    fsMd5 (fun _ => emptyDigest) quietEnv (fileOf (cstr "abc")) =
        some ⟨0, [], some emptyDigest⟩ ∧
      ([] : List CStr).flatten ≠ (fileOf (cstr "abc")).rest ∧
      (fsMd5 (fun _ => emptyDigest) quietEnv (fileOf (cstr "abcdefghijklmnop"))).map
        Md5Run.updates = some [cstr "a", cstr "i"] :=
  ⟨rfl, by decide, rfl⟩

end FileMd5
