import Mathlib.Data.List.Basic

/-!
# An open file with a position

A file is read from its position on. Reads stop at the end of the file, or at a place
where the device fails, if there is one.
-/
namespace ByteStream

universe u

structure File (Byte : Type u) where
  content : List Byte
  pos : Nat
  bad : Option Nat

/-- The base that an offset is added to. -/
inductive Whence where
  | set
  | cur
  | fromEnd
  deriving DecidableEq, Repr

variable {Byte : Type u} {fp : File Byte} {n : Nat}

namespace File

def size (fp : File Byte) : Nat := fp.content.length

/-- What lies between the position and the end. -/
def rest (fp : File Byte) : List Byte := fp.content.drop fp.pos

/-- The part of it in front of a failure. -/
def readable (fp : File Byte) : List Byte :=
  match fp.bad with
  | none => fp.rest
  | some place => fp.rest.take (place - fp.pos)

def base (fp : File Byte) : Whence → Nat
  | .set => 0
  | .cur => fp.pos
  | .fromEnd => fp.size

/-- The position that a seek asks for. -/
def target (fp : File Byte) (offset : Int) (whence : Whence) : Int := fp.base whence + offset

/-- A position in front of the file is refused. -/
def seek (fp : File Byte) (offset : Int) (whence : Whence) : File Byte :=
  if 0 ≤ fp.target offset whence then { fp with pos := (fp.target offset whence).toNat } else fp

/-- The file after `n` bytes were taken. -/
def advance (fp : File Byte) (n : Nat) : File Byte := { fp with pos := fp.pos + n }

/-- At most `n` bytes, and the file behind them. -/
def read (fp : File Byte) (n : Nat) : List Byte × File Byte :=
  (fp.readable.take n, fp.advance (fp.readable.take n).length)

end File

@[simp] theorem seek_end_pos : (fp.seek 0 .fromEnd).pos = fp.size := by
  simp [File.seek, File.target, File.base]

/-- Going back to a position undoes every move. -/
@[simp] theorem seek_seek_pos (offset : Int) (whence : Whence) :
    (fp.seek offset whence).seek fp.pos .set = fp := by
  simp only [File.seek]
  split_ifs <;> simp_all [File.target, File.base]

theorem readable_length_le : fp.readable.length ≤ fp.rest.length := by
  simp only [File.readable]
  split
  · exact Nat.le_refl _
  · exact List.length_take_le' _ _

theorem advance_rest : (fp.advance n).rest = fp.rest.drop n := by
  rw [File.rest, File.rest, List.drop_drop]
  rfl

theorem length_advance_rest : (fp.advance n).rest.length = fp.rest.length - n := by
  rw [advance_rest, List.length_drop]

theorem advance_advance (m : Nat) : (fp.advance n).advance m = fp.advance (n + m) := by
  rw [File.advance, File.advance, File.advance, Nat.add_assoc]

theorem advance_readable : (fp.advance n).readable = fp.readable.drop n := by
  simp only [File.readable, File.advance, File.rest]
  split
  · rw [List.drop_drop]
  · rw [List.drop_take, List.drop_drop, Nat.sub_sub]

/-- A read leaves what it did not take. -/
theorem read_readable : (fp.read n).2.readable = fp.readable.drop n := by
  rw [File.read, advance_readable, List.length_take]
  rcases Nat.le_total n fp.readable.length with h | h
  · rw [Nat.min_eq_left h]
  · rw [Nat.min_eq_right h, List.drop_length, List.drop_of_length_le h]

end ByteStream
