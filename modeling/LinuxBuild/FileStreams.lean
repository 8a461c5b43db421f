import Mathlib.Logic.Function.Basic
import Mathlib.Data.List.Basic

/-!
# Files and open streams of a process

A process sees files by their paths and holds at most `limit` streams at a time.
Opening fails when it holds that many already, or when a file to be read is missing.
-/
namespace FileStreams

universe u v

structure Process (Path : Type u) (Byte : Type v) where
  files : Path → Option (List Byte)
  streams : Nat

variable {Path : Type u} {Byte : Type v} {limit : Nat} {p : Process Path Byte} {path : Path}

/-- One more stream is held. -/
def Process.hold (p : Process Path Byte) : Process Path Byte :=
  { p with streams := p.streams + 1 }

def Process.close (p : Process Path Byte) : Process Path Byte :=
  { p with streams := p.streams - 1 }

@[simp] theorem Process.hold_streams : p.hold.streams = p.streams + 1 := rfl

@[simp] theorem Process.hold_files : p.hold.files = p.files := rfl

@[simp] theorem Process.close_hold : p.hold.close = p := rfl

/-- A stream for reading, together with what is to be read from it. -/
def Process.openRead (limit : Nat) (p : Process Path Byte) (path : Path) :
    Option (Process Path Byte × List Byte) :=
  if p.streams < limit then (p.files path).map fun content => (p.hold, content) else none

theorem Process.openRead_eq_some_iff {q : Process Path Byte} {content : List Byte} :
    p.openRead limit path = some (q, content) ↔
      p.streams < limit ∧ p.files path = some content ∧ p.hold = q := by
  simp only [Process.openRead]
  split_ifs with h
  · cases hfile : p.files path with
    | none => simp
    | some content' => simp [h, and_comm]
  · simp [h]

theorem Process.openRead_eq_none_iff :
    p.openRead limit path = none ↔ ¬ p.streams < limit ∨ p.files path = none := by
  simp only [Process.openRead]
  split_ifs with h
  · simp [h]
  · simp [h]

variable [DecidableEq Path]

/-- The file has these bytes now. -/
def Process.put (p : Process Path Byte) (path : Path) (bytes : List Byte) : Process Path Byte :=
  { p with files := Function.update p.files path (some bytes) }

/-- A stream for writing, onto an empty file. -/
def Process.openWrite (limit : Nat) (p : Process Path Byte) (path : Path) :
    Option (Process Path Byte) :=
  if p.streams < limit then some (p.put path []).hold else none

@[simp] theorem Process.put_streams {bytes : List Byte} : (p.put path bytes).streams = p.streams :=
  rfl

@[simp] theorem Process.put_files_self {bytes : List Byte} :
    (p.put path bytes).files path = some bytes := by
  simp [Process.put]

theorem Process.put_files_of_ne {bytes : List Byte} {other : Path} (h : other ≠ path) :
    (p.put path bytes).files other = p.files other := by
  simp [Process.put, h]

/-- A stream that is written to and closed leaves the bytes in its file. -/
@[simp] theorem Process.close_put_hold_put {first bytes : List Byte} :
    ((p.put path first).hold.put path bytes).close = p.put path bytes := by
  simp [Process.put, Process.hold, Process.close]

end FileStreams
