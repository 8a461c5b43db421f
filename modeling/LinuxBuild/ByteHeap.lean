import Mathlib.Data.List.Basic

/-!
# A heap of blocks of bytes

A block is a list of cells, and a cell that was never written holds nothing. A
string runs from its address to the first terminator of the block; reading a cell
that was never written, or running out of the block, is a fault.
-/
namespace ByteHeap

structure Addr where
  block : Nat
  offset : Nat
deriving DecidableEq

abbrev Cells := List (Option UInt8)

/-- All blocks that ever were allocated, without those that are freed. -/
abbrev Heap := List (Option Cells)

def Heap.block (h : Heap) (b : Nat) : Option Cells := (h[b]?).join

/-- The string at the start of some cells. -/
def textOf : Cells → Option (List UInt8)
  | [] => none
  | none :: _ => none
  | some c :: cells => if c = 0 then some [] else (textOf cells).map (c :: ·)

/-- The string at an address. -/
def Heap.string (h : Heap) (p : Addr) : Option (List UInt8) := do
  let cells ← h.block p.block
  textOf (cells.drop p.offset)

def Heap.alloc (h : Heap) (cells : Cells) : Heap := h ++ [some cells]

def Heap.free (h : Heap) (b : Nat) : Heap := h.set b none

/-- `realloc(p, size)`: the bytes move to a new block, and `p` is freed. -/
def Heap.realloc (h : Heap) (p : Option Addr) (size : Nat) : Option (Heap × Addr) :=
  match p with
  | none => some (h.alloc (List.replicate size none), ⟨h.length, 0⟩)
  | some p => do
    let cells ← h.block p.block
    if p.offset = 0 then
      let kept := cells.take size ++ List.replicate (size - cells.length) none
      some ((h.free p.block).alloc kept, ⟨h.length, 0⟩)
    else none

/-- `memcpy(p + offset, bytes)` -/
def Heap.write (h : Heap) (p : Addr) (bytes : List UInt8) : Option Heap := do
  let cells ← h.block p.block
  if p.offset + bytes.length ≤ cells.length then
    let before := cells.take p.offset ++ bytes.map some
    some (h.set p.block (some (before ++ cells.drop (p.offset + bytes.length))))
  else none

variable {h : Heap} {b : Nat} {cells : Cells} {p : Addr} {bytes : List UInt8}

@[simp] theorem length_free : (h.free b).length = h.length := by
  simp [Heap.free]

theorem lt_length_of_block (hb : h.block b = some cells) : b < h.length := by
  by_contra hlt
  rw [Heap.block, List.getElem?_eq_none (by omega)] at hb
  exact absurd hb (by simp)

@[simp] theorem block_alloc_self : (h.alloc cells).block h.length = some cells := by
  simp [Heap.alloc, Heap.block]

theorem block_set_self {cells' : Cells} (hb : h.block b = some cells) :
    Heap.block (h.set b (some cells')) b = some cells' := by
  have hlt := lt_length_of_block hb
  rw [Heap.block, List.getElem?_set_self hlt]
  rfl

/-- Without a terminator there is no string. -/
theorem textOf_eq_none (hnul : 0 ∉ bytes) : textOf (bytes.map some) = none := by
  induction bytes with
  | nil => rfl
  | cons c bytes ih =>
    obtain ⟨hc, hbytes⟩ := List.ne_and_not_mem_of_not_mem_cons hnul
    rw [List.map_cons, textOf, if_neg hc.symm, ih hbytes]
    rfl

/-- The pointer owns a block with exactly these bytes; `NULL` has none. -/
def Heap.Owns (h : Heap) : Option Addr → List UInt8 → Prop
  | none, bytes => bytes = []
  | some p, bytes => p.offset = 0 ∧ h.block p.block = some (bytes.map some)

/-- Growing leaves the bytes and puts cells behind them that were never written. -/
theorem realloc_of_owns {ptr : Option Addr} (howns : h.Owns ptr bytes) (n : Nat) :
    ∃ grown, h.realloc ptr (bytes.length + n) = some (grown, ⟨h.length, 0⟩) ∧
      grown.block h.length = some (bytes.map some ++ List.replicate n none) := by
  cases ptr with
  | none =>
    have hbytes : bytes = [] := howns
    subst hbytes
    rw [List.length_nil, Nat.zero_add]
    exact ⟨_, rfl, block_alloc_self⟩
  | some p =>
    obtain ⟨hoffset, hblock⟩ := howns
    have hkept : (bytes.map some).take (bytes.length + n) ++
        List.replicate (bytes.length + n - (bytes.map some).length) none =
        bytes.map some ++ List.replicate n (none : Option UInt8) := by
      rw [List.take_of_length_le (by simp), List.length_map, Nat.add_sub_cancel_left]
    refine ⟨(h.free p.block).alloc (bytes.map some ++ List.replicate n none), ?_, ?_⟩
    · simp only [Heap.realloc, hblock, Option.bind_eq_bind, Option.bind_some, if_pos hoffset, hkept]
    · rw [← @length_free h p.block]
      exact block_alloc_self

/-- Filling the cells behind the bytes appends to them. -/
theorem write_of_block {more : List UInt8}
    (hblock : h.block b = some (bytes.map some ++ List.replicate more.length none)) :
    ∃ h', h.write ⟨b, bytes.length⟩ more = some h' ∧
      h'.block b = some ((bytes ++ more).map some) := by
  have hfit : bytes.length + more.length ≤
      (bytes.map some ++ List.replicate more.length (none : Option UInt8)).length := by simp
  have hafter : (bytes.map some ++ List.replicate more.length (none : Option UInt8)).drop
      (bytes.length + more.length) = [] := List.drop_eq_nil_of_le (by simp)
  refine ⟨h.set b (some ((bytes ++ more).map some)), ?_, block_set_self hblock⟩
  simp only [Heap.write, hblock, Option.bind_eq_bind, Option.bind_some, if_pos hfit, hafter]
  simp

end ByteHeap
