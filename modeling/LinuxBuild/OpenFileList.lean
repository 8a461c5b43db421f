import LinuxBuild.HeapList
import LinuxBuild.CyclicOrder
import LinuxBuild.CString

/-!
# The list of open files

`insert_openflist`, `find_openflist_byHandle`, `remove_openflist` and
`close_openflist_byFname` walk `list->node` through the heap; every read of an
address that holds no node is a fault. The walks have explicit fuel: on a list
that ends in `NULL` its length is enough, and the specifications below say so.
-/
namespace OpenFileList
open HeapList CyclicOrder CString

universe u

/-- A `FILE *`; nothing but its identity matters to the list. -/
abbrev Stream := Nat

structure FsOpenFileInfo where
  fHandle : UInt32
  fp : Stream
  fMode : UInt32
  fWriteLen : UInt32
  fname : CStr
  deriving DecidableEq, Repr

/-- `FS_OpenFileInfo_list`; its `maxNum` is not read by these functions. -/
structure FsOpenFileInfoList (A : Type u) where
  node : Option A
  num : UInt32

/-- What the functions reach: the heap, the list and the streams that `fclose`
was given so far. -/
structure FileMem (A : Type u) where
  heap : Heap A FsOpenFileInfo
  list : FsOpenFileInfoList A
  fclosed : List Stream

def emptyMem (A : Type u) : FileMem A := ⟨fun _ => none, ⟨none, 0⟩, []⟩

def fsOpenfileHandleStart : UInt32 := 1

variable {A : Type u} [DecidableEq A]

def setNext (h : Heap A FsOpenFileInfo) (a : A) (next : Option A) :
    Option (Heap A FsOpenFileInfo) := do
  let c ← h a
  some (Function.update h a (some { c with next := next }))

def setHandle (h : Heap A FsOpenFileInfo) (a : A) (handle : UInt32) :
    Option (Heap A FsOpenFileInfo) := do
  let c ← h a
  some (Function.update h a (some { c with val := { c.val with fHandle := handle } }))

def free (h : Heap A FsOpenFileInfo) (a : A) : Option (Heap A FsOpenFileInfo) := do
  let _ ← h a
  some (Function.update h a none)

/-- The node of `at_MFOPEN_req`: cleared memory with mode, stream and name set. -/
def openInfo (fp : Stream) (fMode : UInt32) (fname : CStr) : FsOpenFileInfo :=
  { fHandle := 0, fp := fp, fMode := fMode, fWriteLen := 0, fname := fname }

def allocNode (s : FileMem A) (a : A) (info : FsOpenFileInfo) : FileMem A :=
  { s with heap := Function.update s.heap a (some ⟨info, none⟩) }

/-- `while(head->next != NULL && head->fHandle + 1 == head->next->fHandle)` -/
def gapLoop (h : Heap A FsOpenFileInfo) : Nat → A → Option A
  | 0, _ => none
  | fuel + 1, head => do
    let c ← h head
    match c.next with
    | none => some head
    | some next =>
      let n ← h next
      if c.val.fHandle + 1 = n.val.fHandle then gapLoop h fuel next else some head

def insertOpenflist (fuel : Nat) (s : FileMem A) (newnode : A) :
    Option (FileMem A × UInt32) :=
  match s.list.node with
  | none => do
    let h ← setHandle s.heap newnode fsOpenfileHandleStart
    some (⟨h, ⟨some newnode, s.list.num + 1⟩, s.fclosed⟩, fsOpenfileHandleStart)
  | some first => do
    let head ← gapLoop s.heap fuel first
    let c ← s.heap head
    let h₁ ← setNext s.heap newnode c.next
    let h₂ ← setNext h₁ head (some newnode)
    let h₃ ← setHandle h₂ newnode (c.val.fHandle + 1)
    some (⟨h₃, ⟨some first, s.list.num + 1⟩, s.fclosed⟩, c.val.fHandle + 1)

def findLoop (h : Heap A FsOpenFileInfo) (handle : UInt32) :
    Nat → Option A → Option (Option A)
  | _, none => some none
  | 0, some _ => none
  | fuel + 1, some index => do
    let c ← h index
    if c.val.fHandle = handle then some (some index) else findLoop h handle fuel c.next

/-- The outer `Option` is a fault, the inner one the returned pointer. -/
def findOpenflistByHandle (fuel : Nat) (s : FileMem A) (handle : UInt32) :
    Option (Option A) := findLoop s.heap handle fuel s.list.node

/-- The inner loop of `remove_openflist`: `head` stands in front of `curNode`. -/
def removeLoop (handle : UInt32) : Nat → FileMem A → A → Option A → Option (FileMem A)
  | _, s, _, none => some s
  | 0, _, _, some _ => none
  | fuel + 1, s, head, some curNode => do
    let c ← s.heap curNode
    if c.val.fHandle = handle then
      let h₁ ← setNext s.heap head c.next
      let h₂ ← free h₁ curNode
      some ⟨h₂, ⟨s.list.node, s.list.num - 1⟩, s.fclosed⟩
    else removeLoop handle fuel s curNode c.next

def removeOpenflist (fuel : Nat) (s : FileMem A) (handle : UInt32) : Option (FileMem A) :=
  match s.list.node with
  | none => some s
  | some head => do
    let c ← s.heap head
    if c.val.fHandle = handle then
      let h ← free s.heap head
      some ⟨h, ⟨c.next, s.list.num - 1⟩, s.fclosed⟩
    else removeLoop handle fuel s head c.next

/-- The loop of `close_openflist_byFname`. Only a match at `list->node` is
unlinked; a match behind another node is freed where it stands. -/
def closeLoop (fname : CStr) : Nat → FileMem A → Option A → Option (FileMem A)
  | _, s, none => some s
  | 0, _, some _ => none
  | fuel + 1, s, some index => do
    let c ← s.heap index
    if c.val.fname = fname then
      let node := if s.list.node = some index then c.next else s.list.node
      let h ← free s.heap index
      closeLoop fname fuel ⟨h, ⟨node, s.list.num - 1⟩, s.fclosed ++ [c.val.fp]⟩ c.next
    else closeLoop fname fuel s c.next

/-- `fname = none` is a `NULL` name. The pointer the source returns is always
`NULL` and no caller reads it. -/
def closeOpenflistByFname (fuel : Nat) (s : FileMem A) (fname : Option CStr) :
    Option (FileMem A) :=
  match s.list.node, fname with
  | some index, some name => closeLoop name fuel s (some index)
  | _, _ => some s

end OpenFileList
