import LinuxBuild.ByteStream
import Mathlib.Logic.Function.Basic

/-!
# Files under buffered streams

A name leads to a node, and a node has a content, which stays when its name goes. A stream
stands at a position in a node and may keep bytes that were written to it. The
surroundings say how many of them a write puts into the node at once; positioning and closing put
the rest there. Reads take what the node holds.
-/
namespace BufferedFiles
open ByteStream

universe u v

/-- What a stream was used for since it was positioned. -/
inductive Turn where
  | fresh
  | read
  | written
  deriving DecidableEq

/-- What a stream may do, and what opening it does to the file. -/
structure Mode where
  reads : Bool
  writes : Bool
  appends : Bool
  creates : Bool
  truncates : Bool
  deriving DecidableEq

/-- `"r"`, `"w"`, `"a"`, `"w+"` and `"a+"` -/
def Mode.r : Mode := ⟨true, false, false, false, false⟩
def Mode.w : Mode := ⟨false, true, false, true, true⟩
def Mode.a : Mode := ⟨false, true, true, true, false⟩
def Mode.wPlus : Mode := ⟨true, true, false, true, true⟩
def Mode.aPlus : Mode := ⟨true, true, true, true, false⟩

/-- An open stream; its position counts the bytes that it keeps. -/
structure Stream (Byte : Type v) where
  node : Nat
  mode : Mode
  pos : Nat
  pending : List Byte
  turn : Turn

/-- The names, the contents of the nodes, and the streams. `nodes` and `streams` are the
next free numbers of both. -/
structure Files (Name : Type u) (Byte : Type v) where
  node : Name → Option Nat
  content : Nat → List Byte
  stream : Nat → Option (Stream Byte)
  nodes : Nat
  streams : Nat

def Files.empty (Name : Type u) (Byte : Type v) : Files Name Byte :=
  ⟨fun _ => none, fun _ => [], fun _ => none, 0, 0⟩

variable {Name : Type u} {Byte : Type v} [Zero Byte]

/-- The bytes are put over the content from `start` on; a gap in front of them is filled. -/
def patch (content : List Byte) (start : Nat) : List Byte → List Byte
  | [] => content
  | b :: bytes => content.take start ++ List.replicate (start - content.length) 0 ++
      (b :: bytes) ++ content.drop (start + (b :: bytes).length)

/-- The content cut or filled up to a length -/
def resize (content : List Byte) (len : Nat) : List Byte :=
  content.take len ++ List.replicate (len - content.length) 0

namespace Stream

/-- Where the bytes go that are kept. -/
def start (st : Stream Byte) (content : List Byte) : Nat :=
  if st.mode.appends then content.length else st.pos - st.pending.length

/-- The content with the bytes that are kept -/
def settled (st : Stream Byte) (content : List Byte) : List Byte :=
  patch content (st.start content) st.pending

/-- The stream that has taken some bytes, and the content of its node; `spill` of the bytes that
are kept go there. -/
def accept (st : Stream Byte) (content bytes : List Byte) (spill : Nat) :
    Stream Byte × List Byte :=
  let kept := st.pending ++ bytes
  let full := { st with pos := st.pos + bytes.length, pending := kept }
  let pos := if st.mode.appends then (full.settled content).length else full.pos
  ({ st with pos := pos, pending := kept.drop spill, turn := .written },
    patch content (full.start content) (kept.take spill))

end Stream

namespace Files

/-- The file as the stream sees it -/
def view (f : Files Name Byte) (sid : Nat) : Option (File Byte) :=
  (f.stream sid).map fun st => ⟨st.settled (f.content st.node), st.pos, none⟩

/-- A stream and the content of a node are replaced. -/
def commit (f : Files Name Byte) (sid : Nat) (st : Option (Stream Byte)) (n : Nat)
    (content : List Byte) : Files Name Byte :=
  { f with
    content := Function.update f.content n content
    stream := Function.update f.stream sid st }

/-- The stream is positioned, and used as `turn` says from there on. -/
def place (f : Files Name Byte) (sid pos : Nat) (turn : Turn) : Option (Files Name Byte) :=
  (f.stream sid).map fun st =>
    f.commit sid (some { st with pos := pos, pending := [], turn := turn }) st.node
      (st.settled (f.content st.node))

/-- `fwrite` of one item, of which the file takes at most `room` bytes. The answer says whether
all was taken. An item without bytes is none, and behind a read a write is undefined. -/
def fwrite (f : Files Name Byte) (sid : Nat) (bytes : List Byte) (room spill : Nat) :
    Option (Files Name Byte × Bool) :=
  (f.stream sid).bind fun st =>
    if bytes.isEmpty || !st.mode.writes then some (f, false)
    else if st.turn = .read then none
    else
      let (st', content) := st.accept (f.content st.node) (bytes.take room) spill
      some (f.commit sid (some st') st.node content, decide (bytes.length ≤ room))

/-- `fclose`; if it fails the bytes that are kept are lost. -/
def fclose (f : Files Name Byte) (sid : Nat) (succeeds : Bool) : Option (Files Name Byte) :=
  (f.stream sid).map fun st =>
    f.commit sid none st.node
      (if succeeds then st.settled (f.content st.node) else f.content st.node)

/-- `ftruncate` of the node behind a stream; the stream does not take part. -/
def ftruncate (f : Files Name Byte) (sid len : Nat) : Option (Files Name Byte × Bool) :=
  (f.stream sid).map fun st =>
    if st.mode.writes then (f.commit sid (some st) st.node (resize (f.content st.node) len), true)
    else (f, false)

/-- What a new stream would read of a name -/
def load (f : Files Name Byte) (name : Name) : Option (List Byte) := (f.node name).map f.content

/-- The name leads to a new node, which is empty. -/
def create [DecidableEq Name] (f : Files Name Byte) (name : Name) : Files Name Byte :=
  { f with
    node := Function.update f.node name (some f.nodes)
    content := Function.update f.content f.nodes []
    nodes := f.nodes + 1 }

/-- A new stream at a node; one that only appends starts at the end. -/
def attach (f : Files Name Byte) (n : Nat) (mode : Mode) : Files Name Byte :=
  let content := if mode.truncates then [] else f.content n
  let pos := if mode.appends && !mode.reads then content.length else 0
  { f.commit f.streams (some ⟨n, mode, pos, [], .fresh⟩) n content with
    streams := f.streams + 1 }

variable [DecidableEq Name]

/-- `fopen` with the number of the new stream -/
def fopen (f : Files Name Byte) (name : Name) (mode : Mode) : Option (Files Name Byte × Nat) :=
  match f.node name with
  | some n => some (f.attach n mode, f.streams)
  | none => if mode.creates then some ((f.create name).attach f.nodes mode, f.streams) else none

def unlink (f : Files Name Byte) (name : Name) : Files Name Byte :=
  { f with node := Function.update f.node name none }

/-- What stood under the new name is gone. -/
def rename (f : Files Name Byte) (old new : Name) : Files Name Byte :=
  if old = new then f
  else { f with node := Function.update (Function.update f.node new (f.node old)) old none }

end Files

namespace Files
variable {Name : Type u} {Byte : Type v} {f g : Files Name Byte} {sid other pos n : Nat}
variable {st : Option (Stream Byte)} {content bytes : List Byte}

section Modes

/-- The mode of a stream, if it is open -/
def modeOf (f : Files Name Byte) (sid : Nat) : Option Mode := (f.stream sid).map Stream.mode

/-- The same streams are open as before. -/
structure Keeps (f g : Files Name Byte) : Prop where
  modes : g.modeOf = f.modeOf
  streams : g.streams = f.streams

theorem Keeps.refl (f : Files Name Byte) : Keeps f f := ⟨rfl, rfl⟩

theorem Keeps.trans {h : Files Name Byte} (hfg : Keeps f g) (hgh : Keeps g h) : Keeps f h :=
  ⟨hgh.modes.trans hfg.modes, hgh.streams.trans hfg.streams⟩

theorem exists_stream {mode : Mode} (h : f.modeOf sid = some mode) :
    ∃ st, f.stream sid = some st ∧ st.mode = mode := Option.map_eq_some_iff.mp h

theorem modeOf_of_stream (st : Option (Stream Byte))
    (h : g.stream = Function.update f.stream sid st) :
    g.modeOf = Function.update f.modeOf sid (st.map Stream.mode) := by
  funext other
  rw [modeOf, h]
  by_cases heq : other = sid
  · rw [heq, Function.update_self, Function.update_self]
  · rw [Function.update_of_ne heq, Function.update_of_ne heq, modeOf]

theorem keeps_commit {st st' : Stream Byte} (h : f.stream sid = some st)
    (hmode : st'.mode = st.mode) : Keeps f (f.commit sid (some st') n content) where
  modes := by
    rw [modeOf_of_stream (some st') rfl, Function.update_eq_self_iff, modeOf, h, Option.map_some,
      Option.map_some, hmode]
  streams := rfl

variable [Zero Byte]

theorem exists_view {st : Stream Byte} (h : f.stream sid = some st) :
    ∃ file, f.view sid = some file := ⟨_, by rw [view, h]; rfl⟩

theorem place_keeps {turn : Turn} {mode : Mode} (h : f.modeOf sid = some mode) :
    ∃ g, f.place sid pos turn = some g ∧ Keeps f g := by
  obtain ⟨st, hst, -⟩ := exists_stream h
  refine ⟨_, by rw [place, hst]; rfl, ?_⟩
  exact keeps_commit hst rfl

theorem ftruncate_keeps {len : Nat} {mode : Mode} (h : f.modeOf sid = some mode) :
    ∃ g, f.ftruncate sid len = some (g, mode.writes) ∧ Keeps f g := by
  obtain ⟨st, hst, rfl⟩ := exists_stream h
  cases hwrites : st.mode.writes with
  | false =>
    refine ⟨f, ?_, .refl f⟩
    simp [ftruncate, hst, hwrites]
  | true =>
    refine ⟨f.commit sid (some st) st.node (resize (f.content st.node) len), ?_, ?_⟩
    · simp [ftruncate, hst, hwrites]
    · exact keeps_commit hst rfl

/-- Two kinds of writes: one that there is nothing of, and one that the stream accepts. -/
theorem fwrite_cases {room spill : Nat} {st : Stream Byte} (h : f.stream sid = some st)
    (hturn : st.turn ≠ .read) :
    ((bytes.isEmpty || !st.mode.writes) = true ∧
        f.fwrite sid bytes room spill = some (f, false)) ∨
      ((bytes.isEmpty || !st.mode.writes) = false ∧
        f.fwrite sid bytes room spill = some
          (f.commit sid (some (st.accept (f.content st.node) (bytes.take room) spill).1) st.node
            (st.accept (f.content st.node) (bytes.take room) spill).2,
          decide (bytes.length ≤ room))) := by
  cases hnone : (bytes.isEmpty || !st.mode.writes) with
  | true =>
    left
    simp only [fwrite, h, Option.bind_some, hnone, if_true, and_self]
  | false =>
    right
    simp only [fwrite, h, Option.bind_some, hnone, Bool.false_eq_true, if_false, hturn, and_self]

/-- The stream is open, and was not read last. -/
def Ready (f : Files Name Byte) (sid : Nat) : Prop :=
  ∃ st, f.stream sid = some st ∧ st.turn ≠ .read

omit [Zero Byte] in
theorem ready_commit {st : Stream Byte} (h : st.turn ≠ .read) :
    (f.commit sid (some st) n content).Ready sid :=
  ⟨st, Function.update_self _ _ _, h⟩

theorem Ready.fwrite {room spill : Nat} (h : f.Ready sid) :
    ∃ g done, f.fwrite sid bytes room spill = some (g, done) ∧ Keeps f g ∧ g.Ready sid := by
  obtain ⟨st, hst, hturn⟩ := id h
  rcases @fwrite_cases _ _ f sid bytes _ room spill st hst hturn with ⟨-, hf⟩ | ⟨-, hf⟩
  · exact ⟨f, false, hf, .refl f, h⟩
  · refine ⟨_, _, hf, keeps_commit hst rfl, ready_commit ?_⟩
    change Turn.written ≠ Turn.read
    decide

theorem Ready.place (h : f.Ready sid) :
    ∃ g, f.place sid pos .fresh = some g ∧ Keeps f g ∧ g.Ready sid := by
  obtain ⟨st, hst, -⟩ := h
  refine ⟨_, by rw [Files.place, hst]; rfl, ?_, ?_⟩
  · exact keeps_commit hst rfl
  · exact ready_commit (by decide : Turn.fresh ≠ Turn.read)

theorem Ready.ftruncate {len : Nat} (h : f.Ready sid) :
    ∃ g cut, f.ftruncate sid len = some (g, cut) ∧ Keeps f g ∧ g.Ready sid := by
  obtain ⟨st, hst, hturn⟩ := id h
  rw [Files.ftruncate, hst, Option.map_some]
  split
  · exact ⟨_, _, rfl, keeps_commit hst rfl, ready_commit hturn⟩
  · exact ⟨f, false, rfl, .refl f, h⟩

theorem fclose_modeOf {succeeds : Bool} {mode : Mode} (h : f.modeOf sid = some mode) :
    ∃ g, f.fclose sid succeeds = some g ∧ g.modeOf = Function.update f.modeOf sid none ∧
      g.streams = f.streams := by
  obtain ⟨st, hst, -⟩ := exists_stream h
  refine ⟨f.commit sid none st.node _, by rw [fclose, hst, Option.map_some], ?_, rfl⟩
  exact modeOf_of_stream none rfl

variable {mode : Mode}

omit [Zero Byte] in
theorem attach_modeOf : (f.attach n mode).modeOf =
    Function.update f.modeOf f.streams (some mode) :=
  modeOf_of_stream (some ⟨n, mode, _, [], .fresh⟩) rfl

variable [DecidableEq Name] {name : Name}

omit [Zero Byte] in
theorem fopen_modeOf (h : f.fopen name mode = some (g, sid)) :
    sid = f.streams ∧ g.modeOf = Function.update f.modeOf sid (some mode) ∧
      g.streams = f.streams + 1 := by
  rw [fopen] at h
  split at h
  · cases h
    exact ⟨rfl, attach_modeOf, rfl⟩
  · split at h
    · cases h
      exact ⟨rfl, attach_modeOf, rfl⟩
    · cases h

omit [Zero Byte] [DecidableEq Name] in
theorem attach_turn {st : Stream Byte} (h : (f.attach n mode).stream f.streams = some st) :
    st.turn = .fresh := by
  cases (Function.update_self f.streams _ f.stream).symm.trans h
  rfl

omit [Zero Byte] in
theorem fopen_turn {st : Stream Byte} (h : f.fopen name mode = some (g, sid))
    (hst : g.stream sid = some st) : st.turn = .fresh := by
  rw [fopen] at h
  split at h
  · cases h
    exact attach_turn hst
  · split at h
    · cases h
      exact attach_turn hst
    · cases h

/-- A file that is opened and closed again leaves the streams as they were. -/
theorem fopen_fclose_modeOf {succeeds : Bool} {g' h : Files Name Byte}
    (hopen : f.fopen name mode = some (g, sid)) (hkeeps : Keeps g g')
    (hclose : g'.fclose sid succeeds = some h) (hfree : f.modeOf f.streams = none) :
    h.modeOf = f.modeOf ∧ h.streams = f.streams + 1 := by
  obtain ⟨rfl, hmodes, hstreams⟩ := fopen_modeOf hopen
  have hopened : g'.modeOf f.streams = some mode := by
    rw [hkeeps.modes, hmodes, Function.update_self]
  obtain ⟨h', hh, hclosed, hnext⟩ := @fclose_modeOf _ _ g' f.streams _ succeeds mode hopened
  rw [hclose] at hh
  cases hh
  refine ⟨?_, hnext.trans (hkeeps.streams.trans hstreams)⟩
  rw [hclosed, hkeeps.modes, hmodes, Function.update_idem, Function.update_eq_self_iff]
  exact hfree.symm

omit [DecidableEq Name] in
theorem view_attach_r : (f.attach n .r).view f.streams = some ⟨f.content n, 0, none⟩ := by
  have hst : (f.attach n .r).stream f.streams = some ⟨n, .r, 0, [], .fresh⟩ :=
    Function.update_self _ _ _
  have hcontent : (f.attach n .r).content n = f.content n := Function.update_self _ _ _
  rw [view, hst, Option.map_some, Stream.settled, patch, hcontent]

/-- A stream that is opened for reading shows the file from its start. -/
theorem view_fopen_r (h : f.fopen name .r = some (g, sid)) :
    ∃ content, f.load name = some content ∧ g.view sid = some ⟨content, 0, none⟩ := by
  rw [fopen] at h
  split at h
  next n hn =>
    cases h
    exact ⟨f.content n, by rw [load, hn]; rfl, view_attach_r⟩
  next =>
    cases h

omit [Zero Byte] in
theorem rename_keeps (f : Files Name Byte) (old new : Name) : Keeps f (f.rename old new) := by
  rw [rename]
  split <;> exact ⟨rfl, rfl⟩

end Modes

end Files

end BufferedFiles
