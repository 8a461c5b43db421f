import LinuxBuild.BufferedFiles
import LinuxBuild.PartialSimulation
import Mathlib.Data.List.TakeDrop

/-!
# What streams keep back

Files are settled when every stream has put what it keeps into its node. As long as a stream
that writes has its node for itself, settled files answer as the files do, and the operations
lead from the one to the other.
-/
namespace BufferedFiles
open ByteStream PartialSimulation

universe u v

variable {Byte : Type v}

section Patches
variable [Zero Byte] {content bytes more : List Byte} {start : Nat}

theorem patch_eq (h : bytes ≠ []) : patch content start bytes =
    content.take start ++ List.replicate (start - content.length) 0 ++ bytes ++
      content.drop (start + bytes.length) := by
  cases bytes with
  | nil => exact absurd rfl h
  | cons b bytes => rfl

/-- Bytes that are put at the end are appended. -/
theorem patch_length : patch content content.length bytes = content ++ bytes := by
  cases bytes with
  | nil => rw [patch, List.append_nil]
  | cons b bytes =>
    rw [patch, List.take_length, Nat.sub_self, List.replicate_zero, List.append_nil,
      List.drop_of_length_le (Nat.le_add_right _ _), List.append_nil]

/-- One patch behind the other is one patch. -/
theorem patch_patch : patch (patch content start bytes) (start + bytes.length) more =
    patch content start (bytes ++ more) := by
  by_cases hb : bytes = []
  · rw [hb, patch, List.length_nil, Nat.add_zero, List.nil_append]
  by_cases hm : more = []
  · rw [hm, patch, List.append_nil]
  have hfront : (content.take start ++ List.replicate (start - content.length) 0).length =
      start := by
    rw [List.length_append, List.length_take, List.length_replicate]
    omega
  generalize hf : content.take start ++ List.replicate (start - content.length) 0 = front at hfront
  have hwhole : patch content start (bytes ++ more) =
      front ++ (bytes ++ more) ++ content.drop (start + (bytes ++ more).length) := by
    rw [patch_eq, hf]
    intro h
    exact hb (List.append_eq_nil_iff.mp h).1
  have hfirst : patch content start bytes =
      front ++ bytes ++ content.drop (start + bytes.length) := by
    rw [patch_eq hb, hf]
  have hlen : (front ++ bytes).length = start + bytes.length := by
    rw [List.length_append, hfront]
  have htake : (front ++ bytes ++ content.drop (start + bytes.length)).take
      (start + bytes.length) = front ++ bytes := by
    rw [← hlen, List.take_left]
  have hgap : start + bytes.length -
      (front ++ bytes ++ content.drop (start + bytes.length)).length = 0 := by
    rw [List.length_append, hlen]
    omega
  have hdrop : (front ++ bytes ++ content.drop (start + bytes.length)).drop
      (start + bytes.length + more.length) = content.drop (start + (bytes ++ more).length) := by
    rw [← hlen, ← List.drop_drop, List.drop_left, List.drop_drop, hlen, List.length_append,
      Nat.add_assoc]
  rw [hwhole, patch_eq hm, hfirst, htake, hgap, hdrop, List.replicate_zero, List.append_nil,
    List.append_assoc front bytes more]

end Patches

namespace Stream
variable [Zero Byte] {st : Stream Byte} {content bytes : List Byte}

/-- The stream that keeps nothing any more -/
def settle (st : Stream Byte) : Stream Byte := { st with pending := [] }

/-- The stream that keeps more bytes, and has put none of them into its node -/
def full (st : Stream Byte) (bytes : List Byte) : Stream Byte :=
  { st with pos := st.pos + bytes.length, pending := st.pending ++ bytes }

theorem settled_nil (h : st.pending = []) : st.settled content = content := by
  rw [settled, h, patch]

theorem settle_settled : st.settle.settled content = content := settled_nil rfl

theorem settled_append (st : Stream Byte) (h : st.mode.appends = true) :
    st.settled content = content ++ st.pending := by
  rw [settled, start, if_pos h, patch_length]

/-- What is put into the node at once and what is put there later are the same bytes. -/
theorem accept_settled {spill : Nat} (h : st.pending.length ≤ st.pos) :
    (st.accept content bytes spill).1.settled (st.accept content bytes spill).2 =
      (st.full bytes).settled content := by
  cases happ : st.mode.appends with
  | true =>
    have hfirst : (st.accept content bytes spill).2 =
        content ++ (st.pending ++ bytes).take spill := by
      simp only [accept, start, happ, if_true, patch_length]
    rw [(st.accept content bytes spill).1.settled_append happ, (st.full bytes).settled_append happ,
      hfirst, List.append_assoc]
    exact congrArg _ (List.take_append_drop spill (st.pending ++ bytes))
  | false =>
    have hnot : ¬ st.mode.appends = true := by simp [happ]
    have hstart : (st.accept content bytes spill).1.start (st.accept content bytes spill).2 =
        (st.full bytes).start content + ((st.pending ++ bytes).take spill).length := by
      simp only [accept, start, full, happ, Bool.false_eq_true, if_false, List.length_drop,
        List.length_take, List.length_append]
      omega
    rw [settled, hstart]
    change patch (patch content ((st.full bytes).start content)
      ((st.pending ++ bytes).take spill)) _ ((st.pending ++ bytes).drop spill) = _
    rw [patch_patch, List.take_append_drop]
    rfl

/-- Bytes that are kept may be put into the node before others come. -/
theorem full_settled (h : st.pending.length ≤ st.pos) :
    (st.settle.full bytes).settled (st.settled content) = (st.full bytes).settled content := by
  cases happ : st.mode.appends with
  | true =>
    rw [(st.settle.full bytes).settled_append happ, st.settled_append happ,
      (st.full bytes).settled_append happ, List.append_assoc]
    rfl
  | false =>
    have hstart : (st.settle.full bytes).start (st.settled content) =
        st.start content + st.pending.length := by
      simp only [start, settle, full, happ, Bool.false_eq_true, if_false, List.nil_append]
      omega
    have hfull : (st.full bytes).start content = st.start content := by
      simp only [start, full, happ, Bool.false_eq_true, if_false, List.length_append]
      omega
    rw [settled, hstart]
    change patch (patch content (st.start content) st.pending) _ bytes = _
    rw [patch_patch, settled, hfull]
    rfl

theorem accept_behind {spill : Nat} (h : st.pending.length ≤ st.pos) :
    (st.accept content bytes spill).1.pending.length ≤ (st.accept content bytes spill).1.pos := by
  change ((st.pending ++ bytes).drop spill).length ≤
    if st.mode.appends then ((st.full bytes).settled content).length else st.pos + bytes.length
  rw [List.length_drop, List.length_append]
  split
  next happ =>
    rw [(st.full bytes).settled_append happ, List.length_append]
    change _ ≤ content.length + (st.pending ++ bytes).length
    rw [List.length_append]
    omega
  next =>
    omega

/-- If all that comes is put into the node, the stream gets where it would get to otherwise. -/
theorem accept_settle {spill room : Nat} (h : st.pending.length ≤ st.pos)
    (hroom : bytes.length ≤ room) :
    st.settle.accept (st.settled content) bytes room =
      ((st.accept content bytes spill).1.settle,
        (st.accept content bytes spill).1.settled (st.accept content bytes spill).2) := by
  rw [accept_settled h, ← full_settled h]
  have hall : (st.settle.pending ++ bytes).take room = bytes := List.take_of_length_le hroom
  have hnone : (st.settle.pending ++ bytes).drop room = [] := List.drop_of_length_le hroom
  apply Prod.ext
  · simp only [accept, hnone]
    change _ = { st with pos := _, pending := [], turn := Turn.written }
    congr 1
    change (if st.mode.appends then ((st.settle.full bytes).settled (st.settled content)).length
      else st.pos + bytes.length) =
        if st.mode.appends then ((st.full bytes).settled content).length else st.pos + bytes.length
    rw [full_settled h]
  · simp only [accept, hall]
    rfl

end Stream

namespace Files
variable {Name : Type u} [Zero Byte] {f g : Files Name Byte} {sid n : Nat}

/-- No stream writes to the node. -/
def Quiet (f : Files Name Byte) (n : Nat) : Prop :=
  ∀ sid st, f.stream sid = some st → st.node = n → st.mode.writes = false

/-- A stream may be opened: it does not meet another one, or none of them writes. -/
def Free (f : Files Name Byte) (n : Nat) (mode : Mode) : Prop :=
  ∀ sid st, f.stream sid = some st → st.node = n → st.mode.writes = false ∧ mode.writes = false

/-- Streams that write have their nodes for themselves, and only they keep bytes. -/
structure Apart (f : Files Name Byte) : Prop where
  alone : ∀ {sid other st st'}, f.stream sid = some st → f.stream other = some st' →
    st'.node = st.node → st.mode.writes = true → other = sid
  kept : ∀ {sid st}, f.stream sid = some st → st.mode.writes = false → st.pending = []
  behind : ∀ {sid st}, f.stream sid = some st → st.pending.length ≤ st.pos
  stream_lt : ∀ {sid st}, f.stream sid = some st → sid < f.streams
  stream_node_lt : ∀ {sid st}, f.stream sid = some st → st.node < f.nodes
  node_lt : ∀ {name n}, f.node name = some n → n < f.nodes

/-- `g` is what `f` comes to when every stream puts into its node what it keeps. -/
structure Settles (f g : Files Name Byte) : Prop where
  apart : Apart f
  node : g.node = f.node
  nodes : g.nodes = f.nodes
  streams : g.streams = f.streams
  stream : ∀ sid, g.stream sid = (f.stream sid).map Stream.settle
  content : ∀ {sid st}, f.stream sid = some st →
    g.content st.node = st.settled (f.content st.node)
  rest : ∀ {n}, f.Quiet n → g.content n = f.content n

namespace Settles

theorem stream_some {st : Stream Byte} (h : Settles f g) (hst : f.stream sid = some st) :
    g.stream sid = some st.settle := by
  rw [h.stream, hst, Option.map_some]

/-- Settled files look the same through every stream. -/
theorem view (h : Settles f g) : g.view sid = f.view sid := by
  cases hst : f.stream sid with
  | none =>
    rw [Files.view, Files.view, h.stream, hst]
    rfl
  | some st =>
    rw [Files.view, Files.view, h.stream_some hst, hst, Option.map_some, Option.map_some,
      Stream.settle_settled]
    change some (⟨g.content st.node, st.pos, none⟩ : File Byte) = _
    rw [h.content hst]

theorem load {name : Name} (h : Settles f g) (hquiet : ∀ n, f.node name = some n → f.Quiet n) :
    g.load name = f.load name := by
  rw [Files.load, Files.load, h.node]
  cases hn : f.node name with
  | none => rfl
  | some n => exact congrArg some (h.rest (hquiet n hn))

omit [Zero Byte] in
/-- The streams when one was put in: that one, and the others as they were. -/
theorem update_cases {stream : Nat → Option (Stream Byte)} {st st' : Stream Byte} {other : Nat}
    (h : Function.update stream sid (some st) other = some st') :
    (other = sid ∧ st' = st) ∨ (other ≠ sid ∧ stream other = some st') := by
  by_cases heq : other = sid
  · left
    rw [heq, Function.update_self] at h
    cases h
    exact ⟨heq, rfl⟩
  · right
    rw [Function.update_of_ne heq] at h
    exact ⟨heq, h⟩

/-- A stream is put at a node, with a content that its own bytes lead to on the other side. The
streams that stand there as well do not write, and neither does it then. -/
theorem put {st : Stream Byte} {content content' : List Byte} {k : Nat} (h : Settles f g)
    (hothers : ∀ other st', other ≠ sid → f.stream other = some st' → st'.node = st.node →
      st'.mode.writes = false ∧ st.mode.writes = false)
    (hwas : ∀ st', f.stream sid = some st' → st'.node = st.node)
    (hnode : st.node < f.nodes) (hsid : sid < k) (hk : f.streams ≤ k)
    (hkept : st.mode.writes = false → st.pending = []) (hbehind : st.pending.length ≤ st.pos)
    (hcontent : content' = st.settled content) :
    Settles { f.commit sid (some st) st.node content with streams := k }
      { g.commit sid (some st.settle) st.node content' with streams := k } where
  apart := by
    constructor
    case alone =>
      intro sid₁ sid₂ st₁ st₂ h₁ h₂ hnodes hwrites
      rcases update_cases h₁ with ⟨hsid₁, hst₁⟩ | ⟨hne₁, hst₁⟩ <;>
        rcases update_cases h₂ with ⟨hsid₂, hst₂⟩ | ⟨hne₂, hst₂⟩
      · exact hsid₂.trans hsid₁.symm
      · rw [hst₁] at hnodes hwrites
        have hno := (hothers sid₂ st₂ hne₂ hst₂ hnodes).2
        rw [hwrites] at hno
        contradiction
      · rw [hst₂] at hnodes
        have hno := (hothers sid₁ st₁ hne₁ hst₁ hnodes.symm).1
        rw [hwrites] at hno
        contradiction
      · exact h.apart.alone hst₁ hst₂ hnodes hwrites
    case kept =>
      intro sid₁ st₁ h₁ hwrites
      rcases update_cases h₁ with ⟨-, rfl⟩ | ⟨-, h₁⟩
      · exact hkept hwrites
      · exact h.apart.kept h₁ hwrites
    case behind =>
      intro sid₁ st₁ h₁
      rcases update_cases h₁ with ⟨-, rfl⟩ | ⟨-, h₁⟩
      · exact hbehind
      · exact h.apart.behind h₁
    case stream_lt =>
      intro sid₁ st₁ h₁
      rcases update_cases h₁ with ⟨rfl, -⟩ | ⟨-, h₁⟩
      · exact hsid
      · exact Nat.lt_of_lt_of_le (h.apart.stream_lt h₁) hk
    case stream_node_lt =>
      intro sid₁ st₁ h₁
      rcases update_cases h₁ with ⟨-, rfl⟩ | ⟨-, h₁⟩
      · exact hnode
      · exact h.apart.stream_node_lt h₁
    case node_lt =>
      exact fun hn => h.apart.node_lt hn
  node := h.node
  nodes := h.nodes
  streams := rfl
  stream other := by
    change Function.update g.stream sid _ other =
      (Function.update f.stream sid _ other).map Stream.settle
    by_cases heq : other = sid
    · rw [heq, Function.update_self, Function.update_self, Option.map_some]
    · rw [Function.update_of_ne heq, Function.update_of_ne heq, h.stream]
  content := by
    intro other st' hst'
    change Function.update g.content st.node content' st'.node =
      st'.settled (Function.update f.content st.node content st'.node)
    rcases update_cases hst' with ⟨-, rfl⟩ | ⟨hne, hst'⟩
    · rw [Function.update_self, Function.update_self, hcontent]
    · by_cases heq : st'.node = st.node
      · obtain ⟨hno', hno⟩ := hothers other st' hne hst' heq
        rw [heq, Function.update_self, Function.update_self, hcontent,
          Stream.settled_nil (hkept hno), Stream.settled_nil (h.apart.kept hst' hno')]
      · rw [Function.update_of_ne heq, Function.update_of_ne heq, h.content hst']
  rest := by
    intro n hquiet
    change Function.update g.content st.node content' n =
      Function.update f.content st.node content n
    by_cases heq : n = st.node
    · have hno : st.mode.writes = false :=
        hquiet sid st (Function.update_self _ _ _) heq.symm
      rw [heq, Function.update_self, Function.update_self, hcontent,
        Stream.settled_nil (hkept hno)]
    · rw [Function.update_of_ne heq, Function.update_of_ne heq]
      apply h.rest
      intro other st' hst' hn
      by_cases hsame : other = sid
      · rw [hsame] at hst'
        exact absurd (hn.symm.trans (hwas st' hst')) heq
      · apply hquiet other st' _ hn
        change Function.update f.stream sid _ other = some st'
        rw [Function.update_of_ne hsame, hst']

/-- A stream that is open is replaced by one of its kind. -/
theorem commit {st st₂ : Stream Byte} {content content' : List Byte} (h : Settles f g)
    (hst : f.stream sid = some st) (hnode : st₂.node = st.node) (hmode : st₂.mode = st.mode)
    (hkept : st.mode.writes = false → st₂.pending = [])
    (hbehind : st₂.pending.length ≤ st₂.pos) (hcontent : content' = st₂.settled content) :
    Settles (f.commit sid (some st₂) st.node content)
      (g.commit sid (some st₂.settle) st.node content') := by
  have hput : Settles { f.commit sid (some st₂) st₂.node content with streams := f.streams }
      { g.commit sid (some st₂.settle) st₂.node content' with streams := f.streams } := by
    apply h.put
    · intro other st' hne hst' heq
      rw [hmode]
      have hsame : st.node = st'.node := hnode.symm.trans heq.symm
      constructor
      · apply Bool.eq_false_iff.mpr
        intro hwrites
        exact hne (h.apart.alone hst' hst hsame hwrites).symm
      · apply Bool.eq_false_iff.mpr
        intro hwrites
        exact hne (h.apart.alone hst hst' hsame.symm hwrites)
    · intro st' hst'
      cases hst.symm.trans hst'
      exact hnode.symm
    · rw [hnode]
      exact h.apart.stream_node_lt hst
    · exact h.apart.stream_lt hst
    · exact Nat.le_refl _
    · rw [hmode]
      exact hkept
    · exact hbehind
    · exact hcontent
  have hback : { g.commit sid (some st₂.settle) st.node content' with streams := f.streams } =
      g.commit sid (some st₂.settle) st.node content' := by
    rw [← h.streams]
    rfl
  rw [hnode, hback] at hput
  exact hput

/-- A stream that keeps nothing can go. -/
theorem drop {st : Stream Byte} (h : Settles f g) (hst : f.stream sid = some st)
    (hpending : st.pending = []) :
    Settles { f with stream := Function.update f.stream sid none }
      { g with stream := Function.update g.stream sid none } := by
  have hothers : ∀ {other st'}, Function.update f.stream sid none other = some st' →
      other ≠ sid ∧ f.stream other = some st' := by
    intro other st' h'
    by_cases heq : other = sid
    · rw [heq, Function.update_self] at h'
      contradiction
    · rw [Function.update_of_ne heq] at h'
      exact ⟨heq, h'⟩
  constructor
  case apart =>
    constructor
    · intro sid₁ sid₂ st₁ st₂ h₁ h₂
      exact h.apart.alone (hothers h₁).2 (hothers h₂).2
    · exact fun h' => h.apart.kept (hothers h').2
    · exact fun h' => h.apart.behind (hothers h').2
    · exact fun h' => h.apart.stream_lt (hothers h').2
    · exact fun h' => h.apart.stream_node_lt (hothers h').2
    · exact h.apart.node_lt
  case node => exact h.node
  case nodes => exact h.nodes
  case streams => exact h.streams
  case stream =>
    intro other
    change Function.update g.stream sid none other =
      (Function.update f.stream sid none other).map Stream.settle
    by_cases heq : other = sid
    · rw [heq, Function.update_self, Function.update_self, Option.map_none]
    · rw [Function.update_of_ne heq, Function.update_of_ne heq, h.stream]
  case content => exact fun h' => h.content (hothers h').2
  case rest =>
    intro n hquiet
    by_cases hn : st.node = n
    · rw [← hn]
      change g.content st.node = f.content st.node
      rw [h.content hst, Stream.settled_nil hpending]
    · apply h.rest
      intro other st' hst' heq
      by_cases hsame : other = sid
      · rw [hsame] at hst'
        cases hst.symm.trans hst'
        contradiction
      · apply hquiet other st' _ heq
        change Function.update f.stream sid none other = some st'
        rw [Function.update_of_ne hsame, hst']

theorem place {pos : Nat} {turn : Turn} (h : Settles f g) :
    Sim Settles (f.place sid pos turn) (g.place sid pos turn) := by
  cases hst : f.stream sid with
  | none =>
    rw [Files.place, hst]
    exact sim_none
  | some st =>
    rw [Files.place, Files.place, hst, h.stream_some hst]
    apply sim_some
    change Settles _ (g.commit sid _ st.node (st.settle.settled (g.content st.node)))
    rw [Stream.settle_settled, h.content hst]
    apply h.commit hst
    · rfl
    · rfl
    · exact fun _ => rfl
    · exact Nat.zero_le _
    · rfl

/-- What a stream kept back is there when it closes. -/
theorem fclose (h : Settles f g) : Sim Settles (f.fclose sid true) (g.fclose sid true) := by
  cases hst : f.stream sid with
  | none =>
    rw [Files.fclose, hst]
    exact sim_none
  | some st =>
    rw [Files.fclose, Files.fclose, hst, h.stream_some hst]
    apply sim_some
    change Settles (f.commit sid none st.node (st.settled (f.content st.node)))
      (g.commit sid none st.node (st.settle.settled (g.content st.node)))
    rw [Stream.settle_settled, h.content hst]
    have hplaced : Settles (f.commit sid (some st.settle) st.node (st.settled (f.content st.node)))
        (g.commit sid (some st.settle) st.node (st.settled (f.content st.node))) :=
      h.commit hst rfl rfl (fun _ => rfl) (Nat.zero_le _) rfl
    have hdropped := hplaced.drop (Function.update_self _ _ _) rfl
    simpa only [Files.commit, Function.update_idem] using hdropped

/-- However much of a write goes to the node at once -/
theorem fwrite {bytes : List Byte} {room spill : Nat} (h : Settles f g) :
    Sim (fun a b => Settles a.1 b.1 ∧ b.2 = a.2) (f.fwrite sid bytes room spill)
      (g.fwrite sid bytes room room) := by
  cases hst : f.stream sid with
  | none =>
    rw [Files.fwrite, hst]
    exact sim_none
  | some st =>
    rw [Files.fwrite, Files.fwrite, hst, h.stream_some hst, Option.bind_some, Option.bind_some]
    change Sim _ _ (if bytes.isEmpty || !st.mode.writes then _
      else if st.turn = .read then _ else _)
    apply sim_ite
    · intro _
      exact sim_some ⟨h, rfl⟩
    intro hsome
    have hwrites : ¬ st.mode.writes = false := by
      intro hno
      exact hsome (by simp [hno])
    apply sim_ite
    · intro _
      exact sim_none
    intro _
    apply sim_some
    refine ⟨?_, rfl⟩
    have hbehind := h.apart.behind hst
    change Settles _ (g.commit sid
      (some (st.settle.accept (g.content st.node) (bytes.take room) room).1) st.node
      (st.settle.accept (g.content st.node) (bytes.take room) room).2)
    rw [h.content hst, Stream.accept_settle hbehind (List.length_take_le room bytes)]
    apply h.commit hst
    · rfl
    · rfl
    · exact fun hno => absurd hno hwrites
    · exact Stream.accept_behind hbehind
    · rfl

theorem ftruncate {len : Nat} (h : Settles f g)
    (hpending : ∀ st, f.stream sid = some st → st.pending = []) :
    Sim (fun a b => Settles a.1 b.1 ∧ b.2 = a.2) (f.ftruncate sid len) (g.ftruncate sid len) := by
  cases hst : f.stream sid with
  | none =>
    rw [Files.ftruncate, hst]
    exact sim_none
  | some st =>
    rw [Files.ftruncate, Files.ftruncate, hst, h.stream_some hst]
    cases hwrites : st.mode.writes with
    | false =>
      have hwrites' : st.settle.mode.writes = false := hwrites
      rw [Option.map_some, Option.map_some, hwrites, hwrites', if_neg Bool.false_ne_true,
        if_neg Bool.false_ne_true]
      exact sim_some ⟨h, rfl⟩
    | true =>
      have hwrites' : st.settle.mode.writes = true := hwrites
      rw [Option.map_some, Option.map_some, hwrites, hwrites', if_pos rfl, if_pos rfl]
      apply sim_some
      refine ⟨?_, rfl⟩
      have hnone := hpending st hst
      have hcut : resize (g.content st.node) len = st.settled (resize (f.content st.node) len) := by
        rw [h.content hst, Stream.settled_nil hnone, Stream.settled_nil hnone]
      apply h.commit hst
      · rfl
      · rfl
      · exact fun _ => hnone
      · exact h.apart.behind hst
      · exact hcut

omit [Zero Byte] in
/-- The files may have other names as long as these lead to nodes. -/
theorem renamed [Zero Byte] {node : Name → Option Nat} (h : Settles f g)
    (hlt : ∀ {name n}, node name = some n → n < f.nodes) :
    Settles { f with node := node } { g with node := node } where
  apart := ⟨h.apart.alone, h.apart.kept, h.apart.behind, h.apart.stream_lt,
    h.apart.stream_node_lt, hlt⟩
  node := rfl
  nodes := h.nodes
  streams := h.streams
  stream := h.stream
  content := h.content
  rest := h.rest

theorem attach {mode : Mode} (h : Settles f g) (hn : n < f.nodes) (hfree : f.Free n mode) :
    Settles (f.attach n mode) (g.attach n mode) := by
  have hsame : g.content n = f.content n :=
    h.rest fun sid st hst heq => (hfree sid st hst heq).1
  rw [Files.attach, Files.attach, hsame, h.streams]
  apply h.put
  · intro other st' _ hst' heq
    exact hfree other st' hst' heq
  · intro st' hst'
    exact absurd (h.apart.stream_lt hst') (Nat.lt_irrefl _)
  · exact hn
  · exact Nat.lt_succ_self _
  · exact Nat.le_succ _
  · exact fun _ => rfl
  · exact Nat.zero_le _
  · rfl

section Names
variable [DecidableEq Name] {name old new : Name} {mode : Mode}

theorem unlink (h : Settles f g) : Settles (f.unlink name) (g.unlink name) := by
  rw [Files.unlink, Files.unlink, h.node]
  apply h.renamed
  intro other n hn
  by_cases heq : other = name
  · rw [heq, Function.update_self] at hn
    contradiction
  · rw [Function.update_of_ne heq] at hn
    exact h.apart.node_lt hn

theorem rename (h : Settles f g) : Settles (f.rename old new) (g.rename old new) := by
  rw [Files.rename, Files.rename, h.node]
  split
  · exact h
  · apply h.renamed
    intro other n hn
    by_cases hold : other = old
    · rw [hold, Function.update_self] at hn
      contradiction
    rw [Function.update_of_ne hold] at hn
    by_cases hnew : other = new
    · rw [hnew, Function.update_self] at hn
      exact h.apart.node_lt hn
    · rw [Function.update_of_ne hnew] at hn
      exact h.apart.node_lt hn

theorem create (h : Settles f g) : Settles (f.create name) (g.create name) := by
  have hold : ∀ {sid st}, f.stream sid = some st → st.node ≠ f.nodes := by
    intro sid st hst
    exact Nat.ne_of_lt (h.apart.stream_node_lt hst)
  rw [Files.create, Files.create, h.node, h.nodes]
  constructor
  case apart =>
    constructor
    · exact h.apart.alone
    · exact h.apart.kept
    · exact h.apart.behind
    · exact h.apart.stream_lt
    · exact fun hst => Nat.lt_succ_of_lt (h.apart.stream_node_lt hst)
    · intro other n hn
      change Function.update f.node name (some f.nodes) other = some n at hn
      change n < f.nodes + 1
      by_cases heq : other = name
      · rw [heq, Function.update_self] at hn
        cases hn
        exact Nat.lt_succ_self _
      · rw [Function.update_of_ne heq] at hn
        exact Nat.lt_succ_of_lt (h.apart.node_lt hn)
  case node => rfl
  case nodes => rfl
  case streams => exact h.streams
  case stream => exact h.stream
  case content =>
    intro sid st hst
    change Function.update g.content f.nodes [] st.node =
      st.settled (Function.update f.content f.nodes [] st.node)
    rw [Function.update_of_ne (hold hst), Function.update_of_ne (hold hst), h.content hst]
  case rest =>
    intro n hquiet
    change Function.update g.content f.nodes [] n = Function.update f.content f.nodes [] n
    by_cases heq : n = f.nodes
    · rw [heq, Function.update_self, Function.update_self]
    · rw [Function.update_of_ne heq, Function.update_of_ne heq, h.rest hquiet]

/-- A file is opened on both sides, or on none. -/
theorem fopen (h : Settles f g) (hfree : ∀ n, f.node name = some n → f.Free n mode) :
    (f.fopen name mode = none ∧ g.fopen name mode = none) ∨
      ∃ f' g' sid, f.fopen name mode = some (f', sid) ∧ g.fopen name mode = some (g', sid) ∧
        Settles f' g' := by
  rw [Files.fopen, Files.fopen, h.node]
  cases hn : f.node name with
  | some n =>
    right
    refine ⟨f.attach n mode, g.attach n mode, f.streams, rfl, ?_, ?_⟩
    · rw [← h.streams]
    · exact h.attach (h.apart.node_lt hn) (hfree n hn)
  | none =>
    cases hcreates : mode.creates with
    | false => exact Or.inl ⟨rfl, rfl⟩
    | true =>
      right
      refine ⟨(f.create name).attach f.nodes mode, (g.create name).attach f.nodes mode, f.streams,
        rfl, ?_, ?_⟩
      · rw [if_pos rfl, h.nodes, h.streams]
      · apply h.create.attach (Nat.lt_succ_self _)
        intro sid st hst heq
        exact absurd heq (Nat.ne_of_lt (h.apart.stream_node_lt hst))

end Names

end Settles

end Files

end BufferedFiles
