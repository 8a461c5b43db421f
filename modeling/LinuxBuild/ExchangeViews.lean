import LinuxBuild.ContentLedger
import LinuxBuild.ResponseText

/-!
# Two views of a OneOS exchange

One model of the exchange follows the content of the request, the other the text of the
response. They have the handles and the state of the back end in common, and keep them in
step.
-/
namespace ExchangeViews
open BackendTypes ContentLedger CString HttpHandles LbsApi OneosposBackend ResponseText

/-- The handles and the state that both models have. -/
structure SameExchange (c : Contents) (s : OneosposState) (a : Http) : Prop where
  handles : c.handles = a.handles
  waiting : s.busy = a.waiting
  callbackState : s.callbackState = a.callbackState

variable {c c' : Contents} {s s' : OneosposState} {a a' : Http} {pid : Option CStr}
  {ue : OneosposUeInfo} {env : OneosposEnv} {client : OneosposClient} {t : Transfer}
  {outcome : OneosposOutcome} {text : Option CStr}

theorem start_sameExchange : SameExchange startContents .init Http.init := ⟨rfl, rfl, rfl⟩

theorem rspBackup_callbackState {rsp : OneosposParse.OneosposLocationRsp} :
    (rspBackup env s rsp).callbackState = s.callbackState := by
  simp only [rspBackup]
  split_ifs <;> rfl

/-- The content event of a response keeps the two in step. -/
theorem rspContent_sameExchange {call : Option OneosposCall} {locationRsp : Bool} {m : Memory}
    {p : Option ByteHeap.Addr} (hbusy : s.busy = true) (hstate : s.callbackState = a.callbackState)
    (hwaiting : a.waiting = true) (hcall : OneosposBackend.rspContent s env = some (s', call))
    (hreleased : (if s.callbackState then some a.handles else a.handles.release) =
      some c'.handles)
    (htext : oneosposRspContent a locationRsp m p = some (a', text)) :
    SameExchange c' s' a' := by
  simp only [OneosposBackend.rspContent] at hcall
  simp only [oneosposRspContent, ← hstate] at htext
  split_ifs at hcall hreleased htext
  · cases hcall
    cases htext
    exact ⟨(Option.some.inj hreleased).symm, hbusy.trans hwaiting.symm, hstate⟩
  · obtain ⟨o, -, htext⟩ := Option.bind_eq_some_iff.mp htext
    obtain ⟨handles, hhandles, htext⟩ := Option.bind_eq_some_iff.mp htext
    obtain ⟨record, -, hcall⟩ := Option.bind_eq_some_iff.mp hcall
    obtain ⟨rsp, -, hcall⟩ := Option.bind_eq_some_iff.mp hcall
    cases htext
    cases hcall
    constructor
    · exact Option.some.inj (hreleased.symm.trans hhandles)
    · rw [rspBackup_busy]
      exact hbusy.trans hwaiting.symm
    · exact rspBackup_callbackState

theorem requestFails_eq_some (h : requestFails a = some (a', text)) :
    a.handles.release = some a'.handles ∧ a'.waiting = a.waiting ∧
      a'.callbackState = a.callbackState := by
  obtain ⟨handles, hrelease, h⟩ := Option.bind_eq_some_iff.mp h
  cases h
  exact ⟨hrelease, rfl, rfl⟩

/-- A post of the text's view that comes to its end has come to its content event, or has
failed. -/
theorem oneosposHttpPost_cases (h : oneosposHttpPost a t = some (a', text)) :
    ∃ handles posted,
      oneosposPost a.handles t.post (rspDataAddress t) = some (handles, posted) ∧
      if posted then ∃ m p, oneosposRspContent { a with handles := handles, waiting := true }
          t.locationRsp m p = some (a', text)
        else requestFails { a with handles := handles } = some (a', text) := by
  obtain ⟨⟨handles, added⟩, hadd, h⟩ := Option.bind_eq_some_iff.mp h
  refine ⟨handles, added && t.post.ok .perform, ?_, ?_⟩
  · rw [oneosposPost, hadd]
    rfl
  cases added with
  | false => exact h
  | true =>
    obtain ⟨m, -, h⟩ := Option.bind_eq_some_iff.mp h
    rw [Bool.true_and]
    cases hperform : t.post.ok .perform with
    | false =>
      rw [hperform] at h
      exact h
    | true =>
      rw [hperform] at h
      obtain ⟨address, -, h⟩ := Option.bind_eq_some_iff.mp h
      obtain ⟨rspData, -, h⟩ := Option.bind_eq_some_iff.mp h
      exact ⟨m, rspData.data, h⟩

/-- A request that both models take to its end keeps them in step. -/
theorem location_sameExchange (hsame : SameExchange c s a) (hreach : Reached s pid ue env client)
    (hlocation : location c s pid ue env t.post (rspDataAddress t) = some (c', s', outcome))
    (hhttp : httpStep .oneospos a (.request t) = some (a', text)) : SameExchange c' s' a' := by
  have hwaiting : a.waiting = false := hsame.waiting.symm.trans hreach.free
  simp only [httpStep, hwaiting, Bool.false_eq_true, if_false] at hhttp
  obtain ⟨handles, posted, hpost, hhttp⟩ := oneosposHttpPost_cases hhttp
  rw [location_of_reached hreach] at hlocation
  obtain ⟨⟨d, u, o⟩, hasyn, hafter⟩ := Option.map_eq_some_iff.mp hlocation
  obtain ⟨-, -, hend⟩ := asynlocation_cases hasyn
  cases hend with
  | answered hpost' _ hcall hrelease =>
    rw [hsame.handles, hpost] at hpost'
    cases hpost'
    cases hafter
    obtain ⟨m, p, hhttp⟩ := hhttp
    have hstate : (sending env s pid ue client).callbackState =
      ({ a with handles := handles, waiting := true } : Http).callbackState := hsame.callbackState
    exact rspContent_sameExchange rfl hstate rfl hcall hrelease hhttp
  | failed hpost' hrelease =>
    rw [hsame.handles, hpost] at hpost'
    cases hpost'
    cases hafter
    obtain ⟨hhandles, hfree, hstate⟩ := requestFails_eq_some hhttp
    constructor
    · exact Option.some.inj (hrelease.symm.trans hhandles)
    · exact (hfree.trans hwaiting).symm
    · exact hsame.callbackState.trans hstate.symm

/-- So does the end of a response. -/
theorem rspEnd_sameExchange (hsame : SameExchange c s a)
    (hend : ContentLedger.rspEnd c s = some (c', s', outcome))
    (hhttp : httpStep .oneospos a .rspEnd = some (a', text)) : SameExchange c' s' a' := by
  simp only [httpStep, ResponseText.rspEnd] at hhttp
  split_ifs at hhttp
  obtain ⟨handles, hhandles, hhttp⟩ := Option.bind_eq_some_iff.mp hhttp
  cases hhttp
  obtain ⟨⟨u, o⟩, hback, hend⟩ := Option.bind_eq_some_iff.mp hend
  obtain ⟨released, hreleased, hend⟩ := Option.bind_eq_some_iff.mp hend
  cases hend
  simp only [OneosposBackend.rspEnd] at hback
  split at hback
  · cases hback
  · cases hback
    constructor
    · have hrelease := (httpRelease_eq_some hreleased).1
      rw [hsame.handles] at hrelease
      exact Option.some.inj (hrelease.symm.trans hhandles)
    · rfl
    · rfl

end ExchangeViews
