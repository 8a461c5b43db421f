import LinuxBuild.LbsTypes

/-!
# What the two location back ends have in common

Both compare a request with the last one that was sent, serve it from a cached
location or send it, and hear of the response in a callback.
-/
namespace BackendTypes
open CString LbsTypes

/-- `cm_service_cell_info_t` -/
structure CellInfo where
  lac : CStr
  cellid : CStr
  mcc : Int32
  mnc : Int32
  signal : Int32
  deriving DecidableEq

/-- The UE information that the comparison of requests goes through. -/
structure UeKey where
  imei : CStr
  imsi : CStr
  cellInfo : CellInfo
  nearbts : Option CStr
  deriving DecidableEq

/-- A static pointer that is not reset when what it points to is freed. -/
inductive Pointer (α : Type) where
  | null
  | valid (v : α)
  | freed
  deriving DecidableEq

/-- The pointer when the old object is freed and the new one takes its place. -/
def Pointer.replace {α : Type} (old : Pointer α) : Option α → Pointer α
  | some v => .valid v
  | none =>
    match old with
    | .null => .null
    | _ => .freed

def Pointer.ofOption {α : Type} : Option α → Pointer α
  | some v => .valid v
  | none => .null

/-- The saved UE information of a request; its neighbour cells may have been freed. -/
structure SavedUe where
  imei : CStr
  imsi : CStr
  cellInfo : CellInfo
  nearbts : Pointer CStr
  deriving DecidableEq

/-- The UE information saved with all its strings. -/
def savedUe (ue : UeKey) : SavedUe := ⟨ue.imei, ue.imsi, ue.cellInfo, .ofOption ue.nearbts⟩

theorem savedUe_injective {ue ue' : UeKey} (h : savedUe ue = savedUe ue') : ue = ue' := by
  rcases ue with ⟨imei, imsi, cellInfo, nearbts⟩
  rcases ue' with ⟨imei', imsi', cellInfo', nearbts'⟩
  cases nearbts <;> cases nearbts' <;> simp_all [savedUe, Pointer.ofOption]

/-- Two texts are compared if neither pointer is `NULL`. -/
def sameNearbts (old : Pointer CStr) (new : Option CStr) : Option Bool :=
  match old, new with
  | .valid old, some new => some (old = new)
  | .freed, some _ => none
  | .null, none => some true
  | _, _ => some false

/-- The comparison of the UE information of the last request with that of a new one. -/
def compareUe (last : Pointer SavedUe) (ue : UeKey) : Option LbsState :=
  match last with
  | .null => some .err
  | .freed => none
  | .valid old =>
    if old.imei = ue.imei ∧ old.imsi = ue.imsi ∧ old.cellInfo.lac = ue.cellInfo.lac ∧
        old.cellInfo.cellid = ue.cellInfo.cellid then do
      let same ← sameNearbts old.nearbts ue.nearbts
      some (if same ∧ old.cellInfo.mcc = ue.cellInfo.mcc ∧ old.cellInfo.mnc = ue.cellInfo.mnc ∧
        old.cellInfo.signal = ue.cellInfo.signal then .ok else .err)
    else some .err

theorem sameNearbts_eq_true_iff {old : Pointer CStr} {new : Option CStr} :
    sameNearbts old new = some true ↔ old = .ofOption new := by
  cases old <;> cases new <;> simp [sameNearbts, Pointer.ofOption]

theorem compareUe_eq_ok_iff {last : Pointer SavedUe} {ue : UeKey} :
    compareUe last ue = some .ok ↔ last = .valid (savedUe ue) := by
  constructor
  · intro h
    simp only [compareUe] at h
    split at h
    · cases h
    · cases h
    rename_i old
    split_ifs at h with hnames
    · obtain ⟨same, hsame, h⟩ := Option.bind_eq_some_iff.mp h
      split_ifs at h with hcell
      · obtain ⟨himei, himsi, hlac, hcellid⟩ := hnames
        obtain ⟨rfl, hmcc, hmnc, hsignal⟩ := hcell
        have hnearbts := sameNearbts_eq_true_iff.mp hsame
        rcases old with ⟨imei, imsi, ⟨lac, cellid, mcc, mnc, signal⟩, nearbts⟩
        rcases ue with ⟨imei', imsi', ⟨lac', cellid', mcc', mnc', signal'⟩, nearbts'⟩
        simp_all [savedUe]
      · cases h
    · cases h
  · rintro rfl
    have hsame : sameNearbts (Pointer.ofOption ue.nearbts) ue.nearbts = some true :=
      sameNearbts_eq_true_iff.mpr rfl
    simp [compareUe, savedUe, hsame]

/-- How a request ends: `cached` with the record in the cache and the copy of it that
the callback is given, `failed` without a response. -/
inductive Outcome (Rsp Call : Type) where
  | busy
  | cached (old rsp : Rsp)
  | noClient (ret : LbsState)
  | failed (ret : LbsState)
  | response (call : Option Call)
  | ended

/-- What the location function of the back end returns. -/
def Outcome.ret {Rsp Call : Type} : Outcome Rsp Call → LbsState
  | .busy => .busy
  | .noClient ret => ret
  | .failed ret => ret
  | .cached _ _ | .response _ | .ended => .ok

/-- The call of the request's callback on the way, where `hit` is the call with a
cached location. -/
def Outcome.call {Rsp Call : Type} (hit : Rsp → Call) : Outcome Rsp Call → Option Call
  | .cached _ rsp => some (hit rsp)
  | .response call => call
  | .busy | .noClient _ | .failed _ | .ended => none

/-- The time for which a location may be served from the cache, in seconds. -/
def rspValidTime : Int := 7200

/-- `timeDif < 0 || timeDif > 2 * 60 * 60`. Both readings of the clock are kept in an `int`,
where neither is negative before the year 2038; so their difference is the one of the code. -/
def expired (now stored : Int) : Bool := now - stored < 0 || rspValidTime < now - stored

theorem not_expired {now stored : Int} (h : ¬ expired now stored = true) :
    0 ≤ now - stored ∧ now - stored ≤ rspValidTime := by
  simp only [expired, Bool.or_eq_true, decide_eq_true_eq, not_or] at h
  omega

end BackendTypes
