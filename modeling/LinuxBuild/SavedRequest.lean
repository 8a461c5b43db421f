import LinuxBuild.AmapBackend
import LinuxBuild.OneosposBackend

/-!
# What the comparison remembers of a saved request

Each back end saves the request that it sends and compares the next one with it. An
absent string of the new request leaves the saved one alone, and a copied UE information
has more in `nearbts` than the neighbour cells, or less.
-/
namespace SavedRequest
open CString LbsTypes BackendTypes AmapRequest

section LastValue
variable {σ ρ β : Type*} {get : σ → Option β} {key : ρ → Option β} {save : σ → ρ → σ}

/-- A value that is only replaced by present ones is absent as long as none was. -/
theorem foldl_eq_none_iff (hsave : ∀ s r, get (save s r) = (key r <|> get s)) (s : σ)
    (history : List ρ) :
    get (history.foldl save s) = none ↔ get s = none ∧ ∀ r ∈ history, key r = none := by
  induction history generalizing s with
  | nil => simp
  | cons r history ih =>
    rw [List.foldl_cons, ih, hsave, List.forall_mem_cons]
    cases key r <;> simp

theorem orElse_eq_left_iff {a b : Option β} : (a <|> b) = a ↔ (a = none → b = none) := by
  cases a <;> simp

end LastValue

section Amap

/-- A request saved with enough memory. -/
structure AmapSave where
  auth : AmapAuthentication
  ue : AmapUeInfo
  env : AmapBackend.AmapEnv
  lastKey : env.lastKey = true
  lastSignkey : env.lastSignkey = true
  lastUeinfo : env.lastUeinfo = true
  lastUe : env.lastUe = ⟨true, true, true⟩

def AmapSave.run (s : AmapBackend.AmapState) (r : AmapSave) : AmapBackend.AmapState :=
  AmapBackend.saveRequest r.env s r.auth r.ue

def amapSaved (history : List AmapSave) : AmapBackend.AmapState :=
  history.foldl AmapSave.run .init

/-- The request agrees with `r` in everything that is compared. -/
structure AmapSame (r : AmapSave) (auth : AmapAuthentication) (ue : AmapUeInfo) : Prop where
  ue : AmapBackend.amapUeKey ue = AmapBackend.amapUeKey r.ue
  apikey : auth.apikey = r.auth.apikey
  digitalSignKey : auth.digitalSignKey = r.auth.digitalSignKey
  showFieldsEnable : auth.showFieldsEnable = r.auth.showFieldsEnable
  digitalSignEnable : auth.digitalSignEnable = r.auth.digitalSignEnable

/-- The pointer that stands in `nearbts` after a copy. -/
def copiedNearbts (ue : AmapUeInfo) : Option CStr := ue.networkType <|> ue.serverIp <|> ue.nearbts

/-- Nothing else was copied into `nearbts`, and no key of an earlier request shows
through. -/
def AmapKept (history : List AmapSave) (r : AmapSave) : Prop :=
  copiedNearbts r.ue = r.ue.nearbts ∧
    (r.auth.apikey = none → ∀ e ∈ history, e.auth.apikey = none) ∧
    (r.auth.digitalSignKey = none → ∀ e ∈ history, e.auth.digitalSignKey = none)

theorem copyUeinfo_true (ue : AmapUeInfo) :
    copyUeinfo ⟨true, true, true⟩ ue = { ue with nearbts := copiedNearbts ue } := by
  rcases ue with ⟨imei, imsi, cage, cellInfo, networkType, nearbts, serverIp⟩
  cases nearbts <;> cases serverIp <;> cases networkType <;> rfl

theorem savedKey_true (new old : Option CStr) :
    AmapBackend.savedKey true new old = (new <|> old) := by
  cases new <;> rfl

theorem AmapSave.run_lastKey (s : AmapBackend.AmapState) (r : AmapSave) :
    (AmapSave.run s r).lastKey = (r.auth.apikey <|> s.lastKey) := by
  simp only [AmapSave.run, AmapBackend.saveRequest, AmapBackend.backupLastkey, r.lastKey,
    savedKey_true]

theorem AmapSave.run_lastSignkey (s : AmapBackend.AmapState) (r : AmapSave) :
    (AmapSave.run s r).lastSignkey = (r.auth.digitalSignKey <|> s.lastSignkey) := by
  simp only [AmapSave.run, AmapBackend.saveRequest, AmapBackend.backupLastkey, r.lastKey,
    r.lastSignkey, savedKey_true, Bool.not_true, Bool.and_false, Bool.false_eq_true, if_false]

/-- The saved UE information is that of the request but for `nearbts`. -/
theorem AmapSave.run_ueInfoLast (s : AmapBackend.AmapState) (r : AmapSave) :
    (AmapSave.run s r).ueInfoLast =
      .valid (savedUe { AmapBackend.amapUeKey r.ue with nearbts := copiedNearbts r.ue }) := by
  simp only [AmapSave.run, AmapBackend.saveRequest, AmapBackend.backupUeinfo, r.lastUeinfo,
    r.lastUe, if_true, AmapBackend.keptUeinfo, copyUeinfo_true, Bool.not_true, Bool.and_false,
    Bool.false_eq_true, if_false]
  rfl

theorem amap_agrees_iff (s : AmapBackend.AmapState) (r : AmapSave) (auth : AmapAuthentication)
    (ue : AmapUeInfo) :
    AmapBackend.Agrees (AmapSave.run s r) auth ue ↔
      AmapBackend.amapUeKey ue =
        { AmapBackend.amapUeKey r.ue with nearbts := copiedNearbts r.ue } ∧
      auth.apikey = (r.auth.apikey <|> s.lastKey) ∧
      auth.digitalSignKey = (r.auth.digitalSignKey <|> s.lastSignkey) ∧
      auth.showFieldsEnable = r.auth.showFieldsEnable ∧
      auth.digitalSignEnable = r.auth.digitalSignEnable := by
  have hue : AmapBackend.ueinfoCompare (AmapSave.run s r).ueInfoLast ue = some .ok ↔
      AmapBackend.amapUeKey ue =
        { AmapBackend.amapUeKey r.ue with nearbts := copiedNearbts r.ue } := by
    rw [AmapBackend.ueinfoCompare, compareUe_eq_ok_iff, AmapSave.run_ueInfoLast,
      Pointer.valid.injEq]
    exact ⟨fun h => (savedUe_injective h).symm, fun h => h ▸ rfl⟩
  have hkey : AmapBackend.compareLastkey (AmapSave.run s r) auth = .ok ↔
      auth.apikey = (r.auth.apikey <|> s.lastKey) ∧
      auth.digitalSignKey = (r.auth.digitalSignKey <|> s.lastSignkey) ∧
      auth.showFieldsEnable = r.auth.showFieldsEnable ∧
      auth.digitalSignEnable = r.auth.digitalSignEnable := by
    simp only [AmapBackend.compareLastkey, AmapSave.run_lastKey, AmapSave.run_lastSignkey]
    split_ifs with h
    · exact iff_of_true rfl ⟨h.1, h.2.1, h.2.2.1.symm, h.2.2.2.symm⟩
    · refine iff_of_false (fun h => by cases h) fun h' => h ?_
      exact ⟨h'.1, h'.2.1, h'.2.2.1.symm, h'.2.2.2.symm⟩
  rw [AmapBackend.Agrees, hue, hkey]

theorem amapKept_iff (history : List AmapSave) (r : AmapSave) :
    AmapKept history r ↔ copiedNearbts r.ue = r.ue.nearbts ∧
      (r.auth.apikey <|> (amapSaved history).lastKey) = r.auth.apikey ∧
      (r.auth.digitalSignKey <|> (amapSaved history).lastSignkey) = r.auth.digitalSignKey := by
  have hkey := foldl_eq_none_iff AmapSave.run_lastKey .init history
  have hsign := foldl_eq_none_iff AmapSave.run_lastSignkey .init history
  have hinit : AmapBackend.AmapState.init.lastKey = none ∧
      AmapBackend.AmapState.init.lastSignkey = none := ⟨rfl, rfl⟩
  simp only [hinit.1, hinit.2, true_and] at hkey hsign
  rw [orElse_eq_left_iff, orElse_eq_left_iff, amapSaved, hkey, hsign]
  rfl

theorem amap_saved_iff (history : List AmapSave) (r : AmapSave) :
    (∀ auth ue, AmapBackend.Agrees (r.run (amapSaved history)) auth ue ↔ AmapSame r auth ue) ↔
      AmapKept history r := by
  rw [amapKept_iff]
  constructor
  · intro h
    have hself := (h r.auth r.ue).mpr ⟨rfl, rfl, rfl, rfl, rfl⟩
    obtain ⟨hue, hkey, hsign, -, -⟩ := (amap_agrees_iff _ r _ _).mp hself
    exact ⟨(congrArg UeKey.nearbts hue).symm, hkey.symm, hsign.symm⟩
  · rintro ⟨hue, hkey, hsign⟩ auth ue
    have hcopied : ({ AmapBackend.amapUeKey r.ue with nearbts := copiedNearbts r.ue } : UeKey) =
        AmapBackend.amapUeKey r.ue := by
      rw [hue]
      rfl
    rw [amap_agrees_iff, hcopied, hkey, hsign]
    constructor
    · rintro ⟨h1, h2, h3, h4, h5⟩
      exact ⟨h1, h2, h3, h4, h5⟩
    · rintro ⟨h1, h2, h3, h4, h5⟩
      exact ⟨h1, h2, h3, h4, h5⟩

end Amap

section Oneospos

/-- A request saved with enough memory. -/
structure OneosposSave where
  pid : Option CStr
  ue : OneosposBackend.OneosposUeInfo
  env : OneosposBackend.OneosposEnv
  lastpid : env.lastpid = true
  lastUe : env.lastUe = ⟨true, true⟩

def OneosposSave.run (s : OneosposBackend.OneosposState) (r : OneosposSave) :
    OneosposBackend.OneosposState :=
  OneosposBackend.saveRequest r.env s r.pid r.ue

def oneosposSaved (history : List OneosposSave) : OneosposBackend.OneosposState :=
  history.foldl OneosposSave.run .init

/-- The request agrees with `r` in everything that is compared. -/
structure OneosposSame (r : OneosposSave) (pid : Option CStr)
    (ue : OneosposBackend.OneosposUeInfo) : Prop where
  ue : ue = r.ue
  pid : pid = r.pid

/-- Empty neighbour cells are saved as absent ones. -/
def presentNearbts (ue : OneosposBackend.OneosposUeInfo) : Option CStr :=
  ue.nearbts.filter (· ≠ [])

/-- The neighbour cells are not empty, and no pid of an earlier request shows through. -/
def OneosposKept (history : List OneosposSave) (r : OneosposSave) : Prop :=
  r.ue.nearbts ≠ some [] ∧ (r.pid = none → ∀ e ∈ history, e.pid = none)

theorem createUeinfo_true (ue : OneosposBackend.OneosposUeInfo) :
    OneosposBackend.createUeinfo ⟨true, true⟩ ue =
      some { ue with nearbts := presentNearbts ue } := by
  simp only [OneosposBackend.createUeinfo, if_true, presentNearbts]
  congr 2
  cases ue.nearbts with
  | none => rfl
  | some n => cases n <;> rfl

theorem presentNearbts_eq_iff {ue : OneosposBackend.OneosposUeInfo} :
    presentNearbts ue = ue.nearbts ↔ ue.nearbts ≠ some [] := by
  simp only [presentNearbts]
  cases ue.nearbts with
  | none => simp
  | some n => cases n <;> simp

theorem OneosposSave.run_lastpid (s : OneosposBackend.OneosposState) (r : OneosposSave) :
    (OneosposSave.run s r).lastpid = (r.pid <|> s.lastpid) := by
  simp only [OneosposSave.run, OneosposBackend.saveRequest, r.lastpid]
  cases r.pid <;> rfl

theorem OneosposSave.run_ueInfoLast (s : OneosposBackend.OneosposState) (r : OneosposSave) :
    (OneosposSave.run s r).ueInfoLast =
      .valid (savedUe { r.ue with nearbts := presentNearbts r.ue }) := by
  simp only [OneosposSave.run, OneosposBackend.saveRequest, r.lastUe, createUeinfo_true]
  rfl

theorem oneospos_agrees_iff (s : OneosposBackend.OneosposState) (r : OneosposSave)
    (pid : Option CStr) (ue : OneosposBackend.OneosposUeInfo) :
    OneosposBackend.Agrees (OneosposSave.run s r) pid ue ↔
      ue = { r.ue with nearbts := presentNearbts r.ue } ∧ pid = (r.pid <|> s.lastpid) := by
  have hue : OneosposBackend.ueinfoCompare (OneosposSave.run s r).ueInfoLast ue = some .ok ↔
      ue = { r.ue with nearbts := presentNearbts r.ue } := by
    rw [OneosposBackend.ueinfoCompare, compareUe_eq_ok_iff, OneosposSave.run_ueInfoLast,
      Pointer.valid.injEq]
    exact ⟨fun h => (savedUe_injective h).symm, fun h => h ▸ rfl⟩
  have hpid : OneosposBackend.compareLastpid (OneosposSave.run s r) pid = .ok ↔
      pid = (r.pid <|> s.lastpid) := by
    simp only [OneosposBackend.compareLastpid, OneosposSave.run_lastpid]
    split_ifs with h
    · exact iff_of_true rfl h
    · exact iff_of_false (fun h => by cases h) h
  rw [OneosposBackend.Agrees, hue, hpid]

theorem oneosposKept_iff (history : List OneosposSave) (r : OneosposSave) :
    OneosposKept history r ↔ presentNearbts r.ue = r.ue.nearbts ∧
      (r.pid <|> (oneosposSaved history).lastpid) = r.pid := by
  have hpid := foldl_eq_none_iff OneosposSave.run_lastpid .init history
  have hinit : OneosposBackend.OneosposState.init.lastpid = none := rfl
  simp only [hinit, true_and] at hpid
  rw [orElse_eq_left_iff, oneosposSaved, hpid, presentNearbts_eq_iff]
  rfl

theorem oneospos_saved_iff (history : List OneosposSave) (r : OneosposSave) :
    (∀ pid ue, OneosposBackend.Agrees (r.run (oneosposSaved history)) pid ue ↔
      OneosposSame r pid ue) ↔ OneosposKept history r := by
  rw [oneosposKept_iff]
  constructor
  · intro h
    have hself := (h r.pid r.ue).mpr ⟨rfl, rfl⟩
    obtain ⟨hue, hpid⟩ := (oneospos_agrees_iff _ r _ _).mp hself
    exact ⟨(congrArg UeKey.nearbts hue).symm, hpid.symm⟩
  · rintro ⟨hue, hpid⟩ pid ue
    rw [oneospos_agrees_iff, hue, hpid]
    exact ⟨fun h => ⟨h.1, h.2⟩, fun h => ⟨h.1, h.2⟩⟩

end Oneospos

/-- Right after a request was saved, the comparison succeeds for exactly the requests that
agree with it unless something was copied over `nearbts`, empty neighbour cells were
dropped, or a credential that it lacks is left from an earlier request. -/
theorem saved_iff (amapHistory : List AmapSave) (a : AmapSave)
    (oneosposHistory : List OneosposSave) (o : OneosposSave) :
    ((∀ auth ue, AmapBackend.Agrees (a.run (amapSaved amapHistory)) auth ue ↔
        AmapSame a auth ue) ↔ AmapKept amapHistory a) ∧
      ((∀ pid ue, OneosposBackend.Agrees (o.run (oneosposSaved oneosposHistory)) pid ue ↔
        OneosposSame o pid ue) ↔ OneosposKept oneosposHistory o) :=
  ⟨amap_saved_iff amapHistory a, oneospos_saved_iff oneosposHistory o⟩

def sampleSave (auth : AmapAuthentication) (ue : AmapUeInfo) : AmapSave :=
  ⟨auth, ue, AmapBackend.amapEnv true 0, rfl, rfl, rfl, rfl⟩

def sampleOneosposSave (pid : Option CStr) (ue : OneosposBackend.OneosposUeInfo) : OneosposSave :=
  ⟨pid, ue, OneosposBackend.oneosposEnv true 0, rfl, rfl⟩

/-- A request with a network type, or without a sign key behind one that had it, and one
with empty neighbour cells: none of them agrees with itself. -/
theorem saved_differs :
    (¬ AmapBackend.Agrees
        (AmapSave.run .init (sampleSave AmapBackend.amapAuth
          { AmapBackend.amapUe "1" with networkType := some (cstr "GPRS") }))
        AmapBackend.amapAuth
        { AmapBackend.amapUe "1" with networkType := some (cstr "GPRS") }) ∧
      (¬ AmapBackend.Agrees
        (AmapSave.run
          (amapSaved [sampleSave
            { AmapBackend.amapAuth with digitalSignKey := some (cstr "sign") }
            (AmapBackend.amapUe "1")])
          (sampleSave AmapBackend.amapAuth (AmapBackend.amapUe "1")))
        AmapBackend.amapAuth (AmapBackend.amapUe "1")) ∧
      ¬ OneosposBackend.Agrees
        (OneosposSave.run .init
          (sampleOneosposSave (some (cstr "pid")) ⟨[], [], ⟨[], [], 460, 0, 20⟩, some []⟩))
        (some (cstr "pid")) ⟨[], [], ⟨[], [], 460, 0, 20⟩, some []⟩ := by
  rw [amap_agrees_iff, amap_agrees_iff, oneospos_agrees_iff]
  decide

end SavedRequest
