import Mathlib.Data.Bool.Basic

/-!
# The handles of the HTTP library

Either back end makes an easy and a multi handle when they are missing and keeps them in
statics. Nobody clears the static of a handle that was cleaned up, and the library takes
no such handle.
-/
namespace HttpHandles

/-- Where a handle puts the body. -/
inductive WriteFunction where
  | default
  | callback (data : Option Nat)
deriving DecidableEq

inductive Easy where
  | absent
  | live (write : WriteFunction)
  | cleaned
deriving DecidableEq

/-- `s_oneospos_curl_handle` and `s_curl_multi_handle`, and the same of the AMAP back
end. -/
structure Handles where
  easy : Easy
  multi : Bool

def Handles.init : Handles := ⟨.absent, false⟩

/-- The options that are set on a handle; nobody looks at the results. -/
inductive CurlOption where
  | url
  | sslVerifypeer
  | sslVerifyhost
  | httpheader
  | writefunction
  | writedata
  deriving DecidableEq

/-- The calls that a post makes. -/
inductive PostStep where
  | easyInit
  | multiInit
  | setopt (option : CurlOption)
  | slistAppend
  | addHandle
  | perform
  deriving DecidableEq

/-- Which calls of a post succeed, and whether the byte behind the terminator of the
header's literal can be stored to; none of the objects that are modelled lies there. -/
structure PostEnv where
  ok : PostStep → Bool
  headerStore : Bool

/-- `curl_easy_init` and `curl_multi_init` -/
def curlInit (ok : PostStep → Bool) : Handles :=
  ⟨if ok .easyInit then .live .default else .absent, ok .multiInit⟩

def Handles.Missing (h : Handles) : Prop := h.easy = .absent ∧ h.multi = false

instance (h : Handles) : Decidable h.Missing := inferInstanceAs (Decidable (_ ∧ _))

/-- `CURLOPT_WRITEFUNCTION` and `CURLOPT_WRITEDATA` -/
def Handles.register (h : Handles) (data : Option Nat) : Handles :=
  match h.easy with
  | .live _ => { h with easy := .live (.callback data) }
  | .absent | .cleaned => h

/-- `curl_multi_add_handle`; the library refuses a handle that is `NULL`. -/
def Handles.added (h : Handles) (ok : PostStep → Bool) : Bool :=
  decide (h.easy ≠ .absent) && h.multi && ok .addHandle

/-- `__cm_oneospos_http_release` and `__cm_lbs_amap_http_release`, which clear a copy of the
pointer alone. -/
def Handles.release (h : Handles) : Option Handles :=
  match h.easy with
  | .absent => some h
  | .live _ => some { h with easy := .cleaned }
  | .cleaned => none

/-- `__cm_oneospos_http_post` up to `curl_multi_add_handle`, for a record of the response at
`data`: the handles, and whether they are taken. The header is terminated behind its own
terminator. -/
def oneosposAdd (h : Handles) (env : PostEnv) (data : Option Nat) : Option (Handles × Bool) :=
  let h := if h.Missing then curlInit env.ok else h
  if h.Missing then some (h, false)
  else if h.easy = .cleaned then none
  else if env.headerStore then
    if env.ok .slistAppend then
      let h := h.register data
      some (h, h.added env.ok)
    else some (h, false)
  else none

/-- `__cm_oneospos_http_post` up to its content event: the handles, and whether the event
comes. -/
def oneosposPost (h : Handles) (env : PostEnv) (data : Option Nat) : Option (Handles × Bool) := do
  let (h, added) ← oneosposAdd h env data
  some (h, added && env.ok .perform)

/-- The post comes to its content event. -/
def posts (h : Handles) (env : PostEnv) (data : Option Nat) : Bool :=
  (oneosposPost h env data).any Prod.snd

variable {h h' : Handles} {env : PostEnv} {data : Option Nat} {added posted : Bool}

/-- No handle in use is left by a release. -/
theorem release_easy (hrelease : h.release = some h') :
    h'.easy = .absent ∨ h'.easy = .cleaned := by
  simp only [Handles.release] at hrelease
  split at hrelease
  · rename_i heasy
    cases hrelease
    exact Or.inl heasy
  · cases hrelease
    exact Or.inr rfl
  · cases hrelease

/-- A handle that the library takes is registered for the record of its request, and the
terminator of the header has been stored. -/
theorem oneosposAdd_added (hadd : oneosposAdd h env data = some (h', true)) :
    env.headerStore = true ∧ h'.easy = .live (.callback data) := by
  have hregistered : ∀ g : Handles, g.easy ≠ .cleaned →
      (g.register data).added env.ok = true → (g.register data).easy = .live (.callback data) := by
    intro g hne hadded
    simp only [Handles.added, Bool.and_eq_true, decide_eq_true_eq] at hadded
    have hpresent := hadded.1.1
    simp only [Handles.register] at hpresent ⊢
    cases heasy : g.easy with
    | absent =>
      rw [heasy] at hpresent
      exact absurd heasy hpresent
    | live write => rfl
    | cleaned => exact absurd heasy hne
  simp only [oneosposAdd] at hadd
  split_ifs at hadd with hmissing hfirst hcleaned hstore hslist hcleaned hstore hslist
  · cases hadd
  · obtain ⟨rfl, hadded⟩ := Prod.mk.inj (Option.some.inj hadd)
    exact ⟨hstore, hregistered _ hcleaned hadded⟩
  · cases hadd
  · obtain ⟨rfl, hadded⟩ := Prod.mk.inj (Option.some.inj hadd)
    exact ⟨hstore, hregistered _ hcleaned hadded⟩
  · cases hadd

theorem oneosposPost_eq_some (hpost : oneosposPost h env data = some (h', posted)) :
    ∃ added, oneosposAdd h env data = some (h', added) ∧ posted = (added && env.ok .perform) := by
  obtain ⟨⟨g, added⟩, hadd, hpost⟩ := Option.bind_eq_some_iff.mp hpost
  cases hpost
  exact ⟨added, hadd, rfl⟩

theorem posts_eq (hpost : oneosposPost h env data = some (h', posted)) :
    posts h env data = posted := by
  rw [posts, hpost, Option.any_some]

/-- The event comes with a handle in use. -/
theorem oneosposPost_live (hpost : oneosposPost h env data = some (h', true)) :
    h'.easy = .live (.callback data) := by
  obtain ⟨added, hadd, hposted⟩ := oneosposPost_eq_some hpost
  have hadded : added = true := (Bool.and_eq_true_iff.mp hposted.symm).1
  rw [hadded] at hadd
  exact (oneosposAdd_added hadd).2

end HttpHandles
