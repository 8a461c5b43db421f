import LinuxBuild.AmapCache
import LinuxBuild.OneosposCache

/-!
# Answers from the cache

A location from the cache belongs to the request it is returned for as long as the
saved key and the cached location are replaced together. A request that fails before
its response breaks this: its key is saved already, and the older location stays.
-/
namespace CacheSoundness
open CString LbsTypes CJson AmapParse LocationDelivery BackendTypes AmapRequest AmapBackend
open OneosposBackend PartialRun

/-- In every run of either back end whose requests are careful, whatever is answered
from the cache was parsed from the response to an earlier request of the same key and
stored at most two hours before. -/
theorem cached_location_sound (md5 : CStr → Digest) :
    (∀ trace s, Run (amapStep md5) AmapCache.amapOk .init trace s →
      AmapCache.SoundlyCached trace) ∧
    (∀ trace s, Run oneosposStep OneosposCache.oneosposOk .init trace s →
      OneosposCache.SoundlyCached trace) :=
  ⟨fun _ _ => AmapCache.run_soundlyCached, fun _ _ => OneosposCache.run_soundlyCached⟩

/-- The second of two like requests is answered from the cache, soundly, with either back
end. -/
theorem cached_location_sound_repeat :
    (∃ trace i old rsp s, Run (amapStep fun _ => Field.zero 16) AmapCache.amapOk .init
        (trace ++ [(i, .cached old rsp)]) s ∧
      AmapCache.SoundlyCached (trace ++ [(i, .cached old rsp)])) ∧
    ∃ trace i old rsp s, Run oneosposStep OneosposCache.oneosposOk .init
        (trace ++ [(i, .cached old rsp)]) s ∧
      OneosposCache.SoundlyCached (trace ++ [(i, .cached old rsp)]) := by
  constructor
  · have hcareful : ∀ trace s, (s.locationRsp ≠ none →
        AmapCache.lastPlatform trace = some .amap10) → s.lastSignkey = none →
        AmapCache.amapOk trace s (.location amapAuth (amapUe "1") (amapEnv true 0)) := by
      intro trace s hplatform hsign _
      refine ⟨fun hrsp _ => hplatform hrsp, ⟨⟨rfl, rfl, rfl, rfl⟩, ?_, fun _ => hsign, rfl, rfl⟩,
        Or.inl ⟨⟨rfl, Or.inl rfl, rfl⟩, rfl, Or.inl rfl⟩⟩
      intro hnone
      cases hnone
    have h₁ : Run (amapStep fun _ => Field.zero 16) AmapCache.amapOk .init _ _ :=
      .snoc .start (hcareful [] .init (fun h => absurd rfl h) rfl) rfl
    have hend : ∀ trace s, AmapCache.amapOk trace s .rspEnd := fun _ _ => trivial
    have h₂ := h₁.snoc (hend _ _) rfl
    have h₃ := h₂.snoc (hcareful _ _ (fun _ => rfl) rfl) rfl
    exact ⟨_, _, _, _, _, h₃, (cached_location_sound fun _ => Field.zero 16).1 _ _ h₃⟩
  · have hcareful : ∀ trace s, OneosposCache.oneosposOk trace s
        (.location (some (cstr "m5")) oneosposUe (locatedEnv 0)) := by
      intro trace s _
      refine ⟨⟨⟨rfl, rfl, rfl⟩, fun hnone => ?_, fun hnone => ?_⟩, Or.inl ⟨rfl, Or.inl rfl⟩⟩
      · cases hnone
      · cases hnone
    have h₁ : Run oneosposStep OneosposCache.oneosposOk .init _ _ :=
      .snoc .start (hcareful [] .init) rfl
    have hend : ∀ trace s, OneosposCache.oneosposOk trace s .rspEnd := fun _ _ => trivial
    have h₂ := h₁.snoc (hend _ _) rfl
    have h₃ := h₂.snoc (hcareful _ _) rfl
    exact ⟨_, _, _, _, _, h₃, (cached_location_sound fun _ => Field.zero 16).2 _ _ h₃⟩

/-- A request in cell 1 is answered; one in cell 2 fails before its response; the next
one in cell 2 is answered with the location of cell 1. -/
theorem failed_request_mixes_cells :
    ∃ trace s, Run (amapStep fun _ => Field.zero 16) (fun _ _ _ => True) .init trace s ∧
      ¬ AmapCache.SoundlyCached trace := by
  have h₁ : Run (amapStep fun _ => Field.zero 16) (fun _ _ _ => True) .init _ _ :=
    .snoc (i := .location amapAuth (amapUe "1") (amapEnv true 0)) .start trivial rfl
  have h₂ := h₁.snoc (i := .rspEnd) trivial rfl
  have h₃ := h₂.snoc (i := .location amapAuth (amapUe "2") (amapEnv false 60)) trivial rfl
  have h₄ := h₃.snoc (i := .location amapAuth (amapUe "2") (amapEnv false 61)) trivial rfl
  refine ⟨_, _, h₄, fun h => ?_⟩
  obtain ⟨auth', ue', env', parsed, hmem, hkey, -⟩ := h _ [] _ _ _ _ _ rfl
  simp only [List.nil_append, List.cons_append, List.mem_cons, Prod.mk.injEq] at hmem
  rcases hmem with ⟨h, -⟩ | ⟨h, -⟩ | ⟨-, h⟩ | h
  · cases h
    revert hkey
    decide
  · cases h
  · cases h
  · cases h

end CacheSoundness
