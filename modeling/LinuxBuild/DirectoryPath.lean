import LinuxBuild.CBuffer
import LinuxBuild.FileTree

/-!
# Making the directories of a path

The path is copied into a buffer, and the loop ends the string at one slash after the
other, to see whether what stands in front of it is there, and to make it if not.
-/
namespace DirectoryPath
open CString CBuffer FileTree

abbrev FsTree := Tree CStr (List UInt8)

abbrev FsLoc := Loc CStr

/-- `'/'` and `'.'` -/
def signs : Signs UInt8 := ⟨47, 46⟩

variable {n : Nat} {refuse : Nat → Bool} {cwd : FsLoc} {t t' t'' : FsTree}

/-- `mkdir(path, 0755)`, which can also fail of itself. -/
def mkdir (refuse : Bool) (cwd : FsLoc) (t : FsTree) (path : CStr) : Option FsTree :=
  if refuse then none else signs.mkdir t cwd path

/-- The block that the loop and the end of the function have in common. -/
def ensureDirectory (refuse : Bool) (cwd : FsLoc) (t : FsTree) (path : CStr) : Option FsTree :=
  if signs.access t cwd path then some t else mkdir refuse cwd t path

structure Outcome where
  ret : Int32
  tree : FsTree

/-- What the function makes of the tree at its end, or in the loop when it stops there. -/
def finish (refuse : Bool) (cwd : FsLoc) (t : FsTree) (path : CStr) : Outcome :=
  match ensureDirectory refuse cwd t path with
  | none => ⟨-1, t⟩
  | some t => ⟨0, t⟩

/-- The loop from `temp_path[p]` on, with so many cells left, and the block behind it.
`refuse` says whether a `mkdir` at this place of the path fails of itself. -/
def createFrom (refuse : Nat → Bool) (cwd : FsLoc) : Nat → FsTree → Field n → Nat → Option Outcome
  | 0, _, _, _ => none
  | cells + 1, t, temp, p =>
    match temp.bytes[p]? with
    | none => none
    | some c =>
      if c = 0 then (string temp).map (finish (refuse p) cwd t)
      else if c = 47 then do
        let cut ← setNul temp p
        let front ← string cut
        match ensureDirectory (refuse p) cwd t front with
        | none => some ⟨-1, t⟩
        | some t => do
          let temp ← putByte cut p 47
          createFrom refuse cwd cells t temp (p + 1)
      else createFrom refuse cwd cells t temp (p + 1)

/-- `if(temp_path[len - 1] == '/') temp_path[len - 1] = 0;` -/
def removeSlash (temp : Field n) : Nat → Option (Field n)
  | 0 => none
  | len + 1 => if temp.bytes[len]? = some 47 then setNul temp len else some temp

/-- `create_directory_path`, onto whatever `temp_path` held before -/
def createDirectoryPath (refuse : Nat → Bool) (cwd : FsLoc) (t : FsTree) (temp : Field 256)
    (path : CStr) : Option Outcome := do
  let temp ← snprintf temp path
  let len := (← string temp).length
  let temp ← removeSlash temp len
  createFrom refuse cwd 256 t temp 1

/-- The path without one slash at its end. -/
def withoutSlash (path : CStr) : CStr := if path.getLast? = some 47 then path.dropLast else path

/-- The second tree has what the first one has, and in addition directories that are named
by a front part of the path. -/
structure Grown (cwd : FsLoc) (path : CStr) (t t' : FsTree) : Prop where
  keeps : t.Within t'
  added : ∀ l, t.entry l = none → t'.entry l ≠ none →
    t'.entry l = some .dir ∧ ∃ front, front <+: path ∧ signs.locate t' cwd front = some l

theorem Grown.refl (path : CStr) : Grown cwd path t t where
  keeps := Tree.Within.refl t
  added _ hnone hsome := absurd hnone hsome

theorem Grown.trans {path : CStr} (h : Grown cwd path t t') (h' : Grown cwd path t' t'') :
    Grown cwd path t t'' where
  keeps := h.keeps.trans h'.keeps
  added := by
    intro l hnone hsome
    by_cases hmiddle : t'.entry l = none
    · exact h'.added l hmiddle hsome
    · obtain ⟨hdir, front, hfront, hl⟩ := h.added l hnone hmiddle
      exact ⟨h'.keeps l _ hdir, front, hfront, Signs.locate_within h'.keeps hl⟩

theorem Grown.mono {path front : CStr} (h : Grown cwd front t t') (hfront : front <+: path) :
    Grown cwd path t t' where
  keeps := h.keeps
  added := by
    intro l hnone hsome
    obtain ⟨hdir, first, hfirst, hl⟩ := h.added l hnone hsome
    exact ⟨hdir, first, hfirst.trans hfront, hl⟩

/-- `mkdir` fails of itself, or unless there is no entry of this name yet and its parent is
a directory. -/
theorem mkdir_isSome_iff {path : CStr} {b : Bool} (h : path ≠ []) :
    (mkdir b cwd t path).isSome = true ↔ b = false ∧ ∃ name above,
      t.walk (signs.start cwd path) (signs.steps (path.rdropWhile (· = 47))) =
        some (name :: above) ∧ t.entry (name :: above) = none ∧ t.entry above = some .dir := by
  cases b with
  | true => simp [mkdir]
  | false =>
    simp only [mkdir, Bool.false_eq_true, if_false, Signs.mkdir, if_neg h, true_and]
    change (Option.bind (t.walk (signs.start cwd path)
      (signs.steps (path.rdropWhile (· = 47)))) t.mkdir).isSome = true ↔ _
    cases t.walk (signs.start cwd path) (signs.steps (path.rdropWhile (· = 47))) with
    | none => simp
    | some l =>
      rw [Option.bind_some, Tree.mkdir_isSome_iff]
      constructor
      · rintro ⟨hnone, name, above, rfl, hdir⟩
        exact ⟨name, above, rfl, hnone, hdir⟩
      · rintro ⟨name, above, heq, hnone, hdir⟩
        cases heq
        exact ⟨hnone, name, above, rfl, hdir⟩

theorem mkdir_grown {path : CStr} {b : Bool} (h : mkdir b cwd t path = some t') :
    Grown cwd path t t' ∧ signs.access t' cwd path = true := by
  rw [mkdir] at h
  split at h
  · cases h
  obtain ⟨l, hl, hmkdir⟩ := Signs.mkdir_eq_some h
  obtain ⟨-, hdir, hother⟩ := Tree.mkdir_eq_some hmkdir
  refine ⟨⟨Tree.mkdir_within hmkdir, ?_⟩, Signs.access_iff.mpr ⟨l, .dir, hl, hdir⟩⟩
  intro l' hnone hsome
  by_cases heq : l' = l
  · subst heq
    exact ⟨hdir, path, List.prefix_rfl, hl⟩
  · rw [hother l' heq] at hsome
    exact absurd hnone hsome

/-- Afterwards the directory is there, and a directory that was there before changes nothing. -/
theorem ensureDirectory_spec {path : CStr} {b : Bool}
    (h : ensureDirectory b cwd t path = some t') :
    Grown cwd path t t' ∧ signs.access t' cwd path = true ∧
      (signs.access t cwd path = true → t' = t) := by
  rw [ensureDirectory] at h
  split at h
  · next hthere =>
    cases h
    exact ⟨Grown.refl path, hthere, fun _ => rfl⟩
  · next hmissing =>
    obtain ⟨hgrown, hthere⟩ := mkdir_grown h
    exact ⟨hgrown, hthere, fun hbefore => absurd hbefore hmissing⟩

/-- What a run on the path does to the tree. -/
structure Creates (cwd : FsLoc) (path : CStr) (t : FsTree) (r : Outcome) : Prop where
  grown : Grown cwd path t r.tree
  success : r.ret = 0 → signs.access r.tree cwd path = true
  present : signs.access t cwd path = true → r.tree = t

/-- The function stops with the tree as it is. -/
theorem stopped_creates (path : CStr) : Creates cwd path t ⟨-1, t⟩ where
  grown := Grown.refl path
  success := by
    intro h
    cases h
  present _ := rfl

theorem finish_creates (path : CStr) (b : Bool) : Creates cwd path t (finish b cwd t path) := by
  rw [finish]
  split
  · exact stopped_creates path
  · next t' h =>
    obtain ⟨hgrown, hthere, hpresent⟩ := ensureDirectory_spec h
    exact ⟨hgrown, fun _ => hthere, hpresent⟩

/-- A run behind the making of a front part is a run on the whole path. -/
theorem Creates.of_front {front behind : CStr} {r : Outcome} (hne : front ≠ [])
    (hgrown : Grown cwd front t t')
    (hpresent : signs.access t cwd front = true → t' = t)
    (h : Creates cwd (front ++ 47 :: behind) t' r) : Creates cwd (front ++ 47 :: behind) t r where
  grown := (hgrown.mono (List.prefix_append _ _)).trans h.grown
  success := h.success
  present := by
    intro hthere
    have hsame := hpresent (Signs.access_front (σ := signs) hne hthere)
    subst hsame
    exact h.present hthere

/-- The loop on a path that starts before its place; one slash after the other is passed
with the front part there. -/
theorem createFrom_creates {temp : Field n} {v : CStr} (h : Carries temp v) {cells p : Nat}
    (hp : 0 < p) (hle : p ≤ v.length) (hcells : v.length < cells + p) :
    ∃ r, createFrom refuse cwd cells t temp p = some r ∧ Creates cwd v t r := by
  induction cells generalizing t p with
  | zero => omega
  | succ cells ih =>
    rcases hle.eq_or_lt with rfl | hlt
    · refine ⟨finish (refuse v.length) cwd t v, ?_, finish_creates v _⟩
      simp only [createFrom, h.getElem?_end, if_pos, h.string, Option.map_some]
    have hbyte := h.getElem?_of_lt hlt
    rw [List.getElem?_eq_getElem hlt] at hbyte
    have hne : v[p] ≠ 0 := by
      intro hzero
      exact h.clean (hzero ▸ List.getElem_mem hlt)
    by_cases hslash : v[p] = 47
    · have hsplit : v = v.take p ++ 47 :: v.drop (p + 1) := by
        rw [← hslash, ← List.drop_eq_getElem_cons hlt, List.take_append_drop]
      have hfront : (v.take p).length = p := by
        rw [List.length_take]
        omega
      have hnil : v.take p ≠ [] := by
        rw [← List.length_pos_iff, hfront]
        exact hp
      obtain ⟨g, hcut, hg, hput⟩ := h.cut hsplit
      rw [hfront] at hcut hput
      simp only [createFrom, hbyte, if_neg hne, if_pos hslash, hcut, hg.string,
        Option.bind_eq_bind, Option.bind_some]
      cases hensure : ensureDirectory (refuse p) cwd t (v.take p) with
      | none => exact ⟨_, rfl, stopped_creates v⟩
      | some t' =>
        obtain ⟨hgrown, -, hpresent⟩ := ensureDirectory_spec hensure
        obtain ⟨r, hr, hcreates⟩ := @ih t' (p + 1) (by omega) (by omega) (by omega)
        simp only [hput, Option.bind_some]
        refine ⟨r, hr, ?_⟩
        rw [hsplit] at hcreates ⊢
        exact hcreates.of_front hnil hgrown hpresent
    · simp only [createFrom, hbyte, if_neg hne, if_neg hslash]
      exact ih (by omega) (by omega) (by omega)

theorem withoutSlash_append (front : CStr) : withoutSlash (front ++ [47]) = front := by
  simp [withoutSlash]

theorem withoutSlash_of_ne {front : CStr} {c : UInt8} (h : c ≠ 47) :
    withoutSlash (front ++ [c]) = front ++ [c] := by
  simp [withoutSlash, h]

theorem withoutSlash_isPrefix (path : CStr) : withoutSlash path <+: path := by
  rw [withoutSlash]
  split
  · exact List.dropLast_prefix path
  · exact List.prefix_rfl

theorem exists_append_singleton {path : CStr} (h : path ≠ []) :
    ∃ front c, path = front ++ [c] := ⟨_, _, (List.dropLast_append_getLast h).symm⟩

/-- What is there with a slash at its end is there without it, unless it is the root. -/
theorem access_withoutSlash {path : CStr} (hne : withoutSlash path ≠ [])
    (h : signs.access t cwd path = true) : signs.access t cwd (withoutSlash path) = true := by
  have hpath : path ≠ [] := by
    rintro rfl
    exact hne rfl
  obtain ⟨front, c, rfl⟩ := exists_append_singleton hpath
  by_cases hslash : c = 47
  · subst hslash
    rw [withoutSlash_append] at hne ⊢
    exact Signs.access_front (σ := signs) hne h
  · rwa [withoutSlash_of_ne hslash]

/-- The root is left without its only character, with two terminators. -/
theorem removeSlash_carries {f : Field n} {path : CStr} (h : Carries f path) (hne : path ≠ []) :
    ∃ g, removeSlash f path.length = some g ∧ Carries g (withoutSlash path) ∧
      (withoutSlash path = [] → g.bytes[1]? = some 0) := by
  obtain ⟨front, c, rfl⟩ := exists_append_singleton hne
  have hlast : f.bytes[front.length]? = some c := by
    rw [h.getElem?_of_lt (by simp)]
    simp
  simp only [List.length_append, List.length_singleton, removeSlash, hlast, Option.some.injEq]
  by_cases hslash : c = 47
  · subst hslash
    obtain ⟨g, hcut, hg, -⟩ := h.cut rfl
    rw [if_pos rfl, withoutSlash_append]
    refine ⟨g, hcut, hg, ?_⟩
    rintro rfl
    rw [getElem?_of_setNul hcut (by decide)]
    exact h.getElem?_end
  · rw [if_neg hslash, withoutSlash_of_ne hslash]
    exact ⟨f, rfl, h, fun hnil => absurd hnil (by simp)⟩

/-- There is no directory without a name. -/
theorem finish_nil {b : Bool} : finish b cwd t [] = ⟨-1, t⟩ := by
  have hmissing : signs.access t cwd [] = false := rfl
  have hfail : mkdir b cwd t [] = none := by cases b <;> rfl
  simp [finish, ensureDirectory, hmissing, hfail]

/-- The root loses its only character. -/
theorem createFrom_root {temp : Field n} (h : Carries temp []) (hend : temp.bytes[1]? = some 0)
    (cells : Nat) : createFrom refuse cwd (cells + 1) t temp 1 = some ⟨-1, t⟩ := by
  simp only [createFrom, hend, if_pos, h.string, Option.map_some, finish_nil]

/-- A path of 1 to 255 characters stays in the buffer; when the function returns 0 the path
is there, and whatever it returns, the tree has only grown by directories on the path. -/
theorem createDirectoryPath_spec (refuse : Nat → Bool) (cwd : FsLoc) (t : FsTree)
    (temp : Field 256) {path : CStr} (hpos : 1 ≤ path.length) (hlen : path.length ≤ 255)
    (hclean : 0 ∉ path) :
    ∃ r, createDirectoryPath refuse cwd t temp path = some r ∧
      (r.ret = 0 → signs.access r.tree cwd (withoutSlash path) = true) ∧
      (∀ l e, t.entry l = some e → r.tree.entry l = some e) ∧
      (∀ l, t.entry l = none → r.tree.entry l ≠ none → r.tree.entry l = some .dir ∧
        ∃ front, front <+: path ∧ signs.locate r.tree cwd front = some l) ∧
      (signs.access t cwd path = true → r.tree = t) := by
  obtain ⟨f, hf, hcarries⟩ := @snprintf_of_lt 256 temp path hclean (by omega)
  obtain ⟨g, hg, hcarries', hend⟩ :=
    removeSlash_carries hcarries (List.length_pos_iff.mp hpos)
  simp only [createDirectoryPath, hf, hcarries.string, hg, Option.bind_eq_bind, Option.bind_some]
  by_cases hroot : withoutSlash path = []
  · rw [hroot] at hcarries'
    refine ⟨_, createFrom_root hcarries' (hend hroot) 255, ?_, Tree.Within.refl t,
      (Grown.refl path).added, fun _ => rfl⟩
    intro hret
    cases hret
  · have hshort := (withoutSlash_isPrefix path).length_le
    obtain ⟨r, hr, hcreates⟩ := @createFrom_creates 256 refuse cwd t g _ hcarries' 256 1
      (by decide) (List.length_pos_iff.mpr hroot) (by omega)
    refine ⟨r, hr, hcreates.success, hcreates.grown.keeps,
      (hcreates.grown.mono (withoutSlash_isPrefix path)).added, ?_⟩
    intro hthere
    exact hcreates.present (access_withoutSlash hroot hthere)

/-- Nothing but the root. -/
def bareTree : FsTree where
  entry l := if l = [] then some .dir else none
  root := rfl
  parent := by
    intro name above h
    exact absurd (if_neg (List.cons_ne_nil name above)) h

/-- A doubled slash and one at the end -/
theorem createDirectoryPath_spec_nested :
    ∃ r, createDirectoryPath (fun _ => false) [] bareTree (Field.zero 256) (cstr "a//b/") =
        some r ∧
      (r.ret = 0 → signs.access r.tree [] (withoutSlash (cstr "a//b/")) = true) ∧
      (∀ l e, bareTree.entry l = some e → r.tree.entry l = some e) ∧
      (∀ l, bareTree.entry l = none → r.tree.entry l ≠ none → r.tree.entry l = some .dir ∧
        ∃ front, front <+: cstr "a//b/" ∧ signs.locate r.tree [] front = some l) ∧
      (signs.access bareTree [] (cstr "a//b/") = true → r.tree = bareTree) :=
  createDirectoryPath_spec _ _ _ _ (by decide) (by decide) (by decide)

example : (createDirectoryPath (fun _ => false) [] bareTree (Field.zero 256)
    (cstr "a//b/")).map (·.ret) = some 0 := by decide +kernel

example : (createDirectoryPath (fun p => p == 1) [] bareTree (Field.zero 256)
    (cstr "a//b/")).map (·.ret) = some (-1) := by decide +kernel

end DirectoryPath
