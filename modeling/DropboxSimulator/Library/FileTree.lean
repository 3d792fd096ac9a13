import Mathlib.Data.List.AList
import Mathlib.Tactic

/-!
# FileTree — directories, files and the paths to them

A tree of directories and files is a finite map from locations, and a path is a list of components
that is walked from a directory on.  As with POSIX every component but the last has to lead to a
directory; there are no symbolic links.

* `resolve`  : where a path leads, by its components alone;
* `locate`   : where a path leads in a tree, if it leads anywhere;
* `Confined` : the path never leaves a base directory and the directories that one lies in, and
  ends strictly inside.

Trees that agree inside the base directory agree after the same operations on confined paths
(`read_congr`, `AgreeInside.write`, `AgreeInside.remove`), and some other trees are told apart by
reading any other path that ends inside (`exists_told_apart`).
-/

namespace DropboxSimulator
namespace Library

/-! ## Paths -/

/-- A component of a path: nothing, as behind a last slash, `.`, `..` or a name. -/
inductive Component (ν : Type*)
  | blank
  | here
  | up
  | name (n : ν)
  deriving DecidableEq

section Paths

variable {ν : Type*} {base l m : List ν} {c : Component ν} {path rest lead : List (Component ν)}

/-- The location after one component. -/
def enter (l : List ν) : Component ν → List ν
  | .blank => l
  | .here => l
  | .up => l.dropLast
  | .name n => l ++ [n]

def resolve (l : List ν) (path : List (Component ν)) : List ν :=
  path.foldl enter l

/-- The location lies strictly inside the directory. -/
def Inside (base l : List ν) : Prop :=
  base <+: l ∧ l ≠ base

/-- The location is inside the directory, or the directory or one that it lies in. -/
def Along (base l : List ν) : Prop :=
  l <+: base ∨ base <+: l

/-- The path, walked from the directory, stays along it and ends strictly inside. -/
structure Confined (base : List ν) (path : List (Component ν)) : Prop where
  inside : Inside base (resolve base path)
  along : ∀ before ∈ path.inits, Along base (resolve base before)

def endsInName (path : List (Component ν)) : Bool :=
  match path.getLast? with
  | some (.name _) => true
  | _ => false

def endsInBlank (path : List (Component ν)) : Bool :=
  match path.getLast? with
  | some .blank => true
  | _ => false

instance [DecidableEq ν] : Decidable (Inside base l) :=
  inferInstanceAs (Decidable (_ ∧ _))

instance [DecidableEq ν] : Decidable (Along base l) :=
  inferInstanceAs (Decidable (_ ∨ _))

instance [DecidableEq ν] : Decidable (Confined base path) :=
  decidable_of_iff
    (Inside base (resolve base path) ∧ ∀ before ∈ path.inits, Along base (resolve base before))
    ⟨fun h => ⟨h.1, h.2⟩, fun h => ⟨h.inside, h.along⟩⟩

@[simp] theorem resolve_nil : resolve l [] = l :=
  rfl

@[simp] theorem resolve_cons : resolve l (c :: path) = resolve (enter l c) path :=
  rfl

theorem resolve_append : resolve l (lead ++ path) = resolve (resolve l lead) path :=
  List.foldl_append

theorem Inside.ne_of_prefix (h : Inside base m) (hl : l <+: base) : l ≠ m := by
  rintro rfl
  exact h.2 (List.IsPrefix.eq_of_length_le hl h.1.length_le)

theorem Along.self : Along base base :=
  Or.inl List.prefix_rfl

/-- One name is confined. -/
theorem confined_name (base : List ν) (n : ν) : Confined base [.name n] where
  inside := ⟨List.prefix_append base [n], by simp [enter]⟩
  along := by
    intro before hbefore
    simp only [List.inits, List.map_cons, List.map_nil, List.mem_cons,
      List.not_mem_nil, or_false] at hbefore
    rcases hbefore with rfl | rfl
    · exact .self
    · exact Or.inr (List.prefix_append base [n])

theorem getLast?_lead (hne : path ≠ []) : (lead ++ path).getLast? = path.getLast? := by
  rw [List.getLast?_append]
  cases hlast : path.getLast? with
  | none =>
      exact absurd (List.getLast?_eq_none_iff.1 hlast) hne
  | some c =>
      rfl

end Paths

/-! ## Trees -/

inductive Entry (β : Type*)
  | file (content : β)
  | directory
  deriving DecidableEq

structure FileTree (ν β : Type*) where
  entries : AList fun _ : List ν => Entry β

namespace FileTree

variable {ν β : Type*} [DecidableEq ν]

def lookup (t : FileTree ν β) (l : List ν) : Option (Entry β) :=
  t.entries.lookup l

def isDirectory (t : FileTree ν β) (l : List ν) : Bool :=
  match t.lookup l with
  | some .directory => true
  | _ => false

/-- Nothing lies inside the location. -/
def isEmptyAt (t : FileTree ν β) (l : List ν) : Bool :=
  t.entries.keys.all fun k => !decide (Inside l k)

def insert (t : FileTree ν β) (l : List ν) (e : Entry β) : FileTree ν β where
  entries := t.entries.insert l e

def erase (t : FileTree ν β) (l : List ν) : FileTree ν β where
  entries := t.entries.erase l

/-- The location a path leads to from `l`. -/
def locate (t : FileTree ν β) : List ν → List (Component ν) → Option (List ν)
  | l, [] => some l
  | l, [c] => some (enter l c)
  | l, c :: d :: path =>
      if t.isDirectory (enter l c) = true then t.locate (enter l c) (d :: path) else none

/-- What is found at the end of a path. -/
def read (t : FileTree ν β) (l : List ν) (path : List (Component ν)) : Option (Entry β) :=
  (t.locate l path).bind t.lookup

/-- Open a file for writing and write it.  A directory cannot be opened so, and a path that does
not end in a name leads to one. -/
def write (t : FileTree ν β) (l : List ν) (path : List (Component ν)) (content : β) :
    FileTree ν β :=
  match t.locate l path with
  | some m =>
      -- a new file, or a new content of an old one
      if endsInName path = true ∧ t.isDirectory m = false then t.insert m (.file content) else t
  | none => t

/-- A file can be opened for writing at the end of a path. -/
def Opens (t : FileTree ν β) (l : List ν) (path : List (Component ν)) : Prop :=
  ∃ m, t.locate l path = some m ∧ endsInName path = true ∧ t.isDirectory m = false

/-- Make a directory where there is nothing. -/
def makeDirectory (t : FileTree ν β) (l : List ν) (path : List (Component ν)) : FileTree ν β :=
  match t.locate l path with
  | some m => if (t.lookup m).isNone then t.insert m .directory else t
  | none => t

/-- A file can be removed, and an empty directory by a path that does not end in `.` or `..`. -/
def removable (t : FileTree ν β) (path : List (Component ν)) (m : List ν) : Bool :=
  match t.lookup m with
  | some (.file _) => endsInName path
  | some .directory => (endsInName path || endsInBlank path) && t.isEmptyAt m
  | none => false

def remove (t : FileTree ν β) (l : List ν) (path : List (Component ν)) : FileTree ν β :=
  match t.locate l path with
  | some m => if t.removable path m = true then t.erase m else t
  | none => t

/-- The base directory and the directories that it lies in are there. -/
def Serves (base : List ν) (t : FileTree ν β) : Prop :=
  ∀ l ∈ base.inits, t.isDirectory l = true

/-- The two trees hold the same from the base directory on. -/
def AgreeInside (base : List ν) (t t' : FileTree ν β) : Prop :=
  ∀ l, base <+: l → t.lookup l = t'.lookup l

section Trees

variable {t t' : FileTree ν β} {base l m : List ν} {path lead : List (Component ν)}
variable {content : β} {e : Entry β}

@[simp] theorem lookup_insert_self : (t.insert l e).lookup l = some e :=
  AList.lookup_insert _

theorem lookup_insert_of_ne (h : m ≠ l) : (t.insert l e).lookup m = t.lookup m :=
  AList.lookup_insert_ne h

@[simp] theorem lookup_erase_self : (t.erase l).lookup l = none :=
  AList.lookup_erase _ _

theorem lookup_erase_of_ne (h : m ≠ l) : (t.erase l).lookup m = t.lookup m :=
  AList.lookup_erase_ne h

theorem isDirectory_congr (h : t.lookup l = t'.lookup l) : t.isDirectory l = t'.isDirectory l := by
  rw [isDirectory, h, isDirectory]

theorem isEmptyAt_iff : t.isEmptyAt l = true ↔ ∀ k, Inside l k → t.lookup k = none := by
  rw [isEmptyAt, List.all_eq_true]
  constructor
  · intro h k hk
    refine AList.lookup_eq_none.2 fun hmem => ?_
    have hnot := h k (AList.mem_keys.1 hmem)
    simp [hk] at hnot
  · intro h k hk
    -- a key always has an entry
    have hfound : t.lookup k ≠ none := by
      intro hnone
      exact AList.lookup_eq_none.1 hnone (AList.mem_keys.2 hk)
    simpa using fun hin => hfound (h k hin)

/-- A path leads to where its components say, if those before lead to directories. -/
theorem locate_eq_some_iff : t.locate l path = some m ↔
    resolve l path = m ∧
      ∀ before ∈ path.inits, before ≠ [] → before ≠ path →
        t.isDirectory (resolve l before) = true := by
  induction path generalizing l with
  | nil =>
      simp [locate]
  | cons c rest ih =>
      cases rest with
      | nil =>
          simp [locate]
      | cons d path =>
          rw [locate]
          constructor
          · intro h
            split at h
            · next hdir =>
                -- the first component led to a directory, the others do by induction
                rcases ih.1 h with ⟨hres, hdirs⟩
                refine ⟨hres, fun before hbefore hne hproper => ?_⟩
                rw [List.inits_cons] at hbefore
                rcases List.mem_cons.1 hbefore with rfl | hbefore
                · exact absurd rfl hne
                · rcases List.mem_map.1 hbefore with ⟨tail, htail, rfl⟩
                  by_cases hnil : tail = []
                  · subst hnil
                    exact hdir
                  · exact hdirs tail htail hnil fun heq => hproper (by rw [heq])
            · cases h
          · rintro ⟨hres, hdirs⟩
            have hdir : t.isDirectory (enter l c) = true :=
              hdirs [c] (by simp) (by simp) (by simp)
            rw [if_pos hdir]
            refine ih.2 ⟨hres, fun before hbefore hne hproper => ?_⟩
            refine hdirs (c :: before) ?_ (by simp) (by simpa using hproper)
            rw [List.inits_cons]
            exact List.mem_cons_of_mem _ (List.mem_map.2 ⟨before, hbefore, rfl⟩)

/-- An operation on a path may as well begin where the first directories of the path lead. -/
theorem locate_append (hne : path ≠ [])
    (hdirs : ∀ before ∈ lead.inits, before ≠ [] → t.isDirectory (resolve l before) = true) :
    t.locate l (lead ++ path) = t.locate (resolve l lead) path := by
  induction lead generalizing l with
  | nil =>
      rfl
  | cons c lead ih =>
      rcases List.exists_cons_of_ne_nil (List.append_ne_nil_of_right_ne_nil lead hne) with
        ⟨d, rest, hrest⟩
      have hfirst : t.isDirectory (enter l c) = true :=
        hdirs [c] (by simp) (by simp)
      have hlead : ∀ before ∈ lead.inits, before ≠ [] →
          t.isDirectory (resolve (enter l c) before) = true := by
        intro before hbefore _
        refine hdirs (c :: before) ?_ (by simp)
        rw [List.inits_cons]
        exact List.mem_cons_of_mem _ (List.mem_map.2 ⟨before, hbefore, rfl⟩)
      calc
        t.locate l (c :: lead ++ path)
            = t.locate l (c :: d :: rest) := by rw [List.cons_append, hrest]
        _ = t.locate (enter l c) (lead ++ path) := by rw [locate, if_pos hfirst, hrest]
        _ = t.locate (resolve l (c :: lead)) path := ih hlead

theorem read_append (hne : path ≠ [])
    (hdirs : ∀ before ∈ lead.inits, before ≠ [] → t.isDirectory (resolve l before) = true) :
    t.read l (lead ++ path) = t.read (resolve l lead) path := by
  rw [read, locate_append hne hdirs, read]

theorem write_append (hne : path ≠ [])
    (hdirs : ∀ before ∈ lead.inits, before ≠ [] → t.isDirectory (resolve l before) = true) :
    t.write l (lead ++ path) content = t.write (resolve l lead) path content := by
  rw [write, locate_append hne hdirs, endsInName, getLast?_lead hne]
  rfl

theorem remove_append (hne : path ≠ [])
    (hdirs : ∀ before ∈ lead.inits, before ≠ [] → t.isDirectory (resolve l before) = true) :
    t.remove l (lead ++ path) = t.remove (resolve l lead) path := by
  -- whether a location can be removed depends on the last component
  have hremovable : t.removable (lead ++ path) = t.removable path := by
    funext m
    rw [removable, endsInName, endsInBlank, getLast?_lead hne]
    rfl
  rw [remove, locate_append hne hdirs, hremovable, remove]

/-- Writing changes nothing but the file where the path leads. -/
theorem lookup_write_of_ne (h : m ≠ resolve l path) :
    (t.write l path content).lookup m = t.lookup m := by
  unfold write
  split
  · next k hk =>
      have hkm : m ≠ k := by
        rintro rfl
        exact h (locate_eq_some_iff.1 hk).1.symm
      split
      · exact lookup_insert_of_ne hkm
      · rfl
  · rfl

/-- Writing changes nothing at all where no file can be opened, or one that holds the content. -/
theorem lookup_write_eq_iff : (∀ m, (t.write l path content).lookup m = t.lookup m) ↔
    (t.Opens l path → t.read l path = some (.file content)) := by
  constructor
  · rintro hsame ⟨k, hk, hname, hfile⟩
    have hkept := hsame k
    rw [write, hk] at hkept
    dsimp only at hkept
    rw [if_pos ⟨hname, hfile⟩, lookup_insert_self] at hkept
    rw [read, hk, Option.bind_some, ← hkept]
  · intro hopens m
    unfold write
    split
    · next k hk =>
        split
        · next hwritten =>
            have hread := hopens ⟨k, hk, hwritten.1, hwritten.2⟩
            rw [read, hk, Option.bind_some] at hread
            by_cases hm : m = k
            · subst hm
              rw [lookup_insert_self, hread]
            · exact lookup_insert_of_ne hm
        · rfl
    · rfl

theorem lookup_remove_of_ne (h : m ≠ resolve l path) :
    (t.remove l path).lookup m = t.lookup m := by
  unfold remove
  split
  · next k hk =>
      have hkm : m ≠ k := by
        rintro rfl
        exact h (locate_eq_some_iff.1 hk).1.symm
      split
      · exact lookup_erase_of_ne hkm
      · rfl
  · rfl

/-- A file that was written in a directory is found there, unless a directory has its name. -/
theorem lookup_write_name {n : ν} (h : t.isDirectory (l ++ [n]) = false) :
    (t.write l [.name n] content).lookup (l ++ [n]) = some (.file content) := by
  have hopens : endsInName [Component.name n] = true ∧ t.isDirectory (l ++ [n]) = false :=
    ⟨rfl, h⟩
  rw [write, locate, enter]
  dsimp only
  rw [if_pos hopens, lookup_insert_self]

/-- A file that was removed is gone. -/
theorem lookup_remove_name {n : ν} (h : t.isDirectory (l ++ [n]) = false) :
    (t.remove l [.name n]).lookup (l ++ [n]) = none := by
  rw [remove, locate, enter]
  dsimp only
  cases hfound : t.lookup (l ++ [n]) with
  | none =>
      rw [removable, hfound]
      exact hfound
  | some e =>
      cases e with
      | file content =>
          rw [removable, hfound]
          exact lookup_erase_self
      | directory =>
          rw [isDirectory, hfound] at h
          cases h

end Trees

/-! ## Trees that agree inside a directory -/

section Agreement

variable {t t' : FileTree ν β} {base l m : List ν} {path : List (Component ν)} {content : β}

theorem isDirectory_of_along (hs : Serves base t) (hs' : Serves base t')
    (ha : AgreeInside base t t') (hl : Along base l) : t.isDirectory l = t'.isDirectory l := by
  rcases hl with hl | hl
  · -- on the way to the base directory both trees have directories
    rw [hs l ((List.mem_inits _ _).2 hl), hs' l ((List.mem_inits _ _).2 hl)]
  · exact isDirectory_congr (ha l hl)

theorem locate_congr (hs : Serves base t) (hs' : Serves base t') (ha : AgreeInside base t t')
    (hc : Confined base path) : t.locate base path = t'.locate base path := by
  ext m
  -- a confined path asks only about locations along the base directory
  have hdirs : ∀ before ∈ path.inits, t.isDirectory (resolve base before) =
      t'.isDirectory (resolve base before) := fun before hbefore =>
    isDirectory_of_along hs hs' ha (hc.along before hbefore)
  rw [locate_eq_some_iff, locate_eq_some_iff]
  refine and_congr_right fun _ => ?_
  constructor
  · intro h before hbefore hne hproper
    rw [← hdirs before hbefore]
    exact h before hbefore hne hproper
  · intro h before hbefore hne hproper
    rw [hdirs before hbefore]
    exact h before hbefore hne hproper

/-- Where a confined path leads is inside the base directory. -/
theorem inside_of_locate (hc : Confined base path) (h : t.locate base path = some m) :
    Inside base m := by
  rw [← (locate_eq_some_iff.1 h).1]
  exact hc.inside

theorem read_congr (hs : Serves base t) (hs' : Serves base t') (ha : AgreeInside base t t')
    (hc : Confined base path) : t.read base path = t'.read base path := by
  rw [read, read, locate_congr hs hs' ha hc]
  cases hm : t'.locate base path with
  | none =>
      rfl
  | some m =>
      exact ha m (inside_of_locate hc hm).1

theorem removable_congr (ha : AgreeInside base t t') (hm : base <+: m) :
    t.removable path m = t'.removable path m := by
  have hempty : t.isEmptyAt m = t'.isEmptyAt m := by
    rw [Bool.eq_iff_iff, isEmptyAt_iff, isEmptyAt_iff]
    refine forall_congr' fun k => forall_congr' fun hk => ?_
    -- what lies inside a location of the base directory lies inside that too
    rw [ha k (hm.trans hk.1)]
  rw [removable, removable, ha m hm, hempty]

theorem AgreeInside.write (ha : AgreeInside base t t') (hs : Serves base t) (hs' : Serves base t')
    (hc : Confined base path) :
    AgreeInside base (t.write base path content) (t'.write base path content) := by
  intro l hl
  unfold FileTree.write
  rw [locate_congr hs hs' ha hc]
  cases hm : t'.locate base path with
  | none =>
      exact ha l hl
  | some m =>
      dsimp only
      rw [isDirectory_congr (ha m (inside_of_locate hc hm).1)]
      split
      · by_cases hlm : l = m
        · rw [hlm, lookup_insert_self, lookup_insert_self]
        · rw [lookup_insert_of_ne hlm, lookup_insert_of_ne hlm, ha l hl]
      · exact ha l hl

theorem AgreeInside.remove (ha : AgreeInside base t t') (hs : Serves base t) (hs' : Serves base t')
    (hc : Confined base path) : AgreeInside base (t.remove base path) (t'.remove base path) := by
  intro l hl
  unfold FileTree.remove
  rw [locate_congr hs hs' ha hc]
  cases hm : t'.locate base path with
  | none =>
      exact ha l hl
  | some m =>
      dsimp only
      rw [removable_congr ha (inside_of_locate hc hm).1]
      split
      · by_cases hlm : l = m
        · rw [hlm, lookup_erase_self, lookup_erase_self]
        · rw [lookup_erase_of_ne hlm, lookup_erase_of_ne hlm, ha l hl]
      · exact ha l hl

theorem Serves.write (hs : Serves base t) (hc : Confined base path) :
    Serves base (t.write base path content) := by
  intro l hl
  -- the path ends strictly inside, so the directories on the way stay
  have hne : l ≠ resolve base path := hc.inside.ne_of_prefix ((List.mem_inits _ _).1 hl)
  rw [isDirectory_congr (lookup_write_of_ne hne)]
  exact hs l hl

theorem Serves.remove (hs : Serves base t) (hc : Confined base path) :
    Serves base (t.remove base path) := by
  intro l hl
  have hne : l ≠ resolve base path := hc.inside.ne_of_prefix ((List.mem_inits _ _).1 hl)
  rw [isDirectory_congr (lookup_remove_of_ne hne)]
  exact hs l hl

end Agreement

/-! ## Paths that tell trees apart -/

section Apart

variable {base l target : List ν} {path : List (Component ν)} {content : β}

/-- A file, and directories, one of which may take its place. -/
def planted (target : List ν) (content : β) : List (List ν) → FileTree ν β
  | [] => ({ entries := ∅ } : FileTree ν β).insert target (.file content)
  | l :: dirs => (planted target content dirs).insert l .directory

theorem lookup_planted (dirs : List (List ν)) :
    (planted target content dirs).lookup l =
      if l ∈ dirs then some .directory else if l = target then some (.file content) else none := by
  induction dirs with
  | nil =>
      by_cases hl : l = target
      · subst hl
        simp [planted]
      · rw [planted, lookup_insert_of_ne hl]
        simp [lookup, hl]
  | cons k dirs ih =>
      by_cases hl : l = k
      · subst hl
        simp [planted]
      · rw [planted, lookup_insert_of_ne hl, ih]
        simp [hl]

theorem isDirectory_planted (dirs : List (List ν)) :
    (planted target content dirs).isDirectory l = decide (l ∈ dirs) := by
  rw [isDirectory, lookup_planted]
  by_cases hl : l ∈ dirs
  · simp [hl]
  · rw [if_neg hl, decide_eq_false hl]
    by_cases ht : l = target
    · rw [if_pos ht]
    · rw [if_neg ht]

theorem serves_planted {dirs : List (List ν)} (h : ∀ l ∈ base.inits, l ∈ dirs) :
    Serves base (planted target content dirs) := by
  intro l hl
  rw [isDirectory_planted]
  exact decide_eq_true (h l hl)

/-- With every directory on the way, a path finds the file or the directory in its place. -/
theorem read_planted_ne_none {dirs : List (List ν)}
    (h : ∀ before ∈ path.inits, before ≠ path → resolve base before ∈ dirs) :
    (planted (resolve base path) content dirs).read base path ≠ none := by
  have hlocate : (planted (resolve base path) content dirs).locate base path =
      some (resolve base path) := by
    refine locate_eq_some_iff.2 ⟨rfl, fun before hbefore _ hproper => ?_⟩
    rw [isDirectory_planted]
    exact decide_eq_true (h before hbefore hproper)
  rw [read, hlocate, Option.bind_some, lookup_planted]
  split
  · simp
  · simp

/-- Where one directory on the way is missing, a path finds nothing. -/
theorem read_planted_eq_none {dirs : List (List ν)} {before : List (Component ν)}
    (hbefore : before ∈ path.inits) (hne : before ≠ []) (hproper : before ≠ path)
    (hmissing : resolve base before ∉ dirs) :
    (planted target content dirs).read base path = none := by
  have hlocate : (planted target content dirs).locate base path = none := by
    refine Option.eq_none_iff_forall_ne_some.2 fun m hm => ?_
    have hdir := (locate_eq_some_iff.1 hm).2 before hbefore hne hproper
    rw [isDirectory_planted] at hdir
    exact hmissing (of_decide_eq_true hdir)
  rw [read, hlocate]
  rfl

/-- A path that ends inside the base directory and is not confined finds something in one tree and
nothing in another, although the two agree inside. -/
theorem exists_told_apart (content : β) (hin : Inside base (resolve base path))
    (hout : ¬Confined base path) :
    ∃ t t' : FileTree ν β, Serves base t ∧ Serves base t' ∧ AgreeInside base t t' ∧
      t.read base path ≠ none ∧ t'.read base path = none := by
  -- a component that leads beside the base directory
  have hbeside : ∃ before ∈ path.inits, ¬Along base (resolve base before) := by
    by_contra hno
    push Not at hno
    exact hout ⟨hin, hno⟩
  rcases hbeside with ⟨before, hbefore, hbeside⟩
  -- the first tree has every directory on the way, the second one those along the base directory
  let dirs := base.inits ++ (path.inits.filter fun q => q ≠ path).map (resolve base)
  let along := dirs.filter fun l => Along base l
  have hbase : ∀ l ∈ base.inits, l ∈ dirs ∧ l ∈ along := by
    intro l hl
    have hdir : l ∈ dirs := List.mem_append_left _ hl
    exact ⟨hdir, List.mem_filter.2 ⟨hdir, decide_eq_true (Or.inl ((List.mem_inits _ _).1 hl))⟩⟩
  refine ⟨planted (resolve base path) content dirs, planted (resolve base path) content along,
    serves_planted fun l hl => (hbase l hl).1, serves_planted fun l hl => (hbase l hl).2,
    ?_, ?_, ?_⟩
  · intro l hl
    have hsame : l ∈ dirs ↔ l ∈ along :=
      ⟨fun h => List.mem_filter.2 ⟨h, decide_eq_true (Or.inr hl)⟩, fun h => (List.mem_filter.1 h).1⟩
    rw [lookup_planted, lookup_planted, if_congr hsame rfl rfl]
  · refine read_planted_ne_none fun q hq hproper => ?_
    refine List.mem_append_right _ (List.mem_map.2 ⟨q, ?_, rfl⟩)
    exact List.mem_filter.2 ⟨hq, decide_eq_true hproper⟩
  · -- the component that leads beside is neither the start nor the end of the path
    have hne : before ≠ [] := by
      rintro rfl
      exact hbeside .self
    have hproper : before ≠ path := by
      rintro rfl
      exact hbeside (Or.inr hin.1)
    refine read_planted_eq_none hbefore hne hproper fun hmem => ?_
    exact hbeside (of_decide_eq_true (List.mem_filter.1 hmem).2)

end Apart

end FileTree

end Library
end DropboxSimulator
