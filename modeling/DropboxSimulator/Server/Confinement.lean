import DropboxSimulator.Library.FileTree
import DropboxSimulator.Server.Threads

/-!
# Confinement — the files a user can reach

`uploadFileCommand`, `downloadFileCommand` and `deleteFileCommand` append the name that a command
carries to the directory of the user and open or remove what stands there; no name is checked.  A
name with `..` can leave the directory: the commands of a user stay inside the directory and depend
on nothing outside just when their names are confined to it (`keeps_iff_confined`).

The file system is a tree without symbolic links, and the server runs in the directory `cwd`.
-/

namespace DropboxSimulator
namespace Server

open Library

/-! ## Paths -/

/-- `"database"`, the last component of `DATABASE_DIR`. -/
def databaseName : Bytes :=
  [100, 97, 116, 97, 98, 97, 115, 101]

/-- A component of a path, as the file system takes it. -/
def component (bs : Bytes) : Component Bytes :=
  if bs = [] then .blank
  else if bs = [46] then .here
  else if bs = [46, 46] then .up
  else .name bs

/-- A relative path. -/
def pathOf (bs : Bytes) : List (Component Bytes) :=
  (bs.splitOn slash).map component

/-- A single plain path component. -/
structure Plain (name : Bytes) : Prop where
  noSlash : slash ∉ name
  isName : component name = .name name

/-- The directory of a user, which `createUserDirectory` makes. -/
def userLocation (cwd : List Bytes) (user : Bytes) : List Bytes :=
  cwd ++ [databaseName, user]

section Paths

variable {user name : Bytes} {cwd : List Bytes}

theorem pathOf_ne_nil : pathOf name ≠ [] := by
  simp [pathOf]

/-- The way to the directory of a user. -/
def userPath (user : Bytes) : List (Component Bytes) :=
  [.here, .name databaseName, .name user]

theorem resolve_userPath : resolve cwd (userPath user) = userLocation cwd user := by
  simp [userPath, userLocation, enter]

/-- The paths of the three functions lead through the directory of the user. -/
theorem pathOf_completePath (hplain : Plain user) :
    pathOf (completePath user name) = userPath user ++ pathOf name := by
  have hsplit : (completePath user name).splitOn slash =
      [46] :: databaseName :: user :: name.splitOn slash := by
    have hdot : slash ∉ ([46] : Bytes) := by decide
    have hdatabase : slash ∉ databaseName := by decide
    calc
      (completePath user name).splitOn slash
          = ([46] ++ slash :: (databaseName ++ slash :: (user ++ slash :: name))).splitOn
              slash := rfl
      _ = [46] :: databaseName :: user :: name.splitOn slash := by
            rw [List.splitOn_append_cons_self, List.splitOn_append_cons_self,
              List.splitOn_append_cons_self, List.splitOn_eq_singleton hdot,
              List.splitOn_eq_singleton hdatabase, List.splitOn_eq_singleton hplain.noSlash]
            rfl
  have hdatabase : component databaseName = .name databaseName := by decide
  rw [pathOf, hsplit, List.map_cons, List.map_cons, List.map_cons, hdatabase, hplain.isName]
  rfl

/-- A plain name is confined to any directory. -/
theorem Plain.confined (h : Plain name) (base : List Bytes) : Confined base (pathOf name) := by
  have hpath : pathOf name = [.name name] := by
    rw [pathOf, List.splitOn_eq_singleton h.noSlash, List.map_singleton, h.isName]
  rw [hpath]
  exact confined_name base name

end Paths

/-! ## Commands -/

abbrev Files := FileTree Bytes Bytes

/-- A command about a file. -/
inductive StoreCommand
  | change (c : FileCommand)
  | download (command : CommandPacket)

/-- What a client gets for a command.  `directory` stands for what a stream that was opened on a
directory makes of it: a size, or nothing.  Neither is `notDownloaded`, six bytes of memory. -/
inductive Answer
  | ack
  | file (fileContent : Bytes)
  | directory
  | notDownloaded
  deriving DecidableEq

namespace StoreCommand

/-- The file name that a command carries. -/
def fileName : StoreCommand → Bytes
  | .change (.upload fileName _) => fileName
  | .change (.delete command) => command.additionalInfo.string
  | .download command => command.additionalInfo.string

end StoreCommand

/-- The answer to a download. -/
def answer : Option (Entry Bytes) → Answer
  | some (.file fileContent) => .file fileContent
  | some .directory => .directory
  | none => .notDownloaded

section Performing

variable (cwd : List Bytes) (user : Bytes)

/-- `uploadFileCommand`, `deleteFileCommand` and `downloadFileCommand`, as far as the files and the
answers are concerned; the command packet has an acknowledgement of its own. -/
def perform (t : Files) : StoreCommand → Files × List Answer
  | .change (.upload fileName payload) =>
      -- `ofstream` on the path, a failure of which goes unnoticed
      (t.write cwd (pathOf (completePath user fileName)) payload,
        .ack :: List.replicate (FileCommand.upload fileName payload).acks .ack)
  | .change (.delete command) =>
      -- `remove` on the path
      (t.remove cwd (pathOf (completePath user command.additionalInfo.string)),
        .ack :: List.replicate (FileCommand.delete command).acks .ack)
  | .download command =>
      (t, [.ack, answer (t.read cwd (pathOf (completePath user command.additionalInfo.string)))])

/-- The commands of a session one after another. -/
def performAll : Files → List StoreCommand → Files × List Answer
  | t, [] => (t, [])
  | t, c :: rest =>
      let done := perform cwd user t c
      let later := performAll done.1 rest
      (later.1, done.2 ++ later.2)

/-- Commands with these names keep to the directory of the user: every path leads inside, from
two trees that agree inside the same commands get the same answers, and they leave everything
outside as it is. -/
structure Keeps (names : Set Bytes) : Prop where
  inside : ∀ name ∈ names,
    Inside (userLocation cwd user) (resolve cwd (pathOf (completePath user name)))
  answers : ∀ commands : List StoreCommand, (∀ c ∈ commands, c.fileName ∈ names) →
    ∀ t t' : Files, t.Serves (userLocation cwd user) → t'.Serves (userLocation cwd user) →
      t.AgreeInside (userLocation cwd user) t' →
        (performAll cwd user t commands).2 = (performAll cwd user t' commands).2
  outside : ∀ commands : List StoreCommand, (∀ c ∈ commands, c.fileName ∈ names) →
    ∀ t : Files, t.Serves (userLocation cwd user) → ∀ l, ¬userLocation cwd user <+: l →
      (performAll cwd user t commands).1.lookup l = t.lookup l

end Performing

/-! ## One command -/

section Steps

variable {cwd : List Bytes} {user name : Bytes} {t t' : Files} {c : StoreCommand}

/-- The directories that lead to the one of the user. -/
theorem served_userPath (hs : t.Serves (userLocation cwd user)) :
    ∀ before ∈ (userPath user).inits, before ≠ [] → t.isDirectory (resolve cwd before) = true := by
  intro before hbefore hne
  refine hs _ ((List.mem_inits _ _).2 ?_)
  simp only [userPath, List.inits, List.map_cons, List.map_nil, List.mem_cons, List.not_mem_nil,
    or_false] at hbefore
  -- nothing, `.`, the database and the directory of the user
  rcases hbefore with rfl | rfl | rfl | rfl
  · exact absurd rfl hne
  · exact List.prefix_append cwd _
  · refine ⟨[user], ?_⟩
    simp [enter, userLocation]
  · refine ⟨[], ?_⟩
    simp [enter, userLocation]

theorem read_completePath (hplain : Plain user) (hs : t.Serves (userLocation cwd user)) :
    t.read cwd (pathOf (completePath user name)) =
      t.read (userLocation cwd user) (pathOf name) := by
  rw [pathOf_completePath hplain, FileTree.read_append pathOf_ne_nil (served_userPath hs),
    resolve_userPath]

theorem write_completePath (hplain : Plain user) (hs : t.Serves (userLocation cwd user))
    (payload : Bytes) :
    t.write cwd (pathOf (completePath user name)) payload =
      t.write (userLocation cwd user) (pathOf name) payload := by
  rw [pathOf_completePath hplain, FileTree.write_append pathOf_ne_nil (served_userPath hs),
    resolve_userPath]

theorem remove_completePath (hplain : Plain user) (hs : t.Serves (userLocation cwd user)) :
    t.remove cwd (pathOf (completePath user name)) =
      t.remove (userLocation cwd user) (pathOf name) := by
  rw [pathOf_completePath hplain, FileTree.remove_append pathOf_ne_nil (served_userPath hs),
    resolve_userPath]

/-- A command with a confined name keeps the directory of the user, and changes nothing outside. -/
theorem perform_frame (hplain : Plain user) (hs : t.Serves (userLocation cwd user))
    (hc : Confined (userLocation cwd user) (pathOf c.fileName)) :
    (perform cwd user t c).1.Serves (userLocation cwd user) ∧
      ∀ l, ¬userLocation cwd user <+: l → (perform cwd user t c).1.lookup l = t.lookup l := by
  -- the place that a command changes is inside
  have hoff : ∀ l, ¬userLocation cwd user <+: l →
      l ≠ resolve (userLocation cwd user) (pathOf c.fileName) := by
    rintro l hl rfl
    exact hl hc.inside.1
  cases c with
  | change c =>
      cases c with
      | upload fileName payload =>
          dsimp only [perform]
          rw [write_completePath hplain hs]
          exact ⟨FileTree.Serves.write hs hc, fun l hl => FileTree.lookup_write_of_ne (hoff l hl)⟩
      | delete command =>
          dsimp only [perform]
          rw [remove_completePath hplain hs]
          exact ⟨FileTree.Serves.remove hs hc, fun l hl => FileTree.lookup_remove_of_ne (hoff l hl)⟩
  | download command =>
      exact ⟨hs, fun _ _ => rfl⟩

/-- Trees that agree inside the directory of the user answer a command with a confined name alike,
and agree there afterwards. -/
theorem perform_congr (hplain : Plain user) (hs : t.Serves (userLocation cwd user))
    (hs' : t'.Serves (userLocation cwd user)) (ha : t.AgreeInside (userLocation cwd user) t')
    (hc : Confined (userLocation cwd user) (pathOf c.fileName)) :
    (perform cwd user t c).2 = (perform cwd user t' c).2 ∧
      (perform cwd user t c).1.AgreeInside (userLocation cwd user) (perform cwd user t' c).1 := by
  cases c with
  | change c =>
      cases c with
      | upload fileName payload =>
          dsimp only [perform]
          rw [write_completePath hplain hs, write_completePath hplain hs']
          exact ⟨rfl, FileTree.AgreeInside.write ha hs hs' hc⟩
      | delete command =>
          dsimp only [perform]
          rw [remove_completePath hplain hs, remove_completePath hplain hs']
          exact ⟨rfl, FileTree.AgreeInside.remove ha hs hs' hc⟩
  | download command =>
      -- a download leaves the trees alone and tells what it found
      have hread : t.read (userLocation cwd user) (pathOf command.additionalInfo.string) =
          t'.read (userLocation cwd user) (pathOf command.additionalInfo.string) :=
        FileTree.read_congr hs hs' ha hc
      dsimp only [perform]
      rw [read_completePath hplain hs, read_completePath hplain hs', hread]
      exact ⟨rfl, ha⟩

end Steps

/-! ## Sequences of commands -/

section Sequences

variable {cwd : List Bytes} {user name : Bytes} {t t' : Files} {commands : List StoreCommand}

theorem performAll_frame (hplain : Plain user) (hs : t.Serves (userLocation cwd user))
    (hc : ∀ c ∈ commands, Confined (userLocation cwd user) (pathOf c.fileName)) :
    ∀ l, ¬userLocation cwd user <+: l →
      (performAll cwd user t commands).1.lookup l = t.lookup l := by
  intro l hl
  induction commands generalizing t with
  | nil =>
      rfl
  | cons c rest ih =>
      rcases perform_frame hplain hs (hc c List.mem_cons_self) with ⟨hserves, hframe⟩
      have hrest := ih hserves fun c hmem => hc c (List.mem_cons_of_mem _ hmem)
      exact hrest.trans (hframe l hl)

theorem performAll_congr (hplain : Plain user) (hs : t.Serves (userLocation cwd user))
    (hs' : t'.Serves (userLocation cwd user)) (ha : t.AgreeInside (userLocation cwd user) t')
    (hc : ∀ c ∈ commands, Confined (userLocation cwd user) (pathOf c.fileName)) :
    (performAll cwd user t commands).2 = (performAll cwd user t' commands).2 := by
  induction commands generalizing t t' with
  | nil =>
      rfl
  | cons c rest ih =>
      have hfirst := hc c List.mem_cons_self
      rcases perform_congr hplain hs hs' ha hfirst with ⟨hanswers, hagree⟩
      -- the first command leaves two trees that agree as before
      have hrest := ih (perform_frame hplain hs hfirst).1 (perform_frame hplain hs' hfirst).1 hagree
        fun c hmem => hc c (List.mem_cons_of_mem _ hmem)
      rw [performAll, performAll, hanswers, hrest]

/-- A name that fits the command packet. -/
def Carried (name : Bytes) : Prop :=
  name.length < 100 ∧ ∀ b ∈ name, b ≠ 0

/-- A packet that asks for a file of this name. -/
theorem exists_download (hname : Carried name) :
    ∃ command : CommandPacket, command.additionalInfo.string = name := by
  rcases emptyPacket.additionalInfo.exists_strcpy hname.1 with ⟨info, hinfo⟩
  exact ⟨{ emptyPacket with additionalInfo := info }, CharArray.string_of_strcpy hname.2 hinfo⟩

/-- What is found and what is not are answered differently. -/
theorem answer_ne_of_ne_none {found : Option (Entry Bytes)} (h : found ≠ none) :
    answer found ≠ answer none := by
  cases found with
  | none =>
      exact absurd rfl h
  | some e =>
      cases e <;> simp [answer]

/-- The commands of a user keep to the user's directory just when the names they carry are confined
to it. -/
theorem keeps_iff_confined {names : Set Bytes} (hplain : Plain user)
    (hnames : ∀ name ∈ names, Carried name) :
    Keeps cwd user names ↔ ∀ name ∈ names, Confined (userLocation cwd user) (pathOf name) := by
  have hresolve : ∀ name, resolve cwd (pathOf (completePath user name)) =
      resolve (userLocation cwd user) (pathOf name) := by
    intro name
    rw [pathOf_completePath hplain, resolve_append, resolve_userPath]
  constructor
  · intro hkeeps name hname
    have hinside := hkeeps.inside name hname
    rw [hresolve] at hinside
    by_contra hout
    -- two trees that a download of the name tells apart
    rcases FileTree.exists_told_apart ([] : Bytes) hinside hout with
      ⟨t, t', hs, hs', hagree, hfound, hmissing⟩
    rcases exists_download (hnames name hname) with ⟨command, hcommand⟩
    have hcarried : ∀ c ∈ [StoreCommand.download command], c.fileName ∈ names := by
      intro c hc
      rw [List.mem_singleton.1 hc]
      change command.additionalInfo.string ∈ names
      rwa [hcommand]
    have hsame := hkeeps.answers [.download command] hcarried t t' hs hs' hagree
    simp only [performAll, perform, hcommand, read_completePath hplain hs,
      read_completePath hplain hs', hmissing, List.append_nil, List.cons.injEq, true_and,
      and_true] at hsame
    exact answer_ne_of_ne_none hfound hsame
  · intro hconfined
    -- every command of such a sequence is confined
    have hall : ∀ commands : List StoreCommand, (∀ c ∈ commands, c.fileName ∈ names) →
        ∀ c ∈ commands, Confined (userLocation cwd user) (pathOf c.fileName) :=
      fun commands hcommands c hc => hconfined _ (hcommands c hc)
    constructor
    · intro name hname
      rw [hresolve]
      exact (hconfined name hname).inside
    · intro commands hcommands t t' hs hs' hagree
      exact performAll_congr hplain hs hs' hagree (hall commands hcommands)
    · intro commands hcommands t hs
      exact performAll_frame hplain hs (hall commands hcommands)

end Sequences

/-- The user `a`. -/
theorem plain_a : Plain [97] where
  noSlash := by decide
  isName := by decide

/-- Commands about the file `f`. -/
theorem keeps_iff_confined_oneFile : Keeps [] [97] {[102]} := by
  have hcarried : ∀ name ∈ ({[102]} : Set Bytes), Carried name := by
    rintro name rfl
    exact ⟨by decide, by simp⟩
  refine (keeps_iff_confined plain_a hcarried).2 ?_
  rintro name rfl
  exact Plain.confined ⟨by decide, by decide⟩ _

/-- `"../b/x"`. -/
def fileOfB : Bytes :=
  [46, 46, 47, 98, 47, 120]

/-- The directories of the users `a` and `b`, and the file `x` of `b`. -/
def twoUsers (content : Bytes) : Files :=
  .planted [databaseName, [98], [120]] content
    [[], [databaseName], [databaseName, [97]], [databaseName, [98]]]

/-- A packet with the name of the file of `b`. -/
def packetOfB : CommandPacket :=
  { emptyPacket with additionalInfo := ⟨fileOfB ++ List.replicate 94 0, by decide⟩ }

/-- The user `a` reads and deletes a file of `b`. -/
theorem fileOfB_reached :
    packetOfB.additionalInfo.string = fileOfB ∧
      (twoUsers [1]).Serves (userLocation [] [97]) ∧ (twoUsers [2]).Serves (userLocation [] [97]) ∧
      (twoUsers [1]).AgreeInside (userLocation [] [97]) (twoUsers [2]) ∧
      ¬Inside (userLocation [] [97]) (resolve [] (pathOf (completePath [97] fileOfB))) ∧
      (performAll [] [97] (twoUsers [1]) [.download packetOfB]).2 ≠
        (performAll [] [97] (twoUsers [2]) [.download packetOfB]).2 ∧
      (performAll [] [97] (twoUsers [1]) [.change (.delete packetOfB)]).1.lookup
        [databaseName, [98], [120]] ≠ (twoUsers [1]).lookup [databaseName, [98], [120]] := by
  have hserves : ∀ content, (twoUsers content).Serves (userLocation [] [97]) := by
    intro content l hl
    rw [twoUsers, FileTree.isDirectory_planted]
    simp only [userLocation, List.nil_append, List.inits, List.map_cons, List.map_nil,
      List.mem_cons, List.not_mem_nil, or_false] at hl
    rcases hl with rfl | rfl | rfl <;> decide
  refine ⟨by decide, hserves [1], hserves [2], ?_, by decide, by decide +kernel, ?_⟩
  · intro l hl
    -- the two trees differ in the file of `b` alone
    have hoff : l ≠ [databaseName, [98], [120]] := by
      rintro rfl
      exact absurd hl (by decide)
    rw [twoUsers, twoUsers, FileTree.lookup_planted, FileTree.lookup_planted, if_neg hoff,
      if_neg hoff]
  · decide +kernel

end Server
end DropboxSimulator
