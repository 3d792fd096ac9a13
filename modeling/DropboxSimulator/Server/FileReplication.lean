import DropboxSimulator.Library.Relay
import DropboxSimulator.Server.Threads

/-!
# FileReplication — the files of a primary and of a secondary

A command thread changes a file of the primary outside any lock, then tells the other devices of
the user under `mutex_user_structure`, and last sends the change to the secondary under
`mutex_server_structure`.  Here each file change and each critical section is one step, and
messages are delivered whole and in order.

Two threads can send in another order than that in which they changed their files.  As long as it
makes no difference that a message overtakes changes made before its own (`Orderly`), the two
servers hold the same files whenever nothing is in progress.

The file system is any deterministic one (`FileSystem`); `Disk` is one that runs.
-/

namespace DropboxSimulator
namespace Server

open Library

/-! ## File systems -/

/-- What the servers use of a file system; an operation that fails leaves the disk as it is. -/
structure FileSystem (δ : Type) where
  write : Bytes → Bytes → δ → δ
  remove : Bytes → δ → δ
  makeDirectory : Bytes → δ → δ
  content : δ → Bytes → Option Bytes

/-- A disk with the directories and the files that it holds. -/
structure Disk where
  hasDirectory : Bytes → Bool
  files : Bytes → Option Bytes

namespace Disk

/-- The directory part of a path. -/
def directoryOf (path : Bytes) : Bytes :=
  ((path.reverse.dropWhile (· ≠ slash)).drop 1).reverse

def write (path payload : Bytes) (disk : Disk) : Disk :=
  -- `ofstream` creates no directories
  if disk.hasDirectory (directoryOf path) then
    { disk with files := Function.update disk.files path (some payload) }
  else
    disk

def remove (path : Bytes) (disk : Disk) : Disk :=
  { disk with files := Function.update disk.files path none }

def makeDirectory (path : Bytes) (disk : Disk) : Disk :=
  { disk with hasDirectory := Function.update disk.hasDirectory path true }

def fileSystem : FileSystem Disk where
  write := write
  remove := remove
  makeDirectory := makeDirectory
  content := files

end Disk

/-! ## What the two servers do to their files -/

section Changes

variable {δ : Type} (fs : FileSystem δ)

/-- The directory of a user. -/
def userDirectory (user : Bytes) : Bytes :=
  databaseDir ++ slash :: user

/-- The file change of `uploadFileCommand` and `deleteFileCommand`. -/
def FileCommand.change (userName : Bytes) : FileCommand → δ → δ
  | .upload fileName payload => fs.write (completePath userName fileName) payload
  | .delete command => fs.remove (completePath userName command.additionalInfo.string)

/-- What a message does to the files of the secondary: `receiveFileUploadedFromPrimary`,
`deleteFileDeletedInPrimary` and the directory that `insertUserConnectedInPrimary` creates. -/
def receive : WireMessage → δ → δ
  | .upload path payload => fs.write path payload
  | .delete path => fs.remove path
  | .insertUser con => fs.makeDirectory (userDirectory con.user)
  | .exit _ => id

/-- The secondary is told just what the primary did. -/
theorem receive_message (c : FileCommand) (userName : Bytes) :
    receive fs (c.message userName) = c.change fs userName := by
  cases c <;> rfl

end Changes

/-! ## Steps -/

/-- Where a command thread stands in a file command. -/
inductive Progress
  | idle
  | change (c : FileCommand)
  | notify (c : FileCommand)
  | replicate (c : FileCommand)
  | ended

structure FileThread where
  userName : Bytes
  progress : Progress

/-- The change the thread has made and not yet sent. -/
def FileThread.unsent (t : FileThread) : Option WireMessage :=
  match t.progress with
  | .notify c => some (c.message t.userName)
  | .replicate c => some (c.message t.userName)
  | _ => none

/-- The thread has no command in progress. -/
def FileThread.resting (t : FileThread) : Bool :=
  match t.progress with
  | .idle => true
  | .ended => true
  | _ => false

/-- A primary with a secondary.  `unsent` lists the changes made and not yet sent, in the order in
which they were made; the code does not keep it. -/
structure Mirror (δ : Type) where
  primary : δ
  secondary : δ
  threads : List FileThread
  unsent : List (Nat × WireMessage)
  inFlight : List WireMessage

/-- Steps of the system: a connection is admitted, a command thread `i` reads a command or does
its next part, a session exits, the secondary handles a message. -/
inductive FileStep
  | connect (con : Connection)
  | command (i : Nat) (c : FileCommand)
  | change (i : Nat)
  | notify (i : Nat)
  | replicate (i : Nat) (stale : CommandPacket)
  | exit (i : Nat) (record : CharArray userCurrentSocketSize)
  | deliver

namespace Mirror

variable {δ : Type} (fs : FileSystem δ)

/-- The moment the secondary is registered, with the command threads of that moment. -/
def start (primary secondary : δ) (userNames : List Bytes) : Mirror δ where
  primary := primary
  secondary := secondary
  threads := userNames.map fun userName => { userName := userName, progress := .idle }
  unsent := []
  inFlight := []

/-- Thread `i` comes to stand elsewhere. -/
def goto (w : Mirror δ) (i : Nat) (t : FileThread) (progress : Progress) : Mirror δ :=
  { w with threads := w.threads.set i { t with progress := progress } }

section Goto

variable {w : Mirror δ} {i : Nat} {t : FileThread} {progress : Progress}

@[simp] theorem goto_primary : (w.goto i t progress).primary = w.primary :=
  rfl

@[simp] theorem goto_secondary : (w.goto i t progress).secondary = w.secondary :=
  rfl

@[simp] theorem goto_unsent : (w.goto i t progress).unsent = w.unsent :=
  rfl

@[simp] theorem goto_inFlight : (w.goto i t progress).inFlight = w.inFlight :=
  rfl

end Goto

/-- The command threads that an admitted connection starts. -/
def started (con : Connection) : List FileThread :=
  if con.packetType = packetConn ∧ (con.socketType = socketT1 ∨ con.socketType = socketT2) then
    [{ userName := con.user, progress := .idle }]
  else
    []

/-- The secondary is told of the connection and `createUserDirectory` follows; the path of the
directory is built in an array of 50 characters. -/
def connect (w : Mirror δ) (con : Connection) : Option (Mirror δ) :=
  -- of the 50 characters one is the final zero
  if (userDirectory con.user).length < 50 then
    some
      { w with
        primary := fs.makeDirectory (userDirectory con.user) w.primary
        inFlight := w.inFlight ++ [.insertUser con]
        threads := w.threads ++ started con }
  else
    none

def step (w : Mirror δ) : FileStep → Option (Mirror δ)
  | .connect con => w.connect fs con
  | .command i c =>
      match w.threads[i]? with
      | some ⟨userName, .idle⟩ =>
          if c.Readable then some (w.goto i ⟨userName, .idle⟩ (.change c)) else none
      | _ => none
  | .change i =>
      -- the file changes before either semaphore is taken
      match w.threads[i]? with
      | some ⟨userName, .change c⟩ =>
          some
            { w.goto i ⟨userName, .change c⟩ (.notify c) with
              primary := c.change fs userName w.primary
              unsent := w.unsent ++ [(i, c.message userName)] }
      | _ => none
  | .notify i =>
      match w.threads[i]? with
      | some ⟨userName, .notify c⟩ => some (w.goto i ⟨userName, .notify c⟩ (.replicate c))
      | _ => none
  | .replicate i stale =>
      match w.threads[i]? with
      | some ⟨userName, .replicate c⟩ =>
          match writesOf stale (c.message userName) with
          -- `strcpy` of the path overflows the header
          | none => none
          | some _ =>
              some
                { w.goto i ⟨userName, .replicate c⟩ .idle with
                  unsent := w.unsent.filter fun e => e.1 ≠ i
                  inFlight := w.inFlight ++ [c.message userName] }
      | _ => none
  | .exit i record =>
      match w.threads[i]? with
      | some ⟨userName, .idle⟩ =>
          some
            { w.goto i ⟨userName, .idle⟩ .ended with inFlight := w.inFlight ++ [.exit record] }
      | _ => none
  | .deliver =>
      match w.inFlight with
      | [] => none
      | m :: rest => some { w with secondary := receive fs m w.secondary, inFlight := rest }

/-- No command is in progress and no message is in flight. -/
def Quiet (w : Mirror δ) : Prop :=
  (∀ t ∈ w.threads, t.resting = true) ∧ w.inFlight = []

instance (w : Mirror δ) : Decidable w.Quiet :=
  inferInstanceAs (Decidable ((∀ t ∈ w.threads, t.resting = true) ∧ w.inFlight = []))

/-- The effects of the steps. -/
inductive Stepped (w : Mirror δ) : FileStep → Mirror δ → Prop
  | connect (con : Connection) :
      Stepped w (.connect con)
        { w with
          primary := receive fs (.insertUser con) w.primary
          inFlight := w.inFlight ++ [.insertUser con]
          threads := w.threads ++ started con }
  | command (i : Nat) (userName : Bytes) (c : FileCommand)
      (ht : w.threads[i]? = some ⟨userName, .idle⟩) (hread : c.Readable) :
      Stepped w (.command i c) (w.goto i ⟨userName, .idle⟩ (.change c))
  | change (i : Nat) (userName : Bytes) (c : FileCommand)
      (ht : w.threads[i]? = some ⟨userName, .change c⟩) :
      Stepped w (.change i)
        { w.goto i ⟨userName, .change c⟩ (.notify c) with
          primary := c.change fs userName w.primary
          unsent := w.unsent ++ [(i, c.message userName)] }
  | notify (i : Nat) (userName : Bytes) (c : FileCommand)
      (ht : w.threads[i]? = some ⟨userName, .notify c⟩) :
      Stepped w (.notify i) (w.goto i ⟨userName, .notify c⟩ (.replicate c))
  | replicate (i : Nat) (userName : Bytes) (c : FileCommand) (stale : CommandPacket)
      (ht : w.threads[i]? = some ⟨userName, .replicate c⟩) :
      Stepped w (.replicate i stale)
        { w.goto i ⟨userName, .replicate c⟩ .idle with
          unsent := w.unsent.filter fun e => e.1 ≠ i
          inFlight := w.inFlight ++ [c.message userName] }
  | exit (i : Nat) (userName : Bytes) (record : CharArray userCurrentSocketSize)
      (ht : w.threads[i]? = some ⟨userName, .idle⟩) :
      Stepped w (.exit i record)
        { w.goto i ⟨userName, .idle⟩ .ended with inFlight := w.inFlight ++ [.exit record] }
  | deliver (m : WireMessage) (rest : List WireMessage) (hm : w.inFlight = m :: rest) :
      Stepped w .deliver { w with secondary := receive fs m w.secondary, inFlight := rest }

variable {fs} {w w' : Mirror δ} {l : FileStep}

theorem step_cases (h : w.step fs l = some w') : Stepped fs w l w' := by
  cases l with
  | connect con =>
      simp only [step, Mirror.connect] at h
      split at h
      · cases h
        exact .connect con
      · cases h
  | command i c =>
      simp only [step] at h
      split at h
      · next userName ht =>
          split at h
          · next hread =>
              cases h
              exact .command i userName c ht hread
          · cases h
      · cases h
  | change i =>
      simp only [step] at h
      split at h
      · next userName c ht =>
          cases h
          exact .change i userName c ht
      · cases h
  | notify i =>
      simp only [step] at h
      split at h
      · next userName c ht =>
          cases h
          exact .notify i userName c ht
      · cases h
  | replicate i stale =>
      simp only [step] at h
      split at h
      · next userName c ht =>
          split at h
          · cases h
          · cases h
            exact .replicate i userName c stale ht
      · cases h
  | exit i record =>
      simp only [step] at h
      split at h
      · next userName ht =>
          cases h
          exact .exit i userName record ht
      · cases h
  | deliver =>
      simp only [step] at h
      split at h
      · cases h
      · next m rest hm =>
          cases h
          exact .deliver m rest hm

/-! ## Orderly runs -/

variable (fs)

/-- A message is sent only if it may overtake the changes that were made before its own and have
not been sent yet, on the disk that the secondary has once everything in flight has arrived. -/
def Orderly (w : Mirror δ) : FileStep → Prop
  | .connect con =>
      Overtakes (receive fs) (w.unsent.map Prod.snd) (.insertUser con)
        (applyAll (receive fs) w.inFlight w.secondary)
  | .replicate i _ =>
      ∀ t ∈ w.threads[i]?, ∀ m ∈ t.unsent,
        Overtakes (receive fs) ((w.unsent.takeWhile fun e => e.1 ≠ i).map Prod.snd) m
          (applyAll (receive fs) w.inFlight w.secondary)
  | _ => True

/-- The primary is the secondary after what it has still to be told. -/
structure Consistent (w : Mirror δ) : Prop where
  follows : Follows (receive fs) (w.unsent.map Prod.snd) w.inFlight w.primary w.secondary
  ledger : Ledger FileThread.unsent w.threads w.unsent

variable {fs}

theorem Consistent.start (disk : δ) (userNames : List Bytes) :
    Consistent fs (Mirror.start disk disk userNames) where
  follows := .refl
  ledger := by
    refine ⟨List.nodup_nil, fun i m => ⟨fun hmem => (nomatch hmem), fun ⟨t, ht, hm⟩ => ?_⟩⟩
    rcases List.mem_map.1 (List.mem_of_getElem? ht) with ⟨userName, _, rfl⟩
    cases hm

/-- Threads that an admitted connection starts owe nothing. -/
theorem ledger_started {con : Connection}
    (h : Ledger FileThread.unsent w.threads w.unsent) :
    Ledger FileThread.unsent (w.threads ++ started con) w.unsent := by
  unfold started
  split
  · exact h.append rfl
  · simpa using h

/-- An orderly step keeps the two servers consistent. -/
theorem Consistent.step (hi : Consistent fs w) (hok : Orderly fs w l)
    (h : w.step fs l = some w') : Consistent fs w' := by
  cases step_cases h with
  | connect con =>
      refine ⟨?_, ledger_started hi.ledger⟩
      have hmade := hi.follows.make (.insertUser con)
      have hsent : Follows (receive fs) (w.unsent.map Prod.snd ++ [])
          (w.inFlight ++ [.insertUser con]) _ w.secondary := hmade.send hok
      simpa using hsent
  | command i userName c ht hread =>
      exact ⟨hi.follows, hi.ledger.set ht rfl⟩
  | change i userName c ht =>
      refine ⟨?_, hi.ledger.make ht rfl rfl⟩
      -- the change is made, and the thread owes it to the secondary
      have hmade := hi.follows.make (c.message userName)
      rw [receive_message] at hmade
      simpa using hmade
  | notify i userName c ht =>
      exact ⟨hi.follows, hi.ledger.set ht rfl⟩
  | replicate i userName c stale ht =>
      refine ⟨?_, hi.ledger.send ht rfl⟩
      have hmem : (i, c.message userName) ∈ w.unsent :=
        (hi.ledger.mem_iff i _).2 ⟨_, ht, rfl⟩
      -- a thread owes one change, with others that it overtakes before it
      rcases hi.ledger.split hmem with ⟨after, hsplit, hfilter⟩
      have hfollows := hi.follows
      rw [hsplit, List.map_append, List.map_cons] at hfollows
      have hsent := hfollows.send (hok _ ht _ rfl)
      change Follows _ ((w.unsent.filter fun e => e.1 ≠ i).map Prod.snd) _ _ _
      rw [hfilter, List.map_append]
      exact hsent
  | exit i userName record ht =>
      refine ⟨?_, hi.ledger.set ht rfl⟩
      -- an exit changes no file, so it can be thought of as a change that commutes with all
      have hmade := hi.follows.make (.exit record)
      have hsent : Follows (receive fs) (w.unsent.map Prod.snd ++ [])
          (w.inFlight ++ [.exit record]) w.primary w.secondary :=
        hmade.send (.of_commute fun op _ => Function.Commute.id_right)
      simpa using hsent
  | deliver m rest hm =>
      refine ⟨?_, hi.ledger⟩
      have hfollows := hi.follows
      rw [hm] at hfollows
      exact hfollows.deliver

/-- In an orderly run from equal disks, the two servers hold the same files whenever no command is
in progress and no message in flight. -/
theorem replicas_agree (disk : δ) (userNames : List Bytes)
    (h : Reaches (Mirror.step fs) (Orderly fs) (Mirror.start disk disk userNames) w)
    (hquiet : w.Quiet) (path : Bytes) :
    fs.content w.primary path = fs.content w.secondary path := by
  have hi : Consistent fs w :=
    h.invariant (.start disk userNames) fun _ _ _ hi hok hl => hi.step hok hl
  have hunsent : w.unsent = [] := by
    rw [List.eq_nil_iff_forall_not_mem]
    rintro ⟨i, m⟩ hmem
    rcases (hi.ledger.mem_iff i m).1 hmem with ⟨t, ht, hm⟩
    -- a thread that owes a change is not at rest
    have hrest := hquiet.1 t (List.mem_of_getElem? ht)
    rcases t with ⟨userName, progress⟩
    cases progress with
    | idle | change | ended =>
        cases hm
    | notify | replicate =>
        cases hrest
  have hfollows := hi.follows
  rw [hunsent, hquiet.2] at hfollows
  rw [hfollows.eq]

end Mirror

/-! ## Changes of different files -/

/-- The file that a message changes. -/
def fileOf : WireMessage → Option Bytes
  | .upload path _ => some path
  | .delete path => some path
  | _ => none

/-- Two messages that change different files. -/
def Apart (m m' : WireMessage) : Prop :=
  ∃ path ∈ fileOf m, ∃ path' ∈ fileOf m', path ≠ path'

instance (m m' : WireMessage) : Decidable (Apart m m') :=
  inferInstanceAs (Decidable (∃ path ∈ fileOf m, ∃ path' ∈ fileOf m', path ≠ path'))

namespace Disk

/-- Set one file of a disk, if its directory is there or is not needed. -/
def update (needed : Bool) (path : Bytes) (content : Option Bytes) (disk : Disk) : Disk :=
  if needed = true → disk.hasDirectory (directoryOf path) = true then
    { disk with files := Function.update disk.files path content }
  else
    disk

theorem update_comm {path path' : Bytes} (hne : path ≠ path') (needed needed' : Bool)
    (content content' : Option Bytes) (disk : Disk) :
    update needed path content (update needed' path' content' disk) =
      update needed' path' content' (update needed path content disk) := by
  unfold update
  -- neither change looks at the file of the other, and directories stay
  by_cases h : needed = true → disk.hasDirectory (directoryOf path) = true
  · by_cases h' : needed' = true → disk.hasDirectory (directoryOf path') = true
    · simp only [if_pos h, if_pos h']
      rw [Function.update_comm hne]
    · simp only [if_pos h, if_neg h']
  · by_cases h' : needed' = true → disk.hasDirectory (directoryOf path') = true
    · simp only [if_neg h, if_pos h']
    · simp only [if_neg h, if_neg h']

/-- A message about a file sets just that file. -/
theorem receive_eq_update {m : WireMessage} {path : Bytes} (hm : fileOf m = some path) :
    ∃ needed content, receive fileSystem m = update needed path content := by
  cases m with
  | upload path' payload =>
      cases hm
      exact ⟨true, some payload, by funext disk; simp [receive, fileSystem, write, update]⟩
  | delete path' =>
      cases hm
      exact ⟨false, none, by funext disk; simp [receive, fileSystem, remove, update]⟩
  | _ =>
      cases hm

theorem commute_of_apart {m m' : WireMessage} (h : Apart m m') :
    Function.Commute (receive fileSystem m) (receive fileSystem m') := by
  rcases h with ⟨path, hm, path', hm', hne⟩
  rcases receive_eq_update hm with ⟨needed, content, heq⟩
  rcases receive_eq_update hm' with ⟨needed', content', heq'⟩
  rw [heq, heq']
  exact update_comm hne needed needed' content content'

/-- A message overtakes only changes of other files, and none while a connection is admitted. -/
def OrderlyFiles (w : Mirror Disk) : FileStep → Prop
  | .connect _ => w.unsent.isEmpty = true
  | .replicate i _ =>
      ∀ t ∈ w.threads[i]?, ∀ m ∈ t.unsent, ∀ e ∈ w.unsent.takeWhile fun e => e.1 ≠ i,
        Apart e.2 m
  | _ => True

theorem OrderlyFiles.orderly {w : Mirror Disk} {l : FileStep} (h : OrderlyFiles w l) :
    w.Orderly fileSystem l := by
  cases l with
  | connect con =>
      rw [Mirror.Orderly, List.isEmpty_iff.1 h]
      rfl
  | replicate i stale =>
      intro t ht m hm
      refine .of_commute fun op hop => ?_
      rcases List.mem_map.1 hop with ⟨e, he, rfl⟩
      exact commute_of_apart (h t ht m hm e he)
  | _ =>
      trivial

instance (w : Mirror Disk) (l : FileStep) : Decidable (OrderlyFiles w l) :=
  match l with
  | .connect _ => inferInstanceAs (Decidable (w.unsent.isEmpty = true))
  | .replicate i _ =>
      inferInstanceAs (Decidable (∀ t ∈ w.threads[i]?, ∀ m ∈ t.unsent,
        ∀ e ∈ w.unsent.takeWhile fun e => e.1 ≠ i, Apart e.2 m))
  | .command _ _ | .change _ | .notify _ | .exit _ _ | .deliver => inferInstanceAs (Decidable True)

/-- A disk with the directory of user `a` and no files. -/
def empty : Disk where
  hasDirectory := fun path => path = userDirectory [97]
  files := fun _ => none

end Disk

/-- Two threads of user `a` upload a file each and send in the other order. -/
def crossedUploads (fileName fileName' : Bytes) : List FileStep :=
  [.command 0 (.upload fileName [1]), .command 1 (.upload fileName' [2]), .change 0, .change 1,
    .notify 1, .replicate 1 emptyPacket, .notify 0, .replicate 0 emptyPacket, .deliver, .deliver]

def crossedFiles : Mirror Disk :=
  (runWhile (Mirror.step Disk.fileSystem) Disk.OrderlyFiles
    (Mirror.start Disk.empty Disk.empty [[97], [97]]) (crossedUploads [102] [103])).get
    (by decide +kernel)

theorem crossedFiles_reached :
    Reaches (Mirror.step Disk.fileSystem) (Mirror.Orderly Disk.fileSystem)
      (Mirror.start Disk.empty Disk.empty [[97], [97]]) crossedFiles := by
  have horderly : Reaches (Mirror.step Disk.fileSystem) Disk.OrderlyFiles
      (Mirror.start Disk.empty Disk.empty [[97], [97]]) crossedFiles :=
    Reaches.of_runWhile (Option.some_get _).symm
  exact horderly.mono fun _ _ => Disk.OrderlyFiles.orderly

theorem crossedFiles_quiet : crossedFiles.Quiet := by
  decide +kernel

theorem replicas_agree_crossedFiles :
    Disk.fileSystem.content crossedFiles.primary (completePath [97] [102]) =
      Disk.fileSystem.content crossedFiles.secondary (completePath [97] [102]) :=
  Mirror.replicas_agree Disk.empty [[97], [97]] crossedFiles_reached crossedFiles_quiet _

/-- Two uploads of one file that are sent in the other order leave it different on the two
servers. -/
theorem crossedUploads_differ :
    ∃ w, run (Mirror.step Disk.fileSystem) (Mirror.start Disk.empty Disk.empty [[97], [97]])
        (crossedUploads [102] [102]) = some w ∧
      w.Quiet ∧
      w.primary.files (completePath [97] [102]) = some [2] ∧
      w.secondary.files (completePath [97] [102]) = some [1] := by
  have hrun : (run (Mirror.step Disk.fileSystem) (Mirror.start Disk.empty Disk.empty [[97], [97]])
      (crossedUploads [102] [102])).any (fun w => w.Quiet ∧
        w.primary.files (completePath [97] [102]) = some [2] ∧
        w.secondary.files (completePath [97] [102]) = some [1]) = true := by
    decide +kernel
  rcases (Option.any_eq_true _ _).1 hrun with ⟨w, hw, hall⟩
  exact ⟨w, hw, of_decide_eq_true hall⟩

end Server
end DropboxSimulator
