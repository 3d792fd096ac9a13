import DropboxSimulator.Server.FileReplication
import DropboxSimulator.Server.Replica

/-!
# Takeover — what a secondary holds that has joined later

A secondary is sent the changes that are made after it has joined, and nothing of what was there
before.  Here whole operations of the primary run one after another, and a secondary joins between
any two of them.  Once it has processed what it was sent it has registered just those of the
primary's devices that have been named since it joined, and its files are its own after the same
changes (`joined_holds_named`).  So it can take over from a primary whose devices have all
connected again, if its disk was the primary's when it joined.

* `Secondary` : the table and the files of a secondary;
* `Primary`   : the tables and the files, with what has been sent to each slot of `backupServers`;
* `named`     : the devices that messages are about.
-/

namespace DropboxSimulator
namespace Server

open Library

/-! ## The secondary -/

section Messages

variable {δ ρ : Type} (fs : FileSystem δ)

/-- What a message does to the files of a secondary, in whatever form it names a session. -/
def Replication.changeFiles : Replication ρ → δ → δ
  | .upload path payload => fs.write path payload
  | .delete path => fs.remove path
  -- the result of `createUserDirectory` does not depend on the table
  | .insertUser con => fs.makeDirectory (userDirectory con.user)
  | .exit _ => id

theorem changeFiles_eq_receive (m : WireMessage) : Replication.changeFiles fs m = receive fs m := by
  cases m <;> rfl

/-- What the secondaries are told of a file command. -/
def FileCommand.replication (userName : Bytes) : FileCommand → Replication ρ
  | .upload fileName payload => .upload (completePath userName fileName) payload
  | .delete command => .delete (completePath userName command.additionalInfo.string)

theorem replication_eq_message (c : FileCommand) (userName : Bytes) :
    c.replication userName = c.message userName := by
  cases c <;> rfl

/-- The secondary is told just what the primary did. -/
theorem changeFiles_replication (c : FileCommand) (userName : Bytes) :
    Replication.changeFiles fs (c.replication userName : Replication ρ) = c.change fs userName := by
  cases c <;> rfl

end Messages

structure Secondary (δ : Type) where
  users : Users
  disk : δ

namespace Secondary

variable {δ : Type} (fs : FileSystem δ)

/-- A secondary at its start, on its own disk. -/
def fresh (disk : δ) : Secondary δ where
  users := initiateUserControllerStructure
  disk := disk

/-- One round of the loop of `second_server_processing`; `none` once a missing device is
dereferenced. -/
def process (s : Secondary δ) (m : Replication UserCurrentSocket) : Option (Secondary δ) :=
  (Replication.process s.users m).map fun users =>
    { users := users, disk := Replication.changeFiles fs m s.disk }

def processAll (s : Secondary δ) (messages : List (Replication UserCurrentSocket)) :
    Option (Secondary δ) :=
  messages.foldlM (process fs) s

/-- The table and the files do not depend on each other. -/
theorem processAll_eq (s : Secondary δ) (messages : List (Replication UserCurrentSocket)) :
    s.processAll fs messages = (replay s.users messages).map fun users =>
      { users := users, disk := applyAll (Replication.changeFiles fs) messages s.disk } := by
  induction messages generalizing s with
  | nil =>
      rfl
  | cons m rest ih =>
      cases hres : Replication.process s.users m with
      | none =>
          simp [processAll, process, replay, hres]
      | some users =>
          -- the message has its effect on both, and the rest goes on from there
          have hrest := ih { users := users, disk := Replication.changeFiles fs m s.disk }
          simpa [processAll, process, replay, hres, applyAll] using hrest

end Secondary

/-! ## The primary -/

/-- A primary between two operations: the tables, the files, and what has been sent to each slot of
`backupServers` since its secondary joined. -/
structure Primary (δ : Type) where
  users : Users
  servers : BackupServers
  disk : δ
  log : Fin maxServers → List (Replication UserCurrentSocket)

/-- A file command is run with what its thread has on its stack. -/
inductive Operation
  | connect (con : Connection) (socket : Int32)
  | exit (arg : UserCurrentSocket)
  | file (arg : UserCurrentSocket) (c : FileCommand) (stale : CommandPacket)
  | join (id socket : Int32)

namespace Primary

variable {δ : Type} (fs : FileSystem δ)

def initial (disk : δ) : Primary δ where
  users := initiateUserControllerStructure
  servers := initiateBackupServerStructure
  disk := disk
  log := fun _ => []

/-- The logs after messages that were sent to slots. -/
def logging (p : Primary δ) (sent : List (Fin maxServers × Replication UserCurrentSocket)) :
    Fin maxServers → List (Replication UserCurrentSocket) := fun i =>
  p.log i ++ (sent.filter fun e => e.1 = i).map Prod.snd

/-- `handle_user_controller_structure` and `createUserDirectory`.  A refused request ends its
thread, and the path of the directory is built in an array of 50 characters. -/
def connect (p : Primary δ) (con : Connection) (socket : Int32) : Option (Primary δ) :=
  match handleUserControllerStructure p.users p.servers con socket with
  | none => none
  | some handled =>
      -- `pthread_exit` after every other answer
      if handled.reply = some .ack ∨ handled.reply = none then
        if (userDirectory con.user).length < 50 then
          some
            { p with
              users := handled.users
              disk := fs.makeDirectory (userDirectory con.user) p.disk
              log := p.logging handled.sent }
        else
          none
      else
        some { p with users := handled.users }

/-- `exitCommand`. -/
def exit (p : Primary δ) (arg : UserCurrentSocket) : Option (Primary δ) :=
  (exitCommand p.users p.servers arg).map fun exited =>
    { p with users := exited.users, log := p.logging exited.sent }

/-- `uploadFileCommand` and `deleteFileCommand`: the file changes, the user is looked up, and the
secondaries are told; the path may overflow the header of the message. -/
def changeFile (p : Primary δ) (arg : UserCurrentSocket) (c : FileCommand)
    (stale : CommandPacket) : Option (Primary δ) :=
  if c.Readable then
    match getUser p.users arg.userName with
    | none => none
    | some _ =>
        -- `strcpy` runs only for a slot in use
        if (∃ i, (p.servers i).id ≠ -1) ∧
            (writesOf stale (c.message arg.userName)).isNone = true then
          none
        else
          some
            { p with
              disk := c.change fs arg.userName p.disk
              log := p.logging (notifyServers p.servers (c.replication arg.userName)) }
  else
    none

/-- `insert_server`.  What is sent to a slot counts from here. -/
def join (p : Primary δ) (id socket : Int32) : Primary δ where
  users := p.users
  servers := (insertServer p.servers id socket).1
  disk := p.disk
  log := match SlotArray.find BackupServer.id p.servers (-1) with
    | some i => Function.update p.log i []
    | none => p.log

def step (p : Primary δ) : Operation → Option (Primary δ)
  | .connect con socket => p.connect fs con socket
  | .exit arg => p.exit arg
  | .file arg c stale => p.changeFile fs arg c stale
  | .join id socket => some (p.join id socket)

/-- No client draws the id `-1`. -/
def Drawn (_ : Primary δ) : Operation → Prop
  | .connect con _ => con.device ≠ -1
  | .exit arg => arg.currentDevice ≠ -1
  | _ => True

instance (p : Primary δ) (op : Operation) : Decidable (Drawn p op) :=
  match op with
  | .connect con _ => inferInstanceAs (Decidable (con.device ≠ -1))
  | .exit arg => inferInstanceAs (Decidable (arg.currentDevice ≠ -1))
  | .file _ _ _ | .join _ _ => inferInstanceAs (Decidable True)

end Primary

/-! ## The devices that messages name -/

/-- The device that a message is about. -/
def Replication.names : Replication UserCurrentSocket → Set (Bytes × Int32)
  | .insertUser con => {(con.user, con.device)}
  | .exit record => {(record.userName, record.currentDevice)}
  | _ => ∅

def named (messages : List (Replication UserCurrentSocket)) : Set (Bytes × Int32) :=
  {pair | ∃ m ∈ messages, pair ∈ Replication.names m}

section Names

variable {users users' part : Users} {m : Replication UserCurrentSocket}
variable {messages : List (Replication UserCurrentSocket)} {names : Set (Bytes × Int32)}

@[simp] theorem named_nil : named [] = ∅ := by
  ext pair
  simp [named]

@[simp] theorem named_append : named (messages ++ [m]) = named messages ∪ Replication.names m := by
  ext pair
  constructor
  · rintro ⟨m', hm', hpair⟩
    rcases List.mem_append.1 hm' with hm' | hm'
    · exact Or.inl ⟨m', hm', hpair⟩
    · exact Or.inr (List.mem_singleton.1 hm' ▸ hpair)
  · rintro (⟨m', hm', hpair⟩ | hpair)
    · exact ⟨m', List.mem_append_left _ hm', hpair⟩
    · exact ⟨m, List.mem_append_right _ (List.mem_singleton_self m), hpair⟩

/-- A device is registered after a change only if it was before or the message names it. -/
theorem Announces.pairs_subset (h : Announces m users users') :
    (registry users').pairs ⊆ (registry users).pairs ∪ Replication.names m := by
  intro pair hpair
  cases m with
  | upload path payload =>
      have hsame : (registry users').pairs = (registry users).pairs := h.2
      exact Or.inl (hsame ▸ hpair)
  | delete path =>
      have hsame : (registry users').pairs = (registry users).pairs := h.2
      exact Or.inl (hsame ▸ hpair)
  | insertUser con =>
      rcases h.2 with ⟨_, _, _, hpairs⟩
      rw [hpairs] at hpair
      exact (Set.mem_insert_iff.1 hpair).symm
  | exit record =>
      rcases h.2 with ⟨_, _, hpairs⟩
      rw [hpairs] at hpair
      exact Or.inl hpair.1

/-- A table that holds just the named devices of another one does so after the next message,
which names one more. -/
theorem Announces.process_named (h : Announces m users users') (hw : WellFormed part)
    (hpart : (registry part).pairs = (registry users).pairs ∩ names) :
    ∃ part', Replication.process part m = some part' ∧ WellFormed part' ∧
      (registry part').pairs = (registry users').pairs ∩ (names ∪ Replication.names m) := by
  rcases h with ⟨hwithin, h⟩
  cases m with
  | upload path payload =>
      have hsame : (registry users').pairs = (registry users).pairs := h
      exact ⟨part, rfl, hw, by simp [Replication.names, hpart, hsame]⟩
  | delete path =>
      have hsame : (registry users').pairs = (registry users).pairs := h
      exact ⟨part, rfl, hw, by simp [Replication.names, hpart, hsame]⟩
  | insertUser con =>
      rcases h with ⟨hname, hid, hadm, hpairs⟩
      have hsub : (registry part).pairs ⊆ (registry users).pairs := by
        rw [hpart]
        exact Set.inter_subset_left
      have hadm' := Roster.Admits.of_pairs_subset hwithin hsub hadm
      rcases insertUserConnectedInPrimary_of_admits hw hname hid hadm' with
        ⟨part', hres, hw', hpart'⟩
      refine ⟨part', hres, hw', ?_⟩
      ext pair
      rw [hpart', hpairs, hpart]
      simp only [Replication.names, Set.mem_insert_iff, Set.mem_inter_iff, Set.mem_union,
        Set.mem_singleton_iff]
      tauto
  | exit record =>
      rcases h with ⟨hname, hid, hpairs⟩
      rcases receiveExitFromPrimary_eq hw hname hid with ⟨part', hres, hw', hpart'⟩
      refine ⟨part', hres, hw', ?_⟩
      ext pair
      rw [hpart', hpairs, hpart]
      simp only [Replication.names, Set.mem_sdiff, Set.mem_inter_iff, Set.mem_union,
        Set.mem_singleton_iff]
      tauto

end Names

/-! ## Runs -/

namespace Primary

section Runs

variable {δ : Type} {fs : FileSystem δ} {p q q' : Primary δ} {op : Operation}
variable {i : Fin maxServers} {m : Replication UserCurrentSocket} {con : Connection}
variable {arg : UserCurrentSocket} {socket : Int32}

/-- A message goes to every slot in use. -/
theorem logging_notifyServers (hi : (p.servers i).id ≠ -1) :
    p.logging (notifyServers p.servers m) i = p.log i ++ [m] := by
  -- the loop comes to each slot once
  have hslot : (List.finRange maxServers).filter (fun j => j = i) = [i] := by
    rw [List.filter_eq, List.count_eq_one_of_mem (List.nodup_finRange _) (List.mem_finRange i)]
    rfl
  have hsent : (notifyServers p.servers m).filter (fun e => e.1 = i) = [(i, m)] := by
    calc
      (notifyServers p.servers m).filter (fun e => e.1 = i)
          = ((List.finRange maxServers).filter (fun j => j = i)).filterMap
              (fun j => if (p.servers j).id ≠ -1 then some (j, m) else none) := by
            rw [notifyServers, List.filter_filterMap, List.filterMap_filter]
            refine List.filterMap_congr fun j _ => ?_
            by_cases hj : j = i
            · subst hj
              simp [hi]
            · split <;> simp [hj]
      _ = [(i, m)] := by
            rw [hslot]
            simp [hi]
  rw [logging, hsent]
  rfl

/-- What one operation does to the tables, the files and the logs of the slots in use: nothing, or
the change that the next message tells. -/
inductive Logged (fs : FileSystem δ) (p q : Primary δ) : Prop
  | silent (husers : q.users = p.users) (hdisk : q.disk = p.disk)
      (hlog : ∀ i, (p.servers i).id ≠ -1 → (q.servers i).id ≠ -1 ∧ q.log i = p.log i)
  | told (m : Replication UserCurrentSocket) (hw : WellFormed q.users)
      (hannounces : Announces m p.users q.users)
      (hdisk : q.disk = Replication.changeFiles fs m p.disk)
      (hlog : ∀ i, (p.servers i).id ≠ -1 → (q.servers i).id ≠ -1 ∧ q.log i = p.log i ++ [m])

theorem Logged.wellFormed (h : Logged fs p q) (hw : WellFormed p.users) : WellFormed q.users := by
  cases h with
  | silent husers _ _ =>
      rwa [husers]
  | told _ hw' _ _ _ =>
      exact hw'

theorem logged_connect (hw : WellFormed p.users) (hid : con.device ≠ -1)
    (h : p.connect fs con socket = some q) : Logged fs p q := by
  unfold connect at h
  split at h
  · cases h
  · next handled hres =>
      -- what a reply other than `ack` leaves of the table
      have hnack : handled.reply ≠ some .ack → handled.users = p.users ∧ handled.reply ≠ none := by
        intro hreply
        by_cases hname : con.user = []
        · rcases handle_of_noName hname hres with ⟨husers, hnack⟩
          exact ⟨husers, by simp [hnack]⟩
        · exact hw.refused hname hid hres hreply
      split at h
      · next hreply =>
          -- the thread goes on only after an `ack`, and so with a name
          have hack : handled.reply = some .ack := by
            by_contra hno
            exact hreply.elim hno (hnack hno).2
          have hname : con.user ≠ [] := by
            intro hempty
            have hnack1 := (handle_of_noName hempty hres).2
            rw [hack] at hnack1
            cases hnack1
          rcases hw.admitted hname hid hres hack with ⟨hw', hadmits, hpairs⟩
          split at h
          · cases h
            refine .told (.insertUser con) hw' ⟨hw.within, hname, hid, hadmits, hpairs⟩ rfl ?_
            intro i hi
            refine ⟨hi, ?_⟩
            rw [← logging_notifyServers hi]
            exact congrArg (fun sent => p.logging sent i) (hw.admitted_sent hname hid hres hack)
          · cases h
      · next hreply =>
          cases h
          exact .silent (hnack fun hack => hreply (Or.inl hack)).1 rfl fun i hi => ⟨hi, rfl⟩

theorem logged_exit (hw : WellFormed p.users) (hid : arg.currentDevice ≠ -1)
    (h : p.exit arg = some q) : Logged fs p q := by
  rcases Option.map_eq_some_iff.1 h with ⟨exited, hres, rfl⟩
  rcases hw.exit_cases hres with ⟨place, hdev, husers, _, hsent⟩
  rcases keys_of_getDevice hdev with ⟨hplace, hplaceId⟩
  have hname : arg.userName ≠ [] := by
    intro hempty
    simp [getDevice, hempty] at hdev
  have hpairs : (registry exited.users).pairs =
      (registry p.users).pairs \ {(arg.userName, arg.currentDevice)} := by
    rw [husers, hw.registry_clear, Roster.pairs_erase, hplace, hplaceId]
  refine .told (.exit arg) ?_ ⟨hw.within, hname, hid, hpairs⟩ rfl ?_
  · dsimp only
    rw [husers]
    exact hw.clear place
  · intro i hi
    refine ⟨hi, ?_⟩
    dsimp only
    rw [hsent]
    exact logging_notifyServers hi

theorem logged_changeFile (hw : WellFormed p.users) {c : FileCommand} {stale : CommandPacket}
    (h : p.changeFile fs arg c stale = some q) : Logged fs p q := by
  unfold changeFile at h
  split at h
  · split at h
    · cases h
    · split at h
      · cases h
      · cases h
        refine .told (c.replication arg.userName) hw ⟨hw.within, ?_⟩ ?_
          fun i hi => ⟨hi, logging_notifyServers hi⟩
        · cases c <;> rfl
        · exact (congrFun (changeFiles_replication fs c arg.userName) p.disk).symm
  · cases h

/-- A secondary that joins takes no slot in use. -/
theorem join_log {id : Int32} (hi : (p.servers i).id ≠ -1) :
    ((p.join id socket).servers i).id ≠ -1 ∧ (p.join id socket).log i = p.log i := by
  constructor
  · change ((insertServer p.servers id socket).1 i).id ≠ -1
    rwa [insertServer_of_used hi]
  · cases hfind : SlotArray.find BackupServer.id p.servers (-1) with
    | none =>
        simp only [join, hfind]
    | some j =>
        -- the slot that is filled was free
        have hij : i ≠ j := by
          rintro rfl
          exact hi (SlotArray.key_of_find hfind)
        simp only [join, hfind]
        exact Function.update_of_ne hij _ _

theorem logged_step (hw : WellFormed p.users) (hok : Drawn p op) (h : p.step fs op = some q) :
    Logged fs p q := by
  cases op with
  | connect con socket =>
      exact logged_connect hw hok h
  | exit arg =>
      exact logged_exit hw hok h
  | file arg c stale =>
      exact logged_changeFile hw h
  | join id socket =>
      cases h
      exact .silent rfl rfl fun i hi => join_log hi

/-- What the secondary of a slot knows, at any time after the moment `p` at which it joined. -/
structure Tracked (fs : FileSystem δ) (p : Primary δ) (i : Fin maxServers) (q : Primary δ) :
    Prop where
  users : WellFormed q.users
  server : (q.servers i).id ≠ -1
  replayed : ∃ users, replay initiateUserControllerStructure (q.log i) = some users ∧
    WellFormed users ∧ (registry users).pairs = (registry q.users).pairs ∩ named (q.log i)
  known : (registry q.users).pairs ⊆ (registry p.users).pairs ∪ named (q.log i)
  disk : q.disk = applyAll (Replication.changeFiles fs) (q.log i) p.disk

theorem Tracked.step (ht : Tracked fs p i q) (hok : Drawn q op) (h : q.step fs op = some q') :
    Tracked fs p i q' := by
  have hlogged := logged_step ht.users hok h
  have hw := hlogged.wellFormed ht.users
  -- nothing is told, or just the message that tells the change
  cases hlogged with
  | silent husers hdisk hlog =>
      rcases hlog i ht.server with ⟨hserver, hlogi⟩
      refine ⟨hw, hserver, ?_, ?_, ?_⟩
      · rw [husers, hlogi]
        exact ht.replayed
      · rw [husers, hlogi]
        exact ht.known
      · rw [hdisk, hlogi]
        exact ht.disk
  | told m hw' hannounces hdisk hlog =>
      rcases hlog i ht.server with ⟨hserver, hlogi⟩
      rcases ht.replayed with ⟨part, hreplay, hpartw, hpart⟩
      rcases hannounces.process_named hpartw hpart with ⟨part', hres, hpartw', hpart'⟩
      -- the secondary processes one message more, on the same part of the table
      refine ⟨hw, hserver, ⟨part', ?_, hpartw', ?_⟩, ?_, ?_⟩
      · rw [hlogi]
        unfold replay at hreplay ⊢
        rw [List.foldlM_append, hreplay]
        simpa using hres
      · rw [hlogi, named_append]
        exact hpart'
      · -- what was registered before is known, and the message names what is new
        intro pair hpair
        rw [hlogi, named_append]
        rcases hannounces.pairs_subset hpair with hold | hnew
        · rcases ht.known hold with hjoin | hnamed
          · exact Or.inl hjoin
          · exact Or.inr (Or.inl hnamed)
        · exact Or.inr (Or.inr hnew)
      · rw [hdisk, ht.disk, hlogi, applyAll_append]
        rfl

theorem wellFormed_of_reaches {disk : δ} (h : Reaches (step fs) Drawn (initial disk) p) :
    WellFormed p.users :=
  h.invariant wellFormed_initiate fun _ _ _ hw hok hl => (logged_step hw hok hl).wellFormed hw

theorem tracked_join {id : Int32} (hw : WellFormed p.users)
    (hslot : SlotArray.find BackupServer.id p.servers (-1) = some i) (hid : id ≠ -1) :
    Tracked fs p i (p.join id socket) where
  users := hw
  server := by
    change ((insertServer p.servers id socket).1 i).id ≠ -1
    simpa [insertServer, hslot] using hid
  replayed := by
    have hlog : (p.join id socket).log i = [] := by simp [join, hslot]
    refine ⟨initiateUserControllerStructure, by rw [hlog]; rfl, wellFormed_initiate, ?_⟩
    rw [hlog, named_nil, Set.inter_empty]
    exact pairs_registry_initiate
  known := Set.subset_union_left
  disk := by
    have hlog : (p.join id socket).log i = [] := by simp [join, hslot]
    rw [hlog]
    rfl

/-- In every run and for every moment at which a secondary joins, once it has processed what it was
sent it has registered just those of the primary's devices that have been named since it joined;
these are all of them if none was registered when it joined.  Its disk is the primary's if it was
when it joined. -/
theorem joined_holds_named {disk disk' : δ} {id : Int32}
    (h : Reaches (step fs) Drawn (initial disk) p)
    (hslot : SlotArray.find BackupServer.id p.servers (-1) = some i) (hid : id ≠ -1)
    (h' : Reaches (step fs) Drawn (p.join id socket) q) :
    ∃ s, (Secondary.fresh disk').processAll fs (q.log i) = some s ∧
      (registry s.users).pairs = (registry q.users).pairs ∩ named (q.log i) ∧
      ((registry p.users).pairs = ∅ → (registry s.users).pairs = (registry q.users).pairs) ∧
      (disk' = p.disk → s.disk = q.disk) := by
  have hjoin : Tracked fs p i (p.join id socket) :=
    tracked_join (wellFormed_of_reaches h) hslot hid
  have ht : Tracked fs p i q := h'.invariant hjoin fun _ _ _ ht hok hl => ht.step hok hl
  rcases ht.replayed with ⟨users, hreplay, _, hpairs⟩
  refine ⟨{ users := users, disk := applyAll (Replication.changeFiles fs) (q.log i) disk' },
    ?_, hpairs, ?_, ?_⟩
  · have hreplay' : replay (Secondary.fresh disk').users (q.log i) = some users := hreplay
    rw [Secondary.processAll_eq, hreplay']
    rfl
  · intro hempty
    -- nothing was registered before, so all that is has been named
    have hknown : (registry q.users).pairs ⊆ named (q.log i) := by
      have hsub := ht.known
      rwa [hempty, Set.empty_union] at hsub
    exact hpairs.trans (Set.inter_eq_left.2 hknown)
  · rintro rfl
    exact ht.disk.symm

end Runs

end Primary

/-! ## Files of users that have connected since -/

/-- The file that a message changes. -/
def Replication.file {ρ : Type} : Replication ρ → Option Bytes
  | .upload path _ => some path
  | .delete path => some path
  | _ => none

namespace Disk

/-- The two disks hold the same under the path, and the next upload there succeeds on both. -/
structure Agree (path : Bytes) (disk disk' : Disk) : Prop where
  left : disk.hasDirectory (directoryOf path) = true
  right : disk'.hasDirectory (directoryOf path) = true
  files : disk.files path = disk'.files path

section Agreement

variable {ρ : Type} {disk disk' : Disk} {path : Bytes} {m : Replication ρ}

/-- No message removes a directory. -/
theorem hasDirectory_changeFiles {dir : Bytes} (h : disk.hasDirectory dir = true) :
    (Replication.changeFiles fileSystem m disk).hasDirectory dir = true := by
  cases m with
  | upload path' payload =>
      change (write path' payload disk).hasDirectory dir = true
      unfold write
      split
      · exact h
      · exact h
  | delete path' =>
      exact h
  | insertUser con =>
      change (makeDirectory (userDirectory con.user) disk).hasDirectory dir = true
      by_cases hdir : dir = userDirectory con.user
      · simp [makeDirectory, hdir]
      · simpa [makeDirectory, hdir] using h
  | exit record =>
      exact h

/-- What a message leaves under a path whose directory is there. -/
theorem files_changeFiles (h : disk.hasDirectory (directoryOf path) = true) :
    (Replication.changeFiles fileSystem m disk).files path =
      match m with
      | .upload path' payload => if path' = path then some payload else disk.files path
      | .delete path' => if path' = path then none else disk.files path
      | _ => disk.files path := by
  cases m with
  | upload path' payload =>
      change (write path' payload disk).files path = _
      unfold write
      by_cases hpath : path' = path
      · subst hpath
        simp [h]
      · split
        · simp [hpath, Ne.symm hpath]
        · simp [hpath]
  | delete path' =>
      change (remove path' disk).files path = _
      by_cases hpath : path' = path
      · subst hpath
        simp [remove]
      · simp [remove, hpath, Ne.symm hpath]
  | insertUser con =>
      rfl
  | exit record =>
      rfl

theorem Agree.changeFiles (h : Agree path disk disk') :
    Agree path (Replication.changeFiles fileSystem m disk)
      (Replication.changeFiles fileSystem m disk') where
  left := hasDirectory_changeFiles h.left
  right := hasDirectory_changeFiles h.right
  files := by rw [files_changeFiles h.left, files_changeFiles h.right, h.files]

/-- A change of the file makes the two disks agree on it. -/
theorem agree_of_changed (h : disk.hasDirectory (directoryOf path) = true)
    (h' : disk'.hasDirectory (directoryOf path) = true)
    (hm : Replication.file m = some path) :
    Agree path (Replication.changeFiles fileSystem m disk)
      (Replication.changeFiles fileSystem m disk') where
  left := hasDirectory_changeFiles h
  right := hasDirectory_changeFiles h'
  files := by
    rw [files_changeFiles h, files_changeFiles h']
    cases m with
    | upload path' payload =>
        simp [Option.some.inj hm]
    | delete path' =>
        simp [Option.some.inj hm]
    | _ =>
        cases hm

theorem Agree.applyAll {messages : List (Replication ρ)} (h : Agree path disk disk') :
    Agree path (applyAll (Replication.changeFiles fileSystem) messages disk)
      (applyAll (Replication.changeFiles fileSystem) messages disk') := by
  induction messages generalizing disk disk' with
  | nil =>
      exact h
  | cons m rest ih =>
      exact ih h.changeFiles

theorem agree_of_mem {messages : List (Replication ρ)}
    (h : disk.hasDirectory (directoryOf path) = true)
    (h' : disk'.hasDirectory (directoryOf path) = true)
    (hchanged : ∃ m ∈ messages, Replication.file m = some path) :
    Agree path (Library.applyAll (Replication.changeFiles fileSystem) messages disk)
      (Library.applyAll (Replication.changeFiles fileSystem) messages disk') := by
  induction messages generalizing disk disk' with
  | nil =>
      rcases hchanged with ⟨m, hm, _⟩
      cases hm
  | cons m rest ih =>
      by_cases hm : Replication.file m = some path
      · -- from the first change of the file on they agree
        exact (agree_of_changed h h' hm).applyAll
      · refine ih (hasDirectory_changeFiles h) (hasDirectory_changeFiles h') ?_
        rcases hchanged with ⟨m', hm', hfile⟩
        rcases List.mem_cons.1 hm' with rfl | hrest
        · exact absurd hfile hm
        · exact ⟨m', hrest, hfile⟩

end Agreement

end Disk

namespace Primary

variable {p q : Primary Disk} {i : Fin maxServers} {socket : Int32}

/-- A file of a user that has connected since the secondary joined is the same on both servers once
it has been changed after that connection, whatever the secondary's disk was. -/
theorem joined_holds_file {disk disk' : Disk} {id : Int32}
    (h : Reaches (step Disk.fileSystem) Drawn (initial disk) p)
    (hslot : SlotArray.find BackupServer.id p.servers (-1) = some i) (hid : id ≠ -1)
    (h' : Reaches (step Disk.fileSystem) Drawn (p.join id socket) q) {con : Connection}
    {before after : List (Replication UserCurrentSocket)}
    (hlog : q.log i = before ++ .insertUser con :: after) {path : Bytes}
    (hdir : Disk.directoryOf path = userDirectory con.user)
    (hchanged : ∃ m ∈ after, Replication.file m = some path) {s : Secondary Disk}
    (hs : (Secondary.fresh disk').processAll Disk.fileSystem (q.log i) = some s) :
    s.disk.files path = q.disk.files path := by
  have hjoin : Tracked Disk.fileSystem p i (p.join id socket) :=
    tracked_join (wellFormed_of_reaches h) hslot hid
  have ht : Tracked Disk.fileSystem p i q :=
    h'.invariant hjoin fun _ _ _ ht hok hl => ht.step hok hl
  rw [Secondary.processAll_eq] at hs
  rcases Option.map_eq_some_iff.1 hs with ⟨users, _, rfl⟩
  -- the connection creates the directory on both
  have hthere : ∀ d : Disk, (Replication.changeFiles Disk.fileSystem
      (.insertUser con : Replication UserCurrentSocket) d).hasDirectory
        (Disk.directoryOf path) = true := by
    intro d
    rw [hdir]
    simp [Replication.changeFiles, Disk.fileSystem, Disk.makeDirectory]
  rw [ht.disk, hlog, applyAll_append, applyAll_append]
  exact (Disk.agree_of_mem (hthere _) (hthere _) hchanged).files

/-! ## A secondary that joins before and one that joins after a connection -/

/-- A disk without directories of users. -/
def blank : Disk where
  hasDirectory := fun _ => false
  files := fun _ => none

/-- The console session of device `1` of the user `a`. -/
def consoleOfA : UserCurrentSocket where
  userName := [97]
  currentDevice := 1
  currentSocket := 4

/-- The device connects and uploads a file. -/
def connectAndUpload : List Operation :=
  [.connect (oneLetterRequest 97 1 socketT1) 4, .file consoleOfA (.upload [102] [1]) emptyPacket]

def joinedFirst : Primary Disk :=
  (runWhile (step Disk.fileSystem) Drawn ((initial blank).join 1 5) connectAndUpload).get
    (by decide +kernel)

theorem joined_holds_named_joinedFirst :
    ∃ s, (Secondary.fresh blank).processAll Disk.fileSystem (joinedFirst.log 0) = some s ∧
      (registry s.users).pairs = (registry joinedFirst.users).pairs ∧
        s.disk = joinedFirst.disk := by
  have hreached : Reaches (step Disk.fileSystem) Drawn ((initial blank).join 1 5) joinedFirst :=
    Reaches.of_runWhile (Option.some_get _).symm
  have hslot : SlotArray.find BackupServer.id (initial blank).servers (-1) = some 0 := by decide
  have hid : (1 : Int32) ≠ -1 := by decide
  rcases joined_holds_named .start hslot hid hreached with ⟨s, hs, _, hpairs, hdisk⟩
  exact ⟨s, hs, hpairs pairs_registry_initiate, hdisk rfl⟩

/-- A secondary that joins between the connection and the upload is sent the upload, and ends
without the device and without the file. -/
theorem joinedBetween_differs :
    ∃ p q s, run (step Disk.fileSystem) (initial blank)
        [.connect (oneLetterRequest 97 1 socketT1) 4] = some p ∧
      SlotArray.find BackupServer.id p.servers (-1) = some 0 ∧
      run (step Disk.fileSystem) (p.join 1 5)
        [.file consoleOfA (.upload [102] [1]) emptyPacket] = some q ∧
      (Secondary.fresh blank).processAll Disk.fileSystem (q.log 0) = some s ∧
      ([97], 1) ∈ (registry q.users).pairs ∧ ([97], 1) ∉ (registry s.users).pairs ∧
      q.disk.files (completePath [97] [102]) = some [1] ∧
      s.disk.files (completePath [97] [102]) = none := by
  have hrun : (run (step Disk.fileSystem) (initial blank)
      [.connect (oneLetterRequest 97 1 socketT1) 4]).any (fun p =>
        SlotArray.find BackupServer.id p.servers (-1) = some 0 ∧
        (run (step Disk.fileSystem) (p.join 1 5)
          [.file consoleOfA (.upload [102] [1]) emptyPacket]).any (fun q =>
            ((Secondary.fresh blank).processAll Disk.fileSystem (q.log 0)).any (fun s =>
              registry q.users [97] 1 ≠ none ∧ registry s.users [97] 1 = none ∧
              q.disk.files (completePath [97] [102]) = some [1] ∧
              s.disk.files (completePath [97] [102]) = none) = true) = true) = true := by
    decide +kernel
  rcases (Option.any_eq_true _ _).1 hrun with ⟨p, hp, hfind⟩
  rcases of_decide_eq_true hfind with ⟨hslot, hrest⟩
  rcases (Option.any_eq_true _ _).1 hrest with ⟨q, hq, hprocessed⟩
  rcases (Option.any_eq_true _ _).1 (of_decide_eq_true hprocessed) with ⟨s, hs, hall⟩
  rcases of_decide_eq_true hall with ⟨hknown, hunknown, hfile, hnofile⟩
  exact ⟨p, q, s, hp, hslot, hq, hs, Roster.mem_pairs_iff.2 hknown,
    fun hmem => Roster.mem_pairs_iff.1 hmem hunknown, hfile, hnofile⟩

end Primary

end Server
end DropboxSimulator
