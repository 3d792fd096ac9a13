import DropboxSimulator.Box.Notifications
import DropboxSimulator.Server.Descriptors
import DropboxSimulator.Server.FileReplication

/-!
# Fleet — the folders of a user's devices around the server

A change in the folder of one device goes through five threads: the kernel queues an event, the
inotify thread reads a batch and sends what it asks for, the command thread of the device changes
the server's copy and tells the other devices, and their communication threads apply what they are
told, which queues events of its own.  Here each of these is one step, the steps of all threads
come in any order, and messages are delivered whole and in order; `Box/FleetWire` has them as bytes.

* `Fleet`        : the server's copy, the folders with their threads, and what is under way;
* `Tidy`         : a change does not meet another one of the same file, and the flag tells who
                   caused the event that is handled;
* `Coherent`     : what holds of one file while changes of it are under way;
* `no_change_lost` : when nothing about a file is under way, the server and the folders hold what
                   the last change has made of it;
* `changes_settle` : a tidy run comes to rest after so many steps for each change.
-/

namespace DropboxSimulator
namespace Box

open Library

/-! ## Commands -/

namespace Command

/-- The file that a command is about. -/
def name : Command → Bytes
  | .upload name _ => name
  | .delete name => name

/-- What the file holds after the command, if it is there. -/
def content : Command → Option Bytes
  | .upload _ payload => some payload
  | .delete _ => none

def perform (c : Command) (files : Bytes → Option Bytes) : Bytes → Option Bytes :=
  Function.update files c.name c.content

end Command

/-- What a file holds after commands, when it held `held`. -/
def settle (name : Bytes) (cs : List Command) (held : Option Bytes) : Option Bytes :=
  cs.foldl (fun held c => if c.name = name then c.content else held) held

/-- What is sent for a request: an upload carries what the file then holds, and is not sent when the
file is not there. -/
def Request.command (syncDir : Bytes → Option Bytes) : Request → Option Command
  | .upload name => (syncDir name).map (.upload name)
  | .delete name => some (.delete name)

def Event.command (e : Event) (syncDir : Bytes → Option Bytes) : Option Command :=
  e.request.bind (Request.command syncDir)

/-! ## Folders -/

/-- The folder of a device, with the events and commands its threads are at.  `batch` is what the
inotify thread has read and not yet handled, and `none` between two batches; `applying` is the
command that the communication thread has received and not yet applied. -/
structure Folder where
  syncDir : Bytes → Option Bytes
  queue : List Event
  batch : Option (List Event)
  instructionSourceIsServer : Bool
  applying : Option Command

namespace Folder

def initial (syncDir : Bytes → Option Bytes) : Folder where
  syncDir := syncDir
  queue := []
  batch := none
  instructionSourceIsServer := false
  applying := none

/-- The events still to be handled. -/
def pending (s : Folder) : List Event :=
  s.batch.getD [] ++ s.queue

/-- What is still to be sent for the changes of the user, as the folder stands. -/
def unsent (s : Folder) : List Command :=
  (s.pending.filter fun e => e.origin = .user).flatMap fun e => (e.command s.syncDir).toList

/-- The user changes a file. -/
def change (s : Folder) (mask : Mask) (name : Bytes) (content : Option Bytes) : Folder :=
  { s with
    syncDir := Function.update s.syncDir name content
    queue := s.queue ++ [{ mask := mask, name := name, origin := .user }] }

/-- The communication thread applies a command; to remove a file that is not there causes no
event. -/
def apply (s : Folder) (c : Command) : Folder :=
  { s with
    syncDir := c.perform s.syncDir
    queue := s.queue ++
      match c with
      | .upload name _ => [{ mask := .closeWrite, name := name, origin := .server }]
      | .delete name =>
          if (s.syncDir name).isSome then
            [{ mask := .delete, name := name, origin := .server }]
          else
            []
    applying := none }

end Folder

/-! ## The fleet -/

/-- The folders of the devices of one user, by their slots, and what is between them and the
server: commands sent and not yet served, the command that has changed the server's copy and has
still to be told, and commands told and not yet received.  `latest` is what the last change has
made of each file; the code does not keep it. -/
structure Fleet where
  files : Bytes → Option Bytes
  latest : Bytes → Option Bytes
  folders : Fin maxDevices → Folder
  upstream : Fin maxDevices → List Command
  telling : Fin maxDevices → Option Command
  downstream : Fin maxDevices → List Command

/-- The user changes a file; the inotify thread reads events, handles one, or clears the flag behind
the last one; the command thread serves a command or tells it; the communication thread receives a
command or applies it. -/
inductive FleetStep
  | change (d : Fin maxDevices) (mask : Mask) (name : Bytes) (content : Option Bytes)
  | read (d : Fin maxDevices) (n : Nat)
  | handle (d : Fin maxDevices)
  | finish (d : Fin maxDevices)
  | serve (d : Fin maxDevices)
  | tell (d : Fin maxDevices)
  | receive (d : Fin maxDevices)
  | apply (d : Fin maxDevices)

namespace Fleet

/-- Every folder holds what the server holds, and nothing is under way. -/
def initial (files : Bytes → Option Bytes) : Fleet where
  files := files
  latest := files
  folders := fun _ => .initial files
  upstream := fun _ => []
  telling := fun _ => none
  downstream := fun _ => []

def setFolder (w : Fleet) (d : Fin maxDevices) (s : Folder) : Fleet :=
  { w with folders := Function.update w.folders d s }

section Frame

variable {w : Fleet} {d k : Fin maxDevices} {s : Folder}

@[simp] theorem setFolder_files : (w.setFolder d s).files = w.files :=
  rfl

@[simp] theorem setFolder_latest : (w.setFolder d s).latest = w.latest :=
  rfl

@[simp] theorem setFolder_upstream : (w.setFolder d s).upstream = w.upstream :=
  rfl

@[simp] theorem setFolder_telling : (w.setFolder d s).telling = w.telling :=
  rfl

@[simp] theorem setFolder_downstream : (w.setFolder d s).downstream = w.downstream :=
  rfl

@[simp] theorem setFolder_self : (w.setFolder d s).folders d = s := by
  simp [setFolder]

theorem setFolder_of_ne (h : k ≠ d) : (w.setFolder d s).folders k = w.folders k := by
  simp [setFolder, h]

end Frame

end Fleet

/-- What the inotify command thread of a device knows of itself. -/
def session (users : Server.Users) (user : Fin maxUsers) (d : Fin maxDevices) :
    UserCurrentSocket where
  userName := (users user).name
  currentDevice := (users.device (user, d)).id
  currentSocket := (users.device (user, d)).socket2

/-- The inotify and the communication connection of the device are in the table. -/
def Connected (users : Server.Users) (user : Fin maxUsers) (d : Fin maxDevices) :
    Prop :=
  (users.device (user, d)).id ≠ -1 ∧ (users.device (user, d)).socket2 ≠ -1 ∧
    (users.device (user, d)).socket3 ≠ -1

/-- The devices that a command of `d` is told. -/
def Told (users : Server.Users) (user : Fin maxUsers) (d k : Fin maxDevices) :
    Prop :=
  Server.Notifies (session users user d) (users.device (user, k))

instance (users : Server.Users) (user : Fin maxUsers) (d k : Fin maxDevices) :
    Decidable (Told users user d k) :=
  inferInstanceAs (Decidable (Server.Notifies _ _))

/-- One step; the table of the server stays as it is. -/
def Fleet.step (users : Server.Users) (user : Fin maxUsers) (w : Fleet) :
    FleetStep → Option Fleet
  | .change d mask name content =>
      some
        { w.setFolder d ((w.folders d).change mask name content) with
          latest := Function.update w.latest name content }
  | .read d n =>
      let s := w.folders d
      match s.batch with
      | none =>
          if 0 < n ∧ n ≤ s.queue.length then
            some (w.setFolder d
              { s with batch := some (s.queue.take n), queue := s.queue.drop n })
          else
            none
      | some _ => none
  | .handle d =>
      let s := w.folders d
      match s.batch with
      | some (e :: rest) =>
          let sent := if s.instructionSourceIsServer then none else e.command s.syncDir
          some
            { w.setFolder d { s with batch := some rest } with
              upstream := Function.update w.upstream d (w.upstream d ++ sent.toList) }
      | _ => none
  | .finish d =>
      let s := w.folders d
      match s.batch with
      | some [] =>
          some (w.setFolder d { s with batch := none, instructionSourceIsServer := false })
      | _ => none
  | .serve d =>
      match w.upstream d, w.telling d with
      | c :: rest, none =>
          some
            { w with
              files := c.perform w.files
              upstream := Function.update w.upstream d rest
              telling := Function.update w.telling d (some c) }
      | _, _ => none
  | .tell d =>
      match w.telling d with
      | some c =>
          some
            { w with
              telling := Function.update w.telling d none
              downstream := fun k =>
                if Told users user d k then w.downstream k ++ [c] else w.downstream k }
      | none => none
  | .receive d =>
      let s := w.folders d
      match w.downstream d, s.applying with
      | c :: rest, none =>
          some
            { w.setFolder d { s with instructionSourceIsServer := true, applying := some c } with
              downstream := Function.update w.downstream d rest }
      | _, _ => none
  | .apply d =>
      match (w.folders d).applying with
      | some c => some (w.setFolder d ((w.folders d).apply c))
      | none => none

/-! ## What the steps stand for

The steps of one thread, taken together, are those of the parts: the folder with its flag and queue
is the Box of `Box/Inotify`, the server's copy is the directory of the user on its disk, and a
command is told on the connections that the loop of its command thread writes to. -/

/-- The folder as `Box/Inotify` has it. -/
def Folder.state (s : Folder) : State :=
  { State.initial s.syncDir with
    queue := s.queue
    instructionSourceIsServer := s.instructionSourceIsServer }

section Parts

variable {w : Fleet} {d : Fin maxDevices} {n : Nat} {events : List Event}
variable {users : Server.Users} {user : Fin maxUsers}

theorem Folder.state_change (s : Folder) (mask : Mask) (name : Bytes) (content : Option Bytes) :
    (s.change mask name content).state = s.state.change mask name content :=
  rfl

/-- A command that is received and applied. -/
theorem Folder.state_apply (s : Folder) (c : Command) :
    (({ s with instructionSourceIsServer := true, applying := some c } : Folder).apply c).state =
      s.state.receive c := by
  cases c with
  | upload name payload =>
      rfl
  | delete name =>
      cases hfile : s.syncDir name with
      | some content =>
          simp [Folder.state, Folder.apply, State.receive, State.initial, Command.perform,
            Command.name, Command.content, hfile]
      | none =>
          -- to remove a file that is not there changes nothing
          have hsame : Function.update s.syncDir name none = s.syncDir :=
            Function.update_eq_self_iff.2 hfile.symm
          simp [Folder.state, Folder.apply, State.receive, State.initial, Command.perform,
            Command.name, Command.content, hfile, hsame]

/-- The events of a batch, handled one after another. -/
theorem run_handle (users : Server.Users) (user : Fin maxUsers)
    (hbatch : (w.folders d).batch = some events) :
    ∃ w', run (Fleet.step users user) w (List.replicate events.length (.handle d)) = some w' ∧
      w'.folders d = { w.folders d with batch := some [] } ∧
        w'.upstream d = w.upstream d ++ events.flatMap fun e =>
          (if (w.folders d).instructionSourceIsServer then none
            else e.command (w.folders d).syncDir).toList := by
  induction events generalizing w with
  | nil =>
      refine ⟨w, rfl, ?_, by simp⟩
      rw [← hbatch]
  | cons e events ih =>
      obtain ⟨w₁, hw₁, hfolder, hup⟩ : ∃ w₁, w.step users user (.handle d) = some w₁ ∧
          w₁.folders d = { w.folders d with batch := some events } ∧
            w₁.upstream d = w.upstream d ++
              (if (w.folders d).instructionSourceIsServer then none
                else e.command (w.folders d).syncDir).toList := by
        refine ⟨_, by simp only [Fleet.step, hbatch]; rfl, ?_, ?_⟩
        · simp
        · simp
      obtain ⟨w', hrun, hfolder', hup'⟩ := ih (w := w₁) (by rw [hfolder])
      refine ⟨w', ?_, ?_, ?_⟩
      · rw [List.length_cons, List.replicate_succ, run_cons, hw₁, Option.bind_some, hrun]
      · rw [hfolder', hfolder]
      · rw [hup', hup, hfolder, List.flatMap_cons, List.append_assoc]

/-- A batch that is read and handled without a step of another thread in between. -/
theorem run_batch (users : Server.Users) (user : Fin maxUsers)
    (hbatch : (w.folders d).batch = none) (hpos : 0 < n)
    (hle : n ≤ (w.folders d).queue.length) :
    ∃ w', run (Fleet.step users user) w
        (.read d n :: (List.replicate n (.handle d) ++ [.finish d])) = some w' ∧
      (w'.folders d).batch = none ∧
        (w'.folders d).state = { (w.folders d).state.take n with log := [] } ∧
        w'.upstream d = w.upstream d ++ ((w.folders d).state.take n).log.flatMap fun entry =>
          (entry.2.bind (Request.command (w.folders d).syncDir)).toList := by
  obtain ⟨w₁, hread, hfolder₁, hup₁⟩ : ∃ w₁, w.step users user (.read d n) = some w₁ ∧
      w₁.folders d =
        { w.folders d with
          batch := some ((w.folders d).queue.take n), queue := (w.folders d).queue.drop n } ∧
        w₁.upstream d = w.upstream d := by
    refine ⟨_, by simp only [Fleet.step, hbatch, hpos, hle, and_self, if_true]; rfl, ?_, ?_⟩
    · simp
    · simp
  obtain ⟨w₂, hhandle, hfolder₂, hup₂⟩ :=
    run_handle users user (w := w₁) (d := d) (by rw [hfolder₁])
  have hlength : ((w.folders d).queue.take n).length = n := by
    rw [List.length_take]
    omega
  rw [hlength] at hhandle
  have hfinish : w₂.step users user (.finish d) = some (w₂.setFolder d
      { w₂.folders d with batch := none, instructionSourceIsServer := false }) := by
    simp only [Fleet.step, hfolder₂]
  have hrun : run (Fleet.step users user) w
      (.read d n :: (List.replicate n (.handle d) ++ [.finish d])) = some (w₂.setFolder d
        { w₂.folders d with batch := none, instructionSourceIsServer := false }) := by
    rw [run_cons, hread, Option.bind_some, run_append, hhandle, Option.bind_some, run_cons,
      hfinish]
    rfl
  refine ⟨_, hrun, ?_, ?_, ?_⟩
  · simp
  · rw [Fleet.setFolder_self, hfolder₂, hfolder₁]
    simp [Folder.state, State.initial, State.take]
  · rw [Fleet.setFolder_upstream, hup₂, hup₁, hfolder₁]
    simp only [Folder.state, State.initial, State.take, List.nil_append, List.flatMap_map]
    -- a flag that is set keeps all events back
    have hsent : ∀ e : Event,
        (if (w.folders d).instructionSourceIsServer then none
          else e.command (w.folders d).syncDir) =
          (if (w.folders d).instructionSourceIsServer then none else e.request).bind
            (Request.command (w.folders d).syncDir) := by
      intro e
      split <;> rfl
    simp only [hsent]
    rfl

/-- What a command thread does to the directory of its user on the disk of the server. -/
theorem files_change (c : Server.FileCommand) {userName : Bytes} {disk : Server.Disk}
    (hdir : disk.hasDirectory (Server.userDirectory userName) = true)
    (hslash : Server.slash ∉ (commandOf c).name) :
    (fun name => (c.change Server.Disk.fileSystem userName disk).files
        (Server.completePath userName name)) =
      (commandOf c).perform fun name => disk.files (Server.completePath userName name) := by
  have hinj : ∀ name name', Server.completePath userName name =
      Server.completePath userName name' ↔ name = name' := by
    simp [Server.completePath]
  funext name
  cases c with
  | upload fileName payload =>
      have hparent : Server.Disk.directoryOf (Server.completePath userName fileName) =
          Server.userDirectory userName := by
        have hreverse : (Server.completePath userName fileName).reverse =
            fileName.reverse ++ Server.slash :: (Server.userDirectory userName).reverse := by
          simp [Server.completePath, Server.userDirectory]
        have hname : ∀ b ∈ fileName.reverse, b ≠ Server.slash := by
          intro b hb heq
          exact hslash (heq ▸ List.mem_reverse.1 hb)
        rw [Server.Disk.directoryOf, hreverse,
          List.dropWhile_append_of_pos (by simpa using hname)]
        simp
      have hwrite : ((Server.FileCommand.upload fileName payload).change
          Server.Disk.fileSystem userName disk).files =
          Function.update disk.files (Server.completePath userName fileName) (some payload) := by
        simp [Server.FileCommand.change, Server.Disk.fileSystem, Server.Disk.write, hparent, hdir]
      rw [hwrite]
      simp [Command.perform, commandOf, Command.name, Command.content, Function.update_apply, hinj]
  | delete command =>
      simp [Server.FileCommand.change, Server.Disk.fileSystem, Server.Disk.remove,
        Command.perform, commandOf, Command.name, Command.content, Function.update_apply, hinj]

/-- The connections that a command of the device is written to. -/
theorem tells_told {c : Server.FileCommand} {devices : List (Fin maxDevices)}
    {sends : List (Int32 × List Bytes)}
    (h : Server.Tells (session users user d) c users user devices sends) :
    sends.map Prod.fst = (devices.filter fun k => Told users user d k).map fun k =>
      (users.device (user, k)).socket3 := by
  induction h with
  | done =>
      rfl
  | told hother hwrites _ ih =>
      rw [List.map_cons, ih, List.filter_cons_of_pos (by exact decide_eq_true hother),
        List.map_cons]
  | skipped hself _ ih =>
      rw [ih, List.filter_cons_of_neg (by exact fun h => hself (of_decide_eq_true h))]

end Parts

/-! ## Tidy runs -/

namespace Fleet

/-- A change of the file in folder `d` is on its way to the server, or the other devices have still
to be told of it. -/
def Sends (w : Fleet) (d : Fin maxDevices) (name : Bytes) : Prop :=
  (∃ e ∈ (w.folders d).pending, e.origin = .user ∧ e.name = name) ∨
    (∃ c ∈ w.upstream d, c.name = name) ∨ ∃ c ∈ w.telling d, c.name = name

/-- A command about the file is on its way to folder `d`. -/
def Awaits (w : Fleet) (d : Fin maxDevices) (name : Bytes) : Prop :=
  (∃ c ∈ (w.folders d).applying, c.name = name) ∨ ∃ c ∈ w.downstream d, c.name = name

/-- What the device has still to send. -/
def outgoing (w : Fleet) (d : Fin maxDevices) : List Command :=
  w.upstream d ++ (w.folders d).unsent

/-- What the device has still to apply, with what the server has still to tell it. -/
def incoming (w : Fleet) (d : Fin maxDevices) : List Command :=
  (w.folders d).applying.toList ++ w.downstream d ++
    (List.finRange maxDevices).flatMap fun k =>
      if k = d then [] else (w.telling k).toList

end Fleet

/-- The event of the change is one that is sent, and says what happened to the file. -/
def Announces (mask : Mask) (name : Bytes) (content : Option Bytes) : Prop :=
  ({ mask := mask, name := name, origin := .user } : Event).request =
    some (if content.isSome then .upload name else .delete name)

/-- A user changes a file while no change of it in another folder is under way and none is on its
way to his own; and the flag tells the origin of an event that is handled. -/
def Tidy (users : Server.Users) (user : Fin maxUsers) (w : Fleet) : FleetStep → Prop
  | .change d mask name content =>
      Connected users user d ∧ Announces mask name content ∧
        (∀ k, k ≠ d → ¬w.Sends k name) ∧ ¬w.Awaits d name
  | .handle d =>
      ∀ batch ∈ (w.folders d).batch, ∀ e ∈ batch.head?,
        (w.folders d).instructionSourceIsServer = true ↔ e.origin = .server
  | _ => True

section Settling

variable {name : Bytes} {held : Option Bytes} {c : Command} {cs cs' : List Command} {e : Event}
variable {es : List Event} {dir dir' : Bytes → Option Bytes}

@[simp] theorem settle_nil : settle name [] held = held :=
  rfl

theorem settle_cons :
    settle name (c :: cs) held = settle name cs (if c.name = name then c.content else held) :=
  rfl

theorem settle_append : settle name (cs ++ cs') held = settle name cs' (settle name cs held) :=
  List.foldl_append

/-- Commands about other files make no difference. -/
theorem settle_of_forall_ne (h : ∀ c ∈ cs, c.name ≠ name) : settle name cs held = held := by
  induction cs generalizing held with
  | nil =>
      rfl
  | cons c cs ih =>
      rw [settle_cons, if_neg (h c List.mem_cons_self)]
      exact ih fun c' hc' => h c' (List.mem_cons_of_mem _ hc')

theorem Command.perform_apply (files : Bytes → Option Bytes) :
    c.perform files name = if c.name = name then c.content else files name := by
  simp [Command.perform, Function.update_apply, eq_comm]

/-- A request is about the file of its event. -/
theorem Event.request_name {request : Request} (h : e.request = some request) :
    request = .upload e.name ∨ request = .delete e.name := by
  rcases e with ⟨mask, name, origin⟩
  cases mask with
  | movedFrom =>
      simp only [Event.request] at h
      split at h
      · cases h
      · exact Or.inr (Option.some.inj h).symm
  | delete =>
      exact Or.inr (Option.some.inj h).symm
  | closeWrite | movedTo =>
      exact Or.inl (Option.some.inj h).symm

/-- What is sent for an event is about its file. -/
theorem Event.name_of_command (h : e.command dir = some c) : c.name = e.name := by
  rcases Option.bind_eq_some_iff.1 h with ⟨request, hrequest, hc⟩
  rcases Event.request_name hrequest with rfl | rfl
  · rcases Option.map_eq_some_iff.1 hc with ⟨payload, _, rfl⟩
    rfl
  · cases hc
    rfl

/-- What is sent for an event depends on its own file. -/
theorem Event.command_congr (h : dir e.name = dir' e.name) : e.command dir = e.command dir' := by
  unfold Event.command
  cases hrequest : e.request with
  | none =>
      rfl
  | some request =>
      rcases Event.request_name hrequest with rfl | rfl
      · simp [Request.command, h]
      · rfl

/-- What is sent for an event depends for this file on what this file holds. -/
theorem Event.settle_command (h : dir name = dir' name) :
    settle name (e.command dir).toList held = settle name (e.command dir').toList held := by
  by_cases hname : e.name = name
  · rw [Event.command_congr (show dir e.name = dir' e.name by rw [hname, h])]
  · have hskip : ∀ dir, settle name (e.command dir).toList held = held := by
      intro dir
      refine settle_of_forall_ne fun c hc => ?_
      rwa [Event.name_of_command (Option.mem_toList.1 hc)]
    rw [hskip, hskip]

/-- Changes of other files make no difference to what is sent for this one. -/
theorem settle_commands_congr (h : dir name = dir' name) :
    settle name (es.flatMap fun e => (e.command dir).toList) held =
      settle name (es.flatMap fun e => (e.command dir').toList) held := by
  induction es generalizing held with
  | nil =>
      rfl
  | cons e es ih =>
      rw [List.flatMap_cons, List.flatMap_cons, settle_append, settle_append,
        Event.settle_command h, ih]

end Settling

/-! ## One file -/

/-- What holds of one file: at most one device is sending changes of it; there nothing about the
file is to arrive, and what is to be sent settles the server's copy to what the folder holds; and
everywhere else what is to arrive settles the folder to what the server holds. -/
structure Coherent (users : Server.Users) (user : Fin maxUsers) (name : Bytes) (w : Fleet) :
    Prop where
  solo : ∀ d k, w.Sends d name → w.Sends k name → d = k
  connected : ∀ d, w.Sends d name → Connected users user d
  sender : ∀ d, w.Sends d name → ¬w.Awaits d name ∧
    (w.folders d).syncDir name = w.latest name ∧
      settle name (w.outgoing d) (w.files name) = w.latest name
  follower : ∀ d, Connected users user d → ¬w.Sends d name →
    settle name (w.incoming d) ((w.folders d).syncDir name) = w.files name
  calm : (∀ d, ¬w.Sends d name) → w.files name = w.latest name

section Steps

variable {users : Server.Users} {user : Fin maxUsers} {w w' : Fleet} {name : Bytes}
variable {d k : Fin maxDevices} {s : Folder} {c : Command} {rest : List Command}

/-- A device that sends nothing about the file has nothing to send about it. -/
theorem settle_outgoing (h : ¬w.Sends d name) (held : Option Bytes) :
    settle name (w.outgoing d) held = held := by
  refine settle_of_forall_ne fun c hc hname => h ?_
  rcases List.mem_append.1 hc with hc | hc
  · exact Or.inr (Or.inl ⟨c, hc, hname⟩)
  · rcases List.mem_flatMap.1 hc with ⟨e, he, hce⟩
    rcases List.mem_filter.1 he with ⟨hpending, huser⟩
    have hsame : c.name = e.name := Event.name_of_command (Option.mem_toList.1 hce)
    exact Or.inl ⟨e, hpending, of_decide_eq_true huser, hsame.symm.trans hname⟩

theorem settle_flatMap_congr {ι : Type} {xs : List ι} {f g : ι → List Command}
    (h : ∀ x ∈ xs, ∀ held, settle name (f x) held = settle name (g x) held)
    (held : Option Bytes) :
    settle name (xs.flatMap f) held = settle name (xs.flatMap g) held := by
  induction xs generalizing held with
  | nil =>
      rfl
  | cons x xs ih =>
      rw [List.flatMap_cons, List.flatMap_cons, settle_append, settle_append,
        h x List.mem_cons_self, ih fun y hy => h y (List.mem_cons_of_mem _ hy)]

theorem settle_flatMap_of_forall {ι : Type} {xs : List ι} {f : ι → List Command}
    (h : ∀ x ∈ xs, ∀ c ∈ f x, c.name ≠ name) (held : Option Bytes) :
    settle name (xs.flatMap f) held = held := by
  refine settle_of_forall_ne fun c hc => ?_
  rcases List.mem_flatMap.1 hc with ⟨x, hx, hcx⟩
  exact h x hx c hcx

/-- What the server has to tell a device about the file comes from the device that sends it. -/
theorem settle_tellings {telling : Fin maxDevices → Option Command}
    (hothers : ∀ j, j ≠ d → ∀ c ∈ telling j, c.name ≠ name) (hk : k ≠ d)
    (held : Option Bytes) :
    settle name ((List.finRange maxDevices).flatMap fun j =>
        if j = k then [] else (telling j).toList) held =
      settle name (telling d).toList held := by
  obtain ⟨front, behind, hsplit⟩ := List.append_of_mem (List.mem_finRange d)
  have hnodup : (front ++ d :: behind).Nodup := hsplit ▸ List.nodup_finRange maxDevices
  have hnotFront : d ∉ front := fun hmem =>
    (List.nodup_append.1 hnodup).2.2 d hmem d List.mem_cons_self rfl
  have hnotBehind : d ∉ behind := (List.nodup_cons.1 (List.nodup_append.1 hnodup).2.1).1
  have hnone : ∀ xs : List (Fin maxDevices), d ∉ xs → ∀ held,
      settle name (xs.flatMap fun j => if j = k then [] else (telling j).toList) held =
        held := by
    intro xs hxs
    refine settle_flatMap_of_forall fun j hj c hc => ?_
    have hjd : j ≠ d := fun heq => hxs (heq ▸ hj)
    split at hc
    · cases hc
    · exact hothers j hjd c (Option.mem_toList.1 hc)
  rw [hsplit, List.flatMap_append, List.flatMap_cons, settle_append, settle_append,
    hnone front hnotFront, hnone behind hnotBehind, if_neg (Ne.symm hk)]

/-- Only the device that sends changes of the file has told the server of one. -/
theorem Coherent.telling_ne (h : Coherent users user name w) (hd : w.Sends d name)
    {j : Fin maxDevices} (hj : j ≠ d) : ∀ c ∈ w.telling j, c.name ≠ name :=
  fun c hc hname => hj (h.solo j d (Or.inr (Or.inr ⟨c, hc, hname⟩)) hd)

/-- A step in which nobody begins or ends to send changes of the file. -/
theorem Coherent.congr (h : Coherent users user name w)
    (hsends : ∀ d, w'.Sends d name ↔ w.Sends d name)
    (hawaits : ∀ d, w.Sends d name → w'.Awaits d name → w.Awaits d name)
    (hdir : ∀ d, w.Sends d name → (w'.folders d).syncDir name = (w.folders d).syncDir name)
    (hfiles : w'.files name = w.files name) (hlatest : w'.latest name = w.latest name)
    (hout : ∀ d, w.Sends d name →
      ∀ held, settle name (w'.outgoing d) held = settle name (w.outgoing d) held)
    (hin : ∀ d, Connected users user d → ¬w.Sends d name →
      settle name (w'.incoming d) ((w'.folders d).syncDir name) =
        settle name (w.incoming d) ((w.folders d).syncDir name)) :
    Coherent users user name w' where
  solo := fun d k hd hk => h.solo d k ((hsends d).1 hd) ((hsends k).1 hk)
  connected := fun d hd => h.connected d ((hsends d).1 hd)
  sender := by
    intro d hd
    have hs := (hsends d).1 hd
    rcases h.sender d hs with ⟨hno, hheld, hsettle⟩
    refine ⟨fun haw => hno (hawaits d hs haw), ?_, ?_⟩
    · rw [hdir d hs, hheld, hlatest]
    · rw [hout d hs, hfiles, hsettle, hlatest]
  follower := by
    intro d hcon hd
    have hs : ¬w.Sends d name := fun hs => hd ((hsends d).2 hs)
    rw [hin d hcon hs, h.follower d hcon hs, hfiles]
  calm := by
    intro hnone
    rw [hfiles, hlatest]
    exact h.calm fun d hd => hnone d ((hsends d).2 hd)

/-- A step in which the device that sends changes of the file ends to do so. -/
theorem Coherent.stopped (h : Coherent users user name w) (hd : w.Sends d name)
    (hd' : ¬w'.Sends d name) (hothers : ∀ k, k ≠ d → w'.Sends k name → w.Sends k name)
    (hawaits : w'.Awaits d name → w.Awaits d name)
    (hdir : ∀ k, (w'.folders k).syncDir name = (w.folders k).syncDir name)
    (hfiles : w'.files name = w.files name) (hlatest : w'.latest name = w.latest name)
    (hout : ∀ held, settle name (w'.outgoing d) held = settle name (w.outgoing d) held)
    (hin : ∀ k, k ≠ d → Connected users user k →
      ∀ held, settle name (w'.incoming k) held = settle name (w.incoming k) held) :
    Coherent users user name w' := by
  rcases h.sender d hd with ⟨hno, hheld, hsettle⟩
  have hnone : ∀ k, ¬w'.Sends k name := by
    intro k hk
    by_cases hkd : k = d
    · exact hd' (hkd ▸ hk)
    · exact hkd (h.solo k d (hothers k hkd hk) hd)
  -- all that was to be sent has been sent
  have hsent : w.files name = w.latest name := by
    rw [← hsettle, ← hout, settle_outgoing hd']
  have hcalm : w'.files name = w'.latest name := by rw [hfiles, hlatest, hsent]
  refine ⟨fun k _ hk => absurd hk (hnone k), fun k hk => absurd hk (hnone k),
    fun k hk => absurd hk (hnone k), fun k hcon _ => ?_, fun _ => hcalm⟩
  by_cases hkd : k = d
  · subst hkd
    have harrived : ∀ c ∈ w'.incoming k, c.name ≠ name := by
      intro c hc hname
      rcases List.mem_append.1 hc with hc | hc
      · refine hno (hawaits ?_)
        rcases List.mem_append.1 hc with hc | hc
        · exact Or.inl ⟨c, Option.mem_toList.1 hc, hname⟩
        · exact Or.inr ⟨c, hc, hname⟩
      · rcases List.mem_flatMap.1 hc with ⟨j, _, hcj⟩
        split at hcj
        · cases hcj
        · exact hnone j (Or.inr (Or.inr ⟨c, Option.mem_toList.1 hcj, hname⟩))
    rw [settle_of_forall_ne harrived, hdir, hheld, hfiles, hsent]
  · have hk : ¬w.Sends k name := fun hk => hkd (h.solo k d hk hd)
    rw [hin k hkd hcon, hdir, h.follower k hcon hk, hfiles]

/-- The threads of a device go on without touching its folder. -/
theorem Coherent.of_folder (h : Coherent users user name w)
    (hpending : s.pending = (w.folders d).pending) (hdir : s.syncDir = (w.folders d).syncDir)
    (happlying : s.applying = (w.folders d).applying) :
    Coherent users user name (w.setFolder d s) := by
  have hfolder : ∀ k, ((w.setFolder d s).folders k).pending = (w.folders k).pending ∧
      ((w.setFolder d s).folders k).syncDir = (w.folders k).syncDir ∧
        ((w.setFolder d s).folders k).applying = (w.folders k).applying := by
    intro k
    by_cases hk : k = d
    · subst hk
      simp [Fleet.setFolder, hpending, hdir, happlying]
    · simp [Fleet.setFolder, hk]
  refine h.congr (fun k => ?_) (fun k _ => ?_) (fun k _ => ?_) rfl rfl (fun k _ held => ?_)
    fun k _ _ => ?_
  · simp only [Fleet.Sends, (hfolder k).1]
    rfl
  · simp only [Fleet.Awaits, (hfolder k).2.2]
    exact id
  · rw [(hfolder k).2.1]
  · simp only [Fleet.outgoing, Folder.unsent, (hfolder k).1, (hfolder k).2.1]
    rfl
  · simp only [Fleet.incoming, (hfolder k).2.1, (hfolder k).2.2]
    rfl

/-! ### The user -/

/-- What is sent for a change settles the file to what the change has made of it. -/
theorem settle_announced {mask : Mask} {content held : Option Bytes}
    {dir : Bytes → Option Bytes} (h : Announces mask name content) (hdir : dir name = content) :
    settle name
      ((⟨mask, name, .user⟩ : Event).command dir).toList held = content := by
  unfold Announces at h
  rw [Event.command, h]
  cases content with
  | none =>
      simp [settle, Request.command, Command.name, Command.content]
  | some payload =>
      simp [settle, Request.command, Command.name, Command.content, hdir]

theorem Folder.unsent_change (mask : Mask) (n : Bytes) (content : Option Bytes) :
    (s.change mask n content).unsent =
      ((s.pending.filter fun e => e.origin = .user).flatMap fun e =>
        (e.command (s.change mask n content).syncDir).toList) ++
        ((⟨mask, n, .user⟩ : Event).command (s.change mask n content).syncDir).toList := by
  have hpending : (s.change mask n content).pending = s.pending ++ [⟨mask, n, .user⟩] := by
    simp [Folder.pending, Folder.change]
  rw [Folder.unsent, hpending]
  simp

theorem Coherent.change (h : Coherent users user name w) {mask : Mask} {n : Bytes}
    {content : Option Bytes} (hok : Tidy users user w (.change d mask n content)) :
    Coherent users user name
      { w.setFolder d ((w.folders d).change mask n content) with
        latest := Function.update w.latest n content } := by
  rcases hok with ⟨hcon, hannounces, hothers, hno⟩
  have hpending : ((w.folders d).change mask n content).pending =
      (w.folders d).pending ++ [⟨mask, n, .user⟩] := by
    simp [Folder.pending, Folder.change]
  have happlying : ((w.folders d).change mask n content).applying = (w.folders d).applying := rfl
  by_cases hname : n = name
  · subst hname
    have hsends : ∀ k, Fleet.Sends
        { w.setFolder d ((w.folders d).change mask n content) with
          latest := Function.update w.latest n content } k n ↔ k = d := by
      intro k
      constructor
      · intro hk
        by_contra hkd
        refine hothers k hkd ?_
        simpa [Fleet.Sends, Fleet.setFolder_of_ne hkd] using hk
      · rintro rfl
        refine Or.inl ⟨⟨mask, n, .user⟩, ?_, rfl, rfl⟩
        simp [hpending]
    have hheld : ((w.folders d).change mask n content).syncDir n = content := by
      simp [Folder.change]
    refine ⟨fun k j hk hj => ?_, fun k hk => ?_, fun k hk => ?_, fun k hk hks => ?_,
      fun hnone => ?_⟩
    · rw [(hsends k).1 hk, (hsends j).1 hj]
    · rw [(hsends k).1 hk]
      exact hcon
    · obtain rfl := (hsends k).1 hk
      refine ⟨fun haw => hno ?_, ?_, ?_⟩
      · simpa [Fleet.Awaits, happlying] using haw
      · simpa using hheld
      · simp only [Fleet.outgoing, Fleet.setFolder_self, Folder.unsent_change, settle_append,
          Function.update_self]
        exact settle_announced hannounces hheld
    · have hkd : k ≠ d := fun heq => hks ((hsends k).2 heq)
      have hfollower := h.follower k hk (hothers k hkd)
      simpa [Fleet.incoming, Fleet.setFolder_of_ne hkd] using hfollower
    · exact absurd ((hsends d).2 rfl) (hnone d)
  · have hdir : ((w.folders d).change mask n content).syncDir name =
        (w.folders d).syncDir name := by simp [Folder.change, Ne.symm hname]
    refine h.congr (fun k => ?_) (fun k _ haw => ?_) (fun k _ => ?_) rfl ?_ (fun k _ held => ?_)
      fun k _ _ => ?_
    · by_cases hkd : k = d
      · subst hkd
        simp [Fleet.Sends, hpending, or_and_right, exists_or, hname]
      · simp [Fleet.Sends, Fleet.setFolder_of_ne hkd]
    · by_cases hkd : k = d
      · subst hkd
        simpa [Fleet.Awaits, happlying] using haw
      · simpa [Fleet.Awaits, Fleet.setFolder_of_ne hkd] using haw
    · by_cases hkd : k = d
      · subst hkd
        simpa using hdir
      · simp [Fleet.setFolder_of_ne hkd]
    · exact Function.update_of_ne (Ne.symm hname) _ _
    · by_cases hkd : k = d
      · subst hkd
        -- the new event is about another file
        have hlast : ∀ held, settle name ((⟨mask, n, .user⟩ : Event).command
            ((w.folders k).change mask n content).syncDir).toList held = held := by
          refine fun held => settle_of_forall_ne fun c hc => ?_
          rwa [Event.name_of_command (Option.mem_toList.1 hc)]
        simp only [Fleet.outgoing, Fleet.setFolder_self, Folder.unsent_change, settle_append,
          hlast]
        exact settle_commands_congr hdir
      · simp [Fleet.outgoing, Fleet.setFolder_of_ne hkd]
    · by_cases hkd : k = d
      · subst hkd
        simp [Fleet.incoming, happlying, hdir]
      · simp [Fleet.incoming, Fleet.setFolder_of_ne hkd]

/-! ### The threads of a device -/

/-- The state after the event `e`, with `sent` for it. -/
def Fleet.handled (w : Fleet) (d : Fin maxDevices) (events : List Event) (sent : Option Command) :
    Fleet :=
  { w.setFolder d { w.folders d with batch := some events } with
    upstream := Function.update w.upstream d (w.upstream d ++ sent.toList) }

section Handling

variable {e : Event} {events : List Event} {sent : Option Command}

theorem awaits_handled : (w.handled d events sent).Awaits k name ↔ w.Awaits k name := by
  by_cases hkd : k = d
  · subst hkd
    simp [Fleet.handled, Fleet.Awaits]
  · simp [Fleet.handled, Fleet.Awaits, Fleet.setFolder_of_ne hkd]

theorem syncDir_handled :
    ((w.handled d events sent).folders k).syncDir = (w.folders k).syncDir := by
  by_cases hkd : k = d
  · subst hkd
    simp [Fleet.handled]
  · simp [Fleet.handled, Fleet.setFolder_of_ne hkd]

theorem incoming_handled : (w.handled d events sent).incoming k = w.incoming k := by
  by_cases hkd : k = d
  · subst hkd
    simp [Fleet.handled, Fleet.incoming]
  · simp [Fleet.handled, Fleet.incoming, Fleet.setFolder_of_ne hkd]

theorem sends_handled_of_ne (hkd : k ≠ d) :
    (w.handled d events sent).Sends k name ↔ w.Sends k name := by
  simp [Fleet.handled, Fleet.Sends, Fleet.setFolder_of_ne hkd, hkd]

/-- An event takes what is sent for it along. -/
theorem outgoing_handled (hbatch : (w.folders d).batch = some (e :: events))
    (hsent : sent = if e.origin = .user then e.command (w.folders d).syncDir else none) :
    (w.handled d events sent).outgoing k = w.outgoing k := by
  by_cases hkd : k = d
  · subst hkd
    subst hsent
    by_cases huser : e.origin = .user
    · simp [Fleet.handled, Fleet.outgoing, Folder.unsent, Folder.pending, hbatch, huser]
    · simp [Fleet.handled, Fleet.outgoing, Folder.unsent, Folder.pending, hbatch, huser]
  · simp [Fleet.handled, Fleet.outgoing, Fleet.setFolder_of_ne hkd, hkd]

/-- A device that sends changes of the file did so before the event was handled. -/
theorem sends_of_handled (hbatch : (w.folders d).batch = some (e :: events))
    (hsent : sent = if e.origin = .user then e.command (w.folders d).syncDir else none)
    (h : (w.handled d events sent).Sends d name) : w.Sends d name := by
  have hpending : (w.folders d).pending = e :: (events ++ (w.folders d).queue) := by
    simp [Folder.pending, hbatch]
  rcases h with ⟨e', he', huser, hname⟩ | ⟨c, hc, hname⟩ | htelling
  · refine Or.inl ⟨e', ?_, huser, hname⟩
    rw [hpending]
    simp only [Fleet.handled, Fleet.setFolder_self, Folder.pending, Option.getD_some] at he'
    exact List.mem_cons_of_mem _ he'
  · simp only [Fleet.handled, Function.update_self, List.mem_append, Option.mem_toList] at hc
    rcases hc with hc | hc
    · exact Or.inr (Or.inl ⟨c, hc, hname⟩)
    · subst hsent
      split at hc
      · next huser =>
          refine Or.inl ⟨e, by rw [hpending]; exact List.mem_cons_self, huser, ?_⟩
          rw [← Event.name_of_command hc, hname]
      · cases hc
  · exact Or.inr (Or.inr htelling)

theorem Coherent.handle (h : Coherent users user name w)
    (hbatch : (w.folders d).batch = some (e :: events))
    (hsent : sent = if e.origin = .user then e.command (w.folders d).syncDir else none) :
    Coherent users user name (w.handled d events sent) := by
  by_cases hends : w.Sends d name ∧ ¬(w.handled d events sent).Sends d name
  · exact h.stopped hends.1 hends.2 (fun k hkd => (sends_handled_of_ne hkd).1) awaits_handled.1
      (fun k => by rw [syncDir_handled]) rfl rfl
      (fun held => by rw [outgoing_handled hbatch hsent]) fun k _ _ held => by
        rw [incoming_handled]
  · refine h.congr (fun k => ?_) (fun k _ => awaits_handled.1)
      (fun k _ => by rw [syncDir_handled]) rfl rfl
      (fun k _ held => by rw [outgoing_handled hbatch hsent]) fun k _ _ => by
        rw [incoming_handled, syncDir_handled]
    by_cases hkd : k = d
    · subst hkd
      refine ⟨sends_of_handled hbatch hsent, fun hs => ?_⟩
      by_contra hno
      exact hends ⟨hs, hno⟩
    · exact sends_handled_of_ne hkd

end Handling

theorem Coherent.receive (h : Coherent users user name w)
    (hdown : w.downstream d = c :: rest) (happlying : (w.folders d).applying = none) :
    Coherent users user name
      { w.setFolder d
          { w.folders d with instructionSourceIsServer := true, applying := some c } with
        downstream := Function.update w.downstream d rest } := by
  refine h.congr (fun k => ?_) (fun k _ haw => ?_) (fun k _ => ?_) rfl rfl (fun k _ held => ?_)
    fun k _ _ => ?_
  all_goals by_cases hkd : k = d
  · subst hkd
    simp [Fleet.Sends, Folder.pending]
  · simp [Fleet.Sends, Fleet.setFolder_of_ne hkd]
  · subst hkd
    simpa [Fleet.Awaits, hdown, happlying] using haw
  · simpa [Fleet.Awaits, Fleet.setFolder_of_ne hkd, hkd] using haw
  · subst hkd
    simp
  · simp [Fleet.setFolder_of_ne hkd]
  · subst hkd
    simp [Fleet.outgoing, Folder.unsent, Folder.pending]
  · simp [Fleet.outgoing, Fleet.setFolder_of_ne hkd]
  · subst hkd
    simp [Fleet.incoming, hdown, happlying]
  · simp [Fleet.incoming, Fleet.setFolder_of_ne hkd, hkd]

/-- A command that is applied queues no event of the user. -/
theorem Folder.pending_apply (c : Command) :
    ((s.apply c).pending.filter fun e => e.origin = .user) =
      s.pending.filter fun e => e.origin = .user := by
  have hpending : (s.apply c).pending = s.pending ++ ((s.apply c).queue.drop s.queue.length) := by
    simp [Folder.pending, Folder.apply]
  have hserver : ∀ e ∈ (s.apply c).queue.drop s.queue.length, e.origin = .server := by
    intro e he
    simp only [Folder.apply, List.drop_left] at he
    split at he
    · rw [List.mem_singleton.1 he]
    · split at he
      · rw [List.mem_singleton.1 he]
      · cases he
  have hnone : ((s.apply c).queue.drop s.queue.length).filter (fun e => e.origin = .user) = [] :=
    List.filter_eq_nil_iff.2 fun e he => by simp [hserver e he]
  rw [hpending, List.filter_append, hnone, List.append_nil]

theorem Coherent.apply (h : Coherent users user name w) (hc : (w.folders d).applying = some c) :
    Coherent users user name (w.setFolder d ((w.folders d).apply c)) := by
  have hdir : ((w.folders d).apply c).syncDir name =
      if c.name = name then c.content else (w.folders d).syncDir name :=
    Command.perform_apply _
  have hsends : ∀ k, (w.setFolder d ((w.folders d).apply c)).Sends k name ↔ w.Sends k name := by
    intro k
    by_cases hkd : k = d
    · subst hkd
      have hmem : ∀ e, (e ∈ ((w.folders k).apply c).pending ∧ e.origin = .user) ↔
          (e ∈ (w.folders k).pending ∧ e.origin = .user) := by
        intro e
        have hfilter := Folder.pending_apply (s := w.folders k) c
        have hiff : e ∈ (((w.folders k).apply c).pending.filter fun e => e.origin = .user) ↔
            e ∈ ((w.folders k).pending.filter fun e => e.origin = .user) := by rw [hfilter]
        simpa only [List.mem_filter, decide_eq_true_eq] using hiff
      simp only [Fleet.Sends, Fleet.setFolder_self, Fleet.setFolder_upstream,
        Fleet.setFolder_telling, ← and_assoc, hmem]
    · simp [Fleet.Sends, Fleet.setFolder_of_ne hkd]
  -- a device that sends changes of the file applies nothing about it
  have hne : w.Sends d name → c.name ≠ name := by
    intro hs hname
    exact (h.sender d hs).1 (Or.inl ⟨c, hc, hname⟩)
  refine h.congr hsends (fun k _ haw => ?_) (fun k hs => ?_) rfl rfl (fun k hs held => ?_)
    fun k _ _ => ?_
  all_goals by_cases hkd : k = d
  · subst hkd
    refine Or.inr ?_
    simpa [Fleet.Awaits, Folder.apply] using haw
  · simpa [Fleet.Awaits, Fleet.setFolder_of_ne hkd] using haw
  · subst hkd
    rw [Fleet.setFolder_self, hdir, if_neg (hne hs)]
  · rw [Fleet.setFolder_of_ne hkd]
  · subst hkd
    have hsame : ((w.folders k).apply c).syncDir name = (w.folders k).syncDir name := by
      rw [hdir, if_neg (hne hs)]
    simp only [Fleet.outgoing, Fleet.setFolder_self, Fleet.setFolder_upstream, Folder.unsent,
      Folder.pending_apply, settle_append]
    exact settle_commands_congr hsame
  · simp [Fleet.outgoing, Fleet.setFolder_of_ne hkd]
  · subst hkd
    have hnone : ((w.folders k).apply c).applying = none := rfl
    simp only [Fleet.incoming, Fleet.setFolder_self, Fleet.setFolder_downstream,
      Fleet.setFolder_telling, hnone, hc, hdir, Option.toList_none, Option.toList_some,
      List.nil_append, List.cons_append, settle_cons]
  · simp [Fleet.incoming, Fleet.setFolder_of_ne hkd]

/-! ### The server -/

theorem Coherent.serve (h : Coherent users user name w) (hup : w.upstream d = c :: rest)
    (htelling : w.telling d = none) :
    Coherent users user name
      { w with
        files := c.perform w.files
        upstream := Function.update w.upstream d rest
        telling := Function.update w.telling d (some c) } := by
  by_cases hname : c.name = name
  · have hd : w.Sends d name :=
      Or.inr (Or.inl ⟨c, by rw [hup]; exact List.mem_cons_self, hname⟩)
    have hsends : ∀ k, Fleet.Sends
        { w with
          files := c.perform w.files
          upstream := Function.update w.upstream d rest
          telling := Function.update w.telling d (some c) } k name ↔ w.Sends k name := by
      intro k
      by_cases hkd : k = d
      · subst hkd
        exact ⟨fun _ => hd, fun _ => Or.inr (Or.inr ⟨c, by simp, hname⟩)⟩
      · simp [Fleet.Sends, hkd]
    have hfiles : c.perform w.files name = c.content := by
      rw [Command.perform_apply, if_pos hname]
    rcases h.sender d hd with ⟨hno, hheld, hsettle⟩
    refine ⟨fun k j hk hj => h.solo k j ((hsends k).1 hk) ((hsends j).1 hj),
      fun k hk => h.connected k ((hsends k).1 hk), fun k hk => ?_, fun k hcon hk => ?_,
      fun hnone => absurd ((hsends d).2 hd) (hnone d)⟩
    · obtain rfl : k = d := h.solo k d ((hsends k).1 hk) hd
      refine ⟨hno, hheld, ?_⟩
      rw [Fleet.outgoing, hup, List.cons_append, settle_cons, if_pos hname] at hsettle
      simp only [Fleet.outgoing, Function.update_self]
      rw [hfiles]
      exact hsettle
    · -- the command comes last among what the device is to be told
      have hkd : k ≠ d := fun heq => hk ((hsends k).2 (heq ▸ hd))
      have hothers : ∀ j, j ≠ d → ∀ c' ∈ Function.update w.telling d (some c) j,
          c'.name ≠ name := by
        intro j hj
        rw [Function.update_of_ne hj]
        exact h.telling_ne hd hj
      simp only [Fleet.incoming, settle_append]
      rw [settle_tellings hothers hkd, Function.update_self, hfiles, Option.toList_some,
        settle_cons, if_pos hname, settle_nil]
  · refine h.congr (fun k => ?_) (fun k _ => id) (fun k _ => rfl) ?_ rfl (fun k _ held => ?_)
      fun k _ _ => ?_
    · by_cases hkd : k = d
      · subst hkd
        simp [Fleet.Sends, hup, htelling, hname]
      · simp [Fleet.Sends, hkd]
    · exact (Command.perform_apply _).trans (if_neg hname)
    · by_cases hkd : k = d
      · subst hkd
        simp [Fleet.outgoing, hup, settle_cons, hname]
      · simp [Fleet.outgoing, hkd]
    · simp only [Fleet.incoming, settle_append]
      refine settle_flatMap_congr (fun j _ held => ?_) _
      by_cases hjd : j = d
      · subst hjd
        split
        · rfl
        · simp [htelling, settle_cons, hname]
      · simp [hjd]

/-- A command is told to the other devices, and not to the one that it comes from. -/
theorem told_iff {opened : Set Int32} (hheld : Server.Held users opened)
    (hd : Connected users user d) (hk : Connected users user k) : Told users user d k ↔ k ≠ d := by
  constructor
  · rintro ⟨_, _, hid⟩ rfl
    exact hid rfl
  · intro hne
    have hids := hheld.reachable.wellFormed.ids user
    have hown : Server.stored users ((user, d), .socket2) =
        (session users user d).currentSocket := rfl
    exact hheld.owned.notifies hown hd.2.1 rfl hk.1 fun heq => hne (hids k d heq hk.1)

theorem not_told_self : ¬Told users user d d :=
  fun h => h.2.2 rfl

theorem Coherent.tell {opened : Set Int32} (hheld : Server.Held users opened)
    (h : Coherent users user name w) (htelling : w.telling d = some c) :
    Coherent users user name
      { w with
        telling := Function.update w.telling d none
        downstream := fun k =>
          if Told users user d k then w.downstream k ++ [c] else w.downstream k } := by
  generalize hw' : ({ w with
    telling := Function.update w.telling d none
    downstream := fun k =>
      if Told users user d k then w.downstream k ++ [c] else w.downstream k } : Fleet) = w'
  have hothers : ∀ k, k ≠ d → (w'.Sends k name ↔ w.Sends k name) := by
    intro k hkd
    subst hw'
    simp [Fleet.Sends, hkd]
  have hout : ∀ k, w'.outgoing k = w.outgoing k := by
    intro k
    subst hw'
    rfl
  have hself : w'.Awaits d name → w.Awaits d name := by
    intro haw
    subst hw'
    simpa [Fleet.Awaits, not_told_self] using haw
  have hback : w'.Sends d name → w.Sends d name := by
    intro hs
    subst hw'
    rcases hs with hpending | hup | ⟨c', hc', _⟩
    · exact Or.inl hpending
    · exact Or.inr (Or.inl hup)
    · simp at hc'
  -- what is told goes over from the server to the connections
  have hin : ∀ k, k ≠ d ∧ Connected users user d ∧ Connected users user k ∨ c.name ≠ name →
      ∀ held, settle name (w'.incoming k) held = settle name (w.incoming k) held := by
    intro k hk held
    by_cases hname : c.name = name
    · rcases hk with ⟨hkd, hcond, hconk⟩ | hne
      · have hd : w.Sends d name :=
          Or.inr (Or.inr ⟨c, by rw [htelling]; exact rfl, hname⟩)
        have hnone : ∀ j, ∀ c' ∈ w'.telling j, c'.name ≠ name := by
          intro j c' hc'
          subst hw'
          by_cases hjd : j = d
          · subst hjd
            simp at hc'
          · dsimp only at hc'
            rw [Function.update_of_ne hjd] at hc'
            exact h.telling_ne hd hjd c' hc'
        have hbefore := settle_tellings (fun j hj => h.telling_ne hd hj) hkd
        have hafter : ∀ held, settle name ((List.finRange maxDevices).flatMap fun j =>
            if j = k then [] else (w'.telling j).toList) held = held := by
          refine settle_flatMap_of_forall fun j _ c' hc' => ?_
          split at hc'
          · cases hc'
          · exact hnone j c' (Option.mem_toList.1 hc')
        have hdown : w'.downstream k = w.downstream k ++ [c] := by
          subst hw'
          exact if_pos ((told_iff hheld hcond hconk).2 hkd)
        have hfolder : w'.folders = w.folders := by
          subst hw'
          rfl
        simp only [Fleet.incoming, settle_append]
        rw [hafter, hbefore, hdown, hfolder, settle_append, htelling, Option.toList_some]
      · exact absurd hname hne
    · subst hw'
      have hdown : ∀ held, settle name
          (if Told users user d k then w.downstream k ++ [c] else w.downstream k) held =
          settle name (w.downstream k) held := by
        intro held
        split
        · rw [settle_append, settle_cons, if_neg hname, settle_nil]
        · rfl
      simp only [Fleet.incoming, settle_append, hdown]
      refine settle_flatMap_congr (fun j _ held => ?_) _
      by_cases hjd : j = d
      · subst hjd
        split
        · rfl
        · simp [htelling, settle_cons, hname]
      · simp [hjd]
  have hfields : w'.folders = w.folders ∧ w'.files = w.files ∧ w'.latest = w.latest := by
    subst hw'
    exact ⟨rfl, rfl, rfl⟩
  have hsome : c.name = name → w.Sends d name := fun hname =>
    Or.inr (Or.inr ⟨c, by rw [htelling]; exact rfl, hname⟩)
  by_cases hends : w.Sends d name ∧ ¬w'.Sends d name
  · refine h.stopped hends.1 hends.2 (fun k hkd => (hothers k hkd).1) hself
      (fun k => by rw [hfields.1]) (by rw [hfields.2.1]) (by rw [hfields.2.2])
      (fun held => by rw [hout]) fun k hkd hcon held => ?_
    exact hin k (Or.inl ⟨hkd, h.connected d hends.1, hcon⟩) held
  · refine h.congr (fun k => ?_) (fun k hs haw => ?_) (fun k _ => by rw [hfields.1])
      (by rw [hfields.2.1]) (by rw [hfields.2.2]) (fun k _ held => by rw [hout])
      fun k hcon hk => ?_
    · by_cases hkd : k = d
      · subst hkd
        refine ⟨hback, fun hs => ?_⟩
        by_contra hno
        exact hends ⟨hs, hno⟩
      · exact hothers k hkd
    · by_cases hname : c.name = name
      · obtain rfl : k = d := h.solo k d hs (hsome hname)
        exact hself haw
      · subst hw'
        rcases haw with happlying | ⟨c', hc', hname'⟩
        · exact Or.inl happlying
        · dsimp only at hc'
          split at hc'
          · rcases List.mem_append.1 hc' with hc' | hc'
            · exact Or.inr ⟨c', hc', hname'⟩
            · rw [List.mem_singleton.1 hc'] at hname'
              exact absurd hname' hname
          · exact Or.inr ⟨c', hc', hname'⟩
    · rw [hfields.1]
      by_cases hname : c.name = name
      · have hkd : k ≠ d := fun heq => hk (heq ▸ hsome hname)
        exact hin k (Or.inl ⟨hkd, h.connected d (hsome hname), hcon⟩) _
      · exact hin k (Or.inr hname) _

theorem Coherent.step {opened : Set Int32} (hheld : Server.Held users opened) {l : FleetStep}
    (h : Coherent users user name w) (hok : Tidy users user w l)
    (hl : w.step users user l = some w') : Coherent users user name w' := by
  cases l with
  | change d mask n content =>
      cases hl
      exact h.change hok
  | read d n =>
      simp only [Fleet.step] at hl
      split at hl
      · next hbatch =>
          split at hl
          · cases hl
            exact h.of_folder (by simp [Folder.pending, hbatch]) rfl rfl
          · cases hl
      · cases hl
  | handle d =>
      simp only [Fleet.step] at hl
      split at hl
      · next e events hbatch =>
          cases hl
          have hflag := hok (e :: events) hbatch e rfl
          refine h.handle hbatch ?_
          cases horigin : e.origin with
          | server =>
              simp [hflag.2 horigin]
          | user =>
              have hoff : (w.folders d).instructionSourceIsServer ≠ true := fun hon => by
                rw [hflag.1 hon] at horigin
                cases horigin
              simp [hoff]
      · cases hl
  | finish d =>
      simp only [Fleet.step] at hl
      split at hl
      · next hbatch =>
          cases hl
          exact h.of_folder (by simp [Folder.pending, hbatch]) rfl rfl
      · cases hl
  | serve d =>
      simp only [Fleet.step] at hl
      split at hl
      · next c rest hup htelling =>
          cases hl
          exact h.serve hup htelling
      · cases hl
  | tell d =>
      simp only [Fleet.step] at hl
      split at hl
      · next c htelling =>
          cases hl
          exact h.tell hheld htelling
      · cases hl
  | receive d =>
      simp only [Fleet.step] at hl
      split at hl
      · next c rest hdown happlying =>
          cases hl
          exact h.receive hdown happlying
      · cases hl
  | apply d =>
      simp only [Fleet.step] at hl
      split at hl
      · next c happlying =>
          cases hl
          exact h.apply happlying
      · cases hl

theorem Coherent.initial (files : Bytes → Option Bytes) :
    Coherent users user name (Fleet.initial files) := by
  have hnone : ∀ d, ¬(Fleet.initial files).Sends d name := by
    rintro d (⟨e, he, _⟩ | ⟨c, hc, _⟩ | ⟨c, hc, _⟩)
    · simp [Fleet.initial, Folder.initial, Folder.pending] at he
    · simp [Fleet.initial] at hc
    · simp [Fleet.initial] at hc
  refine ⟨fun d _ hd => absurd hd (hnone d), fun d hd => absurd hd (hnone d),
    fun d hd => absurd hd (hnone d), fun d _ _ => ?_, fun _ => rfl⟩
  have hempty : (Fleet.initial files).incoming d = [] := by
    simp [Fleet.initial, Folder.initial, Fleet.incoming]
  rw [hempty]
  rfl

theorem Coherent.of_reaches {opened : Set Int32} (hheld : Server.Held users opened)
    {files : Bytes → Option Bytes}
    (h : Reaches (Fleet.step users user) (Tidy users user) (.initial files) w) :
    Coherent users user name w :=
  h.invariant (.initial files) fun _ _ _ hc hok hl => hc.step hheld hok hl

/-- When no device sends changes of the file, every folder is settled that awaits none. -/
theorem Coherent.settled (h : Coherent users user name w) (hnone : ∀ d, ¬w.Sends d name)
    (hcon : Connected users user d) (harrived : ¬w.Awaits d name) :
    (w.folders d).syncDir name = w.latest name := by
  have hempty : ∀ c ∈ w.incoming d, c.name ≠ name := by
    intro c hmem hname
    rcases List.mem_append.1 hmem with hmem | hmem
    · rcases List.mem_append.1 hmem with hmem | hmem
      · exact harrived (Or.inl ⟨c, Option.mem_toList.1 hmem, hname⟩)
      · exact harrived (Or.inr ⟨c, hmem, hname⟩)
    · rcases List.mem_flatMap.1 hmem with ⟨j, _, hj⟩
      split at hj
      · cases hj
      · exact hnone j (Or.inr (Or.inr ⟨c, Option.mem_toList.1 hj, hname⟩))
  have hfollower := h.follower d hcon (hnone d)
  rw [settle_of_forall_ne hempty] at hfollower
  rw [hfollower, h.calm hnone]

/-- In a tidy run no change of a file is lost: when no device has a change of it to send, the server
holds what the last change has made of it, and so does every folder that nothing about it is on its
way to. -/
theorem no_change_lost {opened : Set Int32} (hheld : Server.Held users opened)
    {files : Bytes → Option Bytes}
    (h : Reaches (Fleet.step users user) (Tidy users user) (.initial files) w)
    (hsent : ∀ d, Connected users user d → ¬w.Sends d name) :
    w.files name = w.latest name ∧
      ∀ d, Connected users user d → ¬w.Awaits d name →
        (w.folders d).syncDir name = w.latest name := by
  have hc : Coherent users user name w := .of_reaches hheld h
  have hnone : ∀ d, ¬w.Sends d name := fun d hd => hsent d (hc.connected d hd) hd
  exact ⟨hc.calm hnone, fun _ hcon harrived => hc.settled hnone hcon harrived⟩

end Steps

section Decide

variable (users : Server.Users) (user : Fin maxUsers) (w : Fleet) (d : Fin maxDevices)
variable (name : Bytes)

instance : Decidable (Connected users user d) :=
  inferInstanceAs (Decidable (_ ∧ _))

instance : Decidable (w.Sends d name) :=
  inferInstanceAs (Decidable ((∃ e ∈ (w.folders d).pending, e.origin = .user ∧ e.name = name) ∨
    (∃ c ∈ w.upstream d, c.name = name) ∨ ∃ c ∈ w.telling d, c.name = name))

instance : Decidable (w.Awaits d name) :=
  inferInstanceAs (Decidable ((∃ c ∈ (w.folders d).applying, c.name = name) ∨
    ∃ c ∈ w.downstream d, c.name = name))

instance (l : FleetStep) : Decidable (Tidy users user w l) :=
  match l with
  | .change d mask name content =>
      have : Decidable (Announces mask name content) := inferInstanceAs (Decidable (_ = _))
      inferInstanceAs (Decidable (Connected users user d ∧ Announces mask name content ∧
        (∀ k, k ≠ d → ¬w.Sends k name) ∧ ¬w.Awaits d name))
  | .handle d =>
      inferInstanceAs (Decidable (∀ batch ∈ (w.folders d).batch, ∀ e ∈ batch.head?,
        (w.folders d).instructionSourceIsServer = true ↔ e.origin = .server))
  | .read _ _ | .finish _ | .serve _ | .tell _ | .receive _ | .apply _ =>
      inferInstanceAs (Decidable True)

end Decide

/-! ## Coming to rest -/

/-- How many steps a command in the folder of another device takes at most: it is received and
applied, and its event is read, handled and the last of its batch. -/
def appliedSteps : Nat :=
  5

/-- What a command takes from where it is sent: it is served, told, and applied everywhere. -/
def commandSteps : Nat :=
  2 + appliedSteps * maxDevices

/-- What an event takes from the queue on; only the user's are sent. -/
def Event.steps (e : Event) : Nat :=
  match e.origin with
  | .user => 3 + commandSteps
  | .server => 3

/-- The steps that are still to come for what the threads of a device are at. -/
def Folder.stepsAhead (s : Folder) : Nat :=
  (s.queue.map Event.steps).sum +
    (s.batch.map fun events => 1 + (events.map fun e => e.steps - 2).sum).getD 0 +
      4 * s.applying.toList.length

namespace Fleet

def stepsAt (w : Fleet) (d : Fin maxDevices) : Nat :=
  (w.folders d).stepsAhead + commandSteps * (w.upstream d).length +
    (1 + appliedSteps * maxDevices) * (w.telling d).toList.length +
      appliedSteps * (w.downstream d).length

/-- The steps that are still to come, unless the user changes a file. -/
def stepsAhead (w : Fleet) : Nat :=
  ∑ d, w.stepsAt d

/-- No thread is at anything. -/
def AtRest (w : Fleet) : Prop :=
  ∀ d, (w.folders d).queue = [] ∧ (w.folders d).batch = none ∧ (w.folders d).applying = none ∧
    w.upstream d = [] ∧ w.telling d = none ∧ w.downstream d = []

end Fleet

/-- The user changes a file. -/
def FleetStep.isChange : FleetStep → Bool
  | .change _ _ _ _ => true
  | _ => false

/-- What a step brings: a change counts with all that follows from it. -/
def FleetStep.brings (l : FleetStep) : Nat :=
  if l.isChange then 4 + commandSteps else 0

section Rest

variable {users : Server.Users} {user : Fin maxUsers} {w w' : Fleet} {d : Fin maxDevices}
variable {l : FleetStep} {e : Event} {s : Folder}

theorem Event.three_le_steps : 3 ≤ e.steps := by
  unfold Event.steps
  split <;> omega

theorem sum_steps (events : List Event) :
    (events.map Event.steps).sum =
      (events.map fun e => e.steps - 2).sum + 2 * events.length := by
  induction events with
  | nil =>
      rfl
  | cons e events ih =>
      have he : 3 ≤ e.steps := Event.three_le_steps
      simp only [List.map_cons, List.sum_cons, List.length_cons, ih]
      omega

/-- A step at one device. -/
theorem stepsAhead_of_local {a b : Nat} (hothers : ∀ k, k ≠ d → w'.stepsAt k = w.stepsAt k)
    (hd : w'.stepsAt d + a ≤ w.stepsAt d + b) : w'.stepsAhead + a ≤ w.stepsAhead + b := by
  have hsplit : ∀ w : Fleet, w.stepsAhead =
      w.stepsAt d + ∑ k ∈ Finset.univ.erase d, w.stepsAt k := fun w =>
    (Finset.add_sum_erase _ _ (Finset.mem_univ d)).symm
  have hrest : ∑ k ∈ Finset.univ.erase d, w'.stepsAt k = ∑ k ∈ Finset.univ.erase d, w.stepsAt k :=
    Finset.sum_congr rfl fun k hk => hothers k (Finset.ne_of_mem_erase hk)
  rw [hsplit w, hsplit w', hrest]
  omega

/-- A step that only moves on within the folder. -/
theorem stepsAhead_setFolder {a b : Nat}
    (hs : s.stepsAhead + a ≤ (w.folders d).stepsAhead + b) :
    (w.setFolder d s).stepsAhead + a ≤ w.stepsAhead + b := by
  refine stepsAhead_of_local (d := d) (fun k hk => ?_) ?_
  · simp [Fleet.stepsAt, Fleet.setFolder_of_ne hk]
  · simp only [Fleet.stepsAt, Fleet.setFolder_self, Fleet.setFolder_upstream,
      Fleet.setFolder_telling, Fleet.setFolder_downstream]
    omega

/-- A batch that is read: each event has one step less ahead, and the batch one more. -/
theorem Folder.stepsAhead_read {n : Nat} (hbatch : s.batch = none) (hpos : 0 < n)
    (hle : n ≤ s.queue.length) :
    ({ s with batch := some (s.queue.take n), queue := s.queue.drop n } : Folder).stepsAhead + 1 ≤
      s.stepsAhead := by
  have hqueue : (s.queue.map Event.steps).sum =
      ((s.queue.take n).map Event.steps).sum + ((s.queue.drop n).map Event.steps).sum := by
    rw [← List.sum_append, ← List.map_append, List.take_append_drop]
  have htaken := sum_steps (s.queue.take n)
  have hlength : (s.queue.take n).length = n := List.length_take_of_le hle
  simp only [Folder.stepsAhead, hbatch, hqueue, htaken, hlength, Option.map_some, Option.map_none,
    Option.getD_some, Option.getD_none]
  omega

/-- The event that a command causes is not sent again. -/
theorem Folder.stepsAhead_apply {c : Command} (happlying : s.applying = some c) :
    (s.apply c).stepsAhead + 1 ≤ s.stepsAhead := by
  have hevents : ∀ events : List Event,
      (events = [] ∨ ∃ mask name, events = [⟨mask, name, .server⟩]) →
        (events.map Event.steps).sum ≤ 3 := by
    rintro events (rfl | ⟨mask, name, rfl⟩)
    · simp
    · simp [Event.steps]
  have hcaused : ∃ events : List Event, (events.map Event.steps).sum ≤ 3 ∧
      (s.apply c).queue = s.queue ++ events := by
    cases c with
    | upload name payload =>
        exact ⟨_, hevents _ (Or.inr ⟨_, _, rfl⟩), rfl⟩
    | delete name =>
        refine ⟨_, hevents _ ?_, rfl⟩
        dsimp only
        split
        · exact Or.inr ⟨_, _, rfl⟩
        · exact Or.inl rfl
  rcases hcaused with ⟨events, hsteps, hqueue⟩
  have hrest : (s.apply c).batch = s.batch ∧ (s.apply c).applying = none := ⟨rfl, rfl⟩
  simp only [Folder.stepsAhead, hqueue, hrest.1, hrest.2, happlying, List.map_append,
    List.sum_append, Option.toList_some, Option.toList_none, List.length_cons, List.length_nil]
  omega

/-- An event that is handled takes its own steps, and hands the others to what is sent for it. -/
theorem Event.sent_steps {flag : Bool} {dir : Bytes → Option Bytes}
    (h : flag = true ↔ e.origin = .server) :
    commandSteps * (if flag then none else e.command dir).toList.length + 3 ≤ e.steps := by
  have hsent : ∀ sent : Option Command, sent.toList.length ≤ 1 := by
    rintro (_ | c) <;> simp
  cases flag with
  | true =>
      simpa using Event.three_le_steps
  | false =>
      have huser : e.origin = .user := by
        cases horigin : e.origin with
        | user =>
            rfl
        | server =>
            exact absurd (h.2 horigin) (by simp)
      have hone := Nat.mul_le_mul_left commandSteps (hsent (e.command dir))
      simp only [Event.steps, huser, Bool.false_eq_true, if_false]
      omega

/-- The steps of a command that is told are handed to the devices. -/
theorem stepsAhead_tell {c : Command} (htelling : w.telling d = some c)
    (hw' : w' =
      { w with
        telling := Function.update w.telling d none
        downstream := fun k =>
          if Told users user d k then w.downstream k ++ [c] else w.downstream k }) :
    w'.stepsAhead + 1 ≤ w.stepsAhead := by
  have hdown : ∀ k, (w'.downstream k).length ≤ (w.downstream k).length + 1 := by
    intro k
    subst hw'
    dsimp only
    split
    · simp
    · omega
  have heach : ∀ k, w'.stepsAt k + (if k = d then 1 + appliedSteps * maxDevices else 0) ≤
      w.stepsAt k + appliedSteps := by
    intro k
    have htold := Nat.mul_le_mul_left appliedSteps (hdown k)
    rw [Nat.mul_add, Nat.mul_one] at htold
    have hrest : w'.folders k = w.folders k ∧ w'.upstream k = w.upstream k := by
      subst hw'
      exact ⟨rfl, rfl⟩
    simp only [Fleet.stepsAt, hrest.1, hrest.2]
    by_cases hk : k = d
    · subst hk
      have htold' : w'.telling k = none := by
        subst hw'
        simp
      simp only [htold', htelling, if_true, Option.toList_none, Option.toList_some,
        List.length_nil, List.length_cons]
      omega
    · have hkeep : w'.telling k = w.telling k := by
        subst hw'
        simp [hk]
      simp only [hkeep, hk, if_false]
      omega
  have hsum := Finset.sum_le_sum fun k (_ : k ∈ (Finset.univ : Finset (Fin maxDevices))) => heach k
  simp only [Finset.sum_add_distrib, Finset.sum_ite_eq', Finset.mem_univ, if_true,
    Finset.sum_const, Finset.card_univ, Fintype.card_fin, smul_eq_mul] at hsum
  unfold Fleet.stepsAhead
  rw [Nat.mul_comm maxDevices] at hsum
  omega

/-- Every step of a tidy run leaves fewer steps ahead, but for what it brings. -/
theorem stepsAhead_step (hok : Tidy users user w l) (h : w.step users user l = some w') :
    w'.stepsAhead + 1 ≤ w.stepsAhead + l.brings := by
  cases l with
  | change d mask name content =>
      cases h
      have hfolder : ((w.folders d).change mask name content).stepsAhead =
          (w.folders d).stepsAhead + (3 + commandSteps) := by
        simp only [Folder.stepsAhead, Folder.change, Event.steps, List.map_append, List.sum_append,
          List.map_cons, List.map_nil, List.sum_cons, List.sum_nil]
        omega
      refine stepsAhead_setFolder (w := w) ?_
      simp only [hfolder, FleetStep.brings, FleetStep.isChange, if_true]
      omega
  | read d n =>
      simp only [Fleet.step] at h
      split at h
      · next hbatch =>
          split at h
          · next hn =>
              cases h
              exact stepsAhead_setFolder (Folder.stepsAhead_read hbatch hn.1 hn.2)
          · cases h
      · cases h
  | handle d =>
      simp only [Fleet.step] at h
      split at h
      · next e events hbatch =>
          cases h
          have hsent : commandSteps * (if (w.folders d).instructionSourceIsServer then none
              else e.command (w.folders d).syncDir).toList.length + 3 ≤ e.steps :=
            Event.sent_steps (hok (e :: events) hbatch e rfl)
          refine stepsAhead_of_local (d := d) (fun k hk => ?_) ?_
          · simp [Fleet.stepsAt, Fleet.setFolder_of_ne hk, hk]
          · simp only [Fleet.stepsAt, Folder.stepsAhead, Fleet.setFolder_self, hbatch,
              Function.update_self, List.length_append, Nat.mul_add, Option.map_some,
              Option.getD_some, List.map_cons, List.sum_cons, Fleet.setFolder_telling,
              Fleet.setFolder_downstream, FleetStep.brings, FleetStep.isChange]
            simp only [Bool.false_eq_true, if_false]
            omega
      · cases h
  | finish d =>
      simp only [Fleet.step] at h
      split at h
      · next hbatch =>
          cases h
          refine stepsAhead_setFolder ?_
          simp only [Folder.stepsAhead, hbatch, Option.map_some, Option.map_none,
            Option.getD_some, Option.getD_none, List.map_nil, List.sum_nil]
          omega
      · cases h
  | serve d =>
      simp only [Fleet.step] at h
      split at h
      · next c rest hup htelling =>
          cases h
          refine stepsAhead_of_local (d := d) (fun k hk => ?_) ?_
          · simp [Fleet.stepsAt, hk]
          · simp only [Fleet.stepsAt, hup, htelling, Function.update_self, List.length_cons,
              Option.toList_some, Option.toList_none, List.length_nil, Nat.mul_add,
              commandSteps]
            omega
      · cases h
  | tell d =>
      simp only [Fleet.step] at h
      split at h
      · next c htelling =>
          cases h
          exact stepsAhead_tell htelling rfl
      · cases h
  | receive d =>
      simp only [Fleet.step] at h
      split at h
      · next c rest hdown happlying =>
          cases h
          refine stepsAhead_of_local (d := d) (fun k hk => ?_) ?_
          · simp [Fleet.stepsAt, Fleet.setFolder_of_ne hk, hk]
          · simp only [Fleet.stepsAt, Folder.stepsAhead, Fleet.setFolder_self, hdown, happlying,
              Function.update_self, List.length_cons, Option.toList_some, Option.toList_none,
              List.length_nil, Fleet.setFolder_upstream, Fleet.setFolder_telling, appliedSteps]
            omega
      · cases h
  | apply d =>
      simp only [Fleet.step] at h
      split at h
      · next c happlying =>
          cases h
          exact stepsAhead_setFolder (Folder.stepsAhead_apply happlying)
      · cases h

/-- A tidy run takes so many steps for each change and no more. -/
theorem length_le_of_tidy {files : Bytes → Option Bytes} {ls : List FleetStep}
    (h : runWhile (Fleet.step users user) (Tidy users user) (.initial files) ls = some w) :
    ls.length ≤ (4 + commandSteps) * ls.countP FleetStep.isChange := by
  have hahead : (Fleet.initial files).stepsAhead = 0 := by
    simp [Fleet.stepsAhead, Fleet.stepsAt, Fleet.initial, Folder.stepsAhead, Folder.initial]
  have hbrings : ∀ ls : List FleetStep,
      (ls.map FleetStep.brings).sum = (4 + commandSteps) * ls.countP FleetStep.isChange := by
    intro ls
    induction ls with
    | nil =>
        rfl
    | cons l ls ih =>
        rw [List.map_cons, List.sum_cons, ih, List.countP_cons, FleetStep.brings]
        split <;> simp_all [Nat.mul_add, Nat.add_comm]
  have hsteps := run_length_le Fleet.stepsAhead FleetStep.brings
    (fun w l w' hl => by
      split at hl
      · next hok => exact stepsAhead_step hok hl
      · cases hl) h
  rw [hahead, hbrings] at hsteps
  omega

/-- Only the user can go on where no thread is at anything. -/
theorem at_rest_iff :
    (∀ l : FleetStep, l.isChange = false → w.step users user l = none) ↔ w.AtRest := by
  constructor
  · intro h d
    have hbatch : (w.folders d).batch = none := by
      cases hb : (w.folders d).batch with
      | none =>
          rfl
      | some events =>
          cases events with
          | nil =>
              simpa [Fleet.step, hb] using h (.finish d) rfl
          | cons e events =>
              simpa [Fleet.step, hb] using h (.handle d) rfl
    have hqueue : (w.folders d).queue = [] := by
      have hstep := h (.read d (w.folders d).queue.length) rfl
      simpa [Fleet.step, hbatch, List.length_pos_iff] using hstep
    have htelling : w.telling d = none := by
      cases ht : w.telling d with
      | none =>
          rfl
      | some c =>
          simpa [Fleet.step, ht] using h (.tell d) rfl
    have hup : w.upstream d = [] := by
      cases hu : w.upstream d with
      | nil =>
          rfl
      | cons c rest =>
          simpa [Fleet.step, hu, htelling] using h (.serve d) rfl
    have happlying : (w.folders d).applying = none := by
      cases ha : (w.folders d).applying with
      | none =>
          rfl
      | some c =>
          simpa [Fleet.step, ha] using h (.apply d) rfl
    have hdown : w.downstream d = [] := by
      cases hd : w.downstream d with
      | nil =>
          rfl
      | cons c rest =>
          simpa [Fleet.step, hd, happlying] using h (.receive d) rfl
    exact ⟨hqueue, hbatch, happlying, hup, htelling, hdown⟩
  · intro h l hl
    cases l with
    | change =>
        cases hl
    | read d n =>
        rcases h d with ⟨hqueue, hbatch, _⟩
        simp only [Fleet.step, hbatch, hqueue, List.length_nil, ite_eq_right_iff]
        omega
    | handle d | finish d =>
        simp [Fleet.step, (h d).2.1]
    | apply d =>
        simp [Fleet.step, (h d).2.2.1]
    | serve d =>
        simp [Fleet.step, (h d).2.2.2.1]
    | tell d =>
        simp [Fleet.step, (h d).2.2.2.2.1]
    | receive d =>
        simp [Fleet.step, (h d).2.2.2.2.2]

theorem Fleet.AtRest.nothing (h : w.AtRest) (d : Fin maxDevices) (name : Bytes) :
    ¬w.Sends d name ∧ ¬w.Awaits d name := by
  rcases h d with ⟨hqueue, hbatch, happlying, hup, htelling, hdown⟩
  constructor
  · simp [Fleet.Sends, Folder.pending, hbatch, hqueue, hup, htelling]
  · simp [Fleet.Awaits, hdown, happlying]

/-- A tidy run comes to rest: it takes so many steps for each change and no more, and once only the
user can go on, the server and the folders of all devices hold what the last changes have made of
every file. -/
theorem changes_settle {opened : Set Int32} (hheld : Server.Held users opened)
    {files : Bytes → Option Bytes} {ls : List FleetStep}
    (h : runWhile (Fleet.step users user) (Tidy users user) (.initial files) ls = some w) :
    ls.length ≤ (4 + commandSteps) * ls.countP FleetStep.isChange ∧
      ((∀ l : FleetStep, l.isChange = false → w.step users user l = none) →
        w.files = w.latest ∧
          ∀ d, Connected users user d → (w.folders d).syncDir = w.latest) := by
  refine ⟨length_le_of_tidy h, fun hstuck => ?_⟩
  have hrest : w.AtRest := at_rest_iff.1 hstuck
  have hc : ∀ name, Coherent users user name w := fun _ => .of_reaches hheld (.of_runWhile h)
  have hnone : ∀ name d, ¬w.Sends d name := fun name d => (hrest.nothing d name).1
  exact ⟨funext fun name => (hc name).calm (hnone name),
    fun d hcon => funext fun name => (hc name).settled (hnone name) hcon (hrest.nothing d name).2⟩

end Rest

/-- The table after one more connection of user `a`. -/
def joined (users : Server.Users) (device : Int32) (socketType : UInt64) (socket : Int32) :
    Server.Users :=
  ((Server.handleUserControllerStructure users Server.initiateBackupServerStructure
    (Server.oneLetterRequest 97 device socketType) socket).map Server.Handled.users).getD users

theorem held_joined {users : Server.Users} {opened : Set Int32} {device socket : Int32}
    {socketType : UInt64} (h : Server.Held users opened)
    (hvalid : Server.ValidRequest (Server.oneLetterRequest 97 device socketType))
    (hsocket : 0 ≤ socket) (hnew : socket ∉ opened)
    (hdefined : (Server.handleUserControllerStructure users Server.initiateBackupServerStructure
      (Server.oneLetterRequest 97 device socketType) socket).isSome) :
    Server.Held (joined users device socketType socket) (insert socket opened) := by
  rcases Option.isSome_iff_exists.1 hdefined with ⟨handled, hhandled⟩
  have hjoined : joined users device socketType socket = handled.users := by
    simp [joined, hhandled]
  rw [hjoined]
  exact .connect _ _ _ handled h hvalid hsocket hnew hhandled

/-- Device `1` of user `a` with its inotify and communication connections. -/
def oneConnected : Server.Users :=
  joined (joined Server.initiateUserControllerStructure 1 socketT2 4) 1 socketT3 5

/-- The same with device `2`. -/
def bothConnected : Server.Users :=
  joined (joined oneConnected 2 socketT2 6) 2 socketT3 7

theorem held_oneConnected : Server.Held oneConnected (insert 5 (insert 4 ∅)) :=
  held_joined
    (held_joined (.initial ∅) ⟨by decide, by decide, by decide⟩ (by decide) (by simp)
      (by decide +kernel))
    ⟨by decide, by decide, by decide⟩ (by decide) (by simp) (by decide +kernel)

theorem held_bothConnected :
    Server.Held bothConnected (insert 7 (insert 6 (insert 5 (insert 4 ∅)))) :=
  held_joined
    (held_joined held_oneConnected ⟨by decide, by decide, by decide⟩ (by decide) (by simp)
      (by decide +kernel))
    ⟨by decide, by decide, by decide⟩ (by decide) (by simp) (by decide +kernel)

/-- A change in the folder of `d` on its way to the folder of `k`. -/
def propagation (d k : Fin maxDevices) : List FleetStep :=
  [.read d 1, .handle d, .finish d, .serve d, .tell d, .receive k, .apply k, .read k 1, .handle k,
    .finish k]

theorem maxUsers_pos : 0 < maxUsers := by
  decide

theorem maxDevices_pos : 0 < maxDevices := by
  decide

theorem one_lt_maxDevices : 1 < maxDevices := by
  decide

/-- The slot of user `a`. -/
def userSlot : Fin maxUsers :=
  ⟨0, maxUsers_pos⟩

/-- The slots of the devices `1` and `2`. -/
def firstSlot : Fin maxDevices :=
  ⟨0, maxDevices_pos⟩

def secondSlot : Fin maxDevices :=
  ⟨1, one_lt_maxDevices⟩

/-- The first device makes a file, and then the second one removes it; the first one is still to be
told. -/
def removed : Fleet :=
  (runWhile (Fleet.step bothConnected userSlot) (Tidy bothConnected userSlot)
    (.initial fun _ => none)
    (.change firstSlot .closeWrite [102] (some [1, 2]) :: propagation firstSlot secondSlot ++
      .change secondSlot .delete [102] none ::
        (propagation secondSlot firstSlot).take 5)).get (by decide +kernel)

theorem no_change_lost_removed :
    removed.files [102] = removed.latest [102] ∧
      (removed.folders secondSlot).syncDir [102] = removed.latest [102] := by
  have hreached : Reaches (Fleet.step bothConnected userSlot) (Tidy bothConnected userSlot)
      (.initial fun _ => none) removed :=
    Reaches.of_runWhile (Option.some_get _).symm
  have hsent : ∀ d, Connected bothConnected userSlot d → ¬removed.Sends d [102] := by
    decide +kernel
  have hcon : Connected bothConnected userSlot secondSlot := by decide +kernel
  have harrived : ¬removed.Awaits secondSlot [102] := by decide +kernel
  rcases no_change_lost held_bothConnected hreached hsent with ⟨hserver, hfolders⟩
  exact ⟨hserver, hfolders secondSlot hcon harrived⟩

instance (w : Fleet) : Decidable w.AtRest :=
  inferInstanceAs (Decidable (∀ d, (w.folders d).queue = [] ∧ (w.folders d).batch = none ∧
    (w.folders d).applying = none ∧ w.upstream d = [] ∧ w.telling d = none ∧
      w.downstream d = []))

/-- The same, with the first device told. -/
def settled : Fleet :=
  (runWhile (Fleet.step bothConnected userSlot) (Tidy bothConnected userSlot)
    (.initial fun _ => none)
    (.change firstSlot .closeWrite [102] (some [1, 2]) :: propagation firstSlot secondSlot ++
      .change secondSlot .delete [102] none ::
        propagation secondSlot firstSlot)).get (by decide +kernel)

theorem changes_settle_settled :
    settled.files = settled.latest ∧ (settled.folders firstSlot).syncDir = settled.latest := by
  have hrest : settled.AtRest := by decide +kernel
  have hstuck : ∀ l : FleetStep, l.isChange = false →
      settled.step bothConnected userSlot l = none :=
    at_rest_iff.2 hrest
  have hcon : Connected bothConnected userSlot firstSlot := by decide +kernel
  rcases (changes_settle held_bothConnected (Option.some_get _).symm).2 hstuck with
    ⟨hserver, hfolders⟩
  exact ⟨hserver, hfolders firstSlot hcon⟩

/-- Two devices change one file at the same time: each folder ends with the other's change. -/
theorem conflicting_changes :
    ∃ w, run (Fleet.step bothConnected userSlot) (.initial fun _ => none)
        ([.change firstSlot .closeWrite [102] (some [1]),
            .change secondSlot .closeWrite [102] (some [2])] ++
          (propagation firstSlot secondSlot).take 5 ++ propagation secondSlot firstSlot ++
          (propagation firstSlot secondSlot).drop 5) = some w ∧
      (∀ d, ¬w.Sends d [102] ∧ ¬w.Awaits d [102]) ∧
        (w.folders firstSlot).syncDir [102] = some [2] ∧
          (w.folders secondSlot).syncDir [102] = some [1] := by
  have hrun : (run (Fleet.step bothConnected userSlot) (.initial fun _ => none)
      ([.change firstSlot .closeWrite [102] (some [1]),
          .change secondSlot .closeWrite [102] (some [2])] ++
        (propagation firstSlot secondSlot).take 5 ++ propagation secondSlot firstSlot ++
        (propagation firstSlot secondSlot).drop 5)).any (fun w =>
          (∀ d, ¬w.Sends d [102] ∧ ¬w.Awaits d [102]) ∧
            (w.folders firstSlot).syncDir [102] = some [2] ∧
              (w.folders secondSlot).syncDir [102] = some [1]) = true := by
    decide +kernel
  rcases (Option.any_eq_true _ _).1 hrun with ⟨w, hw, hends⟩
  exact ⟨w, hw, of_decide_eq_true hends⟩

end Box
end DropboxSimulator
