import DropboxSimulator.Library.Semaphore
import DropboxSimulator.Server.Admission
import DropboxSimulator.Server.ReplicationWire

/-!
# Threads — the threads of a primary, step by step

The functions of `Server.cpp` as programs over the shared tables, the connections and the two
semaphores: `mediatorThread` with `handle_user_controller_structure`, `handle_one_secondary_server`,
and the command threads with `uploadFileCommand`, `deleteFileCommand` and `exitCommand`.

A thread takes one step for each read or change of the tables, each `write`, and each `sem_wait`
or `sem_post`.  What a command thread reads from its own connection comes in as an input; the
reading itself is the subject of the command loop.  The writes of a payload are single steps, so
threads can interleave inside a message.

A secondary server stands at the other end of its connection with the loop of
`second_server_processing`, and reads whenever it likes.
-/

namespace DropboxSimulator
namespace Server

open Library

/-! ## Connections -/

/-- The other end of a connection: the record it sends first, and what has been written to it.
The last fields matter for a secondary server: what its loop has still to read, where the loop
stands, the messages it has decoded, and the messages whose first bytes have been written to it. -/
structure Peer where
  isOpen : Bool
  record : Connection
  stream : List Bytes
  unread : Bytes
  fileSizeBuffer : CharArray 8
  reader : SecondaryState
  received : List WireMessage
  sent : List WireMessage

/-- A connection just accepted. -/
def Peer.accepted (record : Connection) (fileSizeBuffer : CharArray 8) : Peer where
  isOpen := true
  record := record
  stream := []
  unread := []
  fileSizeBuffer := fileSizeBuffer
  reader := .waitAck
  received := []
  sent := []

/-- What the threads share, apart from the semaphores. -/
structure Shared where
  users : Users
  backupServers : BackupServers
  peers : Int32 → Option Peer

namespace Shared

def initial : Shared where
  users := initiateUserControllerStructure
  backupServers := initiateBackupServerStructure
  peers := fun _ => none

def setPeer (sh : Shared) (fd : Int32) (peer : Peer) : Shared :=
  { sh with peers := Function.update sh.peers fd (some peer) }

/-- A complete `write`; it fails and changes nothing on a descriptor that is not open. -/
def write (sh : Shared) (fd : Int32) (bs : Bytes) : Shared :=
  match sh.peers fd with
  | none => sh
  | some peer =>
      if peer.isOpen then
        sh.setPeer fd { peer with stream := peer.stream ++ [bs], unread := peer.unread ++ bs }
      else
        sh

def close (sh : Shared) (fd : Int32) : Shared :=
  match sh.peers fd with
  | none => sh
  | some peer => sh.setPeer fd { peer with isOpen := false }

/-- The first bytes of a message are going to be written. -/
def begin (sh : Shared) (fd : Int32) (m : WireMessage) : Shared :=
  match sh.peers fd with
  | none => sh
  | some peer => sh.setPeer fd { peer with sent := peer.sent ++ [m] }

section Frame

variable {sh : Shared} {fd fd' : Int32} {bs : Bytes} {peer : Peer} {m : WireMessage}

@[simp] theorem setPeer_users : (sh.setPeer fd peer).users = sh.users :=
  rfl

@[simp] theorem setPeer_backupServers : (sh.setPeer fd peer).backupServers = sh.backupServers :=
  rfl

@[simp] theorem setPeer_peers_self : (sh.setPeer fd peer).peers fd = some peer := by
  simp [Shared.setPeer]

theorem setPeer_peers_of_ne (h : fd' ≠ fd) : (sh.setPeer fd peer).peers fd' = sh.peers fd' := by
  simp [Shared.setPeer, h]

theorem write_of_open (hpeer : sh.peers fd = some peer) (hopen : peer.isOpen = true) :
    sh.write fd bs =
      sh.setPeer fd { peer with stream := peer.stream ++ [bs], unread := peer.unread ++ bs } := by
  simp [Shared.write, hpeer, hopen]

@[simp] theorem write_users : (sh.write fd bs).users = sh.users := by
  unfold Shared.write
  split
  · rfl
  · split <;> rfl

@[simp] theorem write_backupServers : (sh.write fd bs).backupServers = sh.backupServers := by
  unfold Shared.write
  split
  · rfl
  · split <;> rfl

theorem write_peers_of_ne (h : fd' ≠ fd) : (sh.write fd bs).peers fd' = sh.peers fd' := by
  unfold Shared.write
  split
  · rfl
  · split
    · exact setPeer_peers_of_ne h
    · rfl

@[simp] theorem begin_users : (sh.begin fd m).users = sh.users := by
  unfold Shared.begin
  split <;> rfl

@[simp] theorem begin_backupServers : (sh.begin fd m).backupServers = sh.backupServers := by
  unfold Shared.begin
  split <;> rfl

theorem begin_peers_of_ne (h : fd' ≠ fd) : (sh.begin fd m).peers fd' = sh.peers fd' := by
  unfold Shared.begin
  split
  · rfl
  · exact setPeer_peers_of_ne h

/-- The first write of a message to an open connection. -/
theorem begin_write_peers (hpeer : sh.peers fd = some peer) (hopen : peer.isOpen = true) :
    ((sh.begin fd m).write fd bs).peers fd = some
      { peer with
        stream := peer.stream ++ [bs]
        unread := peer.unread ++ bs
        sent := peer.sent ++ [m] } := by
  have hbegin : sh.begin fd m = sh.setPeer fd { peer with sent := peer.sent ++ [m] } := by
    simp [Shared.begin, hpeer]
  have hopen' : ({ peer with sent := peer.sent ++ [m] } : Peer).isOpen = true := hopen
  rw [hbegin, write_of_open setPeer_peers_self hopen', setPeer_peers_self]

@[simp] theorem close_users : (sh.close fd).users = sh.users := by
  unfold Shared.close
  split <;> rfl

@[simp] theorem close_backupServers : (sh.close fd).backupServers = sh.backupServers := by
  unfold Shared.close
  split <;> rfl

theorem close_peers_of_ne (h : fd' ≠ fd) : (sh.close fd).peers fd' = sh.peers fd' := by
  unfold Shared.close
  split
  · rfl
  · exact setPeer_peers_of_ne h

@[simp] theorem closeAll_users (fds : List Int32) :
    (fds.foldl Shared.close sh).users = sh.users := by
  induction fds generalizing sh with
  | nil =>
      rfl
  | cons fd rest ih =>
      rw [List.foldl_cons, ih, close_users]

@[simp] theorem closeAll_backupServers (fds : List Int32) :
    (fds.foldl Shared.close sh).backupServers = sh.backupServers := by
  induction fds generalizing sh with
  | nil =>
      rfl
  | cons fd rest ih =>
      rw [List.foldl_cons, ih, close_backupServers]

end Frame

end Shared

/-! ## Commands -/

/-- A command that changes a file, with what its function reads. -/
inductive FileCommand
  | upload (fileName payload : Bytes)
  | delete (command : CommandPacket)
  deriving DecidableEq

/-- A command as a command thread has decoded it; `other` changes nothing the threads share. -/
inductive Command
  | file (c : FileCommand)
  | exit
  | other

/-- `DATABASE_DIR`: `"./database"`. -/
def databaseDir : Bytes :=
  [46, 47, 100, 97, 116, 97, 98, 97, 115, 101]

/-- The character `'/'`. -/
def slash : UInt8 :=
  47

/-- The path of a file of a user. -/
def completePath (userName fileName : Bytes) : Bytes :=
  databaseDir ++ slash :: (userName ++ slash :: fileName)

namespace FileCommand

/-- What the reading of a command can yield: a C string and a size that fits an `int`, or a packet
with the command of a deletion. -/
def Readable : FileCommand → Prop
  | .upload fileName payload => (∀ b ∈ fileName, b ≠ 0) ∧ payload.length < 2 ^ 31
  | .delete command => command.command = cmdDelete

instance : DecidablePred Readable := fun c =>
  match c with
  | .upload fileName payload =>
      inferInstanceAs (Decidable ((∀ b ∈ fileName, b ≠ 0) ∧ payload.length < 2 ^ 31))
  | .delete command => inferInstanceAs (Decidable (command.command = cmdDelete))

/-- The acks after the one for the command packet. -/
def acks : FileCommand → Nat
  | .upload _ _ => 4
  | .delete _ => 0

/-- What the secondaries are told. -/
def message (c : FileCommand) (userName : Bytes) : WireMessage :=
  match c with
  | .upload fileName payload => .upload (completePath userName fileName) payload
  | .delete command => .delete (completePath userName command.additionalInfo.string)

/-- The writes that tell another device of the user; `none` where `strcpy` overflows.  A deletion
is told with the packet the client sent. -/
def notification (stale : CommandPacket) : FileCommand → Option (List Bytes)
  | .upload fileName payload =>
      (stale.additionalInfo.strcpy fileName).map fun info =>
        sendUpload (fillPacket stale cmdUpload info) payload
  | .delete command => some (sendPacket command)

end FileCommand

/-! ## Threads -/

inductive Mutex
  | user
  | server
  deriving DecidableEq

/-- Why a program does not go on. -/
inductive Fault
  | nullPointer
  | undefinedResult
  | overflow
  deriving DecidableEq

/-- The three places that send a message to every secondary. -/
inductive Site
  | admission (con : Connection) (socket : Int32)
  | exit
  | file (arg : UserCurrentSocket)
  deriving DecidableEq

/-- Where a thread stands, with its local variables.  `refused` is a thread that
`handle_user_controller_structure` has ended, `ended` any other thread that has ended. -/
inductive Pc
  | mediator (socket : Int32)
  | serverWait (id socket : Int32)
  | serverInsert (id socket : Int32)
  | serverPost (socket : Int32)
  | serverCreate (socket : Int32)
  | secondaryAck (socket : Int32)
  | userWait (con : Connection) (socket : Int32)
  | handle (con : Connection) (socket : Int32)
  | refuse (socket : Int32) (reply : Reply)
  | refused
  | admitAck (con : Connection) (socket : Int32)
  | message (site : Site) (m : WireMessage) (slots : List (Fin maxServers)) (fd : Int32)
      (writes : List Bytes)
  | replicate (site : Site) (m : WireMessage) (slots : List (Fin maxServers)) (fd : Int32)
      (pending : List Bytes)
  | userPost (con : Connection) (socket : Int32)
  | userCreate (con : Connection) (socket : Int32)
  | command (arg : UserCurrentSocket)
  | receive (arg : UserCurrentSocket) (c : FileCommand) (acks : Nat)
  | notifyWait (arg : UserCurrentSocket) (c : FileCommand)
  | notifyLookup (arg : UserCurrentSocket) (c : FileCommand)
  | notify (arg : UserCurrentSocket) (c : FileCommand) (user : Fin maxUsers)
      (devices : List (Fin maxDevices)) (fd : Int32) (pending : List Bytes)
  | notifyPost (arg : UserCurrentSocket) (c : FileCommand)
  | replicateWait (arg : UserCurrentSocket) (c : FileCommand)
  | replicatePost (arg : UserCurrentSocket)
  | exitWait (arg : UserCurrentSocket)
  | exitRemove (arg : UserCurrentSocket)
  | exitPost
  | ended
  | crashed (fault : Fault) (held : Option Mutex)
  deriving DecidableEq

/-- What a step takes from outside: a command that was read, the end of the connection, or the
bytes of memory that a sender writes as they are. -/
inductive Input
  | go
  | command (c : Command)
  | hangup
  | stack (stale : CommandPacket)
  | memory (record : CharArray userCurrentSocketSize)

/-- The bytes of an answer. -/
def Reply.bytes : Reply → Bytes
  | .ack => ackBytes
  | .nack1 => [110, 97, 99, 107, 49]
  | .nack2 => [110, 97, 99, 107, 50]
  | .nack3 => [110, 97, 99, 107, 51]
  | .nack5 => [110, 97, 99, 107, 53]

/-- The slots of `backupServers` in the order of the loops over them. -/
abbrev allServers : List (Fin maxServers) :=
  List.finRange maxServers

/-- Where a loop over `backupServers` leads. -/
def Site.after : Site → Pc
  | .admission con socket => .userPost con socket
  | .exit => .exitPost
  | .file arg => .replicatePost arg

/-- The semaphore a sending site holds. -/
def Site.mutex : Site → Mutex
  | .admission _ _ => .user
  | .exit => .user
  | .file _ => .server

/-- `mediatorThread` reads the connection record. -/
def mediate (socket : Int32) (sh : Shared) : Input → Option (Effect Shared Pc)
  | .hangup => some { data := sh, next := .ended, spawned := [] }
  | _ =>
      (sh.peers socket).map fun peer =>
        { data := sh
          -- every other packet type goes the way of a client
          next := if peer.record.packetType = packetServerConn then
              .serverWait peer.record.device socket
            else
              .userWait peer.record socket
          spawned := [] }

/-- The table part of `handle_user_controller_structure`. -/
def handleRequest (con : Connection) (socket : Int32) (sh : Shared) : Effect Shared Pc :=
  match handleUserControllerStructure sh.users sh.backupServers con socket with
  | none => { data := sh, next := .crashed .undefinedResult (some .user), spawned := [] }
  | some handled =>
      { data := { sh with users := handled.users }
        next := match handled.reply with
          | some .ack => .admitAck con socket
          | some reply => .refuse socket reply
          | none => .userPost con socket
        spawned := [] }

/-- One round of a loop over `backupServers`: prepare the message for the slot `i`. -/
def visit (site : Site) (m : WireMessage) (i : Fin maxServers) (rest : List (Fin maxServers))
    (sh : Shared) : Input → Option (Effect Shared Pc)
  | .stack stale =>
      if (sh.backupServers i).id ≠ -1 then
        match writesOf stale m with
        | none => some { data := sh, next := .crashed .overflow (some site.mutex), spawned := [] }
        | some writes =>
            some
              { data := sh
                next := .message site m rest (sh.backupServers i).socket writes
                spawned := [] }
      else
        some { data := sh, next := .replicate site m rest (-1) [], spawned := [] }
  | _ => none

/-- `createUserDirectory` and the start of the command thread.  The path is built in an array of
50 characters. -/
def createThread (con : Connection) (socket : Int32) (sh : Shared) : Effect Shared Pc :=
  -- one of the 50 characters is the final zero that `strcat` writes
  if databaseDir.length + 1 + con.user.length < 50 then
    { data := sh
      next := .ended
      spawned :=
        -- a `T3` connection gets no thread, it only has to be there
        if con.packetType = packetConn ∧
            (con.socketType = socketT1 ∨ con.socketType = socketT2) then
          [.command { userName := con.user, currentDevice := con.device, currentSocket := socket }]
        else
          [] }
  else
    { data := sh, next := .crashed .overflow none, spawned := [] }

section Creation

variable (con : Connection) (socket : Int32) (sh : Shared)

@[simp] theorem createThread_data : (createThread con socket sh).data = sh := by
  unfold createThread
  split <;> rfl

/-- The mediator has done its work, unless the path does not fit. -/
theorem createThread_next :
    (createThread con socket sh).next = .ended ∨
      (createThread con socket sh).next = .crashed .overflow none := by
  unfold createThread
  split
  · exact Or.inl rfl
  · exact Or.inr rfl

theorem createThread_spawned :
    ∀ t ∈ (createThread con socket sh).spawned,
      t = .command
        { userName := con.user, currentDevice := con.device, currentSocket := socket } := by
  intro t ht
  unfold createThread at ht
  split at ht
  · dsimp only at ht
    split at ht
    · exact List.mem_singleton.1 ht
    · cases ht
  · cases ht

end Creation

/-- A command has been read and is acknowledged: one round of `terminalThreadFunction` or
`iNotifyThreadFunction`. -/
def takeCommand (arg : UserCurrentSocket) (sh : Shared) : Input → Option (Effect Shared Pc)
  | .command (.file c) =>
      if c.Readable then
        some
          { data := sh.write arg.currentSocket ackBytes
            next := .receive arg c c.acks
            spawned := [] }
      else
        none
  | .command .exit =>
      some { data := sh.write arg.currentSocket ackBytes, next := .exitWait arg, spawned := [] }
  | .command .other =>
      some { data := sh.write arg.currentSocket ackBytes, next := .command arg, spawned := [] }
  | .hangup => some { data := sh, next := .ended, spawned := [] }
  | _ => none

/-- The rest of an upload has been read up to one more ack; after the last one the file changes. -/
def receiveRest (arg : UserCurrentSocket) (c : FileCommand) (sh : Shared) :
    Nat → Input → Option (Effect Shared Pc)
  | 0, _ => some { data := sh, next := .notifyWait arg c, spawned := [] }
  | _ + 1, .hangup => some { data := sh, next := .ended, spawned := [] }
  | acks + 1, _ =>
      some
        { data := sh.write arg.currentSocket ackBytes
          next := .receive arg c acks
          spawned := [] }

/-- The test of a device in the loops of `uploadFileCommand` and `deleteFileCommand`. -/
def Notifies (arg : UserCurrentSocket) (dev : Device) : Prop :=
  dev.id ≠ -1 ∧ (arg.currentSocket ≠ dev.socket2 ∧ arg.currentDevice ≠ dev.id)

instance (arg : UserCurrentSocket) (dev : Device) : Decidable (Notifies arg dev) :=
  inferInstanceAs (Decidable (_ ∧ _))

/-- One round of the loop over the devices of the user: begin the notification of the device. -/
def notifyDevice (arg : UserCurrentSocket) (c : FileCommand) (user : Fin maxUsers)
    (d : Fin maxDevices) (rest : List (Fin maxDevices)) (sh : Shared) :
    Input → Option (Effect Shared Pc)
  | .stack stale =>
      let dev := sh.users.device (user, d)
      if Notifies arg dev then
        match c.notification stale with
        | none => some { data := sh, next := .crashed .overflow (some .user), spawned := [] }
        | some writes =>
            some { data := sh, next := .notify arg c user rest dev.socket3 writes, spawned := [] }
      else
        some { data := sh, next := .notify arg c user rest (-1) [], spawned := [] }
  | _ => none

/-- The table part of `exitCommand`.  The record that is sent is the memory of the session. -/
def removeSession (arg : UserCurrentSocket) (sh : Shared) : Input → Option (Effect Shared Pc)
  | .memory record =>
      match exitCommand sh.users sh.backupServers arg with
      | none =>
          some
            { data := sh
              next := .crashed
                -- `close(device_address->socket1)` comes before any test of the pointer
                (if getDevice sh.users arg.currentDevice arg.userName = .null then .nullPointer
                  else .undefinedResult)
                (some .user)
              spawned := [] }
      | some exited =>
          some
            { data := exited.closed.foldl Shared.close { sh with users := exited.users }
              -- a device that could not be removed is not announced
              next := if exited.code = .success then
                .replicate .exit (.exit record) allServers (-1) [] else .exitPost
              spawned := [] }
  | _ => none

/-- What a thread does next. -/
def program : Pc → Instr Mutex Shared Input Pc
  | .mediator socket => .act (mediate socket)
  | .serverWait id socket => .wait .server (.serverInsert id socket)
  | .serverInsert id socket =>
      .act fun sh _ =>
        some
          { data := { sh with backupServers := (insertServer sh.backupServers id socket).1 }
            next := .serverPost socket
            spawned := [] }
  | .serverPost socket => .post .server (.serverCreate socket)
  | .serverCreate socket =>
      .act fun sh _ => some { data := sh, next := .ended, spawned := [.secondaryAck socket] }
  | .secondaryAck socket =>
      .act fun sh _ => some { data := sh.write socket ackBytes, next := .ended, spawned := [] }
  | .userWait con socket => .wait .user (.handle con socket)
  | .handle con socket => .act fun sh _ => some (handleRequest con socket sh)
  | .refuse socket reply =>
      -- `pthread_exit` ends the thread here, before the `sem_post` of its caller
      .act fun sh _ => some { data := sh.write socket reply.bytes, next := .refused, spawned := [] }
  | .refused => .halt
  | .admitAck con socket =>
      .act fun sh _ =>
        some
          { data := sh.write socket ackBytes
            next := .replicate (.admission con socket) (.insertUser con) allServers (-1) []
            spawned := [] }
  | .message site m slots fd writes =>
      -- every message has a first write
      .act fun sh _ =>
        some
          { data := (sh.begin fd m).write fd (writes.headD [])
            next := .replicate site m slots fd writes.tail
            spawned := [] }
  | .replicate site m slots fd (bs :: pending) =>
      .act fun sh _ =>
        some { data := sh.write fd bs, next := .replicate site m slots fd pending, spawned := [] }
  | .replicate site m (i :: rest) _ [] => .act (visit site m i rest)
  | .replicate site _ [] _ [] =>
      .act fun sh _ => some { data := sh, next := site.after, spawned := [] }
  | .userPost con socket => .post .user (.userCreate con socket)
  | .userCreate con socket => .act fun sh _ => some (createThread con socket sh)
  | .command arg => .act (takeCommand arg)
  | .receive arg c acks => .act fun sh => receiveRest arg c sh acks
  | .notifyWait arg c => .wait .user (.notifyLookup arg c)
  | .notifyLookup arg c =>
      .act fun sh _ =>
        some
          { data := sh
            next := match getUser sh.users arg.userName with
              -- the loop takes `user_pointer->devices` without a test
              | none => .crashed .nullPointer (some .user)
              | some user => .notify arg c user (List.finRange maxDevices) (-1) []
            spawned := [] }
  | .notify arg c user devices fd (bs :: pending) =>
      .act fun sh _ =>
        some
          { data := sh.write fd bs
            next := .notify arg c user devices fd pending
            spawned := [] }
  | .notify arg c user (d :: rest) _ [] => .act (notifyDevice arg c user d rest)
  | .notify arg c _ [] _ [] =>
      .act fun sh _ => some { data := sh, next := .notifyPost arg c, spawned := [] }
  | .notifyPost arg c => .post .user (.replicateWait arg c)
  | .replicateWait arg c =>
      .wait .server (.replicate (.file arg) (c.message arg.userName) allServers (-1) [])
  | .replicatePost arg => .post .server (.command arg)
  | .exitWait arg => .wait .user (.exitRemove arg)
  | .exitRemove arg => .act (removeSession arg)
  | .exitPost => .post .user .ended
  | .ended => .halt
  | .crashed _ _ => .halt

/-- What happens around the threads: `accept` returns a descriptor that is not open and starts a
mediator, and a secondary server takes a step. -/
inductive Around
  | accept (fd : Int32) (record : Connection) (fileSizeBuffer : CharArray 8)
  | read (fd : Int32)

def around (sh : Shared) : Around → Option (Shared × List Pc)
  | .accept fd record fileSizeBuffer =>
      -- a descriptor is given out again once it has been closed
      if 0 ≤ fd ∧ ((sh.peers fd).map Peer.isOpen).getD false = false then
        some (sh.setPeer fd (Peer.accepted record fileSizeBuffer), [.mediator fd])
      else
        none
  | .read fd =>
      match sh.peers fd with
      | none => none
      | some peer =>
          match (secondServerProcessing peer.fileSizeBuffer.val peer.reader).perform
              peer.unread with
          | none => none
          | some move =>
              some
                (sh.setPeer fd
                  { peer with
                    reader := move.state
                    unread := move.unread
                    received := peer.received ++ move.noted }, [])

abbrev Process := World Mutex Shared Pc

abbrev Label := Turn Input Around

/-- A primary after its initialisation. -/
def Process.initial : Process where
  semaphores := fun _ => 1
  data := Shared.initial
  threads := []

/-- The fault a thread has met. -/
def Pc.fault : Pc → Option Fault
  | .crashed fault _ => some fault
  | _ => none

/-- One step of the process; a fault in one thread ends them all. -/
def Process.step (w : Process) (l : Label) : Option Process :=
  if w.threads.any fun pc => pc.fault.isSome then none else World.step program around w l

/-! ## What a step can do -/

/-- The waits of the program. -/
inductive Waited : Pc → Mutex → Pc → Prop
  | serverWait (id socket : Int32) :
      Waited (.serverWait id socket) .server (.serverInsert id socket)
  | userWait (con : Connection) (socket : Int32) :
      Waited (.userWait con socket) .user (.handle con socket)
  | notifyWait (arg : UserCurrentSocket) (c : FileCommand) :
      Waited (.notifyWait arg c) .user (.notifyLookup arg c)
  | replicateWait (arg : UserCurrentSocket) (c : FileCommand) :
      Waited (.replicateWait arg c) .server
        (.replicate (.file arg) (c.message arg.userName) allServers (-1) [])
  | exitWait (arg : UserCurrentSocket) : Waited (.exitWait arg) .user (.exitRemove arg)

/-- The posts of the program. -/
inductive Posted : Pc → Mutex → Pc → Prop
  | serverPost (socket : Int32) : Posted (.serverPost socket) .server (.serverCreate socket)
  | userPost (con : Connection) (socket : Int32) :
      Posted (.userPost con socket) .user (.userCreate con socket)
  | notifyPost (arg : UserCurrentSocket) (c : FileCommand) :
      Posted (.notifyPost arg c) .user (.replicateWait arg c)
  | replicatePost (arg : UserCurrentSocket) : Posted (.replicatePost arg) .server (.command arg)
  | exitPost : Posted .exitPost .user .ended

/-- A thread that reads from its connection and may find it closed. -/
def Pc.reads : Pc → Bool
  | .mediator _ => true
  | .command _ => true
  | .receive _ _ _ => true
  | _ => false

/-- The actions of the program, each with its input and its effect. -/
inductive Acted (sh : Shared) : Pc → Input → Effect Shared Pc → Prop
  | serverIdentified (socket : Int32) (input : Input) (peer : Peer)
      (hpeer : sh.peers socket = some peer) (htype : peer.record.packetType = packetServerConn) :
      Acted sh (.mediator socket) input
        { data := sh, next := .serverWait peer.record.device socket, spawned := [] }
  | userIdentified (socket : Int32) (input : Input) (peer : Peer)
      (hpeer : sh.peers socket = some peer) (htype : peer.record.packetType ≠ packetServerConn) :
      Acted sh (.mediator socket) input
        { data := sh, next := .userWait peer.record socket, spawned := [] }
  | hungUp (pc : Pc) (hreads : pc.reads = true) :
      Acted sh pc .hangup { data := sh, next := .ended, spawned := [] }
  | serverInserted (id socket : Int32) (input : Input) :
      Acted sh (.serverInsert id socket) input
        { data := { sh with backupServers := (insertServer sh.backupServers id socket).1 }
          next := .serverPost socket
          spawned := [] }
  | serverCreated (socket : Int32) (input : Input) :
      Acted sh (.serverCreate socket) input
        { data := sh, next := .ended, spawned := [.secondaryAck socket] }
  | secondaryAcked (socket : Int32) (input : Input) :
      Acted sh (.secondaryAck socket) input
        { data := sh.write socket ackBytes, next := .ended, spawned := [] }
  | admitUndefined (con : Connection) (socket : Int32) (input : Input)
      (hres : handleUserControllerStructure sh.users sh.backupServers con socket = none) :
      Acted sh (.handle con socket) input
        { data := sh, next := .crashed .undefinedResult (some .user), spawned := [] }
  | admitted (con : Connection) (socket : Int32) (input : Input) (handled : Handled)
      (hres : handleUserControllerStructure sh.users sh.backupServers con socket = some handled)
      (hack : handled.reply = some .ack) :
      Acted sh (.handle con socket) input
        { data := { sh with users := handled.users }, next := .admitAck con socket, spawned := [] }
  | refused (con : Connection) (socket : Int32) (input : Input) (handled : Handled)
      (reply : Reply)
      (hres : handleUserControllerStructure sh.users sh.backupServers con socket = some handled)
      (hreply : handled.reply = some reply) (hnack : reply ≠ .ack) :
      Acted sh (.handle con socket) input
        { data := { sh with users := handled.users }, next := .refuse socket reply, spawned := [] }
  | unanswered (con : Connection) (socket : Int32) (input : Input) (handled : Handled)
      (hres : handleUserControllerStructure sh.users sh.backupServers con socket = some handled)
      (hreply : handled.reply = none) :
      Acted sh (.handle con socket) input
        { data := { sh with users := handled.users }, next := .userPost con socket, spawned := [] }
  | nackWritten (socket : Int32) (reply : Reply) (input : Input) :
      Acted sh (.refuse socket reply) input
        { data := sh.write socket reply.bytes, next := .refused, spawned := [] }
  | ackWritten (con : Connection) (socket : Int32) (input : Input) :
      Acted sh (.admitAck con socket) input
        { data := sh.write socket ackBytes
          next := .replicate (.admission con socket) (.insertUser con) allServers (-1) []
          spawned := [] }
  | chunkWritten (site : Site) (m : WireMessage) (slots : List (Fin maxServers)) (fd : Int32)
      (bs : Bytes) (pending : List Bytes) (input : Input) :
      Acted sh (.replicate site m slots fd (bs :: pending)) input
        { data := sh.write fd bs, next := .replicate site m slots fd pending, spawned := [] }
  | messageReady (site : Site) (m : WireMessage) (i : Fin maxServers)
      (rest : List (Fin maxServers)) (fd : Int32) (stale : CommandPacket) (writes : List Bytes)
      (hid : (sh.backupServers i).id ≠ -1) (hwrites : writesOf stale m = some writes) :
      Acted sh (.replicate site m (i :: rest) fd []) (.stack stale)
        { data := sh
          next := .message site m rest (sh.backupServers i).socket writes
          spawned := [] }
  | messageBegun (site : Site) (m : WireMessage) (slots : List (Fin maxServers)) (fd : Int32)
      (writes : List Bytes) (input : Input) :
      Acted sh (.message site m slots fd writes) input
        { data := (sh.begin fd m).write fd (writes.headD [])
          next := .replicate site m slots fd writes.tail
          spawned := [] }
  | messageOverflow (site : Site) (m : WireMessage) (i : Fin maxServers)
      (rest : List (Fin maxServers)) (fd : Int32) (stale : CommandPacket)
      (hid : (sh.backupServers i).id ≠ -1) (hwrites : writesOf stale m = none) :
      Acted sh (.replicate site m (i :: rest) fd []) (.stack stale)
        { data := sh, next := .crashed .overflow (some site.mutex), spawned := [] }
  | slotSkipped (site : Site) (m : WireMessage) (i : Fin maxServers)
      (rest : List (Fin maxServers)) (fd : Int32) (stale : CommandPacket)
      (hid : (sh.backupServers i).id = -1) :
      Acted sh (.replicate site m (i :: rest) fd []) (.stack stale)
        { data := sh, next := .replicate site m rest (-1) [], spawned := [] }
  | replicated (site : Site) (m : WireMessage) (fd : Int32) (input : Input) :
      Acted sh (.replicate site m [] fd []) input { data := sh, next := site.after, spawned := [] }
  | threadCreated (con : Connection) (socket : Int32) (input : Input) :
      Acted sh (.userCreate con socket) input (createThread con socket sh)
  | fileCommand (arg : UserCurrentSocket) (c : FileCommand) (hread : c.Readable) :
      Acted sh (.command arg) (.command (.file c))
        { data := sh.write arg.currentSocket ackBytes
          next := .receive arg c c.acks
          spawned := [] }
  | exitCommand (arg : UserCurrentSocket) :
      Acted sh (.command arg) (.command .exit)
        { data := sh.write arg.currentSocket ackBytes, next := .exitWait arg, spawned := [] }
  | otherCommand (arg : UserCurrentSocket) :
      Acted sh (.command arg) (.command .other)
        { data := sh.write arg.currentSocket ackBytes, next := .command arg, spawned := [] }
  | restAcked (arg : UserCurrentSocket) (c : FileCommand) (acks : Nat) (input : Input)
      (hread : input ≠ .hangup) :
      Acted sh (.receive arg c (acks + 1)) input
        { data := sh.write arg.currentSocket ackBytes
          next := .receive arg c acks
          spawned := [] }
  | fileChanged (arg : UserCurrentSocket) (c : FileCommand) (input : Input) :
      Acted sh (.receive arg c 0) input { data := sh, next := .notifyWait arg c, spawned := [] }
  | lookupFailed (arg : UserCurrentSocket) (c : FileCommand) (input : Input)
      (hno : getUser sh.users arg.userName = none) :
      Acted sh (.notifyLookup arg c) input
        { data := sh, next := .crashed .nullPointer (some .user), spawned := [] }
  | lookedUp (arg : UserCurrentSocket) (c : FileCommand) (input : Input) (user : Fin maxUsers)
      (huser : getUser sh.users arg.userName = some user) :
      Acted sh (.notifyLookup arg c) input
        { data := sh
          next := .notify arg c user (List.finRange maxDevices) (-1) []
          spawned := [] }
  | notificationChunk (arg : UserCurrentSocket) (c : FileCommand) (user : Fin maxUsers)
      (devices : List (Fin maxDevices)) (fd : Int32) (bs : Bytes) (pending : List Bytes)
      (input : Input) :
      Acted sh (.notify arg c user devices fd (bs :: pending)) input
        { data := sh.write fd bs, next := .notify arg c user devices fd pending, spawned := [] }
  | notificationBegun (arg : UserCurrentSocket) (c : FileCommand) (user : Fin maxUsers)
      (d : Fin maxDevices) (rest : List (Fin maxDevices)) (fd : Int32) (stale : CommandPacket)
      (writes : List Bytes) (hother : Notifies arg (sh.users.device (user, d)))
      (hwrites : c.notification stale = some writes) :
      Acted sh (.notify arg c user (d :: rest) fd []) (.stack stale)
        { data := sh
          next := .notify arg c user rest (sh.users.device (user, d)).socket3 writes
          spawned := [] }
  | notificationOverflow (arg : UserCurrentSocket) (c : FileCommand) (user : Fin maxUsers)
      (d : Fin maxDevices) (rest : List (Fin maxDevices)) (fd : Int32) (stale : CommandPacket)
      (hother : Notifies arg (sh.users.device (user, d)))
      (hwrites : c.notification stale = none) :
      Acted sh (.notify arg c user (d :: rest) fd []) (.stack stale)
        { data := sh, next := .crashed .overflow (some .user), spawned := [] }
  | deviceSkipped (arg : UserCurrentSocket) (c : FileCommand) (user : Fin maxUsers)
      (d : Fin maxDevices) (rest : List (Fin maxDevices)) (fd : Int32) (stale : CommandPacket)
      (hself : ¬Notifies arg (sh.users.device (user, d))) :
      Acted sh (.notify arg c user (d :: rest) fd []) (.stack stale)
        { data := sh, next := .notify arg c user rest (-1) [], spawned := [] }
  | notified (arg : UserCurrentSocket) (c : FileCommand) (user : Fin maxUsers) (fd : Int32)
      (input : Input) :
      Acted sh (.notify arg c user [] fd []) input
        { data := sh, next := .notifyPost arg c, spawned := [] }
  | exitUndefined (arg : UserCurrentSocket) (record : CharArray userCurrentSocketSize)
      (hres : Server.exitCommand sh.users sh.backupServers arg = none) :
      Acted sh (.exitRemove arg) (.memory record)
        { data := sh
          next := .crashed
            (if getDevice sh.users arg.currentDevice arg.userName = .null then .nullPointer
              else .undefinedResult)
            (some .user)
          spawned := [] }
  | sessionRemoved (arg : UserCurrentSocket) (record : CharArray userCurrentSocketSize)
      (exited : Exited) (hres : Server.exitCommand sh.users sh.backupServers arg = some exited) :
      Acted sh (.exitRemove arg) (.memory record)
        { data := exited.closed.foldl Shared.close { sh with users := exited.users }
          next := if exited.code = .success then
            .replicate .exit (.exit record) allServers (-1) [] else .exitPost
          spawned := [] }

/-- The steps around the threads. -/
inductive Surrounded (sh : Shared) : Around → Shared → List Pc → Prop
  | accepted (fd : Int32) (record : Connection) (fileSizeBuffer : CharArray 8) (hfd : 0 ≤ fd)
      (hclosed : ((sh.peers fd).map Peer.isOpen).getD false = false) :
      Surrounded sh (.accept fd record fileSizeBuffer)
        (sh.setPeer fd (Peer.accepted record fileSizeBuffer)) [.mediator fd]
  | read (fd : Int32) (peer : Peer) (move : Move SecondaryState WireMessage)
      (hpeer : sh.peers fd = some peer)
      (hmove : (secondServerProcessing peer.fileSizeBuffer.val peer.reader).perform peer.unread =
        some move) :
      Surrounded sh (.read fd)
        (sh.setPeer fd
          { peer with
            reader := move.state
            unread := move.unread
            received := peer.received ++ move.noted }) []

/-- What a step of the process can do: a thread waits or posts, or acts, or something happens
around the threads. -/
inductive Process.Stepped (w : Process) : Label → Process → Prop
  | semaphore {i : Nat} {input : Input} {pc k : Pc} {m : Mutex} (hpc : w.threads[i]? = some pc)
      (hstep : Waited pc m k ∨ Posted pc m k) (semaphores : Mutex → Nat) :
      Process.Stepped w (.thread i input)
        { w with semaphores := semaphores, threads := w.threads.set i k }
  | act {i : Nat} {input : Input} {pc : Pc} {e : Effect Shared Pc}
      (hpc : w.threads[i]? = some pc) (hacted : Acted w.data pc input e) :
      Process.Stepped w (.thread i input)
        { w with data := e.data, threads := w.threads.set i e.next ++ e.spawned }
  | env {a : Around} {sh' : Shared} {spawned : List Pc}
      (hsurrounded : Surrounded w.data a sh' spawned) :
      Process.Stepped w (.env a) { w with data := sh', threads := w.threads ++ spawned }

section Inversion

variable {sh : Shared} {pc k : Pc} {m : Mutex} {input : Input} {e : Effect Shared Pc}
variable {f : Shared → Input → Option (Effect Shared Pc)}

theorem waited (h : program pc = .wait m k) : Waited pc m k := by
  cases pc with
  | serverWait id socket =>
      cases h
      exact .serverWait id socket
  | userWait con socket =>
      cases h
      exact .userWait con socket
  | notifyWait arg c =>
      cases h
      exact .notifyWait arg c
  | replicateWait arg c =>
      cases h
      exact .replicateWait arg c
  | exitWait arg =>
      cases h
      exact .exitWait arg
  | replicate site msg slots fd pending =>
      cases pending <;> cases slots <;> cases h
  | notify arg c user devices fd pending =>
      cases pending <;> cases devices <;> cases h
  | _ =>
      cases h

theorem posted (h : program pc = .post m k) : Posted pc m k := by
  cases pc with
  | serverPost socket =>
      cases h
      exact .serverPost socket
  | userPost con socket =>
      cases h
      exact .userPost con socket
  | notifyPost arg c =>
      cases h
      exact .notifyPost arg c
  | replicatePost arg =>
      cases h
      exact .replicatePost arg
  | exitPost =>
      cases h
      exact .exitPost
  | replicate site msg slots fd pending =>
      cases pending <;> cases slots <;> cases h
  | notify arg c user devices fd pending =>
      cases pending <;> cases devices <;> cases h
  | _ =>
      cases h

theorem acted_mediate {socket : Int32} (h : mediate socket sh input = some e) :
    Acted sh (.mediator socket) input e := by
  by_cases hhang : input = .hangup
  · subst hhang
    cases h
    exact .hungUp _ rfl
  · have hread : ∃ peer, sh.peers socket = some peer ∧ e =
        { data := sh
          next := if peer.record.packetType = packetServerConn then
              .serverWait peer.record.device socket
            else
              .userWait peer.record socket
          spawned := [] } := by
      cases input with
      | hangup =>
          exact absurd rfl hhang
      | _ =>
          rcases Option.map_eq_some_iff.1 h with ⟨peer, hpeer, rfl⟩
          exact ⟨peer, hpeer, rfl⟩
    rcases hread with ⟨peer, hpeer, rfl⟩
    split
    · next htype => exact .serverIdentified socket input peer hpeer htype
    · next htype => exact .userIdentified socket input peer hpeer htype

theorem acted_handleRequest (con : Connection) (socket : Int32) (input : Input) :
    Acted sh (.handle con socket) input (handleRequest con socket sh) := by
  unfold handleRequest
  cases hres : handleUserControllerStructure sh.users sh.backupServers con socket with
  | none =>
      exact .admitUndefined con socket input hres
  | some handled =>
      cases hreply : handled.reply with
      | none =>
          simp only [hreply]
          exact .unanswered con socket input handled hres hreply
      | some reply =>
          cases reply with
          | ack =>
              simp only [hreply]
              exact .admitted con socket input handled hres hreply
          | _ =>
              simp only [hreply]
              exact .refused con socket input handled _ hres hreply (by simp)

theorem acted_visit {site : Site} {msg : WireMessage} {i : Fin maxServers}
    {rest : List (Fin maxServers)} {fd : Int32} (h : visit site msg i rest sh input = some e) :
    Acted sh (.replicate site msg (i :: rest) fd []) input e := by
  cases input with
  | stack stale =>
      simp only [visit] at h
      by_cases hid : (sh.backupServers i).id = -1
      · simp only [hid, ne_eq, not_true_eq_false, if_false, Option.some.injEq] at h
        subst h
        exact .slotSkipped site msg i rest fd stale hid
      · simp only [hid, ne_eq, not_false_eq_true, if_true] at h
        split at h
        · next hwrites =>
            cases h
            exact .messageOverflow site msg i rest fd stale hid hwrites
        · next writes hwrites =>
            cases h
            exact .messageReady site msg i rest fd stale writes hid hwrites
  | _ =>
      cases h

theorem acted_notifyDevice {arg : UserCurrentSocket} {c : FileCommand} {user : Fin maxUsers}
    {d : Fin maxDevices} {rest : List (Fin maxDevices)} {fd : Int32}
    (h : notifyDevice arg c user d rest sh input = some e) :
    Acted sh (.notify arg c user (d :: rest) fd []) input e := by
  cases input with
  | stack stale =>
      simp only [notifyDevice] at h
      split at h
      · next hother =>
          split at h
          · next hwrites =>
              cases h
              exact .notificationOverflow arg c user d rest fd stale hother hwrites
          · next writes hwrites =>
              cases h
              exact .notificationBegun arg c user d rest fd stale writes hother hwrites
      · next hself =>
          cases h
          exact .deviceSkipped arg c user d rest fd stale hself
  | _ =>
      cases h

theorem acted_removeSession {arg : UserCurrentSocket}
    (h : removeSession arg sh input = some e) : Acted sh (.exitRemove arg) input e := by
  cases input with
  | memory record =>
      simp only [removeSession] at h
      split at h
      · next hres =>
          cases h
          exact .exitUndefined arg record hres
      · next exited hres =>
          cases h
          exact .sessionRemoved arg record exited hres
  | _ =>
      cases h

theorem acted_takeCommand {arg : UserCurrentSocket} (h : takeCommand arg sh input = some e) :
    Acted sh (.command arg) input e := by
  cases input with
  | command c =>
      cases c with
      | file c =>
          simp only [takeCommand] at h
          split at h
          · next hread =>
              cases h
              exact .fileCommand arg c hread
          · cases h
      | exit =>
          cases h
          exact .exitCommand arg
      | other =>
          cases h
          exact .otherCommand arg
  | hangup =>
      cases h
      exact .hungUp _ rfl
  | _ =>
      cases h

theorem acted_receiveRest {arg : UserCurrentSocket} {c : FileCommand} {acks : Nat}
    (h : receiveRest arg c sh acks input = some e) : Acted sh (.receive arg c acks) input e := by
  cases acks with
  | zero =>
      cases h
      exact .fileChanged arg c input
  | succ acks =>
      cases input with
      | hangup =>
          cases h
          exact .hungUp _ rfl
      | _ =>
          cases h
          exact .restAcked arg c acks _ (by simp)

/-- Every action of the program is one of the list. -/
theorem acted (hinstr : program pc = .act f) (h : f sh input = some e) : Acted sh pc input e := by
  cases pc with
  | mediator socket =>
      cases hinstr
      exact acted_mediate h
  | serverInsert id socket =>
      cases hinstr
      cases h
      exact .serverInserted id socket input
  | serverCreate socket =>
      cases hinstr
      cases h
      exact .serverCreated socket input
  | secondaryAck socket =>
      cases hinstr
      cases h
      exact .secondaryAcked socket input
  | handle con socket =>
      cases hinstr
      cases h
      exact acted_handleRequest con socket input
  | refuse socket reply =>
      cases hinstr
      cases h
      exact .nackWritten socket reply input
  | admitAck con socket =>
      cases hinstr
      cases h
      exact .ackWritten con socket input
  | message site msg slots fd writes =>
      cases hinstr
      cases h
      exact .messageBegun site msg slots fd writes input
  | replicate site msg slots fd pending =>
      cases pending with
      | cons bs pending =>
          cases hinstr
          cases h
          exact .chunkWritten site msg slots fd bs pending input
      | nil =>
          cases slots with
          | nil =>
              cases hinstr
              cases h
              exact .replicated site msg fd input
          | cons i rest =>
              cases hinstr
              exact acted_visit h
  | userCreate con socket =>
      cases hinstr
      cases h
      exact .threadCreated con socket input
  | command arg =>
      cases hinstr
      exact acted_takeCommand h
  | receive arg c acks =>
      cases hinstr
      exact acted_receiveRest h
  | notifyLookup arg c =>
      cases hinstr
      cases h
      cases huser : getUser sh.users arg.userName with
      | none =>
          exact .lookupFailed arg c input huser
      | some user =>
          exact .lookedUp arg c input user huser
  | notify arg c user devices fd pending =>
      cases pending with
      | cons bs pending =>
          cases hinstr
          cases h
          exact .notificationChunk arg c user devices fd bs pending input
      | nil =>
          cases devices with
          | nil =>
              cases hinstr
              cases h
              exact .notified arg c user fd input
          | cons d rest =>
              cases hinstr
              exact acted_notifyDevice h
  | exitRemove arg =>
      cases hinstr
      exact acted_removeSession h
  | _ =>
      cases hinstr

/-- The threads that an action starts. -/
theorem Acted.spawned (h : Acted sh pc input e) :
    ∀ t ∈ e.spawned, (∃ socket, t = .secondaryAck socket) ∨ ∃ arg, t = .command arg := by
  intro t ht
  cases h with
  | serverCreated socket input =>
      exact Or.inl ⟨socket, List.mem_singleton.1 ht⟩
  | threadCreated con socket input =>
      exact Or.inr ⟨_, createThread_spawned con socket sh t ht⟩
  | _ =>
      cases ht

theorem surrounded {sh' : Shared} {around' : Around} {spawned : List Pc}
    (h : around sh around' = some (sh', spawned)) : Surrounded sh around' sh' spawned := by
  cases around' with
  | accept fd record fileSizeBuffer =>
      simp only [around] at h
      split at h
      · next hfree =>
          cases h
          exact .accepted fd record fileSizeBuffer hfree.1 hfree.2
      · cases h
  | read fd =>
      simp only [around] at h
      split at h
      · cases h
      · next peer hpeer =>
          split at h
          · cases h
          · next move hmove =>
              cases h
              exact .read fd peer move hpeer hmove

/-- A process that takes a step has met no fault. -/
theorem Process.fault_of_step {w w' : Process} {l : Label} (h : w.step l = some w') :
    ∀ t ∈ w.threads, t.fault = none := by
  intro t ht
  by_contra hfault
  have hany : (w.threads.any fun pc => pc.fault.isSome) = true :=
    List.any_eq_true.2 ⟨t, ht, Option.isSome_iff_ne_none.2 hfault⟩
  rw [Process.step, if_pos hany] at h
  cases h

theorem Process.step_cases {w w' : Process} {l : Label} (h : w.step l = some w') :
    w.Stepped l w' := by
  unfold Process.step at h
  split at h
  · cases h
  · cases World.step_cases h with
    | wait hpc hinstr hfree =>
        exact .semaphore hpc (Or.inl (waited hinstr)) _
    | post hpc hinstr =>
        exact .semaphore hpc (Or.inr (posted hinstr)) _
    | act hpc hinstr heffect =>
        exact .act hpc (acted hinstr heffect)
    | env henv =>
        exact .env (surrounded henv)

theorem Surrounded.spawned {sh' : Shared} {a : Around} {spawned : List Pc}
    (h : Surrounded sh a sh' spawned) : ∀ t ∈ spawned, ∃ socket, t = .mediator socket := by
  intro t ht
  cases h with
  | accepted fd record fileSizeBuffer hfd hclosed =>
      exact ⟨fd, List.mem_singleton.1 ht⟩
  | read fd peer move hpeer hmove =>
      cases ht

/-- What holds of every thread after a step: it holds of those before, of what the step makes of
one of them, and of the threads it starts. -/
theorem Process.forall_threads {w w' : Process} {l : Label} {P : Pc → Prop}
    (h : w.step l = some w') (hold : ∀ t ∈ w.threads, P t)
    (hsemaphore : ∀ pc ∈ w.threads, ∀ m k, Waited pc m k ∨ Posted pc m k → P k)
    (hact : ∀ i input pc e, l = .thread i input → w.threads[i]? = some pc →
      Acted w.data pc input e → w'.data = e.data → P e.next ∧ ∀ t ∈ e.spawned, P t)
    (hmediator : ∀ socket, P (.mediator socket)) : ∀ t ∈ w'.threads, P t := by
  intro t ht
  cases Process.step_cases h with
  | @semaphore i input pc k m hpc hstep semaphores =>
      rcases List.mem_or_eq_of_mem_set ht with ht | rfl
      · exact hold t ht
      · exact hsemaphore pc (List.mem_of_getElem? hpc) m t hstep
  | @act i input pc e hpc hacted =>
      rcases hact i input pc e rfl hpc hacted rfl with ⟨hnext, hspawned⟩
      rcases mem_set_append ht with ht | rfl | ht
      · exact hold t (List.mem_of_mem_eraseIdx ht)
      · exact hnext
      · exact hspawned t ht
  | env hsurrounded =>
      rcases List.mem_append.1 ht with ht | ht
      · exact hold t ht
      · rcases hsurrounded.spawned t ht with ⟨socket, rfl⟩
        exact hmediator socket

end Inversion

end Server
end DropboxSimulator
