import DropboxSimulator.Library.Duet
import DropboxSimulator.Server.CommandLoop
import DropboxSimulator.Server.Sections
import DropboxSimulator.Server.Threads

/-!
# Mediator — the first bytes of a connection

`mediatorThread` reads the record of a connection that has been accepted.  A client is admitted or
refused; a secondary is acknowledged by `handle_one_secondary_server` in any case.  What other
threads write to the connection comes behind that.

A secondary waits for its acknowledgement with one read of up to eight bytes and then takes
replication messages.  When the read takes the acknowledgement alone, the secondary decodes all
messages from the first one on (`joins_in_step`); when a message is there already, the read takes
five bytes of it, and the message is lost (`joined_too_late`).
-/

namespace DropboxSimulator
namespace Server

open Library

/-! ## The server's end -/

/-- Where the server stands with a connection that it has accepted; `tell` is for what other threads
write to it once it is recorded. -/
inductive MediatorState
  | record (got : Bytes)
  | handle (record : Bytes)
  | answer (con : Connection)
  | tell (pending : List Bytes)
  | ended

/-- `mediatorThread` up to the answer, and what is written to the connection behind it; `handled`
is what is noted of the record. -/
def mediatorThread {ε : Type} (users : Users) (servers : BackupServers) (socket : Int32)
    (told : List Bytes) (handled : Connection → ε) : MediatorState → Request MediatorState ε
  | .record got => readLargePayloadFromSocket connectionSize got .record .handle .ended
  | .handle record =>
      if h : record.length = connectionSize then
        .emit (handled (Connection.ofBytes record h)) (.answer (Connection.ofBytes record h))
      else
        .halt
  | .answer con =>
      if con.packetType = packetServerConn then
        -- `handle_one_secondary_server`, whether or not `insert_server` has found room
        .write ackBytes (.tell told)
      else
        match (handleUserControllerStructure users servers con socket).bind Handled.reply with
        -- a refusal ends the thread
        | some reply => .write reply.bytes (if reply = .ack then .tell told else .ended)
        | none => .halt
  | .tell (bs :: pending) => .write bs (.tell pending)
  | .tell [] => .halt
  | .ended => .halt

/-- The messages of a connection: the record from the right, the answer, and what is told. -/
def mediatorLines (con : Connection) (answer : Bytes) (told : List Bytes) : Lines :=
  Lines.by .right (solid (sendLargePayloadToSocket con.bytes)) ++
    (.left, answer) :: (Lines.by .left (solid told) ++ [])

section Performing

variable {ε : Type} {users : Users} {servers : BackupServers} {socket : Int32}
variable {told : List Bytes} {handled : Connection → ε} {con : Connection} {answer : Bytes}
variable {reply : Reply}

theorem length_connection_lt (con : Connection) : con.bytes.length < 2 ^ 31 := by
  rw [con.length_bytes]
  norm_num [connectionSize]

theorem reply_ne_nil (reply : Reply) : reply.bytes ≠ [] := by
  cases reply <;> decide

/-- The answer to a secondary. -/
theorem answer_secondary (hkind : con.packetType = packetServerConn) :
    mediatorThread users servers socket told handled (.answer con) =
      .write ackBytes (.tell told) := by
  simp only [mediatorThread, if_pos hkind]

/-- The answer to a client. -/
theorem answer_client (hkind : con.packetType ≠ packetServerConn)
    (hreply : (handleUserControllerStructure users servers con socket).bind Handled.reply =
      some reply) :
    mediatorThread users servers socket told handled (.answer con) =
      .write reply.bytes (if reply = .ack then .tell told else .ended) := by
  simp only [mediatorThread, if_neg hkind, hreply]

/-- The server decodes the record that was sent, answers, and then only writes. -/
theorem performs_mediatorThread {k : MediatorState} (hne : answer ≠ [])
    (hanswer : mediatorThread users servers socket told handled (.answer con) = .write answer k)
    (htold : k = .tell told ∨ (k = .ended ∧ told = [])) :
    ∃ m, Performs (mediatorThread users servers socket told handled) .left (fun _ => false) m
      (mediatorLines con answer told) [handled con] (.record []) := by
  have hrecord : Consumes (mediatorThread users servers socket told handled) (.record [])
      (solid (sendLargePayloadToSocket con.bytes)) [] [] (.handle con.bytes) :=
    consumes_sendLargePayloadToSocket MediatorState.record .handle (fun _ => .ended)
      (length_connection_lt con) fun got _ => by
        rw [con.length_bytes]
        rfl
  have hhandle : mediatorThread users servers socket told handled (.handle con.bytes) =
      .emit (handled con) (.answer con) := by
    simp [mediatorThread, Connection.ofBytes_bytes]
  -- a refused client is left alone
  obtain ⟨m, hrest⟩ : ∃ m, Performs (mediatorThread users servers socket told handled) .left
      (fun _ => false) m (Lines.by .left (solid told) ++ []) [] k := by
    rcases htold with rfl | ⟨rfl, rfl⟩
    · exact Performs.writes (k := MediatorState.tell) (fun _ _ => rfl) told ⟨0, .done rfl⟩
    · exact ⟨0, .done rfl⟩
  exact Performs.consumes hrecord ⟨m + 2, .emit hhandle (.send hne hanswer hrest)⟩

end Performing

/-! ## The secondary's end -/

/-- What is noted while a secondary joins: the record that the primary decodes, and the messages
that the secondary decodes. -/
inductive JoiningEvent
  | handled (con : Connection)
  | decoded (m : WireMessage)
  deriving DecidableEq

/-- Where a secondary stands that joins a primary; `connect []` is the wait for the
acknowledgement. -/
inductive JoiningState
  | connect (pending : List Bytes)
  | process (s : SecondaryState)

/-- `second_server_processing` from its start on. -/
def joinPrimary (fileSizeBuffer : Bytes) : JoiningState → Request JoiningState JoiningEvent
  | .connect (bs :: pending) => .write bs (.connect pending)
  | .connect [] => (secondServerProcessing fileSizeBuffer .waitAck).map .process .decoded
  | .process s => (secondServerProcessing fileSizeBuffer s).map .process .decoded

/-- The secondary is about to read its acknowledgement. -/
def JoiningState.waitsForAck : JoiningState → Bool
  | .connect [] => true
  | _ => false

/-- The event is one of the secondary. -/
def ofSecondary : JoiningEvent → Bool
  | .handled _ => false
  | .decoded _ => true

/-- A primary that has accepted a connection, and a secondary that sends its record. -/
def joining (con : Connection) : Duplex MediatorState JoiningState JoiningEvent :=
  Duplex.start (.record []) (.connect (sendLargePayloadToSocket con.bytes))

/-- What is noted while a secondary joins. -/
structure Joining (con : Connection) (ms : List WireMessage) (noted : List JoiningEvent) :
    Prop where
  primary : noted.filter (fun e => !ofSecondary e) <+: [.handled con]
  secondary : noted.filter ofSecondary <+: ms.map .decoded

/-- All of that has been noted. -/
structure Joined (con : Connection) (ms : List WireMessage) (noted : List JoiningEvent) :
    Prop where
  primary : noted.filter (fun e => !ofSecondary e) = [.handled con]
  secondary : noted.filter ofSecondary = ms.map .decoded

section Joining

variable {fileSizeBuffer : Bytes} {con : Connection} {told : List Bytes}

/-- The loop decodes the writes of a list of messages. -/
theorem consumes_replication (hbuffer : fileSizeBuffer.length = 8)
    {ms : List (CommandPacket × WireMessage)}
    (hms : ∀ m ∈ ms, Sendable m.2 ∧ (headerText m.2).length < 100) :
    ∃ writes, ms.mapM (fun m => writesOf m.1 m.2) = some writes ∧
      Consumes (secondServerProcessing fileSizeBuffer) (.command []) (solid writes.flatten)
        (ms.map Prod.snd) [] (.command []) := by
  have hmessages : ∀ s, s = SecondaryState.command [] → ∀ m ∈ ms, ∃ w t,
      writesOf m.1 m.2 = some w ∧ t = SecondaryState.command [] ∧
        Consumes (secondServerProcessing fileSizeBuffer) s (w.filter (· ≠ [])) [m.2] [] t := by
    rintro s rfl m hm
    rcases exists_writesOf m.1 (hms m hm).2 with ⟨w, hw⟩
    exact ⟨w, _, hw, rfl, consumes_writes hbuffer (hms m hm).1 hw⟩
  rcases Consumes.messages hmessages rfl with ⟨writes, t, hw, rfl, hconsumes⟩
  exact ⟨writes, hw, hconsumes⟩

/-- A secondary that reads its acknowledgement alone decodes what comes behind it. -/
theorem performs_joinPrimary {ms : List WireMessage}
    (htold : Consumes (secondServerProcessing fileSizeBuffer) (.command []) (solid told) ms []
      (.command [])) :
    ∃ m, Performs (joinPrimary fileSizeBuffer) .right JoiningState.waitsForAck m
      (mediatorLines con ackBytes told) (ms.map .decoded)
      (.connect (sendLargePayloadToSocket con.bytes)) := by
  have hprocess : Consumes (joinPrimary fileSizeBuffer) (.process (.command [])) (solid told)
      (ms.map .decoded) [] (.process (.command [])) := htold.map fun _ => rfl
  obtain ⟨m, hrest⟩ : ∃ m, Performs (joinPrimary fileSizeBuffer) .right JoiningState.waitsForAck m
      (Lines.by .left (solid told) ++ []) (ms.map .decoded ++ []) (.process (.command [])) :=
    Performs.consumes hprocess ⟨0, .done rfl⟩
  rw [List.append_nil (ms.map _)] at hrest
  have hack : Performs (joinPrimary fileSizeBuffer) .right JoiningState.waitsForAck (m + 1)
      ((Side.right.other, ackBytes) :: (Lines.by .left (solid told) ++ [])) (ms.map .decoded)
      (.connect []) :=
    .receive ackBytes_ne_nil rfl (Or.inr ⟨by decide, Or.inl rfl⟩) hrest
  exact Performs.writes (k := JoiningState.connect) (fun _ _ => rfl) _ ⟨_, hack⟩

/-- In every order of the steps in which a secondary reads its acknowledgement alone it decodes the
messages that come behind it, in order and each once, and comes to rest. -/
theorem joins_in_step (users : Users) (servers : BackupServers) (socket : Int32)
    (con : Connection) (hkind : con.packetType = packetServerConn)
    (hbuffer : fileSizeBuffer.length = 8) (ms : List (CommandPacket × WireMessage))
    (hms : ∀ m ∈ ms, Sendable m.2 ∧ (headerText m.2).length < 100) :
    ∃ writes, ms.mapM (fun m => writesOf m.1 m.2) = some writes ∧
      ∃ bound, ∀ sides w,
        runWhile (Duplex.step
            (mediatorThread users servers socket writes.flatten JoiningEvent.handled)
            (joinPrimary fileSizeBuffer))
          (Unmixed JoiningState.waitsForAck) (joining con) sides = some w →
        sides.length ≤ bound ∧ Joining con (ms.map Prod.snd) w.noted ∧
          (w.Stuck (mediatorThread users servers socket writes.flatten JoiningEvent.handled)
              (joinPrimary fileSizeBuffer) →
            Joined con (ms.map Prod.snd) w.noted) := by
  obtain ⟨writes, hwrites, htold⟩ := consumes_replication hbuffer hms
  refine ⟨writes, hwrites, ?_⟩
  obtain ⟨i, hprimary⟩ : ∃ i,
      Performs (mediatorThread users servers socket writes.flatten JoiningEvent.handled) .left
        (fun _ => false) i (mediatorLines con ackBytes writes.flatten) [.handled con]
        (.record []) :=
    performs_mediatorThread ackBytes_ne_nil (answer_secondary hkind) (Or.inl rfl)
  obtain ⟨j, hsecondary⟩ : ∃ j,
      Performs (joinPrimary fileSizeBuffer) .right JoiningState.waitsForAck j
        (mediatorLines con ackBytes writes.flatten) ((ms.map Prod.snd).map .decoded)
        (.connect (sendLargePayloadToSocket con.bytes)) :=
    performs_joinPrimary htold
  have hseparates : Separates ofSecondary [.handled con]
      ((ms.map Prod.snd).map JoiningEvent.decoded) := by
    refine ⟨by simp [ofSecondary], fun e he => ?_⟩
    rcases List.mem_map.1 he with ⟨m, _, rfl⟩
    rfl
  obtain ⟨bound, hall⟩ := Performs.together hprimary hsecondary hseparates
  refine ⟨bound, fun sides w hrun => ?_⟩
  obtain ⟨hlength, hnoted, hend⟩ := hall sides w hrun
  exact ⟨hlength, ⟨hnoted.1, hnoted.2⟩, fun hstuck => ⟨(hend hstuck).1, (hend hstuck).2⟩⟩

end Joining

/-- The record of secondary `1`. -/
def secondaryRecord : Connection :=
  { oneLetterRequest 97 1 0 with packetType := packetServerConn }

/-- The writes that replicate the deletion of a file named `f`. -/
def deletionWrites : List Bytes :=
  ((writesOf emptyPacket (.delete [102])).toList).flatten

/-- The record is sent and read, the acknowledgement written and read, and then the deletion. -/
def joinSteps : List Side :=
  List.replicate 32 .right ++ List.replicate 34 .left ++ [.right] ++ List.replicate 30 .left ++
    List.replicate 31 .right

theorem joins_in_step_deletion :
    ∃ w, runWhile (Duplex.step (mediatorThread initiateUserControllerStructure
          initiateBackupServerStructure 5 deletionWrites JoiningEvent.handled)
        (joinPrimary emptySizeBuffer)) (Unmixed JoiningState.waitsForAck)
        (joining secondaryRecord) joinSteps = some w ∧
      w.noted.filter ofSecondary = [.decoded (.delete [102])] := by
  have hrun : (runWhile (Duplex.step (mediatorThread initiateUserControllerStructure
        initiateBackupServerStructure 5 deletionWrites JoiningEvent.handled)
      (joinPrimary emptySizeBuffer)) (Unmixed JoiningState.waitsForAck)
      (joining secondaryRecord) joinSteps).any (fun w =>
        w.Stuck (mediatorThread initiateUserControllerStructure initiateBackupServerStructure 5
          deletionWrites JoiningEvent.handled) (joinPrimary emptySizeBuffer)) = true := by
    decide +kernel
  rcases (Option.any_eq_true _ _).1 hrun with ⟨w, hw, hstuck⟩
  obtain ⟨writes, hwrites, bound, hall⟩ := joins_in_step initiateUserControllerStructure
    initiateBackupServerStructure 5 secondaryRecord (by decide) emptySizeBuffer.property
    [(emptyPacket, .delete [102])] (by simp [Sendable, headerText])
  have hwritten : ([(emptyPacket, .delete [102])] : List (CommandPacket × WireMessage)).mapM
      (fun m => writesOf m.1 m.2) = some [deletionWrites] := by
    decide +kernel
  obtain rfl : writes = [deletionWrites] := Option.some.inj (hwrites.symm.trans hwritten)
  have hjoined := (hall _ w (by simpa using hw)).2.2 (by simpa using of_decide_eq_true hstuck)
  exact ⟨w, hw, hjoined.secondary⟩

/-- The primary writes the deletion before the secondary has read its acknowledgement. -/
def lateSteps : List Side :=
  List.replicate 32 .right ++ List.replicate 64 .left ++ List.replicate 30 .right

theorem joined_too_late :
    ∃ w, run (Duplex.step (mediatorThread initiateUserControllerStructure
          initiateBackupServerStructure 5 deletionWrites JoiningEvent.handled)
        (joinPrimary emptySizeBuffer)) (joining secondaryRecord) lateSteps = some w ∧
      w.Stuck (mediatorThread initiateUserControllerStructure initiateBackupServerStructure 5
        deletionWrites JoiningEvent.handled) (joinPrimary emptySizeBuffer) ∧
      w.noted.filter ofSecondary = [] := by
  have hrun : (run (Duplex.step (mediatorThread initiateUserControllerStructure
        initiateBackupServerStructure 5 deletionWrites JoiningEvent.handled)
      (joinPrimary emptySizeBuffer)) (joining secondaryRecord) lateSteps).any (fun w =>
        w.Stuck (mediatorThread initiateUserControllerStructure initiateBackupServerStructure 5
          deletionWrites JoiningEvent.handled) (joinPrimary emptySizeBuffer) ∧
        w.noted.filter ofSecondary = []) = true := by
    decide +kernel
  rcases (Option.any_eq_true _ _).1 hrun with ⟨w, hw, hboth⟩
  exact ⟨w, hw, of_decide_eq_true hboth⟩

end Server
end DropboxSimulator
