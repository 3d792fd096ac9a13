import DropboxSimulator.Box.Notifications
import DropboxSimulator.Server.Mediator

/-!
# Handshake — a Box takes up a connection

`establishConnectionType` sends a connection record and reads the answer; at the other end
`mediatorThread` reads the record, and `handle_user_controller_structure` admits the connection or
refuses it.  The answer is read with a read of up to 100 bytes.  On the third connection the server
may already have told the Box of a command behind it, and what the read takes of that is lost to
`th_func_server_comm`.

* `answer_understood`  : with nothing behind the answer, the Box learns what the server has decided;
* `told_from_the_first` : on the third connection it applies what it is told from the first command
  on, as long as the answer is read alone.
-/

namespace DropboxSimulator

open Library

/-- What is noted of a connection: the record that the server decodes, what
`establishConnectionType` returns, and what the Box applies. -/
inductive OpeningEvent
  | handled (con : Connection)
  | returned (code : Int)
  | applied (c : Box.Command)
  deriving DecidableEq

/-! ## The client's end -/

namespace Client

/-- What `establishConnectionType` makes of the text it has read. -/
def codeOf (response : Bytes) : Int :=
  if response = Server.Reply.bytes .ack then 0
  else if response = Server.Reply.bytes .nack1 then -1
  else if response = Server.Reply.bytes .nack2 then -1
  else if response = Server.Reply.bytes .nack3 then -1
  -- `nack4` is never sent
  else if response = [110, 97, 99, 107, 52] then -1
  else if response = Server.Reply.bytes .nack5 then -1
  else 0

end Client

namespace Box

open Server (Users BackupServers Reply MediatorState mediatorThread mediatorLines
  handleUserControllerStructure)

/-- Where a Box stands with a connection; `connect []` is the wait for the answer. -/
inductive OpeningState
  | connect (pending : List Bytes)
  | established (code : Int)
  | comm (s : CommState)
  | ended

/-- `establishConnectionType`, and behind it on the third connection `th_func_server_comm`, which
`open` starts whatever has been returned. -/
def openConnection (third : Bool) (buffers : Client.ReceiveBuffers)
    (commandReceived : CommandPacket) : OpeningState → Library.Request OpeningState OpeningEvent
  | .connect (bs :: pending) => .write bs (.connect pending)
  | .connect [] =>
      .read 100 fun bs =>
        .established (Client.codeOf (cString (readDataFromSocket (List.replicate 100 0) bs)))
  | .established code =>
      .emit (.returned code) (if third then .comm (.command commandReceived []) else .ended)
  | .comm s => (thFuncServerComm buffers s).map .comm .applied
  | .ended => .halt

/-- The client is about to read the answer. -/
def OpeningState.waitsForAnswer : OpeningState → Bool
  | .connect [] => true
  | _ => false

/-- The event is one of the Box. -/
def ofBox : OpeningEvent → Bool
  | .handled _ => false
  | .returned _ => true
  | .applied _ => true

def notedByServer (noted : List OpeningEvent) : List OpeningEvent :=
  noted.filter fun e => !ofBox e

def notedByBox (noted : List OpeningEvent) : List OpeningEvent :=
  noted.filter ofBox

/-- The server's end of a connection of a Box. -/
abbrev mediator (users : Users) (servers : BackupServers) (socket : Int32) (told : List Bytes) :
    MediatorState → Library.Request MediatorState OpeningEvent :=
  mediatorThread users servers socket told .handled

/-- A server that has accepted a connection, and a Box that sends its record. -/
def opening (con : Connection) : Duplex MediatorState OpeningState OpeningEvent :=
  Duplex.start (.record []) (.connect (sendLargePayloadToSocket con.bytes))

section Opening

variable {users : Users} {servers : BackupServers} {socket : Int32} {told : List Bytes}
variable {con : Connection} {reply : Reply} {buffers : Client.ReceiveBuffers}
variable {commandReceived : CommandPacket} {third : Bool}

/-- What has been read of an answer is the answer. -/
theorem cString_response (reply : Reply) :
    cString (readDataFromSocket (List.replicate 100 0) reply.bytes) = reply.bytes := by
  cases reply <;> decide

/-- The Box learns the answer, and on the third connection applies what it is told. -/
theorem performs_openConnection {guarded : OpeningState → Bool} {es : List Command}
    {packet : CommandPacket}
    (htold : Consumes (thFuncServerComm buffers) (.command commandReceived []) (solid told) es []
      (.command packet []))
    (hquiet : (third = true ∧ guarded (.connect []) = true) ∨ (solid told = [] ∧ es = [])) :
    ∃ m, Performs (openConnection third buffers commandReceived) .right guarded m
      (mediatorLines con reply.bytes told)
      (.returned (Client.codeOf reply.bytes) :: es.map .applied)
      (.connect (sendLargePayloadToSocket con.bytes)) := by
  obtain ⟨m, hrest⟩ : ∃ m, Performs (openConnection third buffers commandReceived) .right guarded m
      (Lines.by .left (solid told) ++ []) (es.map .applied ++ [])
      (if third then .comm (.command commandReceived []) else .ended) := by
    cases third with
    | true =>
        have hcomm : Consumes (openConnection true buffers commandReceived)
            (.comm (.command commandReceived [])) (solid told) (es.map .applied) []
            (.comm (.command packet [])) := htold.map fun _ => rfl
        have hidle : (openConnection true buffers commandReceived
            (.comm (.command packet []))).perform [] = none := rfl
        exact Performs.consumes hcomm ⟨0, .done hidle⟩
    | false =>
        obtain ⟨hnone, rfl⟩ : solid told = [] ∧ es = [] := hquiet.resolve_left (by simp)
        rw [hnone]
        exact ⟨0, .done rfl⟩
  rw [List.append_nil (es.map _)] at hrest
  have hanswer : Performs (openConnection third buffers commandReceived) .right guarded (m + 2)
      ((Side.right.other, reply.bytes) :: (Lines.by .left (solid told) ++ []))
      (.returned (Client.codeOf reply.bytes) :: es.map .applied) (.connect []) := by
    refine .receive (n := 100) (Server.reply_ne_nil reply) rfl (Or.inr ⟨?_, ?_⟩) ?_
    · cases reply <;> decide
    · rcases hquiet with ⟨-, hguarded⟩ | ⟨hnone, -⟩
      · exact Or.inl hguarded
      · exact Or.inr (by simp [hnone, Lines.by])
    · rw [cString_response]
      exact .emit rfl hrest
  exact Performs.writes (k := OpeningState.connect) (fun _ _ => rfl) _ ⟨_, hanswer⟩

end Opening

/-- What is noted while a connection is opened: the server handles the record that was sent, and the
Box learns whether it is admitted, and applies the commands. -/
structure Opening (con : Connection) (reply : Reply) (cs : List Command)
    (noted : List OpeningEvent) : Prop where
  server : notedByServer noted <+: [.handled con]
  box : notedByBox noted <+: .returned (if reply = .ack then 0 else -1) :: cs.map .applied

/-- All of that has been noted. -/
structure Opened (con : Connection) (reply : Reply) (cs : List Command)
    (noted : List OpeningEvent) : Prop where
  server : notedByServer noted = [.handled con]
  box : notedByBox noted = .returned (if reply = .ack then 0 else -1) :: cs.map .applied

section Runs

variable {users : Users} {servers : BackupServers} {socket : Int32} {told : List Bytes}
variable {con : Connection} {reply : Reply} {buffers : Client.ReceiveBuffers}
variable {commandReceived packet : CommandPacket} {third : Bool} {cs : List Command}
variable {guarded : OpeningState → Bool}

theorem codeOf_bytes (reply : Reply) :
    Client.codeOf reply.bytes = if reply = .ack then 0 else -1 := by
  cases reply <;> decide

/-- An opening in which the answer is read alone, or with nothing behind it. -/
theorem opening_run (hkind : con.packetType ≠ packetServerConn)
    (hreply : (handleUserControllerStructure users servers con socket).bind Server.Handled.reply =
      some reply) (hadmitted : reply = .ack ∨ told = [])
    (htold : Consumes (thFuncServerComm buffers) (.command commandReceived []) (solid told) cs []
      (.command packet []))
    (hquiet : (third = true ∧ guarded (.connect []) = true) ∨ (solid told = [] ∧ cs = [])) :
    ∃ bound, ∀ sides w,
      runWhile (Duplex.step (mediator users servers socket told)
        (openConnection third buffers commandReceived)) (Unmixed guarded) (opening con) sides =
          some w →
      sides.length ≤ bound ∧ Opening con reply cs w.noted ∧
        (w.Stuck (mediator users servers socket told)
            (openConnection third buffers commandReceived) →
          Opened con reply cs w.noted) := by
  obtain ⟨i, hserver⟩ : ∃ i, Performs (mediator users servers socket told) .left
      (fun _ => false) i (mediatorLines con reply.bytes told) [.handled con] (.record []) := by
    refine Server.performs_mediatorThread (Server.reply_ne_nil reply)
      (Server.answer_client hkind hreply) ?_
    by_cases hack : reply = .ack
    · exact Or.inl (if_pos hack)
    · exact Or.inr ⟨if_neg hack, hadmitted.resolve_left hack⟩
  obtain ⟨j, hbox⟩ : ∃ j, Performs (openConnection third buffers commandReceived) .right guarded j
      (mediatorLines con reply.bytes told)
      (.returned (Client.codeOf reply.bytes) :: cs.map .applied)
      (.connect (sendLargePayloadToSocket con.bytes)) := performs_openConnection htold hquiet
  rw [codeOf_bytes] at hbox
  have hseparates : Separates ofBox [.handled con]
      (.returned (if reply = .ack then 0 else -1) :: cs.map OpeningEvent.applied) := by
    refine ⟨by simp [ofBox], List.forall_mem_cons.2 ⟨rfl, fun e he => ?_⟩⟩
    rcases List.mem_map.1 he with ⟨c, _, rfl⟩
    rfl
  obtain ⟨bound, hall⟩ := Performs.together hserver hbox hseparates
  refine ⟨bound, fun sides w hrun => ?_⟩
  obtain ⟨hlength, hnoted, hend⟩ := hall sides w hrun
  exact ⟨hlength, ⟨hnoted.1, hnoted.2⟩, fun hstuck => ⟨(hend hstuck).1, (hend hstuck).2⟩⟩

/-- With nothing behind the answer every order of the steps comes to an end: the server has handled
just the record that was sent, and the Box has learnt whether it was admitted. -/
theorem answer_understood (users : Users) (servers : BackupServers) (socket : Int32)
    (hkind : con.packetType ≠ packetServerConn)
    (hreply : (handleUserControllerStructure users servers con socket).bind Server.Handled.reply =
      some reply) (third : Bool) (buffers : Client.ReceiveBuffers)
    (commandReceived : CommandPacket) :
    ∃ bound, ∀ sides w,
      run (Duplex.step (mediator users servers socket [])
        (openConnection third buffers commandReceived)) (opening con) sides = some w →
      sides.length ≤ bound ∧ Opening con reply [] w.noted ∧
        (w.Stuck (mediator users servers socket [])
            (openConnection third buffers commandReceived) →
          Opened con reply [] w.noted) := by
  have htold : Consumes (thFuncServerComm buffers) (.command commandReceived []) (solid []) [] []
      (.command commandReceived []) := .done _
  have hall : ∃ bound, ∀ sides w,
      runWhile (Duplex.step (mediator users servers socket [])
        (openConnection third buffers commandReceived)) (Unmixed fun _ => false) (opening con)
        sides = some w →
      sides.length ≤ bound ∧ Opening con reply [] w.noted ∧
        (w.Stuck (mediator users servers socket [])
            (openConnection third buffers commandReceived) →
          Opened con reply [] w.noted) :=
    opening_run hkind hreply (Or.inr rfl) htold (Or.inr ⟨rfl, rfl⟩)
  rcases hall with ⟨bound, hall⟩
  refine ⟨bound, fun sides w hrun => hall sides w ?_⟩
  rw [runWhile_eq_run (by simp [Unmixed])]
  exact hrun

end Runs

/-- The third connection of a Box on an empty table. -/
def thirdRequest : Connection :=
  Server.oneLetterRequest 97 1 socketT3

theorem thirdRequest_kind : thirdRequest.packetType ≠ packetServerConn := by
  decide

theorem thirdRequest_admitted :
    (handleUserControllerStructure Server.initiateUserControllerStructure
      Server.initiateBackupServerStructure thirdRequest 5).bind Server.Handled.reply =
      some .ack := by
  decide +kernel

/-- The record, the answer, and its return. -/
def answerSteps : List Side :=
  List.replicate 32 .right ++ List.replicate 34 .left ++ List.replicate 2 .right

theorem answer_understood_thirdRequest :
    ∃ w, run (Duplex.step (mediator Server.initiateUserControllerStructure
          Server.initiateBackupServerStructure 5 [])
        (openConnection true Client.emptyReceiveBuffers emptyPacket)) (opening thirdRequest)
        answerSteps = some w ∧
      notedByServer w.noted = [.handled thirdRequest] ∧ notedByBox w.noted = [.returned 0] := by
  have hrun : (run (Duplex.step (mediator Server.initiateUserControllerStructure
        Server.initiateBackupServerStructure 5 [])
      (openConnection true Client.emptyReceiveBuffers emptyPacket)) (opening thirdRequest)
      answerSteps).any (fun w => w.Stuck (mediator Server.initiateUserControllerStructure
        Server.initiateBackupServerStructure 5 [])
        (openConnection true Client.emptyReceiveBuffers emptyPacket)) = true := by
    decide +kernel
  rcases (Option.any_eq_true _ _).1 hrun with ⟨w, hw, hstuck⟩
  obtain ⟨bound, hall⟩ := answer_understood Server.initiateUserControllerStructure
    Server.initiateBackupServerStructure 5 thirdRequest_kind thirdRequest_admitted true
    Client.emptyReceiveBuffers emptyPacket
  have hopened := (hall _ w hw).2.2 (of_decide_eq_true hstuck)
  exact ⟨w, hw, hopened.server, hopened.box⟩

section Told

variable {con : Connection}

/-- On the third connection the Box applies what it is told from the first command on, in order and
each command once, in every order of the steps in which the answer is read alone. -/
theorem told_from_the_first (users : Users) (servers : BackupServers) (socket : Int32)
    (hkind : con.packetType ≠ packetServerConn)
    (hreply : (handleUserControllerStructure users servers con socket).bind Server.Handled.reply =
      some .ack) (buffers : Client.ReceiveBuffers) (commandReceived : CommandPacket)
    (cs : List (CommandPacket × Server.FileCommand)) (hcs : ∀ c ∈ cs, Notifiable c.2) :
    ∃ writes, cs.mapM (fun c => c.2.notification c.1) = some writes ∧
      ∃ bound, ∀ sides w,
        runWhile (Duplex.step (mediator users servers socket writes.flatten)
          (openConnection true buffers commandReceived)) (Unmixed OpeningState.waitsForAnswer)
          (opening con) sides = some w →
        sides.length ≤ bound ∧ Opening con .ack (cs.map (commandOf ·.2)) w.noted ∧
          (w.Stuck (mediator users servers socket writes.flatten)
              (openConnection true buffers commandReceived) →
            Opened con .ack (cs.map (commandOf ·.2)) w.noted) := by
  obtain ⟨writes, packet, hwrites, htold⟩ :
      ∃ writes packet, cs.mapM (fun c => c.2.notification c.1) = some writes ∧
        Consumes (thFuncServerComm buffers) (.command commandReceived []) (solid writes.flatten)
          (cs.map (commandOf ·.2)) [] (.command packet []) := consumes_notifications hcs
  exact ⟨writes, hwrites, opening_run hkind hreply (Or.inl rfl) htold (Or.inl ⟨rfl, rfl⟩)⟩

end Told

/-- The server writes the deletion, and the Box takes and applies it. -/
def toldSteps : List Side :=
  List.replicate 30 .left ++ List.replicate 31 .right

theorem told_from_the_first_deletion :
    ∃ w, runWhile (Duplex.step (mediator Server.initiateUserControllerStructure
          Server.initiateBackupServerStructure 5 (Server.sendPacket deletionPacket))
        (openConnection true Client.emptyReceiveBuffers emptyPacket))
        (Unmixed OpeningState.waitsForAnswer) (opening thirdRequest) (answerSteps ++ toldSteps) =
          some w ∧
      notedByBox w.noted = [.returned 0, .applied (.delete [])] := by
  have hrun : (runWhile (Duplex.step (mediator Server.initiateUserControllerStructure
        Server.initiateBackupServerStructure 5 (Server.sendPacket deletionPacket))
      (openConnection true Client.emptyReceiveBuffers emptyPacket))
      (Unmixed OpeningState.waitsForAnswer) (opening thirdRequest)
      (answerSteps ++ toldSteps)).any (fun w =>
        w.Stuck (mediator Server.initiateUserControllerStructure
          Server.initiateBackupServerStructure 5 (Server.sendPacket deletionPacket))
        (openConnection true Client.emptyReceiveBuffers emptyPacket)) = true := by
    decide +kernel
  rcases (Option.any_eq_true _ _).1 hrun with ⟨w, hw, hstuck⟩
  obtain ⟨writes, hwrites, bound, hall⟩ := told_from_the_first
    Server.initiateUserControllerStructure Server.initiateBackupServerStructure 5
    thirdRequest_kind thirdRequest_admitted Client.emptyReceiveBuffers emptyPacket
    [(emptyPacket, .delete deletionPacket)] (by simpa using ⟨rfl, by decide⟩)
  obtain rfl : writes = [Server.sendPacket deletionPacket] :=
    Option.some.inj (hwrites.symm.trans rfl)
  have hopened := (hall _ w (by simpa using hw)).2.2 (by simpa using of_decide_eq_true hstuck)
  exact ⟨w, hw, hopened.box⟩

/-- The server writes the deletion before the Box has read the answer. -/
def behindAnswerSteps : List Side :=
  List.replicate 32 .right ++ List.replicate 64 .left ++ List.replicate 8 .right

/-- The read of the answer then takes the first 97 bytes of the deletion, what is left of it is no
command, and the Box never hears of it. -/
theorem told_too_early :
    ∃ w, run (Duplex.step (mediator Server.initiateUserControllerStructure
          Server.initiateBackupServerStructure 5 (Server.sendPacket deletionPacket))
        (openConnection true Client.emptyReceiveBuffers emptyPacket)) (opening thirdRequest)
        behindAnswerSteps = some w ∧
      w.Stuck (mediator Server.initiateUserControllerStructure
        Server.initiateBackupServerStructure 5 (Server.sendPacket deletionPacket))
        (openConnection true Client.emptyReceiveBuffers emptyPacket) ∧
      notedByBox w.noted = [.returned 0] := by
  have hrun : (run (Duplex.step (mediator Server.initiateUserControllerStructure
        Server.initiateBackupServerStructure 5 (Server.sendPacket deletionPacket))
      (openConnection true Client.emptyReceiveBuffers emptyPacket)) (opening thirdRequest)
      behindAnswerSteps).any (fun w =>
        w.Stuck (mediator Server.initiateUserControllerStructure
          Server.initiateBackupServerStructure 5 (Server.sendPacket deletionPacket))
        (openConnection true Client.emptyReceiveBuffers emptyPacket) ∧
          notedByBox w.noted = [.returned 0]) = true := by
    decide +kernel
  rcases (Option.any_eq_true _ _).1 hrun with ⟨w, hw, hboth⟩
  exact ⟨w, hw, of_decide_eq_true hboth⟩

end Box
end DropboxSimulator
