import DropboxSimulator.Library.Duplex
import DropboxSimulator.Transfer

/-!
# CommandLoop — how a command thread reads the commands of its client

`terminalThreadFunction` and `iNotifyThreadFunction` are the same loop: it reads a command packet,
acknowledges it and goes by its command; `uploadFileCommand` reads on, with an acknowledgement
after each part.  What a command does beyond its connection is noted as an event (`Executed`).

Every read of the loop asks for as much as one write of the client holds, except that of a file
name, which asks for 100 bytes and takes what is there (`readsName`).
-/

namespace DropboxSimulator
namespace Server

open Library

/-- A command that a command thread executes, with what it has read of it. -/
inductive Executed
  | upload (fileName payload : Bytes)
  | delete (fileName : Bytes)
  | listServer
  | exit
  deriving DecidableEq

/-- Where the loop stands.  The answer to `DOWNLOAD` is not part of it. -/
inductive LoopState
  | command (got : Bytes)
  | commandAck (packet : Bytes)
  | fileType
  | fileTypeAck
  | fileSize
  | fileSizeAck (payloadSize : Nat)
  | fileName (payloadSize : Nat)
  | fileNameAck (payloadSize : Nat) (fileName : Bytes)
  | payload (payloadSize : Nat) (fileName got : Bytes)
  | payloadAck (fileName payload : Bytes)
  | execute (e : Executed)
  | download (fileName : Bytes)
  | ended

/-- What the buffers of `uploadFileCommand` hold before they are read into, as far as the code
leaves it open. -/
structure Buffers where
  fileSizeBuffer : CharArray 8
  fileNameEnd : UInt8

/-- `fileNameBuffer`, of which all but the last byte are cleared. -/
def Buffers.fileNameBuffer (buffers : Buffers) : Bytes :=
  List.replicate 99 0 ++ [buffers.fileNameEnd]

/-- The `switch` on a command packet that has been read. -/
def LoopState.dispatch (bs : Bytes) : LoopState :=
  if h : bs.length = commandPacketSize then
    let command := CommandPacket.ofBytes bs h
    if command.command = cmdUpload then
      .fileType
    else if command.command = cmdDownload then
      .download command.additionalInfo.string
    else if command.command = cmdDelete then
      .execute (.delete command.additionalInfo.string)
    else if command.command = cmdListServer then
      .execute .listServer
    else if command.command = cmdExit then
      .execute .exit
    else
      .command []
  else
    .ended

/-- The command loop on its connection. -/
def terminalThreadFunction (buffers : Buffers) : LoopState → Request LoopState Executed
  | .command got =>
      readLargePayloadFromSocket commandPacketSize got .command .commandAck .ended
  | .commandAck packet => writeAckIntoSocket (.dispatch packet)
  -- what is read as the packet type is not looked at
  | .fileType => .read 8 fun _ => .fileTypeAck
  | .fileTypeAck => writeAckIntoSocket .fileSize
  | .fileSize =>
      .read 8 fun bs =>
        .fileSizeAck (payloadSizeOf (readDataFromSocket buffers.fileSizeBuffer.val bs))
  | .fileSizeAck payloadSize => writeAckIntoSocket (.fileName payloadSize)
  | .fileName payloadSize =>
      .read 100 fun bs =>
        .fileNameAck payloadSize (cString (readDataFromSocket buffers.fileNameBuffer bs))
  | .fileNameAck payloadSize fileName => writeAckIntoSocket (.payload payloadSize fileName [])
  | .payload payloadSize fileName got =>
      readLargePayloadFromSocket payloadSize got (.payload payloadSize fileName)
        (.payloadAck fileName) .ended
  | .payloadAck fileName payload => writeAckIntoSocket (.execute (.upload fileName payload))
  -- `EXIT` ends the thread, every other command comes back for the next
  | .execute e => .emit e (if e = .exit then .ended else .command [])
  | .download _ => .halt
  | .ended => .halt

/-- The loop for the inotify connection. -/
abbrev iNotifyThreadFunction :=
  terminalThreadFunction

/-- The loop is about to read a file name. -/
def LoopState.readsName : LoopState → Bool
  | .fileName _ => true
  | _ => false

/-! ## Answering a client -/

section Answering

variable {buffers : Buffers} {acts : List Action} {es : List Executed}

theorem ackBytes_ne_nil : ackBytes ≠ [] := by
  decide

/-- The bytes of a name of fewer than 99 bytes are read as the name. -/
theorem cString_fileNameBuffer {name : Bytes} (hlen : name.length < 99)
    (hname : ∀ b ∈ name, b ≠ 0) :
    cString (readDataFromSocket buffers.fileNameBuffer name) = name := by
  obtain ⟨n, hn⟩ : ∃ n, 99 - name.length = n + 1 := ⟨98 - name.length, by omega⟩
  have hdrop : buffers.fileNameBuffer.drop name.length =
      0 :: (List.replicate n 0 ++ [buffers.fileNameEnd]) := by
    rw [Buffers.fileNameBuffer, List.drop_append_of_le_length (by simp; omega),
      List.drop_replicate, hn]
    rfl
  -- behind the name the buffer still has a zero
  rw [readDataFromSocket, hdrop]
  exact cString_append_nul hname

/-- The loop reads a command packet chunk by chunk. -/
theorem consumes_packet (buffers : Buffers) (packet : CommandPacket) :
    Consumes (terminalThreadFunction buffers) (.command [])
      (sendLargePayloadToSocket packet.bytes) [] [] (.commandAck packet.bytes) := by
  have hconsumes : Consumes (terminalThreadFunction buffers) (.command [])
      (solid (sendLargePayloadToSocket packet.bytes)) [] [] (.commandAck packet.bytes) :=
    consumes_sendLargePayloadToSocket LoopState.command .commandAck (fun _ => .ended)
      packet.length_bytes_lt fun got _ => by
        rw [packet.length_bytes]
        rfl
  rwa [solid_sendLargePayloadToSocket packet.length_bytes_lt packet.bytes_ne_nil] at hconsumes

/-- It reads the content of a file so too; of an empty one nothing is on the stream. -/
theorem consumes_content (buffers : Buffers) (name : Bytes) {payload : Bytes}
    (hlen : payload.length < 2 ^ 31) :
    Consumes (terminalThreadFunction buffers) (.payload payload.length name [])
      (solid (sendLargePayloadToSocket payload)) [] [] (.payloadAck name payload) :=
  consumes_sendLargePayloadToSocket (LoopState.payload payload.length name) (.payloadAck name)
    (fun _ => .ended) hlen fun _ _ => rfl

/-- The client sends a command packet and waits for its acknowledgement. -/
theorem leads_packet (packet : CommandPacket)
    (h : Leads (terminalThreadFunction buffers) LoopState.readsName (.dispatch packet.bytes) acts
      es) :
    Leads (terminalThreadFunction buffers) LoopState.readsName (.command [])
      ((sendLargePayloadToSocket packet.bytes).map .write ++ .read 8 :: acts) es := by
  rcases (consumes_packet buffers packet).takes with ⟨m, htakes⟩
  exact .exchanges htakes sendLargePayloadToSocket_ne_nil ackBytes_ne_nil rfl (by norm_num) h

/-- The client sends a number and waits for its acknowledgement. -/
theorem leads_number {s t : LoopState} {k : Bytes → LoopState} (x : UInt64)
    (hs : terminalThreadFunction buffers s = .read 8 k)
    (hk : terminalThreadFunction buffers (k (uint64Bytes x)) = writeAckIntoSocket t)
    (h : Leads (terminalThreadFunction buffers) LoopState.readsName t acts es) :
    Leads (terminalThreadFunction buffers) LoopState.readsName s
      (.write (uint64Bytes x) :: .read 8 :: acts) es := by
  have htakes : Takes (terminalThreadFunction buffers) LoopState.readsName 2 s [uint64Bytes x] []
      [ackBytes] t :=
    -- eight bytes are read whatever else has arrived
    .read (uint64Bytes_ne_nil x) hs (Or.inl (by simp)) (.write ackBytes_ne_nil hk (.done t))
  exact .exchange ⟨8, k, hs, by norm_num⟩ htakes (by simp) (by norm_num) h

/-- The client sends a file name and waits for its acknowledgement. -/
theorem leads_fileName {payloadSize : Nat} {name : Bytes} (hne : name ≠ [])
    (hlen : name.length < 99) (hname : ∀ b ∈ name, b ≠ 0)
    (h : Leads (terminalThreadFunction buffers) LoopState.readsName (.payload payloadSize name [])
      acts es) :
    Leads (terminalThreadFunction buffers) LoopState.readsName (.fileName payloadSize)
      (.write name :: .read 8 :: acts) es := by
  have htakes : Takes (terminalThreadFunction buffers) LoopState.readsName 2
      (.fileName payloadSize) [name] [] [ackBytes] (.payload payloadSize name []) := by
    -- the read asks for more than the name, so the name has to be there alone
    refine .read hne rfl (Or.inr ⟨rfl, by omega⟩) (.write ackBytes_ne_nil ?_ (.done _))
    rw [cString_fileNameBuffer hlen hname]
    rfl
  exact .exchange ⟨100, _, rfl, by norm_num⟩ htakes (by simp) (by norm_num) h

/-- The client sends the content of a file and goes on. -/
theorem leads_payload {name payload : Bytes} (hlen : payload.length < 2 ^ 31)
    (h : Leads (terminalThreadFunction buffers) LoopState.readsName (.command []) acts es) :
    Leads (terminalThreadFunction buffers) LoopState.readsName (.payload payload.length name [])
      ((sendLargePayloadToSocket payload).map .write ++ acts) (.upload name payload :: es) := by
  rcases (consumes_content buffers name hlen).takes with ⟨m, htakes⟩
  have hend : Takes (terminalThreadFunction buffers) LoopState.readsName 2
      (.payloadAck name payload) [] [.upload name payload] [ackBytes] (.command []) :=
    .write ackBytes_ne_nil rfl (.emit rfl (.done _))
  have hall := Leads.writes (htakes.trans hend) h
  -- an empty content is one empty write, which does not reach the loop
  by_cases hpayload : payload = []
  · subst hpayload
    exact .skip hall
  · rw [solid_sendLargePayloadToSocket hlen hpayload] at hall
    simpa using hall

end Answering

end Server
end DropboxSimulator
