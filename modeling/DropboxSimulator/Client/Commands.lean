import DropboxSimulator.Library.Duplex
import DropboxSimulator.Transfer

/-!
# Commands — what a client writes for its commands, and where it waits

`Client::sendFile`, `deleteFile` and `list_server` as scripts.  `waitForSocketAck` is one read of
at most eight bytes that are not looked at, so what a client does never depends on what it reads.
After the content of a file `sendFilePacket` does not wait for the last acknowledgement.
-/

namespace DropboxSimulator
namespace Client

open Library

/-- `filePacket`. -/
structure FilePacket where
  packetType : UInt64
  fileSize : UInt64
  fileName : Bytes
  payload : Bytes

/-- `waitForSocketAck`. -/
def waitForSocketAck : Action :=
  .read 8

/-- `sendDataToSocket`. -/
def sendDataToSocket : Bytes → Action :=
  .write

/-- `sendLargePayloadToSocket`, with the loop that the server has too. -/
def sendLargePayloadToSocket (data : Bytes) : List Action :=
  (DropboxSimulator.sendLargePayloadToSocket data).map sendDataToSocket

/-- `prepareFilePacket`.  The name is copied into `malloc(size)`, with `size` the size of the file;
`none` where the copy goes past its end. -/
def prepareFilePacket (fileName fileContent : Bytes) : Option FilePacket :=
  if fileName.length < fileContent.length then
    some
      { packetType := packetFile
        fileSize := UInt64.ofNat fileContent.length
        fileName := fileName
        payload := fileContent }
  else
    none

/-- `sendFilePacket`. -/
def sendFilePacket (packet : FilePacket) : List Action :=
  sendDataToSocket (uint64Bytes packet.packetType) :: waitForSocketAck ::
    sendDataToSocket (uint64Bytes packet.fileSize) :: waitForSocketAck ::
      sendDataToSocket packet.fileName :: waitForSocketAck ::
        sendLargePayloadToSocket packet.payload

theorem sendFilePacket_eq (packet : FilePacket) :
    sendFilePacket packet =
      .write (uint64Bytes packet.packetType) :: .read 8 ::
        .write (uint64Bytes packet.fileSize) :: .read 8 ::
          .write packet.fileName :: .read 8 ::
            (DropboxSimulator.sendLargePayloadToSocket packet.payload).map .write := by
  unfold sendFilePacket sendLargePayloadToSocket sendDataToSocket waitForSocketAck
  rfl

/-- `sendFile`.  The name field of the command packet is what the stack held. -/
def sendFile (stale : CommandPacket) (fileName fileContent : Bytes) : List Action :=
  let commandPacket := { stale with packetType := packetCmd, command := cmdUpload }
  sendLargePayloadToSocket commandPacket.bytes ++ waitForSocketAck ::
    match prepareFilePacket fileName fileContent with
    | some packet => sendFilePacket packet
    | none => [.stop]

/-- `deleteFile`. -/
def deleteFile (stale : CommandPacket) (fileName : Bytes) : List Action :=
  match stale.additionalInfo.strcpy fileName with
  | some info =>
      let commandPacket :=
        { stale with packetType := packetCmd, command := cmdDelete, additionalInfo := info }
      sendLargePayloadToSocket commandPacket.bytes ++ [waitForSocketAck]
  | none => [.stop]

/-- `list_server`. -/
def listServer (stale : CommandPacket) : List Action :=
  let commandPacket := { stale with packetType := packetCmd, command := cmdListServer }
  sendLargePayloadToSocket commandPacket.bytes ++ [waitForSocketAck]

/-- A command that a client issues. -/
inductive ClientCommand
  | upload (fileName fileContent : Bytes)
  | delete (fileName : Bytes)
  | listServer
  deriving DecidableEq

namespace ClientCommand

/-- What the client does for a command, with what its stack holds before. -/
def actions (stale : CommandPacket) : ClientCommand → List Action
  | .upload fileName fileContent => sendFile stale fileName fileContent
  | .delete fileName => deleteFile stale fileName
  | .listServer => Client.listServer stale

/-- File names are C strings of 1 to 49 bytes, and contents are shorter than `2 ^ 31`. -/
def Valid : ClientCommand → Prop
  | .upload fileName fileContent =>
      (0 < fileName.length ∧ fileName.length < 50) ∧ (∀ b ∈ fileName, b ≠ 0) ∧
        fileContent.length < 2 ^ 31
  | .delete fileName => fileName.length < 50 ∧ ∀ b ∈ fileName, b ≠ 0
  | .listServer => True

/-- `prepareFilePacket` has room for the name. -/
def HasRoom : ClientCommand → Prop
  | .upload fileName fileContent => fileName.length < fileContent.length
  | _ => True

instance : DecidablePred Valid := fun c =>
  match c with
  | .upload fileName fileContent =>
      inferInstanceAs (Decidable ((0 < fileName.length ∧ fileName.length < 50) ∧
        (∀ b ∈ fileName, b ≠ 0) ∧ fileContent.length < 2 ^ 31))
  | .delete fileName =>
      inferInstanceAs (Decidable (fileName.length < 50 ∧ ∀ b ∈ fileName, b ≠ 0))
  | .listServer => inferInstanceAs (Decidable True)

instance : DecidablePred HasRoom := fun c =>
  match c with
  | .upload fileName fileContent =>
      inferInstanceAs (Decidable (fileName.length < fileContent.length))
  | .delete _ | .listServer => inferInstanceAs (Decidable True)

end ClientCommand

/-- The script of a client that issues commands one after another. -/
def issue (commands : List (CommandPacket × ClientCommand)) : List Action :=
  commands.flatMap fun issued => issued.2.actions issued.1

end Client
end DropboxSimulator
