import DropboxSimulator.Client.Session
import DropboxSimulator.Library.Relay
import DropboxSimulator.Library.Turns

/-!
# SendFile — one upload from its first byte to its last

`Client::sendFile` at one end of a connection and the command loop with `uploadFileCommand` at the
other.  A single upload is a conversation in turns: the client waits for an answer to all but the
content, so the server never finds a part of a file together with the next, and the file ends up in
the directory of the user as it was sent.

`prepareFilePacket` copies the name of the file into memory of the size of its content.  Where the
content is not longer than the name, that is past the end of the memory, and nothing more is said
about the client; the server has by then begun to wait for the file.
-/

namespace DropboxSimulator
namespace Client

open Library
open Server (Executed LoopState Buffers terminalThreadFunction ackBytes_ne_nil)

/-- A file to send: its name is one of 1 to 49 bytes without NUL and `/`. -/
structure FileToSend where
  fileName : Bytes
  fileContent : Bytes
  length_name : 0 < fileName.length ∧ fileName.length < 50
  bytes_name : ∀ b ∈ fileName, b ≠ 0 ∧ b ≠ 47
  length_content : fileContent.length < 2 ^ 31

/-- The files of a user's directory. -/
abbrev Directory := Bytes → Option Bytes

/-- What a command does to the directory of the user. -/
def changeDirectory : Executed → Directory → Directory
  | .upload fileName payload, files => Function.update files fileName (some payload)
  | .delete fileName, files => Function.update files fileName none
  | .listServer, files => files
  | .exit, files => files

/-- A client that sends one file and the command loop. -/
def sending (stale : CommandPacket) (file : FileToSend) :
    Duplex (List Action) LoopState Executed :=
  session [(stale, .upload file.fileName file.fileContent)]

/-- `sendFile` has returned and the loop waits for a command. -/
def Finished (w : Duplex (List Action) LoopState Executed) : Prop :=
  w.left = [] ∧ w.right = .command []

/-- Every order of the steps comes to an end, and only there is neither side able to go on; then the
server has stored the file and has read everything. -/
def Completes (buffers : Buffers) (stale : CommandPacket) (file : FileToSend) : Prop :=
  ∃ bound, ∀ sides w,
    run (Duplex.step script (terminalThreadFunction buffers)) (sending stale file) sides = some w →
    sides.length ≤ bound ∧
      (w.Stuck script (terminalThreadFunction buffers) → Finished w) ∧
      (Finished w → w.toRight.unread = [] ∧
        ∀ files : Directory, applyAll changeDirectory w.noted files =
          Function.update files file.fileName (some file.fileContent))

section Sending

variable {buffers : Buffers} {stale : CommandPacket} {file : FileToSend}
variable {tail acts : List Action} {final s : LoopState} {m n : Nat}

/-- The packet of an upload and its acknowledgement. -/
theorem holds_packet (packet : CommandPacket) (hcommand : packet.command = cmdUpload)
    (h : Holds (terminalThreadFunction buffers) tail final n .fileType acts) :
    ∃ n', Holds (terminalThreadFunction buffers) tail final n' (.command [])
      ((DropboxSimulator.sendLargePayloadToSocket packet.bytes).map .write ++ .read 8 :: acts) := by
  rcases (Server.consumes_packet buffers packet).absorbs with ⟨m, habs⟩
  have hdispatch : LoopState.dispatch packet.bytes = .fileType := by
    rw [dispatch_bytes, if_pos hcommand]
  have hanswer : terminalThreadFunction buffers (.commandAck packet.bytes) =
      .write ackBytes .fileType := by
    rw [← hdispatch]
    rfl
  exact ⟨_, .turn habs hanswer ⟨8, _, rfl, by norm_num⟩ ackBytes_ne_nil (by decide) h⟩

/-- A part of the file that is sent with one write, and its acknowledgement. -/
theorem holds_part {part : Bytes} {k : Nat} {next : Bytes → LoopState} {t : LoopState}
    (hpart : part ≠ []) (hs : terminalThreadFunction buffers s = .read k next)
    (hk : part.length ≤ k)
    (ht : terminalThreadFunction buffers (next part) = .write ackBytes t)
    (hrest : Resting (terminalThreadFunction buffers) t)
    (h : Holds (terminalThreadFunction buffers) tail final n t acts) :
    ∃ n', Holds (terminalThreadFunction buffers) tail final n' s
      (.write part :: .read 8 :: acts) := by
  have habs : Absorbs (terminalThreadFunction buffers) 1 s [part] (next part) :=
    .read hpart hs (Or.inr ⟨hk, rfl⟩) (.done _)
  exact ⟨_, .turn habs ht hrest ackBytes_ne_nil (by decide) h⟩

/-- The server answers each part of the file, and has it all in the end. -/
theorem holds_sendFile (buffers : Buffers) (stale : CommandPacket)
    (hroom : file.fileName.length < file.fileContent.length) :
    ∃ n, Holds (terminalThreadFunction buffers) [] (.payloadAck file.fileName file.fileContent) n
      (.command []) (sendFile stale file.fileName file.fileContent) := by
  have hlen := file.length_content
  have hname : ∀ b ∈ file.fileName, b ≠ 0 := fun b hb => (file.bytes_name b hb).1
  have hne : file.fileName ≠ [] := List.length_pos_iff.1 file.length_name.1
  have hcontent : file.fileContent ≠ [] := List.length_pos_iff.1 (by omega)
  have hprepare : prepareFilePacket file.fileName file.fileContent = some _ := if_pos hroom
  -- the content, chunk by chunk
  have hconsumes := Server.consumes_content buffers file.fileName hlen
  rw [solid_sendLargePayloadToSocket hlen hcontent] at hconsumes
  rcases hconsumes.absorbs with ⟨m, habs⟩
  have hlast : Holds (terminalThreadFunction buffers) []
      (.payloadAck file.fileName file.fileContent) _
      (.payload file.fileContent.length file.fileName []) _ := .last habs
  rw [List.append_nil] at hlast
  -- the name, the size and the type, each acknowledged
  have hrest : Resting (terminalThreadFunction buffers)
      (.payload file.fileContent.length file.fileName []) :=
    ⟨_, _, readLargePayloadFromSocket_eq hlen (by simp), by
      simp only [bufferSize, List.length_nil]
      omega⟩
  have hread := payloadSizeOf_uint64Bytes hlen buffers.fileSizeBuffer.property
  have hnames : terminalThreadFunction buffers (.fileNameAck file.fileContent.length
      (cString (readDataFromSocket buffers.fileNameBuffer file.fileName))) =
        .write ackBytes (.payload file.fileContent.length file.fileName []) := by
    rw [Server.cString_fileNameBuffer (by have := file.length_name.2; omega) hname]
    rfl
  have hsizes : terminalThreadFunction buffers (.fileSizeAck (payloadSizeOf (readDataFromSocket
      buffers.fileSizeBuffer.val (uint64Bytes (UInt64.ofNat file.fileContent.length))))) =
        .write ackBytes (.fileName file.fileContent.length) := by
    rw [hread]
    rfl
  rcases holds_part (s := .fileName file.fileContent.length) hne rfl
    (by have := file.length_name.2; omega) hnames hrest hlast with ⟨n₁, h₁⟩
  rcases holds_part (s := .fileSize) (uint64Bytes_ne_nil _) rfl (by simp) hsizes
    ⟨100, _, rfl, by norm_num⟩ h₁ with ⟨n₂, h₂⟩
  rcases holds_part (s := .fileType) (uint64Bytes_ne_nil packetFile) rfl (by simp) rfl
    ⟨8, _, rfl, by norm_num⟩ h₂ with ⟨n₃, h₃⟩
  rcases holds_packet { stale with packetType := packetCmd, command := cmdUpload } rfl h₃ with
    ⟨n₄, h₄⟩
  refine ⟨n₄, ?_⟩
  rw [sendFile, hprepare]
  exact h₄

/-- The loop is about to read a command, or has read it. -/
def ReadsCommand : LoopState → Prop
  | .command _ | .commandAck _ | .ended => True
  | _ => False

theorem readsCommand_payload {size : Nat} {got : Bytes} {k : Bytes → LoopState}
    (h : (DropboxSimulator.readLargePayloadFromSocket size got .command .commandAck .ended :
      Request LoopState Executed) = .read n k) (bs : Bytes) : ReadsCommand (k bs) := by
  simp only [DropboxSimulator.readLargePayloadFromSocket, Request.read.injEq] at h
  have hk := congrFun h.2 bs
  split at hk
  · rw [← hk]
    exact True.intro
  · split at hk <;> rw [← hk] <;> exact True.intro

/-- A read of the loop leaves it with its command. -/
theorem readsCommand_read {k : Bytes → LoopState} (hs : ReadsCommand s)
    (hnext : terminalThreadFunction buffers s = .read n k) (bs : Bytes) :
    ReadsCommand (k bs) := by
  cases s with
  | command got =>
      exact readsCommand_payload hnext bs
  | commandAck packet =>
      cases hnext
  | ended =>
      cases hnext
  | _ =>
      cases hs

theorem readsCommand_of_absorbs {block : List Bytes} {t : LoopState}
    (h : Absorbs (terminalThreadFunction buffers) m s block t) (hs : ReadsCommand s) :
    ReadsCommand t := by
  induction h with
  | done s =>
      exact hs
  | read hc hnext hn _ ih =>
      exact ih (readsCommand_read hs hnext _)
  | skip hnext _ ih =>
      exact ih (readsCommand_read hs hnext _)

/-- Where both sides are through, the file has been noted and nothing is left to read. -/
theorem conversing_finished {w : Duplex (List Action) LoopState Executed} {es : List Executed}
    (h : Conversing (terminalThreadFunction buffers) []
      (.payloadAck file.fileName file.fileContent) (.command []) w n es) (hw : Finished w) :
    es = [] ∧ w.toRight.unread = [] := by
  rcases hw with ⟨hleft, hright⟩
  cases h with
  | asking hl hunread hnone habs hs hu hne hk hrest hcon =>
      simp [hl] at hleft
  | answered hl hanswer hk hnone hr hrest hcon =>
      simp [hl] at hleft
  | last hl hunread habs hcon =>
      -- the loop would have to come from its command to the content without an answer
      rw [hright] at habs
      exact (readsCommand_of_absorbs habs trivial).elim
  | concluding hl hnone hcon =>
      rw [hright] at hcon
      cases hcon with
      | rest ht =>
          exact ⟨rfl, hnone⟩
      | write hs h =>
          cases hs
      | emit hs h =>
          cases hs

theorem concludes_upload :
    Concludes (terminalThreadFunction buffers) 2 (.payloadAck file.fileName file.fileContent)
      [.upload file.fileName file.fileContent] (.command []) :=
  .write rfl (.emit rfl (.rest ⟨4, _, readLargePayloadFromSocket_eq
    (by norm_num [commandPacketSize]) (by simp), by norm_num⟩))

theorem sending_left :
    (sending stale file).left = sendFile stale file.fileName file.fileContent := by
  simp [sending, session, Duplex.start, issue, ClientCommand.actions]

theorem completes_of_room (hroom : file.fileName.length < file.fileContent.length) :
    Completes buffers stale file := by
  rcases holds_sendFile buffers stale hroom with ⟨n, hholds⟩
  rw [← sending_left] at hholds
  have hstart := Holds.conversing (w := sending stale file) hholds concludes_upload rfl rfl
  refine ⟨n + 2, ?_⟩
  intro sides w hrun
  rcases hstart.run rfl hrun with ⟨n', es, hn, hnoted, hw⟩
  refine ⟨by omega, ?_, ?_⟩
  · intro hstuck
    rcases hw.stuck hstuck with ⟨hleft, hright, _⟩
    exact ⟨hleft, hright⟩
  · intro hfinished
    rcases conversing_finished hw hfinished with ⟨rfl, hunread⟩
    rw [List.append_nil] at hnoted
    refine ⟨hunread, fun files => ?_⟩
    rw [← hnoted]
    rfl

/-- Without room for the name the client does not get past the acknowledgement of its command. -/
theorem not_completes_of_no_room (hroom : ¬file.fileName.length < file.fileContent.length) :
    ¬Completes buffers stale file := by
  rintro ⟨bound, hall⟩
  have hprepare : prepareFilePacket file.fileName file.fileContent = none := if_neg hroom
  have hlast : Holds (terminalThreadFunction buffers) [.stop] .fileType _ .fileType
      ([].map .write ++ [.stop]) := .last (.done _)
  rcases holds_packet { stale with packetType := packetCmd, command := cmdUpload } rfl hlast with
    ⟨n, hholds⟩
  have hleft : (sending stale file).left =
      (DropboxSimulator.sendLargePayloadToSocket
        { stale with packetType := packetCmd, command := cmdUpload : CommandPacket }.bytes).map
          .write ++ .read 8 :: ([].map .write ++ [.stop]) := by
    rw [sending_left, sendFile, hprepare]
    rfl
  rw [← hleft] at hholds
  have hstart := Holds.conversing (w := sending stale file) hholds
    (.rest ⟨8, _, rfl, by norm_num⟩) rfl rfl
  rcases hstart.exists_stuck rfl with ⟨sides, w, hrun, hstuck⟩
  rcases hstart.run rfl hrun with ⟨n', es, _, _, hw⟩
  have hstopped : w.left = [.stop] := (hw.stuck hstuck).1
  -- a client that has stopped has not returned from `sendFile`
  have hfinished := ((hall sides w hrun).2.1 hstuck).1
  rw [hstopped] at hfinished
  cases hfinished

/-- One upload completes, in every order of the steps, if and only if its content is longer than its
name. -/
theorem sendFile_completes_iff (buffers : Buffers) (stale : CommandPacket) (file : FileToSend) :
    Completes buffers stale file ↔ file.fileName.length < file.fileContent.length := by
  constructor
  · intro h
    by_contra hroom
    exact not_completes_of_no_room hroom h
  · exact completes_of_room

/-- A file of one byte with a name of 49. -/
def oneByteFile : FileToSend where
  fileName := List.replicate 49 97
  fileContent := [7]
  length_name := by decide
  bytes_name := by simp
  length_content := by decide

/-- The client stops before it has sent anything of the file, and the server waits for it. -/
theorem oneByteFile_stuck :
    ∃ sides w, run (Duplex.step script (terminalThreadFunction clearBuffers))
        (sending emptyPacket oneByteFile) sides = some w ∧
      w.Stuck script (terminalThreadFunction clearBuffers) ∧ ¬Finished w := by
  have hrun : (run (Duplex.step script (terminalThreadFunction clearBuffers))
      (sending emptyPacket oneByteFile) (List.replicate 30 .left ++ List.replicate 31 .right ++
        [.left])).any (fun w => w.Stuck script (terminalThreadFunction clearBuffers) ∧
          w.left.length = 1) = true := by
    decide +kernel
  rcases (Option.any_eq_true _ _).1 hrun with ⟨w, hw, hboth⟩
  rcases of_decide_eq_true hboth with ⟨hstuck, hlength⟩
  refine ⟨_, w, hw, hstuck, ?_⟩
  rintro ⟨hleft, _⟩
  rw [hleft] at hlength
  cases hlength

end Sending

end Client
end DropboxSimulator
