import DropboxSimulator.Client.Commands
import DropboxSimulator.Server.CommandLoop

/-!
# Session — a client and its command thread

A client issues commands on one connection and the command loop of the server executes them.  The
client counts acknowledgements by its reads, of which each takes up to eight bytes, and leaves the
last one of an upload unread; so it can run ahead of the server, and then the server may read a
file name together with what follows it.  As long as every file name is read alone, the loop
executes just the commands that the client issues (`executes_issued`).
-/

namespace DropboxSimulator
namespace Client

open Library
open Server (Executed LoopState Buffers terminalThreadFunction)

/-- What the server is to execute for a command. -/
def ClientCommand.executed : ClientCommand → Executed
  | .upload fileName fileContent => .upload fileName fileContent
  | .delete fileName => .delete fileName
  | .listServer => .listServer

/-- A client at the start of its commands and the command loop. -/
def session (commands : List (CommandPacket × ClientCommand)) :
    Duplex (List Action) LoopState Executed :=
  Duplex.start (issue commands) (.command [])

section Session

variable {buffers : Buffers} {acts : List Action} {es : List Executed}

theorem dispatch_bytes (packet : CommandPacket) :
    LoopState.dispatch packet.bytes =
      if packet.command = cmdUpload then .fileType
      else if packet.command = cmdDownload then .download packet.additionalInfo.string
      else if packet.command = cmdDelete then .execute (.delete packet.additionalInfo.string)
      else if packet.command = cmdListServer then .execute .listServer
      else if packet.command = cmdExit then .execute .exit
      else .command [] := by
  simp only [LoopState.dispatch, CommandPacket.length_bytes, dif_pos,
    CommandPacket.ofBytes_bytes]

/-- A command is executed and the loop goes on. -/
theorem leads_execute {e : Executed} (hexit : e ≠ .exit)
    (h : Leads (terminalThreadFunction buffers) LoopState.readsName (.command []) acts es) :
    Leads (terminalThreadFunction buffers) LoopState.readsName (.execute e) acts (e :: es) := by
  have htakes : Takes (terminalThreadFunction buffers) LoopState.readsName 1 (.execute e) [] [e] []
      (.command []) := by
    refine .emit (k := .command []) ?_ (.done _)
    simp [terminalThreadFunction, hexit]
  exact .of_takes htakes h

/-- The loop reads the parts of a file and executes the upload. -/
theorem leads_sendFilePacket {packet : FilePacket}
    (hlen : 0 < packet.fileName.length ∧ packet.fileName.length < 50)
    (hname : ∀ b ∈ packet.fileName, b ≠ 0) (hpayload : packet.payload.length < 2 ^ 31)
    (hsize : packet.fileSize = UInt64.ofNat packet.payload.length)
    (h : Leads (terminalThreadFunction buffers) LoopState.readsName (.command []) acts es) :
    Leads (terminalThreadFunction buffers) LoopState.readsName .fileType
      (sendFilePacket packet ++ acts) (.upload packet.fileName packet.payload :: es) := by
  have hcontent : Leads (terminalThreadFunction buffers) LoopState.readsName
      (.payload packet.payload.length packet.fileName [])
      ((DropboxSimulator.sendLargePayloadToSocket packet.payload).map .write ++ acts)
      (.upload packet.fileName packet.payload :: es) := Server.leads_payload hpayload h
  -- the name, then the acknowledgement that the content waits for
  have hnames := Server.leads_fileName (List.length_pos_iff.1 hlen.1) (by omega) hname hcontent
  have hread := payloadSizeOf_uint64Bytes hpayload buffers.fileSizeBuffer.property
  rw [← hsize] at hread
  have hsizes : Leads (terminalThreadFunction buffers) LoopState.readsName .fileSize
      (.write (uint64Bytes packet.fileSize) :: .read 8 :: .write packet.fileName :: .read 8 ::
        ((DropboxSimulator.sendLargePayloadToSocket packet.payload).map .write ++ acts))
      (.upload packet.fileName packet.payload :: es) := by
    refine Server.leads_number packet.fileSize rfl ?_ hnames
    rw [hread]
    rfl
  rw [sendFilePacket_eq]
  exact Server.leads_number packet.packetType rfl rfl hsizes

/-- The loop answers what a client does for a command, and executes it. -/
theorem leads_command (stale : CommandPacket) {c : ClientCommand} (hvalid : c.Valid)
    (hroom : c.HasRoom)
    (h : Leads (terminalThreadFunction buffers) LoopState.readsName (.command []) acts es) :
    Leads (terminalThreadFunction buffers) LoopState.readsName (.command [])
      (c.actions stale ++ acts) (c.executed :: es) := by
  cases c with
  | upload fileName fileContent =>
      rcases hvalid with ⟨hlen, hname, hcontent⟩
      have hprepare : prepareFilePacket fileName fileContent = some _ := if_pos hroom
      rw [ClientCommand.actions, sendFile, hprepare, List.append_assoc]
      refine Server.leads_packet _ ?_
      rw [dispatch_bytes, if_pos rfl]
      exact leads_sendFilePacket hlen hname hcontent rfl h
  | delete fileName =>
      rcases hvalid with ⟨hlen, hname⟩
      -- 49 characters and a terminator fit into the hundred of the packet
      have hfits : (stale.additionalInfo.strcpy fileName).isSome :=
        CharArray.strcpy_isSome_iff.2 (by omega)
      rcases Option.isSome_iff_exists.1 hfits with ⟨info, hinfo⟩
      have hstring := CharArray.string_of_strcpy hname hinfo
      have hexecute := leads_execute (e := .delete fileName) (by simp) h
      simp only [ClientCommand.actions, deleteFile, hinfo, List.append_assoc]
      refine Server.leads_packet _ ?_
      rw [dispatch_bytes, if_neg (show cmdDelete ≠ cmdUpload by decide),
        if_neg (show cmdDelete ≠ cmdDownload by decide), if_pos rfl, hstring]
      exact hexecute
  | listServer =>
      have hexecute := leads_execute (e := .listServer) (by simp) h
      simp only [ClientCommand.actions, listServer, List.append_assoc]
      refine Server.leads_packet _ ?_
      rw [dispatch_bytes, if_neg (show cmdListServer ≠ cmdUpload by decide),
        if_neg (show cmdListServer ≠ cmdDownload by decide),
        if_neg (show cmdListServer ≠ cmdDelete by decide), if_pos rfl]
      exact hexecute

theorem leads_issue {commands : List (CommandPacket × ClientCommand)}
    (hvalid : ∀ issued ∈ commands, issued.2.Valid)
    (hroom : ∀ issued ∈ commands, issued.2.HasRoom) :
    Leads (terminalThreadFunction buffers) LoopState.readsName (.command []) (issue commands)
      (commands.map fun issued => issued.2.executed) := by
  induction commands with
  | nil =>
      -- with no command left the client has stopped and the loop waits for a packet
      have hresting : Resting (terminalThreadFunction buffers) (.command []) :=
        ⟨4, _, readLargePayloadFromSocket_eq (by norm_num [commandPacketSize]) (by simp),
          by norm_num⟩
      exact ⟨0, 0, _, [], [], [], .done _, hresting, .done _, rfl⟩
  | cons issued rest ih =>
      have hrest := ih (fun c hc => hvalid c (by simp [hc])) fun c hc => hroom c (by simp [hc])
      exact leads_command issued.1 (hvalid issued (by simp)) (hroom issued (by simp)) hrest

end Session

/-- While every file name is read alone, each run comes to an end, the loop has executed at every
moment a first part of the commands the client issues, and all of them when neither side can go
on. -/
theorem executes_issued (buffers : Buffers) (commands : List (CommandPacket × ClientCommand))
    (hvalid : ∀ issued ∈ commands, issued.2.Valid)
    (hroom : ∀ issued ∈ commands, issued.2.HasRoom) :
    ∃ bound, ∀ sides w,
      runWhile (Duplex.step script (terminalThreadFunction buffers))
        (Unmixed LoopState.readsName) (session commands) sides = some w →
      sides.length ≤ bound ∧
        w.noted <+: commands.map (fun issued => issued.2.executed) ∧
        (w.Stuck script (terminalThreadFunction buffers) →
          w.noted = commands.map fun issued => issued.2.executed) := by
  have hleads : Leads (terminalThreadFunction buffers) LoopState.readsName (.command [])
      (issue commands) (commands.map fun issued => issued.2.executed) := leads_issue hvalid hroom
  rcases hleads.runs with ⟨bound, hruns⟩
  refine ⟨bound, fun sides w hrun => ?_⟩
  rcases hruns sides w hrun with ⟨hle, rest, hall, hend⟩
  refine ⟨hle, ⟨rest, hall.symm⟩, fun hstuck => ?_⟩
  rw [hall, hend hstuck, List.append_nil]

/-- Buffers and stack memory of zeroes. -/
def clearBuffers : Buffers where
  fileSizeBuffer := emptySizeBuffer
  fileNameEnd := 0

/-- An upload of a file with a short name and two bytes, step by step. -/
def uploadSteps : List Side :=
  List.replicate 30 .left ++ List.replicate 31 .right ++
    [.left, .left, .right, .right, .left, .left, .right, .right, .left, .left, .right, .right,
      .left, .left, .right, .right, .right]

/-- An upload and a deletion. -/
def uploadThenDelete : List (CommandPacket × ClientCommand) :=
  [(emptyPacket, .upload [97] [1, 2]), (emptyPacket, .delete [97])]

def uploadThenDeleteSteps : List Side :=
  uploadSteps ++ List.replicate 31 .left ++ List.replicate 32 .right

theorem executes_issued_uploadThenDelete :
    ∃ w, runWhile (Duplex.step script (terminalThreadFunction clearBuffers))
        (Unmixed LoopState.readsName) (session uploadThenDelete) uploadThenDeleteSteps = some w ∧
      w.noted = [.upload [97] [1, 2], .delete [97]] := by
  have hrun : (runWhile (Duplex.step script (terminalThreadFunction clearBuffers))
      (Unmixed LoopState.readsName) (session uploadThenDelete) uploadThenDeleteSteps).any
      (fun w => w.Stuck script (terminalThreadFunction clearBuffers)) = true := by
    decide +kernel
  rcases (Option.any_eq_true _ _).1 hrun with ⟨w, hw, hstuck⟩
  obtain ⟨bound, hall⟩ :=
    executes_issued clearBuffers uploadThenDelete (by decide +kernel) (by decide +kernel)
  exact ⟨w, hw, (hall _ w hw).2.2 (of_decide_eq_true hstuck)⟩

/-- Two uploads. -/
def twoUploads : List (CommandPacket × ClientCommand) :=
  [(emptyPacket, .upload [97] [1, 2]), (emptyPacket, .upload [98] [3, 4])]

/-- In the second upload the client takes the last acknowledgement of the first one for that of
the command packet, and so is one acknowledgement ahead from then on. -/
def aheadSteps : List Side :=
  uploadSteps ++ List.replicate 32 .left ++ List.replicate 31 .right ++
    [.left, .left, .right, .right, .left, .left, .right, .right, .left, .left, .right, .right]

/-- The server reads the name and the content of the second file in one, and waits for ever. -/
theorem twoUploads_lost :
    (∀ issued ∈ twoUploads, issued.2.Valid) ∧
      ∃ w, run (Duplex.step script (terminalThreadFunction clearBuffers)) (session twoUploads)
          aheadSteps = some w ∧
        w.Stuck script (terminalThreadFunction clearBuffers) ∧
        w.noted = [.upload [97] [1, 2]] := by
  refine ⟨by decide +kernel, ?_⟩
  have hrun : (run (Duplex.step script (terminalThreadFunction clearBuffers)) (session twoUploads)
      aheadSteps).any (fun w => w.Stuck script (terminalThreadFunction clearBuffers) ∧
        w.noted = [.upload [97] [1, 2]]) = true := by
    decide +kernel
  rcases (Option.any_eq_true _ _).1 hrun with ⟨w, hw, hboth⟩
  exact ⟨w, hw, of_decide_eq_true hboth⟩

end Client
end DropboxSimulator
