import DropboxSimulator.Library.Dialogue
import DropboxSimulator.Server.CommandLoop
import DropboxSimulator.Server.Threads

/-!
# Download — the command loop with `downloadFileCommand`

The command loop answers a `DOWNLOAD` with the size of the file and, once the client has
acknowledged it, with the content.  The size follows right after the acknowledgement of the
command packet, with nothing read in between.
-/

namespace DropboxSimulator
namespace Server

open Library

/-- What `downloadFileCommand` reads beyond its connection: the files, and the memory that it
sends as a message where there is no file. -/
structure Storage where
  files : Bytes → Option Bytes
  notDownloadedMessage : CharArray 6

/-- Where the command loop stands, a download included.  `content []` is the wait for the last
acknowledgement. -/
inductive ServeState
  | loop (s : LoopState)
  | sizeAck (fileContent : Bytes)
  | content (pending : List Bytes)

section Serving

variable {ε : Type}

/-- `downloadFileCommand` up to its first write. -/
def downloadFileCommand (storage : Storage) (userName fileName : Bytes) : Request ServeState ε :=
  match storage.files (completePath userName fileName) with
  | some fileContent =>
      .write (uint64Bytes (UInt64.ofNat fileContent.length)) (.sizeAck fileContent)
  | none => .write storage.notDownloadedMessage.val (.loop (.command []))

/-- The command loop of a session of the user. -/
def serve (buffers : Buffers) (storage : Storage) (userName : Bytes) :
    ServeState → Request ServeState (Executed ⊕ ε)
  | .loop (.download fileName) => downloadFileCommand storage userName fileName
  | .loop s => (terminalThreadFunction buffers s).map .loop Sum.inl
  | .sizeAck fileContent =>
      waitForSocketAck (.content (sendLargePayloadToSocket fileContent))
  | .content (bs :: pending) => .write bs (.content pending)
  | .content [] => waitForSocketAck (.loop (.command []))

/-! ## The server's part of a download -/

/-- The messages of a download: the command packet from the right, then its acknowledgement and the
size, the content, and an acknowledgement of each. -/
def downloadLines (packet : CommandPacket) (fileContent : Bytes) : Lines :=
  Lines.by .right (sendPacket packet) ++
    (.left, ackBytes) :: (.left, uint64Bytes (UInt64.ofNat fileContent.length)) ::
      (.right, ackBytes) ::
        (Lines.by .left (sendLargePayloadToSocket fileContent) ++ [(.right, ackBytes)])

variable {buffers : Buffers} {storage : Storage} {userName : Bytes} {E : Executed ⊕ ε → Prop}

theorem perform_command (buffers : Buffers) (storage : Storage) (userName : Bytes) :
    (serve buffers storage userName (.loop (.command [])) :
      Request ServeState (Executed ⊕ ε)).perform [] = none := by
  rfl

/-- The packet of a command is read whole. -/
theorem consumes_command (packet : CommandPacket) :
    Consumes (serve buffers storage userName : ServeState → Request ServeState (Executed ⊕ ε))
      (.loop (.command [])) (sendPacket packet) [] [] (.loop (.commandAck packet.bytes)) := by
  have hconsumes : Consumes
      (serve buffers storage userName : ServeState → Request ServeState (Executed ⊕ ε))
      (.loop (.command [])) (solid (sendLargePayloadToSocket packet.bytes)) [] []
      (.loop (.commandAck packet.bytes)) :=
    consumes_sendLargePayloadToSocket (fun got => ServeState.loop (.command got))
      (fun bs => .loop (.commandAck bs)) (fun _ => .loop .ended) packet.length_bytes_lt
      fun got _ => by
        rw [packet.length_bytes]
        exact readLargePayloadFromSocket_map ServeState.loop Sum.inl _ got .command .commandAck
          .ended
  rwa [solid_sendLargePayloadToSocket packet.length_bytes_lt packet.bytes_ne_nil] at hconsumes

/-- The server plays its part in the download of a file that it has. -/
theorem plays_serve {packet : CommandPacket} {fileContent : Bytes}
    (hcommand : packet.command = cmdDownload)
    (hfile : storage.files (completePath userName packet.additionalInfo.string) = some fileContent)
    (hpos : 0 < fileContent.length) (hlen : fileContent.length < 2 ^ 31) :
    Plays (serve buffers storage userName) .left (fun _ => false) E
      (downloadLines packet fileContent) (.loop (.command [])) := by
  have hsolid : ∀ c ∈ sendLargePayloadToSocket fileContent, c ≠ [] :=
    sendLoop_ne_nil hlen _ 0 hpos
  have hdispatch : LoopState.dispatch packet.bytes = .download packet.additionalInfo.string := by
    simp only [LoopState.dispatch, CommandPacket.length_bytes, dif_pos, CommandPacket.ofBytes_bytes,
      hcommand]
    rfl
  -- after the last acknowledgement the loop waits for the next command
  have hlast : Plays (serve buffers storage userName) .left (fun _ => false) E
      [(Side.left.other, ackBytes)] (.content []) :=
    .receive ackBytes_ne_nil rfl (Or.inr ⟨by decide, Or.inr (by simp)⟩)
      (.done (perform_command buffers storage userName))
  have hcontent := Plays.writes (k := ServeState.content) (fun _ _ => rfl) hsolid hlast
  -- the client answers the size before anything else is written
  have hturn : ∀ line ∈ (Lines.by .left (sendLargePayloadToSocket fileContent) ++
      [(Side.left.other, ackBytes)]).head?, line.1 = .left := by
    have hne : sendLargePayloadToSocket fileContent ≠ [] := sendLargePayloadToSocket_ne_nil
    rcases List.exists_cons_of_ne_nil hne with ⟨c, rest, hcons⟩
    simp [hcons, Lines.by]
  have hanswer : Plays (serve buffers storage userName) .left (fun _ => false) E
      ((Side.left.other, ackBytes) :: (Lines.by .left (sendLargePayloadToSocket fileContent) ++
        [(Side.left.other, ackBytes)])) (.sizeAck fileContent) :=
    .receive ackBytes_ne_nil rfl (Or.inr ⟨by decide, Or.inr hturn⟩) hcontent
  refine Plays.consumes (consumes_command packet) (.send ackBytes_ne_nil rfl ?_)
  rw [hdispatch]
  refine .send (uint64Bytes_ne_nil _) ?_ hanswer
  simp only [serve, downloadFileCommand, hfile]

end Serving

end Server
end DropboxSimulator
