import DropboxSimulator.Server.Download

/-!
# Download — a client fetches a file

`Client::downloadFile` at one end of a connection and the command loop of the server at the other,
taking steps in any order.  The client reads its acknowledgement with a read of up to eight bytes,
and the size comes right behind it: if both are there, a part of the size is taken for the
acknowledgement, and the size is decoded from what is left of it.
-/

namespace DropboxSimulator
namespace Client

open Library

/-- Where `downloadFile` stands.  `request []` is the wait for the acknowledgement. -/
inductive DownloadState
  | request (pending : List Bytes)
  | size
  | sizeAck (payloadSize : Nat)
  | payload (payloadSize : Nat) (got : Bytes)
  | payloadAck (payloadSize : Nat) (payload : Bytes)
  | save (payloadSize : Nat) (payload : Bytes)
  | ended

/-- A local file that `downloadFile` has written, with the size it went by. -/
structure Downloaded where
  payloadSize : Nat
  content : Bytes
  deriving DecidableEq

/-- The packet that asks for a file; past the end of its text the program is undefined. -/
def askForFile (stale : CommandPacket) (fileName : Bytes) : DownloadState :=
  match stale.additionalInfo.strcpy fileName with
  | some info => .request (Server.sendPacket (Server.fillPacket stale cmdDownload info))
  | none => .ended

/-- What becomes of the size that was read: a file that is not there has none. -/
def DownloadState.sized (fileSizeBuffer : Bytes) : DownloadState :=
  let payloadSize := int64OfBytes fileSizeBuffer
  if payloadSize ≤ 0 then .ended else .sizeAck payloadSize.toNat

/-- `downloadFile` from its request on. -/
def downloadFile {ε : Type} (buffers : ReceiveBuffers) :
    DownloadState → Request DownloadState (ε ⊕ Downloaded)
  | .request (bs :: pending) => .write bs (.request pending)
  | .request [] => DropboxSimulator.waitForSocketAck .size
  | .size => .read 8 fun bs => .sized (readDataFromSocket buffers.fileSizeBuffer.val bs)
  | .sizeAck payloadSize => writeAckIntoSocket (.payload payloadSize [])
  | .payload payloadSize got =>
      readLargePayloadFromSocket payloadSize got (.payload payloadSize) fun got =>
        .payloadAck payloadSize (readDataFromSocket (buffers.payload payloadSize).val got)
  | .payloadAck payloadSize payload => writeAckIntoSocket (.save payloadSize payload)
  | .save payloadSize payload =>
      .emit (Sum.inr { payloadSize := payloadSize, content := payload }) .ended
  | .ended => .halt

/-- The client is about to read the acknowledgement of its request. -/
def DownloadState.waitsForAck : DownloadState → Bool
  | .request [] => true
  | _ => false

/-! ## The client's part -/

section Playing

variable {ε : Type} {buffers : ReceiveBuffers} {E : ε ⊕ Downloaded → Prop}

/-- The content is read by the size that was decoded. -/
theorem consumes_content {fileContent : Bytes} (hlen : fileContent.length < 2 ^ 31)
    (hpos : 0 < fileContent.length) :
    Consumes (downloadFile buffers : DownloadState → Request DownloadState (ε ⊕ Downloaded))
      (.payload fileContent.length []) (DropboxSimulator.sendLargePayloadToSocket fileContent) [] []
      (.payloadAck fileContent.length fileContent) := by
  have hall : readDataFromSocket (buffers.payload fileContent.length).val fileContent =
      fileContent := readDataFromSocket_of_length (buffers.payload _).property
  have hconsumes : Consumes
      (downloadFile buffers : DownloadState → Request DownloadState (ε ⊕ Downloaded))
      (.payload fileContent.length [])
      (solid (DropboxSimulator.sendLargePayloadToSocket fileContent)) [] []
      (.payloadAck fileContent.length
        (readDataFromSocket (buffers.payload fileContent.length).val fileContent)) :=
    consumes_sendLargePayloadToSocket (DownloadState.payload fileContent.length)
      (fun got => .payloadAck fileContent.length
        (readDataFromSocket (buffers.payload fileContent.length).val got))
      (fun got => .payloadAck fileContent.length
        (readDataFromSocket (buffers.payload fileContent.length).val got)) hlen fun got _ => rfl
  rwa [hall, solid_sendLargePayloadToSocket hlen (List.length_pos_iff.1 hpos)] at hconsumes

theorem sized_of_length {n : Nat} (hpos : 0 < n) (hlen : n < 2 ^ 31) :
    DownloadState.sized
        (readDataFromSocket buffers.fileSizeBuffer.val (uint64Bytes (UInt64.ofNat n))) =
      .sizeAck n := by
  have hall : readDataFromSocket buffers.fileSizeBuffer.val (uint64Bytes (UInt64.ofNat n)) =
      uint64Bytes (UInt64.ofNat n) :=
    readDataFromSocket_of_length (by rw [buffers.fileSizeBuffer.property, length_uint64Bytes])
  rw [DownloadState.sized, hall, int64OfBytes_uint64Bytes (hlen.trans (by norm_num)),
    if_neg (by omega), Int.toNat_natCast]

/-- The client plays its part in the download of a file, and writes just that file. -/
theorem plays_downloadFile {packet : CommandPacket} {fileContent : Bytes}
    (hpos : 0 < fileContent.length) (hlen : fileContent.length < 2 ^ 31)
    (hE : E (Sum.inr { payloadSize := fileContent.length, content := fileContent })) :
    Plays (downloadFile buffers) .right DownloadState.waitsForAck E
      (Server.downloadLines packet fileContent) (.request (Server.sendPacket packet)) := by
  have hpacket : ∀ c ∈ Server.sendPacket packet, c ≠ [] :=
    sendLoop_ne_nil packet.length_bytes_lt _ 0 (List.length_pos_iff.2 packet.bytes_ne_nil)
  have hlast : Plays (downloadFile buffers) .right DownloadState.waitsForAck E
      [(Side.right, ackBytes)] (.payloadAck fileContent.length fileContent) :=
    .send Server.ackBytes_ne_nil rfl (.emit rfl hE (.done rfl))
  have hcontent := Plays.consumes (consumes_content hlen hpos) hlast
  refine Plays.writes (k := DownloadState.request) (fun _ _ => rfl) hpacket
    (.receive Server.ackBytes_ne_nil rfl (Or.inr ⟨by decide, Or.inl rfl⟩) ?_)
  -- the size asks for all its eight bytes
  refine .receive (n := 8) (k := fun bs =>
    .sized (readDataFromSocket buffers.fileSizeBuffer.val bs)) (uint64Bytes_ne_nil _) rfl
    (Or.inl (by simp)) ?_
  rw [sized_of_length hpos hlen]
  exact .send Server.ackBytes_ne_nil rfl hcontent

end Playing

/-! ## Downloads -/

/-- A server that waits for a command and a client that asks for a file. -/
def download (stale : CommandPacket) (fileName : Bytes) :
    Duplex Server.ServeState DownloadState (Server.Executed ⊕ Downloaded) :=
  Duplex.start (.loop (.command [])) (askForFile stale fileName)

/-- An event other than that a wrong file is saved. -/
def Saves (fileContent : Bytes) (e : Server.Executed ⊕ Downloaded) : Prop :=
  ∀ file : Downloaded, e = Sum.inr file →
    file.content = fileContent ∧ file.payloadSize = fileContent.length

/-- While the acknowledgement of the request is read alone, the client writes just the file that
the server has, and goes by its length. -/
theorem download_faithful (loopBuffers : Server.Buffers) (buffers : ReceiveBuffers)
    (storage : Server.Storage) (userName : Bytes) (stale : CommandPacket)
    {fileName fileContent : Bytes} (hname : ∀ b ∈ fileName, b ≠ 0)
    (hfile : storage.files (Server.completePath userName fileName) = some fileContent)
    (hpos : 0 < fileContent.length) (hlen : fileContent.length < 2 ^ 31)
    {w : Duplex Server.ServeState DownloadState (Server.Executed ⊕ Downloaded)}
    (hrun : Reaches (Duplex.step (Server.serve loopBuffers storage userName) (downloadFile buffers))
      (Unmixed DownloadState.waitsForAck) (download stale fileName) w) :
    ∀ file : Downloaded, Sum.inr file ∈ w.noted →
      file.content = fileContent ∧ file.payloadSize = fileContent.length := by
  have hall : ∀ e ∈ w.noted, Saves fileContent e := by
    unfold download askForFile at hrun
    cases hinfo : stale.additionalInfo.strcpy fileName with
    | none =>
        -- a client that has stopped sends nothing, and the server waits
        rw [hinfo] at hrun
        have hserve : Plays (Server.serve loopBuffers storage userName) .left (fun _ => false)
            (Saves fileContent) [] (.loop (.command [])) :=
          .done (Server.perform_command loopBuffers storage userName)
        have hclient : Plays (downloadFile buffers) .right DownloadState.waitsForAck
            (Saves fileContent) [] .ended := .done rfl
        exact (InStep.start hserve hclient).run hrun
    | some info =>
        rw [hinfo] at hrun
        have hstr : info.string = fileName := CharArray.string_of_strcpy hname hinfo
        rw [← hstr] at hfile
        have hserve : Plays (Server.serve loopBuffers storage userName) .left (fun _ => false)
            (Saves fileContent)
            (Server.downloadLines (Server.fillPacket stale cmdDownload info) fileContent)
            (.loop (.command [])) :=
          Server.plays_serve rfl hfile hpos hlen
        have hclient : Plays (downloadFile buffers) .right DownloadState.waitsForAck
            (Saves fileContent)
            (Server.downloadLines (Server.fillPacket stale cmdDownload info) fileContent)
            (.request (Server.sendPacket (Server.fillPacket stale cmdDownload info))) := by
          refine plays_downloadFile hpos hlen ?_
          rintro file ⟨⟩
          exact ⟨rfl, rfl⟩
        exact (InStep.start hserve hclient).run hrun
  exact fun file hmem => hall _ hmem file rfl

/-- A server of user `a` that has the file `f` with one byte. -/
def oneFile : Server.Storage where
  files := fun path => if path = Server.completePath [97] [102] then some [7] else none
  notDownloadedMessage := ⟨List.replicate 6 0, rfl⟩

def loopBuffers : Server.Buffers where
  fileSizeBuffer := emptySizeBuffer
  fileNameEnd := 0

/-- The request, its acknowledgement, the size and the content, each read when it is there. -/
def downloadSteps : List Side :=
  List.replicate 30 .right ++ List.replicate 31 .left ++
    [.right, .left, .right, .right, .left, .left, .right, .right, .right]

theorem download_faithful_oneFile :
    ∃ w, runWhile (Duplex.step (Server.serve loopBuffers oneFile [97])
        (downloadFile emptyReceiveBuffers)) (Unmixed DownloadState.waitsForAck)
        (download emptyPacket [102]) downloadSteps = some w ∧
      w.noted.length = 1 ∧
      ∀ file : Downloaded, Sum.inr file ∈ w.noted → file.content = [7] ∧ file.payloadSize = 1 := by
  have hrun : (runWhile (Duplex.step (Server.serve loopBuffers oneFile [97])
      (downloadFile emptyReceiveBuffers)) (Unmixed DownloadState.waitsForAck)
      (download emptyPacket [102]) downloadSteps).any
        (fun w => w.noted.length = 1) = true := by
    decide +kernel
  have hname : ∀ b ∈ ([102] : Bytes), b ≠ 0 := by simp
  rcases (Option.any_eq_true _ _).1 hrun with ⟨w, hw, hone⟩
  exact ⟨w, hw, of_decide_eq_true hone,
    download_faithful loopBuffers emptyReceiveBuffers oneFile [97] emptyPacket hname rfl (by decide)
      (by decide) (.of_runWhile hw)⟩

/-- A client whose size buffer happens to hold a one among zeroes. -/
def staleBuffers : ReceiveBuffers :=
  { emptyReceiveBuffers with fileSizeBuffer := ⟨[0, 0, 0, 1, 0, 0, 0, 0], rfl⟩ }

/-- The server writes the size before the client has read the acknowledgement. -/
def sizeBehindAckSteps : List Side :=
  List.replicate 30 .right ++ List.replicate 32 .left ++
    [.right, .right, .right, .left, .left, .right, .right, .right]

/-- The client takes five bytes of the size for the acknowledgement, decodes three bytes of the size
with five of its own, and writes that much memory to its local file. -/
theorem sizeBehindAck_misread :
    oneFile.files (Server.completePath [97] [102]) = some [7] ∧
      ∃ w, run (Duplex.step (Server.serve loopBuffers oneFile [97]) (downloadFile staleBuffers))
          (download emptyPacket [102]) sizeBehindAckSteps = some w ∧
        ∃ file : Downloaded, Sum.inr file ∈ w.noted ∧ file.payloadSize = 16777216 ∧
          file.content ≠ [7] := by
  refine ⟨rfl, ?_⟩
  have hrun : (run (Duplex.step (Server.serve loopBuffers oneFile [97]) (downloadFile staleBuffers))
      (download emptyPacket [102]) sizeBehindAckSteps).any
        (fun w => w.noted.any fun e =>
          match e with
          | .inl _ => false
          | .inr file => file.payloadSize = 16777216 ∧ file.content ≠ [7]) = true := by
    decide +kernel
  rcases (Option.any_eq_true _ _).1 hrun with ⟨w, hw, hnoted⟩
  rcases List.any_eq_true.1 hnoted with ⟨e, he, hfile⟩
  cases e with
  | inl executed =>
      cases hfile
  | inr file =>
      rcases of_decide_eq_true hfile with ⟨hsize, hcontent⟩
      exact ⟨w, hw, file, he, hsize, hcontent⟩

end Client
end DropboxSimulator
