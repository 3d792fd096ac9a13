import DropboxSimulator.Client.Commands
import DropboxSimulator.Library.Bursts
import DropboxSimulator.Server.CommandLoop
import DropboxSimulator.Server.Confinement
import DropboxSimulator.Server.FileReplication

/-!
# Interrupted — uploads whose sender goes away

The stream of an upload ends before its last byte, and reads may split what has arrived in any way.
`uploadFileCommand` and `receiveFileUploadedFromPrimary` look at what a read returns only in the
loop that reads the content: a short read there ends the thread, and no file has been opened yet.
The reads of the packet type, the size and the name go unchecked.  With less than a whole size the
receivers take their number from the memory of the buffer, with less than a whole name they open
another file.

So a file is written just when what is left fills the reads for the size that was understood
(`interrupted_unchanged_iff`).  A receiver whose unchecked reads each get their part as a whole
never does that (`Interrupted.upload_unchanged`, `Interrupted.receive_unchanged`).
-/

namespace DropboxSimulator
namespace Server

open Library

/-! ## Files -/

/-- The tree of files as a server in the directory `cwd` uses it. -/
def treeSystem (cwd : List Bytes) : FileSystem Files where
  write := fun path payload t => t.write cwd (pathOf path) payload
  remove := fun path t => t.remove cwd (pathOf path)
  makeDirectory := fun path t => t.makeDirectory cwd (pathOf path)
  content := fun t path =>
    match t.read cwd (pathOf path) with
    | some (.file fileContent) => some fileContent
    | _ => none

/-- What an executed command does to the files of the primary. -/
def Executed.change {δ : Type} (fs : FileSystem δ) (userName : Bytes) : Executed → δ → δ
  | .upload fileName payload => (FileCommand.upload fileName payload).change fs userName
  | .delete fileName => fs.remove (completePath userName fileName)
  | .listServer => id
  | .exit => id

/-! ## Uploads that break off -/

/-- A file name of 1 to 49 bytes and a content shorter than `2 ^ 31`. -/
structure Upload where
  fileName : Bytes
  payload : Bytes
  length_fileName : 0 < fileName.length ∧ fileName.length < 50
  length_payload : payload.length < 2 ^ 31

/-- The `filePacket` of an upload. -/
def Upload.packet (u : Upload) : Client.FilePacket where
  packetType := packetFile
  fileSize := UInt64.ofNat u.payload.length
  fileName := u.fileName
  payload := u.payload

/-- The bytes that an action of a client puts on the stream. -/
def bytesOf : Action → Bytes
  | .write bs => bs
  | .read _ => []
  | .stop => []

/-- What `uploadFileCommand` is to read: the bytes of `sendFilePacket`. -/
def Upload.sent (u : Upload) : Bytes :=
  (Client.sendFilePacket u.packet).flatMap bytesOf

/-- What `receiveFileUploadedFromPrimary` is to read: what the primary sends behind the header. -/
def Upload.replicated (u : Upload) : Bytes :=
  (uint64Bytes (UInt64.ofNat u.payload.length) :: sendLargePayloadToSocket u.payload).flatten

/-- What arrives of a stream that ends before its last byte, as the reads split it. -/
structure Interrupted (stream : Bytes) where
  bursts : List Bytes
  arrived : bursts.flatten <+: stream
  early : bursts.flatten.length < stream.length

/-- `uploadFileCommand` has returned to the command loop, or its thread has ended. -/
def LoopState.returned : LoopState → Bool
  | .command _ => true
  | .ended => true
  | _ => false

/-- `receiveFileUploadedFromPrimary` has returned to its loop, or its thread has ended. -/
def SecondaryState.returned : SecondaryState → Bool
  | .command _ => true
  | .ended => true
  | _ => false

section Receivers

variable (buffers : Buffers) (fileSizeBuffer : CharArray 8) (header : CommandPacket)
variable (cwd : List Bytes) (userName : Bytes) (t : Files) (bursts : List Bytes)

/-- `uploadFileCommand` comes to an end, and every location holds what it held before. -/
def UploadUnchanged : Prop :=
  ∃ es, Returns (terminalThreadFunction buffers) LoopState.returned .fileType bursts es ∧
    ∀ l, (applyAll (Executed.change (treeSystem cwd) userName) es t).lookup l = t.lookup l

/-- `receiveFileUploadedFromPrimary` comes to an end, and every location holds what it held
before. -/
def ReceiveUnchanged : Prop :=
  ∃ ms, Returns (secondServerProcessing fileSizeBuffer.val) SecondaryState.returned
      (.uploadSize header) bursts ms ∧
    ∀ l, (applyAll (receive (treeSystem cwd)) ms t).lookup l = t.lookup l

/-- What a receiver has understood when it begins to read the content, and the bursts behind. -/
structure Announced where
  payloadSize : Nat
  path : Bytes
  bursts : List Bytes

/-- The unchecked reads of `uploadFileCommand`: packet type, size and name. -/
def announcedUpload : Announced :=
  let packetType := readBurst 8 bursts
  let fileSize := readBurst 8 packetType.2
  let fileName := readBurst 100 fileSize.2
  { payloadSize := payloadSizeOf (readDataFromSocket buffers.fileSizeBuffer.val fileSize.1)
    path := completePath userName
      (cString (readDataFromSocket buffers.fileNameBuffer fileName.1))
    bursts := fileName.2 }

/-- The one unchecked read of `receiveFileUploadedFromPrimary`. -/
def announcedReceive : Announced :=
  let fileSize := readBurst 8 bursts
  { payloadSize := payloadSizeOf (readDataFromSocket fileSizeBuffer.val fileSize.1)
    path := header.additionalInfo.string
    bursts := fileSize.2 }

/-- If the reads of the content are filled, no file can be opened at the path, or it holds that
content already. -/
def Announced.Harmless (a : Announced) : Prop :=
  Fills bufferSize a.payloadSize a.bursts → t.Opens cwd (pathOf a.path) →
    t.read cwd (pathOf a.path) = some (.file (a.bursts.flatten.take a.payloadSize))

end Receivers

/-! ## The loop that reads the content -/

section Payload

variable {σ ε : Type} {next : σ → Request σ ε} {ended : σ → Bool} {again done : Bytes → σ}
variable {exit : σ} {size : Nat} {es : List ε} {got buffer : Bytes} {bursts : List Bytes}

/-- When nothing is left to be read, the loop asks for no bytes and is through. -/
theorem returns_whole (hsize : size < 2 ^ 31)
    (hnext : ∀ got, next (again got) = readLargePayloadFromSocket size got again done exit)
    (hagain : ∀ got, ended (again got) = false) (hgot : got.length = size)
    (hdone : ∀ rest, Returns next ended (done got) rest es) :
    Returns next ended (again got) bursts es := by
  have hstep := hnext got
  have hleft : min bufferSize (size - got.length) = 0 := by
    rw [hgot, Nat.sub_self, Nat.min_zero]
  rw [readLargePayloadFromSocket_eq hsize hgot.le, hleft] at hstep
  refine .read (hagain got) hstep ?_
  have hnone : (readBurst 0 bursts).1 = [] :=
    List.length_eq_zero_iff.1 (Nat.le_zero.1 length_readBurst_le)
  have hlast : ¬toSize (toInt (got.length + ([] : Bytes).length)) < size := by
    rw [List.length_nil, Nat.add_zero, hgot, toSize_toInt hsize]
    exact lt_irrefl size
  rw [hnone, if_neg (fun h => h rfl), if_neg hlast, List.append_nil]
  exact hdone _

/-- The loop gets the content if the bursts fill its reads, and ends the thread if not. -/
theorem returns_payload (hsize : size < 2 ^ 31)
    (hnext : ∀ got, next (again got) = readLargePayloadFromSocket size got again done exit)
    (hagain : ∀ got, ended (again got) = false) (hexit : ended exit = true)
    (hgot : got.length ≤ size)
    (hdone : ∀ rest,
      Returns next ended (done (got ++ bursts.flatten.take (size - got.length))) rest es) :
    Returns next ended (again got) bursts
      (if Fills bufferSize (size - got.length) bursts then es else []) := by
  obtain ⟨left, hleft⟩ : ∃ left, size - got.length = left := ⟨_, rfl⟩
  induction left using Nat.strong_induction_on generalizing got bursts with
  | _ left ih =>
      rw [hleft] at hdone ⊢
      by_cases hzero : left = 0
      · subst hzero
        rw [List.take_zero, List.append_nil] at hdone
        rw [if_pos fills_zero]
        exact returns_whole hsize hnext hagain (by omega) hdone
      · have hchunk : 0 < bufferSize := by norm_num
        have hstep := hnext got
        rw [readLargePayloadFromSocket_eq hsize hgot, hleft] at hstep
        refine .read (hagain got) hstep ?_
        simp only [fills_iff_readBurst hchunk (Nat.pos_of_ne_zero hzero)]
        by_cases hfull : (readBurst (min bufferSize left) bursts).1.length = min bufferSize left
        · have htake := readBurst_append_take (Nat.min_le_right bufferSize left) hfull
          rw [← htake, ← List.append_assoc] at hdone
          generalize readBurst (min bufferSize left) bursts = r at hfull hdone ⊢
          have hread : got.length + r.1.length ≤ size := by omega
          rw [if_neg (not_not.2 hfull), toSize_toInt (hread.trans_lt hsize), hfull]
          simp only [true_and]
          by_cases hmore : got.length + min bufferSize left < size
          · -- the next round goes on with what this read has left
            have hleft' : size - (got ++ r.1).length = left - min bufferSize left := by
              rw [List.length_append]
              omega
            rw [← hleft'] at hdone ⊢
            rw [if_pos hmore]
            exact ih _ (by omega) (by rwa [List.length_append]) hdone rfl
          · have hall : left - min bufferSize left = 0 := by omega
            have hend := hdone r.2
            rw [hall, List.take_zero, List.append_nil] at hend
            rw [if_neg hmore, hall, if_pos fills_zero]
            exact hend
        · rw [if_pos hfull, if_neg (fun h => hfull h.1)]
          exact .done hexit

/-- A size that is negative as an `int` is never read. -/
theorem returns_negative (hsize : toInt size < 0)
    (hnext : ∀ got, next (again got) = readLargePayloadFromSocket size got again done exit)
    (hagain : ∀ got, ended (again got) = false) (hexit : ended exit = true) :
    Returns next ended (again []) bursts [] := by
  have hstep := hnext []
  have hzero : toInt ([] : Bytes).length = 0 := by
    rw [List.length_nil, toInt_of_lt (by norm_num), Nat.cast_zero]
  have hchunk : determineCorrectSizeToBeRead (toInt size) 0 = toInt size := by
    unfold determineCorrectSizeToBeRead
    rw [Int.sub_zero, if_neg (by simp only [bufferSize]; omega)]
  rw [readLargePayloadFromSocket, hzero, hchunk] at hstep
  refine .read (hagain []) hstep ?_
  rw [if_pos (by omega)]
  exact .done hexit

/-- The loop for a size that has been understood, and for fewer bytes than a negative one. -/
theorem returns_understood (again done : Bytes → σ) (exit : σ)
    (hshort : bursts.flatten.length < 2 ^ 63)
    (hsize : size = payloadSizeOf buffer)
    (hnext : ∀ got, next (again got) = readLargePayloadFromSocket size got again done exit)
    (hagain : ∀ got, ended (again got) = false) (hexit : ended exit = true)
    (hdone : ∀ rest, Returns next ended (done (bursts.flatten.take size)) rest es) :
    Returns next ended (again []) bursts (if Fills bufferSize size bursts then es else []) := by
  subst hsize
  rcases payloadSizeOf_lt_or buffer with hlt | ⟨hneg, hlarge⟩
  · exact returns_payload hlt hnext hagain hexit (Nat.zero_le _) hdone
  · have hnot : ¬Fills bufferSize (payloadSizeOf buffer) bursts := by
      intro hfills
      have hle := hfills.le_length
      omega
    rw [if_neg hnot]
    exact returns_negative hneg hnext hagain hexit

end Payload

/-! ## The two receivers -/

section Receivers

variable {buffers : Buffers} {fileSizeBuffer : CharArray 8} {header : CommandPacket}
variable {cwd : List Bytes} {userName path payload : Bytes} {t : Files} {bursts : List Bytes}
variable {u : Upload}

/-- `uploadFileCommand` executes the upload if the reads of the content are filled. -/
theorem returns_upload (buffers : Buffers) (hshort : bursts.flatten.length < 2 ^ 63) :
    ∃ fileName, (announcedUpload buffers userName bursts).path = completePath userName fileName ∧
      Returns (terminalThreadFunction buffers) LoopState.returned .fileType bursts
        (if Fills bufferSize (announcedUpload buffers userName bursts).payloadSize
            (announcedUpload buffers userName bursts).bursts then
          [.upload fileName ((announcedUpload buffers userName bursts).bursts.flatten.take
            (announcedUpload buffers userName bursts).payloadSize)]
        else []) := by
  refine ⟨_, rfl, ?_⟩
  -- packet type, size and name, each with its acknowledgement
  refine .read rfl rfl (.write rfl rfl (.read rfl rfl (.write rfl rfl (.read rfl rfl
    (.write rfl rfl ?_)))))
  refine returns_understood (LoopState.payload _ _) (LoopState.payloadAck _) .ended ?_ rfl
    (fun _ => rfl) (fun _ => rfl) rfl fun rest => ?_
  · have htype := length_readBurst_add 8 bursts
    have hsize := length_readBurst_add 8 (readBurst 8 bursts).2
    have hname := length_readBurst_add 100 (readBurst 8 (readBurst 8 bursts).2).2
    omega
  · exact .write rfl rfl (.emit rfl rfl (.done rfl))

/-- `receiveFileUploadedFromPrimary` writes the file if the reads of the content are filled. -/
theorem returns_receive (hshort : bursts.flatten.length < 2 ^ 63) :
    Returns (secondServerProcessing fileSizeBuffer.val) SecondaryState.returned
      (.uploadSize header) bursts
      (if Fills bufferSize (announcedReceive fileSizeBuffer header bursts).payloadSize
          (announcedReceive fileSizeBuffer header bursts).bursts then
        [.upload (announcedReceive fileSizeBuffer header bursts).path
          ((announcedReceive fileSizeBuffer header bursts).bursts.flatten.take
            (announcedReceive fileSizeBuffer header bursts).payloadSize)]
      else []) := by
  refine .read rfl rfl ?_
  refine returns_understood (SecondaryState.uploadPayload header _)
    (fun payload => .received (.upload header.additionalInfo.string payload)) .ended ?_ rfl
    (fun _ => rfl) (fun _ => rfl) rfl fun rest => ?_
  · have hsize := length_readBurst_add 8 bursts
    omega
  · exact .emit rfl rfl (.done rfl)

/-- One file is written or none. -/
theorem unchanged_iff_harmless {ε : Type} {change : ε → Files → Files} {e : ε} {a : Announced}
    (he : change e t = t.write cwd (pathOf a.path) (a.bursts.flatten.take a.payloadSize)) :
    (∀ l, (applyAll change
        (if Fills bufferSize a.payloadSize a.bursts then [e] else []) t).lookup l = t.lookup l) ↔
      a.Harmless cwd t := by
  unfold Announced.Harmless
  by_cases hfills : Fills bufferSize a.payloadSize a.bursts
  · have hafter : applyAll change [e] t = change e t := rfl
    rw [if_pos hfills, hafter, he, FileTree.lookup_write_eq_iff]
    constructor
    · intro hopens _
      exact hopens
    · intro hharmless
      exact hharmless hfills
  · rw [if_neg hfills]
    constructor
    · intro _ hfills'
      exact absurd hfills' hfills
    · intro _ l
      rfl

theorem uploadUnchanged_iff (hshort : bursts.flatten.length < 2 ^ 63) :
    UploadUnchanged buffers cwd userName t bursts ↔
      (announcedUpload buffers userName bursts).Harmless cwd t := by
  rcases returns_upload buffers hshort with ⟨fileName, hpath, hreturns⟩
  unfold UploadUnchanged
  rw [hreturns.exists_iff, unchanged_iff_harmless]
  rw [hpath]
  rfl

theorem receiveUnchanged_iff (hshort : bursts.flatten.length < 2 ^ 63) :
    ReceiveUnchanged fileSizeBuffer header cwd t bursts ↔
      (announcedReceive fileSizeBuffer header bursts).Harmless cwd t := by
  unfold ReceiveUnchanged
  rw [(returns_receive hshort).exists_iff, unchanged_iff_harmless]
  rfl

/-! ## Streams that end early -/

theorem Upload.sent_eq : u.sent =
    uint64Bytes packetFile ++ (uint64Bytes (UInt64.ofNat u.payload.length) ++
      (u.fileName ++ u.payload)) := by
  have hwrites : ∀ writes : List Bytes,
      ((writes.map Action.write).map bytesOf).flatten = writes.flatten := by
    intro writes
    rw [List.map_map]
    exact congrArg List.flatten (List.map_id writes)
  rw [Upload.sent, Client.sendFilePacket_eq, List.flatMap]
  simp only [List.map_cons, List.flatten_cons, bytesOf, List.nil_append, hwrites, Upload.packet,
    flatten_sendLargePayloadToSocket u.length_payload]

theorem Upload.replicated_eq : u.replicated =
    uint64Bytes (UInt64.ofNat u.payload.length) ++ u.payload := by
  rw [Upload.replicated, List.flatten_cons, flatten_sendLargePayloadToSocket u.length_payload]

theorem Upload.length_sent : u.sent.length = 16 + u.fileName.length + u.payload.length := by
  rw [Upload.sent_eq]
  simp only [List.length_append, length_uint64Bytes]
  omega

theorem Upload.length_replicated : u.replicated.length = 8 + u.payload.length := by
  rw [Upload.replicated_eq, List.length_append, length_uint64Bytes]

theorem Interrupted.length_sent_lt (c : Interrupted u.sent) : c.bursts.flatten.length < 2 ^ 63 := by
  have hearly := c.early
  have hname := u.length_fileName.2
  have hpayload := u.length_payload
  rw [Upload.length_sent] at hearly
  omega

theorem Interrupted.length_replicated_lt (c : Interrupted u.replicated) :
    c.bursts.flatten.length < 2 ^ 63 := by
  have hearly := c.early
  have hpayload := u.length_payload
  rw [Upload.length_replicated] at hearly
  omega

/-- If each unchecked read gets its part as a whole, an upload that breaks off changes nothing. -/
theorem Interrupted.upload_unchanged (c : Interrupted u.sent)
    (htype : (readBurst 8 c.bursts).1.length = 8)
    (hsize : (readBurst 8 (readBurst 8 c.bursts).2).1.length = 8)
    (hname : u.fileName.length ≤
      (readBurst 100 (readBurst 8 (readBurst 8 c.bursts).2).2).1.length) :
    UploadUnchanged buffers cwd userName t c.bursts := by
  rw [uploadUnchanged_iff c.length_sent_lt]
  intro hfills
  have harrived : c.bursts.flatten <+: uint64Bytes packetFile ++
      (uint64Bytes (UInt64.ofNat u.payload.length) ++ (u.fileName ++ u.payload)) := by
    rw [← Upload.sent_eq]
    exact c.arrived
  rcases readBurst_eq_of_isPrefix harrived (by rw [htype, length_uint64Bytes]) with ⟨_, hbehind⟩
  rcases readBurst_eq_of_isPrefix hbehind (by rw [hsize, length_uint64Bytes]) with ⟨hread, _⟩
  have hunderstood : (announcedUpload buffers userName c.bursts).payloadSize =
      u.payload.length := by
    dsimp only [announcedUpload]
    rw [hread, payloadSizeOf_uint64Bytes u.length_payload buffers.fileSizeBuffer.property]
  -- what is left is shorter than the content
  have hleft := hfills.le_length
  rw [hunderstood] at hleft
  dsimp only [announcedUpload] at hleft
  have hearly := c.early.trans_eq Upload.length_sent
  rw [← length_readBurst_add 8, htype, ← length_readBurst_add 8, hsize,
    ← length_readBurst_add 100] at hearly
  omega

/-- If the read of the size gets it as a whole, a replication that breaks off changes nothing. -/
theorem Interrupted.receive_unchanged (c : Interrupted u.replicated)
    (hsize : (readBurst 8 c.bursts).1.length = 8) :
    ReceiveUnchanged fileSizeBuffer header cwd t c.bursts := by
  rw [receiveUnchanged_iff c.length_replicated_lt]
  intro hfills
  have harrived : c.bursts.flatten <+: uint64Bytes (UInt64.ofNat u.payload.length) ++
      u.payload := by
    rw [← Upload.replicated_eq]
    exact c.arrived
  rcases readBurst_eq_of_isPrefix harrived (by rw [hsize, length_uint64Bytes]) with ⟨hread, _⟩
  have hunderstood : (announcedReceive fileSizeBuffer header c.bursts).payloadSize =
      u.payload.length := by
    dsimp only [announcedReceive]
    rw [hread, payloadSizeOf_uint64Bytes u.length_payload fileSizeBuffer.property]
  have hleft := hfills.le_length
  rw [hunderstood] at hleft
  dsimp only [announcedReceive] at hleft
  have hearly := c.early.trans_eq Upload.length_replicated
  rw [← length_readBurst_add 8, hsize] at hearly
  omega

end Receivers

/-- An upload that breaks off leaves the files of the receiver as they were if and only if what is
left does not fill the reads for the size that was understood, or the file is not changed by it. -/
theorem interrupted_unchanged_iff (buffers : Buffers) (fileSizeBuffer : CharArray 8)
    (header : CommandPacket) (cwd : List Bytes) (userName : Bytes) (t : Files) (u : Upload)
    (c : Interrupted u.sent) (d : Interrupted u.replicated) :
    (UploadUnchanged buffers cwd userName t c.bursts ↔
        (announcedUpload buffers userName c.bursts).Harmless cwd t) ∧
      (ReceiveUnchanged fileSizeBuffer header cwd t d.bursts ↔
        (announcedReceive fileSizeBuffer header d.bursts).Harmless cwd t) :=
  ⟨uploadUnchanged_iff c.length_sent_lt, receiveUnchanged_iff d.length_replicated_lt⟩

/-- An empty file `ab`. -/
def emptyUpload : Upload where
  fileName := [97, 98]
  payload := []
  length_fileName := by decide
  length_payload := by decide

/-- The stream ends within the name. -/
def cutInName : Interrupted emptyUpload.sent where
  bursts := [uint64Bytes packetFile, uint64Bytes 0, [97]]
  arrived := by decide
  early := by decide

/-- Nothing of the upload arrives. -/
def cutInSize : Interrupted emptyUpload.replicated where
  bursts := []
  arrived := by decide
  early := by decide

/-- The header of the upload for the user `u`. -/
def emptyUploadHeader : CommandPacket :=
  { emptyPacket with
    packetType := packetCmd
    command := cmdUpload
    additionalInfo := ⟨completePath [117] [97, 98] ++ List.replicate 85 0, by decide⟩ }

/-- The directory of the user `u`, with no file. -/
def emptyStore : Files where
  entries :=
    (((∅ : AList fun _ : List Bytes => Entry Bytes).insert [] .directory).insert
      [databaseName] .directory).insert [databaseName, [117]] .directory

/-- The primary creates a file `a`, and the secondary a file `ab` of which nothing was sent. -/
theorem emptyUpload_written :
    ¬UploadUnchanged ⟨emptySizeBuffer, 0⟩ [] [117] emptyStore cutInName.bursts ∧
      ¬ReceiveUnchanged emptySizeBuffer emptyUploadHeader [] emptyStore cutInSize.bursts := by
  constructor
  · rw [uploadUnchanged_iff cutInName.length_sent_lt]
    intro hharmless
    have hopens : emptyStore.Opens [] (pathOf
        (announcedUpload ⟨emptySizeBuffer, 0⟩ [117] cutInName.bursts).path) :=
      ⟨[databaseName, [117], [97]], by decide, by decide, by decide⟩
    exact absurd (hharmless (by decide) hopens) (by decide)
  · rw [receiveUnchanged_iff cutInSize.length_replicated_lt]
    intro hharmless
    have hopens : emptyStore.Opens [] (pathOf
        (announcedReceive emptySizeBuffer emptyUploadHeader cutInSize.bursts).path) :=
      ⟨[databaseName, [117], [97, 98]], by decide, by decide, by decide⟩
    exact absurd (hharmless (by decide) hopens) (by decide)

end Server
end DropboxSimulator
