import DropboxSimulator.ChunkLoops
import DropboxSimulator.Client.Commands
import DropboxSimulator.Library.Heap

/-!
# FileSize — the length of a file on its way to the server

`upload_file` gets the length of a file as a `long` and hands it to `sendFile` as an `int`;
`prepareFilePacket` keeps it as a `uint64_t`, which `sendFilePacket` sends and passes on as a
`size_t`; `uploadFileCommand` reads four of the eight bytes as an `int` and widens it to a
`uint64_t`.

`Commands` has these functions for contents shorter than `2 ^ 31`, where the conversions do nothing
(`prepareFilePacket_toInt`).  Here the content and the name of a packet are followed one by one,
since the one may be lost where the other is not.
-/

namespace DropboxSimulator
namespace Client
namespace FileSize

open Library

/-- The fields of `filePacket` that carry the content. -/
structure PacketContent where
  fileSize : UInt64
  payload : Bytes
  deriving DecidableEq

/-- The content in `prepareFilePacket`; the `memcpy` of more bytes than there are fails. -/
def packetContent (size : Int) (fileContent : Bytes) : Option PacketContent :=
  if toSize size ≤ fileContent.length then
    some { fileSize := UInt64.ofNat (toSize size), payload := fileContent.take (toSize size) }
  else
    none

/-- The name in `prepareFilePacket`, copied into `malloc(size)`; there is no block for a size that
is negative. -/
def packetName (size : Int) (fileName : Bytes) : Option Bytes :=
  if fileName.length < size then some fileName else none

/-- `prepareFilePacket`. -/
def prepareFilePacket (fileName : Bytes) (size : Int) (fileContent : Bytes) :
    Option FilePacket := do
  let name ← packetName size fileName
  let content ← packetContent size fileContent
  return { packetType := packetFile, fileSize := content.fileSize, fileName := name,
           payload := content.payload }

/-- `upload_file` passes the length of the content, a `long`, to the `int` of `sendFile`. -/
def uploadFile (fileContent : Bytes) : Option PacketContent :=
  packetContent (toInt fileContent.length) fileContent

/-- The loop that `sendFilePacket` ends with, for complete writes. -/
def sendFilePacket (packet : PacketContent) :=
  ChunkLoops.Client.sendLargePayloadToSocket packet.payload packet.fileSize.toNat .complete

/-- The `payloadSize` of `uploadFileCommand`, from the bytes that `sendFilePacket` wrote. -/
def decodedSize (fileSizeBuffer : CharArray 8) (packet : PacketContent) : Nat :=
  payloadSizeOf (readDataFromSocket fileSizeBuffer.val (uint64Bytes packet.fileSize))

/-- The server decodes the length of the file, and the client sends exactly its bytes. -/
def SizePreserved (fileSizeBuffer : CharArray 8) (fileContent : Bytes) : Prop :=
  ∃ packet, uploadFile fileContent = some packet ∧
    decodedSize fileSizeBuffer packet = fileContent.length ∧
    ∃ chunks sent, Ends (sendFilePacket packet) .start chunks (some sent) ∧
      sent.stream = fileContent

section Sizes

variable {fileSizeBuffer : CharArray 8} {fileContent : Bytes}

/-- What is decoded was an `int`: it is less than `2 ^ 31`, or it was negative and is huge. -/
theorem payloadSizeOf_lt {bs : Bytes} (h : payloadSizeOf bs < 2 ^ 63) :
    payloadSizeOf bs < 2 ^ 31 := by
  rcases payloadSizeOf_lt_or bs with hlt | hnegative
  · exact hlt
  · exact absurd h (not_lt.2 hnegative.2)

/-- A length that fits an `int` is kept, and so is the content. -/
theorem uploadFile_of_lt (h : fileContent.length < 2 ^ 31) : uploadFile fileContent =
    some { fileSize := UInt64.ofNat fileContent.length, payload := fileContent } := by
  rw [uploadFile, packetContent, toSize_toInt h, if_pos le_rfl, List.take_length]

/-- For a content shorter than `2 ^ 31` the packet is the one of `Commands`. -/
theorem prepareFilePacket_toInt {fileName : Bytes} (h : fileContent.length < 2 ^ 31) :
    prepareFilePacket fileName (toInt fileContent.length) fileContent =
      Client.prepareFilePacket fileName fileContent := by
  have hcontent : packetContent (toInt fileContent.length) fileContent = some _ :=
    uploadFile_of_lt h
  unfold prepareFilePacket Client.prepareFilePacket packetName
  rw [hcontent, toInt_of_lt h]
  by_cases hname : fileName.length < fileContent.length
  · have hint : (fileName.length : Int) < fileContent.length := Int.ofNat_lt.2 hname
    rw [if_pos hint, if_pos hname]
    rfl
  · have hint : ¬(fileName.length : Int) < fileContent.length := mt Int.ofNat_lt.1 hname
    rw [if_neg hint, if_neg hname]
    rfl

theorem toSize_toInt_le {n : Nat} (h : 0 ≤ toInt n) : toSize (toInt n) ≤ n := by
  unfold toInt toSize at *
  rw [Int.bmod_def] at *
  omega

/-- A packet is made when the name fits the block; the content is always long enough then. -/
theorem exists_prepareFilePacket {fileName : Bytes}
    (h : (fileName.length : Int) < toInt fileContent.length) :
    ∃ packet, prepareFilePacket fileName (toInt fileContent.length) fileContent = some packet := by
  have hpos : 0 ≤ toInt fileContent.length := (Int.natCast_nonneg _).trans h.le
  unfold prepareFilePacket packetName packetContent
  rw [if_pos h, if_pos (toSize_toInt_le hpos)]
  exact ⟨_, rfl⟩

/-- A packet has the name, which was shorter than the block. -/
theorem fileName_of_prepareFilePacket {fileName : Bytes} {size : Int} {packet : FilePacket}
    (h : prepareFilePacket fileName size fileContent = some packet) :
    packet.fileName = fileName ∧ fileName.length < size := by
  rcases Option.bind_eq_some_iff.1 h with ⟨name, hname, hrest⟩
  rcases Option.bind_eq_some_iff.1 hrest with ⟨content, _, hpacket⟩
  cases hpacket
  unfold packetName at hname
  split at hname
  · next hlt =>
      cases hname
      exact ⟨rfl, hlt⟩
  · cases hname

/-- The name is copied within whatever block `malloc` returns. -/
theorem holds_of_packetName (heap : Heap) {call : Nat} {size : Int} {fileName name : Bytes}
    (hsize : size < 2 ^ 63) (hsome : (heap.malloc call (toSize size)).isSome)
    (h : packetName size fileName = some name) :
    heap.Holds ⟨call, toSize size, fileName⟩ := by
  unfold packetName at h
  split at h
  · next hlt =>
      have hfits : fileName.length < toSize size := by
        unfold toSize
        omega
      exact Heap.holds_of_lt hsome hfits
  · cases h

/-- The length of a file reaches the server, and its bytes are sent, if and only if the length fits
an `int`. -/
theorem size_preserved_iff (hlong : fileContent.length < 2 ^ 63) :
    SizePreserved fileSizeBuffer fileContent ↔ fileContent.length < 2 ^ 31 := by
  constructor
  · intro hpreserved
    rcases hpreserved with ⟨packet, _, hsize, _⟩
    rw [← hsize] at hlong ⊢
    exact payloadSizeOf_lt hlong
  · intro h
    refine ⟨_, uploadFile_of_lt h, payloadSizeOf_uint64Bytes h fileSizeBuffer.property, ?_⟩
    have hends := ChunkLoops.ends_of_completeFor h ChunkLoops.completeFor_complete
    have hsize : (UInt64.ofNat fileContent.length).toNat = fileContent.length :=
      UInt64.toNat_ofNat_of_lt' (h.trans (by norm_num [UInt64.size]))
    rw [sendFilePacket, hsize]
    exact ⟨_, _, hends, rfl⟩

/-- A file of three bytes. -/
theorem size_preserved_iff_three : SizePreserved emptySizeBuffer [1, 2, 3] := by
  have hlong : ([1, 2, 3] : Bytes).length < 2 ^ 63 := by decide
  have hshort : ([1, 2, 3] : Bytes).length < 2 ^ 31 := by decide
  exact (size_preserved_iff hlong).2 hshort

/-- A file of `2 ^ 31` bytes: what the server decodes is not its length. -/
theorem size_of_two_pow_not_preserved :
    ¬∀ (fileSizeBuffer : CharArray 8) (fileContent : Bytes), fileContent.length < 2 ^ 63 →
      SizePreserved fileSizeBuffer fileContent := by
  intro h
  obtain ⟨fileContent, hlength⟩ : ∃ fileContent : Bytes, fileContent.length = 2 ^ 31 :=
    ⟨List.replicate (2 ^ 31) 0, List.length_replicate⟩
  have hlong : fileContent.length < 2 ^ 63 := by
    rw [hlength]
    norm_num
  rcases h emptySizeBuffer fileContent hlong with ⟨packet, _, hsize, _⟩
  have hsmall := payloadSizeOf_lt (hsize.trans_lt hlong)
  have hint : fileContent.length < 2 ^ 31 := hsize ▸ hsmall
  rw [hlength] at hint
  exact lt_irrefl _ hint

end Sizes

end FileSize
end Client
end DropboxSimulator
