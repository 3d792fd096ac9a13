import DropboxSimulator.Library.Streams
import DropboxSimulator.Packets

/-!
# Transfer — the functions that move bytes over a socket

The reading and writing functions that `Client` and `Server` share: single reads and writes, and
the two loops that move a payload of a known size in chunks of `BUFFER_SIZE` bytes.  The loops
count in `int` and are given sizes as `size_t`, so the conversions are written out.

The programs in this file are states of a larger program: each takes the states to go on in.
-/

namespace DropboxSimulator

open Library

/-- A `size_t` passed as an `int`. -/
def toInt (n : Nat) : Int :=
  Int.bmod n (2 ^ 32)

/-- An `int` converted to `size_t`. -/
def toSize (i : Int) : Nat :=
  (i % 2 ^ 64).toNat

/-- The message `"ack"`. -/
def ackBytes : Bytes :=
  [97, 99, 107]

/-- `determineCorrectSizeToBeRead` of the server; `determineCorrectSizeToBeCopied` of the client
and the server is the same function. -/
def determineCorrectSizeToBeRead (payloadSize bytesReadFromSocket : Int) : Int :=
  if payloadSize - bytesReadFromSocket ≥ bufferSize then
    bufferSize
  else
    payloadSize - bytesReadFromSocket

/-- `readDataFromSocket`: the buffer after one read; what did not arrive is left as it was. -/
def readDataFromSocket (buffer arrived : Bytes) : Bytes :=
  arrived ++ buffer.drop arrived.length

/-- The number that `*(int *) fileSizeBuffer` yields once it is widened to `uint64_t`. -/
def payloadSizeOf (fileSizeBuffer : Bytes) : Nat :=
  toSize (int32OfBytes (fileSizeBuffer.take 4)).toInt

/-! ## Reading a payload -/

section Programs

variable {σ ε : Type}

/-- One round of the loop of `Server::readLargePayloadFromSocket` after the bytes `got`: a short
read ends the thread. -/
def readLargePayloadFromSocket (size : Nat) (got : Bytes) (again done : Bytes → σ) (exit : σ) :
    Request σ ε :=
  let bufferSize := determineCorrectSizeToBeRead (toInt size) (toInt got.length)
  .read (toSize bufferSize) fun bs =>
    -- the branch that ends the thread
    if (bs.length : Int) ≠ bufferSize then
      exit
    else if toSize (toInt (got.length + bs.length)) < size then
      again (got ++ bs)
    else
      done (got ++ bs)

theorem readLargePayloadFromSocket_map {τ φ : Type} (f : σ → τ) (g : ε → φ) (size : Nat)
    (got : Bytes) (again done : Bytes → σ) (exit : σ) :
    (readLargePayloadFromSocket size got again done exit : Request σ ε).map f g =
      readLargePayloadFromSocket size got (fun bs => f (again bs)) (fun bs => f (done bs))
        (f exit) := by
  simp only [readLargePayloadFromSocket, Request.map, apply_ite f]

/-- One round of the loop of `Client::readLargePayloadFromSocket`: a short read ends the loop, and
what it returned is not copied. -/
def Client.readLargePayloadFromSocket (size : Nat) (got : Bytes) (again done : Bytes → σ) :
    Request σ ε :=
  DropboxSimulator.readLargePayloadFromSocket size got again done (done got)

/-- What the local buffers for a size and for a payload hold before they are read into. -/
structure Client.ReceiveBuffers where
  fileSizeBuffer : CharArray 8
  payload : (payloadSize : Nat) → CharArray payloadSize

/-- Buffers of zeroes. -/
def Client.emptyReceiveBuffers : Client.ReceiveBuffers where
  fileSizeBuffer := emptySizeBuffer
  payload := fun payloadSize => ⟨List.replicate payloadSize 0, by simp⟩

/-- `waitForSocketAck`: one read of at most eight bytes, whose content is not looked at. -/
def waitForSocketAck (k : σ) : Request σ ε :=
  .read 8 fun _ => k

/-- `writeAckIntoSocket(socket, "ack")`. -/
def writeAckIntoSocket (k : σ) : Request σ ε :=
  .write ackBytes k

end Programs

/-! ## Writing a payload -/

/-- The loop of `sendLargePayloadToSocket` from the counter `written` on, with every write
complete, for at most `fuel` rounds: the bytes of each write. -/
def sendLoop (data : Bytes) (totalSize : Nat) : Nat → Int → List Bytes
  | 0, _ => []
  | fuel + 1, written =>
      let bufferSize := determineCorrectSizeToBeRead (toInt totalSize) written
      (data.drop written.toNat).take bufferSize.toNat ::
        if toSize (written + bufferSize) < totalSize then
          sendLoop data totalSize fuel (written + bufferSize)
        else
          []

/-- `sendLargePayloadToSocket` of a whole payload.  Each round but the last writes `BUFFER_SIZE`
bytes, so the loop ends within the given number of rounds. -/
def sendLargePayloadToSocket (data : Bytes) : List Bytes :=
  sendLoop data data.length (data.length + 1) 0

/-- The writes that put bytes on the stream. -/
def solid (writes : List Bytes) : List Bytes :=
  writes.filter (· ≠ [])

/-- A read that fills the buffer leaves nothing of what it held. -/
theorem readDataFromSocket_of_length {buffer arrived : Bytes} (h : buffer.length = arrived.length) :
    readDataFromSocket buffer arrived = arrived := by
  rw [readDataFromSocket, List.drop_eq_nil_of_le h.le, List.append_nil]

/-! ## Sizes below `2 ^ 31` -/

section Sizes

theorem toInt_of_lt {n : Nat} (h : n < 2 ^ 31) : toInt n = n := by
  unfold toInt
  rw [Int.bmod_def]
  omega

theorem toSize_natCast {n : Nat} (h : n < 2 ^ 64) : toSize n = n := by
  unfold toSize
  omega

theorem toSize_toInt {n : Nat} (h : n < 2 ^ 31) : toSize (toInt n) = n := by
  rw [toInt_of_lt h, toSize_natCast (h.trans (by norm_num))]

/-- On sizes an `int` can hold, the chunk size is what is left, at most `BUFFER_SIZE`. -/
theorem determineCorrectSizeToBeRead_natCast {n i : Nat} (h : i ≤ n) :
    determineCorrectSizeToBeRead n i = (min bufferSize (n - i) : Nat) := by
  unfold determineCorrectSizeToBeRead
  simp only [bufferSize]
  split <;> omega

/-- The size that is read is an `int`, so it is negative if it is not small. -/
theorem payloadSizeOf_lt_or (buffer : Bytes) : payloadSizeOf buffer < 2 ^ 31 ∨
    (toInt (payloadSizeOf buffer) < 0 ∧ 2 ^ 63 ≤ payloadSizeOf buffer) := by
  unfold payloadSizeOf
  have hlow := Int32.le_toInt (int32OfBytes (buffer.take 4))
  have hhigh := Int32.toInt_lt (int32OfBytes (buffer.take 4))
  generalize (int32OfBytes (buffer.take 4)).toInt = i at hlow hhigh ⊢
  unfold toInt toSize
  rw [Int.bmod_def]
  omega

/-- A size below `2 ^ 31` survives its way over the wire: eight bytes of which four are read. -/
theorem payloadSizeOf_uint64Bytes {n : Nat} (h : n < 2 ^ 31) {buffer : Bytes}
    (hbuffer : buffer.length = 8) :
    payloadSizeOf (readDataFromSocket buffer (uint64Bytes (UInt64.ofNat n))) = n := by
  have h64 : (UInt64.ofNat n).toNat = n :=
    UInt64.toNat_ofNat_of_lt' (h.trans (by norm_num [UInt64.size]))
  have h4 : n < 256 ^ 4 := h.trans (by norm_num)
  -- all eight bytes arrive, and the four that are read are the low ones
  have hlow : (readDataFromSocket buffer (uint64Bytes (UInt64.ofNat n))).take 4 = leBytes 4 n := by
    rw [readDataFromSocket_of_length (hbuffer.trans (length_uint64Bytes _).symm), uint64Bytes, h64,
      take_leBytes (by norm_num)]
  calc
    payloadSizeOf (readDataFromSocket buffer (uint64Bytes (UInt64.ofNat n)))
        = toSize (int32OfBytes (leBytes 4 n)).toInt := by
          rw [payloadSizeOf, hlow]
    _ = toSize n := by
          rw [int32OfBytes, leValue_leBytes_of_lt h4, UInt32.toInt32_ofNat',
            Int32.toInt_ofNat_of_lt h]
    _ = n := toSize_natCast (h.trans (by norm_num))

end Sizes

section Loops

variable {σ ε : Type} {next : σ → Request σ ε} {again done : Bytes → σ} {exit : σ}

/-- The reading loop in terms of what is left, for sizes below `2 ^ 31`. -/
theorem readLargePayloadFromSocket_eq {size : Nat} {got : Bytes} (hsize : size < 2 ^ 31)
    (hgot : got.length ≤ size) :
    (readLargePayloadFromSocket size got again done exit : Request σ ε) =
      .read (min bufferSize (size - got.length)) fun bs =>
        if bs.length ≠ min bufferSize (size - got.length) then exit
        else if toSize (toInt (got.length + bs.length)) < size then again (got ++ bs)
        else done (got ++ bs) := by
  have hgot31 : got.length < 2 ^ 31 := hgot.trans_lt hsize
  have hmin : min bufferSize (size - got.length) < 2 ^ 64 :=
    (min_le_left _ _).trans_lt (by norm_num)
  simp only [readLargePayloadFromSocket, toInt_of_lt hsize, toInt_of_lt hgot31,
    determineCorrectSizeToBeRead_natCast hgot, toSize_natCast hmin, ne_eq, Nat.cast_inj]

theorem sendLoop_succ {data : Bytes} {fuel i : Nat} (hlen : data.length < 2 ^ 31)
    (hi : i ≤ data.length) :
    sendLoop data data.length (fuel + 1) i =
      (data.drop i).take (min bufferSize (data.length - i)) ::
        if i + min bufferSize (data.length - i) < data.length then
          sendLoop data data.length fuel (i + min bufferSize (data.length - i) : Nat)
        else
          [] := by
  have hle : i + min bufferSize (data.length - i) ≤ data.length := by omega
  have hlt : i + min bufferSize (data.length - i) < 2 ^ 64 :=
    hle.trans_lt (hlen.trans (by norm_num))
  simp only [sendLoop, toInt_of_lt hlen, determineCorrectSizeToBeRead_natCast hi,
    Int.toNat_natCast, ← Nat.cast_add, toSize_natCast hlt]

/-- A payload sent by the loop of one side is read by the loop of the other, chunk by chunk. -/
theorem consumes_sendLoop {short : Bytes → σ} {data : Bytes} (hlen : data.length < 2 ^ 31)
    (hnext : ∀ got : Bytes, got.length ≤ data.length → next (again got) =
      readLargePayloadFromSocket data.length got again done (short got))
    (fuel i : Nat) (hi : i < data.length) (hfuel : data.length < fuel + i) :
    Consumes next (again (data.take i)) (solid (sendLoop data data.length fuel i)) [] []
      (done data) := by
  induction fuel generalizing i with
  | zero =>
      omega
  | succ fuel ih =>
      have htake : (data.take i).length = i := by simp [hi.le]
      have hstep := hnext (data.take i) (by omega)
      rw [readLargePayloadFromSocket_eq hlen (by omega), htake] at hstep
      rw [sendLoop_succ hlen hi.le]
      obtain ⟨b, hb⟩ : ∃ b, min bufferSize (data.length - i) = b := ⟨_, rfl⟩
      rw [hb] at hstep ⊢
      have hbpos : 0 < b := by
        simp only [bufferSize] at hb
        omega
      have hbi : i + b ≤ data.length := by omega
      -- the next write has `b` bytes, and the next read asks for as many
      have hchunk : ((data.drop i).take b).length = b := by
        simp only [List.length_take, List.length_drop]
        omega
      have hne : (data.drop i).take b ≠ [] := fun h => by
        rw [h] at hchunk
        exact hbpos.ne hchunk
      have hgot : data.take i ++ (data.drop i).take b = data.take (i + b) := by
        rw [List.take_add]
      rw [solid, List.filter_cons_of_pos (by simpa using hne)]
      rw [← hchunk] at hstep
      refine .read hne hstep ?_
      rw [if_neg (fun h => h rfl), hgot, hchunk, toSize_toInt (hbi.trans_lt hlen)]
      -- both loops stop when all of the payload has been moved
      by_cases hmore : i + b < data.length
      · rw [if_pos hmore, if_pos hmore]
        exact ih (i + b) hmore (by omega)
      · have hall : i + b = data.length := by omega
        rw [if_neg hmore, if_neg hmore, hall, List.take_length]
        exact .done _

/-- The two loops agree on every payload, also on the empty one, where they do one round. -/
theorem consumes_sendLargePayloadToSocket {data : Bytes} (again done short : Bytes → σ)
    (hlen : data.length < 2 ^ 31)
    (hnext : ∀ got : Bytes, got.length ≤ data.length → next (again got) =
      readLargePayloadFromSocket data.length got again done (short got)) :
    Consumes next (again []) (solid (sendLargePayloadToSocket data)) [] [] (done data) := by
  cases data with
  | nil =>
      -- a write and a read of no bytes
      have hstep := hnext [] le_rfl
      rw [readLargePayloadFromSocket_eq hlen le_rfl] at hstep
      exact .skip hstep (.done _)
  | cons b data =>
      exact consumes_sendLoop hlen hnext _ 0 (by simp) (by omega)

theorem sendLoop_ne_nil {data : Bytes} (hlen : data.length < 2 ^ 31) (fuel i : Nat)
    (hi : i < data.length) : ∀ c ∈ sendLoop data data.length fuel i, c ≠ [] := by
  induction fuel generalizing i with
  | zero =>
      simp [sendLoop]
  | succ fuel ih =>
      intro c hc
      rw [sendLoop_succ hlen hi.le] at hc
      rcases List.mem_cons.1 hc with rfl | hc
      · simp only [ne_eq, ← List.length_eq_zero_iff, List.length_take, List.length_drop, bufferSize]
        omega
      · split at hc
        · next hmore => exact ih _ hmore c hc
        · cases hc

/-- Every write of a payload that is not empty puts bytes on the stream. -/
theorem solid_sendLargePayloadToSocket {data : Bytes} (hlen : data.length < 2 ^ 31)
    (hne : data ≠ []) :
    solid (sendLargePayloadToSocket data) = sendLargePayloadToSocket data := by
  refine List.filter_eq_self.2 fun c hc => ?_
  simpa using sendLoop_ne_nil hlen _ 0 (List.length_pos_iff.2 hne) c hc

/-- The loop writes what is left of the payload. -/
theorem flatten_sendLoop {data : Bytes} (hlen : data.length < 2 ^ 31) (fuel i : Nat)
    (hi : i ≤ data.length) (hfuel : data.length < fuel + i) :
    (sendLoop data data.length fuel i).flatten = data.drop i := by
  induction fuel generalizing i with
  | zero =>
      omega
  | succ fuel ih =>
      rw [sendLoop_succ hlen hi, List.flatten_cons]
      by_cases hmore : i + min bufferSize (data.length - i) < data.length
      · have hsplit : data.drop (i + min bufferSize (data.length - i)) =
            (data.drop i).drop (min bufferSize (data.length - i)) := by
          rw [List.drop_drop]
        rw [if_pos hmore, ih _ hmore.le (by simp only [bufferSize] at hmore ⊢; omega), hsplit,
          List.take_append_drop]
      · rw [if_neg hmore, List.flatten_nil, List.append_nil]
        exact List.take_of_length_le (by rw [List.length_drop]; omega)

theorem flatten_sendLargePayloadToSocket {data : Bytes} (hlen : data.length < 2 ^ 31) :
    (sendLargePayloadToSocket data).flatten = data :=
  flatten_sendLoop hlen _ 0 (Nat.zero_le _) (by omega)

theorem sendLargePayloadToSocket_ne_nil {data : Bytes} : sendLargePayloadToSocket data ≠ [] := by
  simp [sendLargePayloadToSocket, sendLoop]

end Loops

end DropboxSimulator
