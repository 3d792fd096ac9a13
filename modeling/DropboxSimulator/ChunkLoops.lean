import DropboxSimulator.Library.DoWhile
import DropboxSimulator.Transfer

/-!
# ChunkLoops — the loops that move a payload, round by round

`sendLargePayloadToSocket` and `readLargePayloadFromSocket` exist in `Client` and in `Server`, and
`Server::sendLargePayload` once more.  Here their rounds are written with the counters, the local
buffer and the results of `read` and `write` that the loops of `Transfer` leave out.

A round notes the chunk size that it computes.  `memcpy` outside the payload, or of more than the
local buffer holds, ends a loop without a result.  The counters of type `int` never leave the range
of `int` before that.
-/

namespace DropboxSimulator
namespace ChunkLoops

open Library

/-- `determineCorrectSizeToBeCopied` of the client and of the server. -/
def determineCorrectSizeToBeCopied (totalSize bytesWritenInSocket : Int) : Int :=
  if totalSize - bytesWritenInSocket ≥ bufferSize then
    bufferSize
  else
    totalSize - bytesWritenInSocket

/-! ## Sending -/

/-- How many bytes the `i`-th write of a loop accepts when it is given `k`. -/
structure Writes where
  accepts : Nat → Nat → Nat
  accepts_le : ∀ i k, accepts i k ≤ k
  accepts_pos : ∀ i k, 0 < k → 0 < accepts i k

/-- Every write is complete. -/
def Writes.complete : Writes where
  accepts := fun _ k => k
  accepts_le := fun _ _ => le_rfl
  accepts_pos := fun _ _ h => h

/-- The variables of a sending loop, the number of its writes and the stream behind them. -/
structure Sending where
  bytesCopiedFromPayload : Int
  bytesWritenInSocket : Int
  writes : Nat
  stream : Bytes
  deriving DecidableEq

def Sending.start : Sending where
  bytesCopiedFromPayload := 0
  bytesWritenInSocket := 0
  writes := 0
  stream := []

/-- What a sending loop returns, with the stream it leaves. -/
structure Sent where
  returned : Int
  stream : Bytes
  deriving DecidableEq

/-- `memcpy(buffer, data + offset, size)` into a buffer of `BUFFER_SIZE` bytes. -/
def copyFromPayload (data : Bytes) (offset : Int) (size : Nat) : Option Bytes :=
  if 0 ≤ offset ∧ offset + size ≤ data.length ∧ size ≤ bufferSize then
    some ((data.drop offset.toNat).take size)
  else
    none

/-- One round of a sending loop. -/
def sendRound (determineCorrectSize : Int → Int → Int) (data : Bytes) (totalSize : Nat)
    (w : Writes) (s : Sending) : Int × Outcome Sending (Option Sent) :=
  let bufferSize := determineCorrectSize (toInt totalSize) s.bytesWritenInSocket
  let outcome :=
    match copyFromPayload data s.bytesCopiedFromPayload (toSize bufferSize) with
    | none => .stop none
    | some buffer =>
        let bytesWritenInCurrentIteration := w.accepts s.writes (toSize bufferSize)
        let bytesWritenInSocket := s.bytesWritenInSocket + bytesWritenInCurrentIteration
        let stream := s.stream ++ buffer.take bytesWritenInCurrentIteration
        if toSize bytesWritenInSocket < totalSize then
          .again
            { bytesCopiedFromPayload := s.bytesCopiedFromPayload + bufferSize
              bytesWritenInSocket := bytesWritenInSocket
              writes := s.writes + 1
              stream := stream }
        else
          .stop (some ⟨bytesWritenInSocket, stream⟩)
  (bufferSize, outcome)

def Client.sendLargePayloadToSocket := sendRound determineCorrectSizeToBeCopied

def Server.sendLargePayloadToSocket := sendRound determineCorrectSizeToBeRead

def Server.sendLargePayload := sendRound determineCorrectSizeToBeCopied

/-- A sending loop terminates with the payload on the stream and returns its length. -/
def Sends (round : Bytes → Nat → Writes → Sending → Int × Outcome Sending (Option Sent))
    (data : Bytes) (w : Writes) : Prop :=
  ∃ chunks, Ends (round data data.length w) .start chunks (some ⟨data.length, data⟩)

/-- The writes of a loop that never writes short accept all they are given. -/
def Writes.CompleteFor (w : Writes) (n : Nat) : Prop :=
  ∀ i, bufferSize * i < n →
    w.accepts i (min bufferSize (n - bufferSize * i)) = min bufferSize (n - bufferSize * i)

section Sending

variable {data : Bytes} {w : Writes} {s t : Sending} {chunks : List Int} {i j : Nat}

theorem determineCorrectSizeToBeCopied_eq :
    determineCorrectSizeToBeCopied = determineCorrectSizeToBeRead :=
  rfl

/-- The three sending loops are one. -/
theorem senders_eq : Client.sendLargePayloadToSocket = Server.sendLargePayloadToSocket ∧
    Server.sendLargePayload = Server.sendLargePayloadToSocket :=
  ⟨rfl, rfl⟩

/-- The state of a loop that has copied `i` bytes and written `j`. -/
def Sending.counted (i j writes : Nat) (stream : Bytes) : Sending where
  bytesCopiedFromPayload := i
  bytesWritenInSocket := j
  writes := writes
  stream := stream

theorem copyFromPayload_natCast {k : Nat} : copyFromPayload data i k =
    if i + k ≤ data.length ∧ k ≤ bufferSize then some ((data.drop i).take k) else none := by
  have hiff : ((0 : Int) ≤ i ∧ (i : Int) + k ≤ data.length ∧ k ≤ bufferSize) ↔
      i + k ≤ data.length ∧ k ≤ bufferSize := by omega
  simp only [copyFromPayload, hiff, Int.toNat_natCast]

/-- A round for a payload shorter than `2 ^ 31`: it copies behind the bytes copied and computes the
chunk size from the bytes written. -/
theorem sendRound_counted {writes : Nat} {stream : Bytes} (hlen : data.length < 2 ^ 31)
    (hj : j ≤ data.length) {size accepted : Nat} (hsize : min bufferSize (data.length - j) = size)
    (haccepted : w.accepts writes size = accepted) :
    Server.sendLargePayloadToSocket data data.length w (.counted i j writes stream) =
      ((size : Int),
        if i + size ≤ data.length then
          if j + accepted < data.length then
            .again (.counted (i + size) (j + accepted) (writes + 1)
              (stream ++ ((data.drop i).take size).take accepted))
          else
            .stop (some ⟨(j + accepted : Nat), stream ++ ((data.drop i).take size).take accepted⟩)
        else
          .stop none) := by
  have hsmall : size ≤ bufferSize := by omega
  have hle : accepted ≤ size := haccepted ▸ w.accepts_le writes size
  have hsize64 : toSize (size : Int) = size :=
    toSize_natCast (hsmall.trans_lt (by norm_num))
  have hwritten : toSize ((j + accepted : Nat) : Int) = j + accepted := toSize_natCast (by omega)
  have hchunk : determineCorrectSizeToBeRead data.length j = size := by
    rw [determineCorrectSizeToBeRead_natCast hj, hsize]
  simp only [Server.sendLargePayloadToSocket, sendRound, Sending.counted, toInt_of_lt hlen, hchunk,
    hsize64, haccepted, copyFromPayload_natCast, hsmall, and_true]
  by_cases hin : i + size ≤ data.length
  · simp only [if_pos hin, ← Nat.cast_add, hwritten]
  · simp only [if_neg hin]

/-- A round that is followed by another has written less than all. -/
theorem again_sendRound {writes : Nat} {stream : Bytes} {e : Int} (hlen : data.length < 2 ^ 31)
    (hj : j ≤ data.length)
    (h : Server.sendLargePayloadToSocket data data.length w (.counted i j writes stream) =
      (e, .again t)) :
    ∃ accepted stream', w.accepts writes (min bufferSize (data.length - j)) = accepted ∧
      j + accepted < data.length ∧
      t = .counted (i + min bufferSize (data.length - j)) (j + accepted) (writes + 1) stream' := by
  rw [sendRound_counted hlen hj rfl rfl] at h
  have houtcome := congrArg Prod.snd h
  simp only at houtcome
  split at houtcome
  · split at houtcome
    · next hmore =>
        cases houtcome
        exact ⟨_, _, rfl, hmore, rfl⟩
    · cases houtcome
  · cases houtcome

/-- A round that ends a loop with a result has copied from the payload and written all. -/
theorem stop_sendRound {writes : Nat} {stream : Bytes} {e : Int} {sent : Sent}
    (hlen : data.length < 2 ^ 31) (hj : j ≤ data.length)
    (h : Server.sendLargePayloadToSocket data data.length w (.counted i j writes stream) =
      (e, .stop (some sent))) :
    i + min bufferSize (data.length - j) ≤ data.length ∧
      data.length ≤ j + w.accepts writes (min bufferSize (data.length - j)) := by
  rw [sendRound_counted hlen hj rfl rfl] at h
  have houtcome := congrArg Prod.snd h
  simp only at houtcome
  split at houtcome
  · next hin =>
      split at houtcome
      · cases houtcome
      · next hall =>
          exact ⟨hin, not_lt.1 hall⟩
  · cases houtcome

/-- The state behind `j` complete writes. -/
def Sending.complete (data : Bytes) (j : Nat) : Sending :=
  .counted (bufferSize * j) (bufferSize * j) j (data.take (bufferSize * j))

/-- While every write is complete, the loop goes through the payload by chunks. -/
theorem ends_of_completeFor (hlen : data.length < 2 ^ 31) (hw : w.CompleteFor data.length) :
    Ends (Server.sendLargePayloadToSocket data data.length w) .start
      (chunkSizes bufferSize data.length) (some ⟨data.length, data⟩) := by
  have hagain : ∀ j, bufferSize < data.length - bufferSize * j →
      Server.sendLargePayloadToSocket data data.length w (.complete data j) =
        ((bufferSize : Int), .again (.complete data (j + 1))) := by
    intro j hj
    have hsize : min bufferSize (data.length - bufferSize * j) = bufferSize := by omega
    have haccepted : w.accepts j bufferSize = bufferSize := by
      have hfull := hw j (by omega)
      rwa [hsize] at hfull
    have hin : bufferSize * j + bufferSize ≤ data.length := by omega
    have hmore : bufferSize * j + bufferSize < data.length := by omega
    rw [Sending.complete, sendRound_counted hlen (by omega) hsize haccepted, if_pos hin,
      if_pos hmore, List.take_take, min_self, ← List.take_add, Sending.complete, Nat.mul_succ]
  have hstop : ∀ j, bufferSize * j ≤ data.length → data.length - bufferSize * j ≤ bufferSize →
      Server.sendLargePayloadToSocket data data.length w (.complete data j) =
        (((data.length - bufferSize * j : Nat) : Int), .stop (some ⟨data.length, data⟩)) := by
    intro j hj hlast
    have hsize : min bufferSize (data.length - bufferSize * j) = data.length - bufferSize * j := by
      omega
    have haccepted : w.accepts j (data.length - bufferSize * j) =
        data.length - bufferSize * j := by
      by_cases hmore : bufferSize * j < data.length
      · have hfull := hw j hmore
        rwa [hsize] at hfull
      · have hle := w.accepts_le j (data.length - bufferSize * j)
        omega
    have hall : bufferSize * j + (data.length - bufferSize * j) = data.length := by omega
    rw [Sending.complete, sendRound_counted hlen hj hsize haccepted, hall, if_pos le_rfl,
      if_neg (lt_irrefl _), List.take_take, min_self, ← List.take_add, hall, List.take_length]
  have hchunks := ends_chunkSizes (by decide) hagain hstop 0 (Nat.zero_le _)
  exact hchunks

/-- Once a write was short, the loop copies bytes behind the payload. -/
theorem eq_none_of_behind {writes : Nat} {stream : Bytes} {r : Option Sent}
    (hlen : data.length < 2 ^ 31) (hbehind : j < i) (hj : j < data.length)
    (h : Ends (Server.sendLargePayloadToSocket data data.length w) (.counted i j writes stream)
      chunks r) : r = none := by
  refine h.invariant
    (P := fun s => ∃ i j writes stream, s = .counted i j writes stream ∧ j < i ∧ j < data.length)
    (Q := fun r => r = none) ⟨i, j, writes, stream, rfl, hbehind, hj⟩ ?_ ?_
  · intro s e t hs hbody
    rcases hs with ⟨i, j, writes, stream, rfl, hbehind, hj⟩
    rcases again_sendRound hlen hj.le hbody with ⟨accepted, stream', haccepted, hmore, rfl⟩
    have hle := w.accepts_le writes (min bufferSize (data.length - j))
    exact ⟨_, _, _, _, rfl, by omega, hmore⟩
  · intro s e r hs hbody
    rcases hs with ⟨i, j, writes, stream, rfl, hbehind, hj⟩
    cases r with
    | none =>
        rfl
    | some sent =>
        -- the last bytes could only be written if the copy went past the payload
        have hstop := stop_sendRound hlen hj.le hbody
        have hle := w.accepts_le writes (min bufferSize (data.length - j))
        omega

/-- A loop that returns has made complete writes only. -/
theorem complete_of_ends {stream : Bytes} {sent : Sent} (hlen : data.length < 2 ^ 31)
    (hj : bufferSize * j < data.length)
    (h : Ends (Server.sendLargePayloadToSocket data data.length w)
      (.counted (bufferSize * j) (bufferSize * j) j stream) chunks (some sent)) :
    ∀ k, j ≤ k → bufferSize * k < data.length →
      w.accepts k (min bufferSize (data.length - bufferSize * k)) =
        min bufferSize (data.length - bufferSize * k) := by
  obtain ⟨left, hleft⟩ : ∃ left, data.length - bufferSize * j = left := ⟨_, rfl⟩
  induction left using Nat.strong_induction_on generalizing j stream chunks with
  | _ left ih =>
      have hle := w.accepts_le j (min bufferSize (data.length - bufferSize * j))
      cases h with
      | stop hbody =>
          have hstop := stop_sendRound hlen hj.le hbody
          intro k hjk hk
          have hlast : k = j := by
            simp only [bufferSize] at *
            omega
          subst hlast
          omega
      | again hbody hrest =>
          rcases again_sendRound hlen hj.le hbody with ⟨accepted, stream', haccepted, hmore, rfl⟩
          by_cases hshort : accepted < min bufferSize (data.length - bufferSize * j)
          · have hbehind : bufferSize * j + accepted <
                bufferSize * j + min bufferSize (data.length - bufferSize * j) := by omega
            cases eq_none_of_behind hlen hbehind hmore hrest
          · have hfull : accepted = min bufferSize (data.length - bufferSize * j) := by omega
            have hsize : min bufferSize (data.length - bufferSize * j) = bufferSize := by omega
            intro k hjk hk
            rcases hjk.eq_or_lt with rfl | hlt
            · exact haccepted.trans hfull
            · rw [hfull, hsize, ← Nat.mul_succ] at hrest
              have hnext : bufferSize * (j + 1) < data.length := by
                rw [Nat.mul_succ]
                omega
              have hfewer : data.length - bufferSize * (j + 1) < left := by
                have hpos : 0 < bufferSize := by decide
                rw [Nat.mul_succ]
                omega
              exact ih _ hfewer hnext hrest rfl k hlt hk

/-- A sending loop does its work exactly if no write of it is short. -/
theorem sends_iff (hlen : data.length < 2 ^ 31) :
    Sends Server.sendLargePayloadToSocket data w ↔ w.CompleteFor data.length := by
  constructor
  · intro hsends
    rcases hsends with ⟨chunks, hends⟩
    intro i hi
    have hpos : bufferSize * 0 < data.length := by omega
    exact complete_of_ends hlen hpos hends i (Nat.zero_le i) hi
  · intro hw
    exact ⟨_, ends_of_completeFor hlen hw⟩

/-- The sending loops of the client and of the server terminate with exactly the payload on the
stream, copy no byte from behind it and return its length if and only if every write of theirs is
complete. -/
theorem sendLargePayload_sends_iff (hlen : data.length < 2 ^ 31) :
    (Sends Client.sendLargePayloadToSocket data w ↔ w.CompleteFor data.length) ∧
      (Sends Server.sendLargePayloadToSocket data w ↔ w.CompleteFor data.length) ∧
        (Sends Server.sendLargePayload data w ↔ w.CompleteFor data.length) :=
  ⟨sends_iff hlen, sends_iff hlen, sends_iff hlen⟩

/-- Five bytes, in writes that are all complete. -/
theorem sendLargePayload_sends_iff_five :
    Sends Client.sendLargePayloadToSocket [1, 2, 3, 4, 5] .complete ∧
      Sends Server.sendLargePayloadToSocket [1, 2, 3, 4, 5] .complete ∧
        Sends Server.sendLargePayload [1, 2, 3, 4, 5] .complete := by
  have hcomplete : Writes.complete.CompleteFor 5 := fun _ _ => rfl
  have hlen : ([1, 2, 3, 4, 5] : Bytes).length < 2 ^ 31 := by decide
  obtain ⟨hclient, hserver, hother⟩ := sendLargePayload_sends_iff hlen
  exact ⟨hclient.2 hcomplete, hserver.2 hcomplete, hother.2 hcomplete⟩

/-- The first write accepts at most three bytes, the others all they are given. -/
def threeThenAll : Writes where
  accepts := fun i k => if i = 0 then min 3 k else k
  accepts_le := by
    intro i k
    split <;> omega
  accepts_pos := by
    intro i k hk
    split <;> omega

/-- Five bytes, of which the first write accepts three: the second copy reads a byte behind them. -/
theorem short_write_reads_behind :
    ¬∀ (data : Bytes) (w : Writes), data.length < 2 ^ 31 →
      Sends Client.sendLargePayloadToSocket data w ∧ Sends Server.sendLargePayloadToSocket data w ∧
        Sends Server.sendLargePayload data w := by
  intro h
  have hsends := (h [1, 2, 3, 4, 5] threeThenAll (by decide)).2.1
  have hfull := (sends_iff (by decide)).1 hsends 0 (by decide)
  exact absurd hfull (by decide)

end Sending

/-! ## Receiving -/

/-- How many bytes the `i`-th read of a loop asks the stream for at most, when it wants `k`. -/
structure Reads where
  delivers : Nat → Nat → Nat
  delivers_le : ∀ i k, delivers i k ≤ k

/-- Every read is complete, as long as the stream has the bytes. -/
def Reads.complete : Reads where
  delivers := fun _ k => k
  delivers_le := fun _ _ => le_rfl

/-- The buffer and the counter of a receiving loop, the number of its reads and what they have left
of the stream. -/
structure Receiving where
  buffer : Bytes
  bytesReadFromSocket : Int
  reads : Nat
  unread : Bytes
  deriving DecidableEq

/-- What a receiving loop ends with. -/
inductive Received
  | threadExit
  | returned (bytesReadFromSocket : Int) (buffer unread : Bytes)
  /-- bytes are written outside the buffer, or outside the local one -/
  | overrun
  deriving DecidableEq

def Receiving.start (buffer stream : Bytes) : Receiving where
  buffer := buffer
  bytesReadFromSocket := 0
  reads := 0
  unread := stream

/-- `memcpy(buffer + offset, src, size)`. -/
def copyIntoBuffer (buffer : Bytes) (offset : Int) (src : Bytes) : Option Bytes :=
  if 0 ≤ offset ∧ offset + src.length ≤ buffer.length then
    some (buffer.take offset.toNat ++ src ++ buffer.drop (offset.toNat + src.length))
  else
    none

/-- One round of a receiving loop; `short` is what follows a read that was not complete. -/
def receiveRound (determineCorrectSize : Int → Int → Int) (short : Receiving → Received)
    (size : Nat) (r : Reads) (s : Receiving) : Int × Outcome Receiving Received :=
  let bufferSize := determineCorrectSize (toInt size) s.bytesReadFromSocket
  let arrived := s.unread.take (r.delivers s.reads (toSize bufferSize))
  let s : Receiving := { s with reads := s.reads + 1, unread := s.unread.drop arrived.length }
  let outcome :=
    if DropboxSimulator.bufferSize < arrived.length then
      .stop .overrun
    else if (arrived.length : Int) ≠ bufferSize then
      .stop (short s)
    else
      match copyIntoBuffer s.buffer s.bytesReadFromSocket arrived with
      | none => .stop .overrun
      | some buffer =>
          let bytesReadFromSocket := s.bytesReadFromSocket + bufferSize
          if toSize bytesReadFromSocket < size then
            .again { s with buffer := buffer, bytesReadFromSocket := bytesReadFromSocket }
          else
            .stop (.returned bytesReadFromSocket buffer s.unread)
  (bufferSize, outcome)

/-- `pthread_exit` follows a short read. -/
def Server.readLargePayloadFromSocket :=
  receiveRound determineCorrectSizeToBeRead fun _ => .threadExit

/-- `break` follows a short read. -/
def Client.readLargePayloadFromSocket :=
  receiveRound determineCorrectSizeToBeCopied fun s =>
    .returned s.bytesReadFromSocket s.buffer s.unread

section Receiving

variable {buffer stream : Bytes} {r : Reads} {short : Receiving → Received} {n i j : Nat}

/-- The state of a loop that has read the first `i` bytes of the stream. -/
def Receiving.filled (buffer stream : Bytes) (i reads : Nat) : Receiving where
  buffer := stream.take i ++ buffer.drop i
  bytesReadFromSocket := i
  reads := reads
  unread := stream.drop i

/-- The next bytes of the stream are put behind those that were read before. -/
theorem copyIntoBuffer_filled {arrived : Bytes} {size : Nat} (hstream : i ≤ stream.length)
    (hbuffer : i + size ≤ buffer.length) (hsize : arrived.length = size)
    (harrived : stream.take i ++ arrived = stream.take (i + size)) :
    copyIntoBuffer (stream.take i ++ buffer.drop i) i arrived =
      some (stream.take (i + size) ++ buffer.drop (i + size)) := by
  have htake : (stream.take i).length = i := by
    rw [List.length_take, min_eq_left hstream]
  have hfits : (0 : Int) ≤ (i : Int) ∧
      (i : Int) + arrived.length ≤ (stream.take i ++ buffer.drop i).length := by
    rw [List.length_append, htake, List.length_drop]
    omega
  have hfirst : (stream.take i ++ buffer.drop i).take i = stream.take i := List.take_left' htake
  have hbehind : (stream.take i ++ buffer.drop i).drop (i + arrived.length) =
      buffer.drop (i + size) := by
    rw [← List.drop_drop, List.drop_left' htake, List.drop_drop, hsize]
  rw [copyIntoBuffer, if_pos hfits, Int.toNat_natCast, hfirst, hbehind, harrived]

/-- What was read before, and what a read gets of the stream behind it. -/
theorem take_append_arrived {asked size : Nat} (h : min asked (stream.length - i) = size) :
    stream.take i ++ (stream.drop i).take asked = stream.take (i + size) := by
  have hsame : (stream.drop i).take asked = (stream.drop i).take size := by
    rw [List.take_eq_take_iff, List.length_drop]
    omega
  rw [hsame, ← List.take_add]

/-- A round for a size below `2 ^ 31`, of which the buffer holds the first `i` bytes. -/
theorem receiveRound_filled {reads : Nat} (hn : n < 2 ^ 31) (hi : i ≤ n)
    (hstream : i ≤ stream.length)
    (hbuffer : n ≤ buffer.length) {size delivered : Nat} (hsize : min bufferSize (n - i) = size)
    (hdelivered : min (r.delivers reads size) (stream.length - i) = delivered) :
    receiveRound determineCorrectSizeToBeRead short n r (.filled buffer stream i reads) =
      ((size : Int),
        if delivered ≠ size then
          .stop (short { Receiving.filled buffer stream i (reads + 1) with
            unread := stream.drop (i + delivered) })
        else if i + size < n then
          .again (.filled buffer stream (i + size) (reads + 1))
        else
          .stop (.returned (i + size : Nat) (stream.take (i + size) ++ buffer.drop (i + size))
            (stream.drop (i + size)))) := by
  have hsmall : size ≤ bufferSize := by omega
  have hle : delivered ≤ size := by
    have hreads := r.delivers_le reads size
    omega
  have hsize64 : toSize (size : Int) = size :=
    toSize_natCast (hsmall.trans_lt (by norm_num))
  have hnext : toSize ((i + size : Nat) : Int) = i + size := toSize_natCast (by omega)
  have hchunk : determineCorrectSizeToBeRead n i = size := by
    rw [determineCorrectSizeToBeRead_natCast hi, hsize]
  have harrived : ((stream.drop i).take (r.delivers reads size)).length = delivered := by
    rw [List.length_take, List.length_drop, hdelivered]
  have hlocal : ¬bufferSize < delivered := by omega
  simp only [receiveRound, Receiving.filled, toInt_of_lt hn, hchunk, hsize64, harrived,
    if_neg hlocal, List.drop_drop, ne_eq, Nat.cast_inj]
  by_cases hshort : delivered = size
  · have htake := take_append_arrived (hdelivered.trans hshort)
    have hcopy := copyIntoBuffer_filled hstream (by omega : i + size ≤ buffer.length)
      (harrived.trans hshort) htake
    rw [if_neg (not_not.2 hshort), if_neg (not_not.2 hshort), hcopy, hshort]
    simp only [← Nat.cast_add, hnext]
  · rw [if_pos hshort, if_pos hshort]

/-- A receiving loop terminates.  It ends with a short read, or with the first `n` bytes of the
stream in its buffer. -/
theorem receive_total (hn : n < 2 ^ 31) (hbuffer : n ≤ buffer.length) :
    ∃ chunks result, Ends (receiveRound determineCorrectSizeToBeRead short n r)
        (.start buffer stream) chunks result ∧
      ((∃ s, result = short s) ∨ n ≤ stream.length ∧
        result = .returned n (stream.take n ++ buffer.drop n) (stream.drop n)) := by
  refine ends_total
    (P := fun s => ∃ i reads, s = .filled buffer stream i reads ∧ i ≤ n ∧ i ≤ stream.length)
    (fun s => n - s.bytesReadFromSocket.toNat) ⟨0, 0, rfl, Nat.zero_le n, Nat.zero_le _⟩ ?_ ?_
  · intro s e t hs hbody
    rcases hs with ⟨i, reads, rfl, hi, hstream⟩
    rw [receiveRound_filled hn hi hstream hbuffer rfl rfl] at hbody
    have houtcome := congrArg Prod.snd hbody
    simp only at houtcome
    split at houtcome
    · cases houtcome
    · next hfull =>
        split at houtcome
        · next hmore =>
            cases houtcome
            refine ⟨⟨_, _, rfl, hmore.le, by omega⟩, ?_⟩
            simp only [Receiving.filled, Int.toNat_natCast, bufferSize] at hmore ⊢
            omega
        · cases houtcome
  · intro s e result hs hbody
    rcases hs with ⟨i, reads, rfl, hi, hstream⟩
    rw [receiveRound_filled hn hi hstream hbuffer rfl rfl] at hbody
    have houtcome := congrArg Prod.snd hbody
    simp only at houtcome
    split at houtcome
    · cases houtcome
      exact Or.inl ⟨_, rfl⟩
    · next hfull =>
        split at houtcome
        · cases houtcome
        · next hlast =>
            have hall : i + min bufferSize (n - i) = n := by omega
            rw [hall] at houtcome
            cases houtcome
            exact Or.inr ⟨by omega, rfl⟩

/-- With complete reads the loop goes through the size by chunks. -/
theorem receive_complete (hn : n < 2 ^ 31) (hbuffer : n ≤ buffer.length)
    (hstream : n ≤ stream.length) :
    Ends (receiveRound determineCorrectSizeToBeRead short n .complete) (.start buffer stream)
      (chunkSizes bufferSize n)
      (.returned n (stream.take n ++ buffer.drop n) (stream.drop n)) := by
  have hagain : ∀ j, bufferSize < n - bufferSize * j →
      receiveRound determineCorrectSizeToBeRead short n .complete
          (.filled buffer stream (bufferSize * j) j) =
        ((bufferSize : Int), .again (.filled buffer stream (bufferSize * (j + 1)) (j + 1))) := by
    intro j hj
    have hsize : min bufferSize (n - bufferSize * j) = bufferSize := by omega
    have hdelivered : min (Reads.complete.delivers j bufferSize) (stream.length - bufferSize * j) =
        bufferSize := by
      simp only [Reads.complete]
      omega
    have hmore : bufferSize * j + bufferSize < n := by omega
    rw [receiveRound_filled hn (by omega) (by omega) hbuffer hsize hdelivered,
      if_neg (not_not.2 rfl), if_pos hmore, Nat.mul_succ]
  have hstop : ∀ j, bufferSize * j ≤ n → n - bufferSize * j ≤ bufferSize →
      receiveRound determineCorrectSizeToBeRead short n .complete
          (.filled buffer stream (bufferSize * j) j) =
        (((n - bufferSize * j : Nat) : Int),
          .stop (.returned n (stream.take n ++ buffer.drop n) (stream.drop n))) := by
    intro j hj hlast
    have hsize : min bufferSize (n - bufferSize * j) = n - bufferSize * j := by omega
    have hdelivered : min (Reads.complete.delivers j (n - bufferSize * j))
        (stream.length - bufferSize * j) = n - bufferSize * j := by
      simp only [Reads.complete]
      omega
    have hall : bufferSize * j + (n - bufferSize * j) = n := by omega
    rw [receiveRound_filled hn hj (by omega) hbuffer hsize hdelivered, if_neg (not_not.2 rfl), hall,
      if_neg (lt_irrefl n)]
  exact ends_chunkSizes (by decide) hagain hstop 0 (Nat.zero_le n)

/-- `Server::readLargePayloadFromSocket` terminates and ends the thread or fills its buffer with
exactly the next `n` bytes; with complete reads its chunks are those that the senders write with
complete writes, of at most `BUFFER_SIZE` bytes and `n` bytes in all. -/
theorem readLargePayload_exact (hn : n < 2 ^ 31) :
    (∀ (buffer stream : Bytes) (r : Reads), n ≤ buffer.length →
      ∃ chunks result, Ends (Server.readLargePayloadFromSocket n r) (.start buffer stream) chunks
          result ∧
        (result = .threadExit ∨ n ≤ stream.length ∧
          result = .returned n (stream.take n ++ buffer.drop n) (stream.drop n))) ∧
    ∃ chunks : List Int, (∀ k ∈ chunks, k ≤ bufferSize) ∧ chunks.sum = n ∧
      (∀ buffer stream : Bytes, n ≤ buffer.length → n ≤ stream.length →
        Ends (Server.readLargePayloadFromSocket n .complete) (.start buffer stream) chunks
          (.returned n (stream.take n ++ buffer.drop n) (stream.drop n))) ∧
      ∀ (data : Bytes) (w : Writes), data.length = n → w.CompleteFor n →
        Ends (Client.sendLargePayloadToSocket data n w) .start chunks (some ⟨n, data⟩) ∧
          Ends (Server.sendLargePayloadToSocket data n w) .start chunks (some ⟨n, data⟩) ∧
            Ends (Server.sendLargePayload data n w) .start chunks (some ⟨n, data⟩) := by
  refine ⟨?_, chunkSizes bufferSize n, ?_, sum_chunkSizes _ n, ?_, ?_⟩
  · intro buffer stream r hbuffer
    obtain ⟨chunks, result, hends, hresult⟩ := receive_total hn hbuffer
    refine ⟨chunks, result, hends, hresult.imp_left ?_⟩
    intro hshort
    rcases hshort with ⟨_, rfl⟩
    rfl
  · intro k hk
    exact (mem_chunkSizes (by decide) k hk).1
  · intro buffer stream hbuffer hstream
    exact receive_complete hn hbuffer hstream
  · intro data w hlen hw
    subst hlen
    exact ⟨ends_of_completeFor hn hw, ends_of_completeFor hn hw, ends_of_completeFor hn hw⟩

end Receiving

/-- Five of six bytes. -/
theorem readLargePayload_exact_five :
    ∃ chunks : List Int, (∀ k ∈ chunks, k ≤ bufferSize) ∧ chunks.sum = 5 ∧
      Ends (Server.readLargePayloadFromSocket 5 .complete)
        (.start [0, 0, 0, 0, 0] [1, 2, 3, 4, 5, 6]) chunks (.returned 5 [1, 2, 3, 4, 5] [6]) := by
  have hn : 5 < 2 ^ 31 := by norm_num
  obtain ⟨_, chunks, hle, hsum, hreads, _⟩ := readLargePayload_exact hn
  exact ⟨chunks, hle, hsum, hreads [0, 0, 0, 0, 0] [1, 2, 3, 4, 5, 6] (by decide) (by decide)⟩

/-! ## The loops of `Transfer` -/

section Transfer

variable {data buffer stream : Bytes} {n i : Nat}

theorem lengths_sendLoop (hlen : data.length < 2 ^ 31) (fuel i : Nat) (hi : i ≤ data.length)
    (hfuel : data.length < fuel + i) :
    (sendLoop data data.length fuel i).map (fun c => (c.length : Int)) =
      chunkSizes bufferSize (data.length - i) := by
  induction fuel generalizing i with
  | zero =>
      omega
  | succ fuel ih =>
      have hchunk : ((data.drop i).take (min bufferSize (data.length - i))).length =
          min bufferSize (data.length - i) := by
        rw [List.length_take, List.length_drop]
        omega
      rw [sendLoop_succ hlen hi, List.map_cons, hchunk]
      by_cases hmore : i + min bufferSize (data.length - i) < data.length
      · have hsize : min bufferSize (data.length - i) = bufferSize := by omega
        have hlt : bufferSize < data.length - i := by omega
        have hle : i + bufferSize ≤ data.length := by omega
        have hfewer : data.length < fuel + (i + bufferSize) := by
          simp only [bufferSize]
          omega
        rw [if_pos hmore, hsize, ih _ hle hfewer, chunkSizes_of_lt (by decide) hlt,
          Nat.sub_add_eq]
      · have hsize : min bufferSize (data.length - i) = data.length - i := by omega
        have hle : data.length - i ≤ bufferSize := by omega
        rw [if_neg hmore, hsize, List.map_nil, chunkSizes_of_le hle]

/-- The writes of the loop in `Transfer` are those that the rounds make, when all are complete. -/
theorem sendLargePayloadToSocket_rounds (hlen : data.length < 2 ^ 31) :
    Ends (Server.sendLargePayloadToSocket data data.length .complete) .start
      ((sendLargePayloadToSocket data).map fun c => (c.length : Int))
      (some ⟨data.length, (sendLargePayloadToSocket data).flatten⟩) := by
  have hlengths := lengths_sendLoop hlen (data.length + 1) 0 (Nat.zero_le _) (by omega)
  rw [flatten_sendLargePayloadToSocket hlen]
  have hends := ends_of_completeFor (w := .complete) hlen fun _ _ => rfl
  rw [sendLargePayloadToSocket]
  exact hlengths ▸ hends

/-- A round of the reading loop in `Transfer`, which keeps what was read as a list, goes on where a
round of the server's loop goes on. -/
theorem readLargePayloadFromSocket_round {σ ε : Type} {again done : Bytes → σ} {exit : σ}
    {r : Reads} {reads : Nat} (hn : n < 2 ^ 31) (hi : i ≤ n) (hstream : i ≤ stream.length)
    (hbuffer : n ≤ buffer.length) :
    ∃ k, (readLargePayloadFromSocket n (stream.take i) again done exit : Request σ ε) =
        .read (min bufferSize (n - i)) k ∧
      k ((stream.drop i).take (r.delivers reads (min bufferSize (n - i)))) =
        match (Server.readLargePayloadFromSocket n r (.filled buffer stream i reads)).2 with
        | .again t => again (stream.take t.bytesReadFromSocket.toNat)
        | .stop (.returned m _ _) => done (stream.take m.toNat)
        | .stop _ => exit := by
  obtain ⟨size, hsize⟩ : ∃ size, min bufferSize (n - i) = size := ⟨_, rfl⟩
  obtain ⟨delivered, hdelivered⟩ : ∃ delivered,
      min (r.delivers reads size) (stream.length - i) = delivered := ⟨_, rfl⟩
  have htake : (stream.take i).length = i := by
    rw [List.length_take, min_eq_left hstream]
  have harrived : ((stream.drop i).take (r.delivers reads size)).length = delivered := by
    rw [List.length_take, List.length_drop, hdelivered]
  have hround : (readLargePayloadFromSocket n (stream.take i) again done exit : Request σ ε) = _ :=
    readLargePayloadFromSocket_eq hn (htake.trans_le hi)
  rw [htake, hsize] at hround
  refine ⟨_, hround.trans (by rw [hsize]), ?_⟩
  rw [Server.readLargePayloadFromSocket, receiveRound_filled hn hi hstream hbuffer hsize hdelivered,
    hsize, harrived]
  by_cases hshort : delivered = size
  · have hcounter : toSize (toInt (i + delivered)) = i + size := by
      rw [hshort]
      exact toSize_toInt (by omega)
    rw [if_neg (not_not.2 hshort), if_neg (not_not.2 hshort), hcounter,
      take_append_arrived (hdelivered.trans hshort)]
    by_cases hmore : i + size < n
    · simp only [if_pos hmore, Receiving.filled, Int.toNat_natCast]
    · simp only [if_neg hmore, Int.toNat_natCast]
  · rw [if_pos hshort]
    simp only [if_pos hshort]

end Transfer

/-! ## Sizes that an `int` cannot hold -/

/-- All chunk sizes are from 1 to `BUFFER_SIZE`. -/
def ProperChunks (chunks : List Int) : Prop :=
  ∀ k ∈ chunks, 1 ≤ k ∧ k ≤ bufferSize

/-- With complete writes the loop of the server sends all of the file. -/
def SendsAll (data : Bytes) : Prop :=
  ∃ chunks sent, Ends (Server.sendLargePayloadToSocket data data.length .complete) .start chunks
    (some sent) ∧ ProperChunks chunks ∧ sent.stream = data

/-- With complete reads the loop of the client gets all of the file, and nothing behind it. -/
def ReceivesAll (data : Bytes) : Prop :=
  ∀ buffer later : Bytes, buffer.length = data.length → ∃ chunks returned,
    Ends (Client.readLargePayloadFromSocket data.length .complete) (.start buffer (data ++ later))
      chunks (.returned returned data later) ∧ ProperChunks chunks

section Large

variable {data : Bytes} {chunks : List Int} {n : Nat}

theorem properChunks_chunkSizes (h : 1 ≤ n) : ProperChunks (chunkSizes bufferSize n) := by
  intro k hk
  obtain ⟨hle, hpos⟩ := mem_chunkSizes (by decide) k hk
  exact ⟨hpos h, hle⟩

theorem completeFor_complete : Writes.complete.CompleteFor n :=
  fun _ _ => rfl

theorem toInt_lt (n : Nat) : toInt n < 2 ^ 31 := by
  unfold toInt
  rw [Int.bmod_def]
  omega

/-- A chunk that is not empty ends within the size as an `int`. -/
theorem le_toInt_of_pos {written : Int}
    (h : 1 ≤ determineCorrectSizeToBeRead (toInt n) written) :
    written + determineCorrectSizeToBeRead (toInt n) written ≤ toInt n := by
  unfold determineCorrectSizeToBeRead at h ⊢
  simp only [bufferSize] at h ⊢
  split at h <;> split <;> omega

/-- The loop stops once the counter has reached the size. -/
theorem lt_of_not_toSize_lt {counter : Int} (h0 : 0 ≤ counter) (hint : counter ≤ toInt n)
    (h : ¬toSize counter < n) : n < 2 ^ 31 := by
  have hlt := toInt_lt n
  unfold toSize at h
  omega

theorem toSize_chunk {k : Int} (h : 1 ≤ k ∧ k ≤ bufferSize) : (toSize k : Int) = k := by
  obtain ⟨hpos, hle⟩ := h
  unfold toSize
  simp only [bufferSize] at hle
  omega

/-- The rounds of a sending loop, for any size. -/
theorem sendRound_cases {w : Writes} {s : Sending} {e : Int}
    {outcome : Outcome Sending (Option Sent)}
    (h : Server.sendLargePayloadToSocket data n w s = (e, outcome)) :
    e = determineCorrectSizeToBeRead (toInt n) s.bytesWritenInSocket ∧
      (outcome = .stop none ∨
        (∃ t : Sending,
          t.bytesWritenInSocket = s.bytesWritenInSocket + w.accepts s.writes (toSize e) ∧
            outcome = .again t) ∨
        ∃ sent, ¬toSize (s.bytesWritenInSocket + w.accepts s.writes (toSize e)) < n ∧
          outcome = .stop (some sent)) := by
  have hchunk := congrArg Prod.fst h
  have houtcome := congrArg Prod.snd h
  simp only [Server.sendLargePayloadToSocket, sendRound] at hchunk houtcome
  rw [hchunk] at houtcome
  refine ⟨hchunk.symm, ?_⟩
  split at houtcome
  · exact Or.inl houtcome.symm
  · split at houtcome
    · exact Or.inr (Or.inl ⟨_, rfl, houtcome.symm⟩)
    · next hlast => exact Or.inr (Or.inr ⟨_, hlast, houtcome.symm⟩)

theorem accepts_complete (i k : Nat) : Writes.complete.accepts i k = k :=
  rfl

/-- A sending loop that stops after chunks of proper size had a size that fits an `int`. -/
theorem lt_of_sends {s : Sending} {sent : Sent} (hs : 0 ≤ s.bytesWritenInSocket)
    (h : Ends (Server.sendLargePayloadToSocket data n .complete) s chunks (some sent))
    (hchunks : ProperChunks chunks) : n < 2 ^ 31 := by
  generalize hresult : some sent = result at h
  induction h with
  | stop hbody =>
      subst hresult
      have hchunk := hchunks _ List.mem_cons_self
      obtain ⟨hsize, hnone | ⟨_, _, hagain⟩ | ⟨_, hlast, _⟩⟩ := sendRound_cases hbody
      · cases hnone
      · cases hagain
      · rw [accepts_complete, toSize_chunk hchunk] at hlast
        rw [hsize] at hchunk hlast
        exact lt_of_not_toSize_lt (by omega) (le_toInt_of_pos hchunk.1) hlast
  | again hbody _ ih =>
      obtain ⟨_, hnone | ⟨t, hnext, hagain⟩ | ⟨_, _, hstop⟩⟩ := sendRound_cases hbody
      · cases hnone
      · cases hagain
        exact ih (by omega) (fun k hk => hchunks k (List.mem_cons_of_mem _ hk)) hresult
      · cases hstop

/-- The rounds of a receiving loop, for any size. -/
theorem receiveRound_cases {r : Reads} {short : Receiving → Received} {s : Receiving} {e : Int}
    {outcome : Outcome Receiving Received}
    (h : receiveRound determineCorrectSizeToBeRead short n r s = (e, outcome)) :
    e = determineCorrectSizeToBeRead (toInt n) s.bytesReadFromSocket ∧
      (outcome = .stop .overrun ∨
        (∃ arrived, arrived = s.unread.take (r.delivers s.reads (toSize e)) ∧
          (arrived.length : Int) ≠ e ∧ outcome = .stop (short { s with
            reads := s.reads + 1, unread := s.unread.drop arrived.length })) ∨
        (∃ t : Receiving, t.bytesReadFromSocket = s.bytesReadFromSocket + e ∧
          outcome = .again t) ∨
        ∃ result, ¬toSize (s.bytesReadFromSocket + e) < n ∧ outcome = .stop result) := by
  have hchunk := congrArg Prod.fst h
  have houtcome := congrArg Prod.snd h
  simp only [receiveRound] at hchunk houtcome
  rw [hchunk] at houtcome
  refine ⟨hchunk.symm, ?_⟩
  split at houtcome
  · exact Or.inl houtcome.symm
  · split at houtcome
    · next hshort => exact Or.inr (Or.inl ⟨_, rfl, hshort, houtcome.symm⟩)
    · split at houtcome
      · exact Or.inl houtcome.symm
      · split at houtcome
        · exact Or.inr (Or.inr (Or.inl ⟨_, rfl, houtcome.symm⟩))
        · next hlast => exact Or.inr (Or.inr (Or.inr ⟨_, hlast, houtcome.symm⟩))

/-- A read that was not complete has emptied the stream. -/
theorem drop_of_short {unread : Bytes} {k : Nat} (h : (unread.take k).length ≠ k) :
    unread.drop (unread.take k).length = [] := by
  rw [List.length_take] at h ⊢
  exact List.drop_eq_nil_of_le (by omega)

/-- A receiving loop that stops after chunks of proper size, before the stream has ended, had a
size that fits an `int`. -/
theorem lt_of_receives {s : Receiving} {returned : Int} {buffer unread : Bytes}
    (hs : 0 ≤ s.bytesReadFromSocket) (hunread : unread ≠ [])
    (h : Ends (Client.readLargePayloadFromSocket n .complete) s chunks
      (.returned returned buffer unread))
    (hchunks : ProperChunks chunks) : n < 2 ^ 31 := by
  generalize hresult : Received.returned returned buffer unread = result at h
  induction h with
  | stop hbody =>
      have hchunk := hchunks _ List.mem_cons_self
      obtain ⟨hsize, hover | ⟨arrived, harrived, hshort, hpart⟩ | ⟨_, _, hagain⟩ |
        ⟨_, hlast, _⟩⟩ := receiveRound_cases hbody
      · rw [Outcome.stop.inj hover] at hresult
        cases hresult
      · -- a short read leaves an empty stream
        rw [Outcome.stop.inj hpart] at hresult
        have hleft : unread = _ := (Received.returned.inj hresult).2.2
        refine absurd (hleft.trans ?_) hunread
        rw [harrived]
        refine drop_of_short ?_
        intro hfull
        rw [harrived, hfull] at hshort
        exact hshort (toSize_chunk hchunk)
      · cases hagain
      · rw [hsize] at hchunk hlast
        exact lt_of_not_toSize_lt (by omega) (le_toInt_of_pos hchunk.1) hlast
  | again hbody _ ih =>
      have hchunk := hchunks _ List.mem_cons_self
      obtain ⟨_, hover | ⟨_, _, _, hpart⟩ | ⟨t, hnext, hagain⟩ | ⟨_, _, hstop⟩⟩ :=
        receiveRound_cases hbody
      · cases hover
      · cases hpart
      · cases hagain
        exact ih (by omega) (fun k hk => hchunks k (List.mem_cons_of_mem _ hk)) hresult
      · cases hstop

theorem sendsAll_iff (h : 1 ≤ data.length) : SendsAll data ↔ data.length < 2 ^ 31 := by
  constructor
  · intro hsends
    rcases hsends with ⟨chunks, sent, hends, hchunks, _⟩
    have hs : 0 ≤ Sending.start.bytesWritenInSocket := le_rfl
    exact lt_of_sends hs hends hchunks
  · intro hlen
    exact ⟨_, _, ends_of_completeFor hlen completeFor_complete, properChunks_chunkSizes h, rfl⟩

theorem receivesAll_iff (h : 1 ≤ data.length) : ReceivesAll data ↔ data.length < 2 ^ 31 := by
  constructor
  · intro hreceives
    obtain ⟨chunks, returned, hends, hchunks⟩ := hreceives data [0] rfl
    have hs : 0 ≤ (Receiving.start data (data ++ [0])).bytesReadFromSocket := le_rfl
    exact lt_of_receives hs (List.cons_ne_nil 0 []) hends hchunks
  · intro hlen buffer later hbuffer
    have hends : Ends (Client.readLargePayloadFromSocket data.length .complete)
        (.start buffer (data ++ later)) _ _ :=
      receive_complete hlen hbuffer.ge (by simp)
    have hall : (data ++ later).take data.length ++ buffer.drop data.length = data := by
      rw [List.take_left, ← hbuffer, List.drop_length, List.append_nil]
    rw [hall, List.drop_left] at hends
    exact ⟨_, _, hends, properChunks_chunkSizes h⟩

/-- A round for a size that is not negative as an `int`, but less than the size. -/
theorem sendRound_large {m i writes : Nat} {stream : Bytes} (hm : toInt data.length = m)
    (hless : m < data.length) (hi : i ≤ m) {size : Nat} (hsize : min bufferSize (m - i) = size) :
    Server.sendLargePayloadToSocket data data.length .complete (.counted i i writes stream) =
      ((size : Int), .again (.counted (i + size) (i + size) (writes + 1)
        (stream ++ ((data.drop i).take size).take size))) := by
  have hmlt : (m : Int) < 2 ^ 31 := hm ▸ toInt_lt data.length
  have hsmall : size ≤ bufferSize := by omega
  have hchunk : determineCorrectSizeToBeRead m i = size := by
    rw [determineCorrectSizeToBeRead_natCast hi, hsize]
  have hsize64 : toSize (size : Int) = size :=
    toSize_natCast (hsmall.trans_lt (by norm_num))
  have hnext : toSize ((i + size : Nat) : Int) = i + size := toSize_natCast (by omega)
  have hcopy : i + size ≤ data.length ∧ size ≤ bufferSize := by omega
  have hmore : i + size < data.length := by omega
  simp only [Server.sendLargePayloadToSocket, sendRound, Sending.counted, hm, hchunk, hsize64,
    copyFromPayload_natCast, if_pos hcopy, accepts_complete, ← Nat.cast_add, hnext, if_pos hmore]

/-- There the sending loop sends what the `int` says and then goes on with empty chunks for ever. -/
theorem send_never_ends {m : Nat} {r : Option Sent} (hm : toInt data.length = m)
    (hless : m < data.length) :
    ¬Ends (Server.sendLargePayloadToSocket data data.length .complete) .start chunks r := by
  intro h
  refine h.invariant (P := fun s => ∃ i writes stream, s = .counted i i writes stream ∧ i ≤ m)
    (Q := fun _ => False) ⟨0, 0, [], rfl, Nat.zero_le m⟩ ?_ ?_
  · intro s e t hs hbody
    rcases hs with ⟨i, writes, stream, rfl, hi⟩
    rw [sendRound_large hm hless hi rfl] at hbody
    cases hbody
    exact ⟨_, _, _, rfl, by omega⟩
  · intro s e r hs hbody
    rcases hs with ⟨i, writes, stream, rfl, hi⟩
    rw [sendRound_large hm hless hi rfl] at hbody
    cases hbody

/-- With complete writes and reads, the loop of `Server::downloadFileCommand` and that of
`Client::downloadFile` terminate after chunks of 1 to `BUFFER_SIZE` bytes and move exactly the file
if and only if its length fits an `int`. -/
theorem download_loops_iff (h : 1 ≤ data.length) :
    SendsAll data ∧ ReceivesAll data ↔ data.length < 2 ^ 31 := by
  rw [sendsAll_iff h, receivesAll_iff h, and_self]

/-- A file of three chunks, the last of which is shorter. -/
theorem download_loops_iff_threeChunks :
    SendsAll [7, 0, 255, 3, 9, 9, 1, 0, 42] ∧ ReceivesAll [7, 0, 255, 3, 9, 9, 1, 0, 42] := by
  have hlen : ([7, 0, 255, 3, 9, 9, 1, 0, 42] : Bytes).length < 2 ^ 31 := by decide
  exact (download_loops_iff (by decide)).2 hlen

/-- A file of `2 ^ 31` bytes is not moved. -/
theorem download_loops_of_two_pow :
    ¬∀ data : Bytes, 1 ≤ data.length → data.length < 2 ^ 63 → SendsAll data ∧ ReceivesAll data := by
  intro h
  obtain ⟨data, hdata⟩ : ∃ data : Bytes, data.length = 2 ^ 31 :=
    ⟨List.replicate (2 ^ 31) 0, List.length_replicate⟩
  have hpos : 1 ≤ data.length := by
    rw [hdata]
    norm_num
  have hlong : data.length < 2 ^ 63 := by
    rw [hdata]
    norm_num
  have hsmall := (sendsAll_iff hpos).1 (h data hpos hlong).1
  rw [hdata] at hsmall
  exact lt_irrefl _ hsmall

end Large

end ChunkLoops
end DropboxSimulator
