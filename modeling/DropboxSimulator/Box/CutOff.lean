import DropboxSimulator.Box.Notifications
import DropboxSimulator.Library.Severed

/-!
# CutOff — a Box whose connection to the server breaks off

The stream of notifications ends at some byte, and every read after it returns nothing.  The loop of
`th_func_server_comm` does not look at what its reads return.  Of a packet that is cut it has copied
the whole chunks, over the packet of the round before with its command and text cleared; of a size
and a content that are cut it goes on with what the memory held.

Only where the cut leaves the command of the packet as it was is nothing executed: that field is
there with the first sixteen bytes.  Before the first packet it is uninitialised memory.
-/

namespace DropboxSimulator
namespace Box

open Library

/-! ## Notifications and a cut -/

/-- A notification of the server, with what its packet held before. -/
structure Notice where
  stale : CommandPacket
  command : Server.FileCommand
  notifiable : Notifiable command

/-- The bytes of a notification. -/
def Notice.bytes (n : Notice) : Bytes :=
  match n.command.notification n.stale with
  | some writes => writes.flatten
  | none => []

/-- The number of messages that are there as a whole among so many bytes. -/
def whole : List Bytes → Nat → Nat
  | [], _ => 0
  | m :: ms, cut => if m.length ≤ cut then whole ms (cut - m.length) + 1 else 0

/-- What is there of the message in which the cut falls. -/
def started : List Bytes → Nat → Bytes
  | [], _ => []
  | m :: ms, cut => if m.length ≤ cut then started ms (cut - m.length) else m.take cut

/-- What a read that ends short has copied: whole chunks. -/
def copied (arrived : Bytes) : Bytes :=
  arrived.take (bufferSize * (arrived.length / bufferSize))

/-- The command in a packet when bytes have been copied over it. -/
def commandOver (commandReceived : CommandPacket) (arrived : Bytes) : UInt64 :=
  uint64OfBytes (((readDataFromSocket commandReceived.bytes arrived).drop 8).take 8)

section Cuts

variable (buffers : Client.ReceiveBuffers) (commandReceived : CommandPacket) (ns : List Notice)
variable (cut : Nat)

/-- The loop executes just the notifications that are there as a whole, in their order; what it
executes is all that it does to `sync_dir`. -/
def AppliesWhole : Prop :=
  Reader.Settles (thFuncServerComm buffers)
    { state := .command commandReceived []
      unread := (ns.map Notice.bytes).flatten.take cut
      noted := [] }
    ((ns.take (whole (ns.map Notice.bytes) cut)).map fun n => commandOf n.command)

/-- Fewer than sixteen bytes are there of the message that is cut; and if it is the first one, they
make no command of the memory they were copied to. -/
def Harmless : Prop :=
  (started (ns.map Notice.bytes) cut).length < 16 ∧
    (whole (ns.map Notice.bytes) cut = 0 →
      commandOver commandReceived (copied (started (ns.map Notice.bytes) cut)) ≠ cmdUpload ∧
        commandOver commandReceived (copied (started (ns.map Notice.bytes) cut)) ≠ cmdDelete)

end Cuts

/-- What is there is the whole messages and what has been started. -/
theorem take_flatten (ms : List Bytes) (cut : Nat) :
    ms.flatten.take cut = (ms.take (whole ms cut)).flatten ++ started ms cut := by
  induction ms generalizing cut with
  | nil =>
      simp [whole, started]
  | cons m ms ih =>
      unfold whole started
      split
      · next hle =>
          calc
            (m :: ms).flatten.take cut
                = m ++ ms.flatten.take (cut - m.length) := by
                  rw [List.flatten_cons, List.take_append, List.take_of_length_le hle]
            _ = m ++ ((ms.take (whole ms (cut - m.length))).flatten ++
                  started ms (cut - m.length)) := by
                  rw [ih]
            _ = ((m :: ms).take (whole ms (cut - m.length) + 1)).flatten ++
                  started ms (cut - m.length) := by
                  rw [List.take_succ_cons, List.flatten_cons, List.append_assoc]
      · next hlt =>
          rw [List.flatten_cons, List.take_append_of_le_length (by omega)]
          simp

theorem whole_le (ms : List Bytes) (cut : Nat) : whole ms cut ≤ ms.length := by
  induction ms generalizing cut with
  | nil =>
      exact le_rfl
  | cons m ms ih =>
      unfold whole
      split
      · exact Nat.succ_le_succ (ih _)
      · exact Nat.zero_le _

/-- The message that is cut follows the whole ones, and something of it is missing. -/
theorem started_eq (ms : List Bytes) (cut : Nat) :
    started ms cut = [] ∨
      ∃ m rest, ms.drop (whole ms cut) = m :: rest ∧
        ∃ k, started ms cut = m.take k ∧ k < m.length := by
  induction ms generalizing cut with
  | nil =>
      exact Or.inl rfl
  | cons m ms ih =>
      unfold whole started
      split
      · rw [List.drop_succ_cons]
        exact ih _
      · next hlt =>
          exact Or.inr ⟨m, ms, rfl, cut, rfl, by omega⟩

/-! ## A read that is cut -/

section Reading

variable {σ ε : Type} {next : σ → Library.Request σ ε} {size : Nat} {arrived : Bytes}

theorem copied_of_short (h : arrived.length < bufferSize) : copied arrived = [] := by
  rw [copied, Nat.div_eq_of_lt h]
  rfl

theorem copied_of_chunk (h : bufferSize ≤ arrived.length) :
    copied arrived = arrived.take bufferSize ++ copied (arrived.drop bufferSize) := by
  have hdiv : arrived.length / bufferSize = (arrived.length - bufferSize) / bufferSize + 1 :=
    Nat.div_eq_sub_div (by norm_num) h
  calc
    copied arrived
        = arrived.take
            (bufferSize + bufferSize * ((arrived.length - bufferSize) / bufferSize)) := by
          rw [copied, hdiv, Nat.mul_add_one, Nat.add_comm]
    _ = arrived.take bufferSize ++ copied (arrived.drop bufferSize) := by
          rw [List.take_add, copied, List.length_drop]

theorem length_copied_le : (copied arrived).length ≤ arrived.length := by
  simp [copied]

/-- The reading loop of the client ends with the whole chunks when the bytes run out. -/
theorem comes_cut (again done : Bytes → σ) (hsize : size < 2 ^ 31)
    (hnext : ∀ got : Bytes, got.length ≤ size →
      next (again got) = Client.readLargePayloadFromSocket size got again done)
    (got : Bytes) (noted : List ε) (hlt : got.length + arrived.length < size) :
    Reader.Comes next { state := again got, unread := arrived, noted := noted }
      { state := done (got ++ copied arrived), unread := [], noted := noted } := by
  induction hlength : arrived.length using Nat.strong_induction_on generalizing arrived got with
  | _ n ih =>
      have hround := hnext got (by omega)
      rw [Client.readLargePayloadFromSocket, readLargePayloadFromSocket_eq hsize (by omega)]
        at hround
      by_cases hshort : arrived.length < bufferSize
      · -- the last read gets what is left, and that is not copied
        have hask : arrived.length < min bufferSize (size - got.length) := by omega
        refine .head ?_
        rw [copied_of_short hshort, List.append_nil]
        simp only [Reader.advance, hround, List.take_of_length_le hask.le,
          List.drop_eq_nil_of_le hask.le, hask.ne, if_true, ne_eq, not_false_iff]
        exact .refl
      · have hchunk : bufferSize ≤ arrived.length := by omega
        have hask : min bufferSize (size - got.length) = bufferSize := by omega
        have htake : (arrived.take bufferSize).length = bufferSize := by
          rw [List.length_take]
          omega
        have hdrop : (arrived.drop bufferSize).length = arrived.length - bufferSize :=
          List.length_drop
        have hmore : toSize (toInt (got.length + bufferSize : Nat)) < size := by
          rw [toSize_toInt (by omega)]
          omega
        have hgot : (got ++ arrived.take bufferSize).length = got.length + bufferSize := by
          rw [List.length_append, htake]
        have hrest := ih _ (by simp only [bufferSize] at *; omega) (got ++ arrived.take bufferSize)
          (by omega) hdrop
        refine .head ?_
        rw [copied_of_chunk hchunk, ← List.append_assoc]
        simp only [Reader.advance, hround, hask, htake, ne_eq, not_true_eq_false, if_false]
        rw [if_pos (by simpa using hmore)]
        exact hrest

end Reading

/-! ## The round that is cut -/

section Rounds

variable {buffers : Client.ReceiveBuffers} {commandReceived packet : CommandPacket}
variable {arrived : Bytes} {noted : List Command}

theorem length_readDataFromSocket {buffer : Bytes} (h : arrived.length ≤ buffer.length) :
    (readDataFromSocket buffer arrived).length = buffer.length := by
  rw [readDataFromSocket, List.length_append, List.length_drop]
  omega

/-- What becomes of a packet goes by the command in the buffer. -/
theorem exists_dispatch (commandReceived : CommandPacket)
    (h : arrived.length ≤ commandPacketSize) :
    ∃ packet, CommState.dispatch (readDataFromSocket commandReceived.bytes arrived) =
      if commandOver commandReceived arrived = cmdDelete then
        .received packet (.delete packet.additionalInfo.string)
      else if commandOver commandReceived arrived = cmdUpload then
        .uploadSize packet
      else
        .command (cleared packet) [] := by
  have hlength : (readDataFromSocket commandReceived.bytes arrived).length = commandPacketSize := by
    rw [length_readDataFromSocket (by rw [CommandPacket.length_bytes]; exact h),
      CommandPacket.length_bytes]
  refine ⟨CommandPacket.ofBytes _ hlength, ?_⟩
  simp only [CommState.dispatch, dif_pos hlength]
  rfl

/-- The loop comes to execute a command. -/
def Executes (buffers : Client.ReceiveBuffers) (r : Reader CommState Command) : Prop :=
  ∃ c r', r.Comes (thFuncServerComm buffers) r' ∧ r'.noted = r.noted ++ [c]

/-- A command that has been decoded is executed. -/
theorem executes_received (packet : CommandPacket) (c : Command) :
    Executes buffers { state := .received packet c, unread := arrived, noted := noted } :=
  ⟨c, _, .head .refl, rfl⟩

theorem Executes.of_comes {r r' : Reader CommState Command}
    (h : r.Comes (thFuncServerComm buffers) r') (hnoted : r'.noted = r.noted)
    (hr' : Executes buffers r') : Executes buffers r := by
  rcases hr' with ⟨c, r'', hcomes, hadded⟩
  exact ⟨c, r'', h.trans hcomes, by rw [hadded, hnoted]⟩

/-- The loop that executes a command more does not settle before it. -/
theorem Executes.not_settles {r : Reader CommState Command} (h : Executes buffers r) :
    ¬r.Settles (thFuncServerComm buffers) r.noted := by
  intro hsettles
  rcases h with ⟨c, r', hcomes, hadded⟩
  have hbegins := (hcomes.settles_iff.1 hsettles).noted_isPrefix
  have hle := hbegins.length_le
  rw [hadded, List.length_append, List.length_singleton] at hle
  omega

theorem payloadSizeOf_eq_zero {buffer : Bytes} (h : toInt (payloadSizeOf buffer) = 0) :
    payloadSizeOf buffer = 0 := by
  have hlower := (int32OfBytes (buffer.take 4)).le_toInt
  have hupper := (int32OfBytes (buffer.take 4)).toInt_lt
  unfold payloadSizeOf toSize toInt at *
  rw [Int.bmod_def] at h
  omega

/-- With no byte of the content there, the upload is executed with what the memory held. -/
theorem executes_uploadPayload (packet : CommandPacket) (buffer : Bytes) :
    Executes buffers
      { state := .uploadPayload packet (payloadSizeOf buffer) []
        unread := []
        noted := noted } := by
  have hdone : Reader.Comes (thFuncServerComm buffers)
      { state := .uploadPayload packet (payloadSizeOf buffer) [], unread := [], noted := noted }
      { state := .received packet (.upload packet.additionalInfo.string
          (readDataFromSocket (buffers.payload (payloadSizeOf buffer)).val []))
        unread := []
        noted := noted } := by
    refine .head ?_
    simp only [Reader.advance, thFuncServerComm, Client.readLargePayloadFromSocket,
      DropboxSimulator.readLargePayloadFromSocket, List.take_nil, List.drop_nil]
    split
    · exact .refl
    · next hfull =>
        -- a read of no bytes is complete only for a size of zero
        have hzero : payloadSizeOf buffer = 0 := by
          refine payloadSizeOf_eq_zero ?_
          have hnone : toInt ([] : Bytes).length = 0 := rfl
          rw [hnone, not_not, determineCorrectSizeToBeRead] at hfull
          simp only [List.length_nil, bufferSize] at hfull
          split at hfull <;> omega
        rw [if_neg (by rw [hzero]; exact Nat.not_lt_zero _)]
        exact .refl
  exact .of_comes hdone rfl (executes_received packet _)

/-- An upload whose size is cut. -/
theorem executes_uploadSize (packet : CommandPacket) (h : arrived.length < 8) :
    Executes buffers { state := .uploadSize packet, unread := arrived, noted := noted } := by
  have hstep : Reader.Comes (thFuncServerComm buffers)
      { state := .uploadSize packet, unread := arrived, noted := noted }
      { state := .uploadPayload packet
          (payloadSizeOf (readDataFromSocket buffers.fileSizeBuffer.val arrived)) []
        unread := []
        noted := noted } := by
    refine .head ?_
    simp only [Reader.advance, thFuncServerComm, List.take_of_length_le h.le,
      List.drop_eq_nil_of_le h.le]
    exact .refl
  exact .of_comes hstep rfl (executes_uploadPayload packet _)

/-- An upload whose content is cut. -/
theorem executes_uploadContent (packet : CommandPacket) {size : Nat} (hsize : size < 2 ^ 31)
    (h : arrived.length < size) :
    Executes buffers
      { state := .uploadSize packet
        unread := uint64Bytes (UInt64.ofNat size) ++ arrived
        noted := noted } := by
  have hread : Reader.Comes (thFuncServerComm buffers)
      { state := .uploadSize packet
        unread := uint64Bytes (UInt64.ofNat size) ++ arrived
        noted := noted }
      { state := .uploadPayload packet size [], unread := arrived, noted := noted } := by
    refine .head ?_
    have hlength := length_uint64Bytes (UInt64.ofNat size)
    simp only [Reader.advance, thFuncServerComm, List.take_left' hlength, List.drop_left' hlength,
      payloadSizeOf_uint64Bytes hsize buffers.fileSizeBuffer.property]
    exact .refl
  have hcut : Reader.Comes (thFuncServerComm buffers)
      { state := .uploadPayload packet size [], unread := arrived, noted := noted }
      { state := .received packet (.upload packet.additionalInfo.string
          (readDataFromSocket (buffers.payload size).val ([] ++ copied arrived)))
        unread := []
        noted := noted } :=
    comes_cut (CommState.uploadPayload packet size)
      (fun got => .received packet (.upload packet.additionalInfo.string
        (readDataFromSocket (buffers.payload size).val got)))
      hsize (fun got _ => rfl) [] noted (by simpa using h)
  exact .of_comes (hread.trans hcut) rfl (executes_received packet _)

/-- With sixteen bytes of a packet its command is in the buffer. -/
theorem commandOver_of_packet (commandReceived packet : CommandPacket) {k : Nat} (hk : 16 ≤ k)
    (hle : k ≤ commandPacketSize) :
    commandOver commandReceived (packet.bytes.take k) = packet.command := by
  have hlength : (packet.bytes.take k).length = k := by
    rw [List.length_take, packet.length_bytes]
    omega
  have hfield : ((readDataFromSocket commandReceived.bytes (packet.bytes.take k)).drop 8).take 8 =
      (packet.bytes.drop 8).take 8 := by
    rw [readDataFromSocket, List.drop_append_of_le_length (by omega),
      List.take_append_of_le_length (by rw [List.length_drop]; omega), List.drop_take,
      List.take_take, Nat.min_eq_left (by omega)]
  calc
    commandOver commandReceived (packet.bytes.take k)
        = uint64OfBytes ((packet.bytes.drop 8).take 8) := by
          rw [commandOver, hfield]
    _ = (CommandPacket.ofBytes packet.bytes packet.length_bytes).command := rfl
    _ = packet.command := by
          rw [CommandPacket.ofBytes_bytes]

/-- The last four bytes of a cleared command. -/
theorem drop_cleared (packet : CommandPacket) :
    ((cleared packet).bytes.drop 12).take 4 = [255, 255, 255, 255] := by
  have hbytes : (cleared packet).bytes = uint64Bytes packet.packetType ++ (uint64Bytes (-1) ++
      ((cleared packet).additionalInfo.val ++ packet.padding.val)) := by
    simp [CommandPacket.bytes, cleared]
  have hcommand : (uint64Bytes (-1)).drop 4 = [255, 255, 255, 255] := by
    decide
  have hbehind : (cleared packet).bytes.drop 12 =
      [255, 255, 255, 255] ++ ((cleared packet).additionalInfo.val ++ packet.padding.val) := by
    rw [hbytes, List.drop_append, List.drop_eq_nil_of_le (by simp), List.nil_append,
      length_uint64Bytes, List.drop_append_of_le_length (by simp), hcommand]
  rw [hbehind]
  rfl

/-- With fewer the end of the cleared command is still there, and that is no small number. -/
theorem commandOver_cleared (packet : CommandPacket) (h : arrived.length ≤ 12) :
    commandOver (cleared packet) arrived ≠ cmdUpload ∧
      commandOver (cleared packet) arrived ≠ cmdDelete := by
  obtain ⟨buffer, hbuffer⟩ :
      ∃ buffer, readDataFromSocket (cleared packet).bytes arrived = buffer := ⟨_, rfl⟩
  have hlength : buffer.length = commandPacketSize := by
    have hfits : arrived.length ≤ (cleared packet).bytes.length := by
      rw [CommandPacket.length_bytes]
      exact h.trans (by norm_num [commandPacketSize])
    rw [← hbuffer, length_readDataFromSocket hfits, CommandPacket.length_bytes]
  have hend : (buffer.drop 12).take 4 = [255, 255, 255, 255] := by
    have htwelve : arrived.length + (12 - arrived.length) = 12 := by omega
    calc
      (buffer.drop 12).take 4
          = (((cleared packet).bytes.drop arrived.length).drop (12 - arrived.length)).take 4 := by
            rw [← hbuffer, readDataFromSocket, List.drop_append, List.drop_eq_nil_of_le h,
              List.nil_append]
      _ = ((cleared packet).bytes.drop 12).take 4 := by
            rw [List.drop_drop, htwelve]
      _ = [255, 255, 255, 255] := drop_cleared packet
  have hsplit : (buffer.drop 8).take 8 = (buffer.drop 8).take 4 ++ [255, 255, 255, 255] := by
    have hdrop : buffer.drop 12 = (buffer.drop 8).drop 4 := by
      rw [List.drop_drop]
    rw [← hend, hdrop, ← List.take_add]
  have hlow : ((buffer.drop 8).take 4).length = 4 := by
    rw [List.length_take, List.length_drop, hlength]
    rfl
  have hvalue : leValue ((buffer.drop 8).take 8) =
      leValue ((buffer.drop 8).take 4) + 256 ^ 4 * 4294967295 := by
    rw [hsplit, leValue_append, hlow]
    rfl
  have hlt := leValue_lt ((buffer.drop 8).take 4)
  rw [hlow] at hlt
  have hcommand : (commandOver (cleared packet) arrived).toNat =
      leValue ((buffer.drop 8).take 4) + 256 ^ 4 * 4294967295 := by
    have hfits : leValue ((buffer.drop 8).take 4) + 256 ^ 4 * 4294967295 < 2 ^ 64 := by omega
    calc
      (commandOver (cleared packet) arrived).toNat
          = (UInt64.ofNat (leValue ((buffer.drop 8).take 8))).toNat := by
            rw [commandOver, hbuffer, uint64OfBytes]
      _ = leValue ((buffer.drop 8).take 4) + 256 ^ 4 * 4294967295 := by
            rw [hvalue, UInt64.toNat_ofNat', Nat.mod_eq_of_lt hfits]
  constructor
  · intro heq
    rw [heq] at hcommand
    have htwo : cmdUpload.toNat = 2 := rfl
    omega
  · intro heq
    rw [heq] at hcommand
    have hfour : cmdDelete.toNat = 4 := rfl
    omega

/-- After a round that executes nothing, with no more bytes, nothing is ever executed. -/
theorem settles_cleared (packet : CommandPacket) (noted : List Command) :
    Reader.Settles (thFuncServerComm buffers)
      { state := .command (cleared packet) [], unread := [], noted := noted } noted := by
  refine Reader.settles_of_idle
    (P := fun r => (∃ packet, r.state = .command (cleared packet) []) ∧ r.unread = [])
    ⟨⟨packet, rfl⟩, rfl⟩ ?_
  rintro ⟨state, unread, noted⟩ ⟨⟨packet, hstate⟩, hunread⟩
  dsimp only at hstate hunread
  subst hstate hunread
  -- the read gets nothing, and the packet stays as it was cleared
  have hnone : ([] : Bytes).length ≤ 12 := Nat.zero_le _
  rcases exists_dispatch (cleared packet) (hnone.trans (by norm_num [commandPacketSize])) with
    ⟨packet', hdispatch⟩
  have hcommand := commandOver_cleared packet hnone
  rw [if_neg hcommand.2, if_neg hcommand.1] at hdispatch
  exact ⟨⟨⟨packet', hdispatch⟩, rfl⟩, rfl⟩

/-- A packet that is cut. -/
theorem comes_packet_cut (commandReceived : CommandPacket) (noted : List Command)
    (h : arrived.length < commandPacketSize) :
    Reader.Comes (thFuncServerComm buffers)
      { state := .command commandReceived [], unread := arrived, noted := noted }
      { state := .dispatch (readDataFromSocket commandReceived.bytes (copied arrived))
        unread := []
        noted := noted } :=
  comes_cut (CommState.command commandReceived)
    (fun got => .dispatch (readDataFromSocket commandReceived.bytes got))
    (by norm_num [commandPacketSize]) (fun got _ => rfl) [] noted (by simpa using h)

/-- Where the buffer holds no command of the Box, nothing more is executed. -/
theorem settles_packet_cut (h : arrived.length < commandPacketSize)
    (hcommand : commandOver commandReceived (copied arrived) ≠ cmdUpload ∧
      commandOver commandReceived (copied arrived) ≠ cmdDelete) :
    Reader.Settles (thFuncServerComm buffers)
      { state := .command commandReceived [], unread := arrived, noted := noted } noted := by
  have hcopied : (copied arrived).length ≤ commandPacketSize := length_copied_le.trans h.le
  rcases exists_dispatch commandReceived hcopied with ⟨packet, hdispatch⟩
  rw [if_neg hcommand.2, if_neg hcommand.1] at hdispatch
  rw [(comes_packet_cut commandReceived noted h).settles_iff, hdispatch]
  exact settles_cleared packet noted

/-- Where it holds one, that is executed. -/
theorem executes_packet_cut (h : arrived.length < commandPacketSize)
    (hcommand : ¬(commandOver commandReceived (copied arrived) ≠ cmdUpload ∧
      commandOver commandReceived (copied arrived) ≠ cmdDelete)) :
    Executes buffers
      { state := .command commandReceived [], unread := arrived, noted := noted } := by
  have hcopied : (copied arrived).length ≤ commandPacketSize := length_copied_le.trans h.le
  rcases exists_dispatch commandReceived hcopied with ⟨packet, hdispatch⟩
  refine .of_comes (comes_packet_cut commandReceived noted h) rfl ?_
  rw [hdispatch]
  by_cases hdelete : commandOver commandReceived (copied arrived) = cmdDelete
  · rw [if_pos hdelete]
    exact executes_received packet _
  · have hupload : commandOver commandReceived (copied arrived) = cmdUpload := by
      by_contra hupload
      exact hcommand ⟨hupload, hdelete⟩
    rw [if_neg hdelete, if_pos hupload]
    exact executes_uploadSize packet (by norm_num)

end Rounds

/-! ## What is applied -/

section Applying

variable {buffers : Client.ReceiveBuffers} {commandReceived : CommandPacket}

/-- The whole messages are executed one by one; the packet of the last one is left cleared. -/
theorem comes_whole (buffers : Client.ReceiveBuffers) (ns : List Notice) (rest : Bytes)
    (noted : List Command) (commandReceived : CommandPacket) :
    ∃ packet, (ns = [] ∧ packet = commandReceived ∨ ns ≠ [] ∧ ∃ last, packet = cleared last) ∧
      Reader.Comes (thFuncServerComm buffers)
        { state := .command commandReceived []
          unread := (ns.map Notice.bytes).flatten ++ rest
          noted := noted }
        { state := .command packet []
          unread := rest
          noted := noted ++ ns.map fun n => commandOf n.command } := by
  induction ns generalizing noted commandReceived with
  | nil =>
      refine ⟨commandReceived, Or.inl ⟨rfl, rfl⟩, ?_⟩
      simpa using Reader.Comes.refl
  | cons n ns ih =>
      have hround : ∃ writes packet, n.command.notification n.stale = some writes ∧
          Consumes (thFuncServerComm buffers) (.command commandReceived []) (solid writes)
            [commandOf n.command] [] (.command (cleared packet) []) :=
        consumes_notification n.notifiable
      rcases hround with ⟨writes, last, hwrites, hconsumes⟩
      have hbytes : n.bytes = (solid writes).flatten := by
        rw [Notice.bytes, hwrites, solid, List.flatten_filter_ne_nil]
      rcases ih (noted ++ [commandOf n.command]) (cleared last) with ⟨packet, hpacket, hcomes⟩
      have hfirst := hconsumes.comes ((ns.map Notice.bytes).flatten ++ rest) noted
      refine ⟨packet, Or.inr ⟨List.cons_ne_nil n ns, ?_⟩, ?_⟩
      · rcases hpacket with ⟨_, hlast⟩ | ⟨_, hlast⟩
        · exact ⟨last, hlast⟩
        · exact hlast
      · rw [List.map_cons, List.flatten_cons, hbytes, List.append_assoc]
        simpa using hfirst.trans hcomes

/-- The bytes of a notification: its packet, and for an upload the size and the content. -/
theorem Notice.bytes_eq (n : Notice) :
    ∃ packet : CommandPacket, (packet.command = cmdDelete ∧ n.bytes = packet.bytes) ∨
      packet.command = cmdUpload ∧ ∃ payload : Bytes, payload.length < 2 ^ 31 ∧
        n.bytes = packet.bytes ++ (uint64Bytes (UInt64.ofNat payload.length) ++ payload) := by
  rcases n with ⟨stale, command, hcommand⟩
  cases command with
  | upload fileName payload =>
      rcases hcommand with ⟨hfits, hname, hlen⟩
      rcases stale.additionalInfo.exists_strcpy (Nat.lt_succ_of_le hfits) with ⟨info, hinfo⟩
      refine ⟨Server.fillPacket stale cmdUpload info, Or.inr ⟨rfl, payload, hlen, ?_⟩⟩
      have hpacket := flatten_sendLargePayloadToSocket
        (Server.fillPacket stale cmdUpload info).length_bytes_lt
      simp [Notice.bytes, Server.FileCommand.notification, hinfo, Server.sendUpload,
        Server.sendPacket, hpacket, flatten_sendLargePayloadToSocket hlen]
  | delete command =>
      refine ⟨command, Or.inl ⟨hcommand.1, ?_⟩⟩
      simp [Notice.bytes, Server.FileCommand.notification, Server.sendPacket,
        flatten_sendLargePayloadToSocket command.length_bytes_lt]

theorem copied_take {bs : Bytes} {k : Nat} (h : k ≤ bs.length) :
    copied (bs.take k) = bs.take (bufferSize * (k / bufferSize)) := by
  have hlength : (bs.take k).length = k := by
    rw [List.length_take]
    omega
  rw [copied, hlength, List.take_take, Nat.min_eq_left (Nat.mul_div_le k bufferSize)]

/-- With sixteen bytes of a packet it is executed. -/
theorem executes_packet {packet : CommandPacket}
    (hcommand : packet.command = cmdDelete ∨ packet.command = cmdUpload) {k : Nat} (hk : 16 ≤ k)
    (hlt : k < commandPacketSize) (noted : List Command) :
    Executes buffers
      { state := .command commandReceived [], unread := packet.bytes.take k, noted := noted } := by
  have hle : k ≤ packet.bytes.length := by
    rw [packet.length_bytes]
    exact hlt.le
  have hover : commandOver commandReceived (copied (packet.bytes.take k)) = packet.command := by
    rw [copied_take hle]
    refine commandOver_of_packet commandReceived packet ?_ ?_
    · simp only [bufferSize]
      omega
    · exact (Nat.mul_div_le k bufferSize).trans hlt.le
  have hlength : (packet.bytes.take k).length < commandPacketSize := by
    rw [List.length_take]
    omega
  refine executes_packet_cut hlength ?_
  rw [hover]
  rintro ⟨hupload, hdelete⟩
  rcases hcommand with hcommand | hcommand
  · exact hdelete hcommand
  · exact hupload hcommand

/-- With the whole packet of an upload, but not all of the rest, the upload is executed. -/
theorem executes_upload {packet : CommandPacket} (hcommand : packet.command = cmdUpload)
    {payload : Bytes} (hlen : payload.length < 2 ^ 31) {k : Nat} (hlt : k < 8 + payload.length)
    (noted : List Command) :
    Executes buffers
      { state := .command commandReceived []
        unread := packet.bytes ++ (uint64Bytes (UInt64.ofNat payload.length) ++ payload).take k
        noted := noted } := by
  have hdispatch : CommState.dispatch packet.bytes = .uploadSize packet := by
    simp only [CommState.dispatch, CommandPacket.length_bytes, dif_pos,
      CommandPacket.ofBytes_bytes, hcommand]
    rfl
  have hread : Reader.Comes (thFuncServerComm buffers)
      { state := .command commandReceived []
        unread := packet.bytes ++ (uint64Bytes (UInt64.ofNat payload.length) ++ payload).take k
        noted := noted }
      { state := .uploadSize packet
        unread := (uint64Bytes (UInt64.ofNat payload.length) ++ payload).take k
        noted := noted } := by
    have hcomes := (consumes_packet buffers commandReceived packet).comes
      ((uint64Bytes (UInt64.ofNat payload.length) ++ payload).take k) noted
    rw [solid, List.flatten_filter_ne_nil, Server.sendPacket,
      flatten_sendLargePayloadToSocket packet.length_bytes_lt, hdispatch, List.append_nil] at hcomes
    exact hcomes
  refine .of_comes hread rfl ?_
  have hsize := length_uint64Bytes (UInt64.ofNat payload.length)
  by_cases hcut : k < 8
  · exact executes_uploadSize packet (by rw [List.length_take]; omega)
  · rw [List.take_append, List.take_of_length_le (by omega), hsize]
    exact executes_uploadContent packet hlen (by rw [List.length_take]; omega)

/-- With sixteen bytes of a message, but not all of it, a command is executed. -/
theorem Notice.executes_cut (n : Notice) {k : Nat} (hk : 16 ≤ k) (hlt : k < n.bytes.length)
    (noted : List Command) :
    Executes buffers
      { state := .command commandReceived [], unread := n.bytes.take k, noted := noted } := by
  rcases n.bytes_eq with ⟨packet, hcases⟩
  have hlength := packet.length_bytes
  rcases hcases with ⟨hdelete, hbytes⟩ | ⟨hupload, payload, hlen, hbytes⟩
  · rw [hbytes] at hlt ⊢
    exact executes_packet (Or.inl hdelete) hk (by omega) noted
  · rw [hbytes] at hlt ⊢
    by_cases hcut : k < commandPacketSize
    · rw [List.take_append_of_le_length (by omega)]
      exact executes_packet (Or.inr hupload) hk hcut noted
    · rw [List.take_append, List.take_of_length_le (by omega), hlength]
      simp only [List.length_append, length_uint64Bytes, hlength] at hlt
      exact executes_upload hupload hlen (by omega) noted

/-- What the loop does with the message that is cut. -/
theorem settles_started_iff {packet : CommandPacket} (ns : List Notice) (cut : Nat)
    (noted : List Command) :
    Reader.Settles (thFuncServerComm buffers)
        { state := .command packet []
          unread := started (ns.map Notice.bytes) cut
          noted := noted } noted ↔
      (started (ns.map Notice.bytes) cut).length < 16 ∧
        commandOver packet (copied (started (ns.map Notice.bytes) cut)) ≠ cmdUpload ∧
        commandOver packet (copied (started (ns.map Notice.bytes) cut)) ≠ cmdDelete := by
  constructor
  · intro hsettles
    have hshort : (started (ns.map Notice.bytes) cut).length < 16 := by
      by_contra hlong
      rcases started_eq (ns.map Notice.bytes) cut with hnone | ⟨m, rest, hdrop, k, htake, hk⟩
      · rw [hnone] at hlong
        exact hlong (by norm_num)
      · -- the message is one of the notifications
        rw [← List.map_drop, List.map_eq_cons_iff] at hdrop
        rcases hdrop with ⟨n, _, _, rfl, _⟩
        rw [htake] at hsettles hlong
        have hk16 : 16 ≤ k := by
          rw [List.length_take] at hlong
          omega
        exact (n.executes_cut hk16 hk noted).not_settles hsettles
    refine ⟨hshort, ?_⟩
    by_contra hcommand
    have hpacket : (started (ns.map Notice.bytes) cut).length < commandPacketSize :=
      hshort.trans (by norm_num [commandPacketSize])
    exact (executes_packet_cut hpacket hcommand).not_settles hsettles
  · rintro ⟨hshort, hcommand⟩
    exact settles_packet_cut (hshort.trans (by norm_num [commandPacketSize])) hcommand

/-- A Box whose stream of notifications is cut applies just those it has received as a whole if and
only if the cut is harmless. -/
theorem appliesWhole_iff_harmless (buffers : Client.ReceiveBuffers)
    (commandReceived : CommandPacket) (ns : List Notice) (cut : Nat) :
    AppliesWhole buffers commandReceived ns cut ↔ Harmless commandReceived ns cut := by
  have htake := take_flatten (ns.map Notice.bytes) cut
  rw [← List.map_take] at htake
  rcases comes_whole buffers (ns.take (whole (ns.map Notice.bytes) cut))
    (started (ns.map Notice.bytes) cut) [] commandReceived with ⟨packet, hpacket, hcomes⟩
  rw [← htake, List.nil_append] at hcomes
  unfold AppliesWhole Harmless
  rw [hcomes.settles_iff, settles_started_iff]
  have hwhole := whole_le (ns.map Notice.bytes) cut
  refine and_congr_right fun hshort => ?_
  rcases hpacket with ⟨hnone, rfl⟩ | ⟨hsome, last, rfl⟩
  · have hzero : whole (ns.map Notice.bytes) cut = 0 := by
      rw [List.take_eq_nil_iff] at hnone
      rcases hnone with hzero | hns
      · exact hzero
      · rw [hns] at hwhole ⊢
        rfl
    simp [hzero]
  · have hpos : whole (ns.map Notice.bytes) cut ≠ 0 := by
      intro hzero
      rw [hzero] at hsome
      exact hsome rfl
    have hcopied : (copied (started (ns.map Notice.bytes) cut)).length ≤ 12 := by
      rw [copied, List.length_take]
      simp only [bufferSize]
      omega
    simp [hpos, commandOver_cleared last hcopied]

end Applying

/-- The deletion of the file `notes`. -/
def deletionOfNotes : Notice where
  stale := emptyPacket
  command := .delete
    { emptyPacket with
      packetType := packetCmd
      command := cmdDelete
      additionalInfo := ⟨[110, 111, 116, 101, 115] ++ List.replicate 95 0, by decide⟩ }
  notifiable := ⟨rfl, by decide⟩

/-- Cut behind the fourth byte of the name, it deletes the file `note`. -/
theorem cutName_deletes_other :
    ¬AppliesWhole Client.emptyReceiveBuffers emptyPacket [deletionOfNotes] 20 := by
  intro happlies
  have hdeleted : ((Reader.advance (thFuncServerComm Client.emptyReceiveBuffers))^[7]
      { state := .command emptyPacket []
        unread := ([deletionOfNotes].map Notice.bytes).flatten.take 20
        noted := [] }).noted = [.delete [110, 111, 116, 101]] := by
    decide +kernel
  -- none of the notifications is there as a whole
  have hnone : whole ([deletionOfNotes].map Notice.bytes) 20 = 0 := by
    decide +kernel
  unfold AppliesWhole at happlies
  rw [hnone, List.take_zero, List.map_nil] at happlies
  have hcomes : Reader.Comes (thFuncServerComm Client.emptyReceiveBuffers)
      { state := .command emptyPacket []
        unread := ([deletionOfNotes].map Notice.bytes).flatten.take 20
        noted := [] } _ := ⟨7, rfl⟩
  have hbegins := (hcomes.settles_iff.1 happlies).noted_isPrefix
  rw [hdeleted] at hbegins
  exact absurd (List.prefix_nil.1 hbegins) (List.cons_ne_nil _ _)

end Box
end DropboxSimulator
