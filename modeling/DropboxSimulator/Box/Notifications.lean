import DropboxSimulator.Box.Inotify
import DropboxSimulator.Server.Threads

/-!
# Notifications — the loop in which a Box takes the commands of its server

`th_func_server_comm` reads a command packet and, for an upload, a size and a content.  It reads
with the functions of the client, which go on after a short read with what their buffers held, so
the buffers are part of the state: `commandReceived` keeps the packet of the round before, with
its command and its text cleared.

The main fact is that this loop and that of `second_server_processing` decode every list of
messages from the bytes of all of them (`messages_decoded`).
-/

namespace DropboxSimulator
namespace Box

open Library

/-! ## The loop -/

/-- Where `th_func_server_comm` stands. -/
inductive CommState
  | command (commandReceived : CommandPacket) (got : Bytes)
  | uploadSize (commandReceived : CommandPacket)
  | uploadPayload (commandReceived : CommandPacket) (payloadSize : Nat) (got : Bytes)
  | received (commandReceived : CommandPacket) (c : Command)
  | ended

/-- The end of a round: the command becomes `-1` and the text is cleared. -/
def cleared (commandReceived : CommandPacket) : CommandPacket :=
  { commandReceived with
    command := -1
    additionalInfo := ⟨List.replicate 100 0, by simp⟩ }

/-- The `switch` on the packet that the buffer holds. -/
def CommState.dispatch (bs : Bytes) : CommState :=
  if h : bs.length = commandPacketSize then
    let commandReceived := CommandPacket.ofBytes bs h
    -- the Box knows two commands, all others only clear the packet
    if commandReceived.command = cmdDelete then
      .received commandReceived (.delete commandReceived.additionalInfo.string)
    else if commandReceived.command = cmdUpload then
      .uploadSize commandReceived
    else
      .command (cleared commandReceived) []
  else
    .ended

/-- `th_func_server_comm` while the user has not left. -/
def thFuncServerComm (buffers : Client.ReceiveBuffers) :
    CommState → Library.Request CommState Command
  | .command commandReceived got =>
      Client.readLargePayloadFromSocket commandPacketSize got (.command commandReceived)
        fun got => .dispatch (readDataFromSocket commandReceived.bytes got)
  | .uploadSize commandReceived =>
      .read 8 fun bs =>
        .uploadPayload commandReceived
          (payloadSizeOf (readDataFromSocket buffers.fileSizeBuffer.val bs)) []
  | .uploadPayload commandReceived payloadSize got =>
      Client.readLargePayloadFromSocket payloadSize got
        (.uploadPayload commandReceived payloadSize) fun got =>
          .received commandReceived
            (.upload commandReceived.additionalInfo.string
              (readDataFromSocket (buffers.payload payloadSize).val got))
  | .received commandReceived c => .emit c (.command (cleared commandReceived) [])
  | .ended => .halt

/-! ## The loop reads what the server writes -/

/-- The command that a notification carries. -/
def commandOf : Server.FileCommand → Command
  | .upload fileName payload => .upload fileName payload
  | .delete command => .delete command.additionalInfo.string

/-- A file command whose name is a C string that fits the packet, with a content whose size fits an
`int`; the packet of a deletion is one that a command thread has taken for a deletion. -/
def Notifiable : Server.FileCommand → Prop
  | .upload fileName payload =>
      fileName.length ≤ 99 ∧ (∀ b ∈ fileName, b ≠ 0) ∧ payload.length < 2 ^ 31
  | .delete command =>
      command.command = cmdDelete ∧ command.additionalInfo.string.length ≤ 99

/-- A message whose path is a C string that fits the packet, with a content whose size fits an
`int`. -/
def Encodable : Server.WireMessage → Prop
  | .upload path payload => path.length ≤ 99 ∧ (∀ b ∈ path, b ≠ 0) ∧ payload.length < 2 ^ 31
  | .delete path => path.length ≤ 99 ∧ ∀ b ∈ path, b ≠ 0
  | _ => True

section Decoding

variable {buffers : Client.ReceiveBuffers} {stale : CommandPacket} {commandReceived : CommandPacket}

theorem resting_command : Resting (thFuncServerComm buffers) (.command commandReceived []) :=
  ⟨4, _, rfl, by norm_num⟩

/-- A packet that is read whole leaves nothing of the one before it. -/
theorem consumes_packet (buffers : Client.ReceiveBuffers) (commandReceived packet : CommandPacket) :
    Consumes (thFuncServerComm buffers) (.command commandReceived [])
      (solid (Server.sendPacket packet)) [] [] (.dispatch packet.bytes) := by
  have hall : readDataFromSocket commandReceived.bytes packet.bytes = packet.bytes :=
    readDataFromSocket_of_length (commandReceived.length_bytes.trans packet.length_bytes.symm)
  have hconsumes : Consumes (thFuncServerComm buffers) (.command commandReceived [])
      (solid (sendLargePayloadToSocket packet.bytes)) [] []
      (.dispatch (readDataFromSocket commandReceived.bytes packet.bytes)) :=
    consumes_sendLargePayloadToSocket (CommState.command commandReceived)
      (fun got => .dispatch (readDataFromSocket commandReceived.bytes got))
      (fun got => .dispatch (readDataFromSocket commandReceived.bytes got))
      packet.length_bytes_lt
      fun got _ => by rw [packet.length_bytes]; rfl
  rwa [hall] at hconsumes

theorem consumes_upload (buffers : Client.ReceiveBuffers) (packet : CommandPacket) {payload : Bytes}
    (hlen : payload.length < 2 ^ 31) :
    Consumes (thFuncServerComm buffers) (.uploadSize packet)
      (uint64Bytes (UInt64.ofNat payload.length) :: solid (sendLargePayloadToSocket payload))
      [.upload packet.additionalInfo.string payload] [] (.command (cleared packet) []) := by
  refine .read (uint64Bytes_ne_nil _) (k := fun bs => .uploadPayload packet
    (payloadSizeOf (readDataFromSocket buffers.fileSizeBuffer.val bs)) []) (by simp; rfl) ?_
  simp only [payloadSizeOf_uint64Bytes hlen buffers.fileSizeBuffer.property]
  have hall : readDataFromSocket (buffers.payload payload.length).val payload = payload :=
    readDataFromSocket_of_length (buffers.payload _).property
  have hconsumes : Consumes (thFuncServerComm buffers) (.uploadPayload packet payload.length [])
      (solid (sendLargePayloadToSocket payload)) [] []
      (.received packet (.upload packet.additionalInfo.string
        (readDataFromSocket (buffers.payload payload.length).val payload))) :=
    consumes_sendLargePayloadToSocket (CommState.uploadPayload packet payload.length)
      (fun got => .received packet (.upload packet.additionalInfo.string
        (readDataFromSocket (buffers.payload payload.length).val got)))
      (fun got => .received packet (.upload packet.additionalInfo.string
        (readDataFromSocket (buffers.payload payload.length).val got)))
      hlen fun got _ => rfl
  rw [hall] at hconsumes
  simpa using hconsumes.trans (.emit rfl (.done _))

/-- The loop takes a notification and comes back to its start with the command. -/
theorem consumes_notification {c : Server.FileCommand} (hc : Notifiable c) :
    ∃ writes packet, c.notification stale = some writes ∧
      Consumes (thFuncServerComm buffers) (.command commandReceived []) (solid writes)
        [commandOf c] [] (.command (cleared packet) []) := by
  cases c with
  | upload fileName payload =>
      rcases hc with ⟨hfits, hname, hlen⟩
      rcases stale.additionalInfo.exists_strcpy (Nat.lt_succ_of_le hfits) with ⟨info, hinfo⟩
      have hstr : info.string = fileName := CharArray.string_of_strcpy hname hinfo
      refine ⟨_, Server.fillPacket stale cmdUpload info,
        Option.map_eq_some_iff.2 ⟨info, hinfo, rfl⟩, ?_⟩
      rw [Server.solid_sendUpload]
      have hpacket := consumes_packet buffers commandReceived
        (Server.fillPacket stale cmdUpload info)
      have hdispatch : CommState.dispatch (Server.fillPacket stale cmdUpload info).bytes =
          .uploadSize (Server.fillPacket stale cmdUpload info) := by
        simp only [CommState.dispatch, CommandPacket.length_bytes, dif_pos,
          CommandPacket.ofBytes_bytes]
        rfl
      rw [hdispatch] at hpacket
      have hbody := consumes_upload buffers (Server.fillPacket stale cmdUpload info) hlen
      -- the name comes back out of the header
      rw [Server.fillPacket_additionalInfo, hstr] at hbody
      exact hpacket.reads_trans hbody
  | delete command =>
      rcases hc with ⟨hcommand, _⟩
      have hpacket := consumes_packet buffers commandReceived command
      have hdispatch : CommState.dispatch command.bytes =
          .received command (.delete command.additionalInfo.string) := by
        simp only [CommState.dispatch, CommandPacket.length_bytes, dif_pos,
          CommandPacket.ofBytes_bytes, hcommand, if_pos]
      rw [hdispatch] at hpacket
      refine ⟨_, command, rfl, ?_⟩
      -- a deletion is the packet and nothing else
      rw [← List.append_nil (solid _)]
      exact hpacket.reads_trans (.emit rfl (.done _))

/-- The loop of the Box takes the notifications of a list of commands. -/
theorem consumes_notifications {cs : List (CommandPacket × Server.FileCommand)}
    (hcs : ∀ c ∈ cs, Notifiable c.2) :
    ∃ writes packet, cs.mapM (fun c => c.2.notification c.1) = some writes ∧
      Consumes (thFuncServerComm buffers) (.command commandReceived []) (solid writes.flatten)
        (cs.map (commandOf ·.2)) [] (.command packet []) := by
  have hmessages : ∀ s, (∃ packet, s = CommState.command packet []) → ∀ c ∈ cs, ∃ w t,
      c.2.notification c.1 = some w ∧ (∃ packet, t = CommState.command packet []) ∧
        Consumes (thFuncServerComm buffers) s (w.filter (· ≠ [])) [commandOf c.2] [] t := by
    rintro s ⟨packet, rfl⟩ c hc
    rcases consumes_notification (hcs c hc) with ⟨writes, packet', hw, hconsumes⟩
    exact ⟨writes, _, hw, ⟨cleared packet', rfl⟩, hconsumes⟩
  rcases Consumes.messages hmessages ⟨commandReceived, rfl⟩ with
    ⟨writes, t, hw, ⟨packet, rfl⟩, hconsumes⟩
  exact ⟨writes, packet, hw, hconsumes⟩

/-- A secondary's loop takes an encodable message and comes back to its start with the message. -/
theorem consumes_message {fileSizeBuffer : CharArray 8} {m : Server.WireMessage}
    (hm : Encodable m) :
    ∃ writes, Server.writesOf stale m = some writes ∧
      Consumes (Server.secondServerProcessing fileSizeBuffer.val) (.command []) (solid writes) [m]
        [] (.command []) := by
  -- the text that the sender copies fits the packet
  have htext : (Server.headerText m).length < 100 := by
    cases m with
    | upload path payload =>
        exact Nat.lt_succ_of_le hm.1
    | delete path =>
        exact Nat.lt_succ_of_le hm.1
    | insertUser con =>
        have hfits : Server.insertUserText.length < 100 := by decide
        exact hfits
    | exit record =>
        exact Nat.succ_pos _
  have hsendable : Server.Sendable m := by
    cases m with
    | upload path payload =>
        exact hm.2
    | delete path =>
        exact hm.2
    | _ =>
        trivial
  rcases Server.exists_writesOf stale htext with ⟨writes, hw⟩
  exact ⟨writes, hw, Server.consumes_writes fileSizeBuffer.property hsendable hw⟩

end Decoding

/-- Every list of messages that a primary writes to a secondary, and every list of notifications
that it writes to a Box, is decoded into the same list when every read is complete, and no byte is
left over. -/
theorem messages_decoded (fileSizeBuffer : CharArray 8) (buffers : Client.ReceiveBuffers)
    (commandReceived : CommandPacket) :
    (∀ ms : List (CommandPacket × Server.WireMessage), (∀ m ∈ ms, Encodable m.2) →
      ∃ writes, ms.mapM (fun m => Server.writesOf m.1 m.2) = some writes ∧
        ∀ r, Reader.Ends (Server.secondServerProcessing fileSizeBuffer.val)
            { state := .command [], unread := writes.flatten.flatten, noted := [] } r ↔
          r = { state := .command [], unread := [], noted := ms.map Prod.snd }) ∧
    (∀ cs : List (CommandPacket × Server.FileCommand), (∀ c ∈ cs, Notifiable c.2) →
      ∃ writes packet, cs.mapM (fun c => c.2.notification c.1) = some writes ∧
        ∀ r, Reader.Ends (thFuncServerComm buffers)
            { state := .command commandReceived [], unread := writes.flatten.flatten, noted := [] }
            r ↔
          r = { state := .command packet [], unread := [], noted := cs.map (commandOf ·.2) }) := by
  constructor
  · intro ms hms
    -- a secondary is at the start of its loop before every message
    have hmessages : ∀ s, s = Server.SecondaryState.command [] → ∀ m ∈ ms, ∃ w t,
        Server.writesOf m.1 m.2 = some w ∧ t = Server.SecondaryState.command [] ∧
          Consumes (Server.secondServerProcessing fileSizeBuffer.val) s (w.filter (· ≠ [])) [m.2] []
            t := by
      rintro s rfl m hm
      rcases consumes_message (hms m hm) with ⟨writes, hw, hconsumes⟩
      exact ⟨writes, _, hw, rfl, hconsumes⟩
    rcases Consumes.messages hmessages rfl with ⟨writes, t, hw, rfl, hconsumes⟩
    exact ⟨writes, hw, Reader.ends_of_consumes ⟨4, _, rfl, by norm_num⟩ hconsumes⟩
  · intro cs hcs
    -- a Box too, but with a packet that differs from round to round
    obtain ⟨writes, packet, hw, hconsumes⟩ : ∃ writes packet,
        cs.mapM (fun c => c.2.notification c.1) = some writes ∧
          Consumes (thFuncServerComm buffers) (.command commandReceived []) (solid writes.flatten)
            (cs.map (commandOf ·.2)) [] (.command packet []) := consumes_notifications hcs
    exact ⟨writes, packet, hw, Reader.ends_of_consumes resting_command hconsumes⟩

/-- Three messages to a secondary, and both kinds of notifications. -/
theorem messages_decoded_three :
    (∃ writes,
      [((emptyPacket : CommandPacket), (.upload [102] [1, 2] : Server.WireMessage)),
        (emptyPacket, .exit ⟨List.replicate 40 0, rfl⟩), (emptyPacket, .delete [102])].mapM
          (fun m => Server.writesOf m.1 m.2) = some writes ∧
      ∀ r, Reader.Ends (Server.secondServerProcessing emptySizeBuffer.val)
          { state := .command [], unread := writes.flatten.flatten, noted := [] } r ↔
        r =
          { state := .command []
            unread := []
            noted := [.upload [102] [1, 2], .exit ⟨List.replicate 40 0, rfl⟩, .delete [102]] }) ∧
    (∃ writes packet,
      [((emptyPacket : CommandPacket), (.upload [102] [1, 2] : Server.FileCommand)),
        (emptyPacket, .delete deletionPacket)].mapM
          (fun c => c.2.notification c.1) = some writes ∧
      ∀ r, Reader.Ends
          (thFuncServerComm Client.emptyReceiveBuffers)
          { state := .command emptyPacket [], unread := writes.flatten.flatten, noted := [] } r ↔
        r =
          { state := .command packet []
            unread := []
            noted := [.upload [102] [1, 2], .delete []] }) := by
  refine ⟨(messages_decoded emptySizeBuffer Client.emptyReceiveBuffers emptyPacket).1 _ ?_,
    (messages_decoded emptySizeBuffer Client.emptyReceiveBuffers emptyPacket).2 _ ?_⟩
  · intro m hm
    simp only [List.mem_cons, List.not_mem_nil, or_false] at hm
    rcases hm with rfl | rfl | rfl
    · exact ⟨by decide, by simp, by decide⟩
    · trivial
    · exact ⟨by decide, by simp⟩
  · intro c hc
    simp only [List.mem_cons, List.not_mem_nil, or_false] at hc
    rcases hc with rfl | rfl
    · exact ⟨by decide, by simp, by decide⟩
    · exact ⟨rfl, by decide⟩

end Box
end DropboxSimulator
