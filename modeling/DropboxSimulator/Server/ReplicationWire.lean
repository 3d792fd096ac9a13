import DropboxSimulator.Transfer

/-!
# ReplicationWire — replication messages as bytes

How a primary writes the messages for its secondaries (`uploadFileCommand`, `deleteFileCommand`,
`handle_user_controller_structure`, `exitCommand`), and the loop of `second_server_processing`
that reads them.  The main fact is that the loop consumes the writes of a message one by one and
comes back to its start with just that message (`consumes_writes`).
-/

namespace DropboxSimulator
namespace Server

open Library

/-- A message with the exiting session named by the bytes of its `UserCurrentSocket`. -/
abbrev WireMessage := Replication (CharArray userCurrentSocketSize)

/-! ## Writing -/

/-- The text that fills the unused name field of `INSERT_USER`: `"stringteste"`. -/
def insertUserText : Bytes :=
  [115, 116, 114, 105, 110, 103, 116, 101, 115, 116, 101]

/-- A `commandPacket` local to a sender; what it does not set is what the stack held. -/
def fillPacket (stale : CommandPacket) (command : UInt64) (info : CharArray 100) :
    CommandPacket :=
  { stale with packetType := packetCmd, command := command, additionalInfo := info }

@[simp] theorem fillPacket_additionalInfo (stale : CommandPacket) (command : UInt64)
    (info : CharArray 100) : (fillPacket stale command info).additionalInfo = info :=
  rfl

/-- The writes of a command packet. -/
def sendPacket (packet : CommandPacket) : List Bytes :=
  sendLargePayloadToSocket packet.bytes

/-- The writes of an `UPLOAD`: header, size and content. -/
def sendUpload (header : CommandPacket) (payload : Bytes) : List Bytes :=
  sendPacket header ++ uint64Bytes (UInt64.ofNat payload.length) ::
    sendLargePayloadToSocket payload

/-- The writes that carry one message to one secondary; `none` where `strcpy` overflows the name
field of the header. -/
def writesOf (stale : CommandPacket) : WireMessage → Option (List Bytes)
  | .upload path payload =>
      (stale.additionalInfo.strcpy path).map fun info =>
        sendUpload (fillPacket stale cmdUpload info) payload
  | .delete path =>
      (stale.additionalInfo.strcpy path).map fun info =>
        sendPacket (fillPacket stale cmdDelete info)
  | .insertUser con =>
      (stale.additionalInfo.strcpy insertUserText).map fun info =>
        sendPacket (fillPacket stale cmdInsertUser info) ++
          sendLargePayloadToSocket con.bytes
  | .exit record =>
      -- the sender does not set the text of the header
      some (sendPacket (fillPacket stale cmdExit stale.additionalInfo) ++
        sendLargePayloadToSocket record.val)

/-- The text that is copied into the header of a message. -/
def headerText : WireMessage → Bytes
  | .upload path _ => path
  | .delete path => path
  | .insertUser _ => insertUserText
  | .exit _ => []

/-- A message is written when its text and the terminator fit the header. -/
theorem exists_writesOf (stale : CommandPacket) {m : WireMessage}
    (h : (headerText m).length < 100) : ∃ writes, writesOf stale m = some writes := by
  rcases stale.additionalInfo.exists_strcpy h with ⟨info, hinfo⟩
  cases m with
  | exit record =>
      exact ⟨_, rfl⟩
  | _ =>
      unfold headerText at hinfo
      simp [writesOf, hinfo]

/-- What a sender may put in a message: a path is a C string, and a size fits an `int`. -/
def Sendable {ρ : Type} : Replication ρ → Prop
  | .upload path payload => (∀ b ∈ path, b ≠ 0) ∧ payload.length < 2 ^ 31
  | .delete path => ∀ b ∈ path, b ≠ 0
  | _ => True

/-! ## Reading -/

/-- Where `second_server_processing` stands. -/
inductive SecondaryState
  | waitAck
  | command (got : Bytes)
  | uploadSize (header : CommandPacket)
  | uploadPayload (header : CommandPacket) (payloadSize : Nat) (got : Bytes)
  | insertUser (got : Bytes)
  | exit (got : Bytes)
  | received (m : WireMessage)
  | ended

/-- The `switch` on a command packet that has been read. -/
def SecondaryState.dispatch (bs : Bytes) : SecondaryState :=
  if h : bs.length = commandPacketSize then
    let commandReceived := CommandPacket.ofBytes bs h
    if commandReceived.command = cmdUpload then
      .uploadSize commandReceived
    else if commandReceived.command = cmdDelete then
      .received (.delete commandReceived.additionalInfo.string)
    else if commandReceived.command = cmdInsertUser then
      .insertUser []
    else if commandReceived.command = cmdExit then
      .exit []
    else
      .command []
  else
    .ended

/-- The connection record that has been read. -/
def SecondaryState.userInserted (bs : Bytes) : SecondaryState :=
  if h : bs.length = connectionSize then
    .received (.insertUser (Connection.ofBytes bs h))
  else
    .ended

/-- The exit record that has been read. -/
def SecondaryState.userExited (bs : Bytes) : SecondaryState :=
  if h : bs.length = userCurrentSocketSize then .received (.exit ⟨bs, h⟩) else .ended

/-- `second_server_processing` from its wait for the acknowledgement on; `fileSizeBuffer` is what
the uninitialised buffer of that name holds. -/
def secondServerProcessing (fileSizeBuffer : Bytes) :
    SecondaryState → Request SecondaryState WireMessage
  | .waitAck => waitForSocketAck (.command [])
  | .command got =>
      readLargePayloadFromSocket commandPacketSize got .command .dispatch .ended
  | .uploadSize header =>
      -- one `read` of the eight bytes, of which an `int` is taken
      .read 8 fun bs =>
        .uploadPayload header (payloadSizeOf (readDataFromSocket fileSizeBuffer bs)) []
  | .uploadPayload header payloadSize got =>
      readLargePayloadFromSocket payloadSize got (.uploadPayload header payloadSize)
        (fun payload => .received (.upload header.additionalInfo.string payload)) .ended
  | .insertUser got =>
      readLargePayloadFromSocket connectionSize got .insertUser .userInserted .ended
  | .exit got =>
      readLargePayloadFromSocket userCurrentSocketSize got .exit .userExited .ended
  | .received m => .emit m (.command [])
  | .ended => .halt

/-! ## The loop reads what was written -/

section RoundTrip

variable {fileSizeBuffer : Bytes} {stale : CommandPacket}

/-- The header of a message is read whole and dispatched. -/
theorem consumes_sendPacket (packet : CommandPacket) :
    Consumes (secondServerProcessing fileSizeBuffer) (.command []) (solid (sendPacket packet)) []
      [] (.dispatch packet.bytes) := by
  refine consumes_sendLargePayloadToSocket SecondaryState.command .dispatch (fun _ => .ended)
    packet.length_bytes_lt ?_
  intro got _
  rw [packet.length_bytes]
  rfl

theorem dispatch_fillPacket (command : UInt64) (info : CharArray 100) :
    SecondaryState.dispatch (fillPacket stale command info).bytes =
      if command = cmdUpload then .uploadSize (fillPacket stale command info)
      else if command = cmdDelete then .received (.delete info.string)
      else if command = cmdInsertUser then .insertUser []
      else if command = cmdExit then .exit []
      else .command [] := by
  simp only [SecondaryState.dispatch, CommandPacket.length_bytes, dif_pos,
    CommandPacket.ofBytes_bytes]
  rfl

theorem consumes_uploadBody (header : CommandPacket) {payload : Bytes}
    (hlen : payload.length < 2 ^ 31) (hbuffer : fileSizeBuffer.length = 8) :
    Consumes (secondServerProcessing fileSizeBuffer) (.uploadSize header)
      (uint64Bytes (UInt64.ofNat payload.length) :: solid (sendLargePayloadToSocket payload))
      [.upload header.additionalInfo.string payload] [] (.command []) := by
  refine .read (uint64Bytes_ne_nil _) (k := fun bs => .uploadPayload header
    (payloadSizeOf (readDataFromSocket fileSizeBuffer bs)) []) (by simp; rfl) ?_
  simp only [payloadSizeOf_uint64Bytes hlen hbuffer]
  have hbody : Consumes (secondServerProcessing fileSizeBuffer)
      (.uploadPayload header payload.length []) (solid (sendLargePayloadToSocket payload)) [] []
      (.received (.upload header.additionalInfo.string payload)) :=
    consumes_sendLargePayloadToSocket (SecondaryState.uploadPayload header payload.length)
      (fun payload => .received (.upload header.additionalInfo.string payload))
      (fun _ => .ended) hlen
      fun got _ => rfl
  simpa using hbody.trans (.emit rfl (.done _))

theorem solid_append (xs ys : List Bytes) : solid (xs ++ ys) = solid xs ++ solid ys :=
  List.filter_append _ _

/-- The size of an upload is never an empty write. -/
theorem solid_sendUpload (header : CommandPacket) (payload : Bytes) :
    solid (sendUpload header payload) = solid (sendPacket header) ++
      uint64Bytes (UInt64.ofNat payload.length) :: solid (sendLargePayloadToSocket payload) := by
  have hsize := uint64Bytes_ne_nil (UInt64.ofNat payload.length)
  rw [sendUpload, solid_append, solid, solid, List.filter_cons_of_pos (by simpa using hsize)]
  rfl

/-- The loop reads the writes of a message one by one and comes back with the message. -/
theorem consumes_writes (hbuffer : fileSizeBuffer.length = 8) {m : WireMessage}
    {writes : List Bytes} (hm : Sendable m) (hw : writesOf stale m = some writes) :
    Consumes (secondServerProcessing fileSizeBuffer) (.command []) (solid writes) [m] []
      (.command []) := by
  cases m with
  | upload path payload =>
      simp only [writesOf, Option.map_eq_some_iff] at hw
      rcases hw with ⟨info, hinfo, rfl⟩
      have hstr := CharArray.string_of_strcpy hm.1 hinfo
      rw [solid_sendUpload]
      have hbody := consumes_uploadBody (fillPacket stale cmdUpload info) hm.2 hbuffer
      -- the path comes back out of the header
      rw [fillPacket_additionalInfo, hstr] at hbody
      refine (consumes_sendPacket _).reads_trans ?_
      rw [dispatch_fillPacket, if_pos rfl]
      exact hbody
  | delete path =>
      simp only [writesOf, Option.map_eq_some_iff] at hw
      rcases hw with ⟨info, hinfo, rfl⟩
      have hstr := CharArray.string_of_strcpy hm hinfo
      -- the header is all there is of a deletion
      rw [← List.append_nil (solid _)]
      refine (consumes_sendPacket _).reads_trans ?_
      rw [dispatch_fillPacket, if_neg (by decide), if_pos rfl, hstr]
      exact .emit rfl (.done _)
  | insertUser con =>
      simp only [writesOf, Option.map_eq_some_iff] at hw
      rcases hw with ⟨info, _, rfl⟩
      rw [solid_append]
      refine (consumes_sendPacket _).reads_trans ?_
      rw [dispatch_fillPacket, if_neg (by decide), if_neg (by decide), if_pos rfl]
      have hbody : Consumes (secondServerProcessing fileSizeBuffer) (.insertUser [])
          (solid (sendLargePayloadToSocket con.bytes)) [] [] (.userInserted con.bytes) :=
        consumes_sendLargePayloadToSocket SecondaryState.insertUser .userInserted (fun _ => .ended)
          (by rw [con.length_bytes]; norm_num [connectionSize])
          fun got _ => by rw [con.length_bytes]; rfl
      -- the record that is read is the one that was written
      have hcon : SecondaryState.userInserted con.bytes = .received (.insertUser con) := by
        simp only [SecondaryState.userInserted, con.length_bytes, dif_pos, con.ofBytes_bytes]
      rw [hcon] at hbody
      simpa using hbody.trans (.emit rfl (.done _))
  | exit record =>
      cases hw
      rw [solid_append]
      refine (consumes_sendPacket _).reads_trans ?_
      rw [dispatch_fillPacket, if_neg (by decide), if_neg (by decide), if_neg (by decide),
        if_pos rfl]
      have hbody : Consumes (secondServerProcessing fileSizeBuffer) (.exit [])
          (solid (sendLargePayloadToSocket record.val)) [] [] (.userExited record.val) :=
        consumes_sendLargePayloadToSocket SecondaryState.exit .userExited (fun _ => .ended)
          (by rw [record.property]; norm_num [userCurrentSocketSize])
          fun got _ => by rw [record.property]; rfl
      have hrec : SecondaryState.userExited record.val = .received (.exit record) := by
        simp only [SecondaryState.userExited, record.property, dif_pos]
      rw [hrec] at hbody
      simpa using hbody.trans (.emit rfl (.done _))

end RoundTrip

end Server
end DropboxSimulator
