import DropboxSimulator.Library.Bytes

/-!
# Packets — the records that clients and servers exchange

The constants and structures of `masterInclude.h` and the command numbers of `Instruction.h`.
A record is sent as its bytes in memory, so each structure keeps the bytes a C++ compiler for
x86-64 adds after its last field (`padding`), and a `char` array keeps all its bytes, also those
after the terminator.
-/

namespace DropboxSimulator

open Library

/-! ## Constants -/

abbrev maxDevices : Nat := 2
abbrev maxUsers : Nat := 5
abbrev maxServers : Nat := 2
abbrev bufferSize : Nat := 4

/-- The values of `packetType`. -/
def packetCmd : UInt64 := 1
def packetFile : UInt64 := 2
def packetConn : UInt64 := 3
def packetServerConn : UInt64 := 4

/-- The three connections of a session: console, inotify and server notifications. -/
def socketT1 : UInt64 := 1
def socketT2 : UInt64 := 2
def socketT3 : UInt64 := 3

/-- The values of `command`.  `INSERT_USER` and `LIST_SERVER` share a number: the first is only
sent from a primary to a secondary, the second only from a client to the primary. -/
def cmdUpload : UInt64 := 2
def cmdDownload : UInt64 := 3
def cmdDelete : UInt64 := 4
def cmdListServer : UInt64 := 5
def cmdInsertUser : UInt64 := 5
def cmdExit : UInt64 := 8

/-! ## Records -/

/-- `commandPacket`: the header of every command and of every replication message. -/
structure CommandPacket where
  packetType : UInt64
  command : UInt64
  additionalInfo : CharArray 100
  padding : CharArray 4
  deriving DecidableEq

/-- `connection_t`: what a peer sends first on a new connection. -/
structure Connection where
  packetType : UInt64
  socketType : UInt64
  device : Int32
  username : CharArray 100
  socket : Int32
  padding : CharArray 4
  deriving DecidableEq

/-- The user name of a connection request as the server reads it. -/
def Connection.user (con : Connection) : Bytes :=
  con.username.string

/-- `UserCurrentSocket`: the session a command thread serves. -/
structure UserCurrentSocket where
  userName : Bytes
  currentDevice : Int32
  currentSocket : Int32
  deriving DecidableEq

/-- What a primary tells a secondary.  `ρ` is the form in which an exiting session is named: the
session itself where the record is taken as decoded, its bytes where they are on the wire. -/
inductive Replication (ρ : Type)
  | upload (path payload : Bytes)
  | delete (path : Bytes)
  | insertUser (con : Connection)
  | exit (record : ρ)
  deriving DecidableEq

/-! ## Layout in memory -/

/-- `sizeof(commandPacket)`. -/
abbrev commandPacketSize : Nat := 120

/-- `sizeof(connection_t)`. -/
abbrev connectionSize : Nat := 128

/-- `sizeof(UserCurrentSocket)`: a 32-byte `std::string` and two `int`s. -/
abbrev userCurrentSocketSize : Nat := 40

/-- The four bytes of an `int`. -/
def int32Bytes (x : Int32) : Bytes :=
  leBytes 4 x.toUInt32.toNat

/-- The `int` that four bytes hold. -/
def int32OfBytes (bs : Bytes) : Int32 :=
  (UInt32.ofNat (leValue bs)).toInt32

/-- The eight bytes of a `uint64_t`. -/
def uint64Bytes (x : UInt64) : Bytes :=
  leBytes 8 x.toNat

/-- The `uint64_t` that eight bytes hold. -/
def uint64OfBytes (bs : Bytes) : UInt64 :=
  UInt64.ofNat (leValue bs)

/-- The `long` that eight bytes hold. -/
def int64OfBytes (bs : Bytes) : Int :=
  Int.bmod (leValue bs) (2 ^ 64)

@[simp] theorem length_int32Bytes (x : Int32) : (int32Bytes x).length = 4 := by
  simp [int32Bytes]

@[simp] theorem length_uint64Bytes (x : UInt64) : (uint64Bytes x).length = 8 := by
  simp [uint64Bytes]

theorem uint64Bytes_ne_nil (x : UInt64) : uint64Bytes x ≠ [] := by
  simp [← List.length_pos_iff]

@[simp] theorem int32OfBytes_int32Bytes (x : Int32) : int32OfBytes (int32Bytes x) = x := by
  have hlt : x.toUInt32.toNat < 256 ^ 4 := x.toUInt32.toNat_lt
  simp [int32OfBytes, int32Bytes, leValue_leBytes_of_lt hlt]

@[simp] theorem uint64OfBytes_uint64Bytes (x : UInt64) : uint64OfBytes (uint64Bytes x) = x := by
  have hlt : x.toNat < 256 ^ 8 := x.toNat_lt
  simp [uint64OfBytes, uint64Bytes, leValue_leBytes_of_lt hlt]

/-- A length below `2 ^ 63` is the same number as a `long`. -/
theorem int64OfBytes_uint64Bytes {n : Nat} (h : n < 2 ^ 63) :
    int64OfBytes (uint64Bytes (UInt64.ofNat n)) = n := by
  have h64 : (UInt64.ofNat n).toNat = n :=
    UInt64.toNat_ofNat_of_lt' (h.trans (by norm_num [UInt64.size]))
  have hlt : n < 256 ^ 8 := h.trans (by norm_num)
  have hvalue : leValue (uint64Bytes (UInt64.ofNat n)) = n := by
    rw [uint64Bytes, h64, leValue_leBytes_of_lt hlt]
  unfold int64OfBytes
  rw [hvalue, Int.bmod_def]
  omega

/-- A size buffer of zeroes. -/
def emptySizeBuffer : CharArray 8 :=
  ⟨List.replicate 8 0, rfl⟩

/-- A packet of zeroes. -/
def emptyPacket : CommandPacket where
  packetType := 0
  command := 0
  additionalInfo := ⟨List.replicate 100 0, rfl⟩
  padding := ⟨List.replicate 4 0, rfl⟩

/-- The deletion of a file without a name. -/
def deletionPacket : CommandPacket :=
  { emptyPacket with command := cmdDelete }

namespace CommandPacket

/-- The packet as it lies in memory. -/
def bytes (p : CommandPacket) : Bytes :=
  uint64Bytes p.packetType ++ uint64Bytes p.command ++ p.additionalInfo.val ++ p.padding.val

/-- The packet that `commandPacketSize` bytes of memory hold. -/
def ofBytes (bs : Bytes) (h : bs.length = commandPacketSize) : CommandPacket where
  packetType := uint64OfBytes (bs.take 8)
  command := uint64OfBytes ((bs.drop 8).take 8)
  additionalInfo := CharArray.ofSlice bs 16 (by simp [h, commandPacketSize])
  -- 16 bytes of numbers, 100 of text
  padding := CharArray.ofSlice bs 116 (by simp [h, commandPacketSize])

@[simp] theorem length_bytes (p : CommandPacket) : p.bytes.length = commandPacketSize := by
  have h1 := p.additionalInfo.property
  have h2 := p.padding.property
  simp [bytes, h1, h2]

theorem bytes_ne_nil (p : CommandPacket) : p.bytes ≠ [] := by
  rw [← List.length_pos_iff, p.length_bytes]
  norm_num [commandPacketSize]

/-- A packet is short enough for the sending loop. -/
theorem length_bytes_lt (p : CommandPacket) : p.bytes.length < 2 ^ 31 := by
  rw [p.length_bytes]
  norm_num [commandPacketSize]

theorem ofBytes_bytes (p : CommandPacket) : ofBytes p.bytes p.length_bytes = p := by
  rcases p with ⟨t, c, ⟨info, hinfo⟩, ⟨pad, hpad⟩⟩
  simp [ofBytes, bytes, CharArray.ofSlice, List.drop_append,
    List.drop_eq_nil_of_le, List.take_of_length_le, hinfo, hpad]

end CommandPacket

namespace Connection

/-- The record as it lies in memory. -/
def bytes (con : Connection) : Bytes :=
  uint64Bytes con.packetType ++ uint64Bytes con.socketType ++ int32Bytes con.device ++
    con.username.val ++ int32Bytes con.socket ++ con.padding.val

/-- The record that `connectionSize` bytes of memory hold. -/
def ofBytes (bs : Bytes) (h : bs.length = connectionSize) : Connection where
  packetType := uint64OfBytes (bs.take 8)
  socketType := uint64OfBytes ((bs.drop 8).take 8)
  device := int32OfBytes ((bs.drop 16).take 4)
  username := CharArray.ofSlice bs 20 (by simp [h, connectionSize])
  socket := int32OfBytes ((bs.drop 120).take 4)
  -- the second `int` comes after the user name
  padding := CharArray.ofSlice bs 124 (by simp [h, connectionSize])

@[simp] theorem length_bytes (con : Connection) : con.bytes.length = connectionSize := by
  have h1 := con.username.property
  have h2 := con.padding.property
  simp [bytes, h1, h2]

theorem ofBytes_bytes (con : Connection) : ofBytes con.bytes con.length_bytes = con := by
  rcases con with ⟨t, s, d, ⟨name, hname⟩, fd, ⟨pad, hpad⟩⟩
  simp [ofBytes, bytes, CharArray.ofSlice, List.drop_append,
    List.drop_eq_nil_of_le, List.take_of_length_le, hname, hpad]

end Connection

end DropboxSimulator
