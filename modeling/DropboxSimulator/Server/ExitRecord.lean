import DropboxSimulator.Library.Memory
import DropboxSimulator.Server.Replica
import DropboxSimulator.Server.ReplicationWire

/-!
# ExitRecord — the bytes of an exiting session

`exitCommand` sends a secondary the memory of a `UserCurrentSocket`, whose first member is a
`std::string`: the address of its characters and their number, not the characters.
`receiveExitFromPrimary` lays these bytes over a variable of its own and copies the string from
what its own memory holds at that address.  The bytes themselves arrive as they were sent
(`consumes_writes`).

* `StdString`         : a string object of the primary, at its place in memory;
* `exitRecord`        : the forty bytes that are sent;
* `receiveExitRecord` : what the secondary does with forty such bytes;
* `CarriesName`       : all characters are found in the secondary's copy of the record.
-/

namespace DropboxSimulator
namespace Server

open Library

/-! ## The sender's object -/

/-- The size of the inline buffer of a `std::string`. -/
abbrev localCapacity : Nat := 16

/-- A `std::string` of libstdc++ that holds `text`.  A short text may lie in the inline buffer,
which is 16 bytes behind the start of the object; otherwise the buffer keeps the capacity of the
block that the data pointer leads to. -/
structure StdString (text : Bytes) where
  place : UInt64
  dataPointer : UInt64
  localBuffer : CharArray localCapacity
  length_lt : text.length < 2 ^ 63
  layout :
    (dataPointer = place + 16 ∧ text ++ [0] <+: localBuffer.val) ∨
      (dataPointer ≠ place + 16 ∧ text.length ≤ leValue (localBuffer.val.take 8))

/-- The bytes of the object: data pointer, length and inline buffer. -/
def StdString.bytes {text : Bytes} (s : StdString text) : Bytes :=
  uint64Bytes s.dataPointer ++ uint64Bytes (UInt64.ofNat text.length) ++ s.localBuffer.val

/-- What `exitCommand` sends after the header: the session as it lies in memory. -/
def exitRecord (arg : UserCurrentSocket) (s : StdString arg.userName) :
    CharArray userCurrentSocketSize :=
  ⟨s.bytes ++ int32Bytes arg.currentDevice ++ int32Bytes arg.currentSocket, by
    have hbuffer := s.localBuffer.property
    simp [StdString.bytes, hbuffer, localCapacity, userCurrentSocketSize]⟩

/-! ## The receiver -/

/-- The string that the object at an address holds; `none` when its characters are not mapped. -/
def stdStringAt (memory : Memory) (place : Nat) : Option Bytes :=
  match memory.load place 8, memory.load (place + 8) 8 with
  | some dataPointer, some size => memory.load (leValue dataPointer) (leValue size)
  | _, _ => none

/-- The session that the object at an address holds. -/
def userCurrentSocketAt (memory : Memory) (place : Nat) : Option UserCurrentSocket :=
  match stdStringAt memory place, memory.load (place + 32) 4, memory.load (place + 36) 4 with
  | some userName, some device, some socket =>
      some
        { userName := userName
          currentDevice := int32OfBytes device
          currentSocket := int32OfBytes socket }
  | _, _, _ => none

/-- The record is read over the variable `user`, which lies at `place`. -/
def readUserCurrentSocket (memory : Memory) (place : UInt64)
    (record : CharArray userCurrentSocketSize) : Option UserCurrentSocket :=
  userCurrentSocketAt (memory.store place.toNat record.val) place.toNat

/-- `receiveExitFromPrimary` from the bytes of the record on. -/
def receiveExitRecord (memory : Memory) (place : UInt64) (users : Users)
    (record : CharArray userCurrentSocketSize) : Option Users :=
  match readUserCurrentSocket memory place record with
  | none => none
  | some user => receiveExitFromPrimary users user.userName user.currentDevice

/-! ## What the record carries -/

/-- Every character of the name lies in the copy of the record at `place`, where the data pointer
leads to it. -/
def CarriesName (arg : UserCurrentSocket) (s : StdString arg.userName) (place : UInt64) : Prop :=
  ∀ i (h : i < arg.userName.length),
    place.toNat ≤ s.dataPointer.toNat + i ∧
      (exitRecord arg s).val[s.dataPointer.toNat + i - place.toNat]? = some arg.userName[i]

/-- Whatever the memory of the secondary holds, the record is read as the session that exits, and
the table of the secondary changes as that of the primary. -/
def Understood (arg : UserCurrentSocket) (s : StdString arg.userName) (place : UInt64) : Prop :=
  ∀ memory : Memory,
    readUserCurrentSocket memory place (exitRecord arg s) = some arg ∧
      ∀ (users : Users) (servers : BackupServers) (exited : Exited),
        exitCommand users servers arg = some exited →
        receiveExitRecord memory place users (exitRecord arg s) = some exited.users

section Decoding

variable {arg : UserCurrentSocket} {s : StdString arg.userName} {place : UInt64} {memory : Memory}

theorem leValue_uint64Bytes (x : UInt64) : leValue (uint64Bytes x) = x.toNat := by
  have hlt : x.toNat < 256 ^ 8 := x.toNat_lt
  rw [uint64Bytes, leValue_leBytes_of_lt hlt]

/-- The record field by field. -/
theorem exitRecord_val :
    (exitRecord arg s).val =
      uint64Bytes s.dataPointer ++ (uint64Bytes (UInt64.ofNat arg.userName.length) ++
        (s.localBuffer.val ++ (int32Bytes arg.currentDevice ++ int32Bytes arg.currentSocket))) := by
  simp [exitRecord, StdString.bytes]

/-- Reading the record gives the numbers in it, and the name that memory holds. -/
theorem readUserCurrentSocket_eq :
    readUserCurrentSocket memory place (exitRecord arg s) =
      ((memory.store place.toNat (exitRecord arg s).val).load s.dataPointer.toNat
        arg.userName.length).map fun userName => { arg with userName := userName } := by
  have hbuffer := s.localBuffer.property
  have hlength : (UInt64.ofNat arg.userName.length).toNat = arg.userName.length :=
    UInt64.toNat_ofNat_of_lt' (s.length_lt.trans (by norm_num [UInt64.size]))
  -- the numbers lie at fixed places of the record, whatever was in memory before
  have hpart : ∀ (off n : Nat) (front part rest : Bytes), front.length = off → part.length = n →
      (exitRecord arg s).val = front ++ (part ++ rest) →
      (memory.store place.toNat (exitRecord arg s).val).load (place.toNat + off) n =
        some part := by
    rintro _ _ front part rest rfl rfl h
    exact Memory.load_store h
  have hpointer := hpart 0 8 [] _ _ rfl (length_uint64Bytes _) exitRecord_val
  have hsize := hpart 8 8 _ _ _ (length_uint64Bytes _) (length_uint64Bytes _) exitRecord_val
  have hdevice := hpart 32 4
    (uint64Bytes s.dataPointer ++ (uint64Bytes (UInt64.ofNat arg.userName.length) ++
      s.localBuffer.val)) (int32Bytes arg.currentDevice) (int32Bytes arg.currentSocket)
    (by simp [hbuffer, localCapacity]) (length_int32Bytes _) (by rw [exitRecord_val]; simp)
  have hsocket := hpart 36 4
    (uint64Bytes s.dataPointer ++ (uint64Bytes (UInt64.ofNat arg.userName.length) ++
      (s.localBuffer.val ++ int32Bytes arg.currentDevice))) (int32Bytes arg.currentSocket) []
    (by simp [hbuffer, localCapacity]) (length_int32Bytes _) (by rw [exitRecord_val]; simp)
  rw [Nat.add_zero] at hpointer
  simp only [readUserCurrentSocket, userCurrentSocketAt, stdStringAt, hpointer, hsize, hdevice,
    hsocket, leValue_uint64Bytes, hlength]
  cases (memory.store place.toNat (exitRecord arg s).val).load s.dataPointer.toNat
    arg.userName.length with
  | none =>
      rfl
  | some userName =>
      simp

/-- What the primary's table becomes is what `receiveExitFromPrimary` makes of the same table. -/
theorem receiveExitFromPrimary_of_exitCommand {users : Users} {servers : BackupServers}
    {exited : Exited} (h : exitCommand users servers arg = some exited) :
    receiveExitFromPrimary users arg.userName arg.currentDevice = some exited.users := by
  unfold exitCommand at h
  split at h
  · cases h
  · cases h
  · next p hdev =>
      simp only [removeDevice_of_ref hdev, Option.some.injEq] at h
      subst h
      simp only [receiveExitFromPrimary, removeDevice_of_ref hdev]

/-- Without characters there is nothing to look for. -/
theorem carriesName_of_empty (h : arg.userName = []) : CarriesName arg s place := by
  intro i hi
  rw [h] at hi
  exact absurd hi (Nat.not_lt_zero i)

/-- A name in the inline buffer is carried to the same address. -/
theorem carriesName_of_same_place (hlocal : s.dataPointer = s.place + 16)
    (hfits : s.place.toNat + userCurrentSocketSize ≤ 2 ^ 64) : CarriesName arg s s.place := by
  have hpointer : s.dataPointer.toNat = s.place.toNat + 16 := by
    rw [hlocal, UInt64.toNat_add]
    exact Nat.mod_eq_of_lt (by
      have h16 : (16 : UInt64).toNat = 16 := rfl
      rw [h16]
      simp only [userCurrentSocketSize] at hfits
      omega)
  intro i hi
  rcases s.layout with ⟨_, rest, hbuffer⟩ | ⟨hother, _⟩
  · refine ⟨by omega, ?_⟩
    have hat : s.dataPointer.toNat + i - s.place.toNat = 16 + i := by omega
    rw [hat, exitRecord_val, ← hbuffer]
    -- sixteen bytes of numbers come first
    rw [← List.append_assoc, List.getElem?_append_right (by simp)]
    have hfirst := @List.getElem?_append_left _ arg.userName ([0] ++ (rest ++
      (int32Bytes arg.currentDevice ++ int32Bytes arg.currentSocket))) i hi
    simpa [hi] using hfirst
  · exact absurd hlocal hother

/-- A name whose characters lie elsewhere is not carried. -/
theorem not_carriesName_of_outside (hname : arg.userName ≠ [])
    (hout : s.dataPointer.toNat < place.toNat ∨
      place.toNat + userCurrentSocketSize ≤ s.dataPointer.toNat) : ¬CarriesName arg s place := by
  intro h
  have hpos := List.length_pos_iff.2 hname
  rcases h 0 hpos with ⟨hle, hbyte⟩
  have hlt := (List.getElem?_eq_some_iff.1 hbyte).1
  rw [(exitRecord arg s).property] at hlt
  omega

/-- The record is understood, whatever the secondary has in memory, if and only if it carries the
name. -/
theorem exitRecord_understood_iff (arg : UserCurrentSocket) (s : StdString arg.userName)
    (place : UInt64) : Understood arg s place ↔ CarriesName arg s place := by
  have hdecoded : ∀ memory : Memory,
      readUserCurrentSocket memory place (exitRecord arg s) = some arg ↔
        ∀ i (h : i < arg.userName.length),
          memory.store place.toNat (exitRecord arg s).val (s.dataPointer.toNat + i) =
            some arg.userName[i] := by
    intro memory
    have hload := @Memory.load_eq_some_iff (memory.store place.toNat (exitRecord arg s).val)
      s.dataPointer.toNat arg.userName.length arg.userName
    rw [readUserCurrentSocket_eq, Option.map_eq_some_iff]
    constructor
    · rintro ⟨userName, hname, hsame⟩
      have huser : userName = arg.userName := congrArg UserCurrentSocket.userName hsame
      rw [huser] at hname
      exact (hload.1 hname).2
    · intro hall
      exact ⟨arg.userName, hload.2 ⟨rfl, hall⟩, rfl⟩
  constructor
  · intro h i hi
    -- only what the record brings along is known of the secondary's memory
    exact Memory.forall_store_eq_some_iff.1 fun memory => (hdecoded memory).1 (h memory).1 i hi
  · intro h memory
    have hread : readUserCurrentSocket memory place (exitRecord arg s) = some arg :=
      (hdecoded memory).2 fun i hi => Memory.forall_store_eq_some_iff.2 (h i hi) memory
    refine ⟨hread, ?_⟩
    intro users servers exited hexit
    simp only [receiveExitRecord, hread]
    exact receiveExitFromPrimary_of_exitCommand hexit

/-- The session of device `1` of user `a`, whose name lies in the inline buffer of a string at the
address 4096. -/
def inlineName : StdString [97] where
  place := 4096
  dataPointer := 4112
  localBuffer := ⟨97 :: List.replicate 15 0, rfl⟩
  length_lt := by decide
  layout := by decide

/-- A secondary whose variable lies at another address, where its memory holds zeroes, reads another
name. -/
theorem inlineName_misread :
    readUserCurrentSocket (fun _ => some 0) 8192
        (exitRecord { userName := [97], currentDevice := 1, currentSocket := 4 } inlineName) =
      some { userName := [0], currentDevice := 1, currentSocket := 4 } ∧
    ¬Understood { userName := [97], currentDevice := 1, currentSocket := 4 } inlineName 8192 := by
  have hread : readUserCurrentSocket (fun _ => some 0) 8192
        (exitRecord { userName := [97], currentDevice := 1, currentSocket := 4 } inlineName) =
      some { userName := [0], currentDevice := 1, currentSocket := 4 } := by
    decide
  refine ⟨hread, ?_⟩
  intro h
  have hsame := (h fun _ => some 0).1
  rw [hread] at hsame
  cases hsame

end Decoding

end Server
end DropboxSimulator
