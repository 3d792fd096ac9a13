import DropboxSimulator.Library.SlotArray
import DropboxSimulator.Packets

/-!
# Users — the table of logged users and the functions that change it

The global `users[]` array of `Server.cpp` and its helper functions.  A free user slot has the
empty name and a free device slot the id `-1`, so the same lookups find used and free slots.

Two C++ details are kept.  A function that may run off its end returns `Pointer.undefined` there,
and a function that would then use the value, or dereference a null pointer, returns `none`.
-/

namespace DropboxSimulator
namespace Server

open Library

/-! ## The table -/

structure Device where
  id : Int32
  socket1 : Int32
  socket2 : Int32
  socket3 : Int32
  deriving DecidableEq

structure User where
  name : Bytes
  devices : Fin maxDevices → Device

abbrev Users := Fin maxUsers → User

/-- Where a device lies in the table. -/
abbrev DeviceIndex := Fin maxUsers × Fin maxDevices

/-- Result codes of the table functions. -/
inductive Code
  | success
  | error
  | maxUsersReached
  | userAlreadyConnected
  | maxDevicesReached
  | deviceAlreadyConnected
  deriving DecidableEq

/-- A pointer result; `undefined` where the function returns without a value. -/
inductive Pointer (α : Type)
  | undefined
  | null
  | ref (p : α)
  deriving DecidableEq

/-- A device slot nobody uses. -/
def Device.free : Device :=
  { id := -1, socket1 := -1, socket2 := -1, socket3 := -1 }

def Users.device (users : Users) (p : DeviceIndex) : Device :=
  (users p.1).devices p.2

def Users.setDevice (users : Users) (p : DeviceIndex) (dev : Device) : Users :=
  Function.update users p.1
    { users p.1 with devices := Function.update (users p.1).devices p.2 dev }

/-- `initiate_user_controller_structure`. -/
def initiateUserControllerStructure : Users :=
  fun _ => { name := [], devices := fun _ => Device.free }

/-! ## Lookups -/

/-- `get_user`. -/
def getUser (users : Users) (name : Bytes) : Option (Fin maxUsers) :=
  SlotArray.find User.name users name

/-- `get_device`: runs off its end for the empty name. -/
def getDevice (users : Users) (deviceId : Int32) (name : Bytes) : Pointer DeviceIndex :=
  if name ≠ [] then
    match getUser users name with
    | none => .null
    | some u =>
        match SlotArray.find Device.id (users u).devices deviceId with
        | some d => .ref (u, d)
        | none => .null
  else
    .undefined

/-- `number_of_devices`, with `ERROR` for an unknown user. -/
def numberOfDevices (users : Users) (name : Bytes) : Int :=
  match getUser users name with
  | none => -1
  | some u => SlotArray.used Device.id (-1) (users u).devices

/-- `number_of_users_logged`. -/
def numberOfUsersLogged (users : Users) : Nat :=
  SlotArray.used User.name [] users

/-- `is_device_connected`: `ERROR` for an unknown user, else `true` or `false`. -/
def isDeviceConnected (users : Users) (name : Bytes) : Int :=
  match getUser users name with
  | none => -1
  | some u => if ∃ d, ((users u).devices d).id ≠ -1 then 1 else 0

/-- `get_available_device`: runs off its end when no slot is free. -/
def getAvailableDevice (users : Users) (name : Bytes) : Pointer DeviceIndex :=
  match getUser users name with
  | none => .null
  | some u =>
      if numberOfDevices users name ≥ maxDevices then
        .null
      else
        match SlotArray.find Device.id (users u).devices (-1) with
        | some d => .ref (u, d)
        | none => .undefined

/-! ## Updates -/

/-- `insert_user`. -/
def insertUser (users : Users) (name : Bytes) : Users × Code :=
  match getUser users name with
  | some _ => (users, .userAlreadyConnected)
  | none =>
      if numberOfUsersLogged users ≥ maxUsers then
        (users, .error)
      else
        match SlotArray.find User.name users [] with
        | some u => (Function.update users u { users u with name := name }, .success)
        | none => (users, .error)

/-- The loop of `remove_user` over the user slots still to visit. -/
def removeUserLoop (name : Bytes) : List (Fin maxUsers) → Users → Users
  | [], users => users
  | u :: rest, users =>
      if (users u).name = name then
        -- the result `ERROR` counts as connected too
        if isDeviceConnected users name ≠ 0 then
          users
        else
          removeUserLoop name rest (Function.update users u { users u with name := [] })
      else
        removeUserLoop name rest users

/-- `remove_user`: goes on after it has freed a slot, and stops at the first slot of that name
whose user still counts as connected. -/
def removeUser (users : Users) (name : Bytes) : Users :=
  removeUserLoop name (List.finRange maxUsers) users

/-- `insert_device`. -/
def insertDevice (users : Users) (name : Bytes) (deviceId : Int32) : Option (Users × Code) :=
  match getUser users name with
  | none => some (users, .error)
  | some _ =>
      match getDevice users deviceId name with
      | .undefined => none
      | .ref _ => some (users, .deviceAlreadyConnected)
      | .null =>
          match getAvailableDevice users name with
          | .undefined => none
          | .null => some (users, .maxDevicesReached)
          | .ref p => some (users.setDevice p { users.device p with id := deviceId }, .success)

/-- `remove_device`. -/
def removeDevice (users : Users) (name : Bytes) (deviceId : Int32) : Option (Users × Code) :=
  match getUser users name with
  | none => some (users, .error)
  | some _ =>
      match getDevice users deviceId name with
      | .undefined => none
      | .null => some (users, .error)
      | .ref p => some (users.setDevice p Device.free, .success)

/-- The `switch` of `insert_socket`; an unknown socket type changes nothing. -/
def Device.setSocket (dev : Device) (socketType socketDescriptor : Int32) : Device :=
  if socketType = 1 then
    { dev with socket1 := socketDescriptor }
  else if socketType = 2 then
    { dev with socket2 := socketDescriptor }
  else if socketType = 3 then
    { dev with socket3 := socketDescriptor }
  else
    dev

/-- `insert_socket`: dereferences what `get_device` returned, unchecked, for a known type. -/
def insertSocket (users : Users) (name : Bytes) (deviceId socketDescriptor socketType : Int32) :
    Option Users :=
  match getDevice users deviceId name with
  | .undefined => none
  -- the `default` of the `switch` does not touch the device
  | .null => if socketType = 1 ∨ socketType = 2 ∨ socketType = 3 then none else some users
  | .ref p => some (users.setDevice p ((users.device p).setSocket socketType socketDescriptor))

end Server
end DropboxSimulator
