import DropboxSimulator.Server.Registry

/-!
# Admission — connection requests and exits of sessions

`handle_user_controller_structure` and `exitCommand`, each as one critical section under
`mutex_user_structure`: what becomes of the table, what is answered, which descriptors are closed
and which messages go to the secondary servers.

`none` stands for undefined behaviour: a null pointer dereferenced, or the value of a function
that ran off its end used.
-/

namespace DropboxSimulator
namespace Server

open Library

/-! ## Secondary servers -/

structure BackupServer where
  id : Int32
  socket : Int32
  deriving DecidableEq

abbrev BackupServers := Fin maxServers → BackupServer

/-- `initiate_backup_server_structure`. -/
def initiateBackupServerStructure : BackupServers :=
  fun _ => { id := -1, socket := -1 }

/-- `insert_server`. -/
def insertServer (servers : BackupServers) (id socket : Int32) : BackupServers × Code :=
  match SlotArray.find BackupServer.id servers (-1) with
  | some i => (Function.update servers i { id := id, socket := socket }, .success)
  | none => (servers, .error)

/-- The loops over `backupServers` that send one message to every registered secondary.  Each
message goes to the `socket` of the entry it is listed with. -/
def notifyServers {ρ : Type} (servers : BackupServers) (m : Replication ρ) :
    List (Fin maxServers × Replication ρ) :=
  (List.finRange maxServers).filterMap fun i =>
    if (servers i).id ≠ -1 then some (i, m) else none

section Servers

variable {servers : BackupServers} {id socket : Int32} {k : Fin maxServers}

theorem insertServer_of_room (hroom : ∃ k, (servers k).id = -1) :
    ∃ k, (insertServer servers id socket).1 k = { id := id, socket := socket } := by
  rcases hroom with ⟨k, hk⟩
  cases hfind : SlotArray.find BackupServer.id servers (-1) with
  | none =>
      exact absurd hk (SlotArray.find_eq_none_iff.1 hfind k)
  | some i =>
      exact ⟨i, by simp [insertServer, hfind]⟩

/-- `insert_server` leaves the slots in use alone. -/
theorem insertServer_of_used (hk : (servers k).id ≠ -1) :
    (insertServer servers id socket).1 k = servers k := by
  unfold insertServer
  split
  · next i hi =>
      have hne : k ≠ i := by
        rintro rfl
        exact hk (SlotArray.key_of_find hi)
      exact Function.update_of_ne hne _ _
  · rfl

end Servers

/-! ## Connection requests -/

/-- The answers to a connection request. -/
inductive Reply
  | ack
  | nack1
  | nack2
  | nack3
  | nack5
  deriving DecidableEq

/-- What one run of `handle_user_controller_structure` did.  There is no reply where no branch
of the function is taken. -/
structure Handled where
  users : Users
  reply : Option Reply
  sent : List (Fin maxServers × Replication UserCurrentSocket)

/-- The `socket_type` argument of `insert_socket`: a `uint64_t` passed as an `int`. -/
def Connection.socketTypeInt (con : Connection) : Int32 :=
  con.socketType.toUInt32.toInt32

/-- The branches that answer `ack`: record the descriptor and tell the secondaries. -/
def acknowledge (users : Users) (servers : BackupServers) (con : Connection) (socket : Int32) :
    Option Handled :=
  match insertSocket users con.user con.device socket (Connection.socketTypeInt con) with
  | none => none
  | some users =>
      some { users := users, reply := some .ack, sent := notifyServers servers (.insertUser con) }

/-- `handle_user_controller_structure`. -/
def handleUserControllerStructure (users : Users) (servers : BackupServers) (con : Connection)
    (socket : Int32) : Option Handled :=
  match insertUser users con.user with
  | (users, .error) => some { users := users, reply := some .nack1, sent := [] }
  | (users, .maxUsersReached) => some { users := users, reply := some .nack2, sent := [] }
  | (users, .userAlreadyConnected) =>
      match insertDevice users con.user con.device with
      | none => none
      | some (users, .maxDevicesReached) =>
          some { users := users, reply := some .nack3, sent := [] }
      | some (users, .deviceAlreadyConnected) => acknowledge users servers con socket
      | some (users, .success) => acknowledge users servers con socket
      | some (users, _) => some { users := users, reply := none, sent := [] }
  | (users, .success) =>
      match insertDevice users con.user con.device with
      | none => none
      | some (users, .error) =>
          some
            { users := if isDeviceConnected users con.user = 0 then removeUser users con.user
                else users
              reply := some .nack5
              sent := [] }
      -- the source tests the result of `insert_user` again here, so every other device result
      -- is acknowledged
      | some (users, _) => acknowledge users servers con socket
  | (users, _) => some { users := users, reply := none, sent := [] }

/-! ## Exits -/

/-- What one run of `exitCommand` did; `code` is the result of `remove_device`. -/
structure Exited where
  users : Users
  code : Code
  closed : List Int32
  sent : List (Fin maxServers × Replication UserCurrentSocket)

/-- `exitCommand`: dereferences what `get_device` returned, unchecked. -/
def exitCommand (users : Users) (servers : BackupServers) (arg : UserCurrentSocket) :
    Option Exited :=
  match getDevice users arg.currentDevice arg.userName with
  | .undefined => none
  | .null => none
  | .ref p =>
      let dev := users.device p
      let closed := [dev.socket1, dev.socket2, dev.socket3]
      match removeDevice users arg.userName arg.currentDevice with
      | none => none
      | some (users, .success) =>
          some
            { users := if isDeviceConnected users arg.userName = 0 then
                removeUser users arg.userName else users
              code := .success
              closed := closed
              sent := notifyServers servers (.exit arg) }
      | some (users, code) => some { users := users, code := code, closed := closed, sent := [] }

/-! ## What each table function does -/

section Specs

variable {users : Users} {servers : BackupServers} {name : Bytes} {deviceId : Int32}
variable {u : Fin maxUsers} {p : DeviceIndex}

theorem insertUser_of_known (h : getUser users name = some u) :
    insertUser users name = (users, .userAlreadyConnected) := by
  simp [insertUser, h]

theorem insertUser_of_full (h : getUser users name = none)
    (hfull : maxUsers ≤ numberOfUsersLogged users) : insertUser users name = (users, .error) := by
  simp only [insertUser, h]
  rw [if_pos hfull]

theorem insertUser_of_new (h : getUser users name = none)
    (hroom : numberOfUsersLogged users < maxUsers) :
    ∃ u, (users u).name = [] ∧
      insertUser users name =
        (Function.update users u { users u with name := name }, .success) := by
  -- the loop finds a free slot, since the counter says that there is one
  rcases SlotArray.exists_find_free_of_used_lt hroom with ⟨u, hu⟩
  refine ⟨u, SlotArray.key_of_find hu, ?_⟩
  simp only [insertUser, h, hu]
  rw [if_neg (Nat.not_le.2 hroom)]

theorem getUser_of_getDevice (h : getDevice users deviceId name = .ref p) :
    getUser users name = some p.1 := by
  unfold getDevice at h
  split at h
  · split at h
    · cases h
    · next v hv =>
        split at h
        · cases h
          exact hv
        · cases h
  · cases h

theorem getDevice_eq_null_iff (hname : name ≠ []) (h : getUser users name = some u) :
    getDevice users deviceId name = .null ↔ ∀ d, ((users u).devices d).id ≠ deviceId := by
  rw [← (SlotArray.find_eq_none_iff :
    SlotArray.find Device.id (users u).devices deviceId = none ↔ _)]
  simp only [getDevice, ne_eq, hname, not_false_eq_true, if_true, h]
  cases SlotArray.find Device.id (users u).devices deviceId <;> simp

theorem insertDevice_of_known (h : getDevice users deviceId name = .ref p) :
    insertDevice users name deviceId = some (users, .deviceAlreadyConnected) := by
  simp [insertDevice, getUser_of_getDevice h, h]

theorem insertDevice_of_full (hu : getUser users name = some u)
    (h : getDevice users deviceId name = .null)
    (hfull : maxDevices ≤ SlotArray.used Device.id (-1) (users u).devices) :
    insertDevice users name deviceId = some (users, .maxDevicesReached) := by
  -- `get_available_device` gives up before it searches
  have hnum : numberOfDevices users name ≥ maxDevices := by
    simp only [numberOfDevices, hu]
    exact_mod_cast hfull
  simp only [insertDevice, hu, h, getAvailableDevice]
  rw [if_pos hnum]

/-- `get_available_device` never runs off its end: the counter and the search agree. -/
theorem getAvailableDevice_ne_undefined : getAvailableDevice users name ≠ .undefined := by
  cases hu : getUser users name with
  | none =>
      simp [getAvailableDevice, hu]
  | some u =>
      simp only [getAvailableDevice, hu]
      by_cases hfull : numberOfDevices users name ≥ maxDevices
      · rw [if_pos hfull]
        simp
      · -- the search comes after the counter has found room
        have hroom : SlotArray.used Device.id (-1) (users u).devices < maxDevices := by
          simp only [numberOfDevices, hu] at hfull
          exact_mod_cast not_le.1 hfull
        rcases SlotArray.exists_find_free_of_used_lt hroom with ⟨d, hd⟩
        rw [if_neg hfull, hd]
        simp

theorem insertDevice_of_new (hu : getUser users name = some u)
    (h : getDevice users deviceId name = .null)
    (hroom : SlotArray.used Device.id (-1) (users u).devices < maxDevices) :
    ∃ d, ((users u).devices d).id = -1 ∧
      insertDevice users name deviceId =
        some (users.setDevice (u, d) { users.device (u, d) with id := deviceId }, .success) := by
  rcases SlotArray.exists_find_free_of_used_lt hroom with ⟨d, hd⟩
  refine ⟨d, SlotArray.key_of_find hd, ?_⟩
  have hnum : ¬ numberOfDevices users name ≥ maxDevices := by
    simp only [numberOfDevices, hu]
    exact_mod_cast not_le.2 hroom
  simp only [insertDevice, hu, h, getAvailableDevice, hd]
  rw [if_neg hnum]

theorem insertSocket_of_ref {socketDescriptor socketType : Int32}
    (h : getDevice users deviceId name = .ref p) :
    insertSocket users name deviceId socketDescriptor socketType =
      some (users.setDevice p ((users.device p).setSocket socketType socketDescriptor)) := by
  simp [insertSocket, h]

@[simp] theorem Device.setSocket_id (dev : Device) (socketType fd : Int32) :
    (dev.setSocket socketType fd).id = dev.id := by
  unfold Device.setSocket
  split
  · rfl
  · split
    · rfl
    · split <;> rfl

end Specs

/-! ## What a connection request does -/

/-- The device a slot records once a request for it has been acknowledged. -/
def Users.connected (users : Users) (p : DeviceIndex) (con : Connection) (socket : Int32) :
    Device :=
  { users.device p with id := con.device }.setSocket (Connection.socketTypeInt con) socket

/-- The three ways a request can fare in the table: every user slot taken, every device slot of
the user taken, or a slot that fits. -/
inductive Requested (users : Users) (name : Bytes) (deviceId : Int32) : Prop
  | noUser
      (result : insertUser users name = (users, .error))
      (unknown : name ∉ (registry users).owners)
      (full : (registry users).owners.encard = maxUsers)
  | noDevice
      (result : insertUser users name = (users, .userAlreadyConnected))
      (device : insertDevice users name deviceId = some (users, .maxDevicesReached))
      (known : name ∈ (registry users).owners)
      (absent : deviceId ∉ (registry users).members name)
      (full : ((registry users).members name).encard = maxDevices)
  | fits (p : DeviceIndex) (users₁ : Users) (code₁ code₂ : Code)
      (result : insertUser users name = (users₁, code₁))
      (user : code₁ = .userAlreadyConnected ∨ code₁ = .success)
      (inserted : insertDevice users₁ name deviceId =
        some (users.put p name { users.device p with id := deviceId }, code₂))
      (device : code₂ = .deviceAlreadyConnected ∨ code₂ = .success)
      (slot : Fits users p name deviceId)
      (admits : (registry users).Admits maxUsers maxDevices name deviceId)

section Request

variable {users : Users} {servers : BackupServers} {con : Connection} {socket : Int32}
variable {name : Bytes} {deviceId : Int32} {u : Fin maxUsers} {p : DeviceIndex}

theorem Users.put_self (hname : (users p.1).name = name) :
    users.put p name (users.device p) = users := by
  subst hname
  funext v
  by_cases hv : v = p.1
  · subst hv
    simp [Users.put, Users.device]
  · simp [Users.put, hv]

theorem Users.setDevice_put (dev dev' : Device) :
    (users.put p name dev).setDevice p dev' = users.put p name dev' := by
  simp [Users.setDevice, Users.put]

theorem requested_of_known_user (hw : WellFormed users) (hname : name ≠ [])
    (hid : deviceId ≠ -1) (hu : getUser users name = some u) :
    Requested users name deviceId := by
  have hun : (users u).name = name := SlotArray.key_of_find hu
  have hown : name ∈ (registry users).owners := (hw.mem_owners_iff hname).2 ⟨u, hu⟩
  have hcard := hw.encard_members (u := u) (by rwa [hun])
  rw [hun] at hcard
  cases hdev : getDevice users deviceId name with
  | undefined =>
      exact absurd hdev (getDevice_ne_undefined hname)
  | ref p =>
      rcases (hw.getDevice_eq_ref_iff hname hid).1 hdev with ⟨hpn, hpd⟩
      have hself : users.put p name { users.device p with id := deviceId } = users := by
        rw [← hpd]
        exact Users.put_self hpn
      -- the device is known: it is found and nothing is inserted
      refine .fits p users .userAlreadyConnected .deviceAlreadyConnected
        (insertUser_of_known hu) (Or.inl rfl) ?_ (Or.inl rfl)
        ⟨hname, hid, Or.inl hpn, Or.inl hpd⟩ (Or.inl ?_)
      · rw [hself]
        exact insertDevice_of_known hdev
      · exact hw.mem_pairs_registry_iff.2 ⟨hname, hid, p, hpn, hpd⟩
  | null =>
      have hfresh := (getDevice_eq_null_iff hname hu).1 hdev
      by_cases hroom : SlotArray.used Device.id (-1) (users u).devices < maxDevices
      · rcases insertDevice_of_new hu hdev hroom with ⟨d, hd, hins⟩
        -- the device is new and takes a free slot of its user
        refine .fits (u, d) users .userAlreadyConnected .success
          (insertUser_of_known hu) (Or.inl rfl) ?_ (Or.inr rfl)
          ⟨hname, hid, Or.inl hun, Or.inr ⟨hd, hfresh⟩⟩ (Or.inr (Or.inl ⟨hown, ?_⟩))
        · rw [hins, Users.setDevice_eq_put, hun]
        · rw [hcard]
          exact_mod_cast hroom
      · have hle := Nat.not_lt.1 hroom
        -- the device is new and there is no slot for it
        refine .noDevice (insertUser_of_known hu) (insertDevice_of_full hu hdev hle) hown ?_ ?_
        · intro hmem
          obtain ⟨_, _, q, hqn, hqd⟩ := hw.mem_pairs_registry_iff.1 (Roster.mem_members_iff.1 hmem)
          have hq : getDevice users deviceId name = .ref q :=
            (hw.getDevice_eq_ref_iff hname hid).2 ⟨hqn, hqd⟩
          rw [hdev] at hq
          cases hq
        · rw [hcard]
          exact_mod_cast le_antisymm SlotArray.used_le hle

theorem requested_of_new_user (hw : WellFormed users) (hname : name ≠ [])
    (hid : deviceId ≠ -1) (hu : getUser users name = none) :
    Requested users name deviceId := by
  have hown : name ∉ (registry users).owners := by
    rw [hw.mem_owners_iff hname, hu]
    simp
  by_cases hroom : numberOfUsersLogged users < maxUsers
  · rcases insertUser_of_new hu hroom with ⟨u, hfree, hins⟩
    have hnone := getUser_eq_none_iff.1 hu
    -- the user slot is taken before it has a device
    have hu₁ : getUser (Function.update users u { users u with name := name }) name = some u := by
      have hd : SlotArray.Distinct User.name []
          (Function.update users u { users u with name := name }) :=
        hw.names.update_fresh hnone
      exact (hd.find_eq_some_iff hname).2 (by simp)
    have hfreeIds : ∀ d, ((users u).devices d).id = -1 := hw.freeUser u hfree
    have hdev₁ : getDevice (Function.update users u { users u with name := name }) deviceId name =
        .null := by
      rw [getDevice_eq_null_iff hname hu₁]
      simpa [hfreeIds] using hid.symm
    have hroom₁ : SlotArray.used Device.id (-1)
        (Function.update users u { users u with name := name } u).devices < maxDevices := by
      simp [SlotArray.used, hfreeIds]
    rcases insertDevice_of_new hu₁ hdev₁ hroom₁ with ⟨d, _, hins₁⟩
    refine .fits (u, d) _ .success .success hins (Or.inr rfl) ?_ (Or.inr rfl)
      ⟨hname, hid, Or.inr ⟨hfree, hnone⟩, Or.inr ⟨hfreeIds d, ?_⟩⟩ (Or.inr (Or.inr ⟨hown, ?_⟩))
    · rw [hins₁, Users.setDevice_update_name]
      simp [Users.device]
    · intro e
      rw [hfreeIds e]
      exact hid.symm
    · rw [hw.encard_owners]
      exact_mod_cast hroom
  · have hle := Nat.not_lt.1 hroom
    -- no user slot is free
    refine .noUser (insertUser_of_full hu hle) hown ?_
    rw [hw.encard_owners]
    exact_mod_cast le_antisymm SlotArray.used_le hle

theorem requested (hw : WellFormed users) (hname : name ≠ []) (hid : deviceId ≠ -1) :
    Requested users name deviceId := by
  cases hu : getUser users name with
  | none =>
      exact requested_of_new_user hw hname hid hu
  | some u =>
      exact requested_of_known_user hw hname hid hu

theorem Fits.getDevice_put (hw : WellFormed users) (hf : Fits users p name deviceId) {dev : Device}
    (hdev : dev.id = deviceId) : getDevice (users.put p name dev) deviceId name = .ref p := by
  subst hdev
  rw [(hf.clean_put hw.toClean).getDevice_eq_ref_iff hf.name_ne hf.id_ne]
  simp [Users.put_name, Users.put_device]

theorem acknowledge_of_fits (hw : WellFormed users) (hf : Fits users p con.user con.device) :
    acknowledge (users.put p con.user { users.device p with id := con.device }) servers con socket =
      some
        { users := users.put p con.user (users.connected p con socket)
          reply := some .ack
          sent := notifyServers servers (.insertUser con) } := by
  have hdev : getDevice (users.put p con.user { users.device p with id := con.device }) con.device
      con.user = .ref p := hf.getDevice_put hw rfl
  simp only [acknowledge, insertSocket_of_ref hdev, Users.setDevice_put, Users.put_device, if_true]
  rfl

theorem handle_of_error (h : insertUser users con.user = (users, .error)) :
    handleUserControllerStructure users servers con socket =
      some { users := users, reply := some .nack1, sent := [] } := by
  simp [handleUserControllerStructure, h]

theorem handle_of_maxDevices (h : insertUser users con.user = (users, .userAlreadyConnected))
    (hdev : insertDevice users con.user con.device = some (users, .maxDevicesReached)) :
    handleUserControllerStructure users servers con socket =
      some { users := users, reply := some .nack3, sent := [] } := by
  simp [handleUserControllerStructure, h, hdev]

theorem handle_of_fits (hw : WellFormed users) {users₁ : Users} {code₁ code₂ : Code}
    (h : insertUser users con.user = (users₁, code₁))
    (huser : code₁ = .userAlreadyConnected ∨ code₁ = .success)
    (hins : insertDevice users₁ con.user con.device =
      some (users.put p con.user { users.device p with id := con.device }, code₂))
    (hdev : code₂ = .deviceAlreadyConnected ∨ code₂ = .success)
    (hf : Fits users p con.user con.device) :
    handleUserControllerStructure users servers con socket =
      some
        { users := users.put p con.user (users.connected p con socket)
          reply := some .ack
          sent := notifyServers servers (.insertUser con) } := by
  -- all four pairs of results lead to one of the branches that acknowledge
  rcases huser with rfl | rfl <;> rcases hdev with rfl | rfl <;>
    simp only [handleUserControllerStructure, h, hins, acknowledge_of_fits hw hf]

/-- A request without a user name is refused, or reads the value of `get_device` where that has
none. -/
theorem handle_of_noName (hname : con.user = [])
    {handled : Handled}
    (h : handleUserControllerStructure users servers con socket = some handled) :
    handled.users = users ∧ handled.reply = some .nack1 := by
  cases huser : getUser users con.user with
  | none =>
      have hinsert : insertUser users con.user = (users, .error) := by
        have hfind : SlotArray.find User.name users [] = none := by
          rw [← hname]
          exact huser
        simp only [insertUser, huser, hfind]
        split <;> rfl
      rw [handle_of_error hinsert] at h
      cases h
      exact ⟨rfl, rfl⟩
  | some u =>
      have hdevice : insertDevice users con.user con.device = none := by
        simp only [insertDevice, huser]
        simp [getDevice, hname]
      simp [handleUserControllerStructure, insertUser_of_known huser, hdevice] at h

/-- The outcome of a request with a non-empty user name and a device id other than `-1`. -/
inductive Outcome (users : Users) (servers : BackupServers) (con : Connection) (socket : Int32) :
    Prop
  | nack1
      (result : handleUserControllerStructure users servers con socket =
        some { users := users, reply := some .nack1, sent := [] })
      (unknown : con.user ∉ (registry users).owners)
      (full : (registry users).owners.encard = maxUsers)
  | nack3
      (result : handleUserControllerStructure users servers con socket =
        some { users := users, reply := some .nack3, sent := [] })
      (known : con.user ∈ (registry users).owners)
      (absent : con.device ∉ (registry users).members con.user)
      (full : ((registry users).members con.user).encard = maxDevices)
  | ack (p : DeviceIndex)
      (result : handleUserControllerStructure users servers con socket =
        some
          { users := users.put p con.user (users.connected p con socket)
            reply := some .ack
            sent := notifyServers servers (.insertUser con) })
      (slot : Fits users p con.user con.device)
      (admits : (registry users).Admits maxUsers maxDevices con.user con.device)

theorem handle_outcome (hw : WellFormed users) (hname : con.user ≠ []) (hid : con.device ≠ -1) :
    Outcome users servers con socket := by
  cases requested hw hname hid with
  | noUser hins hunknown hfull =>
      exact .nack1 (handle_of_error hins) hunknown hfull
  | noDevice hins hdev hknown habsent hfull =>
      exact .nack3 (handle_of_maxDevices hins hdev) hknown habsent hfull
  | fits p users₁ code₁ code₂ hins huser hdev hcode hslot hadmits =>
      exact .ack p (handle_of_fits hw hins huser hdev hcode hslot) hslot hadmits

@[simp] theorem connected_id : (users.connected p con socket).id = con.device := by
  simp [Users.connected]

theorem Outcome.wellFormed (hw : WellFormed users) (ho : Outcome users servers con socket)
    {handled : Handled}
    (h : handleUserControllerStructure users servers con socket = some handled) :
    WellFormed handled.users := by
  cases ho with
  | nack1 hres _ _ =>
      rw [hres] at h
      cases h
      exact hw
  | nack3 hres _ _ _ =>
      rw [hres] at h
      cases h
      exact hw
  | ack p hres hslot _ =>
      rw [hres] at h
      cases h
      exact Fits.wellFormed_put hw (by simpa using hslot)

end Request

/-! ## What an exit does -/

section Exit

variable {users : Users} {servers : BackupServers} {arg : UserCurrentSocket}
variable {name : Bytes} {u : Fin maxUsers} {p : DeviceIndex}

theorem removeUserLoop_of_absent (slots : List (Fin maxUsers))
    (h : ∀ v ∈ slots, (users v).name ≠ name) : removeUserLoop name slots users = users := by
  induction slots with
  | nil =>
      rfl
  | cons v rest ih =>
      rw [removeUserLoop, if_neg (h v (by simp))]
      exact ih fun w hw => h w (by simp [hw])

/-- With distinct names the loop frees the one slot of a user without devices. -/
theorem removeUserLoop_of_mem (hd : SlotArray.Distinct User.name [] users) (hname : name ≠ [])
    (hu : (users u).name = name) (hidle : isDeviceConnected users name = 0)
    (slots : List (Fin maxUsers)) (hnodup : slots.Nodup) (hmem : u ∈ slots) :
    removeUserLoop name slots users = Function.update users u { users u with name := [] } := by
  induction slots with
  | nil =>
      cases hmem
  | cons v rest ih =>
      have hvrest := (List.nodup_cons.1 hnodup).1
      by_cases hvu : v = u
      · subst hvu
        rw [removeUserLoop, if_pos hu, if_neg (by simp [hidle])]
        -- the loop goes on after it has freed the slot, and finds no other of that name
        refine removeUserLoop_of_absent rest fun w hw hwn => ?_
        have hwv : w ≠ v := fun h => hvrest (h ▸ hw)
        rw [Function.update_of_ne hwv] at hwn
        exact hwv (hd w v (hwn.trans hu.symm) (by rwa [hwn]))
      · have hvn : (users v).name ≠ name := fun h => hvu (hd v u (h.trans hu.symm) (by rwa [h]))
        rw [removeUserLoop, if_neg hvn]
        exact ih (List.nodup_cons.1 hnodup).2 (List.mem_of_ne_of_mem (Ne.symm hvu) hmem)

theorem removeUser_of_idle (hd : SlotArray.Distinct User.name [] users) (hname : name ≠ [])
    (hu : (users u).name = name) (hidle : isDeviceConnected users name = 0) :
    removeUser users name = Function.update users u { users u with name := [] } :=
  removeUserLoop_of_mem hd hname hu hidle _ (List.nodup_finRange _) (List.mem_finRange u)

theorem removeDevice_of_ref {deviceId : Int32} (h : getDevice users deviceId name = .ref p) :
    removeDevice users name deviceId = some (users.setDevice p Device.free, .success) := by
  simp [removeDevice, getUser_of_getDevice h, h]

/-- `is_device_connected` after the device at `p` has left asks for another device. -/
theorem isDeviceConnected_setDevice_free (hu : getUser users name = some p.1) :
    isDeviceConnected (users.setDevice p Device.free) name =
      if ∃ d, d ≠ p.2 ∧ ((users p.1).devices d).id ≠ -1 then 1 else 0 := by
  have hu' : getUser (users.setDevice p Device.free) name = some p.1 := by
    rw [← hu]
    exact SlotArray.find_update_same_key rfl
  have hiff : (∃ d, ((users.setDevice p Device.free p.1).devices d).id ≠ -1) ↔
      ∃ d, d ≠ p.2 ∧ ((users p.1).devices d).id ≠ -1 := by
    refine exists_congr fun d => ?_
    by_cases hd : d = p.2
    · subst hd
      simp [Users.setDevice, Device.free]
    · simp [Users.setDevice, hd]
  simp only [isDeviceConnected, hu', hiff]

/-- Once a device has left, its user leaves with the last one. -/
theorem removeUser_of_left (hd : SlotArray.Distinct User.name [] users)
    (hname : name ≠ [])
    (hu : getUser users name = some p.1) :
    (if isDeviceConnected (users.setDevice p Device.free) name = 0 then
      removeUser (users.setDevice p Device.free) name
      else users.setDevice p Device.free) = users.clear p := by
  have hun : (users p.1).name = name := SlotArray.key_of_find hu
  have hd' : SlotArray.Distinct User.name [] (users.setDevice p Device.free) :=
    hd.update_same_key rfl
  have hun' : (users.setDevice p Device.free p.1).name = name := by
    simpa [Users.setDevice] using hun
  rw [isDeviceConnected_setDevice_free hu]
  -- with another device the user stays, else its slot is freed too
  by_cases hother : ∃ d, d ≠ p.2 ∧ ((users p.1).devices d).id ≠ -1
  · simp [hother, Users.clear, Users.nameWithout, Users.setDevice_eq_put]
  · have hidle : isDeviceConnected (users.setDevice p Device.free) name = 0 := by
      rw [isDeviceConnected_setDevice_free hu, if_neg hother]
    rw [if_neg hother, if_pos rfl, removeUser_of_idle hd' hname hun' hidle]
    simp [Users.clear, Users.nameWithout, hother, Users.setDevice, Users.put]

/-- The exit of a registered device frees its slot, and the slot of its user with the last one. -/
theorem exitCommand_of_ref (hd : SlotArray.Distinct User.name [] users)
    (hname : arg.userName ≠ [])
    (hdev : getDevice users arg.currentDevice arg.userName = .ref p) :
    exitCommand users servers arg =
      some
        { users := users.clear p
          code := .success
          closed := [(users.device p).socket1, (users.device p).socket2, (users.device p).socket3]
          sent := notifyServers servers (.exit arg) } := by
  have hleft := removeUser_of_left hd hname (getUser_of_getDevice hdev)
  simp only [exitCommand, hdev, removeDevice_of_ref hdev, hleft]

/-- The device that is found has the id and the user that were looked for. -/
theorem keys_of_getDevice {deviceId : Int32} (h : getDevice users deviceId name = .ref p) :
    (users p.1).name = name ∧ (users.device p).id = deviceId := by
  refine ⟨SlotArray.key_of_find (getUser_of_getDevice h), ?_⟩
  unfold getDevice at h
  split at h
  · split at h
    · cases h
    · split at h
      · next d hd =>
          cases h
          exact SlotArray.key_of_find hd
      · cases h
  · cases h

/-- An exit that does not fail finds the device of its session. -/
theorem exitCommand_cases (hd : SlotArray.Distinct User.name [] users)
    {exited : Exited} (h : exitCommand users servers arg = some exited) :
    ∃ p, getDevice users arg.currentDevice arg.userName = .ref p ∧ exited.users = users.clear p ∧
      exited.closed = [(users.device p).socket1, (users.device p).socket2,
        (users.device p).socket3] ∧
      exited.sent = notifyServers servers (.exit arg) := by
  have hdevice : ∃ p, getDevice users arg.currentDevice arg.userName = .ref p := by
    unfold exitCommand at h
    split at h
    · cases h
    · cases h
    · next p hdev => exact ⟨p, hdev⟩
  rcases hdevice with ⟨p, hdev⟩
  have hname : arg.userName ≠ [] := by
    intro hempty
    simp [getDevice, hempty] at hdev
  rw [exitCommand_of_ref hd hname hdev] at h
  cases h
  exact ⟨p, hdev, rfl, rfl, rfl⟩

theorem WellFormed.exit_cases (hw : WellFormed users)
    {exited : Exited} (h : exitCommand users servers arg = some exited) :
    ∃ p, getDevice users arg.currentDevice arg.userName = .ref p ∧ exited.users = users.clear p ∧
      exited.closed = [(users.device p).socket1, (users.device p).socket2,
        (users.device p).socket3] ∧
      exited.sent = notifyServers servers (.exit arg) :=
  exitCommand_cases hw.names h

end Exit

end Server
end DropboxSimulator
