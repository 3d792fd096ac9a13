import DropboxSimulator.Server.Descriptors

/-!
# Requests — connection records of any kind

`mediatorThread` hands every record that is not a `SERVERCONN` to
`handle_user_controller_structure` and looks at the packet type only afterwards.  The table
functions use the empty name and the id `-1` both for free slots and for what they look up, and
`insert_socket` reports an unknown socket type without a consequence.  So records that no client
sends are acknowledged, or read a result that `get_device` does not have.

The names and ids of the table stay distinct all the same (`Attained.keyed`), and on such a table a
request is handled as it should be just when it is a valid one or finds no room
(`request_sound_iff`).
-/

namespace DropboxSimulator
namespace Server

open Library

/-! ## Tables that any records lead to -/

/-- The tables that records of any kind and exits of any session lead to, as long as every lookup
has a result. -/
inductive Attained : Users → Prop
  | initial : Attained initiateUserControllerStructure
  | connect {users : Users} (servers : BackupServers) (con : Connection) (socket : Int32)
      (handled : Handled) :
      Attained users → handleUserControllerStructure users servers con socket = some handled →
      Attained handled.users
  | exit {users : Users} (servers : BackupServers) (arg : UserCurrentSocket) (exited : Exited) :
      Attained users → exitCommand users servers arg = some exited → Attained exited.users

/-- The table has no room for the user, or none for another device of the user. -/
def NoRoom (users : Users) (con : Connection) : Prop :=
  (getUser users con.user = none ∧ maxUsers ≤ numberOfUsersLogged users) ∨
    (getDevice users con.device con.user = .null ∧ maxDevices ≤ numberOfDevices users con.user)

/-- The request is answered `ack` only as a connection of one of the three types whose device and
descriptor are then in the table; otherwise it leaves the table as it was. -/
def Sound (users : Users) (servers : BackupServers) (con : Connection) (socket : Int32) : Prop :=
  ∃ handled, handleUserControllerStructure users servers con socket = some handled ∧
    (handled.reply = some .ack →
      con.packetType = packetConn ∧
        (con.socketType = socketT1 ∨ con.socketType = socketT2 ∨ con.socketType = socketT3) ∧
        ∃ socks, registry handled.users con.user con.device = some socks ∧
          socks.get (fieldOf con.socketType) = socket) ∧
    (handled.reply ≠ some .ack → handled.users = users)

section Requests

variable {users users' : Users} {servers : BackupServers} {con : Connection} {socket : Int32}
variable {name : Bytes} {deviceId : Int32} {u : Fin maxUsers} {p : DeviceIndex} {dev : Device}

/-! ## Names and ids stay distinct -/

theorem Keyed.setDevice (hk : Keyed users) (hname : (users p.1).name ≠ [])
    (hid : dev.id = (users.device p).id ∨ ∀ d, ((users p.1).devices d).id ≠ dev.id) :
    Keyed (users.setDevice p dev) where
  names := hk.names.update_same_key rfl
  ids := by
    intro u
    by_cases hu : u = p.1
    · subst hu
      simp only [Users.setDevice, Function.update_self]
      rcases hid with hsame | hfresh
      · exact (hk.ids _).update_same_key hsame
      · exact (hk.ids _).update_fresh hfresh
    · simpa [Users.setDevice, hu] using hk.ids u
  freeUser := by
    intro u hu d
    by_cases hup : u = p.1
    · subst hup
      simp only [Users.setDevice, Function.update_self] at hu
      exact absurd hu hname
    · simp only [Users.setDevice, Function.update_of_ne hup] at hu ⊢
      exact hk.freeUser u hu d

/-- A user that is new to the table takes a free slot. -/
theorem Keyed.named (hk : Keyed users) (hname : name ≠ []) (hnew : getUser users name = none) :
    Keyed (Function.update users u { users u with name := name }) where
  names := hk.names.update_fresh (getUser_eq_none_iff.1 hnew)
  ids := by
    intro v
    by_cases hv : v = u
    · subst hv
      simpa using hk.ids v
    · simpa [hv] using hk.ids v
  freeUser := by
    intro v hv d
    by_cases hvu : v = u
    · subst hvu
      simp only [Function.update_self] at hv
      exact absurd hv hname
    · simp only [Function.update_of_ne hvu] at hv ⊢
      exact hk.freeUser v hv d

/-- Writing a device slot without changing its id changes no lookup. -/
theorem getDevice_setDevice (hid : dev.id = (users.device p).id) :
    getDevice (users.setDevice p dev) deviceId name = getDevice users deviceId name := by
  have huser : getUser (users.setDevice p dev) name = getUser users name :=
    SlotArray.find_update_same_key rfl
  have hdevices : ∀ v, SlotArray.find Device.id ((users.setDevice p dev) v).devices deviceId =
      SlotArray.find Device.id (users v).devices deviceId := by
    intro v
    by_cases hv : v = p.1
    · subst hv
      simp only [Users.setDevice, Function.update_self]
      exact SlotArray.find_update_same_key hid
    · simp [Users.setDevice, hv]
  simp only [getDevice, huser, hdevices]

/-! ## How a request fares -/

theorem acknowledge_of_ref (h : getDevice users con.device con.user = .ref p) :
    acknowledge users servers con socket =
      some
        { users := users.setDevice p
            ((users.device p).setSocket (Connection.socketTypeInt con) socket)
          reply := some .ack
          sent := notifyServers servers (.insertUser con) } := by
  simp only [acknowledge, insertSocket_of_ref h]

/-- `insert_device` for a user that is in the table: there is no room, or the device is there
afterwards. -/
theorem insertDevice_cases (deviceId : Int32) (hk : Keyed users) (hname : name ≠ [])
    (hu : getUser users name = some u) :
    (insertDevice users name deviceId = some (users, .maxDevicesReached) ∧
      getDevice users deviceId name = .null ∧ (maxDevices : Int) ≤ numberOfDevices users name) ∨
    ∃ users' code p, insertDevice users name deviceId = some (users', code) ∧
      (code = .deviceAlreadyConnected ∨ code = .success) ∧ Keyed users' ∧
      getDevice users' deviceId name = .ref p ∧
      ¬(getDevice users deviceId name = .null ∧
        (maxDevices : Int) ≤ numberOfDevices users name) := by
  have hun : (users u).name = name := SlotArray.key_of_find hu
  cases hdev : getDevice users deviceId name with
  | undefined =>
      exact absurd hdev (getDevice_ne_undefined hname)
  | ref p =>
      exact Or.inr ⟨users, _, p, insertDevice_of_known hdev, Or.inl rfl, hk, hdev, by simp⟩
  | null =>
      have hnum : numberOfDevices users name =
          SlotArray.used Device.id (-1) (users u).devices := by
        simp only [numberOfDevices, hu]
      by_cases hroom : SlotArray.used Device.id (-1) (users u).devices < maxDevices
      · rcases insertDevice_of_new hu hdev hroom with ⟨d, hfree, hins⟩
        have habsent := (getDevice_eq_null_iff hname hu).1 hdev
        -- a free slot is one with the id `-1`, so `-1` is not the id of the request
        have hid : deviceId ≠ -1 := fun h => habsent d (hfree.trans h.symm)
        have hk' : Keyed (users.setDevice (u, d) { users.device (u, d) with id := deviceId }) :=
          hk.setDevice (by rwa [hun]) (Or.inr habsent)
        have hfound : getDevice (users.setDevice (u, d)
            { users.device (u, d) with id := deviceId }) deviceId name = .ref (u, d) := by
          rw [hk'.getDevice_eq_ref_iff hname hid]
          simp [Users.setDevice, Users.device, hun]
        refine Or.inr ⟨_, _, (u, d), hins, Or.inr rfl, hk', hfound, ?_⟩
        rw [hnum]
        rintro ⟨_, hfull⟩
        have hle : maxDevices ≤ SlotArray.used Device.id (-1) (users u).devices := by
          exact_mod_cast hfull
        omega
      · have hfull := Nat.not_lt.1 hroom
        refine Or.inl ⟨insertDevice_of_full hu hdev hfull, rfl, ?_⟩
        rw [hnum]
        exact_mod_cast hfull

/-- How a request with a user name fares: it finds no room, or its device and descriptor are in the
table afterwards. -/
inductive Fared (users : Users) (servers : BackupServers) (con : Connection) (socket : Int32) :
    Prop
  | refused (reply : Reply)
      (result : handleUserControllerStructure users servers con socket =
        some { users := users, reply := some reply, sent := [] })
      (nack : reply ≠ .ack) (full : NoRoom users con)
  | ack (p : DeviceIndex) (users' : Users) (code : Code)
      (inserted : insertDevice (insertUser users con.user).1 con.user con.device =
        some (users', code))
      (result : handleUserControllerStructure users servers con socket =
        some
          { users := users'.setDevice p
              ((users'.device p).setSocket (Connection.socketTypeInt con) socket)
            reply := some .ack
            sent := notifyServers servers (.insertUser con) })
      (keyed : Keyed users')
      (found : getDevice users' con.device con.user = .ref p) (room : ¬NoRoom users con)

theorem fared (hk : Keyed users) (hname : con.user ≠ []) : Fared users servers con socket := by
  cases hu : getUser users con.user with
  | some u =>
      have hins := insertUser_of_known hu
      rcases insertDevice_cases con.device hk hname hu with
        ⟨hdev, hnull, hfull⟩ | ⟨users', code, p, hdev, hcode, hk', hfound, hroom⟩
      · exact .refused .nack3 (handle_of_maxDevices hins hdev) (by simp) (Or.inr ⟨hnull, hfull⟩)
      · refine .ack p users' code (by rw [hins]; exact hdev) ?_ hk' hfound ?_
        · rcases hcode with rfl | rfl <;>
            simp only [handleUserControllerStructure, hins, hdev, acknowledge_of_ref hfound]
        · rintro (⟨hnone, _⟩ | hfull)
          · rw [hu] at hnone
            cases hnone
          · exact hroom hfull
  | none =>
      by_cases hroom : numberOfUsersLogged users < maxUsers
      · rcases insertUser_of_new hu hroom with ⟨u, hfree, hins⟩
        have hk₁ := hk.named (u := u) hname hu
        have hu₁ : getUser (Function.update users u { users u with name := con.user }) con.user =
            some u := (hk₁.names.find_eq_some_iff hname).2 (by simp)
        have hempty : numberOfDevices (Function.update users u { users u with name := con.user })
            con.user = 0 := by
          simp [numberOfDevices, hu₁, SlotArray.used, hk.freeUser u hfree]
        rcases insertDevice_cases con.device hk₁ hname hu₁ with
          ⟨_, _, hfull⟩ | ⟨users', code, p, hdev, hcode, hk', hfound, _⟩
        · -- a user that has just come has no devices
          rw [hempty] at hfull
          exact absurd hfull (by decide)
        · refine .ack p users' code (by rw [hins]; exact hdev) ?_ hk' hfound ?_
          · rcases hcode with rfl | rfl <;>
              simp only [handleUserControllerStructure, hins, hdev, acknowledge_of_ref hfound]
          · rintro (⟨_, hfull⟩ | ⟨_, hfull⟩)
            · omega
            · simp [numberOfDevices, hu] at hfull
      · have hfull := Nat.not_lt.1 hroom
        exact .refused .nack1 (handle_of_error (insertUser_of_full hu hfull)) (by simp)
          (Or.inl ⟨hu, hfull⟩)

/-- Records of any kind keep the names and ids of the table distinct. -/
theorem Attained.keyed (h : Attained users) : Keyed users := by
  induction h with
  | initial =>
      exact wellFormed_initiate.keyed
  | connect servers con socket handled _ hres ih =>
      by_cases hname : con.user = []
      · rw [(handle_of_noName hname hres).1]
        exact ih
      · have hfared : Fared _ servers con socket := fared ih hname
        cases hfared with
        | refused reply hout _ _ =>
            rw [hout] at hres
            cases hres
            exact ih
        | ack p users' _ _ hout hk' hfound _ =>
            rw [hout] at hres
            cases hres
            have huser : (users' p.1).name = con.user := (keys_of_getDevice hfound).1
            exact hk'.setDevice (by rwa [huser]) (Or.inl (Device.setSocket_id _ _ _))
  | exit servers arg exited _ hres ih =>
      rcases exitCommand_cases ih.names hres with ⟨p, _, husers, _⟩
      rw [husers]
      exact ih.clear p

/-! ## Which requests are handled as they should -/

/-- A descriptor that is recorded for a known type is in the field for its type. -/
theorem get_setSocket (dev : Device)
    (htype : con.socketType = socketT1 ∨ con.socketType = socketT2 ∨ con.socketType = socketT3) :
    (dev.setSocket (Connection.socketTypeInt con) socket).sockets.get (fieldOf con.socketType) =
      socket := by
  rcases htype with h | h | h <;>
    simp [Connection.socketTypeInt, Device.setSocket, Device.sockets, Sockets.get, fieldOf, h,
      socketT1, socketT2, socketT3]

/-- Without a user name a request finds no room, or there is a free slot with that name. -/
theorem sound_iff_of_noName (hname : con.user = []) :
    Sound users servers con socket ↔ NoRoom users con := by
  cases hu : getUser users con.user with
  | none =>
      have hall : ∀ v, (users v).name ≠ [] := by
        rw [← hname]
        exact getUser_eq_none_iff.1 hu
      have hfull : maxUsers ≤ numberOfUsersLogged users := by
        simp [numberOfUsersLogged, SlotArray.used, hall]
      refine iff_of_true ?_ (Or.inl ⟨hu, hfull⟩)
      exact ⟨_, handle_of_error (insertUser_of_full hu hfull), by simp, fun _ => rfl⟩
  | some v =>
      have hinsert : insertDevice users con.user con.device = none := by
        simp only [insertDevice, hu]
        simp [getDevice, hname]
      have hnone : handleUserControllerStructure users servers con socket = none := by
        simp only [handleUserControllerStructure, insertUser_of_known hu, hinsert]
      refine iff_of_false ?_ ?_
      · rintro ⟨handled, hres, _⟩
        rw [hnone] at hres
        cases hres
      · rintro (⟨hno, _⟩ | ⟨hno, _⟩)
        · rw [hu] at hno
          cases hno
        · simp [getDevice, hname] at hno

/-- On a table that requests of any kind have led to, a request is handled as it should be if and
only if it is a valid connection request, or there is no room for it. -/
theorem request_sound_iff (h : Attained users) (servers : BackupServers) (con : Connection)
    (socket : Int32) :
    Sound users servers con socket ↔
      (con.packetType = packetConn ∧ ValidRequest con) ∨ NoRoom users con := by
  by_cases hname : con.user = []
  · rw [sound_iff_of_noName hname]
    refine ⟨Or.inr, ?_⟩
    rintro (⟨_, hvalid⟩ | hfull)
    · exact absurd hname hvalid.user
    · exact hfull
  · have hfared : Fared users servers con socket := fared h.keyed hname
    cases hfared with
    | refused reply hres hnack hfull =>
        refine iff_of_true ?_ (Or.inr hfull)
        exact ⟨_, hres, fun hack => absurd (Option.some.inj hack) hnack, fun _ => rfl⟩
    | ack p users' _ _ hres hk' hfound hroom =>
        have hfound' : getDevice (users'.setDevice p
            ((users'.device p).setSocket (Connection.socketTypeInt con) socket)) con.device
            con.user = .ref p := by
          rw [getDevice_setDevice (Device.setSocket_id _ _ _), hfound]
        constructor
        · -- what the table then holds has an id other than `-1`
          rintro ⟨handled, hout, hack, _⟩
          rw [hres] at hout
          cases hout
          rcases hack rfl with ⟨hconn, htype, socks, hregistered, _⟩
          have hid : con.device ≠ -1 := by
            intro hminus
            simp [registry, hminus] at hregistered
          exact Or.inl ⟨hconn, hname, hid, htype⟩
        · rintro (⟨hconn, hvalid⟩ | hfull)
          · refine ⟨_, hres, fun _ => ⟨hconn, hvalid.socketType, _,
              registry_apply hvalid.device hfound', ?_⟩, fun hnack => absurd rfl hnack⟩
            simp only [Users.setDevice, Users.device, Function.update_self]
            exact get_setSocket _ hvalid.socketType
          · exact absurd hfull hroom

/-- The console connection of device `1` of user `a`, as the first request of all. -/
theorem request_sound_iff_first :
    Sound initiateUserControllerStructure initiateBackupServerStructure
        (oneLetterRequest 97 1 socketT1) 7 ↔
      (packetConn = packetConn ∧ ValidRequest (oneLetterRequest 97 1 socketT1)) ∨
        NoRoom initiateUserControllerStructure (oneLetterRequest 97 1 socketT1) :=
  request_sound_iff .initial initiateBackupServerStructure (oneLetterRequest 97 1 socketT1) 7

/-- A connection of a fourth type is acknowledged, and recorded nowhere. -/
theorem fourthType_acknowledged :
    Attained initiateUserControllerStructure ∧
      ¬Sound initiateUserControllerStructure initiateBackupServerStructure
        (oneLetterRequest 97 1 4) 7 := by
  refine ⟨.initial, ?_⟩
  rintro ⟨handled, hres, hack, _⟩
  have hreply : (handleUserControllerStructure initiateUserControllerStructure
      initiateBackupServerStructure (oneLetterRequest 97 1 4) 7).map Handled.reply =
        some (some .ack) := by
    decide
  rw [hres, Option.map_some, Option.some.injEq] at hreply
  exact absurd (hack hreply).2.1 (by decide)

end Requests

end Server
end DropboxSimulator
