import DropboxSimulator.Server.Connections
import DropboxSimulator.Server.Identity
import DropboxSimulator.Server.Replica
import DropboxSimulator.Server.Requests

/-!
# Promotion — the descriptors of a server that takes over

A secondary fills its `users[]` with the records that the primary passes on, and keeps the table
when it wins the election and starts to accept connections of its own.  The `socket` of a record is
a number of the client that sent it.

* `Node`     : a server over its whole life, with the connection behind each of its descriptors;
* `Backed`   : each descriptor of the table was accepted for the place it is recorded at;
* `Harmless` : the steps that keep it so.
-/

namespace DropboxSimulator
namespace Server

open Library

/-! ## A server process -/

inductive Role
  | primary
  | secondary
  deriving DecidableEq

/-- A server: its tables, and for each open descriptor that `accept` gave it the record that came in
on it. -/
structure Node where
  role : Role
  users : Users
  servers : BackupServers
  accepted : Int32 → Option Connection

/-- What happens to a server, as far as its tables and descriptors go. -/
inductive Happening
  | connect (con : Connection) (socket : Int32)
  | join (id socket : Int32)
  | exit (arg : UserCurrentSocket)
  | receive (m : Replication UserCurrentSocket)
  | promote

namespace Node

/-- A server at its start. -/
def start (role : Role) : Node where
  role := role
  users := initiateUserControllerStructure
  servers := initiateBackupServerStructure
  accepted := fun _ => none

/-- The descriptor is open now; `-1` is no descriptor. -/
def accept (s : Node) (con : Connection) (socket : Int32) : Int32 → Option Connection :=
  if socket = -1 then s.accepted else Function.update s.accepted socket (some con)

/-- `accept` fails, or gives a number that is not in use. -/
def Accepts (s : Node) (socket : Int32) : Prop :=
  socket = -1 ∨ (0 ≤ socket ∧ s.accepted socket = none)

instance (s : Node) (socket : Int32) : Decidable (s.Accepts socket) :=
  inferInstanceAs (Decidable (_ ∨ _))

/-- A primary accepts connections, with the critical section of each, and carries out exits; a
secondary processes the messages of its primary until it wins the election. -/
def step (s : Node) : Happening → Option Node
  | .connect con socket =>
      if s.role = .primary ∧ s.Accepts socket then
        (handleUserControllerStructure s.users s.servers con socket).map fun handled =>
          { s with users := handled.users, accepted := s.accept con socket }
      else
        none
  | .join id socket =>
      if s.role = .primary then
        some { s with servers := (insertServer s.servers id socket).1 }
      else
        none
  | .exit arg =>
      if s.role = .primary then
        (exitCommand s.users s.servers arg).map fun exited =>
          { s with
            users := exited.users
            accepted := fun fd => if fd ∈ exited.closed then none else s.accepted fd }
      else
        none
  | .receive m =>
      if s.role = .secondary then
        (Replication.process s.users m).map fun users => { s with users := users }
      else
        none
  | .promote =>
      -- the election changes nothing but the role
      if s.role = .secondary then some { s with role := .primary } else none

end Node

/-! ## The descriptors of the table -/

/-- Every descriptor of the table was accepted for the user, the device and the type it is recorded
for; so a file command notifies connections of its user only, and an exit closes those of its device
only. -/
structure Genuine (s : Node) : Prop where
  stored : ∀ p field, stored s.users (p, field) ≠ -1 →
    ∃ con, s.accepted (stored s.users (p, field)) = some con ∧ con.user = (s.users p.1).name ∧
      con.device = (s.users.device p).id ∧ con.socketType = field.socketType
  notified : ∀ (arg : UserCurrentSocket) u d, getUser s.users arg.userName = some u →
    Notifies arg (s.users.device (u, d)) → (s.users.device (u, d)).socket3 ≠ -1 →
    ∃ con, s.accepted (s.users.device (u, d)).socket3 = some con ∧ con.user = arg.userName ∧
      con.socketType = socketT3
  closed : ∀ (arg : UserCurrentSocket) (exited : Exited),
    exitCommand s.users s.servers arg = some exited → ∀ fd ∈ exited.closed, fd ≠ -1 →
    ∃ con, s.accepted fd = some con ∧ con.user = arg.userName ∧ con.device = arg.currentDevice

/-- `insert_socket` knows the type, as the `int` it is handed. -/
def KnownType (con : Connection) : Prop :=
  Connection.socketTypeInt con = 1 ∨ Connection.socketTypeInt con = 2 ∨
    Connection.socketTypeInt con = 3

instance (con : Connection) : Decidable (KnownType con) :=
  inferInstanceAs (Decidable (_ ∨ _ ∨ _))

/-- A request whose descriptor is recorded comes from a device with an id, and its type is one of
the three; a record that the primary passes on brings no descriptor. -/
def Node.Harmless (s : Node) : Happening → Prop
  | .connect con socket =>
      socket = -1 ∨ ¬KnownType con ∨ NoRoom s.users con ∨
        (con.device ≠ -1 ∧ ∃ field : SocketField, con.socketType = field.socketType)
  | .receive (.insertUser con) => con.socket = -1 ∨ ¬KnownType con
  | _ => True

/-! ## The table grows -/

/-- The devices of a table are in the other under the same keys, and no descriptor is changed. -/
structure Enlarged (users users' : Users) : Prop where
  name : ∀ p, (users.device p).id ≠ -1 → (users' p.1).name = (users p.1).name
  id : ∀ p, (users.device p).id ≠ -1 → (users'.device p).id = (users.device p).id
  stored : Server.stored users' = Server.stored users

section Tables

variable {users users' users'' : Users} {name : Bytes} {deviceId : Int32} {code : Code}
variable {con : Connection} {p : DeviceIndex}

theorem Enlarged.refl (users : Users) : Enlarged users users :=
  ⟨fun _ _ => rfl, fun _ _ => rfl, rfl⟩

theorem Enlarged.trans (h : Enlarged users users') (h' : Enlarged users' users'') :
    Enlarged users users'' where
  name := by
    intro p hp
    have hp' := h.id p hp
    exact (h'.name p (by rwa [hp'])).trans (h.name p hp)
  id := by
    intro p hp
    have hp' := h.id p hp
    exact (h'.id p (by rwa [hp'])).trans hp'
  stored := h'.stored.trans h.stored

/-- A user gets a slot whose devices are all free. -/
theorem enlarged_insertUser (hk : Keyed users) (name : Bytes) :
    Enlarged users (insertUser users name).1 ∧ Keyed (insertUser users name).1 := by
  unfold insertUser
  split
  · exact ⟨.refl users, hk⟩
  · next hu =>
      split
      · exact ⟨.refl users, hk⟩
      · split
        · next u hfree =>
            have hname : name ≠ [] := by
              rintro rfl
              rw [getUser, hfree] at hu
              cases hu
            refine ⟨⟨?_, ?_, stored_update_name u⟩, hk.named hname hu⟩
            · intro p hp
              by_cases hpu : p.1 = u
              · subst hpu
                exact absurd (hk.freeUser p.1 (SlotArray.key_of_find hfree) p.2) hp
              · simp [hpu]
            · intro p _
              rw [Users.device_update_name]
        · exact ⟨.refl users, hk⟩

/-- A device gets a free slot of its user. -/
theorem enlarged_insertDevice (hk : Keyed users)
    (h : insertDevice users name deviceId = some (users', code)) :
    Enlarged users users' ∧ Keyed users' := by
  have hstored := stored_insertDevice h
  unfold insertDevice at h
  split at h
  · cases h
    exact ⟨.refl users, hk⟩
  · next u hu =>
      split at h
      · cases h
      · cases h
        exact ⟨.refl users, hk⟩
      · next hdev =>
          split at h
          · cases h
          · cases h
            exact ⟨.refl users, hk⟩
          · next p havail =>
              cases h
              have hname : name ≠ [] := by
                rintro rfl
                simp [getDevice] at hdev
              -- the slot is one of the user, and free
              have hslot : p.1 = u ∧ (users.device p).id = -1 := by
                unfold getAvailableDevice at havail
                simp only [hu] at havail
                split at havail
                · cases havail
                · split at havail
                  · next d hd =>
                      cases havail
                      exact ⟨rfl, SlotArray.key_of_find hd⟩
                  · cases havail
              rcases hslot with ⟨hpu, hfree⟩
              have hun : (users u).name = name := SlotArray.key_of_find hu
              have habsent := (getDevice_eq_null_iff hname hu).1 hdev
              refine ⟨⟨?_, ?_, hstored⟩, hk.setDevice (by rwa [hpu, hun]) (Or.inr ?_)⟩
              · intro q _
                by_cases hq : q.1 = p.1 <;> simp [Users.setDevice, hq]
              · intro q hq
                have hqp : q ≠ p := by
                  rintro rfl
                  exact hq hfree
                rw [Users.setDevice_eq_put, Users.put_device, if_neg hqp]
              · rw [hpu]
                exact habsent

theorem setSocket_of_unknown (dev : Device) (h : ¬KnownType con) (socket : Int32) :
    dev.setSocket (Connection.socketTypeInt con) socket = dev := by
  simp only [KnownType, not_or] at h
  rcases h with ⟨h1, h2, h3⟩
  rw [Device.setSocket, if_neg h1, if_neg h2, if_neg h3]

theorem setDevice_device (p : DeviceIndex) : users.setDevice p (users.device p) = users := by
  simp [Users.setDevice, Users.device]

/-- The number by which `insert_socket` knows the type of a field. -/
def SocketField.number (field : SocketField) : Int32 :=
  field.socketType.toUInt32.toInt32

theorem SocketField.number_injective : Function.Injective SocketField.number := by
  intro a b h
  cases a <;> cases b <;> first | rfl | exact absurd h (by decide)

theorem exists_number_of_knownType (h : KnownType con) :
    ∃ field : SocketField, Connection.socketTypeInt con = field.number := by
  rcases h with h | h | h
  · exact ⟨.socket1, h.trans (by decide)⟩
  · exact ⟨.socket2, h.trans (by decide)⟩
  · exact ⟨.socket3, h.trans (by decide)⟩

theorem get_setSocket_number (dev : Device) (field field' : SocketField) (socket : Int32) :
    (dev.setSocket field.number socket).sockets.get field' =
      if field' = field then socket else dev.sockets.get field' := by
  cases field <;> cases field' <;> rfl

/-- A descriptor of a known type is written to one field. -/
theorem stored_setSocket (users : Users) (p : DeviceIndex) (h : KnownType con) (socket : Int32) :
    ∃ field,
      stored (users.setDevice p
          ((users.device p).setSocket (Connection.socketTypeInt con) socket)) =
        Function.update (stored users) (p, field) socket ∧
      ∀ field' : SocketField, con.socketType = field'.socketType → field' = field := by
  rcases exists_number_of_knownType h with ⟨field, hnumber⟩
  refine ⟨field, ?_, ?_⟩
  · funext place
    rcases place with ⟨q, field'⟩
    rw [stored_setDevice, Function.update_apply, hnumber]
    by_cases hq : q = p
    · subst hq
      simp [get_setSocket_number, stored]
    · simp [hq]
  · intro field' htype
    refine SocketField.number_injective ?_
    rw [← hnumber, Connection.socketTypeInt, htype, SocketField.number]

/-- What `insertUserConnectedInPrimary` does to a table. -/
theorem insertUserConnectedInPrimary_cases (hk : Keyed users)
    (h : insertUserConnectedInPrimary users con = some users') :
    (¬KnownType con ∧ Enlarged users users' ∧ Keyed users') ∨
      ∃ users₁ p, Enlarged users users₁ ∧ Keyed users₁ ∧
        getDevice users₁ con.device con.user = .ref p ∧
        users' = users₁.setDevice p
          ((users₁.device p).setSocket (Connection.socketTypeInt con) con.socket) := by
  rcases enlarged_insertUser hk con.user with ⟨henl, hk₁⟩
  unfold insertUserConnectedInPrimary at h
  split at h
  · cases h
  · next users₁ code hdev =>
      rcases enlarged_insertDevice hk₁ hdev with ⟨henl', hk'⟩
      unfold insertSocket at h
      split at h
      · cases h
      · split at h
        · cases h
        · next hunknown =>
            cases h
            exact Or.inl ⟨hunknown, henl.trans henl', hk'⟩
      · next p hfound =>
          cases h
          exact Or.inr ⟨users₁, p, henl.trans henl', hk', hfound, rfl⟩

/-- What `receiveExitFromPrimary` does to a table. -/
theorem receiveExitFromPrimary_cases (hk : Keyed users)
    (h : receiveExitFromPrimary users name deviceId = some users') :
    users' = users ∨ ∃ p, users' = users.clear p := by
  unfold receiveExitFromPrimary removeDevice at h
  cases hu : getUser users name with
  | none =>
      simp only [hu] at h
      cases h
      exact Or.inl rfl
  | some u =>
      cases hdev : getDevice users deviceId name with
      | undefined =>
          simp [hu, hdev] at h
      | null =>
          simp only [hu, hdev] at h
          cases h
          exact Or.inl rfl
      | ref p =>
          have hname : name ≠ [] := by
            rintro rfl
            simp [getDevice] at hdev
          simp only [hu, hdev, removeUser_of_left hk.names hname (getUser_of_getDevice hdev),
            Option.some.injEq] at h
          exact Or.inr ⟨p, h.symm⟩

end Tables

/-! ## Where the descriptors come from -/

/-- Each descriptor of the table was accepted for the place it is recorded at, which is one of a
device with an id. -/
structure Backed (users : Users) (accepted : Int32 → Option Connection) : Prop where
  keyed : Keyed users
  used : ∀ p field, stored users (p, field) ≠ -1 → (users.device p).id ≠ -1
  accepted : ∀ p field, stored users (p, field) ≠ -1 →
    ∃ con, accepted (stored users (p, field)) = some con ∧ con.user = (users p.1).name ∧
      con.device = (users.device p).id ∧ con.socketType = field.socketType

section Descriptors

variable {users users' : Users} {accepted accepted' : Int32 → Option Connection}
variable {con : Connection} {p : DeviceIndex} {socket : Int32}

theorem backed_start : Backed initiateUserControllerStructure fun _ => none := by
  have hfree : ∀ place, stored initiateUserControllerStructure place = -1 := by
    rintro ⟨p, field⟩
    cases field <;> rfl
  exact ⟨wellFormed_initiate.keyed, fun p field h => absurd (hfree _) h,
    fun p field h => absurd (hfree _) h⟩

/-- Descriptors may go, and those that stay do so under the same keys. -/
theorem Backed.mono (h : Backed users accepted) (hk : Keyed users')
    (hkept : ∀ p field, stored users' (p, field) ≠ -1 →
      stored users' (p, field) = stored users (p, field) ∧
        ((users.device p).id ≠ -1 →
          (users' p.1).name = (users p.1).name ∧ (users'.device p).id = (users.device p).id) ∧
        accepted' (stored users (p, field)) = accepted (stored users (p, field))) :
    Backed users' accepted' where
  keyed := hk
  used := by
    intro p field hne
    rcases hkept p field hne with ⟨hsame, hkeys, _⟩
    have hid := h.used p field (by rwa [← hsame])
    rwa [(hkeys hid).2]
  accepted := by
    intro p field hne
    rcases hkept p field hne with ⟨hsame, hkeys, hacc⟩
    rw [hsame] at hne ⊢
    rcases hkeys (h.used p field hne) with ⟨hname, hid⟩
    rw [hacc, hname, hid]
    exact h.accepted p field hne

theorem Backed.enlarged (h : Backed users accepted) (he : Enlarged users users')
    (hk : Keyed users') : Backed users' accepted := by
  refine h.mono hk ?_
  intro p field _
  exact ⟨congrFun he.stored _, fun hid => ⟨he.name p hid, he.id p hid⟩, rfl⟩

/-- Two places with one descriptor are one place. -/
theorem Backed.place_eq (h : Backed users accepted) {q : DeviceIndex} {field field' : SocketField}
    (heq : stored users (p, field) = stored users (q, field'))
    (hne : stored users (q, field') ≠ -1) :
    p = q := by
  have hne' : stored users (p, field) ≠ -1 := heq.trans_ne hne
  rcases h.accepted p field hne' with ⟨con, hcon, hname, hid, _⟩
  rcases h.accepted q field' hne with ⟨con', hcon', hname', hid', _⟩
  rw [heq, hcon', Option.some.injEq] at hcon
  subst hcon
  have hidp := h.used p field hne'
  have hnamep : (users p.1).name ≠ [] := fun hempty => hidp (h.keyed.freeUser p.1 hempty p.2)
  -- the lookup of the one record finds both
  have hp := (h.keyed.getDevice_eq_ref_iff (p := p) hnamep hidp).2 ⟨rfl, rfl⟩
  have hq := (h.keyed.getDevice_eq_ref_iff (p := q) hnamep hidp).2
    ⟨hname'.symm.trans hname, hid'.symm.trans hid⟩
  rw [hp] at hq
  cases hq
  rfl

/-- A device that leaves takes its descriptors with it, open or closed. -/
theorem Backed.clear (h : Backed users accepted) {closed : List Int32}
    (hclosed : ∀ fd ∈ closed, ∃ field, fd = stored users (p, field)) :
    Backed (users.clear p) fun fd => if fd ∈ closed then none else accepted fd := by
  refine h.mono (h.keyed.clear p) ?_
  intro q field hne
  rw [stored_clear] at hne ⊢
  by_cases hq : q = p
  · exact absurd (if_pos hq) hne
  · rw [if_neg hq] at hne ⊢
    refine ⟨rfl, ?_, if_neg ?_⟩
    · intro hid
      rw [Users.clear, Users.put_device, if_neg hq, Users.put_name]
      refine ⟨?_, rfl⟩
      split
      · next hu =>
          -- the user keeps the name as long as it has this device
          rcases users.nameWithout_cases p with ⟨hkept, _⟩ | ⟨_, hothers⟩
          · rw [hkept, hu]
          · have hq2 : q.2 ≠ p.2 := fun h2 => hq (Prod.ext hu h2)
            have hfree := hothers q.2 hq2
            rw [← hu] at hfree
            exact absurd hfree hid
      · rfl
    · intro hmem
      rcases hclosed _ hmem with ⟨field', hsame⟩
      exact hq (h.place_eq hsame (by rwa [← hsame]))

theorem keys_setDevice (users : Users) (p : DeviceIndex) {dev : Device}
    (hid : dev.id = (users.device p).id) (q : DeviceIndex) :
    ((users.setDevice p dev) q.1).name = (users q.1).name ∧
      ((users.setDevice p dev).device q).id = (users.device q).id := by
  rw [Users.setDevice_eq_put, Users.put_name, Users.put_device]
  constructor
  · split
    · next hq => rw [hq]
    · rfl
  · split
    · next hq => rw [hq, hid]
    · rfl

theorem Keyed.setSocket (hk : Keyed users) (hfound : getDevice users con.device con.user = .ref p)
    (number socket : Int32) :
    Keyed (users.setDevice p ((users.device p).setSocket number socket)) := by
  have hname : con.user ≠ [] := by
    intro hempty
    simp [getDevice, hempty] at hfound
  have huser : (users p.1).name = con.user := (keys_of_getDevice hfound).1
  exact hk.setDevice (by rwa [huser]) (Or.inl (Device.setSocket_id _ _ _))

/-- A place may be overwritten by `-1`. -/
theorem Backed.forget (h : Backed users accepted) (hknown : KnownType con)
    (hfound : getDevice users con.device con.user = .ref p) :
    Backed (users.setDevice p ((users.device p).setSocket (Connection.socketTypeInt con) (-1)))
      accepted := by
  rcases stored_setSocket users p hknown (-1) with ⟨field, hstored, _⟩
  refine h.mono (h.keyed.setSocket hfound _ _) ?_
  intro q field' hne
  have hplace : (q, field') ≠ (p, field) := by
    intro heq
    rw [heq, hstored, Function.update_self] at hne
    exact hne rfl
  rw [hstored, Function.update_of_ne hplace]
  exact ⟨rfl, fun _ => keys_setDevice _ _ (Device.setSocket_id _ _ _) q, rfl⟩

/-- A descriptor that has just been accepted goes to the place of its record. -/
theorem Backed.store (h : Backed users accepted) (hknown : KnownType con)
    (hfound : getDevice users con.device con.user = .ref p) (hid : con.device ≠ -1)
    {field : SocketField} (htype : con.socketType = field.socketType)
    (hfresh : accepted socket = none) :
    Backed (users.setDevice p ((users.device p).setSocket (Connection.socketTypeInt con) socket))
      (Function.update accepted socket (some con)) := by
  rcases keys_of_getDevice hfound with ⟨hpname, hpid⟩
  rcases stored_setSocket users p hknown socket with ⟨_, hstored, hfield⟩
  rw [← hfield field htype] at hstored
  have hkeys := keys_setDevice users p
    (Device.setSocket_id (users.device p) (Connection.socketTypeInt con) socket)
  constructor
  case keyed =>
    exact h.keyed.setSocket hfound _ _
  case used =>
    intro q field' hne
    rw [(hkeys q).2]
    by_cases hplace : (q, field') = (p, field)
    · cases hplace
      exact hpid.trans_ne hid
    · rw [hstored, Function.update_of_ne hplace] at hne
      exact h.used q field' hne
  case accepted =>
    intro q field' hne
    rw [(hkeys q).1, (hkeys q).2]
    by_cases hplace : (q, field') = (p, field)
    · cases hplace
      rw [hstored, Function.update_self, Function.update_self]
      exact ⟨con, rfl, hpname.symm, hpid.symm, htype⟩
    · rw [hstored, Function.update_of_ne hplace] at hne ⊢
      rcases h.accepted q field' hne with ⟨con', hcon', hrest⟩
      -- the new number is not yet behind another place
      have hother : stored users (q, field') ≠ socket := by
        intro heq
        rw [heq, hfresh] at hcon'
        cases hcon'
      exact ⟨con', by rwa [Function.update_of_ne hother], hrest⟩

end Descriptors

/-! ## Runs -/

namespace Node

section Runs

variable {s t : Node} {users : Users} {con : Connection} {socket : Int32} {happening : Happening}

/-- Accepting a connection takes nothing from the table. -/
theorem backed_accept (h : Backed users s.accepted) (hacc : s.Accepts socket) :
    Backed users (s.accept con socket) := by
  refine h.mono h.keyed ?_
  intro p field hne
  refine ⟨rfl, fun _ => ⟨rfl, rfl⟩, ?_⟩
  rcases h.accepted p field hne with ⟨con', hcon', _⟩
  unfold accept
  split
  · rfl
  · next hsocket =>
      rcases hacc with hfail | ⟨_, hfresh⟩
      · exact absurd hfail hsocket
      · rw [Function.update_of_ne]
        rintro rfl
        rw [hfresh] at hcon'
        cases hcon'

theorem backed_connect (h : Backed s.users s.accepted) (hacc : s.Accepts socket)
    (hok : s.Harmless (.connect con socket)) {handled : Handled}
    (hres : handleUserControllerStructure s.users s.servers con socket = some handled) :
    Backed handled.users (s.accept con socket) := by
  by_cases hname : con.user = []
  · rw [(handle_of_noName hname hres).1]
    exact backed_accept h hacc
  · have hfared : Fared s.users s.servers con socket := fared h.keyed hname
    cases hfared with
    | refused reply hout _ _ =>
        rw [hout] at hres
        cases hres
        exact backed_accept h hacc
    | ack p users₁ code hinserted hout hk₁ hfound hroom =>
        rw [hout] at hres
        cases hres
        rcases enlarged_insertUser h.keyed con.user with ⟨henl, hk'⟩
        have hb : Backed users₁ s.accepted :=
          h.enlarged (henl.trans (enlarged_insertDevice hk' hinserted).1) hk₁
        dsimp only
        by_cases hknown : KnownType con
        · by_cases hsocket : socket = -1
          · subst hsocket
            rw [accept, if_pos rfl]
            exact hb.forget hknown hfound
          · have hfresh : s.accepted socket = none := by
              rcases hacc with hfail | ⟨_, hfresh⟩
              · exact absurd hfail hsocket
              · exact hfresh
            rw [accept, if_neg hsocket]
            rcases hok with hfail | hunknown | hfull | ⟨hid, field, htype⟩
            · exact absurd hfail hsocket
            · exact absurd hknown hunknown
            · exact absurd hfull hroom
            · exact hb.store hknown hfound hid htype hfresh
        · rw [setSocket_of_unknown _ hknown, setDevice_device]
          exact backed_accept hb hacc

theorem backed_receive (h : Backed s.users s.accepted) {m : Replication UserCurrentSocket}
    (hok : s.Harmless (.receive m)) (hres : Replication.process s.users m = some users) :
    Backed users s.accepted := by
  cases m with
  | upload path payload =>
      cases hres
      exact h
  | delete path =>
      cases hres
      exact h
  | insertUser con =>
      rcases insertUserConnectedInPrimary_cases h.keyed hres with
        ⟨_, henl, hk⟩ | ⟨users₁, p, henl, hk, hfound, rfl⟩
      · exact h.enlarged henl hk
      · have hb : Backed users₁ s.accepted := h.enlarged henl hk
        by_cases hknown : KnownType con
        · rcases hok with hnone | hunknown
          · rw [hnone]
            exact hb.forget hknown hfound
          · exact absurd hknown hunknown
        · rw [setSocket_of_unknown _ hknown, setDevice_device]
          exact hb
  | exit record =>
      rcases receiveExitFromPrimary_cases h.keyed hres with rfl | ⟨p, rfl⟩
      · exact h
      · -- a secondary closes nothing
        have hclear : Backed (s.users.clear p) fun fd =>
            if fd ∈ ([] : List Int32) then none else s.accepted fd := h.clear (by simp)
        simpa using hclear

theorem backed_step (h : Backed s.users s.accepted) (hok : s.Harmless happening)
    (hstep : s.step happening = some t) : Backed t.users t.accepted := by
  cases happening with
  | connect con socket =>
      simp only [step] at hstep
      split at hstep
      · next henabled =>
          rcases Option.map_eq_some_iff.1 hstep with ⟨handled, hres, rfl⟩
          exact backed_connect h henabled.2 hok hres
      · cases hstep
  | join id socket =>
      simp only [step] at hstep
      split at hstep
      · cases hstep
        exact h
      · cases hstep
  | exit arg =>
      simp only [step] at hstep
      split at hstep
      · rcases Option.map_eq_some_iff.1 hstep with ⟨exited, hres, rfl⟩
        rcases exitCommand_cases h.keyed.names hres with ⟨p, _, husers, hclosed, _⟩
        dsimp only
        rw [husers]
        refine h.clear ?_
        intro fd hmem
        rw [hclosed] at hmem
        exact exists_stored_of_mem hmem
      · cases hstep
  | receive m =>
      simp only [step] at hstep
      split at hstep
      · rcases Option.map_eq_some_iff.1 hstep with ⟨users, hres, rfl⟩
        have hb : Backed users s.accepted := backed_receive h hok hres
        exact hb
      · cases hstep
  | promote =>
      simp only [step] at hstep
      split at hstep
      · cases hstep
        exact h
      · cases hstep

theorem genuine_of_backed (h : Backed s.users s.accepted) : Genuine s where
  stored := h.accepted
  notified := by
    intro arg u d hu _ hne
    rcases h.accepted (u, d) .socket3 hne with ⟨con, hcon, hname, _, htype⟩
    have hun : (s.users u).name = arg.userName := SlotArray.key_of_find hu
    exact ⟨con, hcon, hname.trans hun, htype⟩
  closed := by
    intro arg exited hres fd hmem hne
    rcases exitCommand_cases h.keyed.names hres with ⟨p, hdev, _, hclosed, _⟩
    rcases keys_of_getDevice hdev with ⟨hpname, hpid⟩
    rw [hclosed] at hmem
    rcases exists_stored_of_mem hmem with ⟨field, rfl⟩
    rcases h.accepted p field hne with ⟨con, hcon, hname, hid, _⟩
    exact ⟨con, hcon, hname.trans hpname, hid.trans hpid⟩

/-- As long as every step is harmless, a server of either role, promoted or not, records only
descriptors that it accepted for the place they are recorded at. -/
theorem genuine_of_harmless {role : Role} (h : Reaches step Harmless (start role) s) :
    Genuine s := by
  have hb : Backed s.users s.accepted :=
    h.invariant (P := fun s => Backed s.users s.accepted) backed_start
      fun _ _ _ hb hok hstep => backed_step hb hok hstep
  exact genuine_of_backed hb

instance (s : Node) : DecidablePred s.Harmless := fun happening =>
  match happening with
  | .connect con socket =>
      have : Decidable (NoRoom s.users con) := inferInstanceAs (Decidable (_ ∧ _ ∨ _ ∧ _))
      have : Decidable (∃ field : SocketField, con.socketType = field.socketType) :=
        decidable_of_iff (∃ field ∈ [SocketField.socket1, .socket2, .socket3],
          con.socketType = field.socketType)
          ⟨fun ⟨field, _, h⟩ => ⟨field, h⟩, fun ⟨field, h⟩ => ⟨field, by cases field <;> simp, h⟩⟩
      inferInstanceAs (Decidable (_ ∨ _ ∨ _ ∨ _))
  | .receive (.insertUser con) => inferInstanceAs (Decidable (con.socket = -1 ∨ ¬KnownType con))
  | .receive (.upload _ _) | .receive (.delete _) | .receive (.exit _) | .join _ _ | .exit _
  | .promote => inferInstanceAs (Decidable True)

/-- A secondary is told of a device without a descriptor and wins the election; then the device
opens a connection, and another one connects and leaves again. -/
def servesPromoted : Node :=
  (runWhile step Harmless (start .secondary)
    [.receive (.insertUser { oneLetterRequest 97 1 socketT1 with socket := -1 }), .promote,
      .connect (oneLetterRequest 97 1 socketT1) 4, .connect (oneLetterRequest 97 2 socketT3) 5,
      .exit { userName := [97], currentSocket := 5, currentDevice := 2 }]).get
    (by decide)

theorem genuine_of_harmless_servesPromoted :
    servesPromoted.role = .primary ∧ Server.stored servesPromoted.users ((0, 0), .socket1) = 4 ∧
      Genuine servesPromoted :=
  ⟨by decide, by decide, genuine_of_harmless (Reaches.of_runWhile (Option.some_get _).symm)⟩

/-- A secondary is told of a connection whose client has the descriptor 3 for it, and wins the
election. -/
theorem promoted_not_genuine :
    ∃ s, Reaches step (fun _ _ => True) (start .secondary) s ∧ s.role = .primary ∧ ¬Genuine s := by
  have hrun : (runWhile step (fun _ _ => True) (start .secondary)
      [.receive (.insertUser { oneLetterRequest 97 1 socketT1 with socket := 3 }), .promote]).any
        (fun s => s.role = .primary ∧ Server.stored s.users ((0, 0), .socket1) = 3 ∧
          s.accepted 3 = none) = true := by
    decide
  rcases (Option.any_eq_true _ _).1 hrun with ⟨s, hs, hall⟩
  rcases of_decide_eq_true hall with ⟨hrole, hstored, hnone⟩
  refine ⟨s, Reaches.of_runWhile hs, hrole, ?_⟩
  intro h
  rcases h.stored (0, 0) .socket1 (by rw [hstored]; decide) with ⟨con, hcon, _⟩
  rw [hstored, hnone] at hcon
  cases hcon

end Runs

end Node

end Server
end DropboxSimulator
