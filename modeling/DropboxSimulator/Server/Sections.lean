import DropboxSimulator.Server.Admission

/-!
# Sections — runs of the table's critical sections

Every access of the primary to `users[]` lies in a critical section under `mutex_user_structure`:
a connection request or an exit.  This file runs such sections one after another from the initial
table, in any order and number, and proves what holds in every table reached.
-/

namespace DropboxSimulator
namespace Server

open Library

/-- A connection request a client makes: a user, a device, and one of the three socket types. -/
structure ValidRequest (con : Connection) : Prop where
  user : con.user ≠ []
  device : con.device ≠ -1
  socketType : con.socketType = socketT1 ∨ con.socketType = socketT2 ∨ con.socketType = socketT3

/-- The session has its device in the table. -/
def Registered (users : Users) (arg : UserCurrentSocket) : Prop :=
  arg.currentDevice ∈ (registry users).members arg.userName

/-- The tables that critical sections reach from the initial one. -/
inductive Reachable : Users → Prop
  | initial : Reachable initiateUserControllerStructure
  | connect {users : Users} (servers : BackupServers) (con : Connection) (socket : Int32)
      (handled : Handled) :
      Reachable users → ValidRequest con →
      handleUserControllerStructure users servers con socket = some handled →
      Reachable handled.users
  | exit {users : Users} (servers : BackupServers) (arg : UserCurrentSocket) (exited : Exited) :
      Reachable users → Registered users arg →
      exitCommand users servers arg = some exited →
      Reachable exited.users

section Runs

variable {users : Users} {servers : BackupServers} {con : Connection} {socket : Int32}
variable {arg : UserCurrentSocket}

theorem WellFormed.exists_ref_of_registered (hw : WellFormed users) (hr : Registered users arg) :
    arg.userName ≠ [] ∧ ∃ p, getDevice users arg.currentDevice arg.userName = .ref p := by
  rcases hw.mem_pairs_registry_iff.1 (Roster.mem_members_iff.1 hr) with ⟨hname, hid, p, hpn, hpd⟩
  exact ⟨hname, p, (hw.getDevice_eq_ref_iff hname hid).2 ⟨hpn, hpd⟩⟩

/-- An admitted request adds its pair to the map. -/
theorem WellFormed.admitted (hw : WellFormed users) (hname : con.user ≠ []) (hid : con.device ≠ -1)
    {handled : Handled}
    (h : handleUserControllerStructure users servers con socket = some handled)
    (hack : handled.reply = some .ack) :
    WellFormed handled.users ∧
      (registry users).Admits maxUsers maxDevices con.user con.device ∧
      (registry handled.users).pairs = insert (con.user, con.device) (registry users).pairs := by
  have ho : Outcome users servers con socket := handle_outcome hw hname hid
  refine ⟨ho.wellFormed hw h, ?_⟩
  cases ho with
  | nack1 hres _ _ =>
      rw [hres] at h
      cases h
      cases hack
  | nack3 hres _ _ _ =>
      rw [hres] at h
      cases h
      cases hack
  | ack p hres hslot hadmits =>
      rw [hres] at h
      cases h
      have hslot' : Fits users p con.user (users.connected p con socket).id := by
        simpa using hslot
      refine ⟨hadmits, ?_⟩
      -- the slot that was written holds the device of the request
      rw [hslot'.registry_put hw.toClean, Roster.pairs_put, connected_id]

/-- The secondaries are told of an admitted request. -/
theorem WellFormed.admitted_sent (hw : WellFormed users) (hname : con.user ≠ [])
    (hid : con.device ≠ -1) {handled : Handled}
    (h : handleUserControllerStructure users servers con socket = some handled)
    (hack : handled.reply = some .ack) :
    handled.sent = notifyServers servers (.insertUser con) := by
  have ho : Outcome users servers con socket := handle_outcome hw hname hid
  cases ho with
  | nack1 hres _ _ =>
      rw [hres] at h
      cases h
      cases hack
  | nack3 hres _ _ _ =>
      rw [hres] at h
      cases h
      cases hack
  | ack p hres _ _ =>
      rw [hres] at h
      cases h
      rfl

/-- Any other request is answered too and leaves the table alone. -/
theorem WellFormed.refused (hw : WellFormed users) (hname : con.user ≠ []) (hid : con.device ≠ -1)
    {handled : Handled}
    (h : handleUserControllerStructure users servers con socket = some handled)
    (hack : handled.reply ≠ some .ack) : handled.users = users ∧ handled.reply ≠ none := by
  have ho : Outcome users servers con socket := handle_outcome hw hname hid
  cases ho with
  | nack1 hres _ _ =>
      rw [hres] at h
      cases h
      exact ⟨rfl, by simp⟩
  | nack3 hres _ _ _ =>
      rw [hres] at h
      cases h
      exact ⟨rfl, by simp⟩
  | ack p hres _ _ =>
      rw [hres] at h
      cases h
      exact absurd rfl hack

/-- The exit of a registered device removes its pair from the map. -/
theorem WellFormed.exited (hw : WellFormed users) (hreg : Registered users arg) {exited : Exited}
    (h : exitCommand users servers arg = some exited) :
    exited.code = .success ∧ WellFormed exited.users ∧
      (registry exited.users).pairs =
        (registry users).pairs \ {(arg.userName, arg.currentDevice)} := by
  rcases hw.mem_pairs_registry_iff.1 (Roster.mem_members_iff.1 hreg) with ⟨hname, hid, _⟩
  rcases hw.exists_ref_of_registered hreg with ⟨_, p, hdev⟩
  rcases (hw.getDevice_eq_ref_iff hname hid).1 hdev with ⟨hpn, hpd⟩
  rw [exitCommand_of_ref hw.names hname hdev] at h
  cases h
  refine ⟨rfl, hw.clear p, ?_⟩
  calc
    (registry (users.clear p)).pairs
        = ((registry users).erase (users p.1).name (users.device p).id).pairs := by
          rw [hw.registry_clear]
    _ = (registry users).pairs \ {(arg.userName, arg.currentDevice)} := by
          rw [Roster.pairs_erase, hpn, hpd]

/-- Every critical section keeps the invariant, so every reachable table has it. -/
theorem Reachable.wellFormed (h : Reachable users) : WellFormed users := by
  induction h with
  | initial =>
      exact wellFormed_initiate
  | connect servers con socket handled _ hvalid hres ih =>
      exact (handle_outcome ih hvalid.user hvalid.device).wellFormed ih hres
  | exit servers arg exited _ hreg hres ih =>
      exact (ih.exited hreg hres).2.1

/-! ## The invariant and what it rules out -/

/-- Every reachable table is well formed, and on it a request meets no undefined lookup: the
search for a free device does not run off its end, the device that `insert_socket` dereferences
exists, and the answer is never `nack5`. -/
theorem reachable_request_defined (h : Reachable users) :
    WellFormed users ∧
      ∀ (servers : BackupServers) (con : Connection) (socket : Int32), ValidRequest con →
        getAvailableDevice (insertUser users con.user).1 con.user ≠ .undefined ∧
          ∃ handled, handleUserControllerStructure users servers con socket = some handled ∧
            handled.reply ≠ some .nack5 ∧
            (handled.reply = some .ack →
              ∃ users₂ code₂ p,
                insertDevice (insertUser users con.user).1 con.user con.device =
                  some (users₂, code₂) ∧
                getDevice users₂ con.device con.user = .ref p) := by
  have hw := h.wellFormed
  refine ⟨hw, fun servers con socket hvalid => ⟨getAvailableDevice_ne_undefined, ?_⟩⟩
  cases requested hw hvalid.user hvalid.device with
  | noUser hins _ _ =>
      -- every user slot is taken: `nack1`, without a look at the devices
      exact ⟨_, handle_of_error hins, by simp, by simp⟩
  | noDevice hins hdev _ _ _ =>
      -- every device slot of the user is taken: `nack3`
      exact ⟨_, handle_of_maxDevices hins hdev, by simp, by simp⟩
  | fits p users₁ code₁ code₂ hins huser hdev hcode hslot _ =>
      refine ⟨_, handle_of_fits hw hins huser hdev hcode hslot, by simp, fun _ => ?_⟩
      rw [hins]
      exact ⟨_, _, p, hdev, hslot.getDevice_put hw rfl⟩

end Runs

/-- A request of a user with a one-letter name, for concrete runs. -/
def oneLetterRequest (letter : UInt8) (device : Int32) (socketType : UInt64) : Connection where
  packetType := packetConn
  socketType := socketType
  device := device
  username := ⟨letter :: List.replicate 99 0, by simp⟩
  socket := 4
  padding := ⟨List.replicate 4 0, by simp⟩

/-- The console connection of device `1` of user `a`, as the first request of all. -/
def oneSession : Handled :=
  (handleUserControllerStructure initiateUserControllerStructure initiateBackupServerStructure
    (oneLetterRequest 97 1 socketT1) 7).get (by decide)

theorem reachable_oneSession : Reachable oneSession.users :=
  .connect initiateBackupServerStructure (oneLetterRequest 97 1 socketT1) 7 oneSession .initial
    ⟨by decide, by decide, by decide⟩ (Option.some_get _).symm

theorem reachable_request_defined_oneSession :
    WellFormed oneSession.users ∧
      getAvailableDevice (insertUser oneSession.users [97]).1 [97] ≠ .undefined :=
  ⟨(reachable_request_defined reachable_oneSession).1,
    ((reachable_request_defined reachable_oneSession).2 initiateBackupServerStructure
      (oneLetterRequest 97 2 socketT2) 8 ⟨by decide, by decide, by decide⟩).1⟩

/-! ## What a request does to the map -/

/-- Three descriptors of which none is known. -/
def Sockets.unknown : Sockets :=
  { socket1 := -1, socket2 := -1, socket3 := -1 }

/-- The descriptors of a device once a connection of the given type is recorded. -/
def Sockets.record (s : Sockets) (socketType : UInt64) (socket : Int32) : Sockets :=
  if socketType = socketT1 then
    { s with socket1 := socket }
  else if socketType = socketT2 then
    { s with socket2 := socket }
  else
    { s with socket3 := socket }

/-- The slots of the secondaries that are registered. -/
def registeredServers (servers : BackupServers) : List (Fin maxServers) :=
  (List.finRange maxServers).filter fun i => (servers i).id ≠ -1

section Map

variable {users : Users} {servers : BackupServers} {con : Connection} {socket : Int32}
variable {name : Bytes} {deviceId : Int32} {p : DeviceIndex}

theorem notifyServers_eq_map {ρ : Type} (m : Replication ρ) :
    notifyServers servers m =
      (registeredServers servers).map fun i => (i, m) := by
  unfold notifyServers registeredServers
  induction List.finRange maxServers with
  | nil =>
      rfl
  | cons i rest ih =>
      by_cases h : (servers i).id = -1
      · simpa [h] using ih
      · simpa [h] using ih

/-- A fitting slot holds what the map says of the device, or nothing if the map lacks it. -/
theorem Fits.sockets_eq (hc : Clean users) (hf : Fits users p name deviceId) :
    (users.device p).sockets = (registry users name deviceId).getD Sockets.unknown := by
  rcases hf.device with hid | ⟨hid, hfresh⟩
  · rcases hf.user with hname | ⟨hfree, _⟩
    · rw [hc.registry_eq_some_iff.2 ⟨hf.name_ne, hf.id_ne, p, hname, hid, rfl⟩]
      rfl
    · exact absurd (hid.symm.trans (hc.freeUser p.1 hfree p.2)) hf.id_ne
  · -- a device that is new to its slot is new to the map, since no name occurs twice
    have hnone : registry users name deviceId = none := by
      by_contra hsome
      rcases hc.mem_pairs_registry_iff.1 (Roster.mem_pairs_iff.2 hsome) with ⟨_, _, q, hqn, hqd⟩
      rcases hf.user with hname | ⟨_, hno⟩
      · have hqp : q.1 = p.1 :=
          hc.names q.1 p.1 (hqn.trans hname.symm) (by rw [hqn]; exact hf.name_ne)
        exact hfresh q.2 (by rw [← hqp]; exact hqd)
      · exact hno q.1 hqn
    rw [hnone, hc.freeDevice p hid]
    rfl

theorem ValidRequest.sockets_connected (hv : ValidRequest con) :
    (users.connected p con socket).sockets =
      (users.device p).sockets.record con.socketType socket := by
  rcases hv.socketType with h | h | h <;>
    simp [Users.connected, Connection.socketTypeInt, Device.setSocket, Device.sockets,
      Sockets.record, h, socketT1, socketT2, socketT3]

/-- Every request on a reachable table is answered, and the answer, the new map and the messages
to the secondaries are those of a map with two capacities. -/
theorem reachable_request_spec (h : Reachable users) (hv : ValidRequest con)
    (servers : BackupServers) (socket : Int32) :
    ∃ handled, handleUserControllerStructure users servers con socket = some handled ∧
      (handled.reply = some .ack ↔
        con.device ∈ (registry users).members con.user ∨
          (con.user ∈ (registry users).owners ∧
            ((registry users).members con.user).encard < maxDevices) ∨
          (con.user ∉ (registry users).owners ∧ (registry users).owners.encard < maxUsers)) ∧
      (handled.reply = some .nack3 ↔
        con.user ∈ (registry users).owners ∧ con.device ∉ (registry users).members con.user ∧
          ((registry users).members con.user).encard = maxDevices) ∧
      (handled.reply = some .nack1 ↔
        con.user ∉ (registry users).owners ∧ (registry users).owners.encard = maxUsers) ∧
      (handled.reply = some .ack ∨ handled.reply = some .nack3 ∨ handled.reply = some .nack1) ∧
      (handled.reply = some .ack →
        registry handled.users =
          (registry users).put con.user con.device
            (((registry users con.user con.device).getD Sockets.unknown).record
              con.socketType socket) ∧
        handled.sent =
          (registeredServers servers).map fun i => (i, .insertUser con)) ∧
      (handled.reply ≠ some .ack → handled.users = users ∧ handled.sent = []) := by
  have hw := h.wellFormed
  have ho : Outcome users servers con socket := handle_outcome hw hv.user hv.device
  cases ho with
  | nack1 hres hunknown hfull =>
      refine ⟨_, hres, ?_, ?_, ?_, by simp, by simp, by simp⟩
      · have hmem : con.device ∉ (registry users).members con.user :=
          fun hb => hunknown (Roster.mem_owners_iff.2 ⟨_, hb⟩)
        simp [hunknown, hfull, hmem]
      · simp [hunknown]
      · simp [hunknown, hfull]
  | nack3 hres hknown habsent hfull =>
      refine ⟨_, hres, ?_, ?_, ?_, by simp, by simp, by simp⟩
      · simp [hknown, habsent, hfull]
      · simp [hknown, habsent, hfull]
      · simp [hknown]
  | ack p hres hslot hadmits =>
      refine ⟨_, hres, ?_, ?_, ?_, by simp, ?_, by simp⟩
      · exact ⟨fun _ => hadmits, fun _ => rfl⟩
      · simp only [Option.some.injEq, reduceCtorEq, false_iff, not_and]
        intro hknown habsent hfull
        -- a known user with a full set of devices is admitted for one of these only
        rcases hadmits with hmem | ⟨_, hlt⟩ | ⟨hno, _⟩
        · exact habsent hmem
        · exact absurd hfull hlt.ne
        · exact hno hknown
      · simp only [Option.some.injEq, reduceCtorEq, false_iff, not_and]
        intro hunknown hfull
        -- with a full table an unknown user is not admitted
        rcases hadmits with hmem | ⟨hown, _⟩ | ⟨_, hlt⟩
        · exact hunknown (Roster.mem_owners_iff.2 ⟨_, hmem⟩)
        · exact hunknown hown
        · exact absurd hfull hlt.ne
      · intro _
        have hslot' : Fits users p con.user (users.connected p con socket).id := by
          simpa using hslot
        refine ⟨?_, notifyServers_eq_map _⟩
        rw [hslot'.registry_put hw.toClean, connected_id, hv.sockets_connected,
          hslot.sockets_eq hw.toClean]

theorem reachable_request_spec_oneSession :
    ∃ handled,
      handleUserControllerStructure oneSession.users initiateBackupServerStructure
        (oneLetterRequest 97 2 socketT2) 8 = some handled ∧
      (handled.reply ≠ some .ack → handled.users = oneSession.users ∧ handled.sent = []) := by
  obtain ⟨handled, hres, _, _, _, _, _, hnack⟩ :=
    reachable_request_spec reachable_oneSession
      (⟨by decide, by decide, by decide⟩ : ValidRequest (oneLetterRequest 97 2 socketT2))
      initiateBackupServerStructure 8
  exact ⟨handled, hres, hnack⟩

end Map

end Server
end DropboxSimulator
