import DropboxSimulator.Server.Arrivals

/-!
# Exits — what the exit of a session takes back

`exitCommand` frees one device slot, and the user slot with the last device.  On a well-formed
table these are just the slots that the connections of the session took, so an exit gives back the
table that was there before them, slot for slot (`exit_exact`).

The connections of one session all write one place (`Taken`), whatever their types and their
number; clearing that place is what the exit does.
-/

namespace DropboxSimulator
namespace Server

open Library

section Exits

variable {users users' : Users} {servers : BackupServers} {con : Connection} {socket : Int32}
variable {arg : UserCurrentSocket} {name : Bytes} {deviceId : Int32} {p q : DeviceIndex}

/-! ## The slots of one device -/

/-- A device of a user lies in one slot only. -/
theorem Clean.index_unique (hc : Clean users) (hname : name ≠ []) (hid : deviceId ≠ -1)
    (hp : (users p.1).name = name ∧ (users.device p).id = deviceId)
    (hq : (users q.1).name = name ∧ (users.device q).id = deviceId) : q = p := by
  have hpref := (hc.getDevice_eq_ref_iff hname hid).2 hp
  have hqref := (hc.getDevice_eq_ref_iff hname hid).2 hq
  rw [hpref] at hqref
  cases hqref
  rfl

/-- A slot that fits a device which is in the table is the slot that holds it. -/
theorem Fits.index_eq (hc : Clean users) (hf : Fits users q name deviceId)
    (hp : (users p.1).name = name ∧ (users.device p).id = deviceId) : q = p := by
  have huser : (users q.1).name = name := by
    rcases hf.user with hsame | ⟨_, hfresh⟩
    · exact hsame
    · exact absurd hp.1 (hfresh p.1)
  have hdevice : (users.device q).id = deviceId := by
    rcases hf.device with hsame | ⟨_, hfresh⟩
    · exact hsame
    · -- the user lies in one slot, so the device would be among its devices
      have hqp : q.1 = p.1 :=
        hc.names q.1 p.1 (huser.trans hp.1.symm) (by rw [huser]; exact hf.name_ne)
      exact absurd (by rw [hqp]; exact hp.2) (hfresh p.2)
  exact hc.index_unique hf.name_ne hf.id_ne hp ⟨huser, hdevice⟩

/-- A slot that fits a device which is not in the table is free. -/
theorem Fits.free_of_absent (hc : Clean users) (hf : Fits users p name deviceId)
    (habsent : deviceId ∉ (registry users).members name) : users.device p = Device.free := by
  rcases hf.device with hid | ⟨hfree, _⟩
  · rcases hf.user with hname | ⟨hnone, _⟩
    · have hmem : (name, deviceId) ∈ (registry users).pairs :=
        hc.mem_pairs_registry_iff.2 ⟨hf.name_ne, hf.id_ne, p, hname, hid⟩
      exact absurd (Roster.mem_members_iff.2 hmem) habsent
    · exact absurd (hid.symm.trans (hc.freeUser p.1 hnone p.2)) hf.id_ne
  · exact hc.freeDevice p hfree

/-! ## Clearing a slot that was taken -/

/-- The user slot that a new device takes has its name back once the device has left. -/
theorem Fits.nameWithout_put (hw : WellFormed users) (hf : Fits users p name deviceId)
    (hfree : users.device p = Device.free) (dev : Device) :
    (users.put p name dev).nameWithout p = (users p.1).name := by
  have hothers : ∀ d, d ≠ p.2 →
      ((users.put p name dev p.1).devices d).id = ((users p.1).devices d).id := by
    intro d hd
    simp [Users.put, hd]
  rcases (users.put p name dev).nameWithout_cases p with ⟨hkept, d, hd, hid⟩ | ⟨hgone, hnone⟩
  · rw [hothers d hd] at hid
    rcases hf.user with hsame | ⟨hempty, _⟩
    · rw [hkept, Users.put_name, if_pos rfl, hsame]
    · exact absurd (hw.freeUser p.1 hempty d) hid
  · -- no other device is there, so the user had none before
    rw [hgone]
    by_contra hnamed
    rcases hw.namedUser p.1 (fun h => hnamed h.symm) with ⟨d, hid⟩
    by_cases hd : d = p.2
    · subst hd
      have hfreeId : (users.device p).id = -1 := by rw [hfree]; rfl
      exact hid hfreeId
    · exact hid ((hothers d hd).symm.trans (hnone d hd))

/-- Writing a free slot and clearing it again changes nothing. -/
theorem Fits.clear_put (hw : WellFormed users) (hf : Fits users p name deviceId)
    (hfree : users.device p = Device.free) (dev : Device) :
    (users.put p name dev).clear p = users := by
  have hput : (users.put p name dev).clear p = users.put p (users p.1).name Device.free := by
    rw [Users.clear, hf.nameWithout_put hw hfree]
    simp [Users.put]
  rw [hput, ← hfree, Users.put_self rfl]

/-- The table with one place written for a device that was not in it. -/
structure Taken (users : Users) (p : DeviceIndex) (name : Bytes) (deviceId : Int32)
    (users' : Users) : Prop where
  slot : Fits users p name deviceId
  free : users.device p = Device.free
  written : ∃ dev : Device, dev.id = deviceId ∧ users' = users.put p name dev

theorem Taken.wellFormed (hw : WellFormed users) (ht : Taken users p name deviceId users') :
    WellFormed users' := by
  rcases ht.written with ⟨dev, hid, rfl⟩
  exact Fits.wellFormed_put hw (by rw [hid]; exact ht.slot)

theorem Taken.holds (ht : Taken users p name deviceId users') :
    (users' p.1).name = name ∧ (users'.device p).id = deviceId := by
  rcases ht.written with ⟨dev, hid, rfl⟩
  simp [Users.put_name, Users.put_device, hid]

/-- The first connection of a session takes a place. -/
theorem exists_taken (hw : WellFormed users) (hname : con.user ≠ []) (hid : con.device ≠ -1)
    (habsent : con.device ∉ (registry users).members con.user) {handled : Handled}
    (h : handleUserControllerStructure users servers con socket = some handled)
    (hack : handled.reply = some .ack) :
    ∃ p, Taken users p con.user con.device handled.users := by
  have ho : Outcome users servers con socket := handle_outcome hw hname hid
  cases ho with
  | nack1 hres _ _ | nack3 hres _ _ _ =>
      rw [hres] at h
      cases h
      cases hack
  | ack p hres hslot _ =>
      rw [hres] at h
      cases h
      exact ⟨p, hslot, hslot.free_of_absent hw.toClean habsent, _, connected_id, rfl⟩

/-- A later one writes the same place again. -/
theorem Taken.handle (hw : WellFormed users) (ht : Taken users p con.user con.device users')
    {handled : Handled}
    (h : handleUserControllerStructure users' servers con socket = some handled)
    (hack : handled.reply = some .ack) : Taken users p con.user con.device handled.users := by
  have hw' := ht.wellFormed hw
  have ho : Outcome users' servers con socket :=
    handle_outcome hw' ht.slot.name_ne ht.slot.id_ne
  cases ho with
  | nack1 hres _ _ | nack3 hres _ _ _ =>
      rw [hres] at h
      cases h
      cases hack
  | ack q hres hslot _ =>
      rw [hres] at h
      cases h
      have hqp : q = p := hslot.index_eq hw'.toClean ht.holds
      subst hqp
      rcases ht.written with ⟨dev, _, rfl⟩
      refine ⟨ht.slot, ht.free, (users.put q con.user dev).connected q con socket, connected_id, ?_⟩
      simp [Users.put]

/-- All the connections of a session write one place. -/
theorem Taken.handleAll (hw : WellFormed users) {requests : List (Connection × Int32)}
    (hsession : ∀ request ∈ requests, request.1.user = name ∧ request.1.device = deviceId)
    (ht : Taken users p name deviceId users') {result : Users × List (Option Reply)}
    (h : handleAll servers users' requests = some result)
    (hack : ∀ reply ∈ result.2, reply = some .ack) : Taken users p name deviceId result.1 := by
  induction requests generalizing users' result with
  | nil =>
      cases h
      exact ht
  | cons request rest ih =>
      rcases request with ⟨con, socket⟩
      rcases hsession (con, socket) List.mem_cons_self with ⟨rfl, rfl⟩
      simp only [Server.handleAll] at h
      split at h
      · cases h
      · next handled hres =>
          rcases Option.map_eq_some_iff.1 h with ⟨result', hrest, rfl⟩
          rcases List.forall_mem_cons.1 hack with ⟨hfirst, hothers⟩
          have hall : Taken users p con.user con.device result'.1 :=
            ih (fun r hr => hsession r (List.mem_cons_of_mem _ hr)) (ht.handle hw hres hfirst)
              hrest hothers
          exact hall

/-! ## The exit of a registered device -/

/-- The exit closes what is recorded for its device, frees the device slot, frees the user slot
with the last device, leaves every other entry alone and tells each secondary once. -/
structure ExitedExactly (users : Users) (servers : BackupServers) (arg : UserCurrentSocket)
    (exited : Exited) : Prop where
  closed : ∃ socks, registry users arg.userName arg.currentDevice = some socks ∧
    exited.closed = [socks.socket1, socks.socket2, socks.socket3]
  device : ∀ p : DeviceIndex, (users p.1).name = arg.userName →
    (users.device p).id = arg.currentDevice → exited.users.device p = Device.free
  user : ∀ u, (users u).name = arg.userName →
    ((registry users).members arg.userName = {arg.currentDevice} ∧ (exited.users u).name = []) ∨
      ((registry users).members arg.userName ≠ {arg.currentDevice} ∧
        (exited.users u).name = arg.userName)
  otherUser : ∀ u, (users u).name ≠ arg.userName → exited.users u = users u
  otherDevice : ∀ p : DeviceIndex,
    ¬((users p.1).name = arg.userName ∧ (users.device p).id = arg.currentDevice) →
    exited.users.device p = users.device p
  sent : exited.sent = (registeredServers servers).map fun i => (i, .exit arg)

/-- The device at `p` is the only one of its user, in the map and in the array. -/
theorem WellFormed.members_eq_singleton_iff (hw : WellFormed users) (hname : (users p.1).name ≠ [])
    (hid : (users.device p).id ≠ -1) :
    (registry users).members (users p.1).name = {(users.device p).id} ↔
      ∀ d, d ≠ p.2 → ((users p.1).devices d).id = -1 := by
  have hmem : ∀ d, ((users p.1).devices d).id ≠ -1 →
      ((users p.1).devices d).id ∈ (registry users).members (users p.1).name := fun d hd =>
    Roster.mem_members_iff.2 (hw.mem_pairs_registry_iff.2 ⟨hname, hd, (p.1, d), rfl, rfl⟩)
  constructor
  · intro honly d hd
    by_contra hused
    -- a second device would have the id of the first
    have hsame : ((users p.1).devices d).id = (users.device p).id := by
      have hin := hmem d hused
      rw [honly] at hin
      exact hin
    exact hd (hw.ids p.1 d p.2 hsame hused)
  · intro hothers
    ext deviceId
    rw [Roster.mem_members_iff, hw.mem_pairs_registry_iff, Set.mem_singleton_iff]
    constructor
    · rintro ⟨_, hdev, q, hqname, rfl⟩
      have hq1 : q.1 = p.1 := hw.names q.1 p.1 hqname (by rwa [hqname])
      by_cases hq2 : q.2 = p.2
      · rw [Prod.ext hq1 hq2]
      · have hfree := hothers q.2 hq2
        rw [← hq1] at hfree
        exact absurd hfree hdev
    · rintro rfl
      exact ⟨hname, hid, p, rfl, rfl⟩

theorem exists_exitedExactly (hw : WellFormed users) (hreg : Registered users arg)
    (servers : BackupServers) :
    ∃ exited, exitCommand users servers arg = some exited ∧
      ExitedExactly users servers arg exited := by
  rcases hw.exists_ref_of_registered hreg with ⟨hname, p, hdev⟩
  rcases keys_of_getDevice hdev with ⟨hpname, hpid⟩
  have hid : arg.currentDevice ≠ -1 :=
    (hw.mem_pairs_registry_iff.1 (Roster.mem_members_iff.1 hreg)).2.1
  have honly := hw.members_eq_singleton_iff (p := p) (by rwa [hpname]) (by rwa [hpid])
  rw [hpname, hpid] at honly
  refine ⟨_, exitCommand_of_ref hw.names hname hdev, ?_⟩
  constructor
  case closed =>
    exact ⟨_, registry_apply hid hdev, rfl⟩
  case device =>
    intro q hqname hqid
    have hqp : q = p := hw.index_unique hname hid ⟨hpname, hpid⟩ ⟨hqname, hqid⟩
    rw [hqp, Users.clear, Users.put_device, if_pos rfl]
  case user =>
    intro u hu
    have hup : u = p.1 := hw.names u p.1 (hu.trans hpname.symm) (by rwa [hu])
    rw [Users.clear, Users.put_name, if_pos hup]
    -- the user slot is freed just when no other device keeps it
    rcases users.nameWithout_cases p with ⟨hkept, d, hd, hused⟩ | ⟨hgone, hothers⟩
    · exact Or.inr ⟨fun hmembers => hused (honly.1 hmembers d hd), hkept.trans hpname⟩
    · exact Or.inl ⟨honly.2 hothers, hgone⟩
  case otherUser =>
    intro u hu
    have hup : u ≠ p.1 := by
      rintro rfl
      exact hu hpname
    simp [Users.clear, Users.put, hup]
  case otherDevice =>
    intro q hq
    have hqp : q ≠ p := by
      rintro rfl
      exact hq ⟨hpname, hpid⟩
    rw [Users.clear, Users.put_device, if_neg hqp]
  case sent =>
    exact notifyServers_eq_map _

/-- An exit clears the place that the connections of its session took. -/
theorem Taken.exit (hw : WellFormed users)
    (ht : Taken users p arg.userName arg.currentDevice users') (servers : BackupServers) :
    ∃ exited, exitCommand users' servers arg = some exited ∧ exited.users = users := by
  have hw' := ht.wellFormed hw
  have hdev : getDevice users' arg.currentDevice arg.userName = .ref p :=
    (hw'.getDevice_eq_ref_iff ht.slot.name_ne ht.slot.id_ne).2 ht.holds
  refine ⟨_, exitCommand_of_ref hw'.names ht.slot.name_ne hdev, ?_⟩
  rcases ht.written with ⟨dev, _, rfl⟩
  exact ht.slot.clear_put hw ht.free dev

/-- On a reachable table the exit of a registered device does exactly what it should, and the exit
of a session that was not there gives back the table before its connections, slot for slot. -/
theorem exit_exact (h : Reachable users) :
    (∀ (servers : BackupServers) (arg : UserCurrentSocket), Registered users arg →
      ∃ exited, exitCommand users servers arg = some exited ∧
        ExitedExactly users servers arg exited) ∧
    ∀ (servers servers' : BackupServers) (arg : UserCurrentSocket)
      (requests : List (Connection × Int32)) (result : Users × List (Option Reply)),
      ¬Registered users arg → requests ≠ [] →
      (∀ request ∈ requests, ValidRequest request.1 ∧ request.1.user = arg.userName ∧
        request.1.device = arg.currentDevice) →
      handleAll servers users requests = some result →
      (∀ reply ∈ result.2, reply = some .ack) →
      ∃ exited, exitCommand result.1 servers' arg = some exited ∧ exited.users = users := by
  have hw := h.wellFormed
  refine ⟨fun servers arg hreg => exists_exitedExactly hw hreg servers, ?_⟩
  intro servers servers' arg requests result habsent hne hsession hall hack
  cases requests with
  | nil =>
      exact absurd rfl hne
  | cons request rest =>
      rcases request with ⟨con, socket⟩
      rcases hsession (con, socket) List.mem_cons_self with ⟨hvalid, huser, hdevice⟩
      simp only [handleAll] at hall
      split at hall
      · cases hall
      · next handled hres =>
          rcases Option.map_eq_some_iff.1 hall with ⟨result', hrest, rfl⟩
          rcases List.forall_mem_cons.1 hack with ⟨hfirst, hothers⟩
          -- the first connection takes a free place, the others write it again
          have hnew : con.device ∉ (registry users).members con.user := by
            rw [huser, hdevice]
            exact habsent
          rcases exists_taken hw hvalid.user hvalid.device hnew hres hfirst with ⟨p, htaken⟩
          rw [huser, hdevice] at htaken
          have hrestSession : ∀ request ∈ rest,
              request.1.user = arg.userName ∧ request.1.device = arg.currentDevice :=
            fun request hr => (hsession request (List.mem_cons_of_mem _ hr)).2
          exact (htaken.handleAll hw hrestSession hrest hothers).exit hw servers'

/-- The session of device `1` of user `a`. -/
def sessionOfA : UserCurrentSocket :=
  { userName := [97], currentDevice := 1, currentSocket := 4 }

/-- Two connections of a session, and its exit. -/
theorem exit_exact_twoConnections :
    ∃ result exited,
      handleAll initiateBackupServerStructure initiateUserControllerStructure twoConnections =
        some result ∧
      exitCommand result.1 initiateBackupServerStructure sessionOfA = some exited ∧
      exited.users = initiateUserControllerStructure := by
  have hsome : (handleAll initiateBackupServerStructure initiateUserControllerStructure
      twoConnections).any (fun result => ∀ reply ∈ result.2, reply = some .ack) = true := by
    decide
  rcases (Option.any_eq_true _ _).1 hsome with ⟨result, hall, hack⟩
  have habsent : ¬Registered initiateUserControllerStructure sessionOfA := by
    intro hreg
    have hpair := Roster.mem_members_iff.1 hreg
    rw [pairs_registry_initiate] at hpair
    cases hpair
  have hsession : ∀ request ∈ twoConnections, ValidRequest request.1 ∧
      request.1.user = sessionOfA.userName ∧ request.1.device = sessionOfA.currentDevice := by
    intro request hmem
    simp only [twoConnections, List.mem_cons, List.not_mem_nil, or_false] at hmem
    rcases hmem with rfl | rfl
    · exact ⟨⟨by decide, by decide, by decide⟩, by decide, by decide⟩
    · exact ⟨⟨by decide, by decide, by decide⟩, by decide, by decide⟩
  rcases (exit_exact .initial).2 initiateBackupServerStructure initiateBackupServerStructure
    sessionOfA twoConnections result habsent (by decide) hsession hall
    (of_decide_eq_true hack) with ⟨exited, hexit, husers⟩
  exact ⟨result, exited, hall, hexit, husers⟩

end Exits

end Server
end DropboxSimulator
