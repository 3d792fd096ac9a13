import DropboxSimulator.Server.Sections
import DropboxSimulator.Server.Threads

/-!
# Descriptors — who is told of a file command

The loops of `uploadFileCommand` and `deleteFileCommand` tell a device apart from the originator
by two keys at once: the device id, and the descriptor of the inotify connection.  That is right
only if no descriptor is recorded twice, while `accept` hands out numbers again once they have been
closed.

* `Held`  : the table together with the open descriptors, over connections and exits;
* `Owned` : the descriptors of the table are distinct and open.

The rest follows the loop of one command thread in such a state, write by write.
-/

namespace DropboxSimulator
namespace Server

open Library

/-! ## The descriptors of the table -/

/-- The descriptor fields of a device. -/
inductive SocketField
  | socket1
  | socket2
  | socket3
  deriving DecidableEq

def Sockets.get (s : Sockets) : SocketField → Int32
  | .socket1 => s.socket1
  | .socket2 => s.socket2
  | .socket3 => s.socket3

/-- The field that a connection of the given type is recorded in. -/
def fieldOf (socketType : UInt64) : SocketField :=
  if socketType = socketT1 then .socket1 else if socketType = socketT2 then .socket2 else .socket3

/-- The descriptor at a place of the table. -/
def stored (users : Users) (place : DeviceIndex × SocketField) : Int32 :=
  (users.device place.1).sockets.get place.2

/-- The descriptors of the table, `-1` aside, are at one place each, and open. -/
structure Owned (users : Users) (opened : Set Int32) : Prop where
  injOn : Set.InjOn (stored users) {place | stored users place ≠ -1}
  isOpen : ∀ place, stored users place ≠ -1 → stored users place ∈ opened

/-- The tables that connections and exits lead to, each with the open descriptors.  A connection
comes in on a descriptor that is not open; `exitCommand` closes those of its device. -/
inductive Held : Users → Set Int32 → Prop
  | initial (opened : Set Int32) : Held initiateUserControllerStructure opened
  | connect {users : Users} {opened : Set Int32} (servers : BackupServers) (con : Connection)
      (socket : Int32) (handled : Handled) :
      Held users opened → ValidRequest con → 0 ≤ socket → socket ∉ opened →
      handleUserControllerStructure users servers con socket = some handled →
      Held handled.users (insert socket opened)
  | exit {users : Users} {opened : Set Int32} (servers : BackupServers) (arg : UserCurrentSocket)
      (exited : Exited) :
      Held users opened → Registered users arg →
      exitCommand users servers arg = some exited →
      Held exited.users (opened \ {fd | fd ∈ exited.closed})

section Ownership

variable {users users' : Users} {opened : Set Int32} {servers : BackupServers} {con : Connection}
variable {socket : Int32} {arg : UserCurrentSocket} {p : DeviceIndex}

theorem Held.reachable (h : Held users opened) : Reachable users := by
  induction h with
  | initial opened =>
      exact .initial
  | connect servers con socket handled _ hvalid _ _ hres ih =>
      exact .connect servers con socket handled ih hvalid hres
  | exit servers arg exited _ hreg hres ih =>
      exact .exit servers arg exited ih hreg hres

theorem Sockets.get_record (s : Sockets) (hv : ValidRequest con) (field : SocketField) :
    (s.record con.socketType socket).get field =
      if field = fieldOf con.socketType then socket else s.get field := by
  rcases hv.socketType with h | h | h <;> cases field <;>
    simp [Sockets.record, Sockets.get, fieldOf, h, socketT1, socketT2, socketT3]

/-- An acknowledged request writes its descriptor to one place. -/
theorem stored_connected (hv : ValidRequest con) :
    stored (users.put p con.user (users.connected p con socket)) =
      Function.update (stored users) (p, fieldOf con.socketType) socket := by
  funext place
  rcases place with ⟨q, field⟩
  by_cases hq : q = p
  · subst hq
    simp [stored, Users.put_device, hv.sockets_connected, Sockets.get_record _ hv,
      Function.update_apply]
  · simp [stored, Users.put_device, hq]

/-- The three descriptors of a device are those at its places. -/
theorem exists_stored_of_mem {fd : Int32} (h : fd ∈ [(users.device p).socket1,
    (users.device p).socket2, (users.device p).socket3]) :
    ∃ field, fd = stored users (p, field) := by
  simp only [List.mem_cons, List.not_mem_nil, or_false] at h
  rcases h with rfl | rfl | rfl
  · exact ⟨.socket1, rfl⟩
  · exact ⟨.socket2, rfl⟩
  · exact ⟨.socket3, rfl⟩

/-- The device that leaves takes its three descriptors with it. -/
theorem stored_clear (place : DeviceIndex × SocketField) :
    stored (users.clear p) place = if place.1 = p then -1 else stored users place := by
  rcases place with ⟨q, field⟩
  by_cases hq : q = p
  · subst hq
    cases field <;> simp [stored, Users.clear, Users.put_device, Device.free, Device.sockets,
      Sockets.get]
  · simp [stored, Users.clear, Users.put_device, hq]

theorem Owned.mono {opened' : Set Int32} (h : Owned users opened) (hsub : opened ⊆ opened') :
    Owned users opened' where
  injOn := h.injOn
  isOpen := fun place hne => hsub (h.isOpen place hne)

theorem Owned.place_eq (h : Owned users opened) {a b : DeviceIndex × SocketField}
    (heq : stored users a = stored users b) (hb : stored users b ≠ -1) : a = b := by
  have ha : stored users a ≠ -1 := heq.trans_ne hb
  exact h.injOn ha hb heq

/-- A descriptor that was not open is nowhere in the table, so it may be written to any place. -/
theorem Owned.store (h : Owned users opened) (hnew : socket ∉ opened)
    {place : DeviceIndex × SocketField}
    (hstored : stored users' = Function.update (stored users) place socket) :
    Owned users' (insert socket opened) where
  injOn := by
    intro a ha b hb hab
    rw [Set.mem_ofPred_eq, hstored] at ha hb
    rw [hstored] at hab
    by_cases hap : a = place
    · by_cases hbp : b = place
      · exact hap.trans hbp.symm
      · subst hap
        rw [Function.update_of_ne hbp] at hb hab
        rw [Function.update_self] at hab
        exact absurd (hab ▸ h.isOpen b hb) hnew
    · by_cases hbp : b = place
      · subst hbp
        rw [Function.update_of_ne hap] at ha hab
        rw [Function.update_self] at hab
        exact absurd (hab ▸ h.isOpen a ha) hnew
      · rw [Function.update_of_ne hap] at ha hab
        rw [Function.update_of_ne hbp] at hb hab
        exact h.injOn ha hb hab
  isOpen := by
    intro a ha
    rw [hstored] at ha ⊢
    by_cases hap : a = place
    · subst hap
      rw [Function.update_self]
      exact Set.mem_insert _ _
    · rw [Function.update_of_ne hap] at ha ⊢
      exact Set.mem_insert_of_mem _ (h.isOpen a ha)

/-- What an exit closes belongs to the device that leaves, and to no other. -/
theorem Owned.clear (h : Owned users opened) {closed : List Int32}
    (hclosed : ∀ fd ∈ closed, ∃ field, fd = stored users (p, field)) :
    Owned (users.clear p) (opened \ {fd | fd ∈ closed}) where
  injOn := by
    intro a ha b hb hab
    rw [Set.mem_ofPred_eq, stored_clear] at ha hb
    rw [stored_clear, stored_clear] at hab
    by_cases hap : a.1 = p
    · simp [hap] at ha
    · by_cases hbp : b.1 = p
      · simp [hbp] at hb
      · rw [if_neg hap] at ha hab
        rw [if_neg hbp] at hb hab
        exact h.injOn ha hb hab
  isOpen := by
    intro a ha
    rw [stored_clear] at ha ⊢
    by_cases hap : a.1 = p
    · simp [hap] at ha
    · rw [if_neg hap] at ha ⊢
      refine ⟨h.isOpen a ha, fun hmem => ?_⟩
      rcases hclosed _ hmem with ⟨field, hfield⟩
      -- the same number at two places is the same place
      have hplace : a = (p, field) :=
        h.injOn ha (by rw [Set.mem_ofPred_eq, ← hfield]; exact ha) hfield
      exact hap (by rw [hplace])

theorem owned_initiate (opened : Set Int32) : Owned initiateUserControllerStructure opened := by
  have hfree : ∀ place, stored initiateUserControllerStructure place = -1 := by
    intro place
    rcases place with ⟨q, field⟩
    cases field <;> rfl
  constructor
  · intro a ha
    exact absurd (hfree a) ha
  · intro a ha
    exact absurd (hfree a) ha

/-- Connections and exits keep the descriptors of the table distinct and open. -/
theorem Held.owned (h : Held users opened) : Owned users opened := by
  induction h with
  | initial opened =>
      exact owned_initiate opened
  | connect servers con socket handled hheld hvalid _ hnew hres ih =>
      have ho : Outcome _ servers con socket :=
        handle_outcome hheld.reachable.wellFormed hvalid.user hvalid.device
      cases ho with
      | nack1 hout _ _ =>
          rw [hout] at hres
          cases hres
          exact ih.mono (Set.subset_insert _ _)
      | nack3 hout _ _ _ =>
          rw [hout] at hres
          cases hres
          exact ih.mono (Set.subset_insert _ _)
      | ack p hout _ _ =>
          rw [hout] at hres
          cases hres
          exact ih.store hnew (stored_connected hvalid)
  | exit servers arg exited hheld hreg hres ih =>
      have hw := hheld.reachable.wellFormed
      rcases hw.exists_ref_of_registered hreg with ⟨hname, p, hdev⟩
      rw [exitCommand_of_ref hw.names hname hdev] at hres
      cases hres
      exact ih.clear fun fd hmem => exists_stored_of_mem hmem

end Ownership

/-! ## Several writes in a row -/

namespace Shared

/-- Writes to one descriptor. -/
def writeAll (sh : Shared) (fd : Int32) (writes : List Bytes) : Shared :=
  writes.foldl (fun sh bs => sh.write fd bs) sh

/-- Writes to one descriptor after another. -/
def sendAll (sh : Shared) (sends : List (Int32 × List Bytes)) : Shared :=
  sends.foldl (fun sh send => sh.writeAll send.1 send.2) sh

section Writes

variable {sh : Shared} {fd fd' : Int32} {writes : List Bytes}

@[simp] theorem writeAll_users : (sh.writeAll fd writes).users = sh.users := by
  induction writes generalizing sh with
  | nil =>
      rfl
  | cons bs rest ih =>
      rw [writeAll, List.foldl_cons]
      exact ih.trans write_users

theorem writeAll_peers_of_ne (h : fd' ≠ fd) : (sh.writeAll fd writes).peers fd' = sh.peers fd' := by
  induction writes generalizing sh with
  | nil =>
      rfl
  | cons bs rest ih =>
      rw [writeAll, List.foldl_cons]
      exact ih.trans (write_peers_of_ne h)

theorem writeAll_stream (writes : List Bytes) {peer : Peer} (hpeer : sh.peers fd = some peer)
    (hopen : peer.isOpen = true) :
    ((sh.writeAll fd writes).peers fd).map Peer.stream = some (peer.stream ++ writes) := by
  induction writes generalizing sh peer with
  | nil =>
      simp [writeAll, hpeer]
  | cons bs rest ih =>
      rw [writeAll, List.foldl_cons, write_of_open hpeer hopen]
      have hpeer' : (sh.setPeer fd
          { peer with stream := peer.stream ++ [bs], unread := peer.unread ++ bs }).peers fd =
            some { peer with stream := peer.stream ++ [bs], unread := peer.unread ++ bs } :=
        setPeer_peers_self
      have hrest := ih hpeer' hopen
      rw [writeAll] at hrest
      rw [hrest, List.append_assoc, List.singleton_append]

theorem sendAll_peers_of_notMem {sends : List (Int32 × List Bytes)}
    (h : ∀ send ∈ sends, fd ≠ send.1) : (sh.sendAll sends).peers fd = sh.peers fd := by
  induction sends generalizing sh with
  | nil =>
      rfl
  | cons send rest ih =>
      rw [sendAll, List.foldl_cons]
      exact (ih fun s hs => h s (List.mem_cons_of_mem _ hs)).trans
        (writeAll_peers_of_ne (h send List.mem_cons_self))

@[simp] theorem sendAll_users (sends : List (Int32 × List Bytes)) :
    (sh.sendAll sends).users = sh.users := by
  induction sends generalizing sh with
  | nil =>
      rfl
  | cons send rest ih =>
      rw [sendAll, List.foldl_cons]
      exact ih.trans writeAll_users

end Writes

end Shared

/-! ## The loop over the devices -/

/-- A thread acts while no other does: what is shared, and where it stands. -/
def actAlone (s : Shared × Pc) (input : Input) : Option (Shared × Pc) :=
  match program s.2 with
  | .act f => (f s.1 input).map fun e => (e.data, e.next)
  | _ => none

/-- What the loop sends for the devices it has still to visit: the descriptor and the writes for
each device that is told. -/
inductive Tells (arg : UserCurrentSocket) (c : FileCommand) (users : Users) (user : Fin maxUsers) :
    List (Fin maxDevices) → List (Int32 × List Bytes) → Prop
  | done : Tells arg c users user [] []
  | told {d : Fin maxDevices} {rest : List (Fin maxDevices)} {stale : CommandPacket}
      {writes : List Bytes} {sends : List (Int32 × List Bytes)}
      (hother : Notifies arg (users.device (user, d)))
      (hwrites : c.notification stale = some writes) :
      Tells arg c users user rest sends →
      Tells arg c users user (d :: rest) (((users.device (user, d)).socket3, writes) :: sends)
  | skipped {d : Fin maxDevices} {rest : List (Fin maxDevices)} {sends : List (Int32 × List Bytes)}
      (hself : ¬Notifies arg (users.device (user, d))) :
      Tells arg c users user rest sends → Tells arg c users user (d :: rest) sends

section Loop

variable {sh sh' : Shared} {arg : UserCurrentSocket} {c : FileCommand} {users : Users}
variable {user : Fin maxUsers} {devices : List (Fin maxDevices)} {fd : Int32}
variable {pending : List Bytes} {inputs : List Input} {sends : List (Int32 × List Bytes)}

/-- A loop that has come to its end has sent what it should, and has only written. -/
theorem tells_of_run
    (h : run actAlone (sh, .notify arg c user devices fd pending) inputs =
      some (sh', .notifyPost arg c)) :
    ∃ sends, Tells arg c sh.users user devices sends ∧
      sh' = (sh.writeAll fd pending).sendAll sends := by
  induction inputs generalizing sh devices fd pending with
  | nil =>
      cases h
  | cons input rest ih =>
      rw [run_cons, Option.bind_eq_some_iff] at h
      rcases h with ⟨⟨sh₁, pc₁⟩, hact, hrest⟩
      cases pending with
      | cons bs pending =>
          cases hact
          rcases ih hrest with ⟨sends, htells, rfl⟩
          exact ⟨sends, by simpa using htells, rfl⟩
      | nil =>
          cases devices with
          | nil =>
              -- the loop is over, and nothing but `sem_post` comes next
              cases hact
              cases rest with
              | nil =>
                  cases hrest
                  exact ⟨[], .done, rfl⟩
              | cons input' rest' =>
                  rw [run_cons] at hrest
                  cases hrest
          | cons d devices =>
              rcases Option.map_eq_some_iff.1 hact with ⟨e, he, heq⟩
              have hacted : Acted sh (.notify arg c user (d :: devices) fd []) input e :=
                acted_notifyDevice he
              cases hacted with
              | hungUp _ hreads =>
                  cases hreads
              | notificationBegun _ _ _ _ _ _ stale writes hother hwrites =>
                  cases heq
                  rcases ih hrest with ⟨sends, htells, rfl⟩
                  exact ⟨_, .told hother hwrites htells, rfl⟩
              | notificationOverflow _ _ _ _ _ _ stale hother hwrites =>
                  cases heq
                  cases rest with
                  | nil =>
                      cases hrest
                  | cons input' rest' =>
                      rw [run_cons] at hrest
                      cases hrest
              | deviceSkipped _ _ _ _ _ _ stale hself =>
                  cases heq
                  rcases ih hrest with ⟨sends, htells, rfl⟩
                  exact ⟨sends, .skipped hself htells, rfl⟩

/-- The loop comes to its end when no notification overflows its packet. -/
theorem run_of_fits (arg : UserCurrentSocket) (user : Fin maxUsers)
    (hfits : ∀ stale, (c.notification stale).isSome) (sh : Shared)
    (devices : List (Fin maxDevices)) (fd : Int32) (pending : List Bytes) :
    ∃ inputs sh', run actAlone (sh, .notify arg c user devices fd pending) inputs =
      some (sh', .notifyPost arg c) := by
  induction devices generalizing sh fd pending with
  | nil =>
      induction pending generalizing sh with
      | nil =>
          exact ⟨[.go], sh, rfl⟩
      | cons bs pending ih =>
          rcases ih (sh.write fd bs) with ⟨inputs, sh', hrun⟩
          exact ⟨.go :: inputs, sh', by rw [run_cons]; exact hrun⟩
  | cons d devices ih =>
      induction pending generalizing sh with
      | nil =>
          rcases Option.isSome_iff_exists.1 (hfits emptyPacket) with ⟨writes, hwrites⟩
          by_cases hother : Notifies arg (sh.users.device (user, d))
          · rcases ih sh (sh.users.device (user, d)).socket3 writes with ⟨inputs, sh', hrun⟩
            refine ⟨.stack emptyPacket :: inputs, sh', ?_⟩
            rw [run_cons]
            simpa [actAlone, program, notifyDevice, hother, hwrites] using hrun
          · rcases ih sh (-1) [] with ⟨inputs, sh', hrun⟩
            refine ⟨.stack emptyPacket :: inputs, sh', ?_⟩
            rw [run_cons]
            simpa [actAlone, program, notifyDevice, hother] using hrun
      | cons bs pending ihp =>
          rcases ihp (sh.write fd bs) with ⟨inputs, sh', hrun⟩
          exact ⟨.go :: inputs, sh', by rw [run_cons]; exact hrun⟩

/-- Only devices that pass the test are written to. -/
theorem Tells.mem (h : Tells arg c users user devices sends) :
    ∀ send ∈ sends, ∃ d ∈ devices, Notifies arg (users.device (user, d)) ∧
      send.1 = (users.device (user, d)).socket3 := by
  induction h with
  | done =>
      simp
  | @told d rest stale writes sends hother hwrites _ ih =>
      intro send hsend
      rcases List.mem_cons.1 hsend with rfl | hsend
      · exact ⟨d, List.mem_cons_self, hother, rfl⟩
      · rcases ih send hsend with ⟨e, he, hnotifies, hfd⟩
        exact ⟨e, List.mem_cons_of_mem _ he, hnotifies, hfd⟩
  | skipped hself _ ih =>
      intro send hsend
      rcases ih send hsend with ⟨e, he, hnotifies, hfd⟩
      exact ⟨e, List.mem_cons_of_mem _ he, hnotifies, hfd⟩

/-- A device that passes the test, and whose descriptor no other device has, gets the notification
once. -/
theorem Tells.stream (h : Tells arg c users user devices sends) (hnodup : devices.Nodup)
    {d : Fin maxDevices} (hd : d ∈ devices) (hnotifies : Notifies arg (users.device (user, d)))
    (hfd : (users.device (user, d)).socket3 = fd)
    (halone : ∀ e, (users.device (user, e)).socket3 = fd → e = d) {peer : Peer}
    (hpeer : sh.peers fd = some peer) (hopen : peer.isOpen = true) :
    ∃ stale writes, c.notification stale = some writes ∧
      ((sh.sendAll sends).peers fd).map Peer.stream = some (peer.stream ++ writes) := by
  induction h generalizing sh with
  | done =>
      cases hd
  | @told e rest stale writes sends hother hwrites htells ih =>
      rcases List.nodup_cons.1 hnodup with ⟨hnot, hnodup'⟩
      by_cases hed : e = d
      · -- this round writes to the device, and no later one does
        subst hed
        refine ⟨stale, writes, hwrites, ?_⟩
        rw [Shared.sendAll, List.foldl_cons]
        dsimp only
        rw [hfd, ← Shared.writeAll_stream writes hpeer hopen]
        refine congrArg _ (Shared.sendAll_peers_of_notMem fun send hsend heq => ?_)
        rcases htells.mem send hsend with ⟨e', he', _, hfd'⟩
        have he : e' = e := halone e' (hfd'.symm.trans heq.symm)
        exact hnot (he ▸ he')
      · have hne : fd ≠ (users.device (user, e)).socket3 := fun heq => hed (halone e heq.symm)
        have hmem : d ∈ rest := (List.mem_cons.1 hd).resolve_left fun heq => hed heq.symm
        rw [Shared.sendAll, List.foldl_cons]
        refine ih hnodup' hmem ?_
        rw [Shared.writeAll_peers_of_ne hne]
        exact hpeer
  | @skipped e rest sends hself htells ih =>
      have hed : d ≠ e := fun heq => hself (heq ▸ hnotifies)
      exact ih (List.nodup_cons.1 hnodup).2 ((List.mem_cons.1 hd).resolve_left hed) hpeer

end Loop

/-! ## Who is told -/

section Telling

variable {users : Users} {opened : Set Int32} {arg : UserCurrentSocket} {c : FileCommand}
variable {sh : Shared} {socks : Sockets}

/-- Where the map finds a device of the user whose slot is known. -/
theorem Clean.place_of_registry (hc : Clean users) {name : Bytes} {deviceId : Int32}
    (h : registry users name deviceId = some socks) {user : Fin maxUsers}
    (huser : getUser users name = some user) :
    ∃ d, (users.device (user, d)).id = deviceId ∧ deviceId ≠ -1 ∧
      (users.device (user, d)).sockets = socks := by
  rcases hc.registry_eq_some_iff.1 h with ⟨hname, hid, p, hpn, hpd, hps⟩
  have hp : p.1 = user := by
    have hu := (hc.getUser_eq_some_iff hname).1 huser
    exact hc.names p.1 user (hpn.trans hu.symm) (by rwa [hpn])
  subst hp
  exact ⟨p.2, hpd, hid, hps⟩

/-- Where a thread's descriptor is in the entry of its own device, every other device of its user
passes the test. -/
theorem Owned.notifies (h : Owned users opened) {own : DeviceIndex} {field : SocketField}
    (hown : stored users (own, field) = arg.currentSocket) (hsocket : arg.currentSocket ≠ -1)
    (hownId : (users.device own).id = arg.currentDevice) {d : Fin maxDevices}
    (hid : (users.device (own.1, d)).id ≠ -1)
    (hother : (users.device (own.1, d)).id ≠ arg.currentDevice) :
    Notifies arg (users.device (own.1, d)) := by
  refine ⟨hid, fun heq => hother ?_, hother.symm⟩
  -- the second connection of a device is not the thread's, unless the device is its own
  have hplace : ((own.1, d), SocketField.socket2) = (own, field) :=
    h.place_eq (heq.symm.trans hown.symm) (hown.trans_ne hsocket)
  rw [(Prod.mk.inj hplace).1]
  exact hownId

/-- From the lookup on, the loop goes over the devices of the user that was found. -/
theorem tells_of_lookup {user : Fin maxUsers} (huser : getUser sh.users arg.userName = some user)
    {inputs : List Input} {sh' : Shared}
    (h : run actAlone (sh, .notifyLookup arg c) inputs = some (sh', .notifyPost arg c)) :
    ∃ sends, Tells arg c sh.users user (List.finRange maxDevices) sends ∧
      sh' = sh.sendAll sends := by
  cases inputs with
  | nil =>
      cases h
  | cons input rest =>
      rw [run_cons] at h
      simp only [actAlone, program, huser, Option.map_some, Option.bind_some] at h
      exact tells_of_run h

theorem run_of_lookup {user : Fin maxUsers} (huser : getUser sh.users arg.userName = some user)
    (hfits : ∀ stale, (c.notification stale).isSome) :
    ∃ inputs sh', run actAlone (sh, .notifyLookup arg c) inputs =
      some (sh', .notifyPost arg c) := by
  rcases run_of_fits arg user hfits sh (List.finRange maxDevices) (-1) [] with ⟨inputs, sh', hrun⟩
  refine ⟨.go :: inputs, sh', ?_⟩
  rw [run_cons]
  simpa only [actAlone, program, huser, Option.map_some, Option.bind_some] using hrun

/-- A device that passes the test is told once, on its notification connection. -/
theorem Tells.told_once {user : Fin maxUsers} {sends : List (Int32 × List Bytes)}
    (htells : Tells arg c sh.users user (List.finRange maxDevices) sends)
    (howned : Owned sh.users opened) {d : Fin maxDevices}
    (hnotifies : Notifies arg (sh.users.device (user, d)))
    (hthree : (sh.users.device (user, d)).socket3 ≠ -1) {peer : Peer}
    (hpeer : sh.peers (sh.users.device (user, d)).socket3 = some peer)
    (hopen : peer.isOpen = true) :
    ∃ stale writes, c.notification stale = some writes ∧
      ((sh.sendAll sends).peers (sh.users.device (user, d)).socket3).map Peer.stream =
        some (peer.stream ++ writes) := by
  have halone : ∀ e, (sh.users.device (user, e)).socket3 = (sh.users.device (user, d)).socket3 →
      e = d := by
    intro e he
    have hplace : ((user, e), SocketField.socket3) = ((user, d), SocketField.socket3) :=
      howned.place_eq he hthree
    exact (Prod.mk.inj (Prod.mk.inj hplace).1).2
  exact htells.stream (List.nodup_finRange _) (List.mem_finRange d) hnotifies rfl halone hpeer hopen

/-- A place of the table that is not that of a device to be told is left alone. -/
theorem Tells.untouched {user : Fin maxUsers} {sends : List (Int32 × List Bytes)}
    (htells : Tells arg c sh.users user (List.finRange maxDevices) sends)
    (howned : Owned sh.users opened) {place : DeviceIndex × SocketField}
    (hfd : stored sh.users place ≠ -1)
    (hplace : ∀ d, Notifies arg (sh.users.device (user, d)) → place.1 ≠ (user, d)) :
    (sh.sendAll sends).peers (stored sh.users place) = sh.peers (stored sh.users place) := by
  refine Shared.sendAll_peers_of_notMem fun send hsend heq => ?_
  rcases htells.mem send hsend with ⟨d, _, hnotifies, hsent⟩
  have hsame : stored sh.users ((user, d), .socket3) = stored sh.users place :=
    hsent.symm.trans heq.symm
  have hd : ((user, d), SocketField.socket3) = place := howned.place_eq hsame hfd
  exact hplace d hnotifies (congrArg Prod.fst hd).symm

end Telling

/-- The console connection of device `1` of user `a`, and the notification connection of device
`2`. -/
def twoDevices : Handled :=
  (handleUserControllerStructure oneSession.users initiateBackupServerStructure
    (oneLetterRequest 97 2 socketT3) 8).get (by decide)

theorem held_twoDevices : Held twoDevices.users (insert 8 (insert 7 ∅)) :=
  .connect initiateBackupServerStructure (oneLetterRequest 97 2 socketT3) 8 twoDevices
    (.connect initiateBackupServerStructure (oneLetterRequest 97 1 socketT1) 7 oneSession
      (.initial ∅) ⟨by decide, by decide, by decide⟩ (by decide) (by simp) (Option.some_get _).symm)
    ⟨by decide, by decide, by decide⟩ (by decide) (by simp) (Option.some_get _).symm

/-- What the threads share when the two connections are open. -/
def twoDevicesShared : Shared where
  users := twoDevices.users
  backupServers := initiateBackupServerStructure
  peers := fun fd =>
    if fd = 7 ∨ fd = 8 then some (Peer.accepted (oneLetterRequest 97 1 socketT1) emptySizeBuffer)
    else none

end Server
end DropboxSimulator
