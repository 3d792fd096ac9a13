import DropboxSimulator.Server.Channels
import DropboxSimulator.Server.Descriptors

/-!
# Connections — the descriptors that the table names, in any run

Nothing is asked of the requests here: a name may be empty and an id `-1`, and the table may hold
anything that the requests lead to.  Even so each request writes its descriptor to at most one
place, and an exit takes away those of one device.

* `Shared.Extends` : the connections stay, each with all that has been written to it;
* `Guarded`        : the descriptors of the table are distinct and belong to open connections of
  clients, so no exit closes the connection of a secondary server.
-/

namespace DropboxSimulator
namespace Server

open Library

/-! ## Descriptors in any table -/

section Tables

variable {users users' : Users} {servers : BackupServers} {name : Bytes} {deviceId : Int32}

theorem Users.device_update_name (u : Fin maxUsers) (p : DeviceIndex) :
    Users.device (Function.update users u { users u with name := name }) p = users.device p := by
  by_cases hp : p.1 = u
  · subst hp
    simp [Users.device]
  · simp [Users.device, hp]

theorem stored_update_name (u : Fin maxUsers) :
    stored (Function.update users u { users u with name := name }) = stored users := by
  funext place
  rw [stored, Users.device_update_name, stored]

theorem stored_setDevice {p : DeviceIndex} {dev : Device} (place : DeviceIndex × SocketField) :
    stored (users.setDevice p dev) place =
      if place.1 = p then dev.sockets.get place.2 else stored users place := by
  by_cases hp : place.1 = p
  · simp [stored, Users.setDevice_eq_put, Users.put_device, hp]
  · simp [stored, Users.setDevice_eq_put, Users.put_device, hp]

theorem stored_insertUser : stored (insertUser users name).1 = stored users := by
  unfold insertUser
  split
  · rfl
  · split
    · rfl
    · split
      · exact stored_update_name _
      · rfl

theorem stored_removeUserLoop (slots : List (Fin maxUsers)) :
    stored (removeUserLoop name slots users) = stored users := by
  induction slots generalizing users with
  | nil =>
      rfl
  | cons u rest ih =>
      unfold removeUserLoop
      split
      · split
        · rfl
        · exact ih.trans (stored_update_name u)
      · exact ih

theorem stored_insertDevice {code : Code}
    (h : insertDevice users name deviceId = some (users', code)) :
    stored users' = stored users := by
  unfold insertDevice at h
  split at h
  · cases h
    rfl
  · split at h
    · cases h
    · cases h
      rfl
    · split at h
      · cases h
      · cases h
        rfl
      · next p _ =>
          cases h
          funext place
          rw [stored_setDevice]
          split
          · next hp =>
              subst hp
              rfl
          · rfl

/-- `insert_socket` writes its descriptor to at most one place. -/
theorem stored_insertSocket {socket socketType : Int32}
    (h : insertSocket users name deviceId socket socketType = some users') :
    stored users' = stored users ∨
      ∃ place, stored users' = Function.update (stored users) place socket := by
  unfold insertSocket at h
  split at h
  · cases h
  · split at h
    · cases h
    · cases h
      exact Or.inl rfl
  · next p _ =>
      cases h
      have hset : (∀ field, ((users.device p).setSocket socketType socket).sockets.get field =
            (users.device p).sockets.get field) ∨
          ∃ field, ((users.device p).setSocket socketType socket).sockets.get =
            Function.update (users.device p).sockets.get field socket := by
        unfold Device.setSocket
        split
        · -- `T1`, `T2` and `T3` each have their field, any other type has none
          exact Or.inr ⟨.socket1, by funext field; cases field <;> rfl⟩
        · split
          · exact Or.inr ⟨.socket2, by funext field; cases field <;> rfl⟩
          · split
            · exact Or.inr ⟨.socket3, by funext field; cases field <;> rfl⟩
            · exact Or.inl fun _ => rfl
      -- another device keeps its descriptors either way
      rcases hset with hsame | ⟨field, hfield⟩
      · left
        funext place
        rw [stored_setDevice]
        split
        · next hp =>
            subst hp
            exact hsame _
        · rfl
      · refine Or.inr ⟨(p, field), ?_⟩
        funext place
        rcases place with ⟨q, field'⟩
        rw [stored_setDevice]
        by_cases hq : q = p
        · subst hq
          rw [if_pos rfl, hfield]
          by_cases hf : field' = field
          · subst hf
            rw [Function.update_self, Function.update_self]
          · rw [Function.update_of_ne hf, Function.update_of_ne (by simp [hf])]
            rfl
        · rw [if_neg hq, Function.update_of_ne (by simp [hq])]

/-- What a request does to the descriptors of the table. -/
theorem stored_acknowledge {con : Connection} {socket : Int32} {handled : Handled}
    (h : acknowledge users servers con socket = some handled) :
    stored handled.users = stored users ∨
      (handled.reply = some .ack ∧
        ∃ place, stored handled.users = Function.update (stored users) place socket) := by
  unfold acknowledge at h
  split at h
  · cases h
  · next users₁ hres =>
      cases h
      exact (stored_insertSocket hres).imp id fun hnew => ⟨rfl, hnew⟩

/-- A request changes at most one descriptor of the table, to its own, and then it is
acknowledged. -/
theorem stored_handle {con : Connection} {socket : Int32} {handled : Handled}
    (h : handleUserControllerStructure users servers con socket = some handled) :
    stored handled.users = stored users ∨
      (handled.reply = some .ack ∧
        ∃ place, stored handled.users = Function.update (stored users) place socket) := by
  have hinsert : ∀ users₁ code, insertUser users con.user = (users₁, code) →
      stored users₁ = stored users := by
    intro users₁ code hres
    have hsame : stored (insertUser users con.user).1 = stored users := stored_insertUser
    rwa [hres] at hsame
  -- the acknowledging branches, after the table has been through the insertions
  have hack : ∀ {users₁ users₂ : Users} {code code₂ : Code},
      insertUser users con.user = (users₁, code) →
      insertDevice users₁ con.user con.device = some (users₂, code₂) →
      acknowledge users₂ servers con socket = some handled →
      stored handled.users = stored users ∨
        (handled.reply = some .ack ∧
          ∃ place, stored handled.users = Function.update (stored users) place socket) := by
    intro users₁ users₂ code code₂ hres hdev hacked
    rw [← hinsert users₁ code hres, ← stored_insertDevice hdev]
    exact stored_acknowledge hacked
  unfold handleUserControllerStructure at h
  split at h
  · next users₁ hres =>
      cases h
      exact Or.inl (hinsert _ _ hres)
  · next users₁ hres =>
      cases h
      exact Or.inl (hinsert _ _ hres)
  · next users₁ hres =>
      split at h
      · cases h
      · next hdev =>
          cases h
          exact Or.inl ((stored_insertDevice hdev).trans (hinsert _ _ hres))
      · next hdev => exact hack hres hdev h
      · next hdev => exact hack hres hdev h
      · next hdev =>
          cases h
          exact Or.inl ((stored_insertDevice hdev).trans (hinsert _ _ hres))
  · next users₁ hres =>
      split at h
      · cases h
      · next users₂ hdev =>
          cases h
          left
          dsimp only
          split
          · exact (stored_removeUserLoop _).trans
              ((stored_insertDevice hdev).trans (hinsert _ _ hres))
          · exact (stored_insertDevice hdev).trans (hinsert _ _ hres)
      · next hdev => exact hack hres hdev h
  · next users₁ _ _ _ _ _ hres =>
      cases h
      exact Or.inl (hinsert _ _ hres)

/-- An exit takes the descriptors of one device out of the table, and closes these. -/
theorem stored_exit {arg : UserCurrentSocket} {exited : Exited}
    (h : exitCommand users servers arg = some exited) :
    ∃ p : DeviceIndex,
      (∀ place, stored exited.users place = if place.1 = p then -1 else stored users place) ∧
        ∀ fd ∈ exited.closed, ∃ field, fd = stored users (p, field) := by
  unfold exitCommand at h
  split at h
  · cases h
  · cases h
  · next p hdev =>
      have hremove : removeDevice users arg.userName arg.currentDevice =
          some (users.setDevice p .free, .success) := by
        simp [removeDevice, getUser_of_getDevice hdev, hdev]
      rw [hremove] at h
      cases h
      refine ⟨p, fun place => ?_, fun fd hfd => ?_⟩
      · -- a free device has `-1` in all three fields
        have hfree : stored (users.setDevice p .free) place =
            if place.1 = p then -1 else stored users place := by
          rw [stored_setDevice]
          split
          · cases place.2 <;> rfl
          · rfl
        dsimp only
        split
        · rw [removeUser, stored_removeUserLoop, hfree]
        · exact hfree
      · exact exists_stored_of_mem hfd

end Tables

/-! ## Connections that stay -/

namespace Shared

/-- There is a connection at `fd` whose record is as described. -/
def Hosts (sh : Shared) (fd : Int32) (P : Connection → Prop) : Prop :=
  ∃ peer, sh.peers fd = some peer ∧ P peer.record

/-- The same connections, each with all that had been written to it. -/
def Extends (sh sh' : Shared) : Prop :=
  ∀ fd, (sh.peers fd = none → sh'.peers fd = none) ∧
    ∀ peer, sh.peers fd = some peer →
      ∃ peer', sh'.peers fd = some peer' ∧ peer'.record = peer.record ∧
        peer.stream <+: peer'.stream

section Extension

variable {sh sh' : Shared} {fd : Int32} {bs : Bytes} {m : WireMessage}

theorem Extends.of_peers (h : sh'.peers = sh.peers) : sh.Extends sh' := by
  intro fd
  rw [h]
  exact ⟨id, fun peer hpeer => ⟨peer, hpeer, rfl, List.prefix_rfl⟩⟩

theorem Extends.trans {sh'' : Shared} (h : sh.Extends sh') (h' : sh'.Extends sh'') :
    sh.Extends sh'' := by
  intro fd
  refine ⟨fun hnone => (h' fd).1 ((h fd).1 hnone), fun peer hpeer => ?_⟩
  rcases (h fd).2 peer hpeer with ⟨peer', hpeer', hrecord, hstream⟩
  rcases (h' fd).2 peer' hpeer' with ⟨peer'', hpeer'', hrecord', hstream'⟩
  exact ⟨peer'', hpeer'', hrecord'.trans hrecord, hstream.trans hstream'⟩

theorem Extends.setPeer {old peer : Peer} (hold : sh.peers fd = some old)
    (hrecord : peer.record = old.record) (hstream : old.stream <+: peer.stream) :
    sh.Extends (sh.setPeer fd peer) := by
  intro fd'
  by_cases hfd : fd' = fd
  · subst hfd
    rw [hold, setPeer_peers_self]
    refine ⟨nofun, fun peer' hpeer' => ?_⟩
    cases hpeer'
    exact ⟨peer, rfl, hrecord, hstream⟩
  · rw [setPeer_peers_of_ne hfd]
    exact ⟨id, fun peer' hpeer' => ⟨peer', hpeer', rfl, List.prefix_rfl⟩⟩

theorem extends_write : sh.Extends (sh.write fd bs) := by
  unfold Shared.write
  split
  · exact .of_peers rfl
  · next peer hpeer =>
      split
      · exact .setPeer hpeer rfl (List.prefix_append _ _)
      · exact .of_peers rfl

theorem extends_begin : sh.Extends (sh.begin fd m) := by
  unfold Shared.begin
  split
  · exact .of_peers rfl
  · next peer hpeer => exact .setPeer hpeer rfl List.prefix_rfl

theorem write_isOpen {fd' : Int32} :
    ((sh.write fd bs).peers fd').map Peer.isOpen = (sh.peers fd').map Peer.isOpen := by
  unfold Shared.write
  split
  · rfl
  · next peer hpeer =>
      split
      · by_cases hfd : fd' = fd
        · subst hfd
          rw [setPeer_peers_self, hpeer]
          rfl
        · rw [setPeer_peers_of_ne hfd]
      · rfl

theorem begin_isOpen {fd' : Int32} :
    ((sh.begin fd m).peers fd').map Peer.isOpen = (sh.peers fd').map Peer.isOpen := by
  unfold Shared.begin
  split
  · rfl
  · next peer hpeer =>
      by_cases hfd : fd' = fd
      · subst hfd
        rw [setPeer_peers_self, hpeer]
        rfl
      · rw [setPeer_peers_of_ne hfd]

theorem extends_close : sh.Extends (sh.close fd) := by
  unfold Shared.close
  split
  · exact .of_peers rfl
  · next peer hpeer => exact .setPeer hpeer rfl List.prefix_rfl

theorem extends_closeAll (fds : List Int32) : sh.Extends (fds.foldl Shared.close sh) := by
  induction fds generalizing sh with
  | nil =>
      exact .of_peers rfl
  | cons fd rest ih =>
      exact extends_close.trans ih

/-- A connection was there before, with the same record. -/
theorem Extends.exists_old (h : sh.Extends sh') {peer : Peer} (hpeer : sh'.peers fd = some peer) :
    ∃ old, sh.peers fd = some old ∧ peer.record = old.record := by
  cases hold : sh.peers fd with
  | none =>
      rw [(h fd).1 hold] at hpeer
      cases hpeer
  | some old =>
      rcases (h fd).2 old hold with ⟨peer', hpeer', hrecord, _⟩
      rw [hpeer] at hpeer'
      cases hpeer'
      exact ⟨old, rfl, hrecord⟩

theorem Hosts.mono {P : Connection → Prop} (h : sh.Hosts fd P) (hext : sh.Extends sh') :
    sh'.Hosts fd P := by
  rcases h with ⟨peer, hpeer, hP⟩
  rcases (hext fd).2 peer hpeer with ⟨peer', hpeer', hrecord, _⟩
  exact ⟨peer', hpeer', by rwa [hrecord]⟩

theorem Secondary.hosts (h : sh.Secondary fd) :
    sh.Hosts fd fun record => record.packetType = packetServerConn :=
  h

theorem Hosts.imp {P Q : Connection → Prop} (h : sh.Hosts fd P) (hPQ : ∀ con, P con → Q con) :
    sh.Hosts fd Q := by
  rcases h with ⟨peer, hpeer, hP⟩
  exact ⟨peer, hpeer, hPQ _ hP⟩

/-- One descriptor has one record. -/
theorem Hosts.ne {fd' : Int32} {P Q : Connection → Prop} (h : sh.Hosts fd P)
    (h' : sh.Hosts fd' Q) (hPQ : ∀ con, P con → ¬Q con) : fd ≠ fd' := by
  rintro rfl
  rcases h with ⟨peer, hpeer, hP⟩
  rcases h' with ⟨peer', hpeer', hQ⟩
  rw [hpeer] at hpeer'
  cases hpeer'
  exact hPQ _ hP hQ

/-- A write reaches a connection while it is open. -/
theorem write_peers_self {peer : Peer} (hpeer : sh.peers fd = some peer) :
    (sh.write fd bs).peers fd =
      if peer.isOpen then
        some { peer with stream := peer.stream ++ [bs], unread := peer.unread ++ bs }
      else
        some peer := by
  simp only [Shared.write, hpeer]
  split
  · exact setPeer_peers_self
  · exact hpeer

/-- What closing leaves of a connection. -/
theorem closeAll_peers (fds : List Int32) {peer : Peer} (hpeer : sh.peers fd = some peer) :
    (fds.foldl Shared.close sh).peers fd =
      some { peer with isOpen := peer.isOpen && decide (fd ∉ fds) } := by
  induction fds generalizing sh peer with
  | nil =>
      simp [hpeer]
  | cons fd' rest ih =>
      rw [List.foldl_cons]
      by_cases hfd : fd = fd'
      · subst hfd
        have hclosed : (sh.close fd).peers fd = some { peer with isOpen := false } := by
          simp [Shared.close, hpeer]
        rw [ih hclosed]
        simp
      · rw [ih (by rw [close_peers_of_ne hfd, hpeer])]
        simp [hfd]

end Extension

end Shared

section Actions

variable {sh : Shared} {pc : Pc} {input : Input} {e : Effect Shared Pc}

theorem Acted.extends (h : Acted sh pc input e) : sh.Extends e.data := by
  cases h with
  | secondaryAcked | nackWritten | ackWritten | chunkWritten | fileCommand | exitCommand
  | otherCommand | restAcked | notificationChunk =>
      exact Shared.extends_write
  | messageBegun =>
      exact Shared.extends_begin.trans Shared.extends_write
  | threadCreated con socket input =>
      exact .of_peers (by rw [createThread_data])
  | sessionRemoved arg record exited hres =>
      -- the users change first, and then the connections are closed
      have husers : sh.Extends { sh with users := exited.users } := .of_peers rfl
      exact husers.trans (Shared.extends_closeAll _)
  | _ =>
      exact .of_peers rfl

/-- No action but an exit opens or closes a connection. -/
theorem Acted.isOpen (h : Acted sh pc input e) (hexit : ∀ arg, pc ≠ .exitRemove arg) (fd : Int32) :
    (e.data.peers fd).map Peer.isOpen = (sh.peers fd).map Peer.isOpen := by
  cases h with
  | secondaryAcked | nackWritten | ackWritten | chunkWritten | fileCommand | exitCommand
  | otherCommand | restAcked | notificationChunk =>
      exact Shared.write_isOpen
  | messageBegun =>
      exact Shared.write_isOpen.trans Shared.begin_isOpen
  | threadCreated con socket input =>
      rw [createThread_data]
  | sessionRemoved arg record exited hres =>
      exact absurd rfl (hexit arg)
  | _ =>
      rfl

/-- What an action does to the descriptors of the table: nothing, or it records that of a request
it goes on to acknowledge, or it takes away those of a device and closes them. -/
inductive Rewritten (sh : Shared) (pc : Pc) (e : Effect Shared Pc) : Prop
  | kept (hstored : stored e.data.users = stored sh.users)
      (hopen : ∀ fd, (e.data.peers fd).map Peer.isOpen = (sh.peers fd).map Peer.isOpen)
  | recorded (con : Connection) (socket : Int32) (place : DeviceIndex × SocketField)
      (hpc : pc = .handle con socket) (hnext : e.next = .admitAck con socket)
      (hpeers : e.data.peers = sh.peers)
      (hstored : stored e.data.users = Function.update (stored sh.users) place socket)
  | cleared (arg : UserCurrentSocket) (p : DeviceIndex) (sh' : Shared) (closed : List Int32)
      (hpc : pc = .exitRemove arg)
      (hstored : ∀ place, stored e.data.users place =
        if place.1 = p then -1 else stored sh.users place)
      (hpeers : sh'.peers = sh.peers) (hdata : e.data = closed.foldl Shared.close sh')
      (hclosed : ∀ fd ∈ closed, ∃ field, fd = stored sh.users (p, field))

theorem Acted.rewritten (h : Acted sh pc input e) : Rewritten sh pc e := by
  have hsame : (∀ arg, pc ≠ .exitRemove arg) → e.data.users = sh.users → Rewritten sh pc e :=
    fun hexit husers => .kept (by rw [husers]) (h.isOpen hexit)
  cases h with
  | admitted con socket input handled hres hack =>
      rcases stored_handle hres with hold | ⟨_, place, hnew⟩
      · exact .kept hold fun _ => rfl
      · exact .recorded con socket place rfl rfl rfl hnew
  | refused con socket input handled reply hres hreply hnack =>
      -- a change of the descriptors would have been acknowledged
      rcases stored_handle hres with hold | ⟨hack, _⟩
      · exact .kept hold fun _ => rfl
      · rw [hreply] at hack
        exact absurd (Option.some.inj hack) hnack
  | unanswered con socket input handled hres hreply =>
      rcases stored_handle hres with hold | ⟨hack, _⟩
      · exact .kept hold fun _ => rfl
      · rw [hreply] at hack
        cases hack
  | sessionRemoved arg record exited hres =>
      rcases stored_exit hres with ⟨p, hstored, hclosed⟩
      exact .cleared arg p { sh with users := exited.users } exited.closed rfl
        (by simpa using hstored) rfl rfl hclosed
  | threadCreated con socket input =>
      exact hsame nofun (by rw [createThread_data])
  | hungUp pc hreads =>
      exact .kept rfl fun _ => rfl
  | exitUndefined arg record hres =>
      exact .kept rfl fun _ => rfl
  | _ =>
      exact hsame nofun (by simp)

end Actions

/-! ## Descriptors in any run -/

/-- The connections of clients that are open. -/
def Shared.clients (sh : Shared) : Set Int32 :=
  {fd | ∃ peer, sh.peers fd = some peer ∧ peer.isOpen = true ∧ ¬peer.IsServer}

namespace Pc

/-- The connection whose request the thread has not handled yet. -/
def asking : Pc → Option Int32
  | .mediator socket => some socket
  | .userWait _ socket => some socket
  | .handle _ socket => some socket
  | _ => none

/-- The connection that the thread has found to be a client's. -/
def requested : Pc → Option Int32
  | .userWait _ socket => some socket
  | .handle _ socket => some socket
  | _ => none

theorem asking_of_requested {pc : Pc} {fd : Int32} (h : pc.requested = some fd) :
    pc.asking = some fd := by
  cases pc with
  | userWait | handle =>
      exact h
  | _ =>
      cases h

end Pc

/-- The open connections of clients whose requests have been handled. -/
def Process.settled (w : Process) : Set Int32 :=
  {fd | fd ∈ w.data.clients ∧ ∀ t ∈ w.threads, t.asking ≠ some fd}

/-- What holds of the descriptors between two steps of any run. -/
structure Guarded (w : Process) : Prop where
  owned : Owned w.data.users w.settled
  asking : ∀ pc ∈ w.threads, ∀ fd ∈ pc.asking,
    ∃ peer, w.data.peers fd = some peer ∧ peer.isOpen = true
  requested : ∀ pc ∈ w.threads, ∀ fd ∈ pc.requested, ¬w.data.Secondary fd
  once : ∀ fd, w.threads.countP (fun t => t.asking = some fd) ≤ 1
  negative : w.data.peers (-1) = none
  secondaries : ∀ fd peer, w.data.peers fd = some peer → peer.IsServer → peer.isOpen = true

section Guard

variable {w w' : Process} {i : Nat} {pc : Pc} {input : Input} {e : Effect Shared Pc}
variable {sh sh' : Shared} {semaphores : Mutex → Nat} {l : Label}

theorem Owned.congr {users users' : Users} {opened : Set Int32} (h : Owned users opened)
    (heq : stored users' = stored users) : Owned users' opened where
  injOn := by
    rw [heq]
    exact h.injOn
  isOpen := by
    rw [heq]
    exact h.isOpen

theorem Shared.Extends.secondary_iff (h : sh.Extends sh') (fd : Int32) :
    sh'.Secondary fd ↔ sh.Secondary fd := by
  constructor
  · rintro ⟨peer, hpeer, hyes⟩
    rcases h.exists_old hpeer with ⟨old, hold, hrecord⟩
    exact ⟨old, hold, by rwa [Peer.IsServer, ← hrecord]⟩
  · exact fun hs => hs.hosts.mono h

/-- A peer after steps that open or close nothing. -/
theorem exists_same (hext : sh.Extends sh')
    (hopen : ∀ fd, (sh'.peers fd).map Peer.isOpen = (sh.peers fd).map Peer.isOpen) {fd : Int32}
    {peer : Peer} (hpeer : sh.peers fd = some peer) :
    ∃ peer', sh'.peers fd = some peer' ∧ peer'.record = peer.record ∧
      peer'.isOpen = peer.isOpen := by
  rcases (hext fd).2 peer hpeer with ⟨peer', hpeer', hrecord, _⟩
  have hmap := hopen fd
  rw [hpeer, hpeer', Option.map_some, Option.map_some] at hmap
  exact ⟨peer', hpeer', hrecord, Option.some.inj hmap⟩

/-- What an effect needs to keep the invariant. -/
structure Discreet (w : Process) (pc : Pc) (e : Effect Shared Pc) : Prop where
  extended : w.data.Extends e.data
  rewritten : Rewritten w.data pc e
  asking : ∀ fd, e.next.asking = some fd → pc.asking = some fd
  requested : ∀ fd, e.next.requested = some fd → ¬w.data.Secondary fd
  spawned : ∀ t ∈ e.spawned, t.asking = none

/-- A thread that asks after the step did so before it, or another one did. -/
theorem exists_asking (hpc : w.threads[i]? = some pc) (hd : Discreet w pc e) {t : Pc} {fd : Int32}
    (ht : t ∈ (w.after semaphores i e).threads) (hfd : t.asking = some fd) :
    ∃ t₀ ∈ w.threads, t₀.asking = some fd := by
  rcases mem_set_append ht with hold | rfl | hmem
  · exact ⟨t, List.mem_of_mem_eraseIdx hold, hfd⟩
  · exact ⟨pc, List.mem_of_getElem? hpc, hd.asking fd hfd⟩
  · rw [hd.spawned t hmem] at hfd
    cases hfd

/-- What an exit closes is settled. -/
theorem Guarded.not_mem_closed (hg : Guarded w) {closed : List Int32} {p : DeviceIndex}
    (hclosed : ∀ fd ∈ closed, ∃ field, fd = stored w.data.users (p, field)) {fd : Int32}
    {peer : Peer} (hpeer : w.data.peers fd = some peer) (hfd : fd ∉ w.settled) : fd ∉ closed := by
  intro hmem
  rcases hclosed fd hmem with ⟨field, rfl⟩
  refine hfd (hg.owned.isOpen _ fun heq => ?_)
  rw [heq, hg.negative] at hpeer
  cases hpeer

theorem Guarded.owned_after (hg : Guarded w) (hpc : w.threads[i]? = some pc)
    (hd : Discreet w pc e) : Owned e.data.users (w.after semaphores i e).settled := by
  have hasking : ∀ {fd}, (∀ t ∈ w.threads, t.asking ≠ some fd) →
      ∀ t ∈ (w.after semaphores i e).threads, t.asking ≠ some fd := by
    intro fd hnone t ht hfd
    rcases exists_asking hpc hd ht hfd with ⟨t₀, ht₀, hfd₀⟩
    exact hnone t₀ ht₀ hfd₀
  cases hd.rewritten with
  | kept hstored hopen =>
      refine (hg.owned.congr hstored).mono ?_
      rintro fd ⟨⟨peer, hpeer, hyes, hclient⟩, hnone⟩
      rcases exists_same hd.extended hopen hpeer with ⟨peer', hpeer', hrecord, hopen'⟩
      refine ⟨⟨peer', hpeer', hopen'.trans hyes, ?_⟩, hasking hnone⟩
      rwa [Peer.IsServer, hrecord]
  | recorded con socket place hpcs hnext hpeers hstored =>
      subst hpcs
      have hmem := List.mem_of_getElem? hpc
      have hnew : socket ∉ w.settled := fun h => h.2 _ hmem rfl
      refine (hg.owned.store hnew hstored).mono ?_
      intro fd hfd
      rcases Set.mem_insert_iff.1 hfd with rfl | ⟨⟨peer, hpeer, hyes, hclient⟩, hnone⟩
      · -- the thread that asked for the descriptor was the only one
        rcases hg.asking _ hmem fd rfl with ⟨peer, hpeer, hyes⟩
        refine ⟨⟨peer, ?_, hyes, fun hserver => hg.requested _ hmem fd rfl ⟨peer, hpeer, hserver⟩⟩,
          fun t ht hfd => ?_⟩
        · exact (congrFun hpeers fd).trans hpeer
        · rcases List.mem_iff_getElem?.1 ht with ⟨j, hj⟩
          rcases getElem?_set_append hj with ⟨_, rfl⟩ | ⟨hne, hold⟩ | hspawned
          · rw [hnext] at hfd
            cases hfd
          · exact hne (eq_of_countP_le_one (hg.once fd) hold hpc (by simp [hfd])
              (by simp [Pc.asking]))
          · rw [hd.spawned t hspawned] at hfd
            cases hfd
      · exact ⟨⟨peer, (congrFun hpeers fd).trans hpeer, hyes, hclient⟩, hasking hnone⟩
  | cleared arg p sh' closed hpcs hstored hpeers hdata hclosed =>
      -- the descriptors of the device are out of the table before they are closed
      have hclear := hg.owned.clear hclosed
      refine (hclear.congr ?_).mono ?_
      · funext place
        rw [hstored, stored_clear]
      · rintro fd ⟨⟨⟨peer, hpeer, hyes, hclient⟩, hnone⟩, hnot⟩
        refine ⟨⟨peer, ?_, hyes, hclient⟩, hasking hnone⟩
        change e.data.peers fd = some peer
        rw [hdata, Shared.closeAll_peers_of_notMem closed hnot, hpeers, hpeer]

/-- A connection that is not settled stays as it is, apart from what is written to it. -/
theorem Guarded.unsettled_after (hg : Guarded w) (hd : Discreet w pc e) {fd : Int32} {peer : Peer}
    (hpeer : w.data.peers fd = some peer) (hfd : fd ∉ w.settled) :
    ∃ peer', e.data.peers fd = some peer' ∧ peer'.record = peer.record ∧
      peer'.isOpen = peer.isOpen := by
  cases hd.rewritten with
  | kept hstored hopen =>
      exact exists_same hd.extended hopen hpeer
  | recorded con socket place hpcs hnext hpeers hstored =>
      exact ⟨peer, (congrFun hpeers fd).trans hpeer, rfl, rfl⟩
  | cleared arg p sh' closed hpcs hstored hpeers hdata hclosed =>
      -- an exit closes only what the table has
      have hnot := hg.not_mem_closed hclosed hpeer hfd
      refine ⟨peer, ?_, rfl, rfl⟩
      rw [hdata, Shared.closeAll_peers_of_notMem closed hnot, hpeers, hpeer]

/-- A step of one thread keeps the invariant. -/
theorem Guarded.after (hg : Guarded w) (hpc : w.threads[i]? = some pc) (hd : Discreet w pc e) :
    Guarded (w.after semaphores i e) where
  owned := hg.owned_after hpc hd
  asking := by
    intro t ht fd hfd
    rcases exists_asking hpc hd ht hfd with ⟨t₀, ht₀, hfd₀⟩
    rcases hg.asking t₀ ht₀ fd hfd₀ with ⟨peer, hpeer, hyes⟩
    rcases hg.unsettled_after hd hpeer (fun h => h.2 t₀ ht₀ hfd₀) with ⟨peer', hpeer', _, hopen⟩
    exact ⟨peer', hpeer', hopen.trans hyes⟩
  requested := by
    intro t ht fd hfd hs
    -- no step makes a connection one of a secondary
    have hbefore : w.data.Secondary fd := (hd.extended.secondary_iff fd).1 hs
    rcases mem_set_append ht with hold | rfl | hmem
    · exact hg.requested t (List.mem_of_mem_eraseIdx hold) fd hfd hbefore
    · exact hd.requested fd hfd hbefore
    · have hasking := Pc.asking_of_requested hfd
      rw [hd.spawned t hmem] at hasking
      cases hasking
  once := by
    intro fd
    refine le_trans (countP_set_append_le hpc ?_) (hg.once fd)
    have hzero : e.spawned.countP (fun t => t.asking = some fd) = 0 :=
      countP_eq_zero_of_forall fun t ht => by simp [hd.spawned t ht]
    rw [hzero]
    by_cases hfd : e.next.asking = some fd
    · simp [hfd, hd.asking fd hfd]
    · simp [hfd]
  negative := (hd.extended (-1)).1 hg.negative
  secondaries := by
    intro fd peer hpeer hserver
    rcases hd.extended.exists_old hpeer with ⟨old, hold, hrecord⟩
    -- the connection of a secondary is never settled, so it is not closed
    have hserver' : old.IsServer := by rwa [Peer.IsServer, ← hrecord]
    have hfd : fd ∉ w.settled := by
      rintro ⟨⟨other, hother, _, hclient⟩, _⟩
      rw [hold] at hother
      cases hother
      exact hclient hserver'
    rcases hg.unsettled_after hd hold hfd with ⟨peer', hpeer', _, hopen⟩
    have hsame : peer = peer' := Option.some.inj (hpeer.symm.trans hpeer')
    rw [hsame, hopen]
    exact hg.secondaries fd old hold hserver'

theorem Acted.discreet (h : Acted w.data pc input e) : Discreet w pc e where
  extended := h.extends
  rewritten := h.rewritten
  asking := by
    intro fd hfd
    cases h with
    | userIdentified socket input peer hpeer htype =>
        exact hfd
    | threadCreated con socket input =>
        rcases createThread_next con socket w.data with hnext | hnext
        · rw [hnext] at hfd
          cases hfd
        · rw [hnext] at hfd
          cases hfd
    | replicated site m fd input =>
        cases site <;> cases hfd
    | sessionRemoved arg record exited hres =>
        dsimp only at hfd
        split at hfd <;> cases hfd
    | _ =>
        cases hfd
  requested := by
    intro fd hfd
    cases h with
    | userIdentified socket input peer hpeer htype =>
        cases hfd
        rintro ⟨peer', hpeer', hserver⟩
        rw [hpeer] at hpeer'
        cases hpeer'
        exact htype hserver
    | threadCreated con socket input =>
        rcases createThread_next con socket w.data with hnext | hnext
        · rw [hnext] at hfd
          cases hfd
        · rw [hnext] at hfd
          cases hfd
    | replicated site m fd input =>
        cases site <;> cases hfd
    | sessionRemoved arg record exited hres =>
        dsimp only at hfd
        split at hfd <;> cases hfd
    | _ =>
        cases hfd
  spawned := by
    intro t ht
    rcases h.spawned t ht with ⟨socket, rfl⟩ | ⟨arg, rfl⟩ <;> rfl

theorem discreet_semaphore (hg : Guarded w) (hpc : w.threads[i]? = some pc) {m : Mutex} {k : Pc}
    (hstep : Waited pc m k ∨ Posted pc m k) :
    Discreet w pc { data := w.data, next := k, spawned := [] } where
  extended := .of_peers rfl
  rewritten := .kept rfl fun _ => rfl
  asking := by
    intro fd hfd
    rcases hstep with hwait | hpost
    · cases hwait with
      | userWait con socket =>
          exact hfd
      | _ =>
          cases hfd
    · cases hpost <;> cases hfd
  requested := by
    intro fd hfd
    rcases hstep with hwait | hpost
    · cases hwait with
      | userWait con socket =>
          exact hg.requested _ (List.mem_of_getElem? hpc) fd hfd
      | _ =>
          cases hfd
    · cases hpost <;> cases hfd
  spawned := by simp

/-- A new connection. -/
theorem Guarded.accept (hg : Guarded w) {fd : Int32} {record : Connection}
    {fileSizeBuffer : CharArray 8} (hfd : 0 ≤ fd)
    (hclosed : ((w.data.peers fd).map Peer.isOpen).getD false = false) :
    Guarded
      { w with
        data := w.data.setPeer fd (Peer.accepted record fileSizeBuffer)
        threads := w.threads ++ [.mediator fd] } := by
  -- what is open is at another descriptor
  have hne : ∀ {fd' peer}, w.data.peers fd' = some peer → peer.isOpen = true → fd' ≠ fd := by
    rintro fd' peer hpeer hyes rfl
    rw [hpeer, Option.map_some, hyes] at hclosed
    cases hclosed
  have hnegative : fd ≠ -1 := by
    rintro rfl
    exact absurd hfd (by decide)
  refine ⟨hg.owned.mono ?_, ?_, ?_, fun fd' => ?_, ?_, ?_⟩
  · rintro fd' ⟨⟨peer, hpeer, hyes, hclient⟩, hnone⟩
    have hother := hne hpeer hyes
    refine ⟨⟨peer, (Shared.setPeer_peers_of_ne hother).trans hpeer, hyes, hclient⟩, fun t ht => ?_⟩
    rcases List.mem_append.1 ht with ht | ht
    · exact hnone t ht
    · rw [List.mem_singleton.1 ht]
      exact fun heq => hother (Option.some.inj heq).symm
  · intro t ht fd' hfd'
    rcases List.mem_append.1 ht with ht | ht
    · rcases hg.asking t ht fd' hfd' with ⟨peer, hpeer, hyes⟩
      exact ⟨peer, (Shared.setPeer_peers_of_ne (hne hpeer hyes)).trans hpeer, hyes⟩
    · rw [List.mem_singleton.1 ht] at hfd'
      cases hfd'
      exact ⟨_, Shared.setPeer_peers_self, rfl⟩
  · rintro t ht fd' hfd' ⟨peer, hpeer, hserver⟩
    rcases List.mem_append.1 ht with ht | ht
    · rcases hg.asking t ht fd' (Pc.asking_of_requested hfd') with ⟨old, hold, hyes⟩
      rw [Shared.setPeer_peers_of_ne (hne hold hyes)] at hpeer
      exact hg.requested t ht fd' hfd' ⟨peer, hpeer, hserver⟩
    · rw [List.mem_singleton.1 ht] at hfd'
      cases hfd'
  · refine countP_append_singleton_le_one (hg.once fd') fun hfd t ht => ?_
    -- a thread asks about an open connection, and `fd` was not open
    have heq : fd = fd' := by simpa [Pc.asking] using hfd
    subst heq
    rw [decide_eq_false_iff_not]
    intro hfd'
    rcases hg.asking t ht fd hfd' with ⟨peer, hpeer, hyes⟩
    exact hne hpeer hyes rfl
  · rw [Shared.setPeer_peers_of_ne hnegative.symm, hg.negative]
  · intro fd' peer hpeer hserver
    by_cases heq : fd' = fd
    · subst heq
      rw [Shared.setPeer_peers_self] at hpeer
      cases hpeer
      rfl
    · rw [Shared.setPeer_peers_of_ne heq] at hpeer
      exact hg.secondaries fd' peer hpeer hserver

/-- The peer of a connection reads. -/
theorem Guarded.read (hg : Guarded w) (hext : w.data.Extends sh')
    (hopen : ∀ fd, (sh'.peers fd).map Peer.isOpen = (w.data.peers fd).map Peer.isOpen)
    (husers : sh'.users = w.data.users) : Guarded { w with data := sh' } where
  owned := by
    refine (hg.owned.congr (by rw [husers])).mono ?_
    rintro fd ⟨⟨peer, hpeer, hyes, hclient⟩, hnone⟩
    rcases exists_same hext hopen hpeer with ⟨peer', hpeer', hrecord, hopen'⟩
    refine ⟨⟨peer', hpeer', hopen'.trans hyes, ?_⟩, hnone⟩
    rwa [Peer.IsServer, hrecord]
  asking := by
    intro t ht fd hfd
    rcases hg.asking t ht fd hfd with ⟨peer, hpeer, hyes⟩
    rcases exists_same hext hopen hpeer with ⟨peer', hpeer', _, hopen'⟩
    exact ⟨peer', hpeer', hopen'.trans hyes⟩
  requested := fun t ht fd hfd hs => hg.requested t ht fd hfd ((hext.secondary_iff fd).1 hs)
  once := hg.once
  negative := (hext (-1)).1 hg.negative
  secondaries := by
    intro fd peer hpeer hserver
    rcases hext.exists_old hpeer with ⟨old, hold, hrecord⟩
    rcases exists_same hext hopen hold with ⟨peer', hpeer', _, hopen'⟩
    have hsame : peer = peer' := Option.some.inj (hpeer.symm.trans hpeer')
    rw [hsame, hopen']
    exact hg.secondaries fd old hold (by rwa [Peer.IsServer, ← hrecord])

theorem Guarded.step (hg : Guarded w) (h : w.step l = some w') : Guarded w' := by
  cases Process.step_cases h with
  | @semaphore i input pc k m hpc hstep semaphores =>
      have hafter : Guarded (w.after semaphores i { data := w.data, next := k, spawned := [] }) :=
        hg.after hpc (discreet_semaphore hg hpc hstep)
      simpa [Process.after] using hafter
  | act hpc hacted =>
      exact hg.after hpc hacted.discreet
  | env hsurrounded =>
      cases hsurrounded with
      | accepted fd record fileSizeBuffer hfd hclosed =>
          exact hg.accept hfd hclosed
      | read fd peer move hpeer hmove =>
          rw [List.append_nil]
          refine hg.read (.setPeer hpeer rfl List.prefix_rfl) (fun fd' => ?_) rfl
          by_cases heq : fd' = fd
          · subst heq
            rw [Shared.setPeer_peers_self, hpeer]
            rfl
          · rw [Shared.setPeer_peers_of_ne heq]

theorem Guarded.initial : Guarded Process.initial where
  owned := owned_initiate _
  asking := fun _ ht => by cases ht
  requested := fun _ ht => by cases ht
  once := fun _ => Nat.zero_le 1
  negative := rfl
  secondaries := fun _ _ hpeer => by cases hpeer

/-- In every run the descriptors of the table are distinct and belong to open connections of
clients, and no connection of a secondary is closed. -/
theorem Reaches.guarded {ok : Process → Label → Prop}
    (h : Reaches Process.step ok Process.initial w) : Guarded w :=
  h.invariant .initial fun _ _ _ hg _ hl => hg.step hl

/-- The connection of a secondary stays, open and with all that has been written to it. -/
theorem Guarded.secondary_step (hg : Guarded w) (h : w.step l = some w') {fd : Int32} {peer : Peer}
    (hpeer : w.data.peers fd = some peer) (hserver : peer.IsServer) :
    ∃ peer', w'.data.peers fd = some peer' ∧ peer'.record = peer.record ∧
      peer.stream <+: peer'.stream := by
  cases Process.step_cases h with
  | semaphore hpc hstep semaphores =>
      exact ⟨peer, hpeer, rfl, List.prefix_rfl⟩
  | act hpc hacted =>
      exact (hacted.extends fd).2 peer hpeer
  | env hsurrounded =>
      cases hsurrounded with
      | accepted fd' record fileSizeBuffer hfd hclosed =>
          have hne : fd ≠ fd' := by
            rintro rfl
            rw [hpeer, Option.map_some, hg.secondaries fd peer hpeer hserver] at hclosed
            cases hclosed
          exact ⟨peer, (Shared.setPeer_peers_of_ne hne).trans hpeer, rfl, List.prefix_rfl⟩
      | read fd' old move hold hmove =>
          have hext : w.data.Extends (w.data.setPeer fd'
              { old with
                reader := move.state
                unread := move.unread
                received := old.received ++ move.noted }) :=
            .setPeer hold rfl List.prefix_rfl
          exact (hext fd).2 peer hpeer

end Guard

end Server
end DropboxSimulator
