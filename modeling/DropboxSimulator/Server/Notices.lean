import DropboxSimulator.Server.Connections
import DropboxSimulator.Server.Mutex

/-!
# Notices — what the notification connections of devices are written

A device is told of the changes of the others on its third connection, by the loops of
`uploadFileCommand` and `deleteFileCommand` under `mutex_user_structure`.  The same semaphore
covers the admission of the connection up to its `ack`, and the exit that closes it.  So the
connection is written `ack` and then whole notifications, whichever threads send them.

* `Notification` : the bytes of one notification;
* `Engaged`      : what a thread knows of the connections it is going to use;
* `Peer.Told`    : how far a notification connection has come;
* `Notices`      : the invariant.

Nothing is asked of the requests, and the table may hold anything that they lead to.
-/

namespace DropboxSimulator
namespace Server

open Library

/-! ## What threads know of connections -/

/-- A notification connection of a device. -/
def IsT3 (con : Connection) : Prop :=
  con.packetType ≠ packetServerConn ∧ con.socketType = socketT3

/-- What a sending site knows of the record of its connection. -/
def Site.knows : Site → Option (Int32 × (Connection → Prop))
  | .admission con socket =>
      some (socket, fun record => record = con ∧ con.packetType ≠ packetServerConn)
  | .exit => none
  | .file arg => some (arg.currentSocket, fun record => ¬IsT3 record)

namespace Pc

/-- The connection that the thread has still to answer. -/
def answering : Pc → Option Int32
  | .mediator socket => some socket
  | .userWait _ socket => some socket
  | .handle _ socket => some socket
  | .refuse socket _ => some socket
  | .admitAck _ socket => some socket
  | _ => none

/-- What the thread knows of the record of its connection: a mediator has read it, and command
threads serve no notification connection. -/
def knows : Pc → Option (Int32 × (Connection → Prop))
  | .mediator socket => some (socket, fun _ => True)
  | .userWait con socket => (Site.admission con socket).knows
  | .handle con socket => (Site.admission con socket).knows
  | .refuse socket reply => some (socket, fun _ => reply ≠ .ack)
  | .admitAck con socket => (Site.admission con socket).knows
  | .message site _ _ _ _ => site.knows
  | .replicate site _ _ _ _ => site.knows
  | .userPost con socket => (Site.admission con socket).knows
  | .userCreate con socket => (Site.admission con socket).knows
  | .command arg => (Site.file arg).knows
  | .receive arg _ _ => (Site.file arg).knows
  | .notifyWait arg _ => (Site.file arg).knows
  | .notifyLookup arg _ => (Site.file arg).knows
  | .notify arg _ _ _ _ _ => (Site.file arg).knows
  | .notifyPost arg _ => (Site.file arg).knows
  | .replicateWait arg _ => (Site.file arg).knows
  | .replicatePost arg => (Site.file arg).knows
  | _ => none

/-- What the thread has still to write of a notification it has begun. -/
def notifying (fd : Int32) : Pc → List Bytes
  | .notify _ _ _ _ fd' pending => if fd' = fd then pending else []
  | _ => []

theorem holds_of_notifying {pc : Pc} {fd : Int32} (h : pc.notifying fd ≠ []) :
    pc.holds .user = true := by
  cases pc with
  | notify arg c user devices fd' pending =>
      rfl
  | _ =>
      exact absurd rfl h

end Pc

/-- What a thread knows of the connections it is going to use. -/
structure Engaged (sh : Shared) (pc : Pc) : Prop where
  knows : ∀ fd P, pc.knows = some (fd, P) → sh.Hosts fd P
  notifying : ∀ fd, pc.notifying fd ≠ [] → fd ≠ -1 → sh.Hosts fd fun _ => True

section Engagement

variable {sh sh' : Shared} {pc k : Pc} {m : Mutex} {input : Input} {e : Effect Shared Pc}

theorem Engaged.mono (h : Engaged sh pc) (hext : sh.Extends sh') : Engaged sh' pc where
  knows := fun fd P hknows => (h.knows fd P hknows).mono hext
  notifying := fun fd hne hfd => (h.notifying fd hne hfd).mono hext

theorem Engaged.semaphore (h : Engaged sh pc) (hstep : Waited pc m k ∨ Posted pc m k) :
    Engaged sh k := by
  have hquiet : ∀ fd, k.notifying fd = [] := by
    intro fd
    rcases hstep with hwait | hpost
    · cases hwait <;> rfl
    · cases hpost <;> rfl
  refine ⟨?_, fun fd hne _ => absurd (hquiet fd) hne⟩
  rcases hstep with hwait | hpost
  · cases hwait with
    | serverWait | exitWait =>
        exact nofun
    | _ =>
        exact h.knows
  · cases hpost with
    | serverPost | exitPost =>
        exact nofun
    | _ =>
        exact h.knows

/-- A command thread serves a console or an inotify connection. -/
theorem createThread_socketType {con : Connection} {socket : Int32} :
    ∀ t ∈ (createThread con socket sh).spawned, con.socketType ≠ socketT3 := by
  intro t ht
  unfold createThread at ht
  split at ht
  · dsimp only at ht
    split at ht
    · next htype =>
        rcases htype.2 with h | h <;> rw [h] <;> decide
    · cases ht
  · cases ht

/-- What a thread knows after an action, and what the threads it starts know. -/
theorem Acted.engaged (hpc : Engaged sh pc)
    (htable : ∀ place, stored sh.users place ≠ -1 →
      sh.Hosts (stored sh.users place) fun _ => True)
    (h : Acted sh pc input e) :
    Engaged e.data e.next ∧ ∀ t ∈ e.spawned, Engaged e.data t := by
  have hpc' := hpc.mono h.extends
  have hquiet : ∀ {t : Pc}, t.knows = none → (∀ fd, t.notifying fd = []) → Engaged e.data t := by
    intro t hknows hnotifying
    exact ⟨by simp [hknows], fun fd hne _ => absurd (hnotifying fd) hne⟩
  cases h with
  | userIdentified socket input peer hpeer htype =>
      refine ⟨⟨fun fd P hP => ?_, fun fd hne _ => absurd rfl hne⟩, by simp⟩
      cases hP
      exact ⟨peer, hpeer, rfl, htype⟩
  | refused con socket input handled reply hres hreply hnack =>
      refine ⟨⟨fun fd P hP => ?_, fun fd hne _ => absurd rfl hne⟩, by simp⟩
      cases hP
      exact Shared.Hosts.imp (hpc'.knows _ _ rfl) fun _ _ => hnack
  | threadCreated con socket input =>
      refine ⟨?_, fun t ht => ?_⟩
      · rcases createThread_next con socket sh with hnext | hnext
        · exact hquiet (by rw [hnext]; rfl) (by rw [hnext]; exact fun _ => rfl)
        · exact hquiet (by rw [hnext]; rfl) (by rw [hnext]; exact fun _ => rfl)
      · have htype := createThread_socketType t ht
        rw [createThread_spawned con socket sh t ht]
        refine ⟨fun fd P hP => ?_, fun fd hne _ => absurd rfl hne⟩
        cases hP
        refine Shared.Hosts.imp (hpc'.knows socket _ rfl) fun record hrecord hT3 => htype ?_
        rw [← hrecord.1]
        exact hT3.2
  | serverCreated socket input =>
      refine ⟨hquiet rfl fun _ => rfl, fun t ht => ?_⟩
      rw [List.mem_singleton.1 ht]
      exact hquiet rfl fun _ => rfl
  | replicated site msg fd input =>
      refine ⟨?_, by simp⟩
      cases site with
      | exit =>
          exact hquiet rfl fun _ => rfl
      | _ =>
          exact ⟨hpc'.knows, fun fd hne _ => absurd rfl hne⟩
  | sessionRemoved arg record exited hres =>
      refine ⟨?_, by simp⟩
      dsimp only
      split
      · exact hquiet rfl fun _ => rfl
      · exact hquiet rfl fun _ => rfl
  | notificationBegun arg c user d rest fd stale writes hother hwrites =>
      refine ⟨⟨hpc'.knows, fun fd' hne hfd => ?_⟩, by simp⟩
      by_cases hfd' : (sh.users.device (user, d)).socket3 = fd'
      · subst hfd'
        exact htable ((user, d), .socket3) hfd
      · simp [Pc.notifying, hfd'] at hne
  | notificationChunk arg c user devices fd bs pending input =>
      refine ⟨⟨hpc'.knows, fun fd' hne hfd => hpc'.notifying fd' ?_ hfd⟩, by simp⟩
      by_cases hfd' : fd = fd'
      · simp [Pc.notifying, hfd']
      · simp [Pc.notifying, hfd'] at hne
  | lookedUp arg c input user huser =>
      exact ⟨⟨hpc'.knows, by simp [Pc.notifying]⟩, by simp⟩
  | deviceSkipped arg c user d rest fd stale hself =>
      exact ⟨⟨hpc'.knows, by simp [Pc.notifying]⟩, by simp⟩
  | serverIdentified | serverInserted | secondaryAcked | hungUp | nackWritten | admitUndefined
  | messageOverflow | lookupFailed | notificationOverflow | exitUndefined | exitCommand =>
      exact ⟨hquiet rfl fun _ => rfl, by simp⟩
  | _ =>
      exact ⟨⟨hpc'.knows, fun fd hne _ => absurd rfl hne⟩, by simp⟩

end Engagement

/-! ## Notifications -/

/-- The bytes of one notification: a packet with its command, and for an upload the size and the
content after it. -/
inductive Notification : Bytes → Prop
  | upload (packet : CommandPacket) (payload : Bytes) (hcommand : packet.command = cmdUpload)
      (hlength : payload.length < 2 ^ 31) :
      Notification (packet.bytes ++ (uint64Bytes (UInt64.ofNat payload.length) ++ payload))
  | delete (packet : CommandPacket) (hcommand : packet.command = cmdDelete) :
      Notification packet.bytes

theorem FileCommand.notification_flatten {c : FileCommand} {stale : CommandPacket}
    {writes : List Bytes} (hc : c.Readable) (hwrites : c.notification stale = some writes) :
    Notification writes.flatten := by
  have hpacket : ∀ packet : CommandPacket, (sendPacket packet).flatten = packet.bytes := by
    intro packet
    exact flatten_sendLargePayloadToSocket (by simp [commandPacketSize])
  cases c with
  | upload fileName payload =>
      rcases Option.map_eq_some_iff.1 hwrites with ⟨info, _, rfl⟩
      have hpayload := flatten_sendLargePayloadToSocket hc.2
      rw [sendUpload, List.flatten_append, List.flatten_cons, hpacket, hpayload]
      exact .upload _ _ rfl hc.2
  | delete command =>
      cases hwrites
      rw [hpacket]
      exact .delete command hc

/-- How far a notification connection has come while `pending` is still to be written to it: it is
still to be answered, or has been refused, or has been written `ack` and then whole notifications,
the last one up to `pending`. -/
inductive Peer.Told (peer : Peer) (pending : List Bytes) : Prop
  | unanswered (hopen : peer.isOpen = true) (hstream : peer.stream = []) (hpending : pending = [])
  | refused (reply : Reply) (hnack : reply ≠ .ack) (hstream : peer.stream = [reply.bytes])
      (hpending : pending = [])
  | acknowledged (notifications : List Bytes) (hall : ∀ n ∈ notifications, Notification n)
      (hack : peer.stream.head? = some ackBytes)
      (hwritten : peer.stream.flatten ++ (if peer.isOpen then pending.flatten else []) =
        ackBytes ++ notifications.flatten)

section Telling

variable {peer : Peer} {pending : List Bytes}

/-- A notification under way goes to an acknowledged connection. -/
theorem Peer.Told.acked_of_pending (h : peer.Told pending) (hpending : pending ≠ []) :
    peer.stream.head? = some ackBytes := by
  cases h with
  | unanswered _ _ hnone =>
      exact absurd hnone hpending
  | refused _ _ _ hnone =>
      exact absurd hnone hpending
  | acknowledged _ _ hack _ =>
      exact hack

theorem Peer.Told.pending_of_unanswered (h : peer.Told pending) (hstream : peer.stream = []) :
    pending = [] := by
  by_contra hne
  have hack := h.acked_of_pending hne
  rw [hstream] at hack
  cases hack

/-- What has been written to an acknowledged connection. -/
theorem Peer.Told.of_acked (h : peer.Told pending) (hack : peer.stream.head? = some ackBytes) :
    ∃ notifications : List Bytes, (∀ n ∈ notifications, Notification n) ∧
      peer.stream.flatten ++ (if peer.isOpen then pending.flatten else []) =
        ackBytes ++ notifications.flatten := by
  cases h with
  | unanswered _ hstream _ =>
      rw [hstream] at hack
      cases hack
  | refused reply hnack hstream _ =>
      rw [hstream] at hack
      cases reply with
      | ack =>
          exact absurd rfl hnack
      | _ =>
          exact absurd hack (by decide)
  | acknowledged notifications hall _ hwritten =>
      exact ⟨notifications, hall, hwritten⟩

theorem Peer.Told.of_same {new : Peer} (h : peer.Told pending) (hopen : new.isOpen = peer.isOpen)
    (hstream : new.stream = peer.stream) : new.Told pending := by
  cases h with
  | unanswered hopen' hstream' hpending =>
      exact .unanswered (hopen.trans hopen') (hstream.trans hstream') hpending
  | refused reply hnack hstream' hpending =>
      exact .refused reply hnack (hstream.trans hstream') hpending
  | acknowledged notifications hall hack hwritten =>
      rw [← hstream, ← hopen] at hwritten
      exact .acknowledged notifications hall (hstream ▸ hack) hwritten

/-- A notification begins. -/
theorem Peer.Told.begin {writes : List Bytes} (h : peer.Told [])
    (hack : peer.stream.head? = some ackBytes) (hnotification : Notification writes.flatten) :
    peer.Told writes := by
  rcases h.of_acked hack with ⟨notifications, hall, hwritten⟩
  cases hopen : peer.isOpen with
  | false =>
      -- nothing reaches a connection that has been closed
      rw [hopen] at hwritten
      exact .acknowledged notifications hall hack (by simpa [hopen] using hwritten)
  | true =>
      refine .acknowledged (notifications ++ [writes.flatten]) ?_ hack ?_
      · intro n hn
        rcases List.mem_append.1 hn with hn | hn
        · exact hall n hn
        · rw [List.mem_singleton.1 hn]
          exact hnotification
      · rw [hopen] at hwritten
        simp only [if_true, List.flatten_nil, List.append_nil] at hwritten
        simp [hopen, hwritten]

/-- The next chunk of a notification is written, if the connection is open. -/
theorem Peer.Told.write {bs : Bytes} (h : peer.Told (bs :: pending)) :
    Peer.Told
      (if peer.isOpen then
        { peer with stream := peer.stream ++ [bs], unread := peer.unread ++ bs }
      else
        peer) pending := by
  have hack := h.acked_of_pending (by simp)
  rcases h.of_acked hack with ⟨notifications, hall, hwritten⟩
  cases hopen : peer.isOpen with
  | false =>
      exact .acknowledged notifications hall hack (by simpa [hopen] using hwritten)
  | true =>
      refine .acknowledged notifications hall ?_ ?_
      · simp [hack]
      · simpa [hopen] using hwritten

/-- The connection is closed between two notifications. -/
theorem Peer.Told.close (h : peer.Told []) (hack : peer.stream.head? = some ackBytes)
    (isOpen : Bool) : Peer.Told { peer with isOpen := isOpen } [] := by
  rcases h.of_acked hack with ⟨notifications, hall, hwritten⟩
  exact .acknowledged notifications hall hack (by simpa using hwritten)

end Telling

/-! ## The invariant -/

/-- The descriptor has a connection, and if that is a notification connection it has been
acknowledged, or the thread that recorded it is about to do so. -/
def Recorded (w : Process) (fd : Int32) : Prop :=
  ∃ peer, w.data.peers fd = some peer ∧
    (IsT3 peer.record →
      peer.stream.head? = some ackBytes ∨ ∃ con, Pc.admitAck con fd ∈ w.threads)

/-- What holds of the notification connections between two steps. -/
structure Notices (w : Process) : Prop where
  servers : ∀ i, (w.data.backupServers i).id ≠ -1 →
    w.data.Secondary (w.data.backupServers i).socket
  attached : ∀ pc ∈ w.threads, Attached w.data pc
  engaged : ∀ pc ∈ w.threads, Engaged w.data pc
  negative : w.data.peers (-1) = none
  once : ∀ fd, w.threads.countP (fun t => t.answering = some fd) ≤ 1
  unanswered : ∀ pc ∈ w.threads, ∀ fd ∈ pc.answering, ∀ peer, w.data.peers fd = some peer →
    IsT3 peer.record → peer.isOpen = true ∧ peer.stream = []
  table : ∀ place, stored w.data.users place ≠ -1 → Recorded w (stored w.data.users place)
  told : ∀ fd peer, w.data.peers fd = some peer → IsT3 peer.record →
    peer.Told (w.threads.flatMap (Pc.notifying fd))

/-- What an action does to notification connections: nothing, or it answers one, or it begins or
goes on with a notification, or it closes those of a device. -/
inductive Serves (sh : Shared) (pc : Pc) (e : Effect Shared Pc) : Prop
  | elsewhere (hpeers : ∀ fd, sh.Hosts fd IsT3 → e.data.peers fd = sh.peers fd)
      (hnotifying : ∀ fd, e.next.notifying fd = pc.notifying fd)
  | answered (socket : Int32) (reply : Reply) (hanswering : pc.answering = some socket)
      (hnext : e.next.answering = none) (hspawned : e.spawned = [])
      (hdata : e.data = sh.write socket reply.bytes)
      (hnotifying : ∀ fd, e.next.notifying fd = pc.notifying fd)
  | begun (place : DeviceIndex × SocketField) (writes : List Bytes)
      (huser : pc.holds .user = true) (hanswering : pc.answering = none)
      (hnone : ∀ fd, pc.notifying fd = []) (hdata : e.data = sh)
      (hnotification : Notification writes.flatten)
      (hnotifying : ∀ fd, e.next.notifying fd = if stored sh.users place = fd then writes else [])
  | chunk (fd : Int32) (bs : Bytes) (pending : List Bytes) (huser : pc.holds .user = true)
      (hpc : ∀ fd', pc.notifying fd' = if fd = fd' then bs :: pending else [])
      (hdata : e.data = sh.write fd bs)
      (hnotifying : ∀ fd', e.next.notifying fd' = if fd = fd' then pending else [])
  | closed (sh' : Shared) (fds : List Int32) (huser : pc.holds .user = true)
      (hanswering : pc.answering = none) (hnone : ∀ fd, pc.notifying fd = [])
      (hpeers : sh'.peers = sh.peers) (hdata : e.data = fds.foldl Shared.close sh')
      (hfds : ∀ fd ∈ fds, ∃ place, stored sh.users place = fd)
      (hnotifying : ∀ fd, e.next.notifying fd = [])

section Serving

variable {sh : Shared} {pc : Pc} {input : Input} {e : Effect Shared Pc}

theorem Serves.of_same (hpeers : e.data.peers = sh.peers)
    (hnotifying : ∀ fd, e.next.notifying fd = pc.notifying fd) : Serves sh pc e :=
  .elsewhere (fun fd _ => by rw [hpeers]) hnotifying

/-- A write to the connection of a secondary, of a console or of an inotify watcher. -/
theorem Serves.of_write {fd : Int32} {bs : Bytes} {P : Connection → Prop} (hfd : sh.Hosts fd P)
    (hP : ∀ con, P con → ¬IsT3 con) (hdata : e.data = sh.write fd bs)
    (hnotifying : ∀ fd, e.next.notifying fd = pc.notifying fd) : Serves sh pc e := by
  refine .elsewhere (fun fd' hT3 => ?_) hnotifying
  have hne : fd' ≠ fd := (hfd.ne hT3 hP).symm
  rw [hdata]
  exact Shared.write_peers_of_ne hne

theorem not_isT3_of_server {con : Connection} (h : con.packetType = packetServerConn) :
    ¬IsT3 con := fun hT3 => hT3.1 h

theorem Acted.serves (hattached : Attached sh pc) (hengaged : Engaged sh pc)
    (h : Acted sh pc input e) : Serves sh pc e := by
  have hsession : ∀ arg, pc.knows = (Site.file arg).knows →
      sh.Hosts arg.currentSocket fun record => ¬IsT3 record :=
    fun arg hknows => hengaged.knows _ _ hknows
  cases h with
  | secondaryAcked socket input =>
      exact .of_write (hattached.registering socket rfl).hosts (fun _ => not_isT3_of_server) rfl
        fun _ => rfl
  | nackWritten socket reply input =>
      exact .answered socket reply rfl rfl rfl rfl fun _ => rfl
  | ackWritten con socket input =>
      exact .answered socket .ack rfl rfl rfl rfl fun _ => rfl
  | chunkWritten site m slots fd bs pending input =>
      exact .of_write (hattached.sending fd (by simp [Pc.sending])).hosts
        (fun _ => not_isT3_of_server) rfl fun _ => rfl
  | messageBegun site m slots fd writes input =>
      have hsecondary : sh.Hosts fd fun record => record.packetType = packetServerConn :=
        hattached.beginning fd rfl
      refine .elsewhere (fun fd' hT3 => ?_) fun _ => rfl
      have hne : fd' ≠ fd := (hsecondary.ne hT3 fun _ => not_isT3_of_server).symm
      rw [Shared.write_peers_of_ne hne, Shared.begin_peers_of_ne hne]
  | fileCommand | exitCommand | otherCommand | restAcked =>
      exact .of_write (hsession _ rfl) (fun _ => id) rfl fun _ => rfl
  | replicated site m fd input =>
      refine .of_same rfl fun fd => ?_
      cases site <;> rfl
  | threadCreated con socket input =>
      refine .of_same (by rw [createThread_data]) fun fd => ?_
      rcases createThread_next con socket sh with hnext | hnext <;> rw [hnext] <;> rfl
  | lookedUp arg c input user huser =>
      exact .of_same rfl (by simp [Pc.notifying])
  | deviceSkipped arg c user d rest fd stale hself =>
      exact .of_same rfl (by simp [Pc.notifying])
  | notificationBegun arg c user d rest fd stale writes hother hwrites =>
      exact .begun ((user, d), .socket3) writes rfl rfl (by simp [Pc.notifying]) rfl
        (FileCommand.notification_flatten hattached.sound.2 hwrites) fun _ => rfl
  | notificationChunk arg c user devices fd bs pending input =>
      exact .chunk fd bs pending rfl (fun _ => rfl) rfl fun _ => rfl
  | notificationOverflow | notified =>
      exact .of_same rfl (by simp [Pc.notifying])
  | sessionRemoved arg record exited hres =>
      rcases stored_exit hres with ⟨p, _, hclosed⟩
      refine .closed { sh with users := exited.users } exited.closed rfl rfl (fun _ => rfl) rfl rfl
        (fun fd hfd => ?_) fun fd => ?_
      · rcases hclosed fd hfd with ⟨field, hfield⟩
        exact ⟨(p, field), hfield.symm⟩
      · dsimp only
        split <;> simp [Pc.notifying]
  | hungUp pc hreads =>
      exact .of_same rfl fun fd => by cases pc <;> first | rfl | cases hreads
  | _ =>
      exact .of_same rfl fun _ => rfl

/-- No action adds a thread that has still to answer a connection. -/
theorem Acted.answering_le (h : Acted sh pc input e) (fd : Int32) :
    (if e.next.answering = some fd then 1 else 0) +
      e.spawned.countP (fun t => t.answering = some fd) ≤
        if pc.answering = some fd then 1 else 0 := by
  cases h with
  | threadCreated con socket input =>
      have hspawned : ∀ t ∈ (createThread con socket sh).spawned,
          decide (t.answering = some fd) = false := by
        intro t ht
        rw [createThread_spawned con socket sh t ht]
        rfl
      rw [countP_eq_zero_of_forall hspawned]
      rcases createThread_next con socket sh with hnext | hnext <;> simp [hnext, Pc.answering]
  | replicated site m fd input =>
      cases site <;> simp [Site.after, Pc.answering]
  | sessionRemoved arg record exited hres =>
      dsimp only
      split <;> simp [Pc.answering]
  | _ =>
      simp [Pc.answering]

end Serving

section Update

variable {w : Process} {i : Nat} {pc : Pc} {e : Effect Shared Pc} {semaphores : Mutex → Nat}

/-- What an effect on the threads and the connections leaves as it should be. -/
structure Courteous (w : Process) (pc : Pc) (e : Effect Shared Pc) : Prop where
  extended : w.data.Extends e.data
  servers : ∀ i, (e.data.backupServers i).id ≠ -1 →
    e.data.Secondary (e.data.backupServers i).socket
  attached : Attached e.data e.next ∧ ∀ t ∈ e.spawned, Attached e.data t
  engaged : Engaged e.data e.next ∧ ∀ t ∈ e.spawned, Engaged e.data t
  answering : ∀ fd, (if e.next.answering = some fd then 1 else 0) +
    e.spawned.countP (fun t => t.answering = some fd) ≤ if pc.answering = some fd then 1 else 0
  notifying : ∀ t ∈ e.spawned, ∀ fd, t.notifying fd = []
  serves : Serves w.data pc e
  rewritten : Rewritten w.data pc e
  admitAck : ∀ con socket, pc = .admitAck con socket → e.data = w.data.write socket ackBytes

/-- A thread that holds `mutex_user_structure` is the only one that notifies. -/
theorem solo_notifying (hb : Balanced Pc.holds w) (hpc : w.threads[i]? = some pc)
    (huser : pc.holds .user = true) (fd : Int32) : Solo (Pc.notifying fd) w.threads i := by
  intro j t hj hji
  by_contra hne
  exact hji (hb.exclusive hj hpc (Pc.holds_of_notifying hne) huser)

/-- While another thread is inside a section, what is recorded has been acknowledged. -/
theorem Recorded.acked (hb : Balanced Pc.holds w) (hpc : w.threads[i]? = some pc)
    (huser : pc.holds .user = true) (hanswering : pc.answering = none) {fd : Int32}
    (h : Recorded w fd) {peer : Peer} (hpeer : w.data.peers fd = some peer)
    (hT3 : IsT3 peer.record) : peer.stream.head? = some ackBytes := by
  rcases h with ⟨peer', hpeer', hack⟩
  rw [hpeer] at hpeer'
  cases hpeer'
  rcases hack hT3 with hack | ⟨con, hmem⟩
  · exact hack
  · rcases List.mem_iff_getElem?.1 hmem with ⟨j, hj⟩
    have hij : j = i := hb.exclusive hj hpc rfl huser
    subst hij
    rw [hj] at hpc
    cases hpc
    cases hanswering

/-- The same of what the table records. -/
theorem Notices.acked_of_stored (hi : Notices w) (hb : Balanced Pc.holds w)
    (hpc : w.threads[i]? = some pc) (huser : pc.holds .user = true)
    (hanswering : pc.answering = none) {place : DeviceIndex × SocketField} {peer : Peer}
    (hpeer : w.data.peers (stored w.data.users place) = some peer) (hT3 : IsT3 peer.record) :
    peer.stream.head? = some ackBytes := by
  have hplace : stored w.data.users place ≠ -1 := by
    intro heq
    rw [heq, hi.negative] at hpeer
    cases hpeer
  exact (hi.table place hplace).acked hb hpc huser hanswering hpeer hT3

/-- A thread that answers a connection had the task before the step, or took it over. -/
theorem exists_answering (hc : Courteous w pc e) {t : Pc} {fd : Int32}
    (ht : t ∈ (w.after semaphores i e).threads) (hfd : t.answering = some fd) :
    (∃ j, j ≠ i ∧ w.threads[j]? = some t) ∨
      (pc.answering = some fd ∧ (t = e.next ∨ t ∈ e.spawned)) := by
  have hle := hc.answering fd
  have hcases := exists_counting (p := fun t : Pc => t.answering = some fd) (a := pc)
    (by simpa only [decide_eq_true_eq] using hle) ht (decide_eq_true hfd)
  simpa only [decide_eq_true_eq] using hcases

theorem Notices.unanswered_after (hi : Notices w) (hb : Balanced Pc.holds w)
    (hpc : w.threads[i]? = some pc) (hc : Courteous w pc e) {t : Pc}
    (ht : t ∈ (w.after semaphores i e).threads) {fd : Int32} (hfd : t.answering = some fd)
    {peer : Peer} (hpeer : e.data.peers fd = some peer) (hT3 : IsT3 peer.record) :
    peer.isOpen = true ∧ peer.stream = [] := by
  -- the connection was there before, and some thread had to answer it
  rcases hc.extended.exists_old hpeer with ⟨old, hold, hrecord⟩
  have holdT3 : IsT3 old.record := hrecord ▸ hT3
  have hbefore : old.isOpen = true ∧ old.stream = [] := by
    rcases exists_answering hc ht hfd with ⟨j, _, hj⟩ | ⟨hpcfd, _⟩
    · exact hi.unanswered t (List.mem_of_getElem? hj) fd hfd old hold holdT3
    · exact hi.unanswered pc (List.mem_of_getElem? hpc) fd hpcfd old hold holdT3
  have hsame : e.data.peers fd = w.data.peers fd → peer.isOpen = true ∧ peer.stream = [] := by
    intro heq
    rw [hpeer, hold] at heq
    cases heq
    exact hbefore
  cases hc.serves with
  | elsewhere hpeers _ =>
      exact hsame (hpeers fd ⟨old, hold, holdT3⟩)
  | answered socket reply hanswering hnext hspawned hdata _ =>
      by_cases hne : fd = socket
      · subst hne
        rcases exists_answering hc ht hfd with ⟨j, hji, hj⟩ | ⟨_, rfl | hmem⟩
        · exact absurd (eq_of_countP_le_one (hi.once fd) hj hpc (by simp [hfd])
            (by simp [hanswering])) hji
        · rw [hnext] at hfd
          cases hfd
        · rw [hspawned] at hmem
          cases hmem
      · exact hsame (by rw [hdata, Shared.write_peers_of_ne hne])
  | begun place writes huser hanswering hnone hdata hnotification hnotifying =>
      exact hsame (by rw [hdata])
  | chunk fd₀ bs pending huser hpcs hdata hnotifying =>
      by_cases hne : fd = fd₀
      · subst hne
        have htold := hi.told fd old hold holdT3
        rw [(solo_notifying hb hpc huser fd).flatMap_eq hpc, hpcs, if_pos rfl] at htold
        exact absurd (htold.pending_of_unanswered hbefore.2) (by simp)
      · exact hsame (by rw [hdata, Shared.write_peers_of_ne hne])
  | closed sh' fds huser hanswering hnone hpeers hdata hfds hnotifying =>
      by_cases hmem : fd ∈ fds
      · -- what an exit closes is recorded, so it has been acknowledged
        rcases hfds fd hmem with ⟨place, rfl⟩
        have hack := hi.acked_of_stored hb hpc huser hanswering hold holdT3
        rw [hbefore.2] at hack
        cases hack
      · exact hsame (by rw [hdata, Shared.closeAll_peers_of_notMem fds hmem, hpeers])

/-- What is recorded stays so. -/
theorem Notices.recorded_after (hi : Notices w) (hpc : w.threads[i]? = some pc)
    (hc : Courteous w pc e) {fd : Int32} (h : Recorded w fd) :
    Recorded (w.after semaphores i e) fd := by
  rcases h with ⟨old, hold, hack⟩
  rcases (hc.extended fd).2 old hold with ⟨peer, hpeer, hrecord, hstream⟩
  refine ⟨peer, hpeer, fun hT3 => ?_⟩
  have holdT3 : IsT3 old.record := hrecord ▸ hT3
  rcases hack holdT3 with hack | ⟨con, hmem⟩
  · left
    rcases hstream with ⟨rest, hrest⟩
    rw [← hrest, List.head?_append, hack]
    rfl
  · rcases List.mem_iff_getElem?.1 hmem with ⟨j, hj⟩
    by_cases hji : j = i
    · -- the thread writes its acknowledgement now
      subst hji
      rw [hj] at hpc
      cases hpc
      have hbefore := hi.unanswered _ hmem fd rfl old hold holdT3
      have hdata := hc.admitAck con fd rfl
      rw [hdata, Shared.write_peers_self hold, if_pos hbefore.1] at hpeer
      cases hpeer
      exact Or.inl (by simp [hbefore.2])
    · right
      exact ⟨con, List.mem_of_getElem? (getElem?_set_append_of_ne hj hji)⟩

theorem Notices.table_after (hi : Notices w) (hpc : w.threads[i]? = some pc)
    (hc : Courteous w pc e) (place : DeviceIndex × SocketField)
    (hplace : stored e.data.users place ≠ -1) :
    Recorded (w.after semaphores i e) (stored e.data.users place) := by
  -- a descriptor that was in the table before
  have hkept : stored e.data.users place = stored w.data.users place →
      Recorded (w.after semaphores i e) (stored e.data.users place) := by
    intro hold
    rw [hold] at hplace ⊢
    exact hi.recorded_after hpc hc (hi.table place hplace)
  cases hc.rewritten with
  | kept hstored _ =>
      exact hkept (congrFun hstored place)
  | recorded con socket place' hpcs hnext hpeers hstored =>
      subst hpcs
      by_cases heq : place = place'
      · -- a new descriptor is that of the request
        subst heq
        rcases (hi.engaged _ (List.mem_of_getElem? hpc)).knows socket _ rfl with ⟨peer, hpeer, _⟩
        rw [hstored, Function.update_self]
        refine ⟨peer, ?_, fun _ => Or.inr ⟨con, ?_⟩⟩
        · change e.data.peers socket = some peer
          rw [hpeers, hpeer]
        · rw [← hnext]
          exact List.mem_of_getElem? (getElem?_set_append_self hpc)
      · exact hkept (by rw [hstored, Function.update_of_ne heq])
  | cleared arg p sh' closed hpcs hstored hpeers hdata hclosed =>
      have hcase := hstored place
      split at hcase
      · exact absurd hcase hplace
      · exact hkept hcase

theorem Notices.told_after (hi : Notices w) (hb : Balanced Pc.holds w)
    (hpc : w.threads[i]? = some pc) (hc : Courteous w pc e) {fd : Int32} {peer : Peer}
    (hpeer : e.data.peers fd = some peer) (hT3 : IsT3 peer.record) :
    peer.Told ((w.after semaphores i e).threads.flatMap (Pc.notifying fd)) := by
  rcases hc.extended.exists_old hpeer with ⟨old, hold, hrecord⟩
  have holdT3 : IsT3 old.record := hrecord ▸ hT3
  have htold := hi.told fd old hold holdT3
  have hnew : ∀ t ∈ e.spawned, t.notifying fd = [] := fun t ht => hc.notifying t ht fd
  have hnext : (w.after semaphores i e).threads[i]? = some e.next := getElem?_set_append_self hpc
  -- a connection that the action leaves alone, with nothing more or less to be written to it
  have hframe : e.next.notifying fd = pc.notifying fd → e.data.peers fd = w.data.peers fd →
      peer.Told ((w.after semaphores i e).threads.flatMap (Pc.notifying fd)) := by
    intro hnotifying heq
    rw [hpeer, hold] at heq
    cases heq
    rw [Process.after, flatMap_set_append hpc hnotifying hnew]
    exact htold
  cases hc.serves with
  | elsewhere hpeers hnotifying =>
      exact hframe (hnotifying fd) (hpeers fd ⟨old, hold, holdT3⟩)
  | answered socket reply hanswering _ hspawned hdata hnotifying =>
      by_cases hne : fd = socket
      · subst hne
        have hbefore := hi.unanswered pc (List.mem_of_getElem? hpc) fd hanswering old hold holdT3
        rw [hdata, Shared.write_peers_self hold, if_pos hbefore.1] at hpeer
        cases hpeer
        rw [Process.after, flatMap_set_append hpc (hnotifying fd) hnew,
          htold.pending_of_unanswered hbefore.2]
        by_cases hreply : reply = .ack
        · subst hreply
          exact .acknowledged [] (by simp) (by simp [hbefore.2, Reply.bytes])
            (by simp [hbefore.2, Reply.bytes])
        · exact .refused reply hreply (by simp [hbefore.2]) rfl
      · exact hframe (hnotifying fd) (by rw [hdata, Shared.write_peers_of_ne hne])
  | begun place writes huser hanswering hnone hdata hnotification hnotifying =>
      have hpeers : e.data.peers fd = w.data.peers fd := by rw [hdata]
      by_cases hne : stored w.data.users place = fd
      · rw [hpeers, hold] at hpeer
        cases hpeer
        subst hne
        have hack := hi.acked_of_stored hb hpc huser hanswering hold holdT3
        have hsolo := solo_notifying hb hpc huser (stored w.data.users place)
        rw [hsolo.flatMap_eq hpc, hnone] at htold
        have hafter : Solo (Pc.notifying (stored w.data.users place))
            (w.after semaphores i e).threads i :=
          hsolo.set hpc (Or.inr rfl) hnew
        rw [hafter.flatMap_eq hnext, hnotifying, if_pos rfl]
        exact htold.begin hack hnotification
      · exact hframe (by rw [hnotifying, if_neg hne, hnone]) hpeers
  | chunk fd₀ bs pending huser hpcs hdata hnotifying =>
      by_cases hne : fd₀ = fd
      · subst hne
        have hsolo := solo_notifying hb hpc huser fd₀
        rw [hsolo.flatMap_eq hpc, hpcs, if_pos rfl] at htold
        have hafter : Solo (Pc.notifying fd₀) (w.after semaphores i e).threads i :=
          hsolo.set hpc (Or.inr rfl) hnew
        rw [hafter.flatMap_eq hnext, hnotifying, if_pos rfl]
        rw [hdata, Shared.write_peers_self hold, ← apply_ite some] at hpeer
        cases hpeer
        exact htold.write
      · refine hframe ?_ (by rw [hdata, Shared.write_peers_of_ne (Ne.symm hne)])
        rw [hnotifying, hpcs, if_neg hne, if_neg hne]
  | closed sh' fds huser hanswering hnone hpeers hdata hfds hnotifying =>
      by_cases hmem : fd ∈ fds
      · rcases hfds fd hmem with ⟨place, rfl⟩
        have hack := hi.acked_of_stored hb hpc huser hanswering hold holdT3
        rw [(solo_notifying hb hpc huser _).flatMap_eq hpc, hnone] at htold
        rw [hdata, Shared.closeAll_peers fds (by rw [hpeers, hold])] at hpeer
        cases hpeer
        have hafter : Solo (Pc.notifying (stored w.data.users place))
            (w.after semaphores i e).threads i :=
          (solo_notifying hb hpc huser _).set hpc (Or.inr rfl) hnew
        rw [hafter.flatMap_eq hnext, hnotifying]
        exact htold.close hack _
      · refine hframe (by rw [hnotifying, hnone]) ?_
        rw [hdata, Shared.closeAll_peers_of_notMem fds hmem, hpeers]

/-- A step of one thread keeps the invariant. -/
theorem Notices.after (hi : Notices w) (hb : Balanced Pc.holds w)
    (hpc : w.threads[i]? = some pc) (hc : Courteous w pc e) :
    Notices (w.after semaphores i e) where
  servers := hc.servers
  attached := by
    intro t ht
    rcases mem_set_append ht with hold | rfl | hmem
    · refine (hi.attached t (List.mem_of_mem_eraseIdx hold)).mono fun fd hs => ?_
      exact (Shared.Secondary.hosts hs).mono hc.extended
    · exact hc.attached.1
    · exact hc.attached.2 t hmem
  engaged := by
    intro t ht
    rcases mem_set_append ht with hold | rfl | hmem
    · exact (hi.engaged t (List.mem_of_mem_eraseIdx hold)).mono hc.extended
    · exact hc.engaged.1
    · exact hc.engaged.2 t hmem
  negative := (hc.extended (-1)).1 hi.negative
  once := by
    intro fd
    refine le_trans (countP_set_append_le hpc ?_) (hi.once fd)
    simpa only [decide_eq_true_eq] using hc.answering fd
  unanswered := fun t ht fd hfd peer hpeer hT3 => hi.unanswered_after hb hpc hc ht hfd hpeer hT3
  table := hi.table_after hpc hc
  told := fun fd peer hpeer hT3 => hi.told_after hb hpc hc hpeer hT3

theorem Acted.courteous {input : Input} (hi : Notices w) (hpc : w.threads[i]? = some pc)
    (h : Acted w.data pc input e) : Courteous w pc e where
  extended := h.extends
  servers := h.servers (hi.attached pc (List.mem_of_getElem? hpc)) hi.servers
  attached := h.attached (hi.attached pc (List.mem_of_getElem? hpc)) hi.servers
  engaged := by
    refine h.engaged (hi.engaged pc (List.mem_of_getElem? hpc)) fun place hplace => ?_
    rcases hi.table place hplace with ⟨peer, hpeer, _⟩
    exact ⟨peer, hpeer, trivial⟩
  answering := h.answering_le
  notifying := by
    intro t ht fd
    rcases h.spawned t ht with ⟨socket, rfl⟩ | ⟨arg, rfl⟩ <;> rfl
  serves := h.serves (hi.attached pc (List.mem_of_getElem? hpc))
    (hi.engaged pc (List.mem_of_getElem? hpc))
  rewritten := h.rewritten
  admitAck := by
    rintro con socket rfl
    cases h with
    | ackWritten con socket input =>
        rfl
    | hungUp _ hreads =>
        cases hreads

/-- A thread that waits or posts changes only where it stands. -/
theorem courteous_semaphore (hi : Notices w) (hpc : w.threads[i]? = some pc) {m : Mutex} {k : Pc}
    (hstep : Waited pc m k ∨ Posted pc m k) :
    Courteous w pc { data := w.data, next := k, spawned := [] } where
  extended := .of_peers rfl
  servers := hi.servers
  attached := ⟨(hi.attached pc (List.mem_of_getElem? hpc)).semaphore hstep, by simp⟩
  engaged := ⟨(hi.engaged pc (List.mem_of_getElem? hpc)).semaphore hstep, by simp⟩
  answering := by
    intro fd
    rcases hstep with hwait | hpost
    · cases hwait <;> simp [Pc.answering]
    · cases hpost <;> simp [Pc.answering]
  notifying := by simp
  serves := by
    refine .of_same rfl fun fd => ?_
    rcases hstep with hwait | hpost
    · cases hwait <;> rfl
    · cases hpost <;> rfl
  rewritten := .kept rfl fun _ => rfl
  admitAck := by
    rintro con socket rfl
    rcases hstep with hwait | hpost
    · cases hwait
    · cases hpost

end Update

/-! ## Runs -/

/-- A connection comes in with a descriptor that has not been used before. -/
def FreshDescriptors (w : Process) : Label → Prop
  | .env (.accept fd _ _) => w.data.peers fd = none
  | _ => True

section Runs

variable {w w' : Process} {l : Label}

/-- Who had a connection before a new one has it still. -/
theorem peers_of_fresh {sh : Shared} {fd fd' : Int32} {new peer : Peer}
    (hfresh : sh.peers fd = none) (hpeer : sh.peers fd' = some peer) :
    (sh.setPeer fd new).peers fd' = some peer := by
  have hne : fd' ≠ fd := by
    rintro rfl
    rw [hfresh] at hpeer
    cases hpeer
  rwa [Shared.setPeer_peers_of_ne hne]

theorem hosts_of_fresh {sh : Shared} {fd fd' : Int32} {new : Peer} {P : Connection → Prop}
    (hfresh : sh.peers fd = none) (h : sh.Hosts fd' P) : (sh.setPeer fd new).Hosts fd' P := by
  rcases h with ⟨peer, hpeer, hP⟩
  exact ⟨peer, peers_of_fresh hfresh hpeer, hP⟩

theorem not_hosts_of_none {sh : Shared} {fd : Int32} {P : Connection → Prop}
    (hnone : sh.peers fd = none) : ¬sh.Hosts fd P := by
  rintro ⟨peer, hpeer, _⟩
  rw [hnone] at hpeer
  cases hpeer

/-- No thread has to answer a connection that does not exist. -/
theorem Notices.answering_of_none (hi : Notices w) {fd : Int32} (hnone : w.data.peers fd = none) :
    ∀ t ∈ w.threads, t.answering ≠ some fd := by
  intro t ht hfd
  have hknows := (hi.engaged t ht).knows
  cases t with
  | mediator | userWait | handle | refuse | admitAck =>
      cases hfd
      exact not_hosts_of_none hnone (hknows _ _ rfl)
  | _ =>
      cases hfd

/-- No thread has something to write to one either. -/
theorem Notices.notifying_of_none (hi : Notices w) {fd : Int32} (hnone : w.data.peers fd = none)
    (hnegative : fd ≠ -1) : ∀ t ∈ w.threads, t.notifying fd = [] := by
  intro t ht
  by_contra hne
  exact not_hosts_of_none hnone ((hi.engaged t ht).notifying fd hne hnegative)

/-- A new connection. -/
theorem Notices.accept (hi : Notices w) {fd : Int32} {record : Connection}
    {fileSizeBuffer : CharArray 8} (hnegative : fd ≠ -1) (hfresh : w.data.peers fd = none) :
    Notices
      { w with
        data := w.data.setPeer fd (Peer.accepted record fileSizeBuffer)
        threads := w.threads ++ [.mediator fd] } where
  servers := fun i hid => hosts_of_fresh hfresh (hi.servers i hid).hosts
  attached := by
    intro t ht
    rcases List.mem_append.1 ht with ht | ht
    · exact (hi.attached t ht).mono fun fd' hs =>
        hosts_of_fresh hfresh (Shared.Secondary.hosts hs)
    · rw [List.mem_singleton.1 ht]
      exact attached_of_none trivial rfl rfl fun _ => rfl
  engaged := by
    intro t ht
    rcases List.mem_append.1 ht with ht | ht
    · exact ⟨fun fd' P hP => hosts_of_fresh hfresh ((hi.engaged t ht).knows fd' P hP),
        fun fd' hne hfd' => hosts_of_fresh hfresh ((hi.engaged t ht).notifying fd' hne hfd')⟩
    · -- the mediator knows nothing of its connection but that it is there
      rw [List.mem_singleton.1 ht]
      refine ⟨fun fd' P hP => ?_, fun fd' hne _ => absurd rfl hne⟩
      cases hP
      exact ⟨_, Shared.setPeer_peers_self, trivial⟩
  negative := by
    rw [Shared.setPeer_peers_of_ne hnegative.symm, hi.negative]
  once := by
    intro fd'
    refine countP_append_singleton_le_one (hi.once fd') fun hfd t ht => ?_
    have heq : fd = fd' := by simpa [Pc.answering] using hfd
    subst heq
    exact decide_eq_false (hi.answering_of_none hfresh t ht)
  unanswered := by
    intro t ht fd' hfd' peer hpeer hT3
    by_cases hne : fd' = fd
    · subst hne
      rw [Shared.setPeer_peers_self] at hpeer
      cases hpeer
      exact ⟨rfl, rfl⟩
    · rw [Shared.setPeer_peers_of_ne hne] at hpeer
      rcases List.mem_append.1 ht with ht | ht
      · exact hi.unanswered t ht fd' hfd' peer hpeer hT3
      · rw [List.mem_singleton.1 ht] at hfd'
        cases hfd'
        exact absurd rfl hne
  table := by
    intro place hplace
    rcases hi.table place hplace with ⟨peer, hpeer, hack⟩
    refine ⟨peer, peers_of_fresh hfresh hpeer, fun hT3 => (hack hT3).imp id ?_⟩
    rintro ⟨con, hmem⟩
    exact ⟨con, List.mem_append_left _ hmem⟩
  told := by
    intro fd' peer hpeer hT3
    have hpending : (w.threads ++ [Pc.mediator fd]).flatMap (Pc.notifying fd') =
        w.threads.flatMap (Pc.notifying fd') := by
      simp [Pc.notifying]
    rw [hpending]
    by_cases hne : fd' = fd
    · -- nothing has been written to it, and nothing is about to be
      subst hne
      rw [Shared.setPeer_peers_self] at hpeer
      cases hpeer
      exact .unanswered rfl rfl
        (List.flatMap_eq_nil_iff.2 (hi.notifying_of_none hfresh hnegative))
    · rw [Shared.setPeer_peers_of_ne hne] at hpeer
      exact hi.told fd' peer hpeer hT3

/-- The peer of a connection reads. -/
theorem Notices.read (hi : Notices w) {fd : Int32} {old peer : Peer}
    (hold : w.data.peers fd = some old) (hopen : peer.isOpen = old.isOpen)
    (hrecord : peer.record = old.record) (hstream : peer.stream = old.stream) :
    Notices { w with data := w.data.setPeer fd peer } := by
  have hext : w.data.Extends (w.data.setPeer fd peer) :=
    .setPeer hold hrecord (by rw [hstream])
  -- what is asked of a connection is about the fields that stay
  have hsame : ∀ {fd' new}, (w.data.setPeer fd peer).peers fd' = some new →
      ∃ before, w.data.peers fd' = some before ∧ new.isOpen = before.isOpen ∧
        new.record = before.record ∧ new.stream = before.stream := by
    intro fd' new hnew
    by_cases hne : fd' = fd
    · subst hne
      rw [Shared.setPeer_peers_self] at hnew
      cases hnew
      exact ⟨old, hold, hopen, hrecord, hstream⟩
    · rw [Shared.setPeer_peers_of_ne hne] at hnew
      exact ⟨new, hnew, rfl, rfl, rfl⟩
  refine ⟨fun i hid => (hi.servers i hid).hosts.mono hext, fun t ht => ?_,
    fun t ht => (hi.engaged t ht).mono hext, (hext (-1)).1 hi.negative, hi.once, ?_, ?_, ?_⟩
  · exact (hi.attached t ht).mono fun fd' hs => (Shared.Secondary.hosts hs).mono hext
  · intro t ht fd' hfd' new hnew hT3
    rcases hsame hnew with ⟨before, hbefore, hopen', hrecord', hstream'⟩
    rw [hopen', hstream']
    exact hi.unanswered t ht fd' hfd' before hbefore (hrecord' ▸ hT3)
  · intro place hplace
    rcases hi.table place hplace with ⟨before, hbefore, hack⟩
    rcases (hext _).2 before hbefore with ⟨new, hnew, hrecord', hprefix⟩
    refine ⟨new, hnew, fun hT3 => (hack (hrecord' ▸ hT3)).imp (fun hhead => ?_) id⟩
    rcases hprefix with ⟨rest, hrest⟩
    rw [← hrest, List.head?_append, hhead]
    rfl
  · intro fd' new hnew hT3
    rcases hsame hnew with ⟨before, hbefore, hopen', hrecord', hstream'⟩
    exact (hi.told fd' before hbefore (hrecord' ▸ hT3)).of_same hopen' hstream'

theorem Notices.step (hi : Notices w) (hb : Balanced Pc.holds w) (hok : FreshDescriptors w l)
    (h : w.step l = some w') : Notices w' := by
  cases Process.step_cases h with
  | @semaphore i input pc k m hpc hstep semaphores =>
      have hafter : Notices (w.after semaphores i { data := w.data, next := k, spawned := [] }) :=
        hi.after hb hpc (courteous_semaphore hi hpc hstep)
      simpa [Process.after] using hafter
  | act hpc hacted =>
      exact hi.after hb hpc (hacted.courteous hi hpc)
  | env hsurrounded =>
      cases hsurrounded with
      | accepted fd record fileSizeBuffer hfd hclosed =>
          have hnegative : fd ≠ -1 := by
            rintro rfl
            exact absurd hfd (by decide)
          exact hi.accept hnegative hok
      | read fd peer move hpeer hmove =>
          rw [List.append_nil]
          exact hi.read hpeer rfl rfl rfl

theorem Notices.initial : Notices Process.initial where
  servers := fun _ hid => absurd rfl hid
  attached := fun _ ht => by cases ht
  engaged := fun _ ht => by cases ht
  negative := rfl
  once := fun _ => Nat.zero_le 1
  unanswered := fun _ ht => by cases ht
  table := by
    rintro ⟨p, field⟩ hplace
    cases field <;> exact absurd rfl hplace
  told := fun _ _ hpeer => by cases hpeer

theorem Reaches.notices (h : Reaches Process.step FreshDescriptors Process.initial w) :
    Notices w := by
  induction h with
  | start =>
      exact .initial
  | next l hreach hok hl ih =>
      exact ih.step (Reaches.balanced hreach) hok hl

/-- In every run without a descriptor number used again, what is written to the notification
connection of a device is a refusal, or `ack` and then whole notifications, the last one up to what
the only thread that is notifying has still to write. -/
theorem notified_whole (h : Reaches Process.step FreshDescriptors Process.initial w) {fd : Int32}
    {peer : Peer} (hpeer : w.data.peers fd = some peer) (hT3 : IsT3 peer.record) :
    peer.Told (w.threads.flatMap (Pc.notifying fd)) ∧
      ∃ i, ∀ fd', Solo (Pc.notifying fd') w.threads i := by
  refine ⟨(Reaches.notices h).told fd peer hpeer hT3, ?_⟩
  by_cases hany : ∃ (i : Nat) (pc : Pc), w.threads[i]? = some pc ∧ pc.holds .user = true
  · rcases hany with ⟨i, pc, hpc, huser⟩
    exact ⟨i, solo_notifying (Reaches.balanced h) hpc huser⟩
  · refine ⟨0, fun fd' j t hj _ => ?_⟩
    by_contra hne
    exact hany ⟨j, t, hj, Pc.holds_of_notifying hne⟩

end Runs

/-- Device `1` of user `a` opens its console connection and device `2` its notification
connection; then device `1` deletes a file, and the first chunks of the notification are
written. -/
def deletionSteps : List Label :=
  requestSteps 0 4 (oneLetterRequest 97 1 socketT1) ++ admittedSteps 0 emptyPacket ++
    requestSteps 2 5 (oneLetterRequest 97 2 socketT3) ++ admittedSteps 2 emptyPacket ++
    [.thread 1 (.command (.file (.delete deletionPacket))), .thread 1 .go, .thread 1 .go,
      .thread 1 .go, .thread 1 (.stack emptyPacket), .thread 1 (.stack emptyPacket),
      .thread 1 .go, .thread 1 .go]

instance (w : Process) (l : Label) : Decidable (FreshDescriptors w l) :=
  match l with
  | .env (.accept fd _ _) =>
      decidable_of_iff ((w.data.peers fd).isNone = true) Option.isNone_iff_eq_none
  | .env (.read _) => inferInstanceAs (Decidable True)
  | .thread _ _ => inferInstanceAs (Decidable True)

def deletionUnderWay : Process :=
  (runWhile Process.step FreshDescriptors Process.initial deletionSteps).get (by decide +kernel)

theorem notified_whole_deletion :
    ∃ peer, deletionUnderWay.data.peers 5 = some peer ∧ peer.stream.length = 3 ∧
      peer.Told (deletionUnderWay.threads.flatMap (Pc.notifying 5)) := by
  have hreached : Reaches Process.step FreshDescriptors Process.initial deletionUnderWay :=
    Reaches.of_runWhile (Option.some_get _).symm
  have hstate : (deletionUnderWay.data.peers 5).map (fun peer =>
      (peer.record, peer.stream.length)) = some (oneLetterRequest 97 2 socketT3, 3) := by
    decide +kernel
  rcases Option.map_eq_some_iff.1 hstate with ⟨peer, hpeer, hval⟩
  rcases Prod.mk.inj hval with ⟨hrecord, hlength⟩
  have hT3 : IsT3 peer.record := by
    rw [hrecord]
    exact ⟨by decide, rfl⟩
  exact ⟨peer, hpeer, hlength, (notified_whole hreached hpeer hT3).1⟩

end Server
end DropboxSimulator
