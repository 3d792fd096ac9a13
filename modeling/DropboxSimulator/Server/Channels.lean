import Mathlib.Data.List.TakeWhile
import DropboxSimulator.Server.Threads

/-!
# Channels — who writes to the connections of the secondaries

The connection of a secondary is written to by its acknowledgement and by the three loops over
`backupServers`.  Everything else that a thread writes or closes belongs to its session or to the
devices of its user (`Pc.addresses`).  A descriptor that has been closed may come back as another
connection, so such a write can also reach a secondary.

* `Attached` : what the threads keep for secondaries;
* `Touched`  : what one action does to the connections of secondaries, when what it addresses for
  a session belongs to none of them.
-/

namespace DropboxSimulator
namespace Server

open Library

/-! ## Connections of secondaries -/

/-- The connection of another server. -/
def Peer.IsServer (peer : Peer) : Prop :=
  peer.record.packetType = packetServerConn

namespace Shared

def Secondary (sh : Shared) (fd : Int32) : Prop :=
  ∃ peer, sh.peers fd = some peer ∧ peer.IsServer

/-- The same descriptors are connections of secondaries. -/
def Keeps (sh sh' : Shared) : Prop :=
  ∀ fd, sh'.Secondary fd ↔ sh.Secondary fd

section Frame

variable {sh sh' : Shared} {fd fd' : Int32} {bs : Bytes} {peer : Peer} {m : WireMessage}

theorem Keeps.of_peers (h : sh'.peers = sh.peers) : Keeps sh sh' := by
  intro fd
  rw [Secondary, Secondary, h]

theorem Keeps.trans {sh'' : Shared} (h : Keeps sh sh') (h' : Keeps sh' sh'') : Keeps sh sh'' :=
  fun fd => (h' fd).trans (h fd)

theorem Keeps.setPeer {old : Peer} (hold : sh.peers fd = some old)
    (hkind : peer.record = old.record) : Keeps sh (sh.setPeer fd peer) := by
  intro fd'
  by_cases hfd : fd' = fd
  · subst hfd
    simp [Secondary, hold, Peer.IsServer, hkind]
  · rw [Secondary, Secondary, setPeer_peers_of_ne hfd]

theorem keeps_write : Keeps sh (sh.write fd bs) := by
  unfold Shared.write
  split
  · exact .of_peers rfl
  · next peer hpeer =>
      split
      · exact .setPeer hpeer rfl
      · exact .of_peers rfl

theorem keeps_begin : Keeps sh (sh.begin fd m) := by
  unfold Shared.begin
  split
  · exact .of_peers rfl
  · next peer hpeer => exact .setPeer hpeer rfl

theorem keeps_close : Keeps sh (sh.close fd) := by
  unfold Shared.close
  split
  · exact .of_peers rfl
  · next peer hpeer => exact .setPeer hpeer rfl

theorem keeps_closeAll (fds : List Int32) : Keeps sh (fds.foldl Shared.close sh) := by
  induction fds generalizing sh with
  | nil =>
      exact .of_peers rfl
  | cons fd rest ih =>
      exact keeps_close.trans ih

/-- What is not the connection of a secondary is another one. -/
theorem ne_of_secondary (hno : ¬sh.Secondary fd) (hs : sh.Secondary fd') : fd' ≠ fd :=
  fun heq => hno (heq ▸ hs)

theorem closeAll_peers_of_notMem (fds : List Int32) (h : fd ∉ fds) :
    (fds.foldl Shared.close sh).peers fd = sh.peers fd := by
  induction fds generalizing sh with
  | nil =>
      rfl
  | cons fd' rest ih =>
      rcases not_or.1 (mt List.mem_cons.2 h) with ⟨hne, hrest⟩
      rw [List.foldl_cons, ih hrest, close_peers_of_ne hne]

end Frame

end Shared

/-! ## What threads keep -/

/-- A string without NUL. -/
def NulFree (s : Bytes) : Prop :=
  ∀ b ∈ s, b ≠ 0

/-- The writes of a message, for some content of the uninitialised header. -/
def WrittenAs (m : WireMessage) (writes : List Bytes) : Prop :=
  ∃ stale, writesOf stale m = some writes

/-- The user name that a sending site keeps is a C string. -/
def Site.Sound : Site → Prop
  | .file arg => NulFree arg.userName
  | _ => True

namespace Pc

/-- The connection of a secondary that the thread is to register or to acknowledge. -/
def registering : Pc → Option Int32
  | .serverWait _ socket => some socket
  | .serverInsert _ socket => some socket
  | .serverPost socket => some socket
  | .serverCreate socket => some socket
  | .secondaryAck socket => some socket
  | _ => none

/-- A connection to which the thread will write the first bytes, if it is one of a secondary. -/
def unacked : Pc → Option Int32
  | .mediator socket => some socket
  | pc => pc.registering

/-- The secondary to which the thread is about to begin a message. -/
def beginning : Pc → Option Int32
  | .message _ _ _ fd _ => some fd
  | _ => none

/-- What the thread has still to write of the message it has begun. -/
def sending (fd : Int32) : Pc → List Bytes
  | .replicate _ _ _ fd' pending => if fd' = fd then pending else []
  | _ => []

/-- The descriptors that the next step of the thread writes to or closes for its session: those of
acknowledgements, answers and notifications, and those that an exit closes. -/
def addresses (sh : Shared) : Pc → Input → List Int32
  | .refuse socket _, _ => [socket]
  | .admitAck _ socket, _ => [socket]
  | .command arg, .command _ => [arg.currentSocket]
  | .receive _ _ 0, _ => []
  | .receive _ _ (_ + 1), .hangup => []
  | .receive arg _ (_ + 1), _ => [arg.currentSocket]
  | .notify _ _ _ _ fd (_ :: _), _ => [fd]
  | .exitRemove arg, _ =>
      match getDevice sh.users arg.currentDevice arg.userName with
      | .ref p => [(sh.users.device p).socket1, (sh.users.device p).socket2,
          (sh.users.device p).socket3]
      | _ => []
  | _, _ => []

/-- What the thread keeps for a message can be sent. -/
def Sound : Pc → Prop
  | .message site m _ _ writes => site.Sound ∧ Sendable m ∧ WrittenAs m writes
  | .replicate site m _ _ _ => site.Sound ∧ Sendable m
  | .command arg => NulFree arg.userName
  | .receive arg c _ => NulFree arg.userName ∧ c.Readable
  | .notifyWait arg c => NulFree arg.userName ∧ c.Readable
  | .notifyLookup arg c => NulFree arg.userName ∧ c.Readable
  | .notify arg c _ _ _ _ => NulFree arg.userName ∧ c.Readable
  | .notifyPost arg c => NulFree arg.userName ∧ c.Readable
  | .replicateWait arg c => NulFree arg.userName ∧ c.Readable
  | .replicatePost arg => NulFree arg.userName
  | _ => True

end Pc

/-- What a thread keeps for secondaries: their connections, and texts that can be sent. -/
structure Attached (sh : Shared) (pc : Pc) : Prop where
  sound : pc.Sound
  registering : ∀ fd ∈ pc.registering, sh.Secondary fd
  beginning : ∀ fd ∈ pc.beginning, sh.Secondary fd
  sending : ∀ fd, pc.sending fd ≠ [] → sh.Secondary fd

section Attachment

variable {sh sh' : Shared} {pc k : Pc} {m : Mutex} {input : Input} {e : Effect Shared Pc}

theorem Attached.mono (h : Attached sh pc) (hsub : ∀ fd, sh.Secondary fd → sh'.Secondary fd) :
    Attached sh' pc where
  sound := h.sound
  registering := fun fd hfd => hsub fd (h.registering fd hfd)
  beginning := fun fd hfd => hsub fd (h.beginning fd hfd)
  sending := fun fd hfd => hsub fd (h.sending fd hfd)

/-- A thread that keeps no connection of a secondary. -/
theorem attached_of_none (hsound : pc.Sound) (hregistering : pc.registering = none)
    (hbeginning : pc.beginning = none) (hsending : ∀ fd, pc.sending fd = []) : Attached sh pc :=
  ⟨hsound, by simp [hregistering], by simp [hbeginning], fun fd hfd => absurd (hsending fd) hfd⟩

theorem nulFree_cString (bs : Bytes) : NulFree (cString bs) :=
  ne_zero_of_mem_cString

theorem nulFree_completePath {userName fileName : Bytes} (huser : NulFree userName)
    (hfile : NulFree fileName) : NulFree (completePath userName fileName) := by
  have hdir : NulFree databaseDir := by unfold NulFree; decide +kernel
  have hslash : slash ≠ 0 := by decide
  intro b hb
  simp only [completePath, List.mem_append, List.mem_cons] at hb
  rcases hb with hb | rfl | hb | rfl | hb
  · exact hdir b hb
  · exact hslash
  · exact huser b hb
  · exact hslash
  · exact hfile b hb

/-- What the secondaries are told of a command can be sent. -/
theorem FileCommand.sendable_message {c : FileCommand} {userName : Bytes}
    (huser : NulFree userName) (hc : c.Readable) : Sendable (c.message userName) := by
  cases c with
  | upload fileName payload =>
      exact ⟨nulFree_completePath huser hc.1, hc.2⟩
  | delete command =>
      exact nulFree_completePath huser (nulFree_cString _)

/-- A message has a first write. -/
theorem WrittenAs.ne_nil {m : WireMessage} {writes : List Bytes} (h : WrittenAs m writes) :
    writes ≠ [] := by
  have hpacket : ∀ packet rest, sendPacket packet ++ rest ≠ [] := by
    intro packet rest hnil
    exact sendLargePayloadToSocket_ne_nil (List.append_eq_nil_iff.1 hnil).1
  rcases h with ⟨stale, hw⟩
  cases m with
  | exit record =>
      cases hw
      exact hpacket _ _
  | upload path payload =>
      rcases Option.map_eq_some_iff.1 hw with ⟨info, _, rfl⟩
      exact hpacket _ _
  | delete path =>
      rcases Option.map_eq_some_iff.1 hw with ⟨info, _, rfl⟩
      simpa using hpacket (fillPacket stale cmdDelete info) []
  | insertUser con =>
      simp only [writesOf, Option.map_eq_some_iff] at hw
      rcases hw with ⟨info, _, rfl⟩
      exact hpacket _ _

/-- A thread keeps the same on both sides of a semaphore. -/
theorem Attached.semaphore (h : Attached sh pc) (hstep : Waited pc m k ∨ Posted pc m k) :
    Attached sh k := by
  rcases hstep with hwait | hpost
  · cases hwait with
    | replicateWait arg c =>
        -- the message for the secondaries is made from the command here
        have hsound : NulFree arg.userName ∧ c.Readable := h.sound
        refine ⟨⟨hsound.1, FileCommand.sendable_message hsound.1 hsound.2⟩, h.registering,
          h.beginning, by simp [Pc.sending]⟩
    | _ =>
        exact ⟨h.sound, h.registering, h.beginning, h.sending⟩
  · cases hpost with
    | exitPost =>
        exact attached_of_none trivial rfl rfl fun _ => rfl
    | _ =>
        exact ⟨h.sound, h.registering, h.beginning, h.sending⟩

/-- No action turns a connection into one of a secondary, or back. -/
theorem Acted.keeps (h : Acted sh pc input e) : sh.Keeps e.data := by
  cases h with
  | secondaryAcked | nackWritten | ackWritten | chunkWritten | fileCommand | exitCommand
  | otherCommand | restAcked | notificationChunk =>
      exact Shared.keeps_write
  | messageBegun =>
      exact Shared.keeps_begin.trans Shared.keeps_write
  | threadCreated con socket input =>
      exact .of_peers (by rw [createThread_data])
  | sessionRemoved arg record exited hres =>
      have husers : sh.Keeps { sh with users := exited.users } := .of_peers rfl
      exact husers.trans (Shared.keeps_closeAll _)
  | _ =>
      exact .of_peers rfl

/-- What a thread keeps after an action, and what the threads it starts keep. -/
theorem Acted.attached (hpc : Attached sh pc)
    (hservers : ∀ i, (sh.backupServers i).id ≠ -1 → sh.Secondary (sh.backupServers i).socket)
    (h : Acted sh pc input e) :
    Attached e.data e.next ∧ ∀ t ∈ e.spawned, Attached e.data t := by
  have hkeeps : ∀ fd, sh.Secondary fd → e.data.Secondary fd := fun fd => (h.keeps fd).2
  have hpc' := hpc.mono hkeeps
  cases h with
  | serverIdentified socket input peer hpeer htype =>
      -- the record that was read makes the connection one of a secondary
      refine ⟨⟨trivial, fun fd hfd => ?_, by simp [Pc.beginning], by simp [Pc.sending]⟩, by simp⟩
      cases hfd
      exact ⟨peer, hpeer, htype⟩
  | serverCreated socket input =>
      -- the new thread takes the descriptor over
      refine ⟨attached_of_none trivial rfl rfl fun _ => rfl, fun t ht => ?_⟩
      rw [List.mem_singleton.1 ht]
      exact ⟨trivial, hpc'.registering, hpc'.beginning, hpc'.sending⟩
  | messageReady site m i rest fd stale writes hid hwrites =>
      -- the slot is taken, so its descriptor is that of a secondary
      refine ⟨⟨⟨hpc.sound.1, hpc.sound.2, stale, hwrites⟩, by simp [Pc.registering],
        fun fd' hfd' => ?_, by simp [Pc.sending]⟩, by simp⟩
      cases hfd'
      exact hservers i hid
  | messageBegun site m slots fd writes input =>
      -- what remains to be sent goes to the secondary the message began with
      refine ⟨⟨⟨hpc.sound.1, hpc.sound.2.1⟩, by simp [Pc.registering], by simp [Pc.beginning],
        fun fd' hfd' => ?_⟩, by simp⟩
      by_cases hfd : fd = fd'
      · subst hfd
        exact hpc'.beginning fd rfl
      · simp [Pc.sending, hfd] at hfd'
  | chunkWritten site m slots fd bs pending input =>
      refine ⟨⟨hpc.sound, by simp [Pc.registering], by simp [Pc.beginning], fun fd' hfd' => ?_⟩,
        by simp⟩
      refine hpc'.sending fd' ?_
      by_cases hfd : fd = fd'
      · simp [Pc.sending, hfd]
      · simp [Pc.sending, hfd] at hfd'
  | replicated site m fd input =>
      cases site with
      | file arg =>
          exact ⟨attached_of_none hpc.sound.1 rfl rfl fun _ => rfl, by simp⟩
      | _ =>
          exact ⟨attached_of_none trivial rfl rfl fun _ => rfl, by simp⟩
  | threadCreated con socket input =>
      refine ⟨?_, fun t ht => ?_⟩
      · rcases createThread_next con socket sh with hnext | hnext
        · rw [hnext]
          exact attached_of_none trivial rfl rfl fun _ => rfl
        · rw [hnext]
          exact attached_of_none trivial rfl rfl fun _ => rfl
      · rw [createThread_spawned con socket sh t ht]
        exact attached_of_none (nulFree_cString _) rfl rfl fun _ => rfl
  | fileCommand arg c hread =>
      exact ⟨attached_of_none ⟨hpc.sound, hread⟩ rfl rfl fun _ => rfl, by simp⟩
  | exitCommand arg =>
      exact ⟨attached_of_none trivial rfl rfl fun _ => rfl, by simp⟩
  | ackWritten con socket input =>
      exact ⟨⟨⟨trivial, trivial⟩, by simp [Pc.registering], by simp [Pc.beginning],
        by simp [Pc.sending]⟩, by simp⟩
  | slotSkipped site m i rest fd stale hid =>
      exact ⟨⟨hpc.sound, by simp [Pc.registering], by simp [Pc.beginning], by simp [Pc.sending]⟩,
        by simp⟩
  | sessionRemoved arg record exited hres =>
      -- a removal that failed sends nothing
      dsimp only
      split
      · exact ⟨⟨⟨trivial, trivial⟩, by simp [Pc.registering], by simp [Pc.beginning],
          by simp [Pc.sending]⟩, by simp⟩
      · exact ⟨attached_of_none trivial rfl rfl fun _ => rfl, by simp⟩
  | hungUp | secondaryAcked | nackWritten | messageOverflow | lookupFailed
  | notificationOverflow | exitUndefined | admitUndefined =>
      exact ⟨attached_of_none trivial rfl rfl fun _ => rfl, by simp⟩
  | _ =>
      exact ⟨⟨hpc.sound, hpc'.registering, hpc'.beginning, hpc'.sending⟩, by simp⟩

/-- The registered secondaries are connections of secondaries after an action too. -/
theorem Acted.servers (hpc : Attached sh pc)
    (hservers : ∀ i, (sh.backupServers i).id ≠ -1 → sh.Secondary (sh.backupServers i).socket)
    (h : Acted sh pc input e) : ∀ i, (e.data.backupServers i).id ≠ -1 →
      e.data.Secondary (e.data.backupServers i).socket := by
  have hkeeps := h.keeps
  have hsame : e.data.backupServers = sh.backupServers → ∀ i,
      (e.data.backupServers i).id ≠ -1 → e.data.Secondary (e.data.backupServers i).socket := by
    intro heq i hid
    rw [heq] at hid ⊢
    exact (hkeeps _).2 (hservers i hid)
  cases h with
  | serverInserted id socket input =>
      -- only the slot that is filled changes
      intro i hid
      have hsocket : sh.Secondary socket := hpc.registering socket rfl
      refine (hkeeps _).2 ?_
      dsimp only at hid ⊢
      unfold insertServer at hid ⊢
      split at hid
      · next k hk =>
          dsimp only at hid ⊢
          by_cases hik : i = k
          · subst hik
            rw [Function.update_self]
            exact hsocket
          · rw [Function.update_of_ne hik] at hid ⊢
            exact hservers i hid
      · next hk =>
          exact hservers i hid
  | _ =>
      exact hsame (by simp)

/-- The world after a step of thread `i`. -/
def Process.after (w : Process) (semaphores : Mutex → Nat) (i : Nat) (e : Effect Shared Pc) :
    Process :=
  { semaphores := semaphores, data := e.data, threads := w.threads.set i e.next ++ e.spawned }

end Attachment

/-! ## What an action does to the connections of secondaries -/

/-- An action leaves the connections of secondaries alone, or acknowledges a secondary, or writes
the first or another chunk of a message to one. -/
inductive Touched (sh : Shared) (pc : Pc) (e : Effect Shared Pc) : Prop
  | elsewhere (hpeers : ∀ fd, sh.Secondary fd → e.data.peers fd = sh.peers fd)
      (hsending : ∀ fd, e.next.sending fd = pc.sending fd)
  | acked (socket : Int32) (hpc : pc = .secondaryAck socket)
      (heffect : e = { data := sh.write socket ackBytes, next := .ended, spawned := [] })
  | begun (site : Site) (m : WireMessage) (slots : List (Fin maxServers)) (fd : Int32)
      (writes : List Bytes) (hpc : pc = .message site m slots fd writes)
      (heffect : e =
        { data := (sh.begin fd m).write fd (writes.headD [])
          next := .replicate site m slots fd writes.tail
          spawned := [] })
  | chunk (site : Site) (m : WireMessage) (slots : List (Fin maxServers)) (fd : Int32)
      (bs : Bytes) (pending : List Bytes) (hpc : pc = .replicate site m slots fd (bs :: pending))
      (heffect : e =
        { data := sh.write fd bs, next := .replicate site m slots fd pending, spawned := [] })

section Touch

variable {sh : Shared} {pc : Pc} {input : Input} {e : Effect Shared Pc}

theorem Touched.of_same (hpeers : e.data.peers = sh.peers)
    (hsending : ∀ fd, e.next.sending fd = pc.sending fd) : Touched sh pc e :=
  .elsewhere (fun fd _ => by rw [hpeers]) hsending

theorem Touched.of_write {fd : Int32} {bs : Bytes} (hno : ¬sh.Secondary fd)
    (hdata : e.data = sh.write fd bs) (hsending : ∀ fd, e.next.sending fd = pc.sending fd) :
    Touched sh pc e := by
  refine .elsewhere (fun fd' hs => ?_) hsending
  rw [hdata]
  exact Shared.write_peers_of_ne (Shared.ne_of_secondary hno hs)

/-- An exit closes the descriptors of the device it looks up. -/
theorem closed_of_exitCommand {arg : UserCurrentSocket} {exited : Exited} (input : Input)
    (hres : Server.exitCommand sh.users sh.backupServers arg = some exited) :
    exited.closed = (Pc.exitRemove arg).addresses sh input := by
  unfold Server.exitCommand at hres
  split at hres
  · cases hres
  · cases hres
  · next p hdev =>
      simp only [Pc.addresses, hdev]
      dsimp only at hres
      split at hres
      · cases hres
      · cases hres
        rfl
      · cases hres
        rfl

theorem Acted.touched (hother : ∀ fd ∈ pc.addresses sh input, ¬sh.Secondary fd)
    (h : Acted sh pc input e) : Touched sh pc e := by
  cases h with
  | secondaryAcked socket input =>
      exact .acked socket rfl rfl
  | messageBegun site m slots fd writes input =>
      exact .begun site m slots fd writes rfl rfl
  | chunkWritten site m slots fd bs pending input =>
      exact .chunk site m slots fd bs pending rfl rfl
  | nackWritten | ackWritten | fileCommand | exitCommand | otherCommand | notificationChunk =>
      exact .of_write (hother _ (by simp [Pc.addresses])) rfl (by simp [Pc.sending])
  | restAcked arg c acks input hread =>
      refine .of_write (hother arg.currentSocket ?_) rfl (by simp [Pc.sending])
      cases input with
      | hangup =>
          exact absurd rfl hread
      | _ =>
          simp [Pc.addresses]
  | hungUp pc hreads =>
      exact .of_same rfl fun fd => by cases pc <;> first | rfl | cases hreads
  | replicated site m fd input =>
      exact .of_same rfl fun fd => by cases site <;> simp [Site.after, Pc.sending]
  | threadCreated con socket input =>
      refine .of_same (by rw [createThread_data]) fun fd => ?_
      rcases createThread_next con socket sh with hnext | hnext <;> rw [hnext] <;> rfl
  | sessionRemoved arg record exited hres =>
      -- what is closed are the three descriptors of the device
      refine .elsewhere (fun fd hs => ?_) fun fd => ?_
      · rw [closed_of_exitCommand (.memory record) hres]
        exact Shared.closeAll_peers_of_notMem _ fun hmem => hother fd hmem hs
      · dsimp only
        split <;> simp [Pc.sending]
  | _ =>
      exact .of_same rfl (by simp [Pc.sending])

/-- No action adds a thread that is to write the first bytes to a connection. -/
theorem Acted.unacked_le (h : Acted sh pc input e) (fd : Int32) :
    (if e.next.unacked = some fd then 1 else 0) +
      e.spawned.countP (fun t => t.unacked = some fd) ≤ if pc.unacked = some fd then 1 else 0 := by
  cases h with
  | threadCreated con socket input =>
      have hspawned : ∀ t ∈ (createThread con socket sh).spawned,
          decide (t.unacked = some fd) = false := by
        intro t ht
        rw [createThread_spawned con socket sh t ht]
        rfl
      rw [countP_eq_zero_of_forall hspawned]
      rcases createThread_next con socket sh with hnext | hnext <;>
        simp [hnext, Pc.unacked, Pc.registering]
  | replicated site m fd input =>
      cases site <;> simp [Site.after, Pc.unacked, Pc.registering]
  | sessionRemoved arg record exited hres =>
      dsimp only
      split <;> simp [Pc.unacked, Pc.registering]
  | serverCreated socket input =>
      by_cases hfd : socket = fd <;> simp [Pc.unacked, Pc.registering, hfd]
  | _ =>
      simp [Pc.unacked, Pc.registering]

theorem Acted.sending_spawned (h : Acted sh pc input e) (fd : Int32) :
    ∀ t ∈ e.spawned, t.sending fd = [] := by
  intro t ht
  rcases h.spawned t ht with ⟨socket, rfl⟩ | ⟨arg, rfl⟩ <;> rfl

end Touch

end Server
end DropboxSimulator
