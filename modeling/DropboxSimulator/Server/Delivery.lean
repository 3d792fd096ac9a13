import DropboxSimulator.Server.Channels
import DropboxSimulator.Server.Mutex

/-!
# Delivery — what the secondary servers are written and what they read

Messages for a secondary are written in chunks, under `mutex_user_structure` (`INSERT_USER`,
`EXIT`) or `mutex_server_structure` (`UPLOAD`, `DELETE`), and the acknowledgement of the secondary
is written under neither, after the secondary has been registered.  This file proves what does
hold: as long as the first bytes of a message are written only to a secondary that has read its
acknowledgement, while no thread under the other semaphore is amid a message to it, and no thread
takes its connection for one of a client (`Undisturbed`), each secondary is written its
acknowledgement and then whole messages, and reads just these.

* `Stage`    : how far a secondary has come, with what is still to be written to it;
* `Channels` : the invariant of the connections.
-/

namespace DropboxSimulator
namespace Server

open Library

/-! ## How far a secondary has come -/

/-- Nothing has been written to the peer and nothing has been read by it. -/
structure Peer.Untouched (peer : Peer) : Prop where
  isOpen : peer.isOpen = true
  stream : peer.stream = []
  unread : peer.unread = []
  reader : peer.reader = .waitAck
  received : peer.received = []
  sent : peer.sent = []

/-- How far a secondary has come while `pending` is still to be written to it: it has been
accepted, or been sent its acknowledgement, or has read it and reads messages since then. -/
inductive Stage (peer : Peer) (pending : List Bytes) : Prop
  | untouched (h : peer.Untouched) (hpending : pending = [])
  | acked (hopen : peer.isOpen = true) (hstream : peer.stream = [ackBytes])
      (hunread : peer.unread = ackBytes) (hreader : peer.reader = .waitAck)
      (hreceived : peer.received = []) (hsent : peer.sent = []) (hpending : pending = [])
  | consuming (hopen : peer.isOpen = true) (hstream : peer.stream ≠ [])
      (chunks : List Bytes) (messages : List WireMessage) (writes : List (List Bytes))
      (hunread : peer.unread = chunks.flatten) (hne : ∀ c ∈ chunks, c ≠ [])
      (hsent : peer.sent = peer.received ++ messages)
      (hconsumes : Consumes (secondServerProcessing peer.fileSizeBuffer.val) peer.reader
        (chunks ++ solid pending) messages [] (.command []))
      (hwrites : List.Forall₂ WrittenAs peer.sent writes)
      (hwhole : peer.stream.flatten ++ pending.flatten = ackBytes ++ writes.flatten.flatten)

section Stages

variable {peer : Peer} {pending : List Bytes}

theorem Stage.isOpen (h : Stage peer pending) : peer.isOpen = true := by
  cases h with
  | untouched h _ =>
      exact h.isOpen
  | acked hopen _ _ _ _ _ _ =>
      exact hopen
  | consuming hopen _ _ _ _ _ _ _ _ _ _ =>
      exact hopen

/-- A step of the secondary. -/
theorem Stage.read (h : Stage peer pending) {move : Move SecondaryState WireMessage}
    (hmove : (secondServerProcessing peer.fileSizeBuffer.val peer.reader).perform peer.unread =
      some move) :
    Stage
      { peer with
        reader := move.state
        unread := move.unread
        received := peer.received ++ move.noted } pending := by
  cases h with
  | untouched h hpending =>
      -- there is nothing to read
      rw [h.reader, h.unread] at hmove
      cases hmove
  | acked hopen hstream hunread hreader hreceived hsent hpending =>
      -- the acknowledgement is read alone, and the loop begins
      rw [hreader, hunread] at hmove
      cases hmove
      subst hpending
      exact .consuming hopen (by simp [hstream]) [] [] [] (by simp [ackBytes]) (by simp)
        (by simp [hreceived, hsent]) (.done _) (by simp [hsent]) (by simp [hstream])
  | consuming hopen hstream chunks messages writes hunread hne hsent hconsumes hwrites hwhole =>
      have hresting : Resting (secondServerProcessing peer.fileSizeBuffer.val) (.command []) :=
        ⟨4, _, readLargePayloadFromSocket_eq (by norm_num [commandPacketSize]) (by simp),
          by norm_num⟩
      rw [hunread] at hmove
      obtain ⟨chunks', messages', writes', hunread', hne', hnoted, hwritten, hconsumes'⟩ :=
        hconsumes.of_perform hresting hne hmove
      -- the secondary writes nothing
      have hwrites' : writes' = [] := (List.append_eq_nil_iff.1 hwritten.symm).2
      subst hwrites'
      refine .consuming hopen hstream chunks' messages' writes hunread' hne' ?_ hconsumes' hwrites
        hwhole
      rw [hsent, hnoted, List.append_assoc]

theorem Peer.Untouched.accepted {record : Connection} {fileSizeBuffer : CharArray 8} :
    (Peer.accepted record fileSizeBuffer).Untouched :=
  ⟨rfl, rfl, rfl, rfl, rfl, rfl⟩

/-- The acknowledgement is written. -/
theorem Peer.Untouched.write_ack (h : peer.Untouched) :
    Stage { peer with stream := peer.stream ++ [ackBytes], unread := peer.unread ++ ackBytes } [] :=
  .acked h.isOpen (by simp [h.stream]) (by simp [h.unread]) h.reader h.received h.sent rfl

/-- The next chunk of a message is written. -/
theorem Stage.write {bs : Bytes} (h : Stage peer (bs :: pending)) :
    Stage { peer with stream := peer.stream ++ [bs], unread := peer.unread ++ bs } pending := by
  cases h with
  | untouched _ hpending =>
      cases hpending
  | acked _ _ _ _ _ _ hpending =>
      cases hpending
  | consuming hopen hstream chunks messages writes hunread hne hsent hconsumes hwrites hwhole =>
      have hwhole' : (peer.stream ++ [bs]).flatten ++ pending.flatten =
          ackBytes ++ writes.flatten.flatten := by
        simpa using hwhole
      -- an empty write adds nothing to what can be read
      by_cases hbs : bs = []
      · subst hbs
        exact .consuming hopen (by simp) chunks messages writes (by simpa using hunread) hne hsent
          hconsumes hwrites hwhole'
      · refine .consuming hopen (by simp) (chunks ++ [bs]) messages writes (by simp [hunread]) ?_
          hsent ?_ hwrites hwhole'
        · intro c hc
          rcases List.mem_append.1 hc with hc | hc
          · exact hne c hc
          · rw [List.mem_singleton.1 hc]
            exact hbs
        · have hsolid : solid (bs :: pending) = bs :: solid pending :=
            List.filter_cons_of_pos (by simpa using hbs)
          rw [hsolid] at hconsumes
          simpa using hconsumes

/-- A message begins when the secondary has read its acknowledgement and nothing is pending. -/
theorem Stage.begin (h : Stage peer []) (hreader : peer.reader ≠ .waitAck) {m : WireMessage}
    {writes : List Bytes} (hm : Sendable m) (hwritten : WrittenAs m writes) :
    Stage { peer with sent := peer.sent ++ [m] } writes := by
  cases h with
  | untouched h _ =>
      exact absurd h.reader hreader
  | acked _ _ _ hwait _ _ _ =>
      exact absurd hwait hreader
  | consuming hopen hstream chunks messages before hunread hne hsent hconsumes hbefore hwhole =>
      rcases id hwritten with ⟨stale, hwrites⟩
      have hmessage := consumes_writes peer.fileSizeBuffer.property hm hwrites
      refine .consuming hopen hstream chunks (messages ++ [m]) (before ++ [writes]) hunread hne
        ?_ ?_ ?_ ?_
      · simp [hsent]
      · -- what is unread takes the loop to its start, and the message back there
        have hboth := hconsumes.trans hmessage
        simpa [solid] using hboth
      · exact List.rel_append hbefore (.cons hwritten .nil)
      · simp only [List.flatten_nil, List.append_nil] at hwhole
        simp [hwhole]

/-- The first bytes of a message are written. -/
theorem Stage.begin_write (h : Stage peer []) (hreader : peer.reader ≠ .waitAck)
    {m : WireMessage} {writes : List Bytes} (hm : Sendable m) (hwritten : WrittenAs m writes) :
    Stage
      { peer with
        stream := peer.stream ++ [writes.headD []]
        unread := peer.unread ++ writes.headD []
        sent := peer.sent ++ [m] } writes.tail := by
  have hbegun := h.begin hreader hm hwritten
  cases writes with
  | nil =>
      exact absurd rfl hwritten.ne_nil
  | cons bs pending =>
      exact hbegun.write

end Stages

/-! ## The invariant -/

/-- The thread is to write the first bytes to the connection. -/
def Pc.isUnacked (fd : Int32) (pc : Pc) : Bool :=
  pc.unacked = some fd

/-- What holds of the connections of secondaries between two steps. -/
structure Channels (w : Process) : Prop where
  servers : ∀ i, (w.data.backupServers i).id ≠ -1 →
    w.data.Secondary (w.data.backupServers i).socket
  attached : ∀ pc ∈ w.threads, Attached w.data pc
  once : ∀ fd, w.data.Secondary fd → w.threads.countP (Pc.isUnacked fd) ≤ 1
  untouched : ∀ pc ∈ w.threads, ∀ fd ∈ pc.unacked, ∀ peer, w.data.peers fd = some peer →
    peer.IsServer → peer.Untouched
  solo : ∀ fd, ∃ i, Solo (Pc.sending fd) w.threads i
  stage : ∀ fd peer, w.data.peers fd = some peer → peer.IsServer →
    Stage peer (w.threads.flatMap (Pc.sending fd))

/-- What an action of thread `i` needs to keep the invariant: a message begins only towards a
secondary that has read its acknowledgement and to which no other thread is sending. -/
def MayBegin (w : Process) (i : Nat) (pc : Pc) : Prop :=
  ∀ fd ∈ pc.beginning, Solo (Pc.sending fd) w.threads i ∧
    ∀ peer, w.data.peers fd = some peer → peer.reader ≠ .waitAck

section Update

variable {w : Process} {i : Nat} {pc : Pc} {e : Effect Shared Pc} {semaphores : Mutex → Nat}

/-- A thread that is to write the first bytes had the task before the step, or took it over. -/
theorem exists_unacked {fd : Int32}
    (hunacked : (if e.next.unacked = some fd then 1 else 0) +
      e.spawned.countP (Pc.isUnacked fd) ≤ if pc.unacked = some fd then 1 else 0)
    {t : Pc} (ht : t ∈ (w.after semaphores i e).threads) (hfd : t.unacked = some fd) :
    (∃ j, j ≠ i ∧ w.threads[j]? = some t) ∨
      (pc.unacked = some fd ∧ (t = e.next ∨ t ∈ e.spawned)) := by
  have hcases := exists_counting (p := Pc.isUnacked fd) (a := pc)
    (by simpa only [Pc.isUnacked, decide_eq_true_eq] using hunacked) ht (decide_eq_true hfd)
  simpa only [Pc.isUnacked, decide_eq_true_eq] using hcases

theorem Channels.once_after (hi : Channels w) (hpc : w.threads[i]? = some pc) {fd : Int32}
    (hsecondary : w.data.Secondary fd)
    (hunacked : (if e.next.unacked = some fd then 1 else 0) +
      e.spawned.countP (Pc.isUnacked fd) ≤ if pc.unacked = some fd then 1 else 0) :
    (w.after semaphores i e).threads.countP (Pc.isUnacked fd) ≤ 1 := by
  refine le_trans (countP_set_append_le hpc ?_) (hi.once fd hsecondary)
  simpa only [Pc.isUnacked, decide_eq_true_eq] using hunacked

/-- The peer of a connection that an action leaves alone. -/
theorem peer_of_elsewhere (hkeeps : w.data.Keeps e.data)
    (hpeers : ∀ fd, w.data.Secondary fd → e.data.peers fd = w.data.peers fd) {fd : Int32}
    {peer : Peer} (hpeer : e.data.peers fd = some peer) (hserver : peer.IsServer) :
    w.data.peers fd = some peer := by
  have hbefore : w.data.Secondary fd := (hkeeps fd).1 ⟨peer, hpeer, hserver⟩
  rw [← hpeers fd hbefore]
  exact hpeer

/-- The thread that is amid a message is the only one. -/
theorem Channels.solo_of_sending (hi : Channels w) (hpc : w.threads[i]? = some pc) {fd : Int32}
    (hsending : pc.sending fd ≠ []) : Solo (Pc.sending fd) w.threads i := by
  rcases hi.solo fd with ⟨k, hsolo⟩
  have hik : i = k := by
    by_contra hne
    exact hsending (hsolo i pc hpc hne)
  rwa [hik]

theorem Stage.not_untouched {peer : Peer} {bs : Bytes} {pending : List Bytes}
    (h : Stage peer (bs :: pending)) : ¬peer.Untouched := by
  intro huntouched
  cases h with
  | untouched _ hpending =>
      cases hpending
  | acked _ _ _ _ _ _ hpending =>
      cases hpending
  | consuming _ hstream _ _ _ _ _ _ _ _ _ =>
      exact hstream huntouched.stream

theorem Stage.pending_of_untouched {peer : Peer} {pending : List Bytes} (h : Stage peer pending)
    (huntouched : peer.Untouched) : pending = [] := by
  cases pending with
  | nil =>
      rfl
  | cons bs rest =>
      exact absurd huntouched h.not_untouched

theorem Channels.untouched_after (hi : Channels w) (hpc : w.threads[i]? = some pc)
    (htouched : Touched w.data pc e) (hkeeps : w.data.Keeps e.data) (hmay : MayBegin w i pc)
    {fd : Int32}
    (hunacked : (if e.next.unacked = some fd then 1 else 0) +
      e.spawned.countP (Pc.isUnacked fd) ≤ if pc.unacked = some fd then 1 else 0)
    {t : Pc} (ht : t ∈ (w.after semaphores i e).threads) (hfd : t.unacked = some fd) {peer : Peer}
    (hpeer : e.data.peers fd = some peer) (hserver : peer.IsServer) : peer.Untouched := by
  -- some thread had the task before the step, so the peer was untouched then
  have hbefore : ∀ old, w.data.peers fd = some old → old.IsServer → old.Untouched := by
    rcases exists_unacked hunacked ht hfd with ⟨j, _, hj⟩ | ⟨hpcfd, _⟩
    · exact hi.untouched t (List.mem_of_getElem? hj) fd hfd
    · exact hi.untouched pc (List.mem_of_getElem? hpc) fd hpcfd
  have hsame : w.data.peers fd = some peer → peer.Untouched := fun h => hbefore peer h hserver
  cases htouched with
  | elsewhere hpeers _ =>
      exact hsame (peer_of_elsewhere hkeeps hpeers hpeer hserver)
  | acked socket hpcs heffect =>
      subst hpcs heffect
      by_cases hne : fd = socket
      · subst hne
        -- one thread at most has the task, and this one has just done it
        rcases exists_unacked hunacked ht hfd with ⟨j, hji, hj⟩ | ⟨_, hnext | hspawned⟩
        · have hsecondary := (hi.attached _ (List.mem_of_getElem? hpc)).registering fd rfl
          exact absurd (eq_of_countP_le_one (hi.once fd hsecondary) hj hpc
            (by simp [Pc.isUnacked, hfd])
            (by simp [Pc.isUnacked, Pc.unacked, Pc.registering])) hji
        · rw [hnext] at hfd
          cases hfd
        · cases hspawned
      · exact hsame (by rwa [Shared.write_peers_of_ne hne] at hpeer)
  | chunk site m slots fd₀ bs pending hpcs heffect =>
      subst hpcs heffect
      by_cases hne : fd = fd₀
      · subst hne
        have hsending : (Pc.replicate site m slots fd (bs :: pending)).sending fd =
            bs :: pending := by
          simp [Pc.sending]
        obtain ⟨old, hold, hyes⟩ := (hi.attached _ (List.mem_of_getElem? hpc)).sending fd
          (by simp [hsending])
        have hstage := hi.stage fd old hold hyes
        rw [(hi.solo_of_sending hpc (by simp [hsending])).flatMap_eq hpc, hsending] at hstage
        -- a thread amid a message writes to a secondary that has been written to
        exact absurd (hbefore old hold hyes) hstage.not_untouched
      · exact hsame (by rwa [Shared.write_peers_of_ne hne] at hpeer)
  | begun site m slots fd₀ writes hpcs heffect =>
      subst hpcs heffect
      by_cases hne : fd = fd₀
      · subst hne
        rcases hmay fd rfl with ⟨_, hreader⟩
        rcases (hi.attached _ (List.mem_of_getElem? hpc)).beginning fd rfl with ⟨old, hold, hyes⟩
        exact absurd (hbefore old hold hyes).reader (hreader old hold)
      · rw [Shared.write_peers_of_ne hne, Shared.begin_peers_of_ne hne] at hpeer
        exact hsame hpeer

theorem Channels.solo_after (hi : Channels w) (hpc : w.threads[i]? = some pc)
    (htouched : Touched w.data pc e) (hmay : MayBegin w i pc)
    (hspawned : ∀ t ∈ e.spawned, ∀ fd, t.sending fd = []) (fd : Int32) :
    ∃ k, Solo (Pc.sending fd) (w.after semaphores i e).threads k := by
  have hnew : ∀ t ∈ e.spawned, t.sending fd = [] := fun t ht => hspawned t ht fd
  rcases hi.solo fd with ⟨k, hsolo⟩
  cases htouched with
  | elsewhere _ hsending =>
      exact ⟨k, hsolo.set hpc (Or.inl (hsending fd)) hnew⟩
  | acked socket hpcs heffect =>
      subst hpcs heffect
      exact ⟨k, hsolo.set hpc (Or.inl rfl) hnew⟩
  | chunk site m slots fd₀ bs pending hpcs heffect =>
      subst hpcs heffect
      by_cases hne : fd₀ = fd
      · subst hne
        exact ⟨i, (hi.solo_of_sending hpc (by simp [Pc.sending])).set hpc (Or.inr rfl) hnew⟩
      · exact ⟨k, hsolo.set hpc (Or.inl (by simp [Pc.sending, hne])) hnew⟩
  | begun site m slots fd₀ writes hpcs heffect =>
      subst hpcs heffect
      by_cases hne : fd₀ = fd
      · subst hne
        exact ⟨i, (hmay fd₀ rfl).1.set hpc (Or.inr rfl) hnew⟩
      · exact ⟨k, hsolo.set hpc (Or.inl (by simp [Pc.sending, hne])) hnew⟩

theorem Channels.stage_after (hi : Channels w) (hpc : w.threads[i]? = some pc)
    (htouched : Touched w.data pc e) (hkeeps : w.data.Keeps e.data) (hmay : MayBegin w i pc)
    (hspawned : ∀ t ∈ e.spawned, ∀ fd, t.sending fd = []) {fd : Int32} {peer : Peer}
    (hpeer : e.data.peers fd = some peer) (hserver : peer.IsServer) :
    Stage peer ((w.after semaphores i e).threads.flatMap (Pc.sending fd)) := by
  have hnew : ∀ t ∈ e.spawned, t.sending fd = [] := fun t ht => hspawned t ht fd
  have hattached := hi.attached pc (List.mem_of_getElem? hpc)
  change Stage peer ((w.threads.set i e.next ++ e.spawned).flatMap (Pc.sending fd))
  -- a connection that the action leaves alone, with nothing more or less to be written to it
  have hframe : e.next.sending fd = pc.sending fd → w.data.peers fd = some peer →
      Stage peer ((w.threads.set i e.next ++ e.spawned).flatMap (Pc.sending fd)) := by
    intro hsending hold
    rw [flatMap_set_append hpc hsending hnew]
    exact hi.stage fd peer hold hserver
  cases htouched with
  | elsewhere hpeers hsending =>
      exact hframe (hsending fd) (peer_of_elsewhere hkeeps hpeers hpeer hserver)
  | acked socket hpcs heffect =>
      subst hpcs heffect
      by_cases hne : fd = socket
      · subst hne
        rcases hattached.registering fd rfl with ⟨old, hold, hyes⟩
        have huntouched := hi.untouched _ (List.mem_of_getElem? hpc) fd rfl old hold hyes
        have hpending := (hi.stage fd old hold hyes).pending_of_untouched huntouched
        rw [Shared.write_of_open hold huntouched.isOpen, Shared.setPeer_peers_self] at hpeer
        cases hpeer
        change Stage _ ((w.threads.set i .ended ++ []).flatMap (Pc.sending fd))
        -- no thread was sending to a secondary without its acknowledgement
        rw [flatMap_set_append hpc (b := .ended) rfl (by simp), hpending]
        exact huntouched.write_ack
      · exact hframe rfl (by rwa [Shared.write_peers_of_ne hne] at hpeer)
  | chunk site m slots fd₀ bs pending hpcs heffect =>
      subst hpcs heffect
      by_cases hne : fd = fd₀
      · subst hne
        have hsending : (Pc.replicate site m slots fd (bs :: pending)).sending fd =
            bs :: pending := by
          simp [Pc.sending]
        have hsolo := hi.solo_of_sending hpc (by rw [hsending]; simp)
        rcases hattached.sending fd (by simp [hsending]) with ⟨old, hold, hyes⟩
        have hstage := hi.stage fd old hold hyes
        rw [hsolo.flatMap_eq hpc, hsending] at hstage
        rw [Shared.write_of_open hold hstage.isOpen, Shared.setPeer_peers_self] at hpeer
        cases hpeer
        have hafter : Solo (Pc.sending fd)
            (w.threads.set i (.replicate site m slots fd pending) ++ []) i :=
          hsolo.set hpc (Or.inr rfl) (by simp)
        rw [hafter.flatMap_eq (getElem?_set_append_self hpc)]
        simpa [Pc.sending] using hstage.write
      · refine hframe ?_ (by rwa [Shared.write_peers_of_ne hne] at hpeer)
        simp [Pc.sending, Ne.symm hne]
  | begun site m slots fd₀ writes hpcs heffect =>
      subst hpcs heffect
      by_cases hne : fd = fd₀
      · subst hne
        rcases hmay fd rfl with ⟨hquiet, hreader⟩
        have hsound : site.Sound ∧ Sendable m ∧ WrittenAs m writes := hattached.sound
        rcases hattached.beginning fd rfl with ⟨old, hold, hyes⟩
        have hstage := hi.stage fd old hold hyes
        rw [hquiet.flatMap_eq hpc] at hstage
        rw [Shared.begin_write_peers hold hstage.isOpen] at hpeer
        cases hpeer
        have hafter : Solo (Pc.sending fd)
            (w.threads.set i (.replicate site m slots fd writes.tail) ++ []) i :=
          hquiet.set hpc (Or.inr rfl) (by simp)
        rw [hafter.flatMap_eq (getElem?_set_append_self hpc)]
        simpa [Pc.sending] using hstage.begin_write (hreader old hold) hsound.2.1 hsound.2.2
      · rw [Shared.write_peers_of_ne hne, Shared.begin_peers_of_ne hne] at hpeer
        refine hframe ?_ hpeer
        simp [Pc.sending, Ne.symm hne]

/-- What an effect on the threads and the connections leaves as it should be. -/
structure Proper (w : Process) (pc : Pc) (e : Effect Shared Pc) : Prop where
  keeps : w.data.Keeps e.data
  servers : ∀ i, (e.data.backupServers i).id ≠ -1 →
    e.data.Secondary (e.data.backupServers i).socket
  next : Attached e.data e.next
  spawned : ∀ t ∈ e.spawned, Attached e.data t
  sending : ∀ t ∈ e.spawned, ∀ fd, t.sending fd = []
  unacked : ∀ fd, (if e.next.unacked = some fd then 1 else 0) +
    e.spawned.countP (Pc.isUnacked fd) ≤ if pc.unacked = some fd then 1 else 0

theorem Acted.proper {input : Input} (hi : Channels w) (hpc : Attached w.data pc)
    (h : Acted w.data pc input e) : Proper w pc e where
  keeps := h.keeps
  servers := h.servers hpc hi.servers
  next := (h.attached hpc hi.servers).1
  spawned := (h.attached hpc hi.servers).2
  sending := fun t ht fd => h.sending_spawned fd t ht
  unacked := h.unacked_le

/-- A step of one thread keeps the invariant. -/
theorem Channels.after (hi : Channels w) (hpc : w.threads[i]? = some pc)
    (htouched : Touched w.data pc e) (hproper : Proper w pc e) (hmay : MayBegin w i pc) :
    Channels (w.after semaphores i e) where
  servers := hproper.servers
  attached := by
    intro t ht
    rcases List.mem_iff_getElem?.1 ht with ⟨j, hj⟩
    rcases getElem?_set_append hj with ⟨_, rfl⟩ | ⟨_, hold⟩ | hmem
    · exact hproper.next
    · exact (hi.attached t (List.mem_of_getElem? hold)).mono fun fd => (hproper.keeps fd).2
    · exact hproper.spawned t hmem
  once := fun fd hs => hi.once_after hpc ((hproper.keeps fd).1 hs) (hproper.unacked fd)
  untouched := fun t ht fd hfd peer hpeer hserver =>
    hi.untouched_after hpc htouched hproper.keeps hmay (hproper.unacked fd) ht hfd hpeer hserver
  solo := hi.solo_after hpc htouched hmay hproper.sending
  stage := fun fd peer hpeer hserver =>
    hi.stage_after hpc htouched hproper.keeps hmay hproper.sending hpeer hserver

/-- A thread that waits or posts changes only where it stands. -/
theorem Channels.after_semaphore (hi : Channels w) (hpc : w.threads[i]? = some pc) {m : Mutex}
    {k : Pc} (hstep : Waited pc m k ∨ Posted pc m k) :
    Channels { w with semaphores := semaphores, threads := w.threads.set i k } := by
  have hattached := hi.attached pc (List.mem_of_getElem? hpc)
  have hsending : ∀ fd, k.sending fd = pc.sending fd := by
    intro fd
    rcases hstep with h | h <;> cases h <;> simp [Pc.sending]
  have hunacked : ∀ fd, k.unacked = some fd → pc.unacked = some fd := by
    intro fd hfd
    rcases hstep with h | h <;> cases h <;> exact hfd
  have hproper : Proper w pc { data := w.data, next := k, spawned := [] } :=
    { keeps := .of_peers rfl
      servers := hi.servers
      next := hattached.semaphore hstep
      spawned := by simp
      sending := by simp
      unacked := by
        intro fd
        by_cases hfd : k.unacked = some fd
        · simp [hfd, hunacked fd hfd]
        · simp [hfd] }
  have hmay : MayBegin w i pc := by
    intro fd hfd
    rcases hstep with h | h <;> cases h <;> cases hfd
  have hafter : Channels (w.after semaphores i { data := w.data, next := k, spawned := [] }) :=
    hi.after hpc (.of_same rfl hsending) hproper hmay
  simpa [Process.after] using hafter

/-! ## What happens around the threads -/

/-- The connection of a secondary is never closed. -/
theorem Channels.isOpen (hi : Channels w) {fd : Int32} {peer : Peer}
    (hpeer : w.data.peers fd = some peer) (hserver : peer.IsServer) : peer.isOpen = true :=
  (hi.stage fd peer hpeer hserver).isOpen

/-- A new connection keeps the invariant, where no thread is still to identify or to register the
descriptor that a secondary gets. -/
theorem Channels.accept (hi : Channels w) {fd : Int32} {record : Connection}
    {fileSizeBuffer : CharArray 8}
    (hclosed : ((w.data.peers fd).map Peer.isOpen).getD false = false)
    (hnone : record.packetType = packetServerConn → ∀ t ∈ w.threads, t.unacked ≠ some fd) :
    Channels
      { w with
        data := w.data.setPeer fd (Peer.accepted record fileSizeBuffer)
        threads := w.threads ++ [.mediator fd] } := by
  have hno : ¬w.data.Secondary fd := by
    rintro ⟨old, hold, hyes⟩
    rw [hold, Option.map_some, hi.isOpen hold hyes] at hclosed
    cases hclosed
  have hsub : ∀ fd', w.data.Secondary fd' →
      (w.data.setPeer fd (Peer.accepted record fileSizeBuffer)).Secondary fd' := by
    intro fd' hs
    rwa [Shared.Secondary, Shared.setPeer_peers_of_ne (Shared.ne_of_secondary hno hs)]
  have hold : ∀ {fd' peer}, fd' ≠ fd →
      (w.data.setPeer fd (Peer.accepted record fileSizeBuffer)).peers fd' = some peer →
      w.data.peers fd' = some peer := by
    intro fd' peer hne hpeer
    rwa [Shared.setPeer_peers_of_ne hne] at hpeer
  -- nothing was to be sent to a secondary at `fd`
  have hquiet : ∀ t ∈ w.threads, t.sending fd = [] := by
    intro t ht
    by_contra hsending
    exact hno ((hi.attached t ht).sending fd hsending)
  have hnew : (w.data.setPeer fd (Peer.accepted record fileSizeBuffer)).Secondary fd →
      record.packetType = packetServerConn := by
    rintro ⟨peer, hpeer, hyes⟩
    rw [Shared.setPeer_peers_self] at hpeer
    cases hpeer
    exact hyes
  refine ⟨fun i hid => hsub _ (hi.servers i hid), fun t ht => ?_, fun fd' hs => ?_, ?_,
    fun fd' => ?_, ?_⟩
  · rcases List.mem_append.1 ht with ht | ht
    · exact (hi.attached t ht).mono hsub
    · rw [List.mem_singleton.1 ht]
      exact attached_of_none trivial rfl rfl fun _ => rfl
  · rw [List.countP_append]
    by_cases hne : fd' = fd
    · subst hne
      have hzero : w.threads.countP (Pc.isUnacked fd') = 0 := by
        refine countP_eq_zero_of_forall fun t ht => ?_
        simpa [Pc.isUnacked] using hnone (hnew hs) t ht
      simp [hzero, Pc.isUnacked, Pc.unacked]
    · rcases hs with ⟨peer, hpeer, hyes⟩
      have honce := hi.once fd' ⟨peer, hold hne hpeer, hyes⟩
      simpa [Pc.isUnacked, Pc.unacked, Ne.symm hne] using honce
  · intro t ht fd' hfd' peer hpeer hyes
    by_cases hne : fd' = fd
    · subst hne
      rw [Shared.setPeer_peers_self] at hpeer
      cases hpeer
      exact .accepted
    · rcases List.mem_append.1 ht with ht | ht
      · exact hi.untouched t ht fd' hfd' peer (hold hne hpeer) hyes
      · rw [List.mem_singleton.1 ht] at hfd'
        cases hfd'
        exact absurd rfl hne
  · rcases hi.solo fd' with ⟨k, hsolo⟩
    -- a mediator sends nothing
    exact ⟨k, hsolo.append (List.forall_mem_singleton.2 rfl)⟩
  · intro fd' peer hpeer hyes
    have hpending : (w.threads ++ [Pc.mediator fd]).flatMap (Pc.sending fd') =
        w.threads.flatMap (Pc.sending fd') := by
      simp [Pc.sending]
    rw [hpending]
    by_cases hne : fd' = fd
    · subst hne
      rw [Shared.setPeer_peers_self] at hpeer
      cases hpeer
      rw [List.flatMap_eq_nil_iff.2 hquiet]
      exact .untouched .accepted rfl
    · exact hi.stage fd' peer (hold hne hpeer) hyes

/-- The secondary at `fd`, or whoever is there, takes a step. -/
theorem Channels.read (hi : Channels w) {fd : Int32} {peer : Peer}
    (hpeer : w.data.peers fd = some peer) {move : Move SecondaryState WireMessage}
    (hmove : (secondServerProcessing peer.fileSizeBuffer.val peer.reader).perform peer.unread =
      some move) :
    Channels
      { w with
        data := w.data.setPeer fd
          { peer with
            reader := move.state
            unread := move.unread
            received := peer.received ++ move.noted } } := by
  have hkeeps : w.data.Keeps (w.data.setPeer fd
      { peer with
        reader := move.state
        unread := move.unread
        received := peer.received ++ move.noted }) := .setPeer hpeer rfl
  refine ⟨fun i hid => (hkeeps _).2 (hi.servers i hid),
    fun t ht => (hi.attached t ht).mono fun fd' => (hkeeps fd').2,
    fun fd' hs => hi.once fd' ((hkeeps fd').1 hs), fun t ht fd' hfd' new hnew hyes => ?_, hi.solo,
    fun fd' new hnew hyes => ?_⟩
  · by_cases hne : fd' = fd
    · subst hne
      rw [Shared.setPeer_peers_self] at hnew
      cases hnew
      -- a secondary that nothing has been written to cannot take a step
      have huntouched := hi.untouched t ht fd' hfd' peer hpeer hyes
      rw [huntouched.reader, huntouched.unread] at hmove
      cases hmove
    · rw [Shared.setPeer_peers_of_ne hne] at hnew
      exact hi.untouched t ht fd' hfd' new hnew hyes
  · by_cases hne : fd' = fd
    · subst hne
      rw [Shared.setPeer_peers_self] at hnew
      cases hnew
      exact (hi.stage fd' peer hpeer hyes).read hmove
    · rw [Shared.setPeer_peers_of_ne hne] at hnew
      exact hi.stage fd' new hnew hyes

end Update

/-! ## Undisturbed runs -/

/-- The secondary at `fd` is ready for a message of the thread: it has read its acknowledgement,
and no thread under the other semaphore is amid a message to it. -/
def Process.Ready (w : Process) (pc : Pc) (fd : Int32) : Prop :=
  (∀ peer ∈ w.data.peers fd, peer.reader ≠ .waitAck) ∧
    ∀ t ∈ w.threads, t.critical ≠ pc.critical → t.sending fd = []

/-- The first bytes of a message are written only to a secondary that is ready for it, no thread
takes the connection of a secondary for one of a client, and a secondary connects with a descriptor
that no thread is still to identify or to register. -/
def Undisturbed (w : Process) : Label → Prop
  | .thread i input =>
      ∀ pc ∈ w.threads[i]?, (∀ fd ∈ pc.beginning, w.Ready pc fd) ∧
        ∀ fd ∈ pc.addresses w.data input, ¬w.data.Secondary fd
  | .env (.accept fd record _) =>
      record.packetType = packetServerConn → ∀ t ∈ w.threads, t.unacked ≠ some fd
  | .env (.read _) => True

section Runs

variable {w w' : Process} {l : Label}

/-- Under one semaphore no two threads are amid messages. -/
theorem mayBegin (hb : Balanced Pc.holds w) {i : Nat} {pc : Pc} {input : Input}
    (hpc : w.threads[i]? = some pc) (hok : Undisturbed w (.thread i input)) : MayBegin w i pc := by
  intro fd hfd
  rcases (hok pc hpc).1 fd hfd with ⟨hreader, hother⟩
  refine ⟨fun k t hk hki => ?_, fun peer hpeer => hreader peer hpeer⟩
  by_contra hsending
  cases pc with
  | message site m slots fd' writes =>
      by_cases hsame : t.critical = some site.mutex
      · -- both threads are inside a section of the semaphore of the site
        have ht : t.holds site.mutex = true := by simp [Pc.holds, hsame]
        exact hki (hb.exclusive hk hpc ht (decide_eq_true rfl))
      · exact hsending (hother t (List.mem_of_getElem? hk) hsame)
  | _ =>
      cases hfd

/-- An undisturbed step keeps the invariant. -/
theorem Channels.step (hi : Channels w) (hb : Balanced Pc.holds w) (hok : Undisturbed w l)
    (h : w.step l = some w') : Channels w' := by
  cases Process.step_cases h with
  | semaphore hpc hstep semaphores =>
      exact hi.after_semaphore hpc hstep
  | act hpc hacted =>
      have hattached := hi.attached _ (List.mem_of_getElem? hpc)
      exact hi.after hpc (hacted.touched (hok _ hpc).2) (hacted.proper hi hattached)
        (mayBegin hb hpc hok)
  | env hsurrounded =>
      cases hsurrounded with
      | accepted fd record fileSizeBuffer hfd hclosed =>
          exact hi.accept hclosed hok
      | read fd peer move hpeer hmove =>
          simpa using hi.read hpeer hmove

theorem Channels.initial : Channels Process.initial where
  servers := fun _ hid => absurd rfl hid
  attached := fun _ ht => by cases ht
  once := fun _ _ => Nat.zero_le 1
  untouched := fun _ ht => by cases ht
  solo := fun _ => ⟨0, fun _ _ hj => by cases hj⟩
  stage := fun _ _ hpeer => by cases hpeer

theorem Reaches.channels (h : Reaches Process.step Undisturbed Process.initial w) : Channels w := by
  induction h with
  | start =>
      exact .initial
  | next l hreach hok hl ih =>
      exact ih.step (Reaches.balanced hreach) hok hl

end Runs

/-! ## What the secondaries read -/

/-- The peer has been written its acknowledgement and then whole messages, the last one up to
`pending`, and decodes just these in their order. -/
structure Peer.Served (peer : Peer) (pending : List Bytes) : Prop where
  written : (peer.stream = [] ∧ peer.sent = []) ∨ ∃ writes,
    List.Forall₂ WrittenAs peer.sent writes ∧
      peer.stream.flatten ++ pending.flatten = ackBytes ++ writes.flatten.flatten
  decoded : peer.received <+: peer.sent
  complete : pending = [] →
    (secondServerProcessing peer.fileSizeBuffer.val peer.reader).perform peer.unread = none →
      peer.received = peer.sent

theorem Stage.served {peer : Peer} {pending : List Bytes} (h : Stage peer pending) :
    peer.Served pending := by
  cases h with
  | untouched h hpending =>
      exact ⟨Or.inl ⟨h.stream, h.sent⟩, by simp [h.received], fun _ _ => by rw [h.received, h.sent]⟩
  | acked hopen hstream hunread hreader hreceived hsent hpending =>
      refine ⟨Or.inr ⟨[], by simp [hsent], by simp [hstream, hpending]⟩, by simp [hreceived],
        fun _ _ => by rw [hreceived, hsent]⟩
  | consuming hopen hstream chunks messages writes hunread hne hsent hconsumes hwrites hwhole =>
      refine ⟨Or.inr ⟨writes, hwrites, hwhole⟩, ⟨messages, hsent.symm⟩, fun hpending hstuck => ?_⟩
      subst hpending
      rw [show chunks ++ solid [] = chunks from List.append_nil _] at hconsumes
      rw [hunread] at hstuck
      rw [hsent, (hconsumes.of_stuck hne hstuck).1, List.append_nil]

/-- In an undisturbed run each registered secondary is written `ack` and then whole messages, and
decodes exactly the messages sent to it, in the order in which they were sent. -/
theorem secondary_served {w : Process}
    (h : Reaches Process.step Undisturbed Process.initial w) (i : Fin maxServers)
    (hid : (w.data.backupServers i).id ≠ -1) :
    ∃ peer, w.data.peers (w.data.backupServers i).socket = some peer ∧
      peer.Served (w.threads.flatMap (Pc.sending (w.data.backupServers i).socket)) := by
  have hi := Reaches.channels h
  rcases hi.servers i hid with ⟨peer, hpeer, hyes⟩
  exact ⟨peer, hpeer, (hi.stage _ peer hpeer hyes).served⟩

/-- The connection record of the server with an id. -/
def serverRecord (id : Int32) : Connection :=
  { oneLetterRequest 97 id 0 with packetType := packetServerConn }

/-- A secondary connects and is registered in the first slot; its acknowledgement is still to
come. -/
def registerSteps : List Label :=
  [.env (.accept 3 (serverRecord 1) emptySizeBuffer), .thread 0 .go, .thread 0 .go,
    .thread 0 .go]

/-- A secondary connects and is acknowledged, and then a device connects and its admission is sent
to the secondary up to the first chunk. -/
def admissionAfterAck : List Label :=
  registerSteps ++ [.thread 0 .go, .thread 0 .go, .thread 1 .go, .env (.read 3)] ++
    requestSteps 2 4 (oneLetterRequest 97 1 socketT1) ++
    [.thread 2 (.stack emptyPacket), .thread 2 .go, .thread 2 .go]

/-- The same with the device before the acknowledgement. -/
def admissionBeforeAck : List Label :=
  registerSteps ++ requestSteps 1 4 (oneLetterRequest 97 1 socketT1) ++
    [.thread 1 (.stack emptyPacket), .thread 1 .go]

instance (s : SecondaryState) : Decidable (s = .waitAck) :=
  match s with
  | .waitAck => isTrue rfl
  | .command _ | .uploadSize _ | .uploadPayload _ _ _ | .insertUser _ | .exit _ | .received _
  | .ended => isFalse nofun

instance (sh : Shared) (fd : Int32) : Decidable (sh.Secondary fd) :=
  match h : sh.peers fd with
  | some peer =>
      decidable_of_iff (peer.record.packetType = packetServerConn)
        (by simp [Shared.Secondary, Peer.IsServer, h])
  | none => isFalse (by simp [Shared.Secondary, h])

instance (w : Process) (pc : Pc) (fd : Int32) : Decidable (w.Ready pc fd) :=
  inferInstanceAs (Decidable ((∀ peer ∈ w.data.peers fd, peer.reader ≠ .waitAck) ∧
    ∀ t ∈ w.threads, t.critical ≠ pc.critical → t.sending fd = []))

-- The instances are given for lists and options: descriptors are too many to go through them all.
instance (w : Process) (l : Label) : Decidable (Undisturbed w l) :=
  match l with
  | .thread i input =>
      have : ∀ pc : Pc, Decidable (∀ fd ∈ pc.beginning, w.Ready pc fd) :=
        fun _ => Option.decidableForallMem _
      have : ∀ pc : Pc, Decidable (∀ fd ∈ pc.addresses w.data input, ¬w.data.Secondary fd) :=
        fun _ => List.decidableBAll _ _
      inferInstanceAs (Decidable (∀ pc ∈ w.threads[i]?, (∀ fd ∈ pc.beginning, w.Ready pc fd) ∧
        ∀ fd ∈ pc.addresses w.data input, ¬w.data.Secondary fd))
  | .env (.accept fd record _) =>
      inferInstanceAs (Decidable (record.packetType = packetServerConn →
        ∀ t ∈ w.threads, t.unacked ≠ some fd))
  | .env (.read _) => inferInstanceAs (Decidable True)

def admitted : Process :=
  (runWhile Process.step Undisturbed Process.initial admissionAfterAck).get (by decide +kernel)

theorem secondary_served_admitted :
    ∃ peer, admitted.data.peers (admitted.data.backupServers 0).socket = some peer ∧
      peer.Served
        (admitted.threads.flatMap (Pc.sending (admitted.data.backupServers 0).socket)) := by
  have hreached : Reaches Process.step Undisturbed Process.initial admitted :=
    Reaches.of_runWhile (Option.some_get _).symm
  have hid : (admitted.data.backupServers 0).id ≠ -1 := by decide +kernel
  exact secondary_served hreached 0 hid

/-- A device that connects before a registered secondary has been acknowledged: the first bytes
written to the secondary are the ones of a message. -/
theorem admissionBeforeAck_misread :
    ∃ w peer, run Process.step Process.initial admissionBeforeAck = some w ∧
      (w.data.backupServers 0).id = 1 ∧
      w.data.peers (w.data.backupServers 0).socket = some peer ∧
      ∀ more messages, peer.stream.flatten ++ more ≠ ackBytes ++ messages := by
  have hrun : (run Process.step Process.initial admissionBeforeAck).bind (fun w =>
      (w.data.peers (w.data.backupServers 0).socket).map fun peer =>
        ((w.data.backupServers 0).id, peer.stream)) = some (1, [[1, 0, 0, 0]]) := by
    decide +kernel
  rcases Option.bind_eq_some_iff.1 hrun with ⟨w, hw, hpeer⟩
  rcases Option.map_eq_some_iff.1 hpeer with ⟨peer, hpeer, hval⟩
  rcases Prod.mk.inj hval with ⟨hid, hstream⟩
  refine ⟨w, peer, hw, hid, hpeer, fun more messages heq => ?_⟩
  rw [hstream] at heq
  have hfirst := (List.cons.inj heq).1
  exact absurd hfirst (by decide)

end Server
end DropboxSimulator
