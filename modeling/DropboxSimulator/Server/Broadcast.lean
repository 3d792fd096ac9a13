import DropboxSimulator.Server.Enrolment

/-!
# Broadcast — the order in which the secondaries are told

A message goes to the secondaries in a loop over `backupServers`, under `mutex_user_structure`
(`INSERT_USER`, `EXIT`) or under `mutex_server_structure` (`UPLOAD`, `DELETE`).  No two loops run
under one semaphore at a time, so the messages of one semaphore reach all registered secondaries in
one order.  Between the two semaphores there is no such order.

* `Subscribed`         : each slot in use has a secondary of its own, and a loop visits each once;
* `Process.told`       : what has been begun towards a slot, with what its loop has still to begin;
* `told_step`          : a step adds the same to what every slot in use is told;
* `told_in_one_order`  : so does a run;
* `decoded_in_one_order` : and in an undisturbed run that is what the secondaries decode.
-/

namespace DropboxSimulator
namespace Server

open Library

/-! ## Slots and their secondaries -/

namespace Pc

/-- The connection that the thread may still register. -/
def newcomer : Pc → Option Int32
  | .mediator socket => some socket
  | .serverWait _ socket => some socket
  | .serverInsert _ socket => some socket
  | _ => none

def isNewcomer (fd : Int32) (pc : Pc) : Bool :=
  pc.newcomer = some fd

end Pc

/-- The semaphore under which a message is sent. -/
def sentUnder : WireMessage → Mutex
  | .upload _ _ => .server
  | .delete _ => .server
  | .insertUser _ => .user
  | .exit _ => .user

/-- A loop over `backupServers` sends a message of its own semaphore, and what it has still to visit
are the last slots; amid a message it has just visited the slot before them. -/
def Pc.Loops (sh : Shared) : Pc → Prop
  | .message site m slots fd _ => sentUnder m = site.mutex ∧
      ∃ k, (k :: slots) <:+ allServers ∧ (sh.backupServers k).id ≠ -1 ∧
        (sh.backupServers k).socket = fd
  | .replicate site m slots _ _ => sentUnder m = site.mutex ∧ slots <:+ allServers
  | _ => True

/-- What holds of the slots in use in every run. -/
structure Subscribed (w : Process) : Prop where
  servers : ∀ k, (w.data.backupServers k).id ≠ -1 →
    w.data.Secondary (w.data.backupServers k).socket
  attached : ∀ pc ∈ w.threads, Attached w.data pc
  distinct : ∀ k k', (w.data.backupServers k).id ≠ -1 → (w.data.backupServers k').id ≠ -1 →
    (w.data.backupServers k).socket = (w.data.backupServers k').socket → k = k'
  once : ∀ fd, w.data.Secondary fd → w.threads.countP (Pc.isNewcomer fd) ≤ 1
  fresh : ∀ pc ∈ w.threads, ∀ fd ∈ pc.newcomer, w.data.Secondary fd →
    ∀ k, (w.data.backupServers k).id ≠ -1 → (w.data.backupServers k).socket ≠ fd
  loops : ∀ pc ∈ w.threads, pc.Loops w.data

section Subscription

variable {w w' : Process} {l : Label} {i : Nat} {pc k : Pc} {m : Mutex} {input : Input}
variable {sh sh' : Shared} {e : Effect Shared Pc} {semaphores : Mutex → Nat}

theorem sentUnder_message (c : FileCommand) (userName : Bytes) :
    sentUnder (c.message userName) = .server := by
  cases c <;> rfl

/-- A loop stands where it stood while the slots in use stay. -/
theorem Pc.Loops.mono (h : pc.Loops sh)
    (hslots : ∀ k, (sh.backupServers k).id ≠ -1 → sh'.backupServers k = sh.backupServers k) :
    pc.Loops sh' := by
  cases pc with
  | message site msg slots fd writes =>
      rcases h with ⟨hmutex, k, hsuffix, hid, hsocket⟩
      exact ⟨hmutex, k, hsuffix, by rwa [hslots k hid], by rwa [hslots k hid]⟩
  | replicate site msg slots fd pending =>
      exact h
  | _ =>
      trivial

/-- A thread that comes out of a semaphore stands at the start of a loop, or in none. -/
theorem loops_of_semaphore (h : Waited pc m k ∨ Posted pc m k) : k.Loops sh := by
  rcases h with hwait | hpost
  · cases hwait with
    | replicateWait arg c =>
        exact ⟨sentUnder_message c arg.userName, List.suffix_rfl⟩
    | _ =>
        trivial
  · cases hpost <;> trivial

/-- A loop goes on with the slots that are left. -/
theorem Acted.loops (h : Acted sh pc input e) (hpc : pc.Loops sh) :
    e.next.Loops e.data ∧ ∀ t ∈ e.spawned, t.Loops e.data := by
  refine ⟨?_, fun t ht => ?_⟩
  · cases h with
    | ackWritten con socket input =>
        exact ⟨rfl, List.suffix_rfl⟩
    | chunkWritten site msg slots fd bs pending input =>
        exact hpc
    | messageReady site msg i rest fd stale writes hid hwrites =>
        exact ⟨hpc.1, i, hpc.2, hid, rfl⟩
    | messageBegun site msg slots fd writes input =>
        rcases hpc with ⟨hmutex, k, hsuffix, _⟩
        exact ⟨hmutex, (List.suffix_cons k slots).trans hsuffix⟩
    | slotSkipped site msg i rest fd stale hid =>
        exact ⟨hpc.1, (List.suffix_cons i rest).trans hpc.2⟩
    | replicated site msg fd input =>
        cases site <;> trivial
    | threadCreated con socket input =>
        rcases createThread_next con socket sh with hnext | hnext <;> rw [hnext] <;> trivial
    | sessionRemoved arg record exited hres =>
        dsimp only
        split
        · exact ⟨rfl, List.suffix_rfl⟩
        · trivial
    | _ =>
        trivial
  · rcases h.spawned t ht with ⟨socket, rfl⟩ | ⟨arg, rfl⟩ <;> trivial

/-- No action adds a thread that may register a connection. -/
theorem Acted.newcomer_le (h : Acted sh pc input e) (fd : Int32) :
    (if e.next.isNewcomer fd then 1 else 0) + e.spawned.countP (Pc.isNewcomer fd) ≤
      if pc.isNewcomer fd then 1 else 0 := by
  have hspawned : ∀ t ∈ e.spawned, t.isNewcomer fd = false := by
    intro t ht
    rcases h.spawned t ht with ⟨socket, rfl⟩ | ⟨arg, rfl⟩ <;> rfl
  rw [countP_eq_zero_of_forall hspawned]
  cases h with
  | replicated site msg fd input =>
      cases site <;> simp [Site.after, Pc.isNewcomer, Pc.newcomer]
  | threadCreated con socket input =>
      rcases createThread_next con socket sh with hnext | hnext <;>
        simp [hnext, Pc.isNewcomer, Pc.newcomer]
  | sessionRemoved arg record exited hres =>
      dsimp only
      split <;> simp [Pc.isNewcomer, Pc.newcomer]
  | _ =>
      simp [Pc.isNewcomer, Pc.newcomer]

theorem newcomer_of_semaphore (h : Waited pc m k ∨ Posted pc m k) (fd : Int32) :
    k.isNewcomer fd = pc.isNewcomer fd := by
  rcases h with hwait | hpost
  · cases hwait <;> rfl
  · cases hpost <;> rfl

/-- The threads that may register a connection after an action did so before it. -/
theorem Subscribed.newcomers_after (hi : Subscribed w) (hpc : w.threads[i]? = some pc)
    (hkeeps : w.data.Keeps e.data)
    (hle : ∀ fd, (if e.next.isNewcomer fd then 1 else 0) + e.spawned.countP (Pc.isNewcomer fd) ≤
      if pc.isNewcomer fd then 1 else 0)
    (hslots : e.data.backupServers = w.data.backupServers) :
    (∀ fd, e.data.Secondary fd →
      (w.threads.set i e.next ++ e.spawned).countP (Pc.isNewcomer fd) ≤ 1) ∧
    ∀ t ∈ w.threads.set i e.next ++ e.spawned, ∀ fd ∈ t.newcomer, e.data.Secondary fd →
      ∀ k, (e.data.backupServers k).id ≠ -1 → (e.data.backupServers k).socket ≠ fd := by
  refine ⟨fun fd hs => ?_, fun t ht fd hfd hs k hk => ?_⟩
  · exact (countP_set_append_le hpc (hle fd)).trans (hi.once fd ((hkeeps fd).1 hs))
  · have hbefore := (hkeeps fd).1 hs
    rw [hslots] at hk ⊢
    rcases exists_counting (hle fd) ht (decide_eq_true hfd) with ⟨j, _, hj⟩ | ⟨hpcfd, _⟩
    · exact hi.fresh t (List.mem_of_getElem? hj) fd hfd hbefore k hk
    · exact hi.fresh pc (List.mem_of_getElem? hpc) fd (of_decide_eq_true hpcfd) hbefore k hk

/-- A step of thread `i` that leaves the table of secondaries as it is. -/
theorem Subscribed.after (hi : Subscribed w) (hpc : w.threads[i]? = some pc)
    (hkeeps : w.data.Keeps e.data) (hslots : e.data.backupServers = w.data.backupServers)
    (hattached : Attached e.data e.next ∧ ∀ t ∈ e.spawned, Attached e.data t)
    (hloops : e.next.Loops e.data ∧ ∀ t ∈ e.spawned, t.Loops e.data)
    (hle : ∀ fd, (if e.next.isNewcomer fd then 1 else 0) + e.spawned.countP (Pc.isNewcomer fd) ≤
      if pc.isNewcomer fd then 1 else 0) :
    Subscribed (w.after semaphores i e) := by
  have hnewcomers := hi.newcomers_after hpc hkeeps hle hslots
  refine ⟨fun k hk => ?_, fun t ht => ?_, fun k k' hk hk' heq => ?_, hnewcomers.1, hnewcomers.2,
    fun t ht => ?_⟩
  · change (e.data.backupServers k).id ≠ -1 at hk
    change e.data.Secondary (e.data.backupServers k).socket
    rw [hslots] at hk ⊢
    exact (hkeeps _).2 (hi.servers k hk)
  · rcases mem_set_append ht with ht | rfl | ht
    · exact (hi.attached t (List.mem_of_mem_eraseIdx ht)).mono fun fd => (hkeeps fd).2
    · exact hattached.1
    · exact hattached.2 t ht
  · change (e.data.backupServers k).id ≠ -1 at hk
    change (e.data.backupServers k').id ≠ -1 at hk'
    change (e.data.backupServers k).socket = (e.data.backupServers k').socket at heq
    rw [hslots] at hk hk' heq
    exact hi.distinct k k' hk hk' heq
  · rcases mem_set_append ht with ht | rfl | ht
    · exact (hi.loops t (List.mem_of_mem_eraseIdx ht)).mono fun k _ => congrFun hslots k
    · exact hloops.1
    · exact hloops.2 t ht

/-- `insert_server` fills a free slot, or none. -/
theorem insertServer_cases (servers : BackupServers) (id socket : Int32) :
    (insertServer servers id socket).1 = servers ∨
      ∃ k, (servers k).id = -1 ∧
        (insertServer servers id socket).1 =
          Function.update servers k { id := id, socket := socket } := by
  unfold insertServer
  split
  · next k hk => exact Or.inr ⟨k, SlotArray.key_of_find hk, rfl⟩
  · exact Or.inl rfl

/-- A connection that is registered gets a slot of its own. -/
theorem Subscribed.inserted (hi : Subscribed w) {id socket : Int32}
    (hpc : w.threads[i]? = some (.serverInsert id socket))
    (hacted : Acted w.data (.serverInsert id socket) input e)
    (hslots : e.data.backupServers = (insertServer w.data.backupServers id socket).1)
    (hnext : e.next = .serverPost socket) (hspawned : e.spawned = []) :
    Subscribed (w.after semaphores i e) := by
  have hmem := List.mem_of_getElem? hpc
  have hattached := hacted.attached (hi.attached _ hmem) hi.servers
  have hloops := hacted.loops (hi.loops _ hmem)
  rcases insertServer_cases w.data.backupServers id socket with hsame | ⟨k₀, hfree, hupdate⟩
  · exact hi.after hpc hacted.keeps (hslots.trans hsame) hattached hloops hacted.newcomer_le
  · have hkeeps := hacted.keeps
    have hsocket : w.data.Secondary socket := (hi.attached _ hmem).registering socket rfl
    have hnew : e.data.backupServers k₀ = { id := id, socket := socket } := by
      rw [hslots, hupdate, Function.update_self]
    have hold : ∀ k, k ≠ k₀ → e.data.backupServers k = w.data.backupServers k := by
      intro k hne
      rw [hslots, hupdate, Function.update_of_ne hne]
    -- nobody else has the connection
    have hnone : ∀ k, (w.data.backupServers k).id ≠ -1 →
        (w.data.backupServers k).socket ≠ socket :=
      hi.fresh _ hmem socket rfl hsocket
    refine ⟨hacted.servers (hi.attached _ hmem) hi.servers, fun t ht => ?_,
      fun k k' hk hk' heq => ?_, fun fd hs => ?_, fun t ht fd hfd hs k hk => ?_, fun t ht => ?_⟩
    · rcases mem_set_append ht with ht | rfl | ht
      · exact (hi.attached t (List.mem_of_mem_eraseIdx ht)).mono fun fd => (hkeeps fd).2
      · exact hattached.1
      · exact hattached.2 t ht
    · change (e.data.backupServers k).id ≠ -1 at hk
      change (e.data.backupServers k').id ≠ -1 at hk'
      change (e.data.backupServers k).socket = (e.data.backupServers k').socket at heq
      by_cases hkk : k = k₀
      · subst hkk
        by_contra hne
        rw [hold k' (Ne.symm hne)] at hk' heq
        rw [hnew] at heq
        exact hnone k' hk' heq.symm
      · rw [hold k hkk] at hk heq
        by_cases hkk' : k' = k₀
        · subst hkk'
          rw [hnew] at heq
          exact absurd heq (hnone k hk)
        · rw [hold k' hkk'] at hk' heq
          exact hi.distinct k k' hk hk' heq
    · exact (countP_set_append_le hpc (hacted.newcomer_le fd)).trans
        (hi.once fd ((hkeeps fd).1 hs))
    · change (e.data.backupServers k).id ≠ -1 at hk
      change (e.data.backupServers k).socket ≠ fd
      have hbefore := (hkeeps fd).1 hs
      -- the connection that is registered is no newcomer any more
      rcases exists_counting (hacted.newcomer_le fd) ht (decide_eq_true hfd) with
        ⟨j, hji, hj⟩ | ⟨_, hlast | hlast⟩
      · by_cases hkk : k = k₀
        · subst hkk
          rw [hnew]
          rintro rfl
          exact hji (eq_of_countP_le_one (hi.once socket hbefore) hj hpc (decide_eq_true hfd)
            (decide_eq_true rfl))
        · rw [hold k hkk] at hk ⊢
          exact hi.fresh t (List.mem_of_getElem? hj) fd hfd hbefore k hk
      · rw [hlast, hnext] at hfd
        cases hfd
      · rw [hspawned] at hlast
        cases hlast
    · rcases mem_set_append ht with ht | rfl | ht
      · refine (hi.loops t (List.mem_of_mem_eraseIdx ht)).mono fun k hk => hold k ?_
        rintro rfl
        exact hk hfree
      · exact hloops.1
      · exact hloops.2 t ht

/-- A new connection is that of no slot in use. -/
theorem Subscribed.accept (hi : Subscribed w) (hg : Guarded w) {fd : Int32} {record : Connection}
    {fileSizeBuffer : CharArray 8}
    (hclosed : ((w.data.peers fd).map Peer.isOpen).getD false = false) :
    Subscribed
      { w with
        data := w.data.setPeer fd (Peer.accepted record fileSizeBuffer)
        threads := w.threads ++ [.mediator fd] } := by
  have hno : ¬w.data.Secondary fd := by
    rintro ⟨old, hold, hyes⟩
    rw [hold, Option.map_some, hg.secondaries fd old hold hyes] at hclosed
    cases hclosed
  have hsub : ∀ fd', w.data.Secondary fd' →
      (w.data.setPeer fd (Peer.accepted record fileSizeBuffer)).Secondary fd' := by
    intro fd' hs
    rwa [Shared.Secondary, Shared.setPeer_peers_of_ne (Shared.ne_of_secondary hno hs)]
  have hback : ∀ fd', fd' ≠ fd →
      (w.data.setPeer fd (Peer.accepted record fileSizeBuffer)).Secondary fd' →
      w.data.Secondary fd' := by
    intro fd' hne hs
    rwa [Shared.Secondary, Shared.setPeer_peers_of_ne hne] at hs
  -- no thread was to register what had this number before
  have hquiet : ∀ t ∈ w.threads, t.newcomer ≠ some fd := by
    intro t ht hfd
    cases t with
    | mediator socket =>
        rcases hg.asking _ ht fd hfd with ⟨old, hold, hopen⟩
        rw [hold, Option.map_some, hopen] at hclosed
        cases hclosed
    | serverWait id socket =>
        exact hno ((hi.attached _ ht).registering fd hfd)
    | serverInsert id socket =>
        exact hno ((hi.attached _ ht).registering fd hfd)
    | _ =>
        cases hfd
  refine ⟨fun k hk => hsub _ (hi.servers k hk), fun t ht => ?_, hi.distinct, fun fd' hs => ?_,
    fun t ht fd' hfd' hs k hk => ?_, fun t ht => ?_⟩
  · rcases List.mem_append.1 ht with ht | ht
    · exact (hi.attached t ht).mono hsub
    · rw [List.mem_singleton.1 ht]
      exact attached_of_none trivial rfl rfl fun _ => rfl
  · rw [List.countP_append]
    by_cases hne : fd' = fd
    · subst hne
      have hzero : w.threads.countP (Pc.isNewcomer fd') = 0 :=
        countP_eq_zero_of_forall fun t ht => decide_eq_false (hquiet t ht)
      simp [hzero, Pc.isNewcomer, Pc.newcomer]
    · have honce := hi.once fd' (hback fd' hne hs)
      simpa [Pc.isNewcomer, Pc.newcomer, Ne.symm hne] using honce
  · have hslot : (w.data.backupServers k).socket ≠ fd := by
      rintro rfl
      exact hno (hi.servers k hk)
    rcases List.mem_append.1 ht with ht | ht
    · by_cases hne : fd' = fd
      · exact absurd (hne ▸ hfd') (hquiet t ht)
      · exact hi.fresh t ht fd' hfd' (hback fd' hne hs) k hk
    · rw [List.mem_singleton.1 ht] at hfd'
      cases hfd'
      exact hslot
  · rcases List.mem_append.1 ht with ht | ht
    · exact (hi.loops t ht).mono fun _ _ => rfl
    · rw [List.mem_singleton.1 ht]
      trivial

/-- A step in which the connections keep their records and the threads stay where they are. -/
theorem Subscribed.of_keeps (hi : Subscribed w) (hkeeps : w.data.Keeps sh')
    (hslots : sh'.backupServers = w.data.backupServers) : Subscribed { w with data := sh' } := by
  refine ⟨fun k hk => ?_, fun t ht => (hi.attached t ht).mono fun fd => (hkeeps fd).2,
    fun k k' hk hk' heq => ?_, fun fd hs => hi.once fd ((hkeeps fd).1 hs),
    fun t ht fd hfd hs k hk => ?_, fun t ht => (hi.loops t ht).mono fun k _ => congrFun hslots k⟩
  · dsimp only at hk ⊢
    rw [hslots] at hk ⊢
    exact (hkeeps _).2 (hi.servers k hk)
  · dsimp only at hk hk' heq
    rw [hslots] at hk hk' heq
    exact hi.distinct k k' hk hk' heq
  · dsimp only at hk ⊢
    rw [hslots] at hk ⊢
    exact hi.fresh t ht fd hfd ((hkeeps fd).1 hs) k hk

theorem Subscribed.step (hi : Subscribed w) (hg : Guarded w) (h : w.step l = some w') :
    Subscribed w' := by
  cases Process.step_cases h with
  | @semaphore i input pc k m hpc hstep semaphores =>
      have hmem := List.mem_of_getElem? hpc
      have hafter : Subscribed
          (w.after semaphores i { data := w.data, next := k, spawned := [] }) := by
        refine hi.after hpc (.of_peers rfl) rfl ⟨(hi.attached _ hmem).semaphore hstep, by simp⟩
          ⟨loops_of_semaphore hstep, by simp⟩ fun fd => ?_
        rw [newcomer_of_semaphore hstep]
        simp
      simpa [Process.after] using hafter
  | @act i input pc e hpc hacted =>
      have hmem := List.mem_of_getElem? hpc
      have hattached := hacted.attached (hi.attached _ hmem) hi.servers
      have hloops := hacted.loops (hi.loops _ hmem)
      have hsame : e.data.backupServers = w.data.backupServers →
          Subscribed (w.after w.semaphores i e) := fun hslots =>
        hi.after hpc hacted.keeps hslots hattached hloops hacted.newcomer_le
      cases hacted with
      | serverInserted id socket input =>
          exact hi.inserted hpc (.serverInserted id socket input) rfl rfl rfl
      | _ =>
          exact hsame (by simp)
  | env hsurrounded =>
      cases hsurrounded with
      | accepted fd record fileSizeBuffer hfd hclosed =>
          exact hi.accept hg hclosed
      | read fd peer move hpeer hmove =>
          have hkeeps : w.data.Keeps (w.data.setPeer fd
              { peer with
                reader := move.state
                unread := move.unread
                received := peer.received ++ move.noted }) := .setPeer hpeer rfl
          simpa using hi.of_keeps hkeeps rfl

theorem Subscribed.initial : Subscribed Process.initial where
  servers := fun _ hid => absurd rfl hid
  attached := fun _ ht => by cases ht
  distinct := fun _ _ hid => absurd rfl hid
  once := fun _ _ => Nat.zero_le 1
  fresh := fun _ ht => by cases ht
  loops := fun _ ht => by cases ht

/-- In every run the slots in use have secondaries of their own. -/
theorem Reaches.subscribed {ok : Process → Label → Prop}
    (h : Reaches Process.step ok Process.initial w) : Subscribed w := by
  induction h with
  | start =>
      exact .initial
  | next l hreach _ hl ih =>
      exact ih.step (Reaches.guarded hreach) hl

end Subscription

/-! ## What a slot is told -/

/-- The messages begun towards a connection. -/
def Shared.sentTo (sh : Shared) (fd : Int32) : List WireMessage :=
  ((sh.peers fd).map Peer.sent).getD []

/-- The message that the thread has still to begin towards slot `k` with the descriptor `fd`, if it
sends under semaphore `c`. -/
def Pc.outstanding (c : Mutex) (k : Fin maxServers) (fd : Int32) : Pc → List WireMessage
  | .message site m slots fd' _ => if site.mutex = c ∧ (fd' = fd ∨ k ∈ slots) then [m] else []
  | .replicate site m slots _ _ => if site.mutex = c ∧ k ∈ slots then [m] else []
  | _ => []

/-- A thread whose next action may begin a message or enter a loop. -/
def Pc.tells : Pc → Bool
  | .message _ _ _ _ _ => true
  | .admitAck _ _ => true
  | .exitRemove _ => true
  | _ => false

/-- The messages of semaphore `c` that have been begun towards slot `k`. -/
def Process.begun (w : Process) (c : Mutex) (k : Fin maxServers) : List WireMessage :=
  (w.data.sentTo (w.data.backupServers k).socket).filter fun m => sentUnder m = c

/-- The same with the one that the loop under way has still to begin. -/
def Process.told (w : Process) (c : Mutex) (k : Fin maxServers) : List WireMessage :=
  w.begun c k ++ w.threads.flatMap (Pc.outstanding c k (w.data.backupServers k).socket)

section Telling

variable {w w' w₀ : Process} {l : Label} {i : Nat} {pc : Pc} {input : Input} {c : Mutex}
variable {sh sh' : Shared} {e : Effect Shared Pc} {semaphores : Mutex → Nat}
variable {k : Fin maxServers} {fd fd' : Int32} {bs : Bytes} {m : WireMessage}

theorem Shared.sentTo_setPeer {old peer : Peer} (hold : sh.peers fd = some old)
    (hsent : peer.sent = old.sent) : (sh.setPeer fd peer).sentTo fd' = sh.sentTo fd' := by
  by_cases hfd : fd' = fd
  · subst hfd
    simp [Shared.sentTo, hold, hsent]
  · simp [Shared.sentTo, Shared.setPeer_peers_of_ne hfd]

theorem Shared.sentTo_write : (sh.write fd bs).sentTo fd' = sh.sentTo fd' := by
  unfold Shared.write
  split
  · rfl
  · next peer hpeer =>
      split
      · exact Shared.sentTo_setPeer hpeer rfl
      · rfl

theorem Shared.sentTo_close : (sh.close fd).sentTo fd' = sh.sentTo fd' := by
  unfold Shared.close
  split
  · rfl
  · next peer hpeer => exact Shared.sentTo_setPeer hpeer rfl

theorem Shared.sentTo_closeAll (fds : List Int32) :
    (fds.foldl Shared.close sh).sentTo fd' = sh.sentTo fd' := by
  induction fds generalizing sh with
  | nil =>
      rfl
  | cons fd rest ih =>
      rw [List.foldl_cons, ih, Shared.sentTo_close]

/-- A message is begun towards one connection. -/
theorem Shared.sentTo_begin (hfd : (sh.peers fd).isSome = true) :
    (sh.begin fd m).sentTo fd' = sh.sentTo fd' ++ if fd' = fd then [m] else [] := by
  rcases Option.isSome_iff_exists.1 hfd with ⟨peer, hpeer⟩
  simp only [Shared.begin, hpeer]
  by_cases heq : fd' = fd
  · subst heq
    simp [Shared.sentTo, hpeer]
  · simp [Shared.sentTo, Shared.setPeer_peers_of_ne heq, heq]

/-- No other action begins a message. -/
theorem Acted.sentTo (h : Acted sh pc input e) (hpc : pc.tells = false) (fd : Int32) :
    e.data.sentTo fd = sh.sentTo fd := by
  cases h with
  | secondaryAcked | nackWritten | ackWritten | chunkWritten | fileCommand | exitCommand
  | otherCommand | restAcked | notificationChunk =>
      exact Shared.sentTo_write
  | messageBegun | sessionRemoved =>
      cases hpc
  | threadCreated con socket input =>
      rw [createThread_data]
  | _ =>
      rfl

/-- Who has something to begin holds the semaphore. -/
theorem Pc.holds_of_outstanding (h : pc.outstanding c k fd ≠ []) : pc.holds c = true := by
  cases pc with
  | message site msg slots fd' writes =>
      simp only [Pc.outstanding] at h
      split at h
      · next hsite => exact decide_eq_true (congrArg some hsite.1)
      · exact absurd rfl h
  | replicate site msg slots fd' pending =>
      simp only [Pc.outstanding] at h
      split at h
      · next hsite => exact decide_eq_true (congrArg some hsite.1)
      · exact absurd rfl h
  | _ =>
      exact absurd rfl h

/-- Beside a thread that holds the semaphore no other one has something to begin. -/
theorem solo_outstanding (hb : Balanced Pc.holds w) (hpc : w.threads[i]? = some pc)
    (hin : pc.holds c = true) : Solo (Pc.outstanding c k fd) w.threads i := by
  intro j t ht hji
  by_contra hout
  exact hji (hb.exclusive ht hpc (Pc.holds_of_outstanding hout) hin)

theorem outstanding_of_spawned {new : List Pc}
    (h : ∀ t ∈ new, (∃ socket, t = .secondaryAck socket) ∨ (∃ arg, t = .command arg) ∨
      ∃ socket, t = .mediator socket) :
    ∀ t ∈ new, t.outstanding c k fd = [] := by
  intro t ht
  rcases h t ht with ⟨socket, rfl⟩ | ⟨arg, rfl⟩ | ⟨socket, rfl⟩ <;> rfl

/-- A turn of a thread that leaves what is begun and what is outstanding as it is. -/
theorem told_same (hpc : w.threads[i]? = some pc)
    (hslot : e.data.backupServers k = w.data.backupServers k)
    (hsent : e.data.sentTo (w.data.backupServers k).socket =
      w.data.sentTo (w.data.backupServers k).socket)
    (hout : e.next.outstanding c k (w.data.backupServers k).socket =
      pc.outstanding c k (w.data.backupServers k).socket)
    (hspawned : ∀ t ∈ e.spawned, t.outstanding c k (w.data.backupServers k).socket = []) :
    (w.after semaphores i e).told c k = w.told c k := by
  simp only [Process.told, Process.begun, Process.after, hslot, hsent]
  rw [flatMap_set_append hpc hout hspawned]

/-- A turn of the only thread that sends under the semaphore. -/
theorem told_alone (semaphores : Mutex → Nat) (hpc : w.threads[i]? = some pc)
    (hsolo : Solo (Pc.outstanding c k (w.data.backupServers k).socket) w.threads i)
    (hslot : e.data.backupServers k = w.data.backupServers k)
    (hspawned : ∀ t ∈ e.spawned, t.outstanding c k (w.data.backupServers k).socket = []) :
    w.told c k = w.begun c k ++ pc.outstanding c k (w.data.backupServers k).socket ∧
      (w.after semaphores i e).told c k =
        (w.after semaphores i e).begun c k ++
          e.next.outstanding c k (w.data.backupServers k).socket := by
  have hafter := hsolo.set (b := e.next) hpc (Or.inr rfl) hspawned
  refine ⟨by rw [Process.told, hsolo.flatMap_eq hpc], ?_⟩
  have hnext : (w.after semaphores i e).threads[i]? = some e.next := getElem?_set_append_self hpc
  simp only [Process.told, Process.after, hslot] at hnext ⊢
  rw [hafter.flatMap_eq hnext]

/-- A thread enters a loop: its message is outstanding towards every slot. -/
theorem told_entered {site : Site} (hpc : w.threads[i]? = some pc)
    (hb' : Balanced Pc.holds (w.after semaphores i e))
    (hnext : e.next = .replicate site m allServers (-1) [])
    (hout : ∀ c k fd, pc.outstanding c k fd = []) (hspawned : e.spawned = [])
    (hslots : e.data.backupServers = w.data.backupServers)
    (hsent : ∀ fd, e.data.sentTo fd = w.data.sentTo fd) (c : Mutex) (k : Fin maxServers) :
    (w.after semaphores i e).told c k = w.told c k ++ if site.mutex = c then [m] else [] := by
  have hslot := congrFun hslots k
  have hnone : ∀ t ∈ e.spawned, t.outstanding c k (w.data.backupServers k).socket = [] := by
    simp [hspawned]
  by_cases hsite : site.mutex = c
  · -- nobody else was under the semaphore
    have hnext' : (w.after semaphores i e).threads[i]? = some e.next :=
      getElem?_set_append_self hpc
    have hin : e.next.holds c = true := by
      rw [hnext]
      exact decide_eq_true (congrArg some hsite)
    have hsolo : Solo (Pc.outstanding c k (w.data.backupServers k).socket) w.threads i :=
      fun j t ht hji =>
        solo_outstanding hb' hnext' hin j t (getElem?_set_append_of_ne ht hji) hji
    obtain ⟨hbefore, hafter⟩ := told_alone semaphores hpc hsolo hslot hnone
    have hbegun : (w.after semaphores i e).begun c k = w.begun c k := by
      simp only [Process.begun, Process.after, hslot, hsent]
    rw [hbefore, hafter, hbegun, hout, hnext]
    simp [Pc.outstanding, hsite]
  · have hsame : e.next.outstanding c k (w.data.backupServers k).socket =
        pc.outstanding c k (w.data.backupServers k).socket := by
      rw [hout, hnext]
      simp [Pc.outstanding, hsite]
    rw [told_same hpc hslot (hsent _) hsame hnone, if_neg hsite, List.append_nil]

/-- A message is begun towards the slot that its loop visits, and is outstanding there no more. -/
theorem told_begun (hi : Subscribed w) (hb : Balanced Pc.holds w) {site : Site}
    {slots : List (Fin maxServers)} {writes pending : List Bytes}
    (hpc : w.threads[i]? = some (.message site m slots fd writes))
    (hk : (w.data.backupServers k).id ≠ -1) :
    (w.after semaphores i
        { data := (w.data.begin fd m).write fd bs
          next := .replicate site m slots fd pending
          spawned := [] }).told c k = w.told c k := by
  have hmem := List.mem_of_getElem? hpc
  obtain ⟨hmutex, k₀, hsuffix, hid, hsocket⟩ :
      sentUnder m = site.mutex ∧ ∃ k₀, (k₀ :: slots) <:+ allServers ∧
        (w.data.backupServers k₀).id ≠ -1 ∧ (w.data.backupServers k₀).socket = fd :=
    hi.loops _ hmem
  have hnodup : (k₀ :: slots).Nodup := (List.nodup_finRange maxServers).sublist hsuffix.sublist
  have hpeer : (w.data.peers fd).isSome = true := by
    rcases hi.servers k₀ hid with ⟨peer, hpeer, _⟩
    rw [← hsocket, hpeer]
    rfl
  have hsent : ∀ fd', ((w.data.begin fd m).write fd bs).sentTo fd' =
      w.data.sentTo fd' ++ if fd' = fd then [m] else [] := fun fd' => by
    rw [Shared.sentTo_write, Shared.sentTo_begin hpeer]
  by_cases hsite : site.mutex = c
  · have hin : (Pc.message site m slots fd writes).holds c = true :=
      decide_eq_true (congrArg some hsite)
    have hsolo : Solo (Pc.outstanding c k (w.data.backupServers k).socket) w.threads i :=
      solo_outstanding hb hpc hin
    obtain ⟨hbefore, hafter⟩ := told_alone semaphores
      (e := { data := (w.data.begin fd m).write fd bs
              next := .replicate site m slots fd pending
              spawned := [] }) hpc hsolo (by simp) (by simp)
    rw [hbefore, hafter]
    by_cases hkk : k = k₀
    · -- the slot that is visited is not visited again
      subst hkk
      have hnot : k ∉ slots := (List.nodup_cons.1 hnodup).1
      simp [Process.begun, Process.after, hsent, hsocket, Pc.outstanding, hsite, hnot, hmutex]
    · have hne : (w.data.backupServers k).socket ≠ fd := by
        rw [← hsocket]
        exact fun heq => hkk (hi.distinct k k₀ hk hid heq)
      simp [Process.begun, Process.after, hsent, hne, Ne.symm hne, Pc.outstanding]
  · -- the messages of the other semaphore stay what they are
    simp only [Process.told, Process.begun, Process.after, Shared.write_backupServers,
      Shared.begin_backupServers, hsent, List.filter_append]
    rw [flatMap_set_append hpc (by simp [Pc.outstanding, hsite]) (by simp)]
    split
    · simp [hmutex, hsite]
    · simp

/-- An action that neither enters a loop nor begins a message keeps what is outstanding. -/
theorem Acted.outstanding (h : Acted sh pc input e) (hpc : pc.tells = false)
    (hrunning : e.next.fault = none)
    (hdistinct : ∀ k', (sh.backupServers k').id ≠ -1 →
      (sh.backupServers k').socket = (sh.backupServers k).socket → k' = k)
    (hk : (sh.backupServers k).id ≠ -1) :
    e.next.outstanding c k (sh.backupServers k).socket =
      pc.outstanding c k (sh.backupServers k).socket := by
  cases h with
  | messageReady site m i rest fd stale writes hid hwrites =>
      -- the slot that is visited is the one with its descriptor
      have hsame : (sh.backupServers i).socket = (sh.backupServers k).socket ↔ k = i :=
        ⟨fun heq => (hdistinct i hid heq).symm, fun heq => by rw [heq]⟩
      simp [Pc.outstanding, hsame]
  | slotSkipped site m i rest fd stale hid =>
      have hne : k ≠ i := by
        rintro rfl
        exact hk hid
      simp [Pc.outstanding, hne]
  | messageBegun | ackWritten | sessionRemoved =>
      cases hpc
  | messageOverflow site m i rest fd stale hid hwrites =>
      cases hrunning
  | replicated site m fd input =>
      cases site <;> simp [Pc.outstanding, Site.after]
  | threadCreated con socket input =>
      rcases createThread_next con socket sh with hnext | hnext <;> rw [hnext] <;> rfl
  | hungUp pc hreads =>
      cases pc <;> first | rfl | cases hreads
  | _ =>
      rfl

/-- A step tells every slot in use the same. -/
theorem told_step (hi : Subscribed w) (hg : Guarded w) (hb : Balanced Pc.holds w)
    (hb' : Balanced Pc.holds w') (h : w.step l = some w')
    (hrunning : ∀ t ∈ w'.threads, t.fault = none) (c : Mutex) :
    ∃ news, ∀ k, (w.data.backupServers k).id ≠ -1 → w'.told c k = w.told c k ++ news := by
  cases Process.step_cases h with
  | @semaphore i input pc next m hpc hstep semaphores =>
      have hafter : ({ w with semaphores := semaphores, threads := w.threads.set i next } :
          Process) = w.after semaphores i { data := w.data, next := next, spawned := [] } := by
        simp [Process.after]
      rw [hafter] at hb' ⊢
      by_cases hfile : ∃ arg c', pc = .replicateWait arg c'
      · rcases hfile with ⟨arg, c', rfl⟩
        rcases hstep with hwait | hpost
        · cases hwait
          exact ⟨_, fun k _ =>
            told_entered hpc hb' rfl (fun _ _ _ => rfl) rfl rfl (fun _ => rfl) c k⟩
        · cases hpost
      · refine ⟨[], fun k _ => ?_⟩
        rw [List.append_nil]
        refine told_same hpc rfl rfl ?_ (by simp)
        rcases hstep with hwait | hpost
        · cases hwait with
          | replicateWait arg c' =>
              exact absurd ⟨arg, c', rfl⟩ hfile
          | _ =>
              rfl
        · cases hpost <;> rfl
  | @act i input pc e hpc hacted =>
      have hafter : ({ w with data := e.data, threads := w.threads.set i e.next ++ e.spawned } :
          Process) = w.after w.semaphores i e := rfl
      rw [hafter] at h hb' ⊢
      have hnext : e.next.fault = none :=
        hrunning _ (List.mem_of_getElem? (getElem?_set_append_self hpc))
      have hspawned : ∀ t ∈ e.spawned, (∃ socket, t = .secondaryAck socket) ∨
          (∃ arg, t = .command arg) ∨ ∃ socket, t = .mediator socket :=
        fun t ht => (hacted.spawned t ht).imp_right Or.inl
      have hsame : pc.tells = false → ∃ news, ∀ k, (w.data.backupServers k).id ≠ -1 →
          (w.after w.semaphores i e).told c k = w.told c k ++ news := by
        intro htells
        refine ⟨[], fun k hk => ?_⟩
        rw [List.append_nil]
        exact told_same hpc (backupServers_step h hk) (hacted.sentTo htells _)
          (hacted.outstanding htells hnext
            (fun k' hk' heq => hi.distinct k' k hk' hk heq) hk)
          (outstanding_of_spawned hspawned)
      cases hacted with
      | messageBegun site m slots fd writes input =>
          refine ⟨[], fun k hk => ?_⟩
          rw [List.append_nil]
          exact told_begun hi hb hpc hk
      | ackWritten con socket input =>
          exact ⟨_, fun k _ => told_entered hpc hb' rfl (fun _ _ _ => rfl) rfl
            (Shared.write_backupServers ..) (fun _ => Shared.sentTo_write) c k⟩
      | sessionRemoved arg record exited hres =>
          by_cases hcode : exited.code = .success
          · have hentered : (if exited.code = .success then
                Pc.replicate .exit (.exit record) allServers (-1) [] else .exitPost) =
                .replicate .exit (.exit record) allServers (-1) [] := if_pos hcode
            exact ⟨_, fun k _ => told_entered hpc hb' hentered (fun _ _ _ => rfl) rfl (by simp)
              (fun _ => Shared.sentTo_closeAll _) c k⟩
          · -- nothing is sent about a device that could not be removed
            refine ⟨[], fun k _ => ?_⟩
            rw [List.append_nil]
            refine told_same hpc (by simp) (Shared.sentTo_closeAll _) ?_ (by simp)
            simp [hcode, Pc.outstanding]
      | hungUp pc hreads =>
          exact hsame (by cases pc <;> first | rfl | cases hreads)
      | exitUndefined =>
          cases hnext
      | _ =>
          exact hsame rfl
  | @env a sh' spawned hsurrounded =>
      refine ⟨[], fun k hk => ?_⟩
      have hslot : sh'.backupServers k = w.data.backupServers k := backupServers_step h hk
      have hnone : ∀ t ∈ spawned, t.outstanding c k (w.data.backupServers k).socket = [] :=
        outstanding_of_spawned fun t ht => Or.inr (Or.inr (hsurrounded.spawned t ht))
      have hsent : sh'.sentTo (w.data.backupServers k).socket =
          w.data.sentTo (w.data.backupServers k).socket := by
        cases hsurrounded with
        | accepted fd record fileSizeBuffer hfd hclosed =>
            -- a descriptor that is given out is not that of a secondary
            have hne : (w.data.backupServers k).socket ≠ fd := by
              rintro rfl
              rcases hi.servers k hk with ⟨peer, hpeer, hyes⟩
              rw [hpeer, Option.map_some, hg.secondaries _ peer hpeer hyes] at hclosed
              cases hclosed
            rw [Shared.sentTo, Shared.setPeer_peers_of_ne hne, Shared.sentTo]
        | read fd peer move hpeer hmove =>
            exact Shared.sentTo_setPeer hpeer rfl
      simp only [Process.told, Process.begun, hslot, hsent, List.flatMap_append]
      rw [List.flatMap_eq_nil_iff.2 hnone, List.append_nil, List.append_nil]

/-- At most one message of a semaphore is outstanding. -/
theorem length_outstanding_le (hb : Balanced Pc.holds w) :
    (w.threads.flatMap (Pc.outstanding c k fd)).length ≤ 1 := by
  by_cases hnone : ∀ t ∈ w.threads, t.outstanding c k fd = []
  · rw [List.flatMap_eq_nil_iff.2 hnone]
    exact Nat.zero_le 1
  · push Not at hnone
    rcases hnone with ⟨t, ht, hout⟩
    rcases List.mem_iff_getElem?.1 ht with ⟨i, hi⟩
    rw [(solo_outstanding hb hi (Pc.holds_of_outstanding hout)).flatMap_eq hi]
    cases t with
    | message site msg slots fd' writes =>
        simp only [Pc.outstanding]
        split <;> simp
    | replicate site msg slots fd' pending =>
        simp only [Pc.outstanding]
        split <;> simp
    | _ =>
        exact Nat.zero_le 1

/-- While nobody is under the semaphore, all that is told has been begun. -/
theorem told_of_free (hb : Balanced Pc.holds w) (hfree : w.semaphores c = 1) :
    w.told c k = w.begun c k := by
  have hnone : ∀ t ∈ w.threads, t.outstanding c k (w.data.backupServers k).socket = [] := by
    intro t ht
    by_contra hout
    rcases List.mem_iff_getElem?.1 ht with ⟨i, hi⟩
    have hpos := countP_pos_of_getElem? hi (Pc.holds_of_outstanding hout)
    have hsum := hb c
    omega
  rw [Process.told, List.flatMap_eq_nil_iff.2 hnone, List.append_nil]

theorem told_run {ok ok' : Process → Label → Prop}
    (h : Reaches Process.step ok Process.initial w₀) (h' : Reaches Process.step ok' w₀ w)
    (hrunning : ∀ t ∈ w.threads, t.fault = none) (c : Mutex) :
    ∃ news, ∀ k, (w₀.data.backupServers k).id ≠ -1 →
      w.data.backupServers k = w₀.data.backupServers k ∧ w.told c k = w₀.told c k ++ news := by
  induction h' with
  | start =>
      exact ⟨[], fun k _ => ⟨rfl, (List.append_nil _).symm⟩⟩
  | @next w w' l hreach hok hl ih =>
      have hall : Reaches Process.step (fun _ _ => True) Process.initial w :=
        (h.mono fun _ _ _ => trivial).trans (hreach.mono fun _ _ _ => trivial)
      rcases ih (Process.fault_of_step hl) with ⟨news, hnews⟩
      rcases told_step (Reaches.subscribed hall) (Reaches.guarded hall) (Reaches.balanced hall)
        (Reaches.balanced (hall.next l trivial hl)) hl hrunning c with ⟨more, hmore⟩
      refine ⟨news ++ more, fun k hk => ?_⟩
      have hsame := (hnews k hk).1
      have hused : (w.data.backupServers k).id ≠ -1 := by rwa [hsame]
      refine ⟨(backupServers_step hl hused).trans hsame, ?_⟩
      rw [hmore k hused, (hnews k hk).2, List.append_assoc]

/-- From a state in which nobody is under a semaphore, the secondaries registered there are begun
the same messages of it, in one order; none is more than one message behind, and none is behind
while nobody is under the semaphore. -/
theorem told_in_one_order {ok ok' : Process → Label → Prop}
    (h : Reaches Process.step ok Process.initial w₀) (hfree : w₀.semaphores c = 1)
    (h' : Reaches Process.step ok' w₀ w) (hrunning : ∀ t ∈ w.threads, t.fault = none) :
    ∃ news, ∀ k, (w₀.data.backupServers k).id ≠ -1 → ∃ rest,
      w.data.backupServers k = w₀.data.backupServers k ∧
        w.begun c k ++ rest = w₀.begun c k ++ news ∧
          rest.length ≤ 1 ∧ (w.semaphores c = 1 → rest = []) := by
  have hall : Reaches Process.step (fun _ _ => True) Process.initial w :=
    (h.mono fun _ _ _ => trivial).trans (h'.mono fun _ _ _ => trivial)
  have hb := Reaches.balanced hall
  rcases told_run h h' hrunning c with ⟨news, hnews⟩
  refine ⟨news, fun k hk => ?_⟩
  rcases hnews k hk with ⟨hslot, htold⟩
  rw [told_of_free (Reaches.balanced h) hfree] at htold
  refine ⟨_, hslot, htold, length_outstanding_le hb, fun hdone => ?_⟩
  have hall' := (told_of_free hb hdone).symm.trans (rfl : w.told c k = w.begun c k ++ _)
  exact List.append_right_eq_self.1 hall'.symm

/-! ## What the secondaries decode -/

/-- The messages that the secondary of slot `k` has decoded. -/
def Process.decoded (w : Process) (k : Fin maxServers) : List WireMessage :=
  ((w.data.peers (w.data.backupServers k).socket).map Peer.received).getD []

/-- No loop is under way, and the secondaries have read what was written to them. -/
structure Process.AtRest (w : Process) : Prop where
  idle : ∀ t ∈ w.threads, t.looping = false ∧ t.fault = none
  read : ∀ k, (w.data.backupServers k).id ≠ -1 →
    ∀ peer ∈ w.data.peers (w.data.backupServers k).socket,
      (secondServerProcessing peer.fileSizeBuffer.val peer.reader).perform peer.unread = none

theorem Pc.outstanding_of_idle (h : pc.looping = false) :
    pc.outstanding c k fd = [] ∧ pc.sending fd = [] := by
  cases pc with
  | message | replicate =>
      cases h
  | _ =>
      exact ⟨rfl, rfl⟩

/-- In a state at rest a secondary has decoded all that it is told. -/
theorem Process.AtRest.told_eq (hrest : w.AtRest)
    (h : Reaches Process.step Undisturbed Process.initial w)
    (hk : (w.data.backupServers k).id ≠ -1) :
    w.told c k = (w.decoded k).filter fun m => sentUnder m = c := by
  have hi := Reaches.channels h
  rcases hi.servers k hk with ⟨peer, hpeer, hserver⟩
  have hidle : ∀ t ∈ w.threads, t.outstanding c k (w.data.backupServers k).socket = [] ∧
      t.sending (w.data.backupServers k).socket = [] :=
    fun t ht => Pc.outstanding_of_idle (hrest.idle t ht).1
  have hpending : w.threads.flatMap (Pc.sending (w.data.backupServers k).socket) = [] :=
    List.flatMap_eq_nil_iff.2 fun t ht => (hidle t ht).2
  have hreceived : peer.received = peer.sent :=
    (hi.stage _ peer hpeer hserver).served.complete hpending (hrest.read k hk peer hpeer)
  rw [Process.told, List.flatMap_eq_nil_iff.2 fun t ht => (hidle t ht).1, List.append_nil,
    Process.begun, Shared.sentTo, Process.decoded, hpeer, Option.map_some, Option.map_some,
    hreceived]

/-- Between two states at rest of an undisturbed run the secondaries that were registered in the
first decode the same messages of each semaphore, in one order. -/
theorem decoded_in_one_order (h : Reaches Process.step Undisturbed Process.initial w₀)
    (hrest₀ : w₀.AtRest) (h' : Reaches Process.step Undisturbed w₀ w) (hrest : w.AtRest)
    (c : Mutex) :
    ∃ news, ∀ k, (w₀.data.backupServers k).id ≠ -1 →
      w.data.backupServers k = w₀.data.backupServers k ∧
        (w.decoded k).filter (fun m => sentUnder m = c) =
          (w₀.decoded k).filter (fun m => sentUnder m = c) ++ news := by
  rcases told_run h h' (fun t ht => (hrest.idle t ht).2) c with ⟨news, hnews⟩
  refine ⟨news, fun k hk => ?_⟩
  rcases hnews k hk with ⟨hslot, htold⟩
  rw [hrest.told_eq (h.trans h') (by rwa [hslot]), hrest₀.told_eq h hk] at htold
  exact ⟨hslot, htold⟩

end Telling

/-- Two secondaries connect and are acknowledged. -/
def enrolBoth : List Label :=
  enrolSteps 0 3 1 ++ [.thread 1 .go] ++ enrolSteps 2 4 2 ++
    [.thread 3 .go, .env (.read 3), .env (.read 4)]

/-- Both secondaries are written a message of `n` chunks by thread `i`. -/
def tellBoth (i n : Nat) : List Label :=
  .thread i (.stack emptyPacket) :: List.replicate n (.thread i .go) ++
    .thread i (.stack emptyPacket) :: List.replicate n (.thread i .go)

/-- A device connects, and both secondaries are told of it. -/
def admitBoth : List Label :=
  requestSteps 4 5 (oneLetterRequest 97 1 socketT1) ++ tellBoth 4 62 ++
    [.thread 4 .go, .thread 4 .go, .thread 4 .go]

/-- The secondaries read the header and the record, and come back to the start of their loops. -/
def readBoth : List Label :=
  List.replicate 63 (.env (.read 3)) ++ List.replicate 63 (.env (.read 4))

def bothEnrolled : Process :=
  (runWhile Process.step Undisturbed Process.initial enrolBoth).get (by decide +kernel)

def bothTold : Process :=
  (runWhile Process.step Undisturbed bothEnrolled admitBoth).get (by decide +kernel)

def bothRead : Process :=
  (runWhile Process.step Undisturbed bothTold readBoth).get (by decide +kernel)

theorem reaches_bothEnrolled : Reaches Process.step Undisturbed Process.initial bothEnrolled :=
  Reaches.of_runWhile (Option.some_get _).symm

theorem reaches_bothTold : Reaches Process.step Undisturbed bothEnrolled bothTold :=
  Reaches.of_runWhile (Option.some_get _).symm

theorem reaches_bothRead : Reaches Process.step Undisturbed bothTold bothRead :=
  Reaches.of_runWhile (Option.some_get _).symm

theorem told_in_one_order_bothTold :
    bothEnrolled.semaphores .user = 1 ∧
      ∃ news, ∀ k, (bothEnrolled.data.backupServers k).id ≠ -1 → ∃ rest,
        bothTold.data.backupServers k = bothEnrolled.data.backupServers k ∧
          bothTold.begun .user k ++ rest = bothEnrolled.begun .user k ++ news ∧
            rest.length ≤ 1 ∧ (bothTold.semaphores .user = 1 → rest = []) := by
  have hfree : bothEnrolled.semaphores .user = 1 := by decide +kernel
  have hrunning : ∀ t ∈ bothTold.threads, t.fault = none := by decide +kernel
  exact ⟨hfree, told_in_one_order reaches_bothEnrolled hfree reaches_bothTold hrunning⟩

theorem decoded_in_one_order_bothRead :
    ∃ news, ∀ k, (bothEnrolled.data.backupServers k).id ≠ -1 →
      bothRead.data.backupServers k = bothEnrolled.data.backupServers k ∧
        (bothRead.decoded k).filter (fun m => sentUnder m = .user) =
          (bothEnrolled.decoded k).filter (fun m => sentUnder m = .user) ++ news := by
  have hrest₀ : bothEnrolled.AtRest := ⟨by decide +kernel, by decide +kernel⟩
  have hrest : bothRead.AtRest := ⟨by decide +kernel, by decide +kernel⟩
  exact decoded_in_one_order reaches_bothEnrolled hrest₀
    (reaches_bothTold.trans reaches_bothRead) hrest .user

/-- A device deletes a file, and when one secondary has been told of it and the other one has not,
another device connects. -/
def admitAmidDelete : List Label :=
  enrolBoth ++ admitBoth ++
    [.thread 5 (.command (.file (.delete deletionPacket))), .thread 5 .go, .thread 5 .go,
      .thread 5 .go, .thread 5 (.stack emptyPacket), .thread 5 (.stack emptyPacket),
      .thread 5 .go, .thread 5 .go, .thread 5 .go, .thread 5 (.stack emptyPacket)] ++
    List.replicate 30 (.thread 5 .go) ++
    requestSteps 6 6 (oneLetterRequest 97 2 socketT1) ++ tellBoth 6 62 ++
    .thread 5 (.stack emptyPacket) :: List.replicate 30 (.thread 5 .go)

/-- There is no one order of the messages of both semaphores. -/
theorem told_in_two_orders :
    ∃ w, Reaches Process.step Undisturbed Process.initial w ∧
      (w.data.sentTo 3).map sentUnder = [.user, .server, .user] ∧
        (w.data.sentTo 4).map sentUnder = [.user, .user, .server] := by
  have hrun : (runWhile Process.step Undisturbed Process.initial admitAmidDelete).map
      (fun w => ((w.data.sentTo 3).map sentUnder, (w.data.sentTo 4).map sentUnder)) =
      some ([.user, .server, .user], [.user, .user, .server]) := by
    decide +kernel
  rcases Option.map_eq_some_iff.1 hrun with ⟨w, hw, hval⟩
  rcases Prod.mk.inj hval with ⟨hfirst, hsecond⟩
  exact ⟨w, Reaches.of_runWhile hw, hfirst, hsecond⟩

end Server
end DropboxSimulator
