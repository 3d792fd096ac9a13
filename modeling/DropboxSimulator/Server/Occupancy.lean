import DropboxSimulator.Server.Channels
import DropboxSimulator.Server.Mutex

/-!
# Occupancy — the slots of sessions that are over

A command thread ends inside `readLargePayloadFromSocket` when its connection is closed, at any of
its reads, and only `exitCommand` frees the slot of a session.  So a session whose connections are
closed before its `EXIT` keeps its slot for good.  The slots are freed in every run in which the
last thread that serves a device does not end in a read while the device is registered
(`NoneStranded`).

* `Pc.serves` : the user and the device whose session a thread serves;
* `Occupied`  : every device in the table is served by a thread.
-/

namespace DropboxSimulator
namespace Server

open Library

/-! ## Who serves a session -/

/-- The console and the inotify connection of a client get a command thread. -/
def Serviced (con : Connection) : Prop :=
  con.packetType = packetConn ∧ (con.socketType = socketT1 ∨ con.socketType = socketT2)

instance (con : Connection) : Decidable (Serviced con) :=
  inferInstanceAs (Decidable (_ ∧ _))

def UserCurrentSocket.pair (arg : UserCurrentSocket) : Bytes × Int32 :=
  (arg.userName, arg.currentDevice)

/-- The session for which a loop over `backupServers` is run.  An exit has removed its own. -/
def Site.serves : Site → Option (Bytes × Int32)
  | .admission con _ => if Serviced con then some (con.user, con.device) else none
  | .exit => none
  | .file arg => some (UserCurrentSocket.pair arg)

/-- The session that the thread serves: it is a command thread of the session, or the mediator that
has admitted the connection and is going to start one. -/
def Pc.serves : Pc → Option (Bytes × Int32)
  | .admitAck con socket => (Site.admission con socket).serves
  | .message site _ _ _ _ => site.serves
  | .replicate site _ _ _ _ => site.serves
  | .userPost con socket => (Site.admission con socket).serves
  | .userCreate con socket => (Site.admission con socket).serves
  | .command arg => some (UserCurrentSocket.pair arg)
  | .receive arg _ _ => some (UserCurrentSocket.pair arg)
  | .notifyWait arg _ => some (UserCurrentSocket.pair arg)
  | .notifyLookup arg _ => some (UserCurrentSocket.pair arg)
  | .notify arg _ _ _ _ _ => some (UserCurrentSocket.pair arg)
  | .notifyPost arg _ => some (UserCurrentSocket.pair arg)
  | .replicateWait arg _ => some (UserCurrentSocket.pair arg)
  | .replicatePost arg => some (UserCurrentSocket.pair arg)
  | .exitWait arg => some (UserCurrentSocket.pair arg)
  | .exitRemove arg => some (UserCurrentSocket.pair arg)
  | _ => none

/-- A request as `Box::open` makes it: the notification connection comes after the others, so it
finds its device registered. -/
def ClientRequest (users : Users) (con : Connection) : Prop :=
  con.packetType = packetConn ∧ con.user ≠ [] ∧ con.device ≠ -1 ∧
    (con.socketType = socketT1 ∨ con.socketType = socketT2 ∨
      (con.socketType = socketT3 ∧ registry users con.user con.device ≠ none))

/-- The session of a thread that finds its connection closed. -/
def Process.leaving (w : Process) : Label → Option (Bytes × Int32)
  | .thread i .hangup => (w.threads[i]?).bind fun pc => if pc.reads then pc.serves else none
  | _ => none

/-- The threads that the step is not about. -/
def Process.others (w : Process) : Label → List Pc
  | .thread i _ => w.threads.eraseIdx i
  | .env _ => w.threads

/-- Requests come from clients, and a thread finds its connection closed only when its session is
not registered any more or another thread serves it. -/
def NoneStranded (w : Process) (l : Label) : Prop :=
  (∀ con ∈ w.admitting l, ClientRequest w.data.users con) ∧
    ∀ pair ∈ w.leaving l, registry w.data.users pair.1 pair.2 ≠ none →
      ∃ t ∈ w.others l, t.serves = some pair

/-! ## The invariant -/

/-- The table is well formed, and every device in it is served by a thread; or a thread has met a
fault, which ends the process. -/
structure Occupied (w : Process) : Prop where
  users : WellFormed w.data.users
  served : (∀ t ∈ w.threads, t.fault = none) →
    ∀ pair ∈ (registry w.data.users).pairs, ∃ t ∈ w.threads, t.serves = some pair

section Steps

variable {w w' : Process} {l : Label} {i : Nat} {pc : Pc} {input : Input} {e : Effect Shared Pc}

/-- The session of a thread that finds its connection closed. -/
theorem leaving_of_hangup (hpc : w.threads[i]? = some pc) (hreads : pc.reads = true) :
    w.leaving (.thread i .hangup) = pc.serves := by
  simp [Process.leaving, hpc, hreads]

/-- A started command thread serves the session of its connection. -/
theorem serves_createThread {con : Connection} {socket : Int32} {sh : Shared}
    (hfault : (createThread con socket sh).next.fault = none) {pair : Bytes × Int32}
    (hpair : (Site.admission con socket).serves = some pair) :
    ∃ t ∈ (createThread con socket sh).spawned, t.serves = some pair := by
  simp only [Site.serves] at hpair
  split at hpair
  · next hserviced =>
      have hcommands : con.packetType = packetConn ∧
          (con.socketType = socketT1 ∨ con.socketType = socketT2) := hserviced
      unfold createThread at hfault ⊢
      split
      · refine ⟨.command
          { userName := con.user, currentDevice := con.device, currentSocket := socket }, ?_, hpair⟩
        exact List.mem_singleton_self _
      · next hlong =>
          rw [if_neg hlong] at hfault
          cases hfault
  · cases hpair

/-- Of the pairs after an action, those that other threads serve are served still. -/
theorem occupied_after (hw : WellFormed e.data.users)
    (hserved : e.next.fault = none → ∀ pair ∈ (registry e.data.users).pairs,
      (∃ t ∈ w.threads.eraseIdx i, t.serves = some pair) ∨
        ∃ t ∈ e.next :: e.spawned, t.serves = some pair) (hpc : w.threads[i]? = some pc)
    {semaphores : Mutex → Nat} : Occupied (w.after semaphores i e) where
  users := hw
  served := by
    intro hfaults pair hpair
    have hnext : e.next ∈ (w.after semaphores i e).threads :=
      List.mem_of_getElem? (getElem?_set_append_self hpc)
    rcases hserved (hfaults _ hnext) pair hpair with ⟨t, ht, hpair'⟩ | ⟨t, ht, hpair'⟩
    · rcases List.mem_eraseIdx_iff_getElem?.1 ht with ⟨j, hji, hj⟩
      exact ⟨t, List.mem_of_getElem? (getElem?_set_append_of_ne hj hji), hpair'⟩
    · rcases List.mem_cons.1 ht with rfl | ht
      · exact ⟨_, hnext, hpair'⟩
      · exact ⟨t, List.mem_append_right _ ht, hpair'⟩

/-- An action of a thread, when no session ends unserved. -/
theorem Occupied.act (ho : Occupied w) (hrun : ∀ t ∈ w.threads, t.fault = none)
    (hpc : w.threads[i]? = some pc) (hok : NoneStranded w (.thread i input))
    (h : Acted w.data pc input e) {semaphores : Mutex → Nat} :
    Occupied (w.after semaphores i e) := by
  -- who serves a pair is the thread itself or another one
  have hothers : ∀ pair ∈ (registry w.data.users).pairs, pc.serves ≠ some pair →
      ∃ t ∈ w.threads.eraseIdx i, t.serves = some pair := by
    intro pair hpair hnot
    rcases ho.served hrun pair hpair with ⟨t, ht, hserves⟩
    rcases List.mem_iff_getElem?.1 ht with ⟨j, hj⟩
    refine ⟨t, List.mem_eraseIdx_iff_getElem?.2 ⟨j, ?_, hj⟩, hserves⟩
    rintro rfl
    rw [hpc] at hj
    cases hj
    exact hnot hserves
  -- an action that leaves the table alone, and somebody to serve the session of its thread
  have hsame : e.data.users = w.data.users →
      (e.next.fault = none → ∀ pair, pc.serves = some pair →
        ∃ t ∈ e.next :: e.spawned, t.serves = some pair) →
      Occupied (w.after semaphores i e) := by
    intro husers hserves
    refine occupied_after (by rw [husers]; exact ho.users) (fun hfault pair hpair => ?_) hpc
    rw [husers] at hpair
    by_cases hmine : pc.serves = some pair
    · exact Or.inr (hserves hfault pair hmine)
    · exact Or.inl (hothers pair hpair hmine)
  have hnext : e.data.users = w.data.users → e.next.serves = pc.serves →
      Occupied (w.after semaphores i e) := fun husers hserves =>
    hsame husers fun _ pair hpair => ⟨e.next, List.mem_cons_self, hserves.trans hpair⟩
  cases h with
  | hungUp pc hreads =>
      -- the thread is gone, so the condition names another one for its session
      refine occupied_after ho.users (fun _ pair hpair => Or.inl ?_) hpc
      by_cases hmine : pc.serves = some pair
      · exact hok.2 pair (by rw [leaving_of_hangup hpc hreads]; exact hmine)
          (Roster.mem_pairs_iff.1 hpair)
      · exact hothers pair hpair hmine
  | admitted con socket input handled hres hack =>
      rcases hok.1 con (by simp [Process.admitting, hpc]) with ⟨hconn, hname, hid, htype⟩
      rcases ho.users.admitted hname hid hres hack with ⟨hw, _, hpairs⟩
      refine occupied_after hw (fun _ pair hpair => ?_) hpc
      rw [hpairs] at hpair
      rcases Set.mem_insert_iff.1 hpair with rfl | hold
      · rcases htype with ht | ht | ⟨_, hregistered⟩
        · exact Or.inr ⟨_, List.mem_cons_self, if_pos ⟨hconn, Or.inl ht⟩⟩
        · exact Or.inr ⟨_, List.mem_cons_self, if_pos ⟨hconn, Or.inr ht⟩⟩
        · exact Or.inl (hothers _ hregistered (by simp [Pc.serves]))
      · -- a mediator at the table serves nobody yet
        exact Or.inl (hothers pair hold (by simp [Pc.serves]))
  | refused con socket input handled reply hres hreply hnack =>
      rcases hok.1 con (by simp [Process.admitting, hpc]) with ⟨_, hname, hid, _⟩
      have husers := (ho.users.refused hname hid hres (by rw [hreply]; simpa using hnack)).1
      exact hsame husers (by simp [Pc.serves])
  | unanswered con socket input handled hres hreply =>
      rcases hok.1 con (by simp [Process.admitting, hpc]) with ⟨_, hname, hid, _⟩
      exact absurd hreply (ho.users.refused hname hid hres (by rw [hreply]; simp)).2
  | admitUndefined | messageOverflow | lookupFailed | notificationOverflow | exitUndefined =>
      exact hsame rfl (by simp [Pc.fault])
  | threadCreated con socket input =>
      refine hsame (by rw [createThread_data]) fun hfault pair hpair => ?_
      rcases serves_createThread hfault hpair with ⟨t, ht, hserves⟩
      exact ⟨t, List.mem_cons_of_mem _ ht, hserves⟩
  | replicated site m fd input =>
      refine hnext rfl ?_
      cases site <;> rfl
  | sessionRemoved arg record exited hres =>
      -- the pair of this thread is the one that leaves the table
      rcases ho.users.exit_cases hres with ⟨p, hdev, husers, _⟩
      rcases keys_of_getDevice hdev with ⟨hpn, hpd⟩
      have hafter : (exited.closed.foldl Shared.close { w.data with users := exited.users }).users =
          w.data.users.clear p := by
        rw [Shared.closeAll_users]
        exact husers
      refine occupied_after (by rw [hafter]; exact ho.users.clear p) (fun _ pair hpair => ?_) hpc
      rw [hafter, ho.users.registry_clear, Roster.pairs_erase, hpn, hpd] at hpair
      refine Or.inl (hothers pair hpair.1 fun hmine => hpair.2 ?_)
      exact Set.mem_singleton_iff.2 (Option.some.inj hmine).symm
  | _ =>
      exact hnext (by simp) rfl

/-- Waiting and posting do not change the session a thread serves. -/
theorem serves_semaphore {k : Pc} {m : Mutex} (h : Waited pc m k ∨ Posted pc m k) :
    k.serves = pc.serves := by
  rcases h with hwait | hpost
  · cases hwait <;> rfl
  · cases hpost <;> rfl

theorem Occupied.step (ho : Occupied w) (hok : NoneStranded w l) (hl : w.step l = some w') :
    Occupied w' := by
  have hrun := Process.fault_of_step hl
  cases Process.step_cases hl with
  | @semaphore i input pc k m hpc hstep semaphores =>
      refine ⟨ho.users, fun _ pair hpair => ?_⟩
      rcases ho.served hrun pair hpair with ⟨t, ht, hserves⟩
      rcases List.mem_iff_getElem?.1 ht with ⟨j, hj⟩
      by_cases hij : i = j
      · -- the thread that waits or posts serves the session before and after
        subst hij
        rw [hpc] at hj
        cases hj
        have hlt : i < w.threads.length := (List.getElem?_eq_some_iff.1 hpc).1
        exact ⟨k, List.mem_of_getElem? (List.getElem?_set_self hlt),
          (serves_semaphore hstep).trans hserves⟩
      · exact ⟨t, List.mem_of_getElem? ((List.getElem?_set_ne hij).trans hj), hserves⟩
  | act hpc hacted =>
      exact ho.act hrun hpc hok hacted
  | @env a sh' spawned hsurrounded =>
      have husers : sh'.users = w.data.users := by
        cases hsurrounded <;> rfl
      refine ⟨by rw [husers]; exact ho.users, fun _ pair hpair => ?_⟩
      rw [husers] at hpair
      rcases ho.served hrun pair hpair with ⟨t, ht, hserves⟩
      exact ⟨t, List.mem_append_left _ ht, hserves⟩

end Steps

/-! ## Whole runs -/

section Runs

variable {w : Process}

theorem Reaches.occupied (h : Reaches Process.step NoneStranded Process.initial w) :
    Occupied w := by
  refine h.invariant ⟨wellFormed_initiate, fun _ pair hpair => ?_⟩ fun _ _ _ ho hok hl =>
    ho.step hok hl
  have hnone : pair ∈ (registry initiateUserControllerStructure).pairs := hpair
  rw [pairs_registry_initiate] at hnone
  cases hnone

/-- In every run in which no session ends unserved, a device that no thread serves has no slot, a
user none of whose devices is served has none either, and such a user is not refused with
`nack3`. -/
theorem slots_freed (h : Reaches Process.step NoneStranded Process.initial w)
    (hrun : ∀ t ∈ w.threads, t.fault = none) {name : Bytes} (hname : name ≠ []) :
    (∀ device ≠ -1, (∀ t ∈ w.threads, t.serves ≠ some (name, device)) →
      ∀ p : DeviceIndex, ¬((w.data.users p.1).name = name ∧ (w.data.users.device p).id = device)) ∧
    ((∀ t ∈ w.threads, ∀ device, t.serves ≠ some (name, device)) →
      (∀ u, (w.data.users u).name ≠ name) ∧
      ∀ (con : Connection) (socket : Int32) (handled : Handled), con.user = name →
        con.device ≠ -1 →
        handleUserControllerStructure w.data.users w.data.backupServers con socket =
          some handled → handled.reply ≠ some .nack3) := by
  have ho := Reaches.occupied h
  refine ⟨fun device hid hover p hslot => ?_, fun hover => ?_⟩
  · have hpair : (name, device) ∈ (registry w.data.users).pairs :=
      ho.users.mem_pairs_registry_iff.2 ⟨hname, hid, p, hslot⟩
    rcases ho.served hrun _ hpair with ⟨t, ht, hserves⟩
    exact hover t ht hserves
  · -- a user with a slot has a device, and a thread serves it
    have hgone : name ∉ (registry w.data.users).owners := by
      intro howner
      rcases Roster.mem_owners_iff.1 howner with ⟨device, hpair⟩
      rcases ho.served hrun _ hpair with ⟨t, ht, hserves⟩
      exact hover t ht device hserves
    have hnouser : ∀ u, (w.data.users u).name ≠ name := fun u hu =>
      hgone ((ho.users.mem_owners_iff hname).2 ⟨u, (ho.users.getUser_eq_some_iff hname).2 hu⟩)
    refine ⟨hnouser, ?_⟩
    rintro con socket handled rfl hid hres hnack
    cases handle_outcome ho.users hname hid with
    | nack1 hres' _ _ =>
        rw [hres'] at hres
        cases hres
        cases hnack
    | nack3 _ hknown _ _ =>
        exact hgone hknown
    | ack p hres' _ _ =>
        rw [hres'] at hres
        cases hres
        cases hnack

end Runs

/-- A session of the user `a` from its first connection on, all of it admitted.  Its command threads
are the threads `i + 1` and `i + 3`. -/
def sessionSteps (i : Nat) (fd device : Int32) : List Label :=
  requestSteps i fd (oneLetterRequest 97 device socketT1) ++ admittedSteps i emptyPacket ++
    requestSteps (i + 2) (fd + 1) (oneLetterRequest 97 device socketT2) ++
    admittedSteps (i + 2) emptyPacket ++
    requestSteps (i + 4) (fd + 2) (oneLetterRequest 97 device socketT3) ++
    admittedSteps (i + 4) emptyPacket

/-- An `EXIT` of the thread `i`, without secondary servers. -/
def exitSteps (i : Nat) (record : CharArray userCurrentSocketSize) : List Label :=
  [.thread i (.command .exit), .thread i .go, .thread i (.memory record),
    .thread i (.stack emptyPacket), .thread i (.stack emptyPacket), .thread i .go, .thread i .go]

/-- The memory of a session, all zeroes. -/
def emptySession : CharArray userCurrentSocketSize :=
  ⟨List.replicate userCurrentSocketSize 0, by simp⟩

/-- A session ends by an `EXIT` on its first connection, which closes the others. -/
def sessionExited : List Label :=
  sessionSteps 0 4 1 ++ exitSteps 1 emptySession ++ [.thread 3 .hangup]

/-- Two sessions of one user, whose connections are closed without an `EXIT`. -/
def sessionsLost : List Label :=
  sessionSteps 0 4 1 ++ sessionSteps 5 7 2 ++
    [.thread 1 .hangup, .thread 3 .hangup, .thread 6 .hangup, .thread 8 .hangup]

instance (users : Users) (con : Connection) : Decidable (ClientRequest users con) :=
  inferInstanceAs (Decidable (con.packetType = packetConn ∧ con.user ≠ [] ∧ con.device ≠ -1 ∧
    (con.socketType = socketT1 ∨ con.socketType = socketT2 ∨
      (con.socketType = socketT3 ∧ registry users con.user con.device ≠ none))))

instance (w : Process) (l : Label) : Decidable (NoneStranded w l) :=
  have : Decidable (∀ con ∈ w.admitting l, ClientRequest w.data.users con) :=
    Option.decidableForallMem _
  have : Decidable (∀ pair ∈ w.leaving l, registry w.data.users pair.1 pair.2 ≠ none →
      ∃ t ∈ w.others l, t.serves = some pair) :=
    Option.decidableForallMem _
  inferInstanceAs (Decidable (_ ∧ _))

def exited : Process :=
  (runWhile Process.step NoneStranded Process.initial sessionExited).get (by decide +kernel)

theorem slots_freed_exited :
    (∀ p : DeviceIndex,
      ¬((exited.data.users p.1).name = [97] ∧ (exited.data.users.device p).id = 1)) ∧
    ∀ u, (exited.data.users u).name ≠ [97] := by
  have hreached : Reaches Process.step NoneStranded Process.initial exited :=
    Reaches.of_runWhile (Option.some_get _).symm
  have hended : ∀ t ∈ exited.threads, t = .ended := by decide +kernel
  have hrun : ∀ t ∈ exited.threads, t.fault = none := by
    intro t ht
    rw [hended t ht]
    rfl
  have hover : ∀ t ∈ exited.threads, ∀ device, t.serves ≠ some ([97], device) := by
    intro t ht device
    rw [hended t ht]
    exact nofun
  have hfreed := slots_freed hreached hrun (List.cons_ne_nil 97 [])
  exact ⟨hfreed.1 1 (by decide) fun t ht => hover t ht 1, (hfreed.2 hover).1⟩

/-- All threads of both sessions have ended, both still have their slots, and a third device of the
user is refused with `nack3`. -/
theorem sessionsLost_refused :
    ∃ w handled, run Process.step Process.initial sessionsLost = some w ∧
      (∀ t ∈ w.threads, t = .ended) ∧ (w.data.users 0).name = [97] ∧
      (w.data.users.device (0, 0)).id = 1 ∧ (w.data.users.device (0, 1)).id = 2 ∧
      handleUserControllerStructure w.data.users w.data.backupServers
        (oneLetterRequest 97 3 socketT1) 10 = some handled ∧ handled.reply = some .nack3 := by
  have hrun : (run Process.step Process.initial sessionsLost).bind (fun w =>
      (handleUserControllerStructure w.data.users w.data.backupServers
        (oneLetterRequest 97 3 socketT1) 10).map fun handled =>
          (decide (∀ t ∈ w.threads, t = .ended), (w.data.users 0).name,
            (w.data.users.device (0, 0)).id, (w.data.users.device (0, 1)).id, handled.reply)) =
      some (true, [97], 1, 2, some .nack3) := by
    decide +kernel
  rcases Option.bind_eq_some_iff.1 hrun with ⟨w, hw, hhandled⟩
  rcases Option.map_eq_some_iff.1 hhandled with ⟨handled, hhandled, hval⟩
  simp only [Prod.mk.injEq, decide_eq_true_eq] at hval
  rcases hval with ⟨hended, hname, hfirst, hsecond, hreply⟩
  exact ⟨w, handled, hw, hended, hname, hfirst, hsecond, hhandled, hreply⟩

end Server
end DropboxSimulator
