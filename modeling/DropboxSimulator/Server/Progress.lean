import DropboxSimulator.Library.Progress
import DropboxSimulator.Server.Mutex

/-!
# Progress — the sections of the primary end

A thread of the primary holds one semaphore at a time and waits for nothing while it holds it: the
loops over devices and secondaries only write.  So each section has an end that can be counted
(`Pc.remaining`), by the bytes of the message and the slots of the tables.

* `semaphore_released` : in every run the semaphore is free before its holder has had more turns
  than that;
* `waiting_served`     : while nobody has been refused, whoever waits for a semaphore gets it once
  its holder has been left alone.
-/

namespace DropboxSimulator
namespace Server

open Library

/-! ## What is left of a section -/

/-- A bound on the writes that carry a message; each write but the last has its own bytes. -/
def writeBound : WireMessage → Nat
  | .upload _ payload => commandPacketSize + payload.length + 3
  | .delete _ => commandPacketSize + 1
  | .insertUser _ => commandPacketSize + connectionSize + 2
  | .exit _ => commandPacketSize + userCurrentSocketSize + 2

/-- The same of a notification. -/
def FileCommand.writeBound : FileCommand → Nat
  | .upload _ payload => commandPacketSize + payload.length + 3
  | .delete _ => commandPacketSize + 1

/-- The turns for messages to so many slots of `backupServers`. -/
def sendingTurns (m : WireMessage) (slots : Nat) : Nat :=
  slots * (writeBound m + 2)

/-- The turns for notifications of so many devices. -/
def notifyingTurns (c : FileCommand) (devices : Nat) : Nat :=
  devices * (c.writeBound + 1)

/-- The turns of a thread up to the `sem_post` of its section, at most. -/
def Pc.remaining : Pc → Nat
  | .serverInsert _ _ => 2
  | .serverPost _ => 1
  | .handle con _ => sendingTurns (.insertUser con) maxServers + 4
  | .refuse _ _ => 1
  | .admitAck con _ => sendingTurns (.insertUser con) maxServers + 3
  | .message _ m slots _ writes => writes.length + sendingTurns m slots.length + 3
  | .replicate _ m slots _ pending => pending.length + sendingTurns m slots.length + 2
  | .userPost _ _ => 1
  | .notifyLookup _ c => notifyingTurns c maxDevices + 3
  | .notify _ c _ devices _ pending => pending.length + notifyingTurns c devices.length + 2
  | .notifyPost _ _ => 1
  | .replicatePost _ => 1
  | .exitRemove _ => maxServers * (commandPacketSize + userCurrentSocketSize + 2 + 2) + 3
  | .exitPost => 1
  | _ => 0

section Writes

variable {m : WireMessage} {c : FileCommand} {stale : CommandPacket} {writes : List Bytes}

theorem length_sendLoop_le (data : Bytes) (totalSize fuel : Nat) (written : Int) :
    (sendLoop data totalSize fuel written).length ≤ fuel := by
  induction fuel generalizing written with
  | zero =>
      exact le_rfl
  | succ fuel ih =>
      rw [sendLoop, List.length_cons]
      split
      · exact Nat.succ_le_succ (ih _)
      · exact Nat.succ_le_succ (Nat.zero_le _)

theorem length_sendLargePayloadToSocket_le (data : Bytes) :
    (sendLargePayloadToSocket data).length ≤ data.length + 1 :=
  length_sendLoop_le data _ _ _

theorem length_sendPacket_le (packet : CommandPacket) :
    (sendPacket packet).length ≤ commandPacketSize + 1 := by
  have hle := length_sendLargePayloadToSocket_le packet.bytes
  rwa [packet.length_bytes] at hle

theorem length_sendUpload_le (header : CommandPacket) (payload : Bytes) :
    (sendUpload header payload).length ≤ commandPacketSize + payload.length + 3 := by
  have hpacket := length_sendPacket_le header
  have hpayload := length_sendLargePayloadToSocket_le payload
  rw [sendUpload, List.length_append, List.length_cons]
  omega

theorem length_writesOf_le (h : writesOf stale m = some writes) : writes.length ≤ writeBound m := by
  cases m with
  | upload path payload =>
      rcases Option.map_eq_some_iff.1 h with ⟨info, _, rfl⟩
      exact length_sendUpload_le _ payload
  | delete path =>
      rcases Option.map_eq_some_iff.1 h with ⟨info, _, rfl⟩
      exact length_sendPacket_le _
  | insertUser con =>
      simp only [writesOf] at h
      rcases Option.map_eq_some_iff.1 h with ⟨info, _, rfl⟩
      have hpacket := length_sendPacket_le (fillPacket stale cmdInsertUser info)
      have hrecord := length_sendLargePayloadToSocket_le con.bytes
      rw [con.length_bytes] at hrecord
      rw [List.length_append, writeBound]
      omega
  | exit record =>
      cases h
      have hpacket := length_sendPacket_le (fillPacket stale cmdExit stale.additionalInfo)
      have hrecord := length_sendLargePayloadToSocket_le record.val
      rw [record.property] at hrecord
      rw [List.length_append, writeBound]
      omega

theorem length_notification_le (h : c.notification stale = some writes) :
    writes.length ≤ c.writeBound := by
  cases c with
  | upload fileName payload =>
      rcases Option.map_eq_some_iff.1 h with ⟨info, _, rfl⟩
      exact length_sendUpload_le _ payload
  | delete command =>
      cases h
      exact length_sendPacket_le command

end Writes

/-! ## Each turn brings the end nearer -/

theorem Site.remaining_after (site : Site) : site.after.remaining = 1 := by
  cases site <;> rfl

theorem sendingTurns_succ (m : WireMessage) (slots : Nat) :
    sendingTurns m (slots + 1) = sendingTurns m slots + (writeBound m + 2) :=
  Nat.succ_mul _ _

theorem notifyingTurns_succ (c : FileCommand) (devices : Nat) :
    notifyingTurns c (devices + 1) = notifyingTurns c devices + (c.writeBound + 1) :=
  Nat.succ_mul _ _

/-- Every action inside a section leaves less to do. -/
theorem Acted.remaining_lt {sh : Shared} {pc : Pc} {input : Input} {e : Effect Shared Pc}
    (h : Acted sh pc input e) {m : Mutex} (hin : pc.critical = some m) :
    e.next.remaining < pc.remaining := by
  cases h with
  | hungUp pc hreads =>
      cases pc with
      | mediator | command | receive =>
          cases hin
      | _ =>
          cases hreads
  | messageReady site msg i rest fd stale writes hid hwrites =>
      have hlength := length_writesOf_le hwrites
      unfold Pc.remaining
      simp only [List.length_cons, sendingTurns_succ, List.length_nil]
      omega
  | messageBegun site msg slots fd writes input =>
      unfold Pc.remaining
      simp only [List.length_tail]
      omega
  | replicated site msg fd input =>
      rw [site.remaining_after]
      unfold Pc.remaining
      dsimp only
      omega
  | notificationBegun arg c user d rest fd stale writes hother hwrites =>
      have hlength := length_notification_le hwrites
      unfold Pc.remaining
      simp only [List.length_cons, notifyingTurns_succ, List.length_nil]
      omega
  | slotSkipped site msg i rest fd stale hid =>
      unfold Pc.remaining
      simp only [List.length_cons, sendingTurns_succ, List.length_nil]
      omega
  | deviceSkipped arg c user d rest fd stale hself =>
      unfold Pc.remaining
      simp only [List.length_cons, notifyingTurns_succ, List.length_nil]
      omega
  | lookedUp arg c input user huser =>
      unfold Pc.remaining
      simp only [List.length_finRange, List.length_nil]
      omega
  | ackWritten con socket input =>
      unfold Pc.remaining
      simp only [List.length_finRange, List.length_nil]
      omega
  | sessionRemoved arg record exited hres =>
      dsimp only
      split
      · unfold Pc.remaining
        simp only [sendingTurns, writeBound, List.length_finRange, List.length_nil]
        omega
      · unfold Pc.remaining
        dsimp only
        omega
  | serverIdentified | userIdentified | serverCreated | secondaryAcked | threadCreated
  | fileCommand | exitCommand | otherCommand | restAcked | fileChanged =>
      -- these are outside of every section
      cases hin
  | _ =>
      unfold Pc.remaining
      simp only [List.length_cons]
      omega

/-- A thread is inside one section at a time, and waits for nothing there. -/
theorem brief : Brief program Pc.holds Pc.remaining where
  one := by
    intro pc m m' h h'
    have hm : pc.critical = some m := of_decide_eq_true h
    have hm' : pc.critical = some m' := of_decide_eq_true h'
    exact Option.some.inj (hm.symm.trans hm')
  waits := by
    intro pc m k m' h
    simp [Pc.holds, (waited h).critical.1]
  act := by
    intro pc f data input e m hinstr heffect hin
    exact (acted hinstr heffect).remaining_lt (of_decide_eq_true hin)

instance : Nonempty Input :=
  ⟨.go⟩

/-- The thread has ended inside its section, or has met a fault. -/
def Pc.Stopped (pc : Pc) : Prop :=
  pc = .refused ∨ pc.fault.isSome = true

/-- A slot of `backupServers` can be visited, whatever is on the stack. -/
theorem visit_stack_isSome (site : Site) (m : WireMessage) (i : Fin maxServers)
    (rest : List (Fin maxServers)) (sh : Shared) (stale : CommandPacket) :
    (visit site m i rest sh (.stack stale)).isSome = true := by
  simp only [visit]
  split
  · split <;> rfl
  · rfl

theorem notifyDevice_stack_isSome (arg : UserCurrentSocket) (c : FileCommand)
    (user : Fin maxUsers) (d : Fin maxDevices) (rest : List (Fin maxDevices)) (sh : Shared)
    (stale : CommandPacket) :
    (notifyDevice arg c user d rest sh (.stack stale)).isSome = true := by
  simp only [notifyDevice]
  split
  · split <;> rfl
  · rfl

theorem removeSession_memory_isSome (arg : UserCurrentSocket) (sh : Shared)
    (record : CharArray userCurrentSocketSize) :
    (removeSession arg sh (.memory record)).isSome = true := by
  simp only [removeSession]
  split <;> rfl

/-- Inside a section there is always something to do. -/
theorem able : Able program Pc.holds Pc.Stopped := by
  intro pc data m hin hrunning
  have hcritical : pc.critical = some m := of_decide_eq_true hin
  -- an action that an input enables
  have hact : ∀ {f} input, program pc = .act f → (f data input).isSome = true →
      ∃ f input e, program pc = .act f ∧ f data input = some e := by
    intro f input hinstr hsome
    obtain ⟨e, he⟩ := Option.isSome_iff_exists.1 hsome
    exact ⟨f, input, e, hinstr, he⟩
  cases pc with
  | serverPost | userPost | notifyPost | replicatePost | exitPost =>
      cases hcritical
      exact Or.inl ⟨_, rfl⟩
  | refused =>
      exact absurd (Or.inl rfl) hrunning
  | crashed fault held =>
      exact absurd (Or.inr rfl) hrunning
  | replicate site msg slots fd pending =>
      cases pending with
      | cons bs pending =>
          exact Or.inr (hact .go rfl rfl)
      | nil =>
          cases slots with
          | nil =>
              exact Or.inr (hact .go rfl rfl)
          | cons i rest =>
              exact Or.inr (hact _ rfl (visit_stack_isSome site msg i rest data emptyPacket))
  | notify arg c user devices fd pending =>
      cases pending with
      | cons bs pending =>
          exact Or.inr (hact .go rfl rfl)
      | nil =>
          cases devices with
          | nil =>
              exact Or.inr (hact .go rfl rfl)
          | cons d rest =>
              exact Or.inr
                (hact _ rfl (notifyDevice_stack_isSome arg c user d rest data emptyPacket))
  | exitRemove arg =>
      obtain ⟨record⟩ : Nonempty (CharArray userCurrentSocketSize) :=
        ⟨List.replicate userCurrentSocketSize 0, by simp⟩
      exact Or.inr (hact _ rfl (removeSession_memory_isSome arg data record))
  | serverInsert | handle | refuse | admitAck | message | notifyLookup =>
      exact Or.inr (hact .go rfl rfl)
  | _ =>
      cases hcritical

theorem guards : Guards program around Pc.Stopped Process.step where
  sound := by
    intro w l w' h
    unfold Process.step at h
    split at h
    · cases h
    · exact h
  complete := by
    intro w l w' hclean h
    have hany : ¬(w.threads.any fun pc => pc.fault.isSome) = true := by
      intro hany
      rcases List.any_eq_true.1 hany with ⟨pc, hpc, hfault⟩
      exact hclean pc hpc (Or.inr hfault)
    rw [Process.step, if_neg hany, h]

/-! ## In every run -/

section Runs

variable {w w' : Process} {ok : Process → Label → Prop} {i j : Nat} {pc : Pc} {m : Mutex}

/-- In every run a semaphore is free before its holder has had more turns than its section has
left, however the turns of other threads lie between. -/
theorem semaphore_released (h : Reaches Process.step ok Process.initial w)
    (hpc : w.threads[i]? = some pc) (hin : pc.critical = some m) {labels : List Label}
    (hrun : run Process.step w labels = some w')
    (hturns : pc.remaining < labels.countP (Turn.isOf i)) :
    ∃ before after w₁, labels = before ++ after ∧ run Process.step w before = some w₁ ∧
      w₁.semaphores m = 1 :=
  (Reaches.balanced h).released guards brief disciplined hpc (decide_eq_true hin) hrun hturns

/-- The request of the thread has still to be handled. -/
def Pc.asks : Pc → Bool
  | .mediator _ => true
  | .userWait _ _ => true
  | .handle _ _ => true
  | _ => false

/-- Once its request has been handled, a thread never comes back to one. -/
theorem asks_of_turn (hpc : w.threads[i]? = some pc)
    (hdone : pc.asks = false ∨ pc.critical ≠ none) {input : Input}
    (hl : w.step (.thread i input) = some w') :
    ∃ pc', w'.threads[i]? = some pc' ∧ pc'.asks = false := by
  have hi : i < w.threads.length := (List.getElem?_eq_some_iff.1 hpc).1
  cases Process.step_cases hl with
  | @semaphore _ _ pc₀ k m hpc₀ hstep semaphores =>
      obtain rfl : pc₀ = pc := Option.some.inj (hpc₀.symm.trans hpc)
      refine ⟨k, List.getElem?_set_self hi, ?_⟩
      rcases hstep with hwait | hpost
      · cases hwait with
        | userWait con socket =>
            rcases hdone with hdone | hdone
            · cases hdone
            · exact absurd rfl hdone
        | _ =>
            rfl
      · cases hpost <;> rfl
  | @act _ _ pc₀ e hpc₀ hacted =>
      obtain rfl : pc₀ = pc := Option.some.inj (hpc₀.symm.trans hpc)
      refine ⟨e.next, getElem?_set_append_self hpc, ?_⟩
      cases hacted with
      | userIdentified socket input peer hpeer htype =>
          rcases hdone with hdone | hdone
          · cases hdone
          · exact absurd rfl hdone
      | replicated site msg fd input =>
          cases site <;> rfl
      | threadCreated con socket input =>
          rcases createThread_next con socket w.data with hnext | hnext <;> rw [hnext] <;> rfl
      | sessionRemoved arg record exited hres =>
          dsimp only
          split <;> rfl
      | _ =>
          rfl

/-- A thread that has no request to handle refuses nobody. -/
theorem NoneRefused.alone (hn : NoneRefused w) (hpc : w.threads[i]? = some pc)
    (hasks : pc.asks = false) {inputs : List Input}
    (hrun : run Process.step w (inputs.map (Turn.thread i)) = some w') : NoneRefused w' := by
  induction inputs generalizing w pc with
  | nil =>
      cases hrun
      exact hn
  | cons input inputs ih =>
      rw [List.map_cons, run_cons, Option.bind_eq_some_iff] at hrun
      rcases hrun with ⟨u, hl, hrest⟩
      have hok : AdmitsOnlyWithRoom w (.thread i input) := by
        intro con hcon
        cases pc with
        | handle =>
            cases hasks
        | _ =>
            simp [Process.admitting, hpc] at hcon
      rcases asks_of_turn hpc (Or.inl hasks) hl with ⟨pc', hpc', hasks'⟩
      exact ih (hn.step hok hl) hpc' hasks' hrest

/-- The holder of a semaphore, left alone, refuses nobody if there is room for the request that it
may be handling. -/
theorem NoneRefused.of_holder (hn : NoneRefused w)
    (hroom : ∀ con socket, .handle con socket ∈ w.threads → HasRoom w.data.users con)
    (hpc : w.threads[i]? = some pc) (hin : pc.critical ≠ none) {inputs : List Input}
    (hrun : run Process.step w (inputs.map (Turn.thread i)) = some w') : NoneRefused w' := by
  cases inputs with
  | nil =>
      cases hrun
      exact hn
  | cons input inputs =>
      rw [List.map_cons, run_cons, Option.bind_eq_some_iff] at hrun
      rcases hrun with ⟨u, hl, hrest⟩
      -- only with its first turn it may handle a request
      have hok : AdmitsOnlyWithRoom w (.thread i input) := by
        intro con hcon
        cases pc with
        | handle con' socket =>
            simp only [Process.admitting, hpc, Option.mem_some_iff] at hcon
            subst hcon
            exact hroom con' socket (List.mem_of_getElem? hpc)
        | _ =>
            simp [Process.admitting, hpc] at hcon
      rcases asks_of_turn hpc (Or.inr hin) hl with ⟨pc', hpc', hasks'⟩
      exact (hn.step hok hl).alone hpc' hasks' hrest

/-- While requests are admitted only with room, a thread that waits for a semaphore enters its
section once the holder has had its turns, and these are no more than its section has left; or the
holder has met a fault. -/
theorem waiting_served (h : Reaches Process.step AdmitsOnlyWithRoom Process.initial w)
    (hrunning : ∀ t ∈ w.threads, t.fault = none)
    (hroom : ∀ con socket, .handle con socket ∈ w.threads → HasRoom w.data.users con)
    (hpc : w.threads[j]? = some pc) {k : Pc} (hwait : program pc = .wait m k) :
    ∃ i inputs w', (inputs = [] ∨ ∃ t, w.threads[i]? = some t ∧ t.critical = some m ∧
        inputs.length ≤ t.remaining + 1) ∧
      run Process.step w (inputs.map (Turn.thread i)) = some w' ∧
      ((∃ t ∈ w'.threads, t.fault.isSome = true) ∨
        ∃ w'', w'.step (.thread j .go) = some w'' ∧ w''.threads[j]? = some k) := by
  have hn : NoneRefused w :=
    h.invariant (fun _ ht => by cases ht) fun _ _ _ hn hok hl => hn.step hok hl
  have hclean : ∀ t ∈ w.threads, ¬t.Stopped := by
    intro t ht hstopped
    rcases hstopped with hrefused | hfault
    · exact (hn t ht).1 hrefused
    · simp [hrunning t ht] at hfault
  obtain ⟨i, inputs, w', hholder, hrun, hend⟩ :=
    (Reaches.balanced h).wait_served guards brief disciplined able hclean hpc hwait
  have hn' : NoneRefused w' := by
    rcases hholder with rfl | ⟨t, hi, hin, _⟩
    · cases hrun
      exact hn
    · refine hn.of_holder hroom hi ?_ hrun
      rw [of_decide_eq_true hin]
      exact nofun
  refine ⟨i, inputs, w', ?_, hrun, ?_⟩
  · refine hholder.imp_right ?_
    rintro ⟨t, hi, hin, hlength⟩
    exact ⟨t, hi, of_decide_eq_true hin, hlength⟩
  · by_cases hfault : ∃ t ∈ w'.threads, t.fault.isSome = true
    · exact Or.inl hfault
    · -- nobody has stopped, so the semaphore is free and the thread takes it
      have hclean' : ∀ t ∈ w'.threads, ¬t.Stopped := by
        intro t ht hstopped
        rcases hstopped with hrefused | hfault'
        · exact (hn' t ht).1 hrefused
        · exact hfault ⟨t, ht, hfault'⟩
      rcases hend with ⟨t, ht, hstopped⟩ | ⟨hfree, hpc'⟩
      · exact absurd hstopped (hclean' t ht)
      · have hj : j < w'.threads.length := (List.getElem?_eq_some_iff.1 hpc').1
        have hturn : World.step program around w' (.thread j .go) = some
            { w' with
              semaphores := Function.update w'.semaphores m (w'.semaphores m - 1)
              threads := w'.threads.set j k } := by
          simp [World.step, hpc', hwait, hfree]
        exact Or.inr ⟨_, guards.complete w' _ _ hclean' hturn, List.getElem?_set_self hj⟩

end Runs

/-- Two devices of a user are connected, and a command thread has just entered its section for a
deletion. -/
def deleting : Process :=
  (runWhile Process.step AdmitsOnlyWithRoom Process.initial
    (requestSteps 0 4 (oneLetterRequest 97 1 socketT1) ++ admittedSteps 0 emptyPacket ++
      requestSteps 2 5 (oneLetterRequest 97 2 socketT3) ++ admittedSteps 2 emptyPacket ++
      [.thread 1 (.command (.file (.delete deletionPacket))), .thread 1 .go, .thread 1 .go])).get
    (by decide +kernel)

/-- The thread notifies the other device, which opens one more connection and has to wait; then it
goes through the slots of the secondaries and takes up further commands. -/
def deletingSteps : List Label :=
  [.thread 1 .go, .thread 1 (.stack emptyPacket), .thread 1 (.stack emptyPacket),
    .env (.accept 6 (oneLetterRequest 97 2 socketT1) emptySizeBuffer), .thread 1 .go,
    .thread 3 .go] ++
  List.replicate 32 (.thread 1 .go) ++
  [.thread 1 (.stack emptyPacket), .thread 1 (.stack emptyPacket), .thread 1 .go, .thread 1 .go] ++
  List.replicate 220 (.thread 1 (.command .other))

theorem semaphore_released_deleting :
    deleting.semaphores .user = 0 ∧
      ∃ before after w₁, deletingSteps = before ++ after ∧
        run Process.step deleting before = some w₁ ∧ w₁.semaphores .user = 1 := by
  have hheld : deleting.semaphores .user = 0 := by decide +kernel
  have hsome : (run Process.step deleting deletingSteps).isSome = true := by decide +kernel
  rcases Option.isSome_iff_exists.1 hsome with ⟨w', hrun⟩
  have hthread : (deleting.threads[1]?).any (fun pc => pc.critical = some .user ∧
      pc.remaining < deletingSteps.countP (Turn.isOf 1)) = true := by
    decide +kernel
  rcases (Option.any_eq_true _ _).1 hthread with ⟨pc, hpc, hboth⟩
  have hinside : pc.critical = some .user ∧
      pc.remaining < deletingSteps.countP (Turn.isOf 1) := of_decide_eq_true hboth
  exact ⟨hheld, semaphore_released (Reaches.of_runWhile (Option.some_get _).symm) hpc hinside.1 hrun
    hinside.2⟩

/-- A second device waits while the first one is answered. -/
def secondWaiting : Process :=
  (runWhile Process.step AdmitsOnlyWithRoom Process.initial
    (requestSteps 0 4 (oneLetterRequest 97 1 socketT3) ++
      [.env (.accept 5 (oneLetterRequest 97 2 socketT3) emptySizeBuffer), .thread 1 .go])).get
    (by decide +kernel)

theorem waiting_served_secondWaiting :
    ∃ (i : Nat) (inputs : List Input) (w' : Process),
      run Process.step secondWaiting (inputs.map (Turn.thread i)) = some w' ∧
      ((∃ t ∈ w'.threads, t.fault.isSome = true) ∨
        ∃ w'', w'.step (.thread 1 .go) = some w'' ∧
          w''.threads[1]? = some (.handle (oneLetterRequest 97 2 socketT3) 5)) := by
  have hrunning : ∀ t ∈ secondWaiting.threads, t.fault = none := by decide +kernel
  have hpc : secondWaiting.threads[1]? = some (.userWait (oneLetterRequest 97 2 socketT3) 5) := by
    decide +kernel
  have hroom : ∀ con socket, Pc.handle con socket ∈ secondWaiting.threads →
      HasRoom secondWaiting.data.users con := by
    intro con socket hmem
    have hthreads : secondWaiting.threads =
        [.replicate (.admission (oneLetterRequest 97 1 socketT3) 4)
            (.insertUser (oneLetterRequest 97 1 socketT3)) allServers (-1) [],
          .userWait (oneLetterRequest 97 2 socketT3) 5] := by
      decide +kernel
    rw [hthreads] at hmem
    simp at hmem
  obtain ⟨i, inputs, w', _, hrun, hend⟩ :=
    waiting_served (Reaches.of_runWhile (Option.some_get _).symm) hrunning hroom hpc rfl
  exact ⟨i, inputs, w', hrun, hend⟩

end Server
end DropboxSimulator
