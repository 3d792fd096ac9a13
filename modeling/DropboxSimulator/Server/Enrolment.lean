import DropboxSimulator.Server.Connections
import DropboxSimulator.Server.Delivery

/-!
# Enrolment — the secondaries that have been acknowledged

`mediatorThread` registers a secondary with `insert_server` and has it acknowledged, without a look
at the result.  Where `insert_server` finds no free slot, or gets the id `-1` that marks one, the
secondary is acknowledged and forgotten.  This file proves what holds as long as neither happens
(`FindsRoom`): an acknowledged secondary is in the table ever after, and each loop over
`backupServers` from then on writes its message to it.

* `Enrols`  : a slot of the table holds a secondary with its own descriptor;
* `Passing` : how far a loop over the table has come with one slot.
-/

namespace DropboxSimulator
namespace Server

open Library

/-! ## Registration -/

/-- The slot holds the secondary at `fd`, under its own id and with its own descriptor. -/
def Enrols (w : Process) (k : Fin maxServers) (fd : Int32) : Prop :=
  ∃ peer, w.data.peers fd = some peer ∧ peer.IsServer ∧ peer.record.device ≠ -1 ∧
    w.data.backupServers k = { id := peer.record.device, socket := fd }

/-- What a thread that registers a secondary knows of it. -/
def Registers (w : Process) : Pc → Prop
  | .serverWait id socket => w.data.Hosts socket fun record =>
      record.packetType = packetServerConn ∧ record.device = id
  | .serverInsert id socket => w.data.Hosts socket fun record =>
      record.packetType = packetServerConn ∧ record.device = id
  | .serverPost socket => ∃ k, Enrols w k socket
  | .serverCreate socket => ∃ k, Enrols w k socket
  | .secondaryAck socket => ∃ k, Enrols w k socket
  | _ => True

/-- The id under which the thread is about to register a secondary. -/
def Pc.inserting : Pc → Option Int32
  | .serverInsert id _ => some id
  | _ => none

/-- A secondary is registered under an id that does not mark a free slot, while there is one. -/
def FindsRoom (w : Process) : Label → Prop
  | .thread i _ =>
      ∀ pc ∈ w.threads[i]?, ∀ id ∈ pc.inserting,
        id ≠ -1 ∧ ∃ k, (w.data.backupServers k).id = -1
  | .env _ => True

section Registration

variable {w w' : Process} {l : Label} {k : Fin maxServers} {fd : Int32}

/-- A slot in use is never written again. -/
theorem backupServers_step (h : w.step l = some w') (hk : (w.data.backupServers k).id ≠ -1) :
    w'.data.backupServers k = w.data.backupServers k := by
  cases Process.step_cases h with
  | semaphore hpc hstep semaphores =>
      rfl
  | act hpc hacted =>
      cases hacted with
      | serverInserted id socket input =>
          exact insertServer_of_used hk
      | threadCreated con socket input =>
          simp
      | _ =>
          simp
  | env hsurrounded =>
      cases hsurrounded <;> rfl

theorem Enrols.step (h : Enrols w k fd) (hg : Guarded w) (hl : w.step l = some w') :
    Enrols w' k fd := by
  rcases h with ⟨peer, hpeer, hserver, hid, hslot⟩
  -- the connection of a secondary stays, with its record
  rcases hg.secondary_step hl hpeer hserver with ⟨peer', hpeer', hrecord, _⟩
  refine ⟨peer', hpeer', ?_, ?_, ?_⟩
  · rwa [Peer.IsServer, hrecord]
  · rwa [hrecord]
  · rw [backupServers_step hl (by rwa [hslot]), hslot, hrecord]

theorem Registers.step {pc : Pc} (h : Registers w pc) (hg : Guarded w) (hl : w.step l = some w') :
    Registers w' pc := by
  have hhosts : ∀ {id socket}, (w.data.Hosts socket fun record =>
      record.packetType = packetServerConn ∧ record.device = id) →
      w'.data.Hosts socket fun record =>
        record.packetType = packetServerConn ∧ record.device = id := by
    rintro id socket ⟨peer, hpeer, hserver, hid⟩
    rcases hg.secondary_step hl hpeer hserver with ⟨peer', hpeer', hrecord, _⟩
    exact ⟨peer', hpeer', by rwa [hrecord], by rwa [hrecord]⟩
  cases pc with
  | serverWait | serverInsert =>
      exact hhosts h
  | serverPost | serverCreate | secondaryAck =>
      rcases h with ⟨k, hk⟩
      exact ⟨k, hk.step hg hl⟩
  | _ =>
      trivial

/-- A step with room for those it registers keeps what all threads know. -/
theorem registers_step (hr : ∀ pc ∈ w.threads, Registers w pc) (hg : Guarded w)
    (hok : FindsRoom w l) (hl : w.step l = some w') : ∀ pc ∈ w'.threads, Registers w' pc := by
  have hold : ∀ pc ∈ w.threads, Registers w' pc := fun pc hpc => (hr pc hpc).step hg hl
  refine Process.forall_threads hl hold ?_ ?_ fun _ => trivial
  · intro pc hpc m k hstep
    have hpcs := hold pc hpc
    rcases hstep with hwait | hpost
    · cases hwait with
      | serverWait id socket =>
          exact hpcs
      | _ =>
          trivial
    · cases hpost with
      | serverPost socket =>
          exact hpcs
      | _ =>
          trivial
  · intro i input pc e hlabel hpc hacted hdata
    subst hlabel
    have hpcs := hold pc (List.mem_of_getElem? hpc)
    constructor
    · cases hacted with
      | serverIdentified socket input peer hpeer htype =>
          exact ⟨peer, by rw [hdata, hpeer], htype, rfl⟩
      | serverInserted id socket input =>
          -- the slot that `insert_server` has found
          rcases hok _ hpc id rfl with ⟨hid, hroom⟩
          rcases hpcs with ⟨peer, hpeer, hserver, hdevice⟩
          have hinserted : ∃ k, (insertServer w.data.backupServers id socket).1 k =
              { id := id, socket := socket } := insertServer_of_room hroom
          rcases hinserted with ⟨k, hk⟩
          refine ⟨k, peer, hpeer, hserver, by rwa [hdevice], ?_⟩
          rw [hdata, hdevice]
          exact hk
      | threadCreated con socket input =>
          rcases createThread_next con socket w.data with hnext | hnext
          · rw [hnext]
            trivial
          · rw [hnext]
            trivial
      | replicated site m fd input =>
          cases site <;> trivial
      | sessionRemoved arg record exited hres =>
          dsimp only
          split <;> trivial
      | _ =>
          trivial
    · intro t ht
      cases hacted with
      | serverCreated socket input =>
          rw [List.mem_singleton.1 ht]
          exact hpcs
      | threadCreated con socket input =>
          rw [createThread_spawned con socket w.data t ht]
          trivial
      | _ =>
          cases ht

theorem Reaches.registers (h : Reaches Process.step FindsRoom Process.initial w) :
    ∀ pc ∈ w.threads, Registers w pc := by
  induction h with
  | start =>
      intro pc hpc
      cases hpc
  | next l hreach hok hl ih =>
      exact registers_step ih (Reaches.guarded hreach) hok hl

end Registration

/-! ## Loops over the table -/

/-- A thread inside a loop over `backupServers`. -/
def Pc.looping : Pc → Bool
  | .message _ _ _ _ _ => true
  | .replicate _ _ _ _ _ => true
  | _ => false

/-- How far a loop that sends `m` has come with the slot `k`, which holds the secondary at `fd`,
when `news` is what has been written there since the loop began.  Other threads may write between
the chunks. -/
inductive Passing (k : Fin maxServers) (fd : Int32) (m : WireMessage) (news : List Bytes) :
    Pc → Prop
  | ahead {site : Site} {slots : List (Fin maxServers)} {fd' : Int32} {pending : List Bytes}
      (hslot : k ∈ slots) : Passing k fd m news (.replicate site m slots fd' pending)
  | aheadMessage {site : Site} {slots : List (Fin maxServers)} {fd' : Int32} {writes : List Bytes}
      (hslot : k ∈ slots) : Passing k fd m news (.message site m slots fd' writes)
  | ready {site : Site} {slots : List (Fin maxServers)} {writes : List Bytes}
      (hwritten : WrittenAs m writes) : Passing k fd m news (.message site m slots fd writes)
  | writing {site : Site} {slots : List (Fin maxServers)} {done pending : List Bytes}
      (hwritten : WrittenAs m (done ++ pending)) (hdone : done.Sublist news) :
      Passing k fd m news (.replicate site m slots fd pending)
  | written {pc : Pc} {writes : List Bytes} (hwritten : WrittenAs m writes)
      (hdone : writes.Sublist news) : Passing k fd m news pc
  | overflowed {held : Option Mutex} : Passing k fd m news (.crashed .overflow held)

section Loop

variable {w w' : Process} {l : Label} {k : Fin maxServers} {fd : Int32} {m : WireMessage}
variable {news news' : List Bytes} {pc : Pc} {j : Nat}

theorem Passing.mono (h : Passing k fd m news pc) (hnews : news <+: news') :
    Passing k fd m news' pc := by
  cases h with
  | ahead hslot =>
      exact .ahead hslot
  | aheadMessage hslot =>
      exact .aheadMessage hslot
  | ready hwritten =>
      exact .ready hwritten
  | writing hwritten hdone =>
      exact .writing hwritten (hdone.trans hnews.sublist)
  | written hwritten hdone =>
      exact .written hwritten (hdone.trans hnews.sublist)
  | overflowed =>
      exact .overflowed

/-- A thread that the step is not about stays where it is. -/
theorem getElem?_step_of_ne (hl : w.step l = some w') (hpc : w.threads[j]? = some pc)
    (hne : ∀ i input, l = .thread i input → j ≠ i) : w'.threads[j]? = some pc := by
  have hlt : j < w.threads.length := (List.getElem?_eq_some_iff.1 hpc).1
  cases Process.step_cases hl with
  | semaphore hpc' hstep semaphores =>
      rw [List.getElem?_set_ne (Ne.symm (hne _ _ rfl)), hpc]
  | act hpc' hacted =>
      exact getElem?_set_append_of_ne hpc (hne _ _ rfl)
  | env hsurrounded =>
      rw [List.getElem?_append_left hlt, hpc]

/-- What the thread of the loop does in one step: the loop goes on with the slot, and what it
writes to the secondary arrives. -/
theorem Passing.act {input : Input} {e : Effect Shared Pc} (h : Passing k fd m news pc)
    (hloop : pc.looping = true) {peer peer' : Peer} (hpeer : w.data.peers fd = some peer)
    (hopen : peer.isOpen = true) (hk : (w.data.backupServers k).id ≠ -1)
    (hsocket : (w.data.backupServers k).socket = fd) (hacted : Acted w.data pc input e)
    (hpeer' : e.data.peers fd = some peer') (hnews : peer'.stream = peer.stream ++ news') :
    Passing k fd m (news ++ news') e.next := by
  have hprefix : news <+: news ++ news' := List.prefix_append _ _
  cases h with
  | ahead hslot =>
      cases hacted with
      | hungUp _ hreads =>
          cases hreads
      | chunkWritten =>
          exact .ahead hslot
      | messageReady site m i rest fd' stale writes hid hwrites =>
          -- the loop has come to the slot, or to another one before it
          rcases List.mem_cons.1 hslot with rfl | hrest
          · rw [hsocket]
            exact .ready ⟨stale, hwrites⟩
          · exact .aheadMessage hrest
      | messageOverflow =>
          exact .overflowed
      | slotSkipped site m i rest fd' stale hid =>
          rcases List.mem_cons.1 hslot with rfl | hrest
          · exact absurd hid hk
          · exact .ahead hrest
      | replicated =>
          cases hslot
  | aheadMessage hslot =>
      cases hacted with
      | hungUp _ hreads =>
          cases hreads
      | messageBegun =>
          exact .ahead hslot
  | @ready site slots writes hwritten =>
      cases hacted with
      | hungUp _ hreads =>
          cases hreads
      | messageBegun =>
          -- the first write of the message arrives
          rw [Shared.begin_write_peers hpeer hopen] at hpeer'
          cases hpeer'
          have hfirst : news' = [writes.headD []] := (List.append_cancel_left hnews).symm
          have hcons : [writes.headD []] ++ writes.tail = writes := by
            cases writes with
            | nil =>
                exact absurd rfl hwritten.ne_nil
            | cons bs rest =>
                rfl
          refine .writing (by rwa [hcons] : WrittenAs m ([writes.headD []] ++ writes.tail)) ?_
          rw [hfirst]
          exact List.sublist_append_right _ _
  | writing hwritten hdone =>
      cases hacted with
      | hungUp _ hreads =>
          cases hreads
      | chunkWritten site m slots fd' bs pending input =>
          rw [Shared.write_of_open hpeer hopen, Shared.setPeer_peers_self] at hpeer'
          cases hpeer'
          have hchunk : news' = [bs] := (List.append_cancel_left hnews).symm
          subst hchunk
          exact .writing (by simpa using hwritten) (hdone.append_right [bs])
      | messageReady | messageOverflow | slotSkipped | replicated =>
          -- nothing is pending, so all of the message has been written
          refine .written hwritten ?_
          rw [List.append_nil]
          exact hdone.trans hprefix.sublist
  | written hwritten hdone =>
      exact .written hwritten (hdone.trans hprefix.sublist)
  | overflowed =>
      cases hloop

/-- The loop of thread `j` while it passes: the secondary is enrolled, its connection has got
`news` since the loop began, and the thread is as far as that. -/
structure Passes (j : Nat) (k : Fin maxServers) (fd : Int32) (m : WireMessage)
    (before : List Bytes) (w : Process) : Prop where
  enrols : Enrols w k fd
  passing : ∃ peer news pc, w.data.peers fd = some peer ∧ peer.stream = before ++ news ∧
    w.threads[j]? = some pc ∧ Passing k fd m news pc

theorem Passes.step {before : List Bytes} (h : Passes j k fd m before w) (hg : Guarded w)
    (hloop : ∀ pc ∈ w.threads[j]?, pc.looping = true) (hl : w.step l = some w') :
    Passes j k fd m before w' := by
  refine ⟨h.enrols.step hg hl, ?_⟩
  rcases h.enrols with ⟨peer, hpeer, hserver, hid, hslot⟩
  rcases h.passing with ⟨peer₀, news, pc, hpeer₀, hstream, hpc, hpassing⟩
  rw [hpeer] at hpeer₀
  cases hpeer₀
  rcases hg.secondary_step hl hpeer hserver with ⟨peer', hpeer', _, news', hnews⟩
  have hstream' : peer'.stream = before ++ (news ++ news') := by
    rw [← hnews, hstream, List.append_assoc]
  by_cases hj : ∃ input, l = .thread j input
  · rcases hj with ⟨input, rfl⟩
    have hlooping := hloop pc hpc
    cases Process.step_cases hl with
    | semaphore hpc' hstep semaphores =>
        -- a loop neither waits nor posts
        rw [hpc] at hpc'
        cases hpc'
        rcases hstep with hwait | hpost
        · cases hwait <;> cases hlooping
        · cases hpost <;> cases hlooping
    | @act _ _ _ e hpc' hacted =>
        rw [hpc] at hpc'
        cases hpc'
        refine ⟨peer', news ++ news', e.next, hpeer', hstream', getElem?_set_append_self hpc, ?_⟩
        exact hpassing.act hlooping hpeer (hg.secondaries fd peer hpeer hserver)
          (by rwa [hslot]) (by rw [hslot]) hacted hpeer' hnews.symm
  · refine ⟨peer', news ++ news', pc, hpeer', hstream', ?_, hpassing.mono (List.prefix_append _ _)⟩
    refine getElem?_step_of_ne hl hpc fun i input heq hji => hj ⟨input, ?_⟩
    rw [heq, hji]

/-- The steps of a run while thread `j` is inside a loop. -/
def WhileLooping (j : Nat) (w : Process) (l : Label) : Prop :=
  FindsRoom w l ∧ ∀ pc ∈ w.threads[j]?, pc.looping = true

/-- In every run that finds room for each secondary it registers, a secondary that is being
acknowledged is in the table under its own id and with its own descriptor, and stays there; and
every loop that begins after that writes its whole message to it. -/
theorem acknowledged_enrolled (h : Reaches Process.step FindsRoom Process.initial w)
    (hack : .secondaryAck fd ∈ w.threads) (h' : Reaches Process.step FindsRoom w w') :
    ∃ k, Enrols w' k fd ∧
      ∀ (j : Nat) (site : Site) (m : WireMessage) (w'' : Process),
        w'.threads[j]? = some (.replicate site m allServers (-1) []) →
        Reaches Process.step (WhileLooping j) w' w'' → w''.threads[j]? = some site.after →
        Enrols w'' k fd ∧ ∃ peer' peer'' news writes,
          w'.data.peers fd = some peer' ∧ w''.data.peers fd = some peer'' ∧
            peer''.stream = peer'.stream ++ news ∧ WrittenAs m writes ∧ writes.Sublist news := by
  rcases Reaches.registers h _ hack with ⟨k, hk⟩
  -- the slot stays as it is
  have hboth : Reaches Process.step FindsRoom Process.initial w' ∧ Enrols w' k fd := by
    induction h' with
    | start =>
        exact ⟨h, hk⟩
    | next l hreach hok hl ih =>
        exact ⟨ih.1.next l hok hl, ih.2.step (Reaches.guarded ih.1) hl⟩
  refine ⟨k, hboth.2, fun j site m w'' hj hloop => ?_⟩
  rcases id hboth.2 with ⟨peer, hpeer, _⟩
  have hpasses : Guarded w'' ∧ Passes j k fd m peer.stream w'' := by
    induction hloop with
    | start =>
        exact ⟨Reaches.guarded hboth.1, hboth.2, peer, [], _, hpeer, by simp, hj,
          .ahead (List.mem_finRange k)⟩
    | next l hreach hok hl ih =>
        exact ⟨ih.1.step hl, ih.2.step ih.1 hok.2 hl⟩
  intro hafter
  rcases hpasses.2.passing with ⟨peer'', news, pc, hpeer'', hstream, hpc, hpassing⟩
  rw [hafter] at hpc
  cases hpc
  -- behind the loop the message has been written
  have hwritten : ∃ writes, WrittenAs m writes ∧ writes.Sublist news := by
    cases site with
    | admission | exit | file =>
        cases hpassing with
        | written hwritten hdone =>
            exact ⟨_, hwritten, hdone⟩
  rcases hwritten with ⟨writes, hwritten, hdone⟩
  exact ⟨hpasses.2.enrols, peer, peer'', news, writes, hpeer, hpeer'', hstream, hwritten, hdone⟩

end Loop

/-- A secondary connects and is registered, up to its acknowledgement, as the threads `i` and
`i + 1`. -/
def enrolSteps (i : Nat) (fd id : Int32) : List Label :=
  [.env (.accept fd (serverRecord id) emptySizeBuffer), .thread i .go, .thread i .go,
    .thread i .go, .thread i .go, .thread i .go]

/-- Another secondary connects when both slots are taken. -/
def thirdSecondary : List Label :=
  enrolSteps 0 3 1 ++ enrolSteps 2 4 2 ++ enrolSteps 4 5 3 ++ [.thread 5 .go]

/-- The first secondary is acknowledged, and then a device connects, up to its `ack`. -/
def deviceAfterSecondary : List Label :=
  .thread 1 .go :: requestSteps 2 4 (oneLetterRequest 97 1 socketT1)

/-- The loop that tells the secondary of the device: the header in 30 writes, the record in 32. -/
def tellSteps : List Label :=
  .thread 2 (.stack emptyPacket) :: List.replicate 62 (.thread 2 .go) ++
    [.thread 2 (.stack emptyPacket), .thread 2 .go]

instance (w : Process) (l : Label) : Decidable (FindsRoom w l) :=
  match l with
  | .thread i _ =>
      have : ∀ pc : Pc, Decidable (∀ id ∈ pc.inserting,
          id ≠ -1 ∧ ∃ k, (w.data.backupServers k).id = -1) := fun _ => Option.decidableForallMem _
      inferInstanceAs (Decidable (∀ pc ∈ w.threads[i]?, ∀ id ∈ pc.inserting,
        id ≠ -1 ∧ ∃ k, (w.data.backupServers k).id = -1))
  | .env _ => inferInstanceAs (Decidable True)

instance (j : Nat) (w : Process) (l : Label) : Decidable (WhileLooping j w l) :=
  inferInstanceAs (Decidable (FindsRoom w l ∧ ∀ pc ∈ w.threads[j]?, pc.looping = true))

def acknowledging : Process :=
  (runWhile Process.step FindsRoom Process.initial (enrolSteps 0 3 1)).get (by decide +kernel)

def telling : Process :=
  (runWhile Process.step FindsRoom acknowledging deviceAfterSecondary).get (by decide +kernel)

def tellingDone : Process :=
  (runWhile Process.step (WhileLooping 2) telling tellSteps).get (by decide +kernel)

theorem acknowledged_enrolled_firstSecondary :
    ∃ k, Enrols telling k 3 ∧ Enrols tellingDone k 3 ∧
      ∃ peer' peer'' news writes, telling.data.peers 3 = some peer' ∧
        tellingDone.data.peers 3 = some peer'' ∧ peer''.stream = peer'.stream ++ news ∧
          WrittenAs (.insertUser (oneLetterRequest 97 1 socketT1)) writes ∧
            writes.Sublist news := by
  have hacking : Reaches Process.step FindsRoom Process.initial acknowledging :=
    Reaches.of_runWhile (Option.some_get _).symm
  have htelling : Reaches Process.step FindsRoom acknowledging telling :=
    Reaches.of_runWhile (Option.some_get _).symm
  have hdone : Reaches Process.step (WhileLooping 2) telling tellingDone :=
    Reaches.of_runWhile (Option.some_get _).symm
  have hack : .secondaryAck 3 ∈ acknowledging.threads := by decide +kernel
  have hbegins : telling.threads[2]? = some
      (.replicate (.admission (oneLetterRequest 97 1 socketT1) 4)
        (.insertUser (oneLetterRequest 97 1 socketT1)) allServers (-1) []) := by decide +kernel
  have hends : tellingDone.threads[2]? =
      some (Site.admission (oneLetterRequest 97 1 socketT1) 4).after := by decide +kernel
  rcases acknowledged_enrolled hacking hack htelling with ⟨k, hk, hloops⟩
  rcases hloops 2 _ _ tellingDone hbegins hdone hends with ⟨hk', hwritten⟩
  exact ⟨k, hk, hk', hwritten⟩

/-- The third secondary has been written its acknowledgement, and is in no slot. -/
theorem thirdSecondary_forgotten :
    ∃ w peer, run Process.step Process.initial thirdSecondary = some w ∧
      w.data.peers 5 = some peer ∧ peer.IsServer ∧ peer.stream = [ackBytes] ∧
        ∀ k, ¬Enrols w k 5 := by
  have hrun : (run Process.step Process.initial thirdSecondary).bind (fun w =>
      (w.data.peers 5).map fun peer =>
        (peer.record.packetType, peer.stream, (w.data.backupServers 0).socket,
          (w.data.backupServers 1).socket)) = some (packetServerConn, [ackBytes], 3, 4) := by
    decide +kernel
  rcases Option.bind_eq_some_iff.1 hrun with ⟨w, hw, hpeer⟩
  rcases Option.map_eq_some_iff.1 hpeer with ⟨peer, hpeer, hval⟩
  simp only [Prod.mk.injEq] at hval
  rcases hval with ⟨hserver, hstream, hzero, hone⟩
  refine ⟨w, peer, hw, hpeer, hserver, hstream, ?_⟩
  rintro k ⟨_, _, _, _, hslot⟩
  have hsocket : (w.data.backupServers k).socket = 5 := by rw [hslot]
  fin_cases k
  · exact absurd (hzero.symm.trans hsocket) (by decide)
  · exact absurd (hone.symm.trans hsocket) (by decide)

end Server
end DropboxSimulator
