import DropboxSimulator.Server.Mutex

/-!
# Lookups — the pointers the server dereferences without a check

`uploadFileCommand` and `deleteFileCommand` dereference the result of `get_user`, and `exitCommand`
that of `get_device`.  A session is served by two command threads, and the table entry of the
session goes with the `EXIT` of one of them, or of another session with the same device.  The
lookups succeed in every run in which no `EXIT` takes away an entry that a command under way
still needs (`Orderly`).
-/

namespace DropboxSimulator
namespace Server

open Library

/-! ## Commands under way -/

/-- The user a thread has still to look up for an upload or a deletion. -/
def Pc.changing : Pc → Option Bytes
  | .receive arg _ _ => some arg.userName
  | .notifyWait arg _ => some arg.userName
  | .notifyLookup arg _ => some arg.userName
  | _ => none

/-- The user and the device a thread has still to look up for an exit. -/
def Pc.exiting : Pc → Option (Bytes × Int32)
  | .exitWait arg => some (arg.userName, arg.currentDevice)
  | .exitRemove arg => some (arg.userName, arg.currentDevice)
  | _ => none

/-- Condition on a step of thread `i`: requests name a user and a device, a command is taken up
while its session is registered, and an exit removes an entry while no other thread needs it. -/
def Orderly (w : Process) (i : Nat) (input : Input) : Pc → Prop
  | .handle con _ => con.user ≠ [] ∧ con.device ≠ -1
  | .command arg =>
      match input with
      | .command (.file _) => arg.userName ∈ (registry w.data.users).owners
      | .command .exit => Registered w.data.users arg
      | _ => True
  | .exitRemove arg =>
      ∀ t ∈ w.threads.eraseIdx i, t.exiting ≠ some (arg.userName, arg.currentDevice) ∧
        ((registry w.data.users).members arg.userName = {arg.currentDevice} →
          t.changing ≠ some arg.userName)
  | _ => True

def OrderlyStep (w : Process) : Label → Prop
  | .thread i input => ∀ pc ∈ w.threads[i]?, Orderly w i input pc
  | .env _ => True

/-! ## The invariant -/

/-- What a thread relies on: what it is going to look up is registered. -/
def Relies (users : Users) (pc : Pc) : Prop :=
  (∀ name ∈ pc.changing, name ∈ (registry users).owners) ∧
    (∀ pair ∈ pc.exiting, pair ∈ (registry users).pairs) ∧
    ∀ fault ∈ pc.fault, fault = .overflow

/-- The table is well formed and every thread finds what it relies on. -/
structure LookupsSucceed (w : Process) : Prop where
  users : WellFormed w.data.users
  relies : ∀ pc ∈ w.threads, Relies w.data.users pc

section Steps

variable {users users' : Users} {pc : Pc} {w w' : Process} {l : Label}

theorem Relies.mono (h : Relies users pc)
    (hsub : (registry users).pairs ⊆ (registry users').pairs) :
    Relies users' pc :=
  ⟨fun name hn => Roster.owners_subset hsub (h.1 name hn), fun pair hp => hsub (h.2.1 pair hp),
    h.2.2⟩

/-- A thread that has nothing to look up relies on nothing. -/
theorem relies_of_none (hchanging : pc.changing = none) (hexiting : pc.exiting = none)
    (hfault : pc.fault = none) : Relies users pc :=
  ⟨by simp [hchanging], by simp [hexiting], by simp [hfault]⟩

theorem relies_of_overflow {held : Option Mutex} : Relies users (.crashed .overflow held) :=
  ⟨by simp [Pc.changing], by simp [Pc.exiting], by simp [Pc.fault]⟩

/-- Once a device has left, its user is still registered with any other device. -/
theorem mem_owners_of_exit {name other : Bytes} {deviceId : Int32}
    (hpairs : (registry users').pairs = (registry users).pairs \ {(name, deviceId)})
    (hreg : (name, deviceId) ∈ (registry users).pairs)
    (hother : other ∈ (registry users).owners)
    (hlast : (registry users).members name = {deviceId} → other ≠ name) :
    other ∈ (registry users').owners := by
  rcases Roster.mem_owners_iff.1 hother with ⟨b, hb⟩
  by_cases hname : other = name
  · subst hname
    -- the user that loses a device has another one
    have hnot : (registry users).members other ≠ {deviceId} := fun h => hlast h rfl
    obtain ⟨b', hb', hne⟩ : ∃ b' ∈ (registry users).members other, b' ≠ deviceId := by
      by_contra hno
      push Not at hno
      exact hnot (Set.Subset.antisymm (fun x hx => hno x hx)
        (Set.singleton_subset_iff.2 (Roster.mem_members_iff.2 hreg)))
    refine Roster.mem_owners_iff.2 ⟨b', ?_⟩
    rw [hpairs]
    exact ⟨Roster.mem_members_iff.1 hb', by simpa using hne⟩
  · refine Roster.mem_owners_iff.2 ⟨b, ?_⟩
    rw [hpairs]
    exact ⟨hb, by simp [hname]⟩

/-- What the orderly removal of a session leaves to the other threads. -/
theorem Relies.exit {arg : UserCurrentSocket} (h : Relies users pc)
    (hreg : Registered users arg)
    (hpairs : (registry users').pairs =
      (registry users).pairs \ {(arg.userName, arg.currentDevice)})
    (hexiting : pc.exiting ≠ some (arg.userName, arg.currentDevice))
    (hchanging : (registry users).members arg.userName = {arg.currentDevice} →
      pc.changing ≠ some arg.userName) : Relies users' pc := by
  refine ⟨fun name hn => ?_, fun pair hp => ?_, h.2.2⟩
  · refine mem_owners_of_exit hpairs hreg (h.1 name hn) fun hlast heq => ?_
    exact hchanging hlast (heq ▸ hn)
  · rw [hpairs]
    refine ⟨h.2.1 pair hp, fun heq => hexiting ?_⟩
    rw [← Set.mem_singleton_iff.1 heq]
    exact hp

/-- A registered user is found. -/
theorem exists_getUser_of_owner (hw : WellFormed users) {name : Bytes}
    (h : name ∈ (registry users).owners) : ∃ u, getUser users name = some u := by
  rcases Roster.mem_owners_iff.1 h with ⟨b, hb⟩
  exact (hw.mem_owners_iff (hw.mem_pairs_registry_iff.1 hb).1).1 h

/-- An orderly action keeps the table well formed, and every thread what it relies on. -/
theorem Acted.relies {input : Input} {e : Effect Shared Pc} {i : Nat}
    (hw : WellFormed w.data.users) (hpc : Relies w.data.users pc) (hok : Orderly w i input pc)
    (h : Acted w.data pc input e) :
    WellFormed e.data.users ∧ Relies e.data.users e.next ∧
      ∀ t ∈ w.threads.eraseIdx i, Relies w.data.users t → Relies e.data.users t := by
  cases h with
  | admitUndefined con socket input hres =>
      have ho : Outcome w.data.users w.data.backupServers con socket :=
        handle_outcome hw hok.1 hok.2
      cases ho with
      | nack1 hsome _ _ | nack3 hsome _ _ _ | ack _ hsome _ _ =>
          rw [hres] at hsome
          cases hsome
  | admitted con socket input handled hres hack =>
      rcases hw.admitted hok.1 hok.2 hres hack with ⟨hw', _, hpairs⟩
      refine ⟨hw', relies_of_none rfl rfl rfl, fun t _ ht => ht.mono ?_⟩
      rw [hpairs]
      exact Set.subset_insert _ _
  | refused con socket input handled reply hres hreply hnack =>
      -- a refused request leaves the table as it was
      have hsame : handled.users = w.data.users :=
        (hw.refused hok.1 hok.2 hres (by simpa [hreply] using hnack)).1
      refine ⟨hsame ▸ hw, relies_of_none rfl rfl rfl, fun t _ ht => ?_⟩
      simpa only [hsame] using ht
  | unanswered con socket input handled hres hreply =>
      -- every well-formed request is answered
      exact absurd hreply (hw.refused hok.1 hok.2 hres (by simp [hreply])).2
  | threadCreated con socket input =>
      rw [createThread_data]
      refine ⟨hw, ?_, fun t _ ht => ht⟩
      rcases createThread_next con socket w.data with hnext | hnext
      · rw [hnext]
        exact relies_of_none rfl rfl rfl
      · rw [hnext]
        exact relies_of_overflow
  | fileCommand arg c hread =>
      refine ⟨by simpa using hw, ?_, by simp⟩
      rw [Shared.write_users]
      refine ⟨fun name hn => ?_, by simp [Pc.exiting], by simp [Pc.fault]⟩
      cases hn
      exact hok
  | exitCommand arg =>
      refine ⟨by simpa using hw, ?_, by simp⟩
      rw [Shared.write_users]
      refine ⟨by simp [Pc.changing], fun pair hp => ?_, by simp [Pc.fault]⟩
      cases hp
      exact hok
  | restAcked arg c acks input hread =>
      refine ⟨by simpa using hw, ?_, by simp⟩
      rw [Shared.write_users]
      exact ⟨hpc.1, hpc.2.1, by simp [Pc.fault]⟩
  | fileChanged arg c input =>
      exact ⟨hw, ⟨hpc.1, hpc.2.1, by simp [Pc.fault]⟩, by simp⟩
  | lookupFailed arg c input hno =>
      -- the user of a pending change is registered
      rcases exists_getUser_of_owner hw (hpc.1 _ rfl) with ⟨u, hu⟩
      rw [hno] at hu
      cases hu
  | exitUndefined arg record hres =>
      -- and so is the session of a pending exit
      have hreg : Registered w.data.users arg := hpc.2.1 _ rfl
      rcases hw.exists_ref_of_registered hreg with ⟨hname, p, hdev⟩
      rw [exitCommand_of_ref hw.names hname hdev] at hres
      cases hres
  | sessionRemoved arg record exited hres =>
      -- the one action that takes an entry away; the others do not need it
      have hreg : Registered w.data.users arg := hpc.2.1 _ rfl
      rcases hw.exited hreg hres with ⟨hcode, hw', hpairs⟩
      refine ⟨by simpa using hw', ?_, fun t ht hrel => ?_⟩
      · simp only [hcode, if_true]
        exact relies_of_none rfl rfl rfl
      · rw [Shared.closeAll_users]
        exact hrel.exit hreg hpairs (hok t ht).1 (hok t ht).2
  | messageOverflow site m j rest fd stale hid hwrites =>
      exact ⟨hw, relies_of_overflow, by simp⟩
  | notificationOverflow arg c user d rest fd stale hother hwrites =>
      exact ⟨hw, relies_of_overflow, by simp⟩
  | replicated site m fd input =>
      refine ⟨hw, ?_, by simp⟩
      cases site <;> exact relies_of_none rfl rfl rfl
  | _ =>
      exact ⟨by simpa using hw, relies_of_none rfl rfl rfl, by simp⟩

/-- A wait or a post changes nothing a thread relies on. -/
theorem Relies.semaphore {k : Pc} {m : Mutex} (h : Relies users pc)
    (hstep : Waited pc m k ∨ Posted pc m k) : Relies users k := by
  rcases hstep with hwait | hpost
  · cases hwait with
    | notifyWait arg c | exitWait arg =>
        exact ⟨h.1, h.2.1, by simp [Pc.fault]⟩
    | _ =>
        exact relies_of_none rfl rfl rfl
  · cases hpost <;> exact relies_of_none rfl rfl rfl

/-- An orderly step keeps every lookup safe. -/
theorem LookupsSucceed.step (hi : LookupsSucceed w) (hok : OrderlyStep w l)
    (h : w.step l = some w') : LookupsSucceed w' := by
  cases Process.step_cases h with
  | semaphore hpc hstep semaphores =>
      refine ⟨hi.users, fun t ht => ?_⟩
      rcases List.mem_or_eq_of_mem_set ht with ht | rfl
      · exact hi.relies t ht
      · exact (hi.relies _ (List.mem_of_getElem? hpc)).semaphore hstep
  | act hpc hacted =>
      obtain ⟨hw, hnext, hothers⟩ :=
        hacted.relies hi.users (hi.relies _ (List.mem_of_getElem? hpc)) (hok _ hpc)
      refine ⟨hw, fun t ht => ?_⟩
      rcases mem_set_append ht with ht | rfl | ht
      · exact hothers t ht (hi.relies t (List.mem_of_mem_eraseIdx ht))
      · exact hnext
      · rcases hacted.spawned t ht with ⟨socket, rfl⟩ | ⟨arg, rfl⟩ <;>
          exact relies_of_none rfl rfl rfl
  | env hsurrounded =>
      refine ⟨?_, fun t ht => ?_⟩
      · cases hsurrounded <;> simpa using hi.users
      · rcases List.mem_append.1 ht with ht | ht
        · have hrel := hi.relies t ht
          cases hsurrounded <;> simpa using hrel
        · rcases hsurrounded.spawned t ht with ⟨socket, rfl⟩
          exact relies_of_none rfl rfl rfl

end Steps

/-! ## Every lookup succeeds -/

/-- In an orderly run every pointer that is dereferenced unchecked is there: the user that an
upload or a deletion looks up, and the device that an exit looks up; and no thread has met a null
pointer. -/
theorem lookups_succeed {w : Process}
    (h : Reaches Process.step OrderlyStep Process.initial w) :
    ∀ pc ∈ w.threads,
      (∀ arg c, pc = .notifyLookup arg c → ∃ u, getUser w.data.users arg.userName = some u) ∧
      (∀ arg, pc = .exitRemove arg →
        ∃ p, getDevice w.data.users arg.currentDevice arg.userName = .ref p) ∧
      pc.fault ≠ some .nullPointer ∧ pc.fault ≠ some .undefinedResult := by
  have hi : LookupsSucceed w :=
    h.invariant ⟨wellFormed_initiate, fun _ ht => by cases ht⟩ fun _ _ _ hi hok hl => hi.step hok hl
  intro pc hpc
  have hrel := hi.relies pc hpc
  refine ⟨fun arg c hlookup => ?_, fun arg hremove => ?_, fun hfault => ?_, fun hfault => ?_⟩
  · subst hlookup
    exact exists_getUser_of_owner hi.users (hrel.1 _ rfl)
  · subst hremove
    exact (hi.users.exists_ref_of_registered (hrel.2.1 _ rfl)).2
  · cases hrel.2.2 _ hfault
  · cases hrel.2.2 _ hfault

/-- A condition on steps that can be computed and that orderly steps need not meet: no `EXIT` is
executed at all. -/
def Process.sure (w : Process) : Label → Bool
  | .thread i _ =>
      match w.threads[i]? with
      | some (.handle con _) => con.user ≠ [] ∧ con.device ≠ -1
      | some (.command arg) => (registry w.data.users arg.userName arg.currentDevice).isSome
      | some (.exitRemove _) => false
      | _ => true
  | .env _ => true

theorem orderlyStep_of_sure {w : Process} {l : Label} (h : w.sure l = true) : OrderlyStep w l := by
  cases l with
  | env e =>
      trivial
  | thread i input =>
      intro pc hpc
      simp only [Process.sure, Option.mem_def.1 hpc] at h
      cases pc with
      | handle con socket =>
          have hboth : con.user ≠ [] ∧ con.device ≠ -1 := of_decide_eq_true h
          exact hboth
      | command arg =>
          have hreg : Registered w.data.users arg := Option.isSome_iff_ne_none.1 h
          cases input with
          | command c =>
              cases c with
              | file c =>
                  exact Roster.mem_owners_iff.2 ⟨_, Roster.mem_members_iff.2 hreg⟩
              | exit =>
                  exact hreg
              | other =>
                  trivial
          | _ =>
              trivial
      | exitRemove arg =>
          cases h
      | _ =>
          trivial

/-- An upload of the first device, about to look up its user. -/
def firstUpload : Process :=
  (runWhile Process.step (fun w l => w.sure l = true) Process.initial
    (requestSteps 0 4 (oneLetterRequest 97 1 socketT2) ++ admittedSteps 0 emptyPacket ++
      .thread 1 (.command (.file (.upload [102] []))) :: List.replicate 6 (.thread 1 .go))).get
    (by decide +kernel)

theorem firstUpload_reached : Reaches Process.step OrderlyStep Process.initial firstUpload := by
  have hsure : Reaches Process.step (fun w l => w.sure l = true) Process.initial firstUpload :=
    Reaches.of_runWhile (Option.some_get _).symm
  exact hsure.mono fun _ _ => orderlyStep_of_sure

theorem lookups_succeed_firstUpload :
    ∃ arg c u, firstUpload.threads[1]? = some (.notifyLookup arg c) ∧
      getUser firstUpload.data.users arg.userName = some u := by
  have hlookup : (firstUpload.threads[1]?).any (fun pc =>
      match pc with
      | .notifyLookup _ _ => true
      | _ => false) = true := by
    decide +kernel
  rcases (Option.any_eq_true _ _).1 hlookup with ⟨pc, hpc, hmatch⟩
  cases pc with
  | notifyLookup arg c =>
      rcases lookups_succeed firstUpload_reached _ (List.mem_of_getElem? hpc) with ⟨hupload, _⟩
      rcases hupload arg c rfl with ⟨u, hu⟩
      exact ⟨arg, c, u, hpc, hu⟩
  | _ =>
      cases hmatch

/-- Console and inotify connection of one device: while the second is about to look up its user
for an upload, the first exits. -/
def exitDuringUpload : List Label :=
  requestSteps 0 4 (oneLetterRequest 97 1 socketT1) ++ admittedSteps 0 emptyPacket ++
    requestSteps 2 5 (oneLetterRequest 97 1 socketT2) ++ admittedSteps 2 emptyPacket ++
    .thread 3 (.command (.file (.upload [102] []))) :: List.replicate 5 (.thread 3 .go) ++
    [.thread 1 (.command .exit), .thread 1 .go,
      .thread 1 (.memory ⟨List.replicate 40 0, by simp⟩)] ++
    [.thread 1 (.stack emptyPacket), .thread 1 (.stack emptyPacket), .thread 1 .go,
      .thread 1 .go] ++
    [.thread 3 .go, .thread 3 .go]

/-- The upload then dereferences a null pointer. -/
theorem exitDuringUpload_null :
    ∃ w, run Process.step Process.initial exitDuringUpload = some w ∧
      ∃ pc ∈ w.threads, pc.fault = some .nullPointer := by
  have hrun : (run Process.step Process.initial exitDuringUpload).map
      (fun w => w.threads.any fun pc => pc.fault = some .nullPointer) = some true := by
    decide +kernel
  rcases Option.map_eq_some_iff.1 hrun with ⟨w, hw, hany⟩
  rcases List.any_eq_true.1 hany with ⟨pc, hpc, hfault⟩
  exact ⟨w, hw, pc, hpc, by simpa using hfault⟩

end Server
end DropboxSimulator
