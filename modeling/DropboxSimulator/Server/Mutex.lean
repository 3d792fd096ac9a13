import DropboxSimulator.Server.Sections
import DropboxSimulator.Server.Threads

/-!
# Mutex — the two semaphores and the threads inside their sections

`mutex_user_structure` and `mutex_server_structure` start with the value `1`.  The states in which
a thread holds one of them follow from the program (`Pc.critical`), so each value is `1` less the
number of threads that hold it, ended threads included.  A refused request ends its thread inside
the section; from then on `mutex_user_structure` stays at `0`.
-/

namespace DropboxSimulator
namespace Server

open Library

/-! ## Who holds a semaphore -/

/-- The semaphore a thread holds.  A refused thread has ended without giving it back. -/
def Pc.critical : Pc → Option Mutex
  | .serverInsert _ _ => some .server
  | .serverPost _ => some .server
  | .handle _ _ => some .user
  | .refuse _ _ => some .user
  | .refused => some .user
  | .admitAck _ _ => some .user
  | .message site _ _ _ _ => some site.mutex
  | .replicate site _ _ _ _ => some site.mutex
  | .userPost _ _ => some .user
  | .notifyLookup _ _ => some .user
  | .notify _ _ _ _ _ _ => some .user
  | .notifyPost _ _ => some .user
  | .replicatePost _ => some .server
  | .exitRemove _ => some .user
  | .exitPost => some .user
  | .crashed _ held => held
  | _ => none

def Pc.holds (m : Mutex) (pc : Pc) : Bool :=
  pc.critical = some m

theorem Site.critical_after (site : Site) : site.after.critical = some site.mutex := by
  cases site <;> rfl

theorem Waited.critical {pc k : Pc} {m : Mutex} (h : Waited pc m k) :
    pc.critical = none ∧ k.critical = some m := by
  cases h <;> exact ⟨rfl, rfl⟩

theorem Posted.critical {pc k : Pc} {m : Mutex} (h : Posted pc m k) :
    pc.critical = some m ∧ k.critical = none := by
  cases h <;> exact ⟨rfl, rfl⟩

theorem Acted.critical {sh : Shared} {pc : Pc} {input : Input} {e : Effect Shared Pc}
    (h : Acted sh pc input e) :
    e.next.critical = pc.critical := by
  cases h with
  | hungUp pc hreads =>
      cases pc <;> first | rfl | cases hreads
  | threadCreated con socket input =>
      rcases createThread_next con socket sh with hnext | hnext <;> rw [hnext] <;> rfl
  | replicated site m fd input =>
      exact site.critical_after
  | sessionRemoved arg record exited hres =>
      dsimp only
      split <;> rfl
  | _ =>
      rfl

/-- The program waits and posts in step with `Pc.critical`. -/
theorem disciplined : Disciplined program around Pc.holds where
  wait := by
    intro pc m k h
    rcases (waited h).critical with ⟨hpc, hk⟩
    refine ⟨by simp [Pc.holds, hpc], fun m' => ?_⟩
    by_cases hm : m' = m
    · simp [Pc.holds, hk, hm]
    · simp [Pc.holds, hpc, hk, hm, Ne.symm hm]
  post := by
    intro pc m k h
    rcases (posted h).critical with ⟨hpc, hk⟩
    refine ⟨by simp [Pc.holds, hpc], fun m' => ?_⟩
    by_cases hm : m' = m
    · simp [Pc.holds, hk, hm]
    · simp [Pc.holds, hpc, hk, hm, Ne.symm hm]
  act := by
    intro pc f data input e hinstr heffect m
    have hacted := acted hinstr heffect
    refine ⟨by simp [Pc.holds, hacted.critical], fun t ht => ?_⟩
    rcases hacted.spawned t ht with ⟨socket, rfl⟩ | ⟨arg, rfl⟩ <;> rfl
  env := by
    intro data e data' spawned h m t ht
    rcases (surrounded h).spawned t ht with ⟨socket, rfl⟩
    rfl

variable {w w' : Process} {ok : Process → Label → Prop}

/-- Each semaphore is `1` less the number of threads that hold it. -/
theorem Reaches.balanced (h : Reaches Process.step ok Process.initial w) :
    Balanced Pc.holds w := by
  refine h.invariant (fun _ => rfl) fun t l u ht _ hl => ?_
  unfold Process.step at hl
  split at hl
  · cases hl
  · exact ht.step disciplined hl

/-! ## Refusals -/

/-- A thread that has not ended. -/
def Pc.live : Pc → Bool
  | .refused => false
  | .ended => false
  | _ => true

/-- A thread that has not ended and is inside a section of the semaphore. -/
def Pc.inside (m : Mutex) (pc : Pc) : Bool :=
  pc.live && pc.holds m

/-- The server has room for the device: it is registered, or its user is and has fewer than
`MAX_DEVICES` devices, or the user is new and fewer than `MAX_USERS` users are logged. -/
def HasRoom (users : Users) (con : Connection) : Prop :=
  match getUser users con.user with
  | some _ =>
      getDevice users con.device con.user ≠ .null ∨ numberOfDevices users con.user < maxDevices
  | none => numberOfUsersLogged users < maxUsers

/-- The request a step is about to handle. -/
def Process.admitting (w : Process) : Label → Option Connection
  | .thread i _ =>
      match w.threads[i]? with
      | some (.handle con _) => some con
      | _ => none
  | .env _ => none

/-- The step admits no request that the server has no room for. -/
def AdmitsOnlyWithRoom (w : Process) (l : Label) : Prop :=
  ∀ con ∈ w.admitting l, HasRoom w.data.users con

section Requests

variable {users : Users} {servers : BackupServers} {con : Connection} {socket : Int32}
variable {handled : Handled}

theorem acknowledge_reply (h : acknowledge users servers con socket = some handled) :
    handled.reply = some .ack := by
  unfold acknowledge at h
  split at h
  · cases h
  · cases h
    rfl

theorem insertDevice_of_room {name : Bytes} {deviceId : Int32} {u : Fin maxUsers}
    (hu : getUser users name = some u)
    (hroom : getDevice users deviceId name ≠ .null ∨ numberOfDevices users name < maxDevices) :
    insertDevice users name deviceId = none ∨
      ∃ users₁, insertDevice users name deviceId = some (users₁, .deviceAlreadyConnected) ∨
        insertDevice users name deviceId = some (users₁, .success) := by
  cases hdev : getDevice users deviceId name with
  | undefined =>
      exact Or.inl (by simp [insertDevice, hu, hdev])
  | ref p =>
      exact Or.inr ⟨users, Or.inl (insertDevice_of_known hdev)⟩
  | null =>
      rcases hroom with hroom | hroom
      · exact absurd hdev hroom
      · have hused : SlotArray.used Device.id (-1) (users u).devices < maxDevices := by
          simp only [numberOfDevices, hu] at hroom
          exact_mod_cast hroom
        rcases insertDevice_of_new hu hdev hused with ⟨d, _, hins⟩
        exact Or.inr ⟨_, Or.inr hins⟩

theorem getUser_of_insertDevice_error {name : Bytes} {deviceId : Int32} {users₁ : Users}
    (h : insertDevice users name deviceId = some (users₁, .error)) : getUser users name = none := by
  cases hu : getUser users name with
  | none =>
      rfl
  | some u =>
      simp only [insertDevice, hu] at h
      split at h
      · cases h
      · cases h
      · split at h <;> cases h

/-- With room no request is refused, on any table. -/
theorem HasRoom.reply (hroom : HasRoom users con)
    (h : handleUserControllerStructure users servers con socket = some handled) :
    handled.reply = some .ack := by
  unfold HasRoom at hroom
  cases hu : getUser users con.user with
  | some u =>
      rw [hu] at hroom
      rcases insertDevice_of_room hu hroom with hnone | ⟨users₁, hknown | hnew⟩
      · -- an undefined result is no answer
        simp [handleUserControllerStructure, insertUser_of_known hu, hnone] at h
      · simp only [handleUserControllerStructure, insertUser_of_known hu, hknown] at h
        exact acknowledge_reply h
      · simp only [handleUserControllerStructure, insertUser_of_known hu, hnew] at h
        exact acknowledge_reply h
  | none =>
      rw [hu] at hroom
      rcases insertUser_of_new hu hroom with ⟨u, _, hins⟩
      simp only [handleUserControllerStructure, hins] at h
      split at h
      · cases h
      · next users₂ hdev =>
          -- `insert_device` finds the user that has just been inserted
          have hnone := getUser_eq_none_iff.1 (getUser_of_insertDevice_error hdev) u
          simp at hnone
      · exact acknowledge_reply h

end Requests

/-- No thread has been refused or is about to be. -/
def NoneRefused (w : Process) : Prop :=
  ∀ pc ∈ w.threads, pc ≠ .refused ∧ ∀ socket reply, pc ≠ .refuse socket reply

/-- A step that admits only with room refuses nobody. -/
theorem NoneRefused.step {l : Label} (hn : NoneRefused w) (hok : AdmitsOnlyWithRoom w l)
    (h : w.step l = some w') : NoneRefused w' := by
  refine Process.forall_threads h hn ?_ ?_ (by simp)
  · intro pc _ m k hstep
    rcases hstep with hwait | hpost
    · cases hwait <;> simp
    · cases hpost <;> simp
  · intro i input pc e hl hpc hacted _
    subst hl
    have hpcn := hn pc (List.mem_of_getElem? hpc)
    constructor
    · cases hacted with
      | refused con socket input handled reply hres hreply hnack =>
          -- with room the reply would have been an acknowledgement
          have hroom : HasRoom w.data.users con := hok con (by simp [Process.admitting, hpc])
          have hack := hroom.reply hres
          rw [hreply] at hack
          cases hack
          exact absurd rfl hnack
      | nackWritten socket reply input =>
          exact absurd rfl (hpcn.2 socket reply)
      | replicated site m fd input =>
          cases site <;> simp [Site.after]
      | threadCreated con socket input =>
          rcases createThread_next con socket w.data with hnext | hnext <;> simp [hnext]
      | sessionRemoved arg record exited hres =>
          dsimp only
          split <;> simp
      | _ =>
          simp
    · intro t ht
      rcases hacted.spawned t ht with ⟨socket, rfl⟩ | ⟨arg, rfl⟩ <;> simp

/-- While requests are admitted only with room, no thread that has ended holds a semaphore, and
each semaphore is `1` less the number of threads inside its sections. -/
theorem semaphores_of_room (h : Reaches Process.step AdmitsOnlyWithRoom Process.initial w) :
    (∀ pc ∈ w.threads, pc.live = false → pc.critical = none) ∧
      ∀ m, w.semaphores m + w.threads.countP (Pc.inside m) = 1 := by
  have hn : NoneRefused w :=
    h.invariant (fun _ ht => by cases ht) fun _ _ _ hn hok hl => hn.step hok hl
  have hended : ∀ pc ∈ w.threads, pc.live = false → pc.critical = none := by
    intro pc hpc hdead
    cases pc with
    | refused =>
        exact absurd rfl (hn _ hpc).1
    | ended =>
        rfl
    | _ =>
        cases hdead
  refine ⟨hended, fun m => ?_⟩
  -- a thread that has ended holds nothing, so it counts neither way
  have hcount : w.threads.countP (Pc.inside m) = w.threads.countP (Pc.holds m) := by
    refine List.countP_congr fun pc hpc => ?_
    cases hlive : pc.live with
    | true =>
        simp [Pc.inside, hlive]
    | false =>
        simp [Pc.inside, Pc.holds, hlive, hended pc hpc hlive]
  rw [hcount]
  exact Reaches.balanced h m

/-! ## A refusal blocks every section of the users table -/

theorem refused_mem_step {l : Label} (hr : .refused ∈ w.threads) (h : w.step l = some w') :
    .refused ∈ w'.threads := by
  rcases List.mem_iff_getElem?.1 hr with ⟨j, hj⟩
  -- a refused thread takes no step, so another thread is replaced
  have hset : ∀ {i : Nat} {pc k : Pc}, w.threads[i]? = some pc → pc ≠ .refused →
      .refused ∈ w.threads.set i k := by
    intro i pc k hpc hrun
    have hij : i ≠ j := by
      rintro rfl
      rw [hj] at hpc
      cases hpc
      exact hrun rfl
    have hget : (w.threads.set i k)[j]? = some .refused := by
      rw [List.getElem?_set_ne hij, hj]
    exact List.mem_of_getElem? hget
  cases Process.step_cases h with
  | semaphore hpc hstep semaphores =>
      refine hset hpc ?_
      rintro rfl
      rcases hstep with hwait | hpost
      · cases hwait
      · cases hpost
  | act hpc hacted =>
      refine List.mem_append_left _ (hset hpc ?_)
      rintro rfl
      cases hacted with
      | hungUp pc hreads =>
          cases hreads
  | env hsurrounded =>
      exact List.mem_append_left _ hr

/-- Once a request has been refused, no thread ever enters a section of the users table again. -/
theorem user_blocked_of_refused (h : Reaches Process.step ok Process.initial w)
    (hr : .refused ∈ w.threads) {ok' : Process → Label → Prop}
    (h' : Reaches Process.step ok' w w') : w'.semaphores .user = 0 := by
  have hr' : .refused ∈ w'.threads :=
    h'.invariant hr fun _ _ _ hr _ hl => refused_mem_step hr hl
  have hfrom : Reaches Process.step (fun _ _ => True) Process.initial w' :=
    (h.mono fun _ _ _ => trivial).trans (h'.mono fun _ _ _ => trivial)
  have hbalanced := Reaches.balanced hfrom .user
  have hpos : 0 < w'.threads.countP (Pc.holds .user) :=
    List.countP_pos_iff.2 ⟨_, hr', by decide⟩
  omega

/-- A connection up to the answer, as thread `i`. -/
def requestSteps (i : Nat) (fd : Int32) (con : Connection) : List Label :=
  [.env (.accept fd con emptySizeBuffer), .thread i .go, .thread i .go,
    .thread i .go, .thread i .go]

/-- The rest of the mediator of an admitted connection, as thread `i`. -/
def admittedSteps (i : Nat) (stale : CommandPacket) : List Label :=
  [.thread i (.stack stale), .thread i (.stack stale), .thread i .go, .thread i .go, .thread i .go]

/-- Three devices of one user connect, and the third is refused. -/
def thirdDevice : List Label :=
  requestSteps 0 4 (oneLetterRequest 97 1 socketT3) ++ admittedSteps 0 emptyPacket ++
    requestSteps 1 5 (oneLetterRequest 97 2 socketT3) ++ admittedSteps 1 emptyPacket ++
    requestSteps 2 6 (oneLetterRequest 97 3 socketT3)

instance (users : Users) (con : Connection) : Decidable (HasRoom users con) :=
  match h : getUser users con.user with
  | some _ =>
      decidable_of_iff
        (getDevice users con.device con.user ≠ .null ∨ numberOfDevices users con.user < maxDevices)
        (by simp [HasRoom, h])
  | none => decidable_of_iff (numberOfUsersLogged users < maxUsers) (by simp [HasRoom, h])

instance (w : Process) (l : Label) : Decidable (AdmitsOnlyWithRoom w l) :=
  inferInstanceAs (Decidable (∀ con ∈ w.admitting l, HasRoom w.data.users con))

/-- The first device is admitted and its connection is being answered. -/
def firstDevice : Process :=
  (runWhile Process.step AdmitsOnlyWithRoom Process.initial
    (requestSteps 0 4 (oneLetterRequest 97 1 socketT3))).get (by decide +kernel)

theorem semaphores_of_room_firstDevice :
    firstDevice.semaphores .user + firstDevice.threads.countP (Pc.inside .user) = 1 :=
  (semaphores_of_room (Reaches.of_runWhile (Option.some_get _).symm)).2 .user

/-- After the refusal `mutex_user_structure` is taken although no thread is inside a section. -/
theorem thirdDevice_blocks :
    ∃ w, run Process.step Process.initial thirdDevice = some w ∧
      w.semaphores .user = 0 ∧ w.threads.countP (Pc.inside .user) = 0 := by
  have hrun : (run Process.step Process.initial thirdDevice).map
      (fun w => (w.semaphores .user, w.threads.countP (Pc.inside .user))) = some (0, 0) := by
    decide +kernel
  rcases Option.map_eq_some_iff.1 hrun with ⟨w, hw, hval⟩
  exact ⟨w, hw, (Prod.mk.inj hval).1, (Prod.mk.inj hval).2⟩

end Server
end DropboxSimulator
