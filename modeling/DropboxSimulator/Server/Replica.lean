import DropboxSimulator.Server.Sections

/-!
# Replica — the users table of a secondary server

A secondary keeps its own `users[]` array and changes it with the records it is sent:
`insertUserConnectedInPrimary` and `receiveExitFromPrimary`.  Neither looks at the result codes.
This file runs the critical sections of the primary with secondaries joining at any moment, also
between a change of the table and the loop that announces it, and proves that every secondary
holds a part of what the primary held.

* `Cluster`       : the primary with the messages it has sent to each secondary;
* `Announces m t t'` : message `m` tells the change from a table `t` to a table `t'`;
* `Linked`        : a log of messages, each with the table it leads to.
-/

namespace DropboxSimulator
namespace Server

open Library

/-! ## What a secondary does with a message -/

/-- `insertUserConnectedInPrimary`, as far as the table is concerned. -/
def insertUserConnectedInPrimary (users : Users) (con : Connection) : Option Users :=
  match insertDevice (insertUser users con.user).1 con.user con.device with
  | none => none
  | some (users, _) =>
      insertSocket users con.user con.device con.socket (Connection.socketTypeInt con)

/-- `receiveExitFromPrimary`. -/
def receiveExitFromPrimary (users : Users) (userName : Bytes) (device : Int32) : Option Users :=
  match removeDevice users userName device with
  | none => none
  | some (users, .success) =>
      some (if isDeviceConnected users userName = 0 then removeUser users userName else users)
  | some (users, _) => some users

/-- What a message does to the table of the secondary that receives it. -/
def Replication.process (users : Users) : Replication UserCurrentSocket → Option Users
  | .upload _ _ => some users
  | .delete _ => some users
  | .insertUser con => insertUserConnectedInPrimary users con
  | .exit record => receiveExitFromPrimary users record.userName record.currentDevice

/-- The table after a list of messages; `none` once a missing device is dereferenced. -/
def replay (users : Users) (messages : List (Replication UserCurrentSocket)) : Option Users :=
  messages.foldlM Replication.process users

/-! ## The primary and its secondaries -/

/-- The messages sent to one secondary, each with the table the primary held right after the
change that produced it. -/
abbrev Log := List (Replication UserCurrentSocket × Users)

/-- A primary: its two tables, the message its critical section is sending with the slots of
`backupServers` still to visit, and for each slot the table at the moment the secondary joined and
what it has been sent since. -/
structure Cluster where
  users : Users
  servers : BackupServers
  notifying : Option (Replication UserCurrentSocket × List (Fin maxServers))
  joinedAt : Fin maxServers → Users
  log : Fin maxServers → Log

namespace Cluster

/-- The primary at its start. -/
def initial : Cluster where
  users := initiateUserControllerStructure
  servers := initiateBackupServerStructure
  notifying := none
  joinedAt := fun _ => initiateUserControllerStructure
  log := fun _ => []

/-- The message is sent to every registered secondary, slot by slot. -/
def announce (c : Cluster) (users : Users) (m : Replication UserCurrentSocket) : Cluster :=
  { c with users := users, notifying := some (m, List.finRange maxServers) }

/-- One round of the loop over `backupServers`. -/
def notify (c : Cluster) (m : Replication UserCurrentSocket) (i : Fin maxServers)
    (rest : List (Fin maxServers)) : Cluster :=
  { c with
    notifying := some (m, rest)
    log := if (c.servers i).id ≠ -1 then Function.update c.log i (c.log i ++ [(m, c.users)])
      else c.log }

/-- `insert_server` into the slot `i` it finds. -/
def join (c : Cluster) (i : Fin maxServers) (id socket : Int32) : Cluster :=
  { c with
    servers := (insertServer c.servers id socket).1
    joinedAt := Function.update c.joinedAt i c.users
    log := Function.update c.log i [] }

/-- The states a primary reaches.  Its critical sections exclude each other, so a section starts
only when no loop is under way; a secondary joins at any moment. -/
inductive Reachable : Cluster → Prop
  | initial : Reachable Cluster.initial
  | refused {c : Cluster} (con : Connection) (socket : Int32) (handled : Handled) :
      Reachable c → c.notifying = none → con.user ≠ [] → con.device ≠ -1 →
      handleUserControllerStructure c.users c.servers con socket = some handled →
      handled.reply ≠ some .ack → Reachable { c with users := handled.users }
  | admitted {c : Cluster} (con : Connection) (socket : Int32) (handled : Handled) :
      Reachable c → c.notifying = none → con.user ≠ [] → con.device ≠ -1 →
      handleUserControllerStructure c.users c.servers con socket = some handled →
      handled.reply = some .ack → Reachable (c.announce handled.users (.insertUser con))
  | exit {c : Cluster} (arg : UserCurrentSocket) (exited : Exited) :
      Reachable c → c.notifying = none → Registered c.users arg →
      exitCommand c.users c.servers arg = some exited →
      Reachable (c.announce exited.users (.exit arg))
  | notify {c : Cluster} (m : Replication UserCurrentSocket) (i : Fin maxServers)
      (rest : List (Fin maxServers)) :
      Reachable c → c.notifying = some (m, i :: rest) → Reachable (c.notify m i rest)
  | finish {c : Cluster} (m : Replication UserCurrentSocket) :
      Reachable c → c.notifying = some (m, []) → Reachable { c with notifying := none }
  | join {c : Cluster} (i : Fin maxServers) (id socket : Int32) :
      Reachable c → SlotArray.find BackupServer.id c.servers (-1) = some i →
      Reachable (c.join i id socket)

end Cluster

/-! ## A message as a change of the map -/

/-- The message tells how the map of `users` became that of `users'`. -/
def Announces (m : Replication UserCurrentSocket) (users users' : Users) : Prop :=
  (registry users).Within maxUsers maxDevices ∧
    match m with
    | .insertUser con =>
        con.user ≠ [] ∧ con.device ≠ -1 ∧
          (registry users).Admits maxUsers maxDevices con.user con.device ∧
          (registry users').pairs = insert (con.user, con.device) (registry users).pairs
    | .exit record =>
        record.userName ≠ [] ∧ record.currentDevice ≠ -1 ∧
          (registry users').pairs =
            (registry users).pairs \ {(record.userName, record.currentDevice)}
    | _ => (registry users').pairs = (registry users).pairs

/-- The table of the primary right after the last message of a log. -/
def Log.latest (start : Users) (log : Log) : Users :=
  (log.getLast?.map Prod.snd).getD start

/-- Every message of the log tells the change from the table before it to its own. -/
def Linked : Users → Log → Prop
  | _, [] => True
  | users, (m, users') :: rest => Announces m users users' ∧ Linked users' rest

section Logs

variable {start users users' : Users} {log : Log} {m : Replication UserCurrentSocket}

@[simp] theorem Log.latest_nil : Log.latest start [] = start :=
  rfl

@[simp] theorem Log.latest_append :
    Log.latest start (log ++ [(m, users)]) = users := by
  simp [Log.latest]

@[simp] theorem Log.latest_cons :
    Log.latest start ((m, users) :: log) = Log.latest users log := by
  cases log with
  | nil =>
      rfl
  | cons e rest =>
      simp [Log.latest, List.getLast?_cons]

theorem Linked.append (h : Linked start log) (hm : Announces m (Log.latest start log) users) :
    Linked start (log ++ [(m, users)]) := by
  induction log generalizing start with
  | nil =>
      exact ⟨hm, trivial⟩
  | cons e rest ih =>
      rcases e with ⟨m', users'⟩
      rw [Log.latest_cons] at hm
      exact ⟨h.1, ih h.2 hm⟩

end Logs

/-! ## One message on a part of the table -/

section Simulation

variable {users part users' : Users} {con : Connection} {record : UserCurrentSocket}

theorem exists_fits_of_admits (hw : WellFormed part) {name : Bytes} {deviceId : Int32}
    (hname : name ≠ []) (hid : deviceId ≠ -1)
    (hadm : (registry part).Admits maxUsers maxDevices name deviceId) :
    ∃ p users₁ code₁ code₂, insertUser part name = (users₁, code₁) ∧
      insertDevice users₁ name deviceId =
        some (part.put p name { part.device p with id := deviceId }, code₂) ∧
      Fits part p name deviceId := by
  -- a table that admits the pair refuses neither the user nor the device
  cases requested hw hname hid with
  | noUser _ hunknown hfull =>
      rcases hadm with hmem | ⟨hown, _⟩ | ⟨_, hlt⟩
      · exact absurd (Roster.mem_owners_iff.2 ⟨_, hmem⟩) hunknown
      · exact absurd hown hunknown
      · exact absurd hfull hlt.ne
  | noDevice _ _ hknown habsent hfull =>
      rcases hadm with hmem | ⟨_, hlt⟩ | ⟨hno, _⟩
      · exact absurd hmem habsent
      · exact absurd hfull hlt.ne
      · exact absurd hknown hno
  | fits p users₁ code₁ code₂ hins _ hdev _ hslot _ =>
      exact ⟨p, users₁, code₁, code₂, hins, hdev, hslot⟩

/-- A table that admits the pair records it, whatever the ignored result codes say. -/
theorem insertUserConnectedInPrimary_of_admits (hw : WellFormed part) (hname : con.user ≠ [])
    (hid : con.device ≠ -1)
    (hadm : (registry part).Admits maxUsers maxDevices con.user con.device) :
    ∃ part', insertUserConnectedInPrimary part con = some part' ∧ WellFormed part' ∧
      (registry part').pairs = insert (con.user, con.device) (registry part).pairs := by
  obtain ⟨p, users₁, code₁, code₂, hins, hdev, hslot⟩ :=
    exists_fits_of_admits hw hname hid hadm
  have hslot' : Fits part p con.user (part.connected p con con.socket).id := by
    simpa using hslot
  have hget : getDevice (part.put p con.user { part.device p with id := con.device }) con.device
      con.user = .ref p := hslot.getDevice_put hw rfl
  refine ⟨part.put p con.user (part.connected p con con.socket), ?_, hslot'.wellFormed_put hw, ?_⟩
  · simp only [insertUserConnectedInPrimary, hins, hdev, insertSocket_of_ref hget,
      Users.setDevice_put, Users.put_device, if_true]
    rfl
  · rw [hslot'.registry_put hw.toClean, Roster.pairs_put, connected_id]

/-- An exit removes the pair if the table has it, and otherwise changes nothing. -/
theorem receiveExitFromPrimary_eq (hw : WellFormed part) (hname : record.userName ≠ [])
    (hid : record.currentDevice ≠ -1) :
    ∃ part', receiveExitFromPrimary part record.userName record.currentDevice = some part' ∧
      WellFormed part' ∧
      (registry part').pairs =
        (registry part).pairs \ {(record.userName, record.currentDevice)} := by
  cases hdev : getDevice part record.currentDevice record.userName with
  | undefined =>
      exact absurd hdev (getDevice_ne_undefined hname)
  | ref p =>
      rcases (hw.getDevice_eq_ref_iff hname hid).1 hdev with ⟨hpn, hpd⟩
      -- the table has the entry, and a user whose last device it was goes too
      refine ⟨part.clear p, ?_, hw.clear p, ?_⟩
      · simp only [receiveExitFromPrimary, removeDevice_of_ref hdev,
          removeUser_of_left hw.names hname (getUser_of_getDevice hdev)]
      · rw [hw.registry_clear, Roster.pairs_erase, hpn, hpd]
  | null =>
      -- the table has not been told of the entry
      have hno : (record.userName, record.currentDevice) ∉ (registry part).pairs := by
        intro hmem
        rcases hw.mem_pairs_registry_iff.1 hmem with ⟨_, _, q, hqn, hqd⟩
        rw [(hw.getDevice_eq_ref_iff hname hid).2 ⟨hqn, hqd⟩] at hdev
        cases hdev
      refine ⟨part, ?_, hw, (Set.sdiff_singleton_eq_self hno).symm⟩
      unfold receiveExitFromPrimary removeDevice
      cases getUser part record.userName with
      | none =>
          rfl
      | some u =>
          simp [hdev]

/-- A message the primary announces keeps a part of its table a part of its table. -/
theorem Announces.process {m : Replication UserCurrentSocket} (h : Announces m users users')
    (hw : WellFormed part) (hsub : (registry part).pairs ⊆ (registry users).pairs) :
    ∃ part', Replication.process part m = some part' ∧ WellFormed part' ∧
      (registry part').pairs ⊆ (registry users').pairs ∧
      ((registry part).pairs = (registry users).pairs →
        (registry part').pairs = (registry users').pairs) := by
  rcases h with ⟨hwithin, h⟩
  cases m with
  | upload path payload =>
      exact ⟨part, rfl, hw, h ▸ hsub, fun heq => heq.trans h.symm⟩
  | delete path =>
      exact ⟨part, rfl, hw, h ▸ hsub, fun heq => heq.trans h.symm⟩
  | insertUser con =>
      rcases h with ⟨hname, hid, hadm, hpairs⟩
      -- a part of the table has at least the room that the whole has
      have hadm' := Roster.Admits.of_pairs_subset hwithin hsub hadm
      obtain ⟨part', hres, hw', hpart⟩ :=
        insertUserConnectedInPrimary_of_admits hw hname hid hadm'
      refine ⟨part', hres, hw', ?_, fun heq => ?_⟩
      · rw [hpart, hpairs]
        exact Set.insert_subset_insert hsub
      · rw [hpart, hpairs, heq]
  | exit record =>
      rcases h with ⟨hname, hid, hpairs⟩
      rcases receiveExitFromPrimary_eq hw hname hid with ⟨part', hres, hw', hpart⟩
      refine ⟨part', hres, hw', ?_, fun heq => ?_⟩
      · rw [hpart, hpairs]
        exact Set.sdiff_subset_sdiff_left hsub
      · rw [hpart, hpairs, heq]

/-- The replay of any prefix of a linked log holds a part of the table it leads to. -/
theorem Linked.replay {log : Log} (h : Linked users log) (hw : WellFormed part)
    (hsub : (registry part).pairs ⊆ (registry users).pairs) (k : Nat) :
    ∃ part', replay part ((log.take k).map Prod.fst) = some part' ∧
      (registry part').pairs ⊆ (registry (Log.latest users (log.take k))).pairs ∧
      ((registry part).pairs = (registry users).pairs →
        (registry part').pairs = (registry (Log.latest users (log.take k))).pairs) := by
  induction log generalizing users part k with
  | nil =>
      exact ⟨part, by simp [Server.replay], by simpa using hsub, by simp⟩
  | cons e rest ih =>
      rcases e with ⟨m, users'⟩
      cases k with
      | zero =>
          exact ⟨part, by simp [Server.replay], by simpa using hsub, by simp⟩
      | succ k =>
          rcases h.1.process hw hsub with ⟨part₁, hres, hw₁, hsub₁, heq₁⟩
          rcases ih h.2 hw₁ hsub₁ k with ⟨part₂, hrep, hsub₂, heq₂⟩
          -- the part after one message is where the rest starts
          refine ⟨part₂, ?_, by simpa using hsub₂, fun heq => ?_⟩
          · simpa [Server.replay, hres] using hrep
          · simpa using heq₂ (heq₁ heq)

end Simulation

/-! ## Runs -/

section Runs

variable {c : Cluster} {users users' : Users} {m : Replication UserCurrentSocket}

/-- A message announced once more changes nothing. -/
theorem Announces.self (h : Announces m users users') (hw : WellFormed users') :
    Announces m users' users' := by
  rcases h with ⟨_, h⟩
  refine ⟨hw.within, ?_⟩
  cases m with
  | upload path payload =>
      rfl
  | delete path =>
      rfl
  | insertUser con =>
      rcases h with ⟨hname, hid, _, hpairs⟩
      have hmem : (con.user, con.device) ∈ (registry users').pairs := by
        rw [hpairs]
        exact Set.mem_insert _ _
      exact ⟨hname, hid, Or.inl hmem, (Set.insert_eq_of_mem hmem).symm⟩
  | exit record =>
      rcases h with ⟨hname, hid, hpairs⟩
      refine ⟨hname, hid, ?_⟩
      rw [hpairs]
      simp

namespace Cluster

/-- The table a secondary was last told of. -/
def told (c : Cluster) (i : Fin maxServers) : Users :=
  Log.latest (c.joinedAt i) (c.log i)

/-- The loop over `backupServers` still has to visit the slot. -/
def Awaits (c : Cluster) (i : Fin maxServers) : Prop :=
  ∃ m rest, c.notifying = some (m, rest) ∧ i ∈ rest

/-- What holds of the primary between two steps. -/
structure Invariant (c : Cluster) : Prop where
  users : WellFormed c.users
  linked : ∀ i, Linked (c.joinedAt i) (c.log i)
  told : ∀ i, (c.servers i).id ≠ -1 → ¬c.Awaits i → c.told i = c.users
  repeated : ∀ m rest, c.notifying = some (m, rest) → Announces m c.users c.users
  awaited : ∀ m rest, c.notifying = some (m, rest) → ∀ i ∈ rest, (c.servers i).id ≠ -1 →
    Announces m (c.told i) c.users

/-- A section that changes the table hands the change over to the loop. -/
theorem Invariant.announce (hi : Invariant c) (hfree : c.notifying = none)
    (hw : WellFormed users) (hm : Announces m c.users users) : Invariant (c.announce users m) where
  users := hw
  linked := hi.linked
  told := by
    intro i _ hno
    exact absurd ⟨m, _, rfl, List.mem_finRange i⟩ hno
  repeated := by
    rintro m' rest h
    cases h
    exact hm.self hw
  awaited := by
    rintro m' rest h i _ hreg
    cases h
    have hnone : ¬c.Awaits i := by simp [Awaits, hfree]
    have htold := hi.told i hreg hnone
    change Announces m (c.told i) users
    rwa [htold]

/-- A round of the loop adds the message to the log of its slot, if a secondary is registered
there. -/
theorem log_notify (i j : Fin maxServers) (rest : List (Fin maxServers)) :
    (c.notify m i rest).log j =
      if (c.servers i).id ≠ -1 ∧ j = i then c.log i ++ [(m, c.users)] else c.log j := by
  by_cases hreg : (c.servers i).id = -1
  · simp [Cluster.notify, hreg]
  · by_cases hj : j = i
    · subst hj
      simp [Cluster.notify, hreg]
    · simp [Cluster.notify, hreg, hj]

theorem told_notify (i j : Fin maxServers) (rest : List (Fin maxServers)) :
    (c.notify m i rest).told j =
      if (c.servers i).id ≠ -1 ∧ j = i then c.users else c.told j := by
  unfold Cluster.told
  rw [log_notify]
  split
  · simp
  · rfl

theorem told_join (i j : Fin maxServers) (id socket : Int32) :
    (c.join i id socket).told j = if j = i then c.users else c.told j := by
  by_cases hj : j = i
  · subst hj
    simp [Cluster.told, Cluster.join]
  · simp [Cluster.told, Cluster.join, hj]

theorem Invariant.notify {i : Fin maxServers} {rest : List (Fin maxServers)} (hi : Invariant c)
    (hnow : c.notifying = some (m, i :: rest)) : Invariant (c.notify m i rest) where
  users := hi.users
  linked := by
    intro j
    rw [log_notify]
    split
    · next h =>
        -- the slot was still to be told of this change
        rcases h with ⟨hreg, rfl⟩
        exact (hi.linked j).append (hi.awaited m _ hnow j (by simp) hreg)
    · exact hi.linked j
  told := by
    intro j hreg hno
    rw [told_notify]
    split
    · rfl
    · next h =>
        refine hi.told j hreg ?_
        rintro ⟨m', rest', hm', hj⟩
        rw [hnow] at hm'
        cases hm'
        rcases List.mem_cons.1 hj with rfl | hj
        · exact h ⟨hreg, rfl⟩
        · exact hno ⟨m, rest, rfl, hj⟩
  repeated := by
    rintro m' rest' h
    cases h
    exact hi.repeated m _ hnow
  awaited := by
    rintro m' rest' h j hj hreg
    cases h
    rw [told_notify]
    split
    · -- a slot visited twice would be told of no change
      exact hi.repeated m _ hnow
    · exact hi.awaited m _ hnow j (List.mem_cons_of_mem i hj) hreg

/-- A secondary joins, also while the loop is under way: what it is told then is no change to the
table it joined at. -/
theorem Invariant.join {i : Fin maxServers} {id socket : Int32} (hi : Invariant c)
    (hfind : SlotArray.find BackupServer.id c.servers (-1) = some i) :
    Invariant (c.join i id socket) := by
  have hreg : ∀ j, j ≠ i → ((c.join i id socket).servers j).id ≠ -1 → (c.servers j).id ≠ -1 := by
    intro j hj
    simp [Cluster.join, insertServer, hfind, hj]
  exact
    { users := hi.users
      linked := by
        intro j
        by_cases hj : j = i
        · -- a new log is empty
          subst hj
          simp [Cluster.join, Linked]
        · simpa [Cluster.join, hj] using hi.linked j
      told := by
        intro j hregj hno
        rw [told_join]
        split
        · rfl
        · next hj => exact hi.told j (hreg j hj hregj) hno
      repeated := hi.repeated
      awaited := by
        intro m rest hm j hj hregj
        rw [told_join]
        split
        · exact hi.repeated m rest hm
        · next hji => exact hi.awaited m rest hm j hj (hreg j hji hregj) }

theorem Reachable.invariant (h : Reachable c) : Invariant c := by
  induction h with
  | initial =>
      exact
        { users := wellFormed_initiate
          linked := fun _ => trivial
          told := fun _ hreg => absurd rfl hreg
          repeated := fun _ _ h => by cases h
          awaited := fun _ _ h => by cases h }
  | refused con socket handled _ _ hname hid hres hnack ih =>
      rw [(ih.users.refused hname hid hres hnack).1]
      exact ih
  | admitted con socket handled _ hfree hname hid hres hack ih =>
      rcases ih.users.admitted hname hid hres hack with ⟨hw, hadmits, hpairs⟩
      -- the loop over `backupServers` begins before the section ends
      exact ih.announce hfree hw ⟨ih.users.within, hname, hid, hadmits, hpairs⟩
  | exit arg exited _ hfree hreg hres ih =>
      rcases ih.users.exited hreg hres with ⟨_, hw, hpairs⟩
      rcases ih.users.mem_pairs_registry_iff.1 (Roster.mem_members_iff.1 hreg) with ⟨hname, hid, _⟩
      exact ih.announce hfree hw ⟨ih.users.within, hname, hid, hpairs⟩
  | notify m i rest _ hnow ih =>
      exact ih.notify hnow
  | finish m _ hnow ih =>
      refine ⟨ih.users, ih.linked, fun i hreg _ => ih.told i hreg ?_, ?_, ?_⟩
      · rintro ⟨m', rest, hm', hi⟩
        rw [hnow] at hm'
        cases hm'
        cases hi
      · intro _ _ h
        cases h
      · intro _ _ h
        cases h
  | join i id socket _ hfind ih =>
      exact ih.join hfind

/-- A secondary that has processed any number of the messages sent to it holds a part of the
table the primary held right after the change of the last one, and all of it if it joined an
empty primary; no message makes it dereference a missing device. -/
theorem secondary_holds_part (h : Reachable c) (i : Fin maxServers) (k : Nat) :
    ∃ users, replay initiateUserControllerStructure (((c.log i).take k).map Prod.fst) =
        some users ∧
      (registry users).pairs ⊆
        (registry (Log.latest (c.joinedAt i) ((c.log i).take k))).pairs ∧
      ((registry (c.joinedAt i)).pairs = ∅ →
        (registry users).pairs =
          (registry (Log.latest (c.joinedAt i) ((c.log i).take k))).pairs) := by
  have hempty := pairs_registry_initiate
  have hsub : (registry initiateUserControllerStructure).pairs ⊆
      (registry (c.joinedAt i)).pairs := by
    rw [hempty]
    exact Set.empty_subset _
  rcases (h.invariant.linked i).replay wellFormed_initiate hsub k with ⟨users, hrep, hpart, heq⟩
  exact ⟨users, hrep, hpart, fun hjoin => heq (hempty.trans hjoin.symm)⟩

/-- A secondary with id `1` joins the empty primary and is told of the first connection. -/
def afterFirstConnection : Cluster :=
  let c := Cluster.initial.join 0 1 5
  (c.announce oneSession.users (.insertUser (oneLetterRequest 97 1 socketT1))).notify
    (.insertUser (oneLetterRequest 97 1 socketT1)) 0 [1]

theorem reachable_afterFirstConnection : Reachable afterFirstConnection := by
  have hjoin : Reachable (Cluster.initial.join 0 1 5) :=
    .join 0 1 5 .initial (by decide)
  have hconnect : handleUserControllerStructure initiateUserControllerStructure
      (Cluster.initial.join 0 1 5).servers (oneLetterRequest 97 1 socketT1) 7 =
      some
        { oneSession with
          sent := [(0, .insertUser (oneLetterRequest 97 1 socketT1))] } := by
    rfl
  have hadmitted := Reachable.admitted _ 7 _ hjoin rfl (by decide) (by decide) hconnect (by decide)
  exact .notify _ 0 [1] hadmitted rfl

theorem secondary_holds_part_afterFirstConnection :
    ∃ users, replay initiateUserControllerStructure
        [.insertUser (oneLetterRequest 97 1 socketT1)] = some users ∧
      (registry users).pairs ⊆ (registry oneSession.users).pairs := by
  rcases secondary_holds_part reachable_afterFirstConnection 0 1 with ⟨users, hrep, hsub, _⟩
  exact ⟨users, hrep, hsub⟩

end Cluster

end Runs

end Server
end DropboxSimulator
