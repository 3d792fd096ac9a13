import DropboxSimulator.Library.Roster
import DropboxSimulator.Server.Users

/-!
# Registry — what the table of users stands for

The `users[]` array is meant to be a map from (user, device) to three descriptors.  This file
says so:

* `WellFormed` : the invariant of the array, five clauses that need each other;
* `registry`   : the map a well-formed array stands for, as a `Roster`;
* `Fits`       : a slot that may take a given device of a given user.

Every change the server makes to the array writes one device slot and one user name
(`Users.put`), so the invariant and the map are followed through `put` once, for a device that
enters or stays (`Fits`) and for a device that leaves.
-/

namespace DropboxSimulator
namespace Server

open Library

/-! ## The invariant -/

/-- The clauses that hold also while a new user has no device yet. -/
structure Clean (users : Users) : Prop where
  names : SlotArray.Distinct User.name [] users
  ids : ∀ u, SlotArray.Distinct Device.id (-1) (users u).devices
  freeUser : ∀ u, (users u).name = [] → ∀ d, ((users u).devices d).id = -1
  freeDevice : ∀ p, (users.device p).id = -1 → users.device p = Device.free

/-- The clauses about names and ids alone, whatever is recorded with them. -/
structure Keyed (users : Users) : Prop where
  names : SlotArray.Distinct User.name [] users
  ids : ∀ u, SlotArray.Distinct Device.id (-1) (users u).devices
  freeUser : ∀ u, (users u).name = [] → ∀ d, ((users u).devices d).id = -1

theorem Clean.keyed {users : Users} (hc : Clean users) : Keyed users where
  names := hc.names
  ids := hc.ids
  freeUser := hc.freeUser

/-- The invariant of the table between critical sections. -/
structure WellFormed (users : Users) : Prop extends Clean users where
  namedUser : ∀ u, (users u).name ≠ [] → ∃ d, ((users u).devices d).id ≠ -1

theorem wellFormed_initiate : WellFormed initiateUserControllerStructure where
  names := fun _ _ _ h => absurd rfl h
  ids := fun _ _ _ _ h => absurd rfl h
  freeUser := fun _ _ _ => rfl
  freeDevice := fun _ _ => rfl
  namedUser := fun _ h => absurd rfl h

/-! ## The map -/

/-- The descriptors recorded for a device. -/
structure Sockets where
  socket1 : Int32
  socket2 : Int32
  socket3 : Int32
  deriving DecidableEq

def Device.sockets (dev : Device) : Sockets :=
  { socket1 := dev.socket1, socket2 := dev.socket2, socket3 := dev.socket3 }

/-- The map the table stands for. -/
def registry (users : Users) : Roster Bytes Int32 Sockets := fun name deviceId =>
  if deviceId = -1 then
    none
  else
    match getDevice users deviceId name with
    | .ref p => some (users.device p).sockets
    | _ => none

section Lookup

variable {users : Users} {name : Bytes} {deviceId : Int32} {p : DeviceIndex} {u : Fin maxUsers}

theorem Clean.getUser_eq_some_iff (hc : Clean users) (hname : name ≠ []) :
    getUser users name = some u ↔ (users u).name = name :=
  hc.names.find_eq_some_iff hname

theorem getUser_eq_none_iff : getUser users name = none ↔ ∀ u, (users u).name ≠ name :=
  SlotArray.find_eq_none_iff

theorem Keyed.getDevice_eq_ref_iff (hk : Keyed users) (hname : name ≠ []) (hid : deviceId ≠ -1) :
    getDevice users deviceId name = .ref p ↔
      (users p.1).name = name ∧ (users.device p).id = deviceId := by
  rcases p with ⟨u, d⟩
  cases hu : getUser users name with
  | none =>
      have hno := getUser_eq_none_iff.1 hu u
      simp [getDevice, hname, hu, hno]
  | some v =>
      have hv : (users v).name = name := SlotArray.key_of_find hu
      cases hd : SlotArray.find Device.id (users v).devices deviceId with
      | none =>
          simp only [getDevice, hname, ne_eq, not_false_eq_true, ↓reduceIte, hu, hd,
            reduceCtorEq, false_iff, not_and]
          intro hname' hid'
          -- the name is in one slot only
          have huv : u = v := hk.names u v (hname'.trans hv.symm) (by rwa [hname'])
          subst huv
          exact SlotArray.find_eq_none_iff.1 hd d hid'
      | some e =>
          have he := SlotArray.key_of_find hd
          simp only [getDevice, hname, ne_eq, not_false_eq_true, ↓reduceIte, hu, hd,
            Pointer.ref.injEq, Prod.mk.injEq]
          constructor
          · rintro ⟨rfl, rfl⟩
            exact ⟨hv, he⟩
          · rintro ⟨hname', hid'⟩
            have huv : v = u := hk.names v u (hv.trans hname'.symm) (by rwa [hv])
            subst huv
            exact ⟨rfl, hk.ids v e d (he.trans hid'.symm) (by rwa [he])⟩

theorem Clean.getDevice_eq_ref_iff (hc : Clean users) (hname : name ≠ []) (hid : deviceId ≠ -1) :
    getDevice users deviceId name = .ref p ↔
      (users p.1).name = name ∧ (users.device p).id = deviceId :=
  hc.keyed.getDevice_eq_ref_iff hname hid

theorem getDevice_ne_undefined (hname : name ≠ []) :
    getDevice users deviceId name ≠ .undefined := by
  unfold getDevice
  rw [if_pos hname]
  split
  · simp
  · split <;> simp

theorem registry_apply (hid : deviceId ≠ -1) (h : getDevice users deviceId name = .ref p) :
    registry users name deviceId = some (users.device p).sockets := by
  simp [registry, hid, h]

theorem Clean.registry_eq_some_iff (hc : Clean users) {socks : Sockets} :
    registry users name deviceId = some socks ↔
      name ≠ [] ∧ deviceId ≠ -1 ∧ ∃ p : DeviceIndex, (users p.1).name = name ∧
        (users.device p).id = deviceId ∧ (users.device p).sockets = socks := by
  by_cases hname : name = []
  · subst hname
    simp [registry, getDevice]
  · by_cases hid : deviceId = -1
    · simp [registry, hid]
    · simp only [ne_eq, hname, not_false_eq_true, hid, true_and]
      constructor
      · intro h
        cases hp : getDevice users deviceId name with
        | undefined =>
            simp [registry, hid, hp] at h
        | null =>
            simp [registry, hid, hp] at h
        | ref p =>
            rcases (hc.getDevice_eq_ref_iff hname hid).1 hp with ⟨hn, hd⟩
            rw [registry_apply hid hp] at h
            exact ⟨p, hn, hd, by simpa using h⟩
      · rintro ⟨p, hn, hd, rfl⟩
        exact registry_apply hid ((hc.getDevice_eq_ref_iff hname hid).2 ⟨hn, hd⟩)

theorem Clean.mem_pairs_registry_iff (hc : Clean users) :
    (name, deviceId) ∈ (registry users).pairs ↔
      name ≠ [] ∧ deviceId ≠ -1 ∧
        ∃ p : DeviceIndex, (users p.1).name = name ∧ (users.device p).id = deviceId := by
  rw [Roster.mem_pairs_iff, Option.ne_none_iff_exists']
  constructor
  · rintro ⟨socks, hs⟩
    rcases hc.registry_eq_some_iff.1 hs with ⟨hn, hid, p, hp, hd, _⟩
    exact ⟨hn, hid, p, hp, hd⟩
  · rintro ⟨hn, hid, p, hp, hd⟩
    exact ⟨_, hc.registry_eq_some_iff.2 ⟨hn, hid, p, hp, hd, rfl⟩⟩

theorem pairs_registry_initiate : (registry initiateUserControllerStructure).pairs = ∅ := by
  refine Set.eq_empty_of_forall_notMem fun pair hmem => ?_
  rcases wellFormed_initiate.mem_pairs_registry_iff.1 hmem with ⟨hname, _, p, hp, _⟩
  exact hname hp.symm

end Lookup

/-! ## Owners and members of the map are the slots in use -/

section Capacity

variable {users : Users} {name : Bytes} {u : Fin maxUsers}

theorem WellFormed.owners_registry (hw : WellFormed users) :
    (registry users).owners = ↑(SlotArray.keys User.name [] users) := by
  ext n
  rw [Roster.mem_owners_iff, Finset.mem_coe, SlotArray.mem_keys_iff]
  constructor
  · rintro ⟨b, hb⟩
    rcases hw.mem_pairs_registry_iff.1 hb with ⟨hn, _, p, hp, _⟩
    exact ⟨hn, p.1, hp⟩
  · rintro ⟨hn, u, rfl⟩
    rcases hw.namedUser u hn with ⟨d, hd⟩
    exact ⟨_, hw.mem_pairs_registry_iff.2 ⟨hn, hd, (u, d), rfl, rfl⟩⟩

theorem WellFormed.mem_owners_iff (hw : WellFormed users) (hname : name ≠ []) :
    name ∈ (registry users).owners ↔ ∃ u, getUser users name = some u := by
  rw [hw.owners_registry, Finset.mem_coe, SlotArray.mem_keys_iff]
  simp [hw.getUser_eq_some_iff hname, hname]

theorem WellFormed.members_registry (hw : WellFormed users) (hname : (users u).name ≠ []) :
    (registry users).members (users u).name =
      ↑(SlotArray.keys Device.id (-1) (users u).devices) := by
  ext b
  rw [Roster.mem_members_iff, hw.mem_pairs_registry_iff, Finset.mem_coe, SlotArray.mem_keys_iff]
  constructor
  · rintro ⟨_, hb, p, hp, hid⟩
    -- the slot the pair is found in is the slot of the name
    have hpu : p.1 = u := hw.names p.1 u hp (by rwa [hp])
    subst hpu
    exact ⟨hb, p.2, hid⟩
  · rintro ⟨hb, d, hd⟩
    exact ⟨hname, hb, (u, d), rfl, hd⟩

theorem WellFormed.encard_owners (hw : WellFormed users) :
    (registry users).owners.encard = numberOfUsersLogged users := by
  calc
    (registry users).owners.encard
        = (SlotArray.keys User.name [] users).card := by
          rw [hw.owners_registry, Set.encard_coe_eq_coe_finsetCard]
    _ = numberOfUsersLogged users := by
          rw [← hw.names.used_eq_card_keys]
          rfl

theorem WellFormed.encard_members (hw : WellFormed users) (hname : (users u).name ≠ []) :
    ((registry users).members (users u).name).encard =
      SlotArray.used Device.id (-1) (users u).devices := by
  calc
    ((registry users).members (users u).name).encard
        = (SlotArray.keys Device.id (-1) (users u).devices).card := by
          rw [hw.members_registry hname, Set.encard_coe_eq_coe_finsetCard]
    _ = SlotArray.used Device.id (-1) (users u).devices := by
          rw [(hw.ids u).used_eq_card_keys]

/-- A well-formed table is a map within the two capacities. -/
theorem WellFormed.within (hw : WellFormed users) :
    (registry users).Within maxUsers maxDevices := by
  constructor
  · rw [hw.encard_owners]
    -- no array has more used slots than slots
    exact_mod_cast (SlotArray.used_le : numberOfUsersLogged users ≤ maxUsers)
  · intro n
    by_cases hown : n ∈ (registry users).owners
    · have hmem := hown
      rw [hw.owners_registry, Finset.mem_coe, SlotArray.mem_keys_iff] at hmem
      rcases hmem with ⟨hn, u, rfl⟩
      rw [hw.encard_members hn]
      exact_mod_cast
        (SlotArray.used_le : SlotArray.used Device.id (-1) (users u).devices ≤ maxDevices)
    · -- who is no owner has no members
      have hempty : (registry users).members n = ∅ :=
        Set.eq_empty_of_forall_notMem fun b hb => hown (Roster.mem_owners_iff.2 ⟨b, hb⟩)
      simp [hempty]

end Capacity

/-! ## Writing one slot -/

/-- The table with a user name and one device of that user written. -/
def Users.put (users : Users) (p : DeviceIndex) (name : Bytes) (dev : Device) : Users :=
  Function.update users p.1
    { name := name, devices := Function.update (users p.1).devices p.2 dev }

section Put

variable {users : Users} {p q : DeviceIndex} {name : Bytes} {dev : Device}

theorem Users.put_name (u : Fin maxUsers) :
    (users.put p name dev u).name = if u = p.1 then name else (users u).name := by
  by_cases h : u = p.1
  · subst h
    simp [Users.put]
  · simp [Users.put, h]

theorem Users.put_device :
    (users.put p name dev).device q = if q = p then dev else users.device q := by
  rcases p with ⟨u, d⟩
  rcases q with ⟨v, e⟩
  by_cases hu : v = u
  · subst hu
    by_cases hd : e = d
    · subst hd
      simp [Users.put, Users.device]
    · simp [Users.put, Users.device, hd]
  · simp [Users.put, Users.device, hu]

theorem Users.setDevice_eq_put : users.setDevice p dev = users.put p (users p.1).name dev :=
  rfl

theorem Users.setDevice_update_name (u : Fin maxUsers) (d : Fin maxDevices) :
    Users.setDevice (Function.update users u { users u with name := name }) (u, d) dev =
      users.put (u, d) name dev := by
  simp [Users.setDevice, Users.put]

/-- A write leaves alone every pair that the slot neither held nor gets, if the other devices of
the user keep their owner or are free. -/
theorem Users.registry_put_frame (hc : Clean users) (hc' : Clean (users.put p name dev))
    (hsib : (users p.1).name = name ∨ ∀ d, d ≠ p.2 → ((users p.1).devices d).id = -1)
    {n : Bytes} {b : Int32} (hold : ¬((users p.1).name = n ∧ (users.device p).id = b))
    (hnew : ¬(name = n ∧ dev.id = b)) :
    registry (users.put p name dev) n b = registry users n b := by
  ext socks
  rw [hc'.registry_eq_some_iff, hc.registry_eq_some_iff]
  refine and_congr_right fun _ => and_congr_right fun hb => exists_congr fun q => ?_
  rw [Users.put_name, Users.put_device]
  by_cases hqp : q = p
  · subst hqp
    simp only [if_true]
    constructor
    · rintro ⟨h1, h2, _⟩
      exact absurd ⟨h1, h2⟩ hnew
    · rintro ⟨h1, h2, _⟩
      exact absurd ⟨h1, h2⟩ hold
  · rw [if_neg hqp]
    -- another slot keeps its device, and its name too if it belongs to another user
    by_cases hq1 : q.1 = p.1
    · rw [if_pos hq1]
      rcases hsib with hname | hfree
      · rw [hq1, hname]
      · have hq2 : q.2 ≠ p.2 := fun h => hqp (Prod.ext hq1 h)
        have hid : (users.device q).id = -1 := by
          rw [Users.device, hq1]
          exact hfree q.2 hq2
        simp [hid, Ne.symm hb]
    · rw [if_neg hq1]

/-- The slot `p` holds the device already, or is free for it. -/
structure Fits (users : Users) (p : DeviceIndex) (name : Bytes) (deviceId : Int32) : Prop where
  name_ne : name ≠ []
  id_ne : deviceId ≠ -1
  user : (users p.1).name = name ∨ ((users p.1).name = [] ∧ ∀ u, (users u).name ≠ name)
  device : (users.device p).id = deviceId ∨
    ((users.device p).id = -1 ∧ ∀ d, ((users p.1).devices d).id ≠ deviceId)

theorem Fits.clean_put (hc : Clean users) (hf : Fits users p name dev.id) :
    Clean (users.put p name dev) where
  names := by
    rcases hf.user with hsame | ⟨_, hfresh⟩
    · exact hc.names.update_same_key hsame.symm
    · exact hc.names.update_fresh hfresh
  ids := by
    intro u
    by_cases hu : u = p.1
    · subst hu
      simp only [Users.put, Function.update_self]
      rcases hf.device with hsame | ⟨_, hfresh⟩
      · exact (hc.ids _).update_same_key hsame.symm
      · exact (hc.ids _).update_fresh hfresh
    · simpa [Users.put, hu] using hc.ids u
  freeUser := by
    intro u hu d
    rw [Users.put_name] at hu
    by_cases hup : u = p.1
    · rw [if_pos hup] at hu
      exact absurd hu hf.name_ne
    · rw [if_neg hup] at hu
      simpa [Users.put, hup] using hc.freeUser u hu d
  freeDevice := by
    intro q hq
    rw [Users.put_device] at hq ⊢
    by_cases hqp : q = p
    · rw [if_pos hqp] at hq
      exact absurd hq hf.id_ne
    · rw [if_neg hqp] at hq ⊢
      exact hc.freeDevice q hq

theorem Fits.wellFormed_put (hw : WellFormed users) (hf : Fits users p name dev.id) :
    WellFormed (users.put p name dev) where
  toClean := hf.clean_put hw.toClean
  namedUser := by
    intro u hu
    by_cases hup : u = p.1
    · refine ⟨p.2, ?_⟩
      subst hup
      simpa [Users.put] using hf.id_ne
    · rw [Users.put_name, if_neg hup] at hu
      simpa [Users.put, hup] using hw.namedUser u hu

theorem Fits.siblings (hc : Clean users) {deviceId : Int32} (hf : Fits users p name deviceId) :
    (users p.1).name = name ∨ ∀ d, d ≠ p.2 → ((users p.1).devices d).id = -1 := by
  rcases hf.user with hsame | ⟨hfree, _⟩
  · exact Or.inl hsame
  · exact Or.inr fun d _ => hc.freeUser p.1 hfree d

theorem Fits.held (hf : Fits users p name dev.id) {n : Bytes} {b : Int32} (hn : n ≠ [])
    (hb : b ≠ -1) (h : (users p.1).name = n ∧ (users.device p).id = b) :
    n = name ∧ b = dev.id := by
  rcases h with ⟨hn', hb'⟩
  constructor
  · rcases hf.user with hsame | ⟨hfree, _⟩
    · exact hn'.symm.trans hsame
    · exact absurd (hn'.symm.trans hfree) hn
  · rcases hf.device with hsame | ⟨hfree, _⟩
    · exact hb'.symm.trans hsame
    · exact absurd (hb'.symm.trans hfree) hb

/-- Writing a fitting slot records exactly that device in the map. -/
theorem Fits.registry_put (hc : Clean users) (hf : Fits users p name dev.id) :
    registry (users.put p name dev) = (registry users).put name dev.id dev.sockets := by
  have hc' := hf.clean_put hc
  funext n b
  by_cases hpair : n = name ∧ b = dev.id
  · rcases hpair with ⟨rfl, rfl⟩
    have hself : getDevice (users.put p n dev) dev.id n = .ref p := by
      rw [hc'.getDevice_eq_ref_iff hf.name_ne hf.id_ne]
      simp [Users.put_name, Users.put_device]
    rw [registry_apply hf.id_ne hself]
    simp [Roster.put, Users.put_device]
  · rw [Roster.put, if_neg hpair]
    by_cases hn : n = []
    · subst hn
      simp [registry, getDevice]
    · by_cases hb : b = -1
      · simp [registry, hb]
      · exact Users.registry_put_frame hc hc' (hf.siblings hc)
          (fun h => hpair (hf.held hn hb h)) (fun h => hpair ⟨h.1.symm, h.2.symm⟩)

/-! ## Freeing one slot -/

/-- The name a user slot has once the device `p` has left: the user goes with its last device. -/
def Users.nameWithout (users : Users) (p : DeviceIndex) : Bytes :=
  if ∃ d, d ≠ p.2 ∧ ((users p.1).devices d).id ≠ -1 then (users p.1).name else []

/-- The table once the device at `p` has left. -/
def Users.clear (users : Users) (p : DeviceIndex) : Users :=
  users.put p (users.nameWithout p) Device.free

theorem Users.nameWithout_cases (users : Users) (p : DeviceIndex) :
    (users.nameWithout p = (users p.1).name ∧ ∃ d, d ≠ p.2 ∧ ((users p.1).devices d).id ≠ -1) ∨
      (users.nameWithout p = [] ∧ ∀ d, d ≠ p.2 → ((users p.1).devices d).id = -1) := by
  unfold Users.nameWithout
  split
  · next h => exact Or.inl ⟨rfl, h⟩
  · next h =>
      push Not at h
      exact Or.inr ⟨rfl, h⟩

theorem Keyed.clear (hk : Keyed users) (p : DeviceIndex) :
    Keyed (users.clear p) where
  names := by
    rcases users.nameWithout_cases p with ⟨hname, _⟩ | ⟨hname, _⟩
    · exact hk.names.update_same_key hname
    · exact hk.names.update_free hname
  ids := by
    intro u
    by_cases hu : u = p.1
    · subst hu
      have hfree := (hk.ids p.1).update_free (i := p.2) (v := Device.free) rfl
      simpa [Users.clear, Users.put] using hfree
    · simpa [Users.clear, Users.put, hu] using hk.ids u
  freeUser := by
    intro u hu d
    change ((users.clear p).device (u, d)).id = -1
    rw [Users.clear, Users.put_name] at hu
    rw [Users.clear, Users.put_device]
    split
    · rfl
    · next hne =>
        by_cases hup : u = p.1
        · subst hup
          rw [if_pos rfl] at hu
          have hd : d ≠ p.2 := fun h => hne (Prod.ext rfl h)
          rcases users.nameWithout_cases p with ⟨hname, _⟩ | ⟨_, hfree⟩
          · exact hk.freeUser p.1 (hname.symm.trans hu) d
          · exact hfree d hd
        · rw [if_neg hup] at hu
          exact hk.freeUser u hu d

theorem WellFormed.clear (hw : WellFormed users) (p : DeviceIndex) :
    WellFormed (users.clear p) where
  names := (hw.keyed.clear p).names
  ids := (hw.keyed.clear p).ids
  freeUser := (hw.keyed.clear p).freeUser
  freeDevice := by
    intro q hq
    rw [Users.clear, Users.put_device] at hq ⊢
    split
    · rfl
    · next hne =>
        rw [if_neg hne] at hq
        exact hw.freeDevice q hq
  namedUser := by
    intro u hu
    rw [Users.clear, Users.put_name] at hu
    by_cases hup : u = p.1
    · subst hup
      rw [if_pos rfl] at hu
      -- while the name stays, another device is there
      rcases users.nameWithout_cases p with ⟨_, d, hd, hid⟩ | ⟨hname, _⟩
      · refine ⟨d, ?_⟩
        simpa [Users.clear, Users.put, hd] using hid
      · exact absurd hname hu
    · rw [if_neg hup] at hu
      simpa [Users.clear, Users.put, hup] using hw.namedUser u hu

/-- Freeing the slot of a device removes exactly that device from the map. -/
theorem WellFormed.registry_clear (hw : WellFormed users) :
    registry (users.clear p) = (registry users).erase (users p.1).name (users.device p).id := by
  have hw' := hw.clear p
  funext n b
  by_cases hn : n = []
  · subst hn
    simp [registry, getDevice, Roster.erase]
  · by_cases hb : b = -1
    · simp [registry, hb, Roster.erase]
    · by_cases hpair : n = (users p.1).name ∧ b = (users.device p).id
      · rw [Roster.erase, if_pos hpair]
        -- no other slot holds the pair, since names and ids are not repeated
        by_contra hsome
        rcases hw'.mem_pairs_registry_iff.1 (Roster.mem_pairs_iff.2 hsome) with ⟨_, _, q, hq, hid⟩
        rw [Users.clear, Users.put_name] at hq
        rw [Users.clear, Users.put_device] at hid
        by_cases hqp : q = p
        · rw [if_pos hqp] at hid
          exact hb hid.symm
        · rw [if_neg hqp] at hid
          by_cases hq1 : q.1 = p.1
          · have hq2 : q.2 ≠ p.2 := fun h => hqp (Prod.ext hq1 h)
            apply hq2
            apply hw.ids p.1 q.2 p.2
            · rw [← hq1]
              exact hid.trans (by rw [hpair.2, Users.device, hq1])
            · rw [← hq1]
              exact fun h => hb (hid.symm.trans h)
          · rw [if_neg hq1] at hq
            exact hq1 (hw.names q.1 p.1 (hq.trans hpair.1) (by rwa [hq]))
      · rw [Roster.erase, if_neg hpair]
        refine Users.registry_put_frame hw.toClean hw'.toClean ?_
          (fun h => hpair ⟨h.1.symm, h.2.symm⟩) (fun h => hb h.2.symm)
        rcases users.nameWithout_cases p with ⟨hname, _⟩ | ⟨_, hfree⟩
        · exact Or.inl hname.symm
        · exact Or.inr hfree

end Put

end Server
end DropboxSimulator
