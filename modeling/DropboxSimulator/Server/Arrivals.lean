import DropboxSimulator.Server.Sections

/-!
# Arrivals — connection requests in any order

The mediators of several connections enter the critical section in an order that nothing fixes.
As long as the table has room for all of them, every request is acknowledged in each order, and
the tables that two orders lead to are the same map, though a device may lie in other slots.
-/

namespace DropboxSimulator
namespace Server

open Library

/-! ## Running a list of requests -/

/-- The mediators of the requests run `handle_user_controller_structure` one after another: the
table at the end, and the answers. -/
def handleAll (servers : BackupServers) :
    Users → List (Connection × Int32) → Option (Users × List (Option Reply))
  | users, [] => some (users, [])
  | users, (con, socket) :: rest =>
      match handleUserControllerStructure users servers con socket with
      | none => none
      | some handled =>
          (handleAll servers handled.users rest).map fun result =>
            (result.1, handled.reply :: result.2)

/-- What tells two connections apart: user, device and socket type. -/
def connectionKey (con : Connection) : Bytes × Int32 × UInt64 :=
  (con.user, con.device, con.socketType)

/-- The pairs that the table and the requests name. -/
def namedPairs (users : Users) (requests : List (Connection × Int32)) : Set (Bytes × Int32) :=
  (registry users).pairs ∪ {pair | ∃ request ∈ requests, pair = (request.1.user, request.1.device)}

/-! ## Requests on the map -/

/-- What an acknowledged request does to the map. -/
def recordRequest (r : Roster Bytes Int32 Sockets) (request : Connection × Int32) :
    Roster Bytes Int32 Sockets :=
  r.adjust request.1.user request.1.device fun socks =>
    (socks.getD Sockets.unknown).record request.1.socketType request.2

section Recording

variable {users : Users} {servers : BackupServers} {requests : List (Connection × Int32)}

/-- Descriptors of different types go to different fields. -/
theorem Sockets.record_comm {s : Sockets} {type type' : UInt64} {fd fd' : Int32}
    (hne : type ≠ type') (h : type = socketT1 ∨ type = socketT2 ∨ type = socketT3)
    (h' : type' = socketT1 ∨ type' = socketT2 ∨ type' = socketT3) :
    (s.record type fd).record type' fd' = (s.record type' fd').record type fd := by
  rcases h with rfl | rfl | rfl <;> rcases h' with rfl | rfl | rfl <;>
    first
      | exact absurd rfl hne
      | simp [Sockets.record, socketT1, socketT2, socketT3]

theorem recordRequest_comm {request request' : Connection × Int32} (hv : ValidRequest request.1)
    (hv' : ValidRequest request'.1) (hne : connectionKey request.1 ≠ connectionKey request'.1)
    (r : Roster Bytes Int32 Sockets) :
    recordRequest (recordRequest r request) request' =
      recordRequest (recordRequest r request') request := by
  refine Roster.adjust_comm fun huser hdevice socks => ?_
  have htype : request.1.socketType ≠ request'.1.socketType := by
    intro htype
    exact hne (Prod.ext huser (Prod.ext hdevice htype))
  simpa using Sockets.record_comm htype hv.socketType hv'.socketType

/-- The map at the end does not depend on the order. -/
theorem foldl_recordRequest_perm {requests' : List (Connection × Int32)}
    (hperm : requests.Perm requests') (hvalid : ∀ request ∈ requests, ValidRequest request.1)
    (hdistinct : (requests.map fun request => connectionKey request.1).Nodup)
    (r : Roster Bytes Int32 Sockets) :
    requests.foldl recordRequest r = requests'.foldl recordRequest r := by
  refine hperm.foldl_eq' (fun x hx y hy z => ?_) r
  by_cases hxy : x = y
  · rw [hxy]
  · have hne : connectionKey x.1 ≠ connectionKey y.1 := fun heq =>
      hxy (List.inj_on_of_nodup_map hdistinct hx hy heq)
    exact recordRequest_comm (hvalid x hx) (hvalid y hy) hne z

/-- A request that the capacities leave room for is acknowledged and recorded in the map. -/
theorem handle_of_room (servers : BackupServers) (h : Reachable users) {con : Connection}
    {pairs : Set (Bytes × Int32)} (hroom : Roster.PairsWithin maxUsers maxDevices pairs)
    (hsub : (registry users).pairs ⊆ pairs)
    (hmem : (con.user, con.device) ∈ pairs) (hv : ValidRequest con) (socket : Int32) :
    ∃ handled, handleUserControllerStructure users servers con socket = some handled ∧
      handled.reply = some .ack ∧
      registry handled.users = recordRequest (registry users) (con, socket) ∧
      (registry handled.users).pairs ⊆ pairs := by
  have hadmits := Roster.Admits.of_pairsWithin hroom hsub hmem
  rcases reachable_request_spec h hv servers socket with
    ⟨handled, hres, hack, _, _, _, hrecorded, _⟩
  have hreply : handled.reply = some .ack := hack.2 hadmits
  have hmap : registry handled.users = recordRequest (registry users) (con, socket) :=
    (hrecorded hreply).1
  refine ⟨handled, hres, hreply, hmap, ?_⟩
  rw [hmap, recordRequest, Roster.adjust, Roster.pairs_put]
  exact Set.insert_subset hmem hsub

/-- In every order all requests are acknowledged, and each leaves its mark on the map. -/
theorem handleAll_of_room (servers : BackupServers) {pairs : Set (Bytes × Int32)}
    (hroom : Roster.PairsWithin maxUsers maxDevices pairs) (h : Reachable users)
    (hsub : (registry users).pairs ⊆ pairs)
    (hmem : ∀ request ∈ requests, (request.1.user, request.1.device) ∈ pairs)
    (hvalid : ∀ request ∈ requests, ValidRequest request.1) :
    ∃ users', handleAll servers users requests =
        some (users', requests.map fun _ => some .ack) ∧
      registry users' = requests.foldl recordRequest (registry users) := by
  induction requests generalizing users with
  | nil =>
      exact ⟨users, rfl, rfl⟩
  | cons request rest ih =>
      rcases request with ⟨con, socket⟩
      have hv : ValidRequest con := hvalid (con, socket) (by simp)
      rcases handle_of_room servers h hroom hsub (hmem (con, socket) (by simp)) hv
        socket with
        ⟨handled, hres, hack, hmap, hsub'⟩
      have hnext : Reachable handled.users := .connect servers con socket handled h hv hres
      rcases ih hnext hsub' (fun r hr => hmem r (by simp [hr])) fun r hr => hvalid r (by simp [hr])
        with ⟨users', hall, hmap'⟩
      refine ⟨users', ?_, ?_⟩
      · simp [handleAll, hres, hall, hack]
      · rw [hmap', hmap, List.foldl_cons]

/-- Requests for different connections, for which the table has room all together, are all
acknowledged in any two orders, and the two tables are the same map. -/
theorem arrivals_commute (h : Reachable users) (servers : BackupServers)
    {requests requests' : List (Connection × Int32)} (hperm : requests.Perm requests')
    (hvalid : ∀ request ∈ requests, ValidRequest request.1)
    (hdistinct : (requests.map fun request => connectionKey request.1).Nodup)
    (hroom : Roster.PairsWithin maxUsers maxDevices (namedPairs users requests)) :
    ∃ users₁ users₂,
      handleAll servers users requests = some (users₁, requests.map fun _ => some .ack) ∧
      handleAll servers users requests' = some (users₂, requests'.map fun _ => some .ack) ∧
      registry users₁ = registry users₂ := by
  have hsub : (registry users).pairs ⊆ namedPairs users requests := Set.subset_union_left
  have hmem : ∀ request ∈ requests,
      (request.1.user, request.1.device) ∈ namedPairs users requests :=
    fun request hr => Or.inr ⟨request, hr, rfl⟩
  rcases handleAll_of_room servers hroom h hsub hmem hvalid with ⟨users₁, hall₁, hmap₁⟩
  rcases handleAll_of_room servers hroom h hsub
    (fun r hr => hmem r (hperm.mem_iff.2 hr)) (fun r hr => hvalid r (hperm.mem_iff.2 hr)) with
    ⟨users₂, hall₂, hmap₂⟩
  refine ⟨users₁, users₂, hall₁, hall₂, ?_⟩
  calc
    registry users₁
        = requests.foldl recordRequest (registry users) := hmap₁
    _ = requests'.foldl recordRequest (registry users) :=
          foldl_recordRequest_perm hperm hvalid hdistinct _
    _ = registry users₂ := hmap₂.symm

/-- The console and the inotify connection of one device. -/
def twoConnections : List (Connection × Int32) :=
  [(oneLetterRequest 97 1 socketT1, 4), (oneLetterRequest 97 1 socketT2, 5)]

theorem namedPairs_twoConnections :
    namedPairs initiateUserControllerStructure twoConnections = {([97], 1)} := by
  have hpair : ∀ request ∈ twoConnections,
      (request.1.user, request.1.device) = (([97], 1) : Bytes × Int32) := by decide
  ext pair
  rw [namedPairs, pairs_registry_initiate, Set.empty_union, Set.mem_ofPred_eq,
    Set.mem_singleton_iff]
  constructor
  · rintro ⟨request, hmem, rfl⟩
    exact hpair request hmem
  · rintro rfl
    exact ⟨_, List.mem_cons_self, (hpair _ List.mem_cons_self).symm⟩

theorem arrivals_commute_twoConnections :
    ∃ users₁ users₂,
      handleAll initiateBackupServerStructure initiateUserControllerStructure twoConnections =
        some (users₁, [some .ack, some .ack]) ∧
      handleAll initiateBackupServerStructure initiateUserControllerStructure
        twoConnections.reverse = some (users₂, [some .ack, some .ack]) ∧
      registry users₁ = registry users₂ := by
  refine arrivals_commute .initial initiateBackupServerStructure (List.reverse_perm _).symm ?_
    (by decide) ⟨?_, fun name => ?_⟩
  · intro request hmem
    simp only [twoConnections, List.mem_cons, List.not_mem_nil, or_false] at hmem
    rcases hmem with rfl | rfl
    · exact ⟨by decide, by decide, by decide⟩
    · exact ⟨by decide, by decide, by decide⟩
  · rw [namedPairs_twoConnections]
    simp
  · rw [namedPairs_twoConnections]
    have hone : {deviceId : Int32 |
        (name, deviceId) ∈ ({([97], 1)} : Set (Bytes × Int32))} ⊆ {1} := by
      intro deviceId hd
      simpa using (Prod.mk.inj hd).2
    calc
      ({deviceId : Int32 | (name, deviceId) ∈ ({([97], 1)} : Set (Bytes × Int32))} : Set _).encard
          ≤ ({1} : Set Int32).encard := Set.encard_le_encard hone
      _ ≤ (maxDevices : ℕ∞) := by simp

end Recording

end Server
end DropboxSimulator
