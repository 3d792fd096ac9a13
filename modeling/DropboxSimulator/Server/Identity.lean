import DropboxSimulator.Library.Machine
import DropboxSimulator.Server.Descriptors

/-!
# Identity — sessions that the server tells apart by user and device

`Box::open` draws a device id from ten, and opens the three connections of a session one after
another.  The server takes a connection for one of a session it knows when user and device agree:
a device that is already connected is acknowledged like a new one, because that is also how the
second and the third connection of a session come in.  So a session that draws the id of another
one of its user takes over its descriptors, and its `EXIT` closes them.

* `Sessions` : the server with the sessions that use it, one critical section a step;
* `Sessions.Recorded` : every acknowledged connection is in the table with its own descriptor, and
  open;
* `Alone`    : a session connects while no other one has its user and device.

The descriptors are recorded exactly as long as each session is alone.
-/

namespace DropboxSimulator
namespace Server

open Library

/-! ## Sessions -/

/-- What a session goes by: the user, and the device that `Box::open` draws. -/
structure BoxSession where
  username : CharArray 100
  device : Int32
  drawn : 1 ≤ device ∧ device ≤ 10

def BoxSession.user (b : BoxSession) : Bytes :=
  b.username.string

def SocketField.socketType : SocketField → UInt64
  | .socket1 => socketT1
  | .socket2 => socketT2
  | .socket3 => socketT3

/-- The record that `Box::open` sends first on a connection.  The client's own descriptor goes with
it, and what the stack held. -/
def BoxSession.request (b : BoxSession) (field : SocketField) (socket : Int32)
    (padding : CharArray 4) : Connection where
  packetType := packetConn
  socketType := field.socketType
  device := b.device
  username := b.username
  socket := socket
  padding := padding

/-- The connection that `Box::open` opens next: it gives up only after the first one. -/
def SocketField.following : SocketField → Option Reply → Option SocketField
  | .socket1, reply => if reply = some .ack then some .socket2 else none
  | .socket2, _ => some .socket3
  | .socket3, _ => none

/-- The server with its open descriptors, and for each session the connection it opens next, its
acknowledged connections, and whether it has sent `EXIT`. -/
structure Sessions (ι : Type) where
  users : Users
  opened : Int32 → Bool
  next : ι → Option SocketField
  held : ι → SocketField → Option Int32
  exited : ι → Bool

def Sessions.initial (ι : Type) : Sessions ι where
  users := initiateUserControllerStructure
  opened := fun _ => false
  next := fun _ => some .socket1
  held := fun _ _ => none
  exited := fun _ => false

/-- A session connects on a descriptor that is not open, or sends `EXIT` on its first
connection. -/
inductive Event (ι : Type)
  | connect (s : ι) (fd : Int32) (servers : BackupServers) (socket : Int32) (padding : CharArray 4)
  | exit (s : ι) (servers : BackupServers)

section Steps

variable {ι : Type} [DecidableEq ι] (box : ι → BoxSession)

/-- One critical section of the server. -/
def Sessions.step (st : Sessions ι) : Event ι → Option (Sessions ι)
  | .connect s fd servers socket padding =>
      match st.next s with
      | none => none
      | some field =>
          if 0 ≤ fd ∧ st.opened fd = false then
            (handleUserControllerStructure st.users servers
                ((box s).request field socket padding) fd).map fun handled =>
              { users := handled.users
                opened := Function.update st.opened fd true
                next := Function.update st.next s (field.following handled.reply)
                held := if handled.reply = some .ack then
                    Function.update st.held s (Function.update (st.held s) field (some fd))
                  else
                    st.held
                exited := st.exited }
          else
            none
  | .exit s servers =>
      match st.next s, st.held s .socket1 with
      | none, some fd =>
          if st.exited s = false then
            (exitCommand st.users servers
                { userName := (box s).user
                  currentDevice := (box s).device
                  currentSocket := fd }).map fun exited =>
              { st with
                users := exited.users
                opened := fun fd' => st.opened fd' && decide (fd' ∉ exited.closed)
                exited := Function.update st.exited s true }
          else
            none
      | _, _ => none

/-- Every connection that was acknowledged is recorded under its user, device and type with its own
descriptor, and open, until its session exits. -/
def Sessions.Recorded (st : Sessions ι) : Prop :=
  ∀ s, st.exited s = false → ∀ field fd, st.held s field = some fd →
    (∃ socks, registry st.users (box s).user (box s).device = some socks ∧
      socks.get field = fd) ∧ st.opened fd = true

/-- A session that has been acknowledged and has not exited. -/
def Sessions.Connected (st : Sessions ι) (s : ι) : Prop :=
  st.exited s = false ∧ st.held s .socket1 ≠ none

/-- The two sessions have the same user and device. -/
def SamePair (s s' : ι) : Prop :=
  (box s).user = (box s').user ∧ (box s).device = (box s').device

/-- No other session with the user and the device of the one that connects is connected. -/
def Alone (st : Sessions ι) : Event ι → Prop
  | .connect s _ _ _ _ => ∀ s', s' ≠ s → SamePair box s' s → ¬st.Connected s'
  | .exit _ _ => True

end Steps

/-! ## What a step does to the table -/

section Table

variable {users : Users} {servers : BackupServers} {con : Connection} {socket : Int32}
variable {handled : Handled}

/-- A device in the map has an entry of the table with its descriptors. -/
theorem Clean.exists_stored (hc : Clean users) {name : Bytes} {deviceId : Int32} {socks : Sockets}
    (h : registry users name deviceId = some socks) :
    ∃ p, ∀ field, stored users (p, field) = socks.get field := by
  rcases hc.registry_eq_some_iff.1 h with ⟨_, _, p, _, _, hsocks⟩
  exact ⟨p, fun field => by rw [stored, hsocks]⟩

end Table

/-! ## The invariant -/

section Runs

variable {ι : Type} [DecidableEq ι] {box : ι → BoxSession} {st st' : Sessions ι} {l : Event ι}

/-- What holds while every session is alone. -/
structure Sessions.Kept (box : ι → BoxSession) (st : Sessions ι) : Prop where
  wellFormed : WellFormed st.users
  owned : Owned st.users {fd | st.opened fd = true}
  recorded : ∀ s, st.exited s = false → ∀ field fd, st.held s field = some fd →
    fd ≠ -1 ∧ ∃ socks, registry st.users (box s).user (box s).device = some socks ∧
      socks.get field = fd
  console : ∀ s field, st.held s field ≠ none → st.held s .socket1 ≠ none
  later : ∀ s field, st.next s = some field → field ≠ .socket1 → st.held s .socket1 ≠ none
  active : ∀ s, st.next s ≠ none → st.exited s = false
  distinct : ∀ s s', st.Connected s → st.Connected s' → SamePair box s s' → s = s'

theorem BoxSession.validRequest (b : BoxSession) (field : SocketField) (socket : Int32)
    (padding : CharArray 4) (hname : b.user ≠ []) :
    ValidRequest (b.request field socket padding) where
  user := hname
  device := by
    intro hdevice
    have hdrawn := b.drawn.1
    rw [show b.device = -1 from hdevice] at hdrawn
    exact absurd hdrawn (by decide)
  socketType := by
    cases field <;> simp [BoxSession.request, SocketField.socketType]

theorem Sockets.get_record_socketType (socks : Sockets) (field field' : SocketField) (fd : Int32) :
    (socks.record field.socketType fd).get field' =
      if field' = field then fd else socks.get field' := by
  cases field <;> cases field' <;> rfl

/-- How the server answers a request of a session: it leaves the table alone, or records the
descriptor, which then is all that has changed. -/
inductive Answered (users : Users) (b : BoxSession) (field : SocketField) (fd : Int32)
    (handled : Handled) : Prop
  | refused (husers : handled.users = users) (hreply : handled.reply ≠ some .ack)
  | acknowledged (hreply : handled.reply = some .ack) (hw : WellFormed handled.users)
      (hregistry : registry handled.users = (registry users).put b.user b.device
        (((registry users b.user b.device).getD Sockets.unknown).record field.socketType fd))
      (hstored : ∃ place, stored handled.users = Function.update (stored users) place fd)

theorem WellFormed.answered {users : Users} (hw : WellFormed users) {servers : BackupServers}
    {b : BoxSession} {field : SocketField} {socket fd : Int32} {padding : CharArray 4}
    {handled : Handled}
    (h : handleUserControllerStructure users servers (b.request field socket padding) fd =
      some handled) : Answered users b field fd handled := by
  by_cases hname : b.user = []
  · -- a request without a name is answered `nack1`
    have hname' : (b.request field socket padding).user = [] := hname
    rcases handle_of_noName hname' h with ⟨husers, hreply⟩
    exact .refused husers (by rw [hreply]; simp)
  · have hv := b.validRequest field socket padding hname
    have ho : Outcome users servers (b.request field socket padding) fd :=
      handle_outcome hw hv.user hv.device
    have hw' := ho.wellFormed hw h
    cases ho with
    | nack1 hres _ _ =>
        rw [hres] at h
        cases h
        exact .refused rfl (by simp)
    | nack3 hres _ _ _ =>
        rw [hres] at h
        cases h
        exact .refused rfl (by simp)
    | ack p hres hslot _ =>
        rw [hres] at h
        cases h
        refine .acknowledged rfl hw' ?_ ⟨_, stored_connected hv⟩
        have hslot' : Fits users p b.user
            (users.connected p (b.request field socket padding) fd).id := by
          rw [connected_id]
          exact hslot
        refine (hslot'.registry_put hw.toClean).trans ?_
        rw [connected_id, hv.sockets_connected, hslot.sockets_eq hw.toClean]
        rfl

/-- A device in the map is acknowledged. -/
theorem WellFormed.acknowledged_of_known {users : Users} (hw : WellFormed users)
    {servers : BackupServers} {con : Connection} {socket : Int32} {handled : Handled}
    {socks : Sockets} (hknown : registry users con.user con.device = some socks)
    (h : handleUserControllerStructure users servers con socket = some handled) :
    handled.reply = some .ack := by
  -- the device is registered already, so neither limit applies
  have hmem : con.device ∈ (registry users).members con.user := by
    rw [Roster.mem_members_iff, Roster.mem_pairs_iff, hknown]
    simp
  rcases hw.toClean.registry_eq_some_iff.1 hknown with ⟨hname, hid, p, _⟩
  have ho : Outcome users servers con socket := handle_outcome hw hname hid
  cases ho with
  | nack1 _ hunknown _ =>
      exact absurd (Roster.mem_owners_iff.2 ⟨_, hmem⟩) hunknown
  | nack3 _ _ habsent _ =>
      exact absurd hmem habsent
  | ack p hres _ _ =>
      rw [hres] at h
      cases h
      rfl

omit [DecidableEq ι] in
/-- What is recorded is open. -/
theorem Sessions.Kept.all_recorded (hk : st.Kept box) : st.Recorded box := by
  intro s hactive field fd hheld
  rcases hk.recorded s hactive field fd hheld with ⟨hfd, socks, hsocks, hget⟩
  refine ⟨⟨socks, hsocks, hget⟩, ?_⟩
  rcases hk.wellFormed.toClean.exists_stored hsocks with ⟨p, hp⟩
  -- the descriptor is in the table, and what is there is open
  have hstored : stored st.users (p, field) = fd := (hp field).trans hget
  have hopen := hk.owned.isOpen (p, field) (by rwa [hstored])
  rwa [hstored] at hopen

theorem Sessions.step_connect {s : ι} {fd : Int32} {servers : BackupServers} {socket : Int32}
    {padding : CharArray 4}
    (h : st.step box (.connect s fd servers socket padding) = some st') :
    ∃ field handled, st.next s = some field ∧ 0 ≤ fd ∧ st.opened fd = false ∧
      handleUserControllerStructure st.users servers ((box s).request field socket padding) fd =
        some handled ∧
      st' =
        { users := handled.users
          opened := Function.update st.opened fd true
          next := Function.update st.next s (field.following handled.reply)
          held := if handled.reply = some .ack then
              Function.update st.held s (Function.update (st.held s) field (some fd))
            else
              st.held
          exited := st.exited } := by
  simp only [Sessions.step] at h
  split at h
  · cases h
  · next field hnext =>
      split at h
      · next hfd =>
          rcases Option.map_eq_some_iff.1 h with ⟨handled, hres, rfl⟩
          exact ⟨field, handled, hnext, hfd.1, hfd.2, hres, rfl⟩
      · cases h

theorem Sessions.step_exit {s : ι} {servers : BackupServers}
    (h : st.step box (.exit s servers) = some st') :
    ∃ fd exited, st.next s = none ∧ st.held s .socket1 = some fd ∧ st.exited s = false ∧
      exitCommand st.users servers
          { userName := (box s).user, currentDevice := (box s).device, currentSocket := fd } =
        some exited ∧
      st' =
        { st with
          users := exited.users
          opened := fun fd' => st.opened fd' && decide (fd' ∉ exited.closed)
          exited := Function.update st.exited s true } := by
  simp only [Sessions.step] at h
  split at h
  · next fd hnext hheld =>
      split at h
      · next hactive =>
          rcases Option.map_eq_some_iff.1 h with ⟨exited, hres, rfl⟩
          exact ⟨fd, exited, hnext, hheld, hactive, hres, rfl⟩
      · cases h
  · cases h

/-- A refused connection stays open, and changes nothing else. -/
theorem Sessions.Kept.refused (hk : st.Kept box) {s : ι} {fd : Int32} {field : SocketField}
    (hnext : st.next s = some field) {reply : Option Reply} (hreply : reply ≠ some .ack) :
    Sessions.Kept box
      { st with
        opened := Function.update st.opened fd true
        next := Function.update st.next s (field.following reply) } where
  wellFormed := hk.wellFormed
  owned := by
    refine hk.owned.mono fun fd' hfd' => ?_
    by_cases hne : fd' = fd
    · simp [hne]
    · simpa [hne] using hfd'
  recorded := hk.recorded
  console := hk.console
  later := by
    intro s' field' hnext' hfield'
    by_cases hs : s' = s
    · subst hs
      simp only [Function.update_self] at hnext'
      cases field with
      | socket1 =>
          simp [SocketField.following, hreply] at hnext'
      | socket2 | socket3 =>
          exact hk.later s' _ hnext (by simp)
    · simp only [Function.update_of_ne hs] at hnext'
      exact hk.later s' field' hnext' hfield'
  active := by
    intro s' hnext'
    by_cases hs : s' = s
    · subst hs
      exact hk.active s' (by simp [hnext])
    · simp only [Function.update_of_ne hs] at hnext'
      exact hk.active s' hnext'
  distinct := hk.distinct

omit [DecidableEq ι] in
/-- A session has its first connection before it asks for another one, so also after each. -/
theorem Sessions.Kept.console_after (hk : st.Kept box) {s : ι} {field : SocketField}
    (hnext : st.next s = some field) (fd : Int32) :
    Function.update (st.held s) field (some fd) .socket1 ≠ none := by
  by_cases hfield : field = .socket1
  · subst hfield
    simp
  · rw [Function.update_of_ne (Ne.symm hfield)]
    exact hk.later s field hnext hfield

omit [DecidableEq ι] in
/-- Once a session that is alone has its new descriptor in the entry of its device, what it holds is
recorded there. -/
theorem Sessions.Kept.recorded_own (hk : st.Kept box) {s : ι} {fd : Int32} {field : SocketField}
    (hactive : st.exited s = false) (hfd : 0 ≤ fd) {socks : Sockets}
    (hsocks : socks = ((registry st.users (box s).user (box s).device).getD Sockets.unknown).record
      field.socketType fd) {field' : SocketField} {fd' : Int32}
    (hheld : Function.update (st.held s) field (some fd) field' = some fd') :
    fd' ≠ -1 ∧ socks.get field' = fd' := by
  rw [hsocks, Sockets.get_record_socketType]
  by_cases hfield : field' = field
  · -- the new descriptor
    subst hfield
    rw [Function.update_self] at hheld
    cases hheld
    refine ⟨?_, if_pos rfl⟩
    rintro rfl
    exact absurd hfd (by decide)
  · -- one that the session had before
    rw [Function.update_of_ne hfield] at hheld
    rcases hk.recorded s hactive field' fd' hheld with ⟨hne, old, hold, hget⟩
    rw [if_neg hfield, hold, Option.getD_some]
    exact ⟨hne, hget⟩

omit [DecidableEq ι] in
/-- The entry of another session is another one than that of a session that is alone. -/
theorem Sessions.Kept.recorded_other (hk : st.Kept box) {s s' : ι} (hs : s' ≠ s)
    (halone : ∀ s', s' ≠ s → SamePair box s' s → ¬st.Connected s')
    (hactive : st.exited s' = false) {field : SocketField} {fd : Int32}
    (hheld : st.held s' field = some fd) (socks : Sockets) :
    fd ≠ -1 ∧ ∃ socks', (registry st.users).put (box s).user (box s).device socks (box s').user
      (box s').device = some socks' ∧ socks'.get field = fd := by
  rcases hk.recorded s' hactive field fd hheld with ⟨hfd, socks', hsocks, hget⟩
  have hconnected : st.Connected s' := ⟨hactive, hk.console s' field (by simp [hheld])⟩
  have hpair : ¬((box s').user = (box s).user ∧ (box s').device = (box s).device) :=
    fun hsame => halone s' hs hsame hconnected
  exact ⟨hfd, socks', by rw [Roster.put, if_neg hpair, hsocks], hget⟩

/-- Where only a session that is alone may have come to be connected, no two sessions of one device
are. -/
theorem Sessions.Kept.distinct_after (hk : st.Kept box) {s : ι}
    (halone : ∀ s', s' ≠ s → SamePair box s' s → ¬st.Connected s')
    (hothers : ∀ s', s' ≠ s → st'.Connected s' → st.Connected s') :
    ∀ s₁ s₂, st'.Connected s₁ → st'.Connected s₂ → SamePair box s₁ s₂ → s₁ = s₂ := by
  intro s₁ s₂ h₁ h₂ hsame
  by_cases hs₁ : s₁ = s
  · by_cases hs₂ : s₂ = s
    · exact hs₁.trans hs₂.symm
    · subst hs₁
      exact absurd (hothers s₂ hs₂ h₂) (halone s₂ hs₂ ⟨hsame.1.symm, hsame.2.symm⟩)
  · by_cases hs₂ : s₂ = s
    · subst hs₂
      exact absurd (hothers s₁ hs₁ h₁) (halone s₁ hs₁ hsame)
    · exact hk.distinct s₁ s₂ (hothers s₁ hs₁ h₁) (hothers s₂ hs₂ h₂) hsame

/-- An acknowledged connection of a session that is alone. -/
theorem Sessions.Kept.acknowledged (hk : st.Kept box) {s : ι} {fd : Int32} {field : SocketField}
    (hnext : st.next s = some field) (hfd : 0 ≤ fd) (hclosed : st.opened fd = false)
    (halone : ∀ s', s' ≠ s → SamePair box s' s → ¬st.Connected s') {users : Users}
    (hw : WellFormed users)
    (hregistry : registry users = (registry st.users).put (box s).user (box s).device
      (((registry st.users (box s).user (box s).device).getD Sockets.unknown).record
        field.socketType fd))
    (hstored : ∃ place, stored users = Function.update (stored st.users) place fd) :
    Sessions.Kept box
      { st with
        users := users
        opened := Function.update st.opened fd true
        next := Function.update st.next s (field.following (some .ack))
        held := Function.update st.held s (Function.update (st.held s) field (some fd)) } where
  wellFormed := hw
  owned := by
    rcases hstored with ⟨place, hplace⟩
    have hnew : fd ∉ {fd | st.opened fd = true} := by simp [hclosed]
    refine (hk.owned.store hnew hplace).mono fun fd' hfd' => ?_
    by_cases heq : fd' = fd
    · simp [heq]
    · simpa [heq] using hfd'
  recorded := by
    intro s' hactive field' fd' hheld
    rw [hregistry]
    by_cases hs : s' = s
    · subst hs
      simp only [Function.update_self] at hheld
      rcases hk.recorded_own hactive hfd rfl hheld with ⟨hne, hget⟩
      exact ⟨hne, _, if_pos ⟨rfl, rfl⟩, hget⟩
    · simp only [Function.update_of_ne hs] at hheld
      exact hk.recorded_other hs halone hactive hheld _
  console := by
    intro s' field' hheld
    by_cases hs : s' = s
    · subst hs
      simpa using hk.console_after hnext fd
    · simp only [Function.update_of_ne hs] at hheld ⊢
      exact hk.console s' field' hheld
  later := by
    intro s' field' hnext' hfield'
    by_cases hs : s' = s
    · subst hs
      simpa using hk.console_after hnext fd
    · simp only [Function.update_of_ne hs] at hnext' ⊢
      exact hk.later s' field' hnext' hfield'
  active := by
    intro s' hnext'
    by_cases hs : s' = s
    · subst hs
      exact hk.active s' (by simp [hnext])
    · simp only [Function.update_of_ne hs] at hnext'
      exact hk.active s' hnext'
  distinct := by
    refine hk.distinct_after halone fun s' hs hconnected => ?_
    simpa [Sessions.Connected, hs] using hconnected

/-- An exit takes away the entry of its session, and closes what it held. -/
theorem Sessions.Kept.exit (hk : st.Kept box) {s : ι} {servers : BackupServers}
    (h : st.step box (.exit s servers) = some st') : st'.Kept box := by
  rcases Sessions.step_exit h with ⟨fd, exited, hnext, hheld, hactive, hres, rfl⟩
  rcases hk.wellFormed.exit_cases hres with ⟨p, hdev, husers, hclosed, _⟩
  -- the session that leaves is alone in having its entry
  have hconnected : st.Connected s := ⟨hactive, by simp [hheld]⟩
  have hname : (box s).user ≠ [] := by
    intro hempty
    simp [getDevice, hempty] at hdev
  have hid : (box s).device ≠ -1 :=
    ((box s).validRequest .socket1 0 ⟨List.replicate 4 0, by simp⟩ hname).device
  rcases (hk.wellFormed.getDevice_eq_ref_iff hname hid).1 hdev with ⟨hpn, hpd⟩
  have hregistry : registry exited.users =
      (registry st.users).erase (box s).user (box s).device := by
    rw [husers, hk.wellFormed.registry_clear, hpn, hpd]
  have hstill : ∀ s', Function.update st.exited s true s' = false →
      s' ≠ s ∧ st.exited s' = false := by
    intro s' hs'
    by_cases heq : s' = s
    · subst heq
      simp at hs'
    · exact ⟨heq, by simpa [heq] using hs'⟩
  refine ⟨by rw [husers]; exact hk.wellFormed.clear p, ?_, ?_, hk.console, hk.later, ?_, ?_⟩
  · rw [husers, hclosed]
    refine (hk.owned.clear fun _ hfd' => exists_stored_of_mem hfd').mono ?_
    rintro fd' ⟨hopen, hnot⟩
    have hopen' : st.opened fd' = true := hopen
    simp only [Set.mem_ofPred_eq] at hnot ⊢
    simp only [hopen', hnot, not_false_eq_true, decide_true, Bool.and_self]
  · intro s' hactive' field' fd' hheld'
    rcases hstill s' hactive' with ⟨hs, hold⟩
    rcases hk.recorded s' hold field' fd' hheld' with ⟨hfd', socks, hsocks, hget⟩
    refine ⟨hfd', socks, ?_, hget⟩
    have hheld₀ : st.held s' field' = some fd' := hheld'
    have hconnected' : st.Connected s' := ⟨hold, hk.console s' field' (by simp [hheld₀])⟩
    have hpair : ¬((box s').user = (box s).user ∧ (box s').device = (box s).device) :=
      fun hsame => hs (hk.distinct s' s hconnected' hconnected hsame)
    rw [hregistry, Roster.erase, if_neg hpair, hsocks]
  · intro s' hnext'
    by_cases hs : s' = s
    · subst hs
      exact absurd hnext hnext'
    · simpa [hs] using hk.active s' hnext'
  · intro s₁ s₂ h₁ h₂ hsame
    exact hk.distinct s₁ s₂ ⟨(hstill s₁ h₁.1).2, h₁.2⟩ ⟨(hstill s₂ h₂.1).2, h₂.2⟩ hsame

/-- A step of a session that is alone keeps the invariant. -/
theorem Sessions.Kept.step (hk : st.Kept box) (halone : Alone box st l)
    (h : st.step box l = some st') : st'.Kept box := by
  cases l with
  | exit s servers =>
      exact hk.exit h
  | connect s fd servers socket padding =>
      rcases Sessions.step_connect h with ⟨field, handled, hnext, hfd, hclosed, hres, rfl⟩
      cases hk.wellFormed.answered hres with
      | refused husers hreply =>
          rw [if_neg hreply, husers]
          exact hk.refused hnext hreply
      | acknowledged hreply hw hregistry hstored =>
          rw [hreply, if_pos rfl]
          exact hk.acknowledged hnext hfd hclosed halone hw hregistry hstored

omit [DecidableEq ι] in
theorem Sessions.kept_initial : (Sessions.initial ι).Kept box where
  wellFormed := wellFormed_initiate
  owned := owned_initiate _
  recorded := by
    intro s _ field fd hheld
    cases hheld
  console := by
    intro s field hheld
    exact absurd rfl hheld
  later := by
    intro s field hnext hfield
    cases hnext
    exact absurd rfl hfield
  active := fun _ _ => rfl
  distinct := by
    intro s s' h
    exact absurd rfl h.2

/-- A session that connects with the user and the device of another one takes over its first
descriptor. -/
theorem Sessions.Kept.alone_of_recorded (hk : st.Kept box) (h : st.step box l = some st')
    (hrecorded : st'.Recorded box) : Alone box st l := by
  cases l with
  | exit s servers =>
      trivial
  | connect s fd servers socket padding =>
      rcases Sessions.step_connect h with ⟨field, handled, hnext, hfd, hclosed, hres, rfl⟩
      intro s' hs hsame hconnected
      rcases Option.ne_none_iff_exists'.1 hconnected.2 with ⟨fd', hheld⟩
      rcases hk.recorded s' hconnected.1 .socket1 fd' hheld with ⟨_, socks, hsocks, hget⟩
      have hopen := (hk.all_recorded s' hconnected.1 .socket1 fd' hheld).2
      rw [hsame.1, hsame.2] at hsocks
      by_cases hfield : field = .socket1
      · subst hfield
        have hknown : registry st.users ((box s).request .socket1 socket padding).user
            ((box s).request .socket1 socket padding).device = some socks := hsocks
        cases hk.wellFormed.answered hres with
        | refused _ hreply =>
            exact hreply (hk.wellFormed.acknowledged_of_known hknown hres)
        | acknowledged hreply _ hregistry _ =>
            -- the entry now has the new descriptor
            have hafter := hrecorded s' hconnected.1 .socket1 fd'
              (by simp [hreply, Function.update_of_ne hs, hheld])
            rcases hafter.1 with ⟨socks', hsocks', hget'⟩
            rw [hsame.1, hsame.2, hregistry, Roster.put, if_pos ⟨rfl, rfl⟩] at hsocks'
            cases hsocks'
            rw [Sockets.get_record_socketType, if_pos rfl] at hget'
            rw [hget', hopen] at hclosed
            cases hclosed
      · -- the session that connects is connected itself
        have hself : st.Connected s :=
          ⟨hk.active s (by simp [hnext]), hk.later s field hnext hfield⟩
        exact hs (hk.distinct s' s hconnected hself hsame)

/-- While every session is alone, each acknowledged connection is recorded under its user, device
and type with its own descriptor, which is open, until its session exits; and the first session
that is not alone puts an end to that. -/
theorem recorded_iff_alone
    (h : Reaches (Sessions.step box) (Alone box) (Sessions.initial ι) st) :
    st.Recorded box ∧
      ∀ l st', st.step box l = some st' → (st'.Recorded box ↔ Alone box st l) := by
  have hk : st.Kept box :=
    h.invariant Sessions.kept_initial fun _ _ _ hk halone hl => hk.step halone hl
  refine ⟨hk.all_recorded, fun l st' hl => ⟨hk.alone_of_recorded hl, fun halone => ?_⟩⟩
  exact (hk.step halone hl).all_recorded

end Runs

/-- A session of user `a`. -/
def boxOfDevice (device : Int32) (hdrawn : 1 ≤ device ∧ device ≤ 10) : BoxSession where
  username := ⟨97 :: List.replicate 99 0, by simp⟩
  device := device
  drawn := hdrawn

/-- Two sessions that have drawn different ids. -/
def twoIds : Bool → BoxSession
  | false => boxOfDevice 1 (by decide)
  | true => boxOfDevice 2 (by decide)

/-- Two sessions that have drawn the same id. -/
def sameId : Bool → BoxSession :=
  fun _ => boxOfDevice 1 (by decide)

/-- Both sessions open their first connection. -/
def bothConnect : List (Event Bool) :=
  [.connect false 4 initiateBackupServerStructure 3 emptyPacket.padding,
    .connect true 5 initiateBackupServerStructure 3 emptyPacket.padding]

instance {ι : Type} [DecidableEq ι] [Fintype ι] (box : ι → BoxSession) (st : Sessions ι)
    (l : Event ι) : Decidable (Alone box st l) :=
  match l with
  | .connect s _ _ _ _ =>
      inferInstanceAs (Decidable (∀ s', s' ≠ s →
        ((box s').user = (box s).user ∧ (box s').device = (box s).device) →
          ¬(st.exited s' = false ∧ st.held s' .socket1 ≠ none)))
  | .exit _ _ => inferInstanceAs (Decidable True)

def twoIdsConnected : Sessions Bool :=
  (runWhile (Sessions.step twoIds) (Alone twoIds) (Sessions.initial Bool) bothConnect).get
    (by decide +kernel)

theorem recorded_iff_alone_twoIds :
    twoIdsConnected.held false .socket1 = some 4 ∧ twoIdsConnected.held true .socket1 = some 5 ∧
      twoIdsConnected.Recorded twoIds := by
  have hheld : twoIdsConnected.held false .socket1 = some 4 ∧
      twoIdsConnected.held true .socket1 = some 5 := by decide +kernel
  have hreached : Reaches (Sessions.step twoIds) (Alone twoIds) (Sessions.initial Bool)
      twoIdsConnected := Reaches.of_runWhile (Option.some_get _).symm
  exact ⟨hheld.1, hheld.2, (recorded_iff_alone hreached).1⟩

/-- Both sessions are acknowledged, and the descriptor of the first one is recorded no more. -/
theorem sameId_replaced :
    ∃ st, run (Sessions.step sameId) (Sessions.initial Bool) bothConnect = some st ∧
      st.held false .socket1 = some 4 ∧ st.held true .socket1 = some 5 ∧ ¬st.Recorded sameId := by
  have hrun : (run (Sessions.step sameId) (Sessions.initial Bool) bothConnect).map (fun st =>
      (st.held false .socket1, st.held true .socket1, st.exited false,
        (registry st.users (sameId false).user (sameId false).device).map Sockets.socket1)) =
      some (some 4, some 5, false, some 5) := by
    decide +kernel
  rcases Option.map_eq_some_iff.1 hrun with ⟨st, hst, hval⟩
  simp only [Prod.mk.injEq] at hval
  rcases hval with ⟨hfirst, hsecond, hactive, hregistry⟩
  refine ⟨st, hst, hfirst, hsecond, fun hrecorded => ?_⟩
  rcases (hrecorded false hactive .socket1 4 hfirst).1 with ⟨socks, hsocks, hget⟩
  rw [hsocks, Option.map_some] at hregistry
  have hfive : socks.socket1 = 5 := Option.some.inj hregistry
  have hfour : socks.socket1 = 4 := hget
  rw [hfive] at hfour
  exact absurd hfour (by decide)

end Server
end DropboxSimulator
