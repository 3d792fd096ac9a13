import DropboxSimulator.Server.Identity

/-!
# Openings — the three connections of a Box come together

`Box::open` opens three connections, one after another, and gives up only if the first one is
refused; what is answered to the other two it only prints.  In between, the server admits and
dismisses other sessions.  As long as each session is alone with its user and device, an entry that
the first connection was given cannot go away before the third: so a Box has all its connections or
none.
-/

namespace DropboxSimulator
namespace Server

open Library

/-- The order in which the connections are opened. -/
def SocketField.rank : SocketField → Nat
  | .socket1 => 0
  | .socket2 => 1
  | .socket3 => 2

section Openings

variable {ι : Type} [DecidableEq ι] {box : ι → BoxSession} {st st' : Sessions ι} {l : Event ι}
variable {s : ι} {field : SocketField}

/-- A session holds the connections before the one it opens next, and in the end all or none. -/
def Sessions.Filled (st : Sessions ι) (s : ι) : Prop :=
  match st.next s with
  | some field => ∀ field', st.held s field' ≠ none ↔ field'.rank < field.rank
  | none => (∀ field, st.held s field = none) ∨ ∀ field, st.held s field ≠ none

omit [DecidableEq ι] in
theorem Sessions.Filled.congr (h : st.Filled s) (hnext : st'.next s = st.next s)
    (hheld : st'.held s = st.held s) : st'.Filled s := by
  unfold Sessions.Filled at h ⊢
  rwa [hnext, hheld]

omit [DecidableEq ι] in
/-- The later connections of a session that is alone are not refused. -/
theorem Sessions.Kept.first_of_refused (hk : st.Kept box) (hnext : st.next s = some field)
    {servers : BackupServers} {socket fd : Int32} {padding : CharArray 4} {handled : Handled}
    (hres : handleUserControllerStructure st.users servers
      ((box s).request field socket padding) fd = some handled)
    (hreply : handled.reply ≠ some .ack) : field = .socket1 := by
  by_contra hfield
  have hfirst := hk.later s field hnext hfield
  obtain ⟨fd₁, hheld⟩ := Option.ne_none_iff_exists'.1 hfirst
  have hactive : st.exited s = false := hk.active s (by simp [hnext])
  -- the first connection has left an entry, and the server knows the device by it
  obtain ⟨_, socks, hknown, _⟩ := hk.recorded s hactive .socket1 fd₁ hheld
  have hknown' : registry st.users ((box s).request field socket padding).user
      ((box s).request field socket padding).device = some socks := hknown
  exact hreply (hk.wellFormed.acknowledged_of_known hknown' hres)

omit [DecidableEq ι] in
/-- What an acknowledged connection adds. -/
theorem Sessions.Filled.acknowledged (h : st.Filled s) (hnext : st.next s = some field) (fd : Int32)
    (hnext' : st'.next s = field.following (some .ack))
    (hheld' : st'.held s = Function.update (st.held s) field (some fd)) : st'.Filled s := by
  unfold Sessions.Filled at h ⊢
  rw [hnext] at h
  rw [hnext', hheld']
  cases field with
  | socket1 =>
      intro field'
      cases field' <;> simp [SocketField.rank, h]
  | socket2 =>
      intro field'
      cases field' <;> simp [SocketField.rank, h]
  | socket3 =>
      refine Or.inr fun field' => ?_
      cases field' <;> simp [SocketField.rank, h]

/-- A step of a session that is alone keeps every session filled. -/
theorem Sessions.Filled.step (hk : st.Kept box) (h : st.Filled s)
    (hl : st.step box l = some st') : st'.Filled s := by
  cases l with
  | exit s' servers =>
      rcases Sessions.step_exit hl with ⟨fd, exited, _, _, _, _, rfl⟩
      exact h.congr rfl rfl
  | connect s' fd servers socket padding =>
      rcases Sessions.step_connect hl with ⟨field, handled, hnext, hfd, hclosed, hres, rfl⟩
      by_cases hs : s = s'
      · subst hs
        by_cases hreply : handled.reply = some .ack
        · exact h.acknowledged hnext fd (by simp [hreply]) (by simp [hreply])
        · obtain rfl : field = .socket1 := hk.first_of_refused hnext hres hreply
          unfold Sessions.Filled at h ⊢
          rw [hnext] at h
          simp only [Function.update_self, SocketField.following, if_neg hreply]
          refine Or.inl fun field' => ?_
          simpa [SocketField.rank] using h field'
      · refine h.congr (by simp [hs]) ?_
        dsimp only
        split
        · simp [hs]
        · rfl

/-- While every session is alone, a Box that has gone through its opening holds no connection, or
all three, in one entry of the table for its user and device; the others come and go as they
like. -/
theorem opens_all_or_none
    (h : Reaches (Sessions.step box) (Alone box) (Sessions.initial ι) st)
    (hopened : st.next s = none) :
    (∀ field, st.held s field = none) ∨
      (∀ field, st.held s field ≠ none) ∧
        (st.exited s = false → ∃ socks,
          registry st.users (box s).user (box s).device = some socks ∧
            ∀ field, st.held s field = some (socks.get field) ∧
              st.opened (socks.get field) = true) := by
  have hboth : st.Kept box ∧ st.Filled s := by
    refine h.invariant (P := fun st => st.Kept box ∧ st.Filled s)
      ⟨Sessions.kept_initial, ?_⟩ fun _ _ _ hboth halone hl => ?_
    · intro field'
      simp [Sessions.initial, SocketField.rank]
    · exact ⟨hboth.1.step halone hl, hboth.2.step hboth.1 hl⟩
  have hfilled := hboth.2
  unfold Sessions.Filled at hfilled
  rw [hopened] at hfilled
  refine hfilled.imp_right fun hall => ⟨hall, fun hactive => ?_⟩
  obtain ⟨fd₁, hfirst⟩ := Option.ne_none_iff_exists'.1 (hall .socket1)
  obtain ⟨_, socks, hsocks, _⟩ := hboth.1.recorded s hactive .socket1 fd₁ hfirst
  refine ⟨socks, hsocks, fun field => ?_⟩
  obtain ⟨fd, hheld⟩ := Option.ne_none_iff_exists'.1 (hall field)
  obtain ⟨⟨socks', hsocks', hget⟩, hopen⟩ := hboth.1.all_recorded s hactive field fd hheld
  obtain rfl : socks = socks' := Option.some.inj (hsocks.symm.trans hsocks')
  exact ⟨by rw [hheld, hget], by rw [hget, hopen]⟩

end Openings

/-- Two sessions that open their connections in turn. -/
def bothOpen : List (Event Bool) :=
  [.connect false 4 initiateBackupServerStructure 3 emptyPacket.padding,
    .connect true 5 initiateBackupServerStructure 3 emptyPacket.padding,
    .connect true 6 initiateBackupServerStructure 4 emptyPacket.padding,
    .connect false 7 initiateBackupServerStructure 4 emptyPacket.padding,
    .connect false 8 initiateBackupServerStructure 5 emptyPacket.padding,
    .connect true 9 initiateBackupServerStructure 5 emptyPacket.padding]

def twoIdsOpened : Sessions Bool :=
  (runWhile (Sessions.step twoIds) (Alone twoIds) (Sessions.initial Bool) bothOpen).get
    (by decide +kernel)

theorem opens_all_or_none_twoIds :
    ∃ socks, registry twoIdsOpened.users (twoIds true).user (twoIds true).device = some socks ∧
      ∀ field, twoIdsOpened.held true field = some (socks.get field) ∧
        twoIdsOpened.opened (socks.get field) = true := by
  have hreached : Reaches (Sessions.step twoIds) (Alone twoIds) (Sessions.initial Bool)
      twoIdsOpened := Reaches.of_runWhile (Option.some_get _).symm
  have hopened : twoIdsOpened.next true = none := by decide +kernel
  have hheld : twoIdsOpened.held true .socket1 ≠ none := by decide +kernel
  have hactive : twoIdsOpened.exited true = false := by decide +kernel
  rcases opens_all_or_none hreached hopened with hnone | ⟨_, hall⟩
  · exact absurd (hnone .socket1) hheld
  · exact hall hactive

end Server
end DropboxSimulator
