import DropboxSimulator.Client.Commands
import DropboxSimulator.Client.Download

/-!
# MissingFile — a download of a file that is not there or is empty

For such a file `downloadFile` ends after the size, and the server does not answer alike.  Where
there is no file it sends six bytes of fresh memory and goes back to its commands.  Where the file
is empty it sends the size and then waits for two acknowledgements, which it takes out of the next
command of the client.

The client tells that there is no content by the sign of eight bytes, of which it may have read
only a part: the answer of six bytes, and what is left of either answer when five bytes of it were
taken for the acknowledgement of the request.
-/

namespace DropboxSimulator
namespace Client

open Library
open Server (Executed LoopState ServeState Storage completePath serve ackBytes_ne_nil)

/-! ## A client that goes on -/

/-- `sendExitCommand`. -/
def sendExitCommand (stale : CommandPacket) : List Action :=
  let command := { stale with packetType := packetCmd, command := cmdExit }
  sendLargePayloadToSocket command.bytes ++ [waitForSocketAck]

/-- A command that follows on the same connection, with what the stack holds before it. -/
inductive FollowUp
  | command (stale : CommandPacket) (c : ClientCommand) (valid : c.Valid)
  | download (stale : CommandPacket) (buffers : ReceiveBuffers) (fileName : Bytes)
      (fits : fileName.length < 100)
  | exit (stale : CommandPacket)

/-- Where a client stands that downloads a file and goes on with commands. -/
inductive ConsoleState
  | first (s : DownloadState)
  | script (acts : List Action) (rest : List FollowUp)
  | download (buffers : ReceiveBuffers) (s : DownloadState) (rest : List FollowUp)

namespace ConsoleState

/-- The client begins with the first of the commands. -/
def resume : List FollowUp → ConsoleState
  | [] => .script [] []
  | .command stale c _ :: rest => .script (c.actions stale) rest
  | .download stale buffers fileName _ :: rest =>
      .download buffers (askForFile stale fileName) rest
  | .exit stale :: rest => .script (sendExitCommand stale) rest

def afterScript (rest : List FollowUp) : List Action → ConsoleState
  | [] => resume rest
  | acts => .script acts rest

def afterDownload (k : DownloadState → ConsoleState) (rest : List FollowUp) :
    DownloadState → ConsoleState
  | .ended => resume rest
  | s => k s

/-- The client is still in its first download. -/
def IsFirst : ConsoleState → Prop
  | .first _ => True
  | _ => False

/-- The first download has not come to its branch with content. -/
def Declining : ConsoleState → Prop
  | .first (.request _) | .first .size | .first .ended => True
  | .first _ => False
  | _ => True

end ConsoleState

/-- A connection between the command loop and such a client. -/
abbrev Downloading := Duplex ServeState ConsoleState (Executed ⊕ Downloaded)

/-- The download, and then the commands one after another. -/
def console (buffers : ReceiveBuffers) (commands : List FollowUp) :
    ConsoleState → Request ConsoleState (Executed ⊕ Downloaded)
  | .first s => (downloadFile buffers s).map (.afterDownload .first commands) id
  | .script acts rest => (script acts).map (.afterScript rest) id
  | .download buffers s rest =>
      (downloadFile buffers s).map (.afterDownload (fun s => .download buffers s rest) rest) id

/-- A name under which the server has no content. -/
structure NoContent (storage : Storage) (userName : Bytes) where
  fileName : Bytes
  length_name : fileName.length < 100
  bytes_name : ∀ b ∈ fileName, b ≠ 0
  files : storage.files (completePath userName fileName) = none ∨
    storage.files (completePath userName fileName) = some []

/-- Both sides before the request. -/
def asking (stale : CommandPacket) (fileName : Bytes) : Downloading :=
  Duplex.start (.loop (.command [])) (.first (askForFile stale fileName))

/-- The size that is decoded when only these bytes of it have been read. -/
def decoded (buffers : ReceiveBuffers) (arrived : Bytes) : Int :=
  int64OfBytes (readDataFromSocket buffers.fileSizeBuffer.val arrived)

/-- When the server has read the first packet and bytes of the next one are there, it is about to
read a command. -/
def Aligned (w : Downloading) : Prop :=
  w.toLeft.writes.flatten.length = commandPacketSize + w.toLeft.unread.length →
    w.toLeft.unread ≠ [] → w.left = .loop (.command [])

section Downloads

variable (loopBuffers : Server.Buffers) (buffers : ReceiveBuffers) (storage : Storage)
variable (userName : Bytes) (stale : CommandPacket)

/-- In every order of the steps the download comes to its end within a number of steps, without
taking the branch with content, and the server reads the next command from its first byte. -/
def Declines (file : NoContent storage userName) (commands : List FollowUp) : Prop :=
  ∃ bound, ∀ sides w,
    run (Duplex.step (serve loopBuffers storage userName) (console buffers commands))
      (asking stale file.fileName) sides = some w →
    (w.right.IsFirst → sides.length ≤ bound) ∧
      (w.Stuck (serve loopBuffers storage userName) (console buffers commands) →
        ¬w.right.IsFirst) ∧
      w.right.Declining ∧ Aligned w

/-- The bytes of the answer decode to no content, however they are read; and behind an empty file,
whose size is answered as if content followed, no command comes. -/
def Understood (file : NoContent storage userName) (commands : List FollowUp) : Prop :=
  match storage.files (completePath userName file.fileName) with
  | none =>
      decoded buffers storage.notDownloadedMessage.val ≤ 0 ∧
        decoded buffers (storage.notDownloadedMessage.val.drop 5) ≤ 0
  | some _ => decoded buffers [0, 0, 0] ≤ 0 ∧ commands = []

end Downloads

/-! ## The exchange -/

section Exchange

variable {loopBuffers : Server.Buffers} {buffers : ReceiveBuffers} {storage : Storage}
variable {userName : Bytes} {commands : List FollowUp}

theorem console_request (c : Bytes) (pending : List Bytes) :
    console buffers commands (.first (.request (c :: pending))) =
      .write c (.first (.request pending)) := by
  rfl

theorem console_requested :
    console buffers commands (.first (.request [])) = .read 8 fun _ => .first .size := by
  rfl

theorem console_size :
    console buffers commands (.first .size) = .read 8 fun bs =>
      .afterDownload .first commands
        (.sized (readDataFromSocket buffers.fileSizeBuffer.val bs)) := by
  rfl

/-- How the server `p` answers a request: it acknowledges the packet it has read, writes its reply
and waits. -/
structure Answer (p : ServeState → Request ServeState (Executed ⊕ Downloaded))
    (read asked : ServeState) (reply : Bytes) (waits : ServeState) : Prop where
  acks : p read = .write ackBytes asked
  replies : p asked = .write reply waits
  waits : (p waits).perform [] = none
  length_reply : 5 < reply.length ∧ reply.length ≤ 8

/-- The server has read just the packet of the request. -/
structure ReadOne (w : Downloading) : Prop where
  unread : w.toLeft.unread = []
  length_writes : w.toLeft.writes.flatten.length = commandPacketSize

/-- Where the two are in the exchange, with the number of steps to come. -/
inductive Phase (p : ServeState → Request ServeState (Executed ⊕ Downloaded))
    (read asked : ServeState) (reply : Bytes) (waits : ServeState) : Nat → Downloading → Prop
  /-- the packet is on its way -/
  | asking {m : Nat} {ahead pending : List Bytes} {w : Downloading}
      (hright : w.right = .first (.request pending))
      (hlength : w.toLeft.writes.flatten.length + pending.flatten.length = commandPacketSize)
      (hunread : w.toLeft.unread = ahead.flatten) (hnone : w.toRight.unread = [])
      (htakes : Takes p (fun _ => false) m w.left (ahead ++ pending) [] [] read) :
      Phase p read asked reply waits (m + pending.length + 4) w
  /-- the packet has been acknowledged -/
  | acked {w : Downloading} (hread : ReadOne w) (hleft : w.left = asked)
      (hright : w.right = .first (.request [])) (hunread : w.toRight.unread = ackBytes) :
      Phase p read asked reply waits 3 w
  /-- the client has read the acknowledgement on its own -/
  | heard {w : Downloading} (hread : ReadOne w) (hleft : w.left = asked)
      (hright : w.right = .first .size) (hunread : w.toRight.unread = []) :
      Phase p read asked reply waits 2 w
  /-- the reply is behind the acknowledgement -/
  | replied {w : Downloading} (hread : ReadOne w) (hleft : w.left = waits)
      (hright : w.right = .first (.request [])) (hunread : w.toRight.unread = ackBytes ++ reply) :
      Phase p read asked reply waits 2 w
  /-- all or what is left of the reply is there -/
  | sizing {w : Downloading} (hread : ReadOne w) (hleft : w.left = waits)
      (hright : w.right = .first .size)
      (hunread : w.toRight.unread = reply ∨ w.toRight.unread = reply.drop 5) :
      Phase p read asked reply waits 1 w

/-- The client has decoded a size from the bytes it read. -/
structure Sized (buffers : ReceiveBuffers) (commands : List FollowUp) (waits : ServeState)
    (arrived : Bytes) (w : Downloading) : Prop extends ReadOne w where
  left : w.left = waits
  right : w.right = .afterDownload .first commands
    (.sized (readDataFromSocket buffers.fileSizeBuffer.val arrived))

variable {p : ServeState → Request ServeState (Executed ⊕ Downloaded)}
variable {read asked waits : ServeState} {reply : Bytes}
variable {w w' : Downloading} {n : Nat} {side : Side}

theorem ReadOne.of_toLeft (h : ReadOne w) (hto : w'.toLeft = w.toLeft) : ReadOne w' := by
  rcases h with ⟨hunread, hlength⟩
  exact ⟨by rw [hto, hunread], by rw [hto, hlength]⟩

/-- What the client finds of the reply fits the size. -/
theorem Answer.length_arrived (ha : Answer p read asked reply waits) {arrived : Bytes}
    (h : arrived = reply ∨ arrived = reply.drop 5) : 0 < arrived.length ∧ arrived.length ≤ 8 := by
  have hreply := ha.length_reply
  rcases h with rfl | rfl
  · omega
  · rw [List.length_drop]
    omega

/-- A step of the server in the exchange. -/
theorem Phase.step_left (ha : Answer p read asked reply waits)
    (h : Phase p read asked reply waits n w)
    (hstep : w.step p (console buffers commands) .left = some w') :
    ∃ n', n = n' + 1 ∧ Phase p read asked reply waits n' w' := by
  rcases Option.map_eq_some_iff.1 hstep with ⟨move, hmove, rfl⟩
  cases h with
  | @asking m ahead pending _ hright hlength hunread hnone htakes =>
      rw [hunread] at hmove
      rcases htakes.of_perform_ahead hmove with
        ⟨rfl, hleft, rfl, rfl⟩ | ⟨m', ahead', es', ws', rfl, hrest, hes, hws, htakes'⟩
      · -- the packet has been read, and the acknowledgement is written
        rw [hleft, ha.acks] at hmove
        cases hmove
        exact ⟨3, rfl, .acked ⟨rfl, by simpa using hlength⟩ rfl hright
          (by simp [Pipe.write, hnone])⟩
      · rcases List.append_eq_nil_iff.1 hes.symm with ⟨hnoted, rfl⟩
        rcases List.append_eq_nil_iff.1 hws.symm with ⟨hwritten, rfl⟩
        refine ⟨m' + pending.length + 4, by omega, ?_⟩
        exact .asking hright hlength hrest (by simpa [Pipe.write, hwritten] using hnone) htakes'
  | acked hread hleft hright hunread =>
      rw [hleft, ha.replies] at hmove
      cases hmove
      exact ⟨2, rfl, .replied ⟨hread.unread, hread.length_writes⟩ rfl hright
        (by simp [Pipe.write, hunread])⟩
  | heard hread hleft hright hunread =>
      rw [hleft, ha.replies] at hmove
      cases hmove
      exact ⟨1, rfl, .sizing ⟨hread.unread, hread.length_writes⟩ rfl hright
        (Or.inl (by simp [Pipe.write, hunread]))⟩
  | replied hread hleft hright hunread =>
      rw [hleft, hread.unread, ha.waits] at hmove
      cases hmove
  | sizing hread hleft hright hunread =>
      rw [hleft, hread.unread, ha.waits] at hmove
      cases hmove

/-- A step of the client in the exchange; with the last one it has decoded a size. -/
theorem Phase.step_right (ha : Answer p read asked reply waits)
    (h : Phase p read asked reply waits n w)
    (hstep : w.step p (console buffers commands) .right = some w') :
    (∃ n', n = n' + 1 ∧ Phase p read asked reply waits n' w') ∨
      ∃ arrived, (arrived = reply ∨ arrived = reply.drop 5) ∧
        Sized buffers commands waits arrived w' := by
  rcases Option.map_eq_some_iff.1 hstep with ⟨move, hmove, rfl⟩
  cases h with
  | @asking m ahead pending _ hright hlength hunread hnone htakes =>
      rw [hright, hnone] at hmove
      cases pending with
      | nil =>
          cases hmove
      | cons c pending =>
          cases hmove
          have hahead :
              Takes p (fun _ => false) m w.left ((ahead ++ [c]) ++ pending) [] [] read := by
            simpa using htakes
          refine Or.inl ⟨m + pending.length + 4, by simp; omega, .asking rfl ?_ ?_ rfl hahead⟩
          · rw [Pipe.flatten_write]
            simp at hlength ⊢
            omega
          · simp [Pipe.write, hunread]
  | acked hread hleft hright hunread =>
      rw [hright, hunread] at hmove
      cases hmove
      exact Or.inl ⟨2, rfl, .heard (hread.of_toLeft (Pipe.write_nil _)) hleft rfl rfl⟩
  | heard hread hleft hright hunread =>
      rw [hright, hunread] at hmove
      cases hmove
  | replied hread hleft hright hunread =>
      rw [hright, hunread, console_requested] at hmove
      cases hmove
      -- five bytes of the reply are taken with the acknowledgement
      exact Or.inl ⟨1, rfl, .sizing (hread.of_toLeft (Pipe.write_nil _)) hleft rfl (Or.inr rfl)⟩
  | sizing hread hleft hright hunread =>
      have hlength := ha.length_arrived hunread
      have hne : w.toRight.unread ≠ [] := List.length_pos_iff.1 hlength.1
      rw [hright, console_size, Request.perform, if_neg (by norm_num), if_neg hne,
        List.take_of_length_le hlength.2, Option.some.injEq] at hmove
      subst hmove
      refine Or.inr ⟨w.toRight.unread, hunread, hread.of_toLeft (Pipe.write_nil _), hleft, ?_⟩
      dsimp only

/-- In the exchange one of the two can go on. -/
theorem Phase.not_stuck (ha : Answer p read asked reply waits)
    (h : Phase p read asked reply waits n w) : ¬w.Stuck p (console buffers commands) := by
  rintro ⟨hleft', hright'⟩
  have hleft' := Option.map_eq_none_iff.1 hleft'
  have hright' := Option.map_eq_none_iff.1 hright'
  cases h with
  | @asking m ahead pending _ hright hlength hunread hnone htakes =>
      cases pending with
      | nil =>
          rw [List.append_nil] at htakes
          rw [hunread] at hleft'
          rw [(htakes.of_stuck hleft').1, ha.acks] at hleft'
          cases hleft'
      | cons c pending =>
          rw [hright] at hright'
          cases hright'
  | acked hread hleft hright hunread =>
      rw [hleft, ha.replies] at hleft'
      cases hleft'
  | heard hread hleft hright hunread =>
      rw [hleft, ha.replies] at hleft'
      cases hleft'
  | replied hread hleft hright hunread =>
      rw [hright, hunread] at hright'
      cases hright'
  | sizing hread hleft hright hunread =>
      have hne : w.toRight.unread ≠ [] := List.length_pos_iff.1 (ha.length_arrived hunread).1
      rw [hright, console_size, Request.perform, if_neg (by norm_num), if_neg hne] at hright'
      cases hright'

end Exchange

/-! ## After the exchange -/

section After

variable {buffers : ReceiveBuffers} {commands : List FollowUp}
variable {p : ServeState → Request ServeState (Executed ⊕ Downloaded)}
variable {waits : ServeState} {w w' : Downloading} {side : Side}

/-- A client that goes on with its commands does not come back to the first download. -/
theorem not_isFirst_resume (rest : List FollowUp) : ¬(ConsoleState.resume rest).IsFirst := by
  cases rest with
  | nil =>
      exact id
  | cons c rest =>
      cases c <;> exact id

theorem not_isFirst_afterScript (rest : List FollowUp) (acts : List Action) :
    ¬(ConsoleState.afterScript rest acts).IsFirst := by
  cases acts with
  | nil =>
      exact not_isFirst_resume rest
  | cons a acts =>
      exact id

theorem not_isFirst_afterDownload (k : DownloadState → ConsoleState) (hk : ∀ s, ¬(k s).IsFirst)
    (rest : List FollowUp) (s : DownloadState) :
    ¬(ConsoleState.afterDownload k rest s).IsFirst := by
  cases s with
  | ended =>
      exact not_isFirst_resume rest
  | _ =>
      exact hk _

theorem not_isFirst_step {s : ConsoleState} {unread : Bytes}
    {move : Move ConsoleState (Executed ⊕ Downloaded)} (hs : ¬s.IsFirst)
    (h : (console buffers commands s).perform unread = some move) : ¬move.state.IsFirst := by
  cases s with
  | first s =>
      exact absurd trivial hs
  | script acts rest =>
      rcases Request.state_of_perform_map h with ⟨acts', hstate⟩
      rw [hstate]
      exact not_isFirst_afterScript rest acts'
  | download buffers s rest =>
      rcases Request.state_of_perform_map h with ⟨s', hstate⟩
      rw [hstate]
      exact not_isFirst_afterDownload _ (fun _ => id) rest s'

/-- The first download has ended.  The server has not read on and is about to read a command, or it
has read on; or there is nothing more to come. -/
inductive Settled (p : ServeState → Request ServeState (Executed ⊕ Downloaded))
    (w : Downloading) : Prop
  | about (hright : ¬w.right.IsFirst) (hleft : w.left = .loop (.command []))
      (hlength : w.toLeft.writes.flatten.length = commandPacketSize + w.toLeft.unread.length)
  | beyond (hright : ¬w.right.IsFirst)
      (hlength : commandPacketSize + w.toLeft.unread.length < w.toLeft.writes.flatten.length)
  | through (hright : w.right = .script [] []) (hunread : w.toLeft.unread = [])
      (hwaits : (p w.left).perform [] = none)

theorem Settled.not_isFirst (h : Settled p w) : ¬w.right.IsFirst := by
  cases h with
  | about hright hleft hlength =>
      exact hright
  | beyond hright hlength =>
      exact hright
  | through hright hunread hwaits =>
      rw [hright]
      exact id

theorem Settled.aligned (h : Settled p w) : Aligned w := by
  intro hread hnext
  cases h with
  | about hright hleft hlength =>
      exact hleft
  | beyond hright hlength =>
      omega
  | through hright hunread hwaits =>
      exact absurd hunread hnext

theorem ConsoleState.declining_of_not_isFirst {s : ConsoleState} (h : ¬s.IsFirst) :
    s.Declining := by
  cases s with
  | first s =>
      exact absurd trivial h
  | script acts rest =>
      trivial
  | download buffers s rest =>
      trivial

theorem Settled.step_right (h : Settled p w)
    (hstep : w.step p (console buffers commands) .right = some w') : Settled p w' := by
  rcases Option.map_eq_some_iff.1 hstep with ⟨move, hmove, rfl⟩
  cases h with
  | about hright hleft hlength =>
      refine .about (not_isFirst_step hright hmove) hleft ?_
      rw [Pipe.flatten_write, Pipe.write]
      simp only [List.length_append]
      omega
  | beyond hright hlength =>
      refine .beyond (not_isFirst_step hright hmove) ?_
      rw [Pipe.flatten_write, Pipe.write]
      simp only [List.length_append]
      omega
  | through hright hunread hwaits =>
      rw [hright] at hmove
      cases hmove

/-- A step of the server, which begins the next command with a read of four bytes. -/
theorem Settled.step_left {k : Bytes → ServeState} (hp : p (.loop (.command [])) = .read 4 k)
    (h : Settled p w) (hstep : w.step p (console buffers commands) .left = some w') :
    Settled p w' := by
  rcases Option.map_eq_some_iff.1 hstep with ⟨move, hmove, rfl⟩
  cases h with
  | about hright hleft hlength =>
      -- what it finds it reads
      rw [hleft, hp, Request.perform, if_neg (by norm_num)] at hmove
      split at hmove
      · cases hmove
      · next hne =>
          cases hmove
          have hpos : 0 < w.toLeft.unread.length := List.length_pos_iff.2 hne
          refine .beyond hright ?_
          simp only [List.length_drop]
          omega
  | beyond hright hlength =>
      have hle := Request.length_unread_of_perform hmove
      exact .beyond hright (by simp only; omega)
  | through hright hunread hwaits =>
      rw [hunread, hwaits] at hmove
      cases hmove

/-- A size that is not positive ends the download. -/
theorem sized_of_decoded {arrived : Bytes} (h : decoded buffers arrived ≤ 0) :
    DownloadState.sized (readDataFromSocket buffers.fileSizeBuffer.val arrived) = .ended := by
  rw [DownloadState.sized]
  exact if_pos h

theorem not_declining_of_decoded (commands : List FollowUp) {arrived : Bytes}
    (h : 0 < decoded buffers arrived) :
    ¬(ConsoleState.afterDownload .first commands
      (.sized (readDataFromSocket buffers.fileSizeBuffer.val arrived))).Declining := by
  rw [DownloadState.sized, if_neg (by simpa [decoded] using h)]
  exact id

/-- A size that is understood ends the download as it should. -/
theorem Sized.settled {arrived : Bytes} (h : Sized buffers commands waits arrived w)
    (hdecoded : decoded buffers arrived ≤ 0) (hwaits : (p waits).perform [] = none)
    (hnext : waits = .loop (.command []) ∨ commands = []) : Settled p w := by
  have hright : w.right = .resume commands := by
    rw [h.right, sized_of_decoded hdecoded]
    rfl
  rcases hnext with hcommand | hcommands
  · refine .about ?_ (h.left.trans hcommand) ?_
    · rw [hright]
      exact not_isFirst_resume commands
    · rw [h.length_writes, h.unread]
      rfl
  · refine .through ?_ h.unread ?_
    · rw [hright, hcommands]
      rfl
    · rw [h.left]
      exact hwaits

end After

/-! ## Runs that read the reply in both ways -/

section Runs

variable (buffers : ReceiveBuffers) (commands : List FollowUp)
variable {p : ServeState → Request ServeState (Executed ⊕ Downloaded)}
variable {read asked waits : ServeState} {reply : Bytes} {w : Downloading}

/-- The client reads what is there of the reply. -/
theorem exists_sized (ha : Answer p read asked reply waits) (hread : ReadOne w)
    (hleft : w.left = waits) (hright : w.right = .first .size)
    (hunread : w.toRight.unread = reply ∨ w.toRight.unread = reply.drop 5) :
    ∃ w', w.step p (console buffers commands) .right = some w' ∧
      Sized buffers commands waits w.toRight.unread w' := by
  have hlength := ha.length_arrived hunread
  have hsize := (congrArg (console buffers commands) hright).trans console_size
  rcases Duplex.exists_step_right (p := p) hsize (by norm_num)
      (List.length_pos_iff.1 hlength.1) with ⟨w', hstep, hleft', hright', hto, _⟩
  refine ⟨w', hstep, ⟨hread.of_toLeft hto, hleft'.trans hleft, ?_⟩⟩
  rw [hright', List.take_of_length_le hlength.2]

/-- The acknowledgement is read before the reply is written. -/
theorem run_apart (ha : Answer p read asked reply waits) (hread : ReadOne w) (hleft : w.left = read)
    (hright : w.right = .first (.request [])) (hnone : w.toRight.unread = []) :
    ∃ w', run (Duplex.step p (console buffers commands)) w [.left, .right, .left, .right] =
      some w' ∧ Sized buffers commands waits reply w' := by
  rcases Duplex.exists_step_left (q := console buffers commands)
      ((congrArg p hleft).trans ha.acks) with ⟨w₁, h₁, hleft₁, hright₁, hto₁, hunread₁⟩
  have hack : w₁.toRight.unread = ackBytes := by simpa [hnone] using hunread₁
  have hrequested := (congrArg (console buffers commands) (hright₁.trans hright)).trans
    console_requested
  rcases Duplex.exists_step_right (p := p) hrequested (by norm_num)
      (by rw [hack]; exact ackBytes_ne_nil) with ⟨w₂, h₂, hleft₂, hright₂, hto₂, hunread₂⟩
  have hnone₂ : w₂.toRight.unread = [] := by
    rw [hunread₂, hack]
    rfl
  rcases Duplex.exists_step_left (q := console buffers commands)
      ((congrArg p (hleft₂.trans hleft₁)).trans ha.replies) with
    ⟨w₃, h₃, hleft₃, hright₃, hto₃, hunread₃⟩
  have hreply : w₃.toRight.unread = reply := by simpa [hnone₂] using hunread₃
  have hto : w₃.toLeft = w.toLeft := (hto₃.trans hto₂).trans hto₁
  have hread₃ := hread.of_toLeft hto
  rcases exists_sized buffers commands ha hread₃ hleft₃ (hright₃.trans hright₂)
    (Or.inl hreply) with ⟨w₄, h₄, hsized⟩
  rw [hreply] at hsized
  refine ⟨w₄, ?_, hsized⟩
  simp only [run_cons, h₁, h₂, h₃, h₄, Option.bind_some]
  rfl

/-- The reply is there before the acknowledgement is read, with five bytes of it. -/
theorem run_together (ha : Answer p read asked reply waits) (hread : ReadOne w)
    (hleft : w.left = read) (hright : w.right = .first (.request []))
    (hnone : w.toRight.unread = []) :
    ∃ w', run (Duplex.step p (console buffers commands)) w [.left, .left, .right, .right] =
      some w' ∧ Sized buffers commands waits (reply.drop 5) w' := by
  rcases Duplex.exists_step_left (q := console buffers commands)
      ((congrArg p hleft).trans ha.acks) with ⟨w₁, h₁, hleft₁, hright₁, hto₁, hunread₁⟩
  rcases Duplex.exists_step_left (q := console buffers commands)
      ((congrArg p hleft₁).trans ha.replies) with ⟨w₂, h₂, hleft₂, hright₂, hto₂, hunread₂⟩
  have hboth : w₂.toRight.unread = ackBytes ++ reply := by
    simpa [hunread₁, hnone] using hunread₂
  have hrequested := (congrArg (console buffers commands)
    ((hright₂.trans hright₁).trans hright)).trans console_requested
  rcases Duplex.exists_step_right (p := p) hrequested (by norm_num)
      (by rw [hboth]; simp [ackBytes]) with ⟨w₃, h₃, hleft₃, hright₃, hto₃, hunread₃⟩
  have hrest : w₃.toRight.unread = reply.drop 5 := by
    rw [hunread₃, hboth]
    rfl
  have hto : w₃.toLeft = w.toLeft := (hto₃.trans hto₂).trans hto₁
  have hread₃ := hread.of_toLeft hto
  rcases exists_sized buffers commands ha hread₃ (hleft₃.trans hleft₂) hright₃
    (Or.inr hrest) with ⟨w₄, h₄, hsized⟩
  rw [hrest] at hsized
  refine ⟨w₄, ?_, hsized⟩
  simp only [run_cons, h₁, h₂, h₃, h₄, Option.bind_some]
  rfl

/-- The request is written and read before anything else. -/
theorem run_request {w : Downloading} {m : Nat} {pending : List Bytes}
    (hright : w.right = .first (.request pending)) (hto : w.toLeft = .empty)
    (hnone : w.toRight = .empty) (hlength : pending.flatten.length = commandPacketSize)
    (htakes : Takes p (fun _ => false) m w.left pending [] [] read) :
    ∃ sides w', run (Duplex.step p (console buffers commands)) w sides = some w' ∧ ReadOne w' ∧
      w'.left = read ∧ w'.right = .first (.request []) ∧ w'.toRight.unread = [] := by
  have hwritten := run_right_writes (p := p) (q := console buffers commands)
    (k := fun pending => .first (.request pending)) console_request hright
  have hread := Takes.run_left (q := console buffers commands)
    (w := { w with right := .first (.request []), toLeft := w.toLeft.write pending }) htakes
    (by simp [hto, Pipe.empty, Pipe.write])
  have hrun := congrArg (fun o => o.bind fun w =>
    run (Duplex.step p (console buffers commands)) w (List.replicate m .left)) hwritten
  rw [← run_append, Option.bind_some, hread] at hrun
  refine ⟨_, _, hrun, ⟨rfl, ?_⟩, rfl, rfl, ?_⟩
  · dsimp only
    rw [Pipe.flatten_write, hto]
    simpa [Pipe.empty] using hlength
  · simp [hnone, Pipe.empty]

end Runs

/-! ## The answers of the server -/

section Answers

variable {loopBuffers : Server.Buffers} {buffers : ReceiveBuffers} {storage : Storage}
variable {userName : Bytes} {stale : CommandPacket} {info : CharArray 100}

/-- The reply of the server, and where it waits after it. -/
def replyTo (storage : Storage) (userName fileName : Bytes) : Bytes × ServeState :=
  match storage.files (completePath userName fileName) with
  | some fileContent =>
      (uint64Bytes (UInt64.ofNat fileContent.length), .sizeAck fileContent)
  | none => (storage.notDownloadedMessage.val, .loop (.command []))

theorem answer_serve (loopBuffers : Server.Buffers) (storage : Storage) (userName : Bytes)
    (stale : CommandPacket) (info : CharArray 100) :
    Answer (serve loopBuffers storage userName)
      (.loop (.commandAck (Server.fillPacket stale cmdDownload info).bytes))
      (.loop (.download info.string)) (replyTo storage userName info.string).1
      (replyTo storage userName info.string).2 where
  acks := by
    have hdispatch : LoopState.dispatch (Server.fillPacket stale cmdDownload info).bytes =
        .download info.string := by
      simp only [LoopState.dispatch, CommandPacket.length_bytes, dif_pos,
        CommandPacket.ofBytes_bytes]
      rfl
    rw [← hdispatch]
    rfl
  replies := by
    cases hfile : storage.files (completePath userName info.string) with
    | none =>
        simp only [serve, Server.downloadFileCommand, replyTo, hfile]
    | some fileContent =>
        simp only [serve, Server.downloadFileCommand, replyTo, hfile]
  waits := by
    unfold replyTo
    cases storage.files (completePath userName info.string) with
    | none =>
        rfl
    | some fileContent =>
        rfl
  length_reply := by
    unfold replyTo
    cases storage.files (completePath userName info.string) with
    | none =>
        simp [storage.notDownloadedMessage.property]
    | some fileContent =>
        simp

theorem asking_right {fileName : Bytes} (hinfo : stale.additionalInfo.strcpy fileName = some info) :
    (asking stale fileName).right =
      .first (.request (Server.sendPacket (Server.fillPacket stale cmdDownload info))) := by
  simp [asking, Duplex.start, askForFile, hinfo]

theorem length_sendPacket (packet : CommandPacket) :
    (Server.sendPacket packet).flatten.length = commandPacketSize := by
  rw [Server.sendPacket, flatten_sendLargePayloadToSocket packet.length_bytes_lt,
    packet.length_bytes]

theorem exists_takes_packet (loopBuffers : Server.Buffers) (storage : Storage) (userName : Bytes)
    (packet : CommandPacket) :
    ∃ m, Takes
      (serve loopBuffers storage userName : ServeState → Request ServeState (Executed ⊕ Downloaded))
      (fun _ => false) m (.loop (.command [])) (Server.sendPacket packet) [] []
      (.loop (.commandAck packet.bytes)) :=
  (Server.consumes_command packet).takes

/-- The exchange of a request for a file. -/
abbrev Exchange (loopBuffers : Server.Buffers) (storage : Storage) (userName : Bytes)
    (stale : CommandPacket) (info : CharArray 100) : Nat → Downloading → Prop :=
  Phase (serve loopBuffers storage userName)
    (.loop (.commandAck (Server.fillPacket stale cmdDownload info).bytes))
    (.loop (.download info.string)) (replyTo storage userName info.string).1
    (replyTo storage userName info.string).2

/-- The two begin with the packet on its way. -/
theorem exchange_asking (loopBuffers : Server.Buffers) (storage : Storage) (userName : Bytes)
    {fileName : Bytes} (hinfo : stale.additionalInfo.strcpy fileName = some info) :
    ∃ n, Exchange loopBuffers storage userName stale info n (asking stale fileName) := by
  rcases exists_takes_packet loopBuffers storage userName
    (Server.fillPacket stale cmdDownload info) with ⟨m, htakes⟩
  rw [← List.nil_append (Server.sendPacket _)] at htakes
  refine ⟨_, .asking (asking_right hinfo) ?_ rfl rfl htakes⟩
  rw [length_sendPacket]
  rfl

/-- In the exchange the client has not declined yet, and the server has not read on. -/
theorem Phase.declining {p : ServeState → Request ServeState (Executed ⊕ Downloaded)}
    {read asked waits : ServeState} {reply : Bytes} {n : Nat} {w : Downloading}
    (h : Phase p read asked reply waits n w) : w.right.Declining ∧ Aligned w := by
  cases h with
  | asking hright hlength hunread hnone htakes =>
      refine ⟨by rw [hright]; trivial, ?_⟩
      -- no more than the packet has been written
      intro hread hne
      have hpos : 0 < w.toLeft.unread.length := List.length_pos_iff.2 hne
      omega
  | acked hread hleft hright hunread =>
      exact ⟨by rw [hright]; trivial, fun _ hne => absurd hread.unread hne⟩
  | heard hread hleft hright hunread =>
      exact ⟨by rw [hright]; trivial, fun _ hne => absurd hread.unread hne⟩
  | replied hread hleft hright hunread =>
      exact ⟨by rw [hright]; trivial, fun _ hne => absurd hread.unread hne⟩
  | sizing hread hleft hright hunread =>
      exact ⟨by rw [hright]; trivial, fun _ hne => absurd hread.unread hne⟩

/-! ## When a download of no content is declined -/

variable {file : NoContent storage userName} {commands : List FollowUp}

theorem decoded_zero : decoded buffers (uint64Bytes (UInt64.ofNat 0)) = 0 := by
  have hall : readDataFromSocket buffers.fileSizeBuffer.val (uint64Bytes (UInt64.ofNat 0)) =
      uint64Bytes (UInt64.ofNat 0) :=
    readDataFromSocket_of_length (by rw [buffers.fileSizeBuffer.property, length_uint64Bytes])
  rw [decoded, hall, int64OfBytes_uint64Bytes (by norm_num)]
  rfl

/-- What is left of the size of an empty file behind its first five bytes. -/
theorem drop_zero : (uint64Bytes (UInt64.ofNat 0)).drop 5 = [0, 0, 0] := by
  rfl

/-- What `Understood` says of the two ways to read the reply. -/
theorem understood_iff :
    Understood buffers storage userName file commands ↔
      (decoded buffers (replyTo storage userName file.fileName).1 ≤ 0 ∧
        decoded buffers ((replyTo storage userName file.fileName).1.drop 5) ≤ 0) ∧
      ((replyTo storage userName file.fileName).2 = .loop (.command []) ∨ commands = []) := by
  unfold Understood replyTo
  rcases file.files with hfile | hfile
  · simp [hfile]
  · simp only [hfile, List.length_nil, drop_zero, decoded_zero]
    simp

/-- The server begins a command with a read of four bytes. -/
theorem serve_command (loopBuffers : Server.Buffers) (storage : Storage) (userName : Bytes) :
    ∃ k, (serve loopBuffers storage userName (.loop (.command [])) :
      Request ServeState (Executed ⊕ Downloaded)) = .read 4 k :=
  ⟨_, rfl⟩

theorem declines_of_understood (h : Understood buffers storage userName file commands) :
    Declines loopBuffers buffers storage userName stale file commands := by
  rw [understood_iff] at h
  rcases h with ⟨⟨hapart, htogether⟩, hnext⟩
  rcases CharArray.exists_strcpy stale.additionalInfo file.length_name with ⟨info, hinfo⟩
  have hstring : info.string = file.fileName := CharArray.string_of_strcpy file.bytes_name hinfo
  rw [← hstring] at hapart htogether hnext
  rcases exchange_asking loopBuffers storage userName hinfo with ⟨n, hstart⟩
  have ha := answer_serve loopBuffers storage userName stale info
  rcases serve_command loopBuffers storage userName with ⟨k, hk⟩
  refine ⟨n, ?_⟩
  intro sides w hrun
  have hcases : (∃ n', n = sides.length + n' ∧
      Exchange loopBuffers storage userName stale info n' w) ∨
        Settled (serve loopBuffers storage userName) w := by
    refine run_countdown ?_ ?_ hstart hrun
    · intro n s side t hs hstep
      cases side with
      | left =>
          exact Or.inl (hs.step_left ha hstep)
      | right =>
          rcases hs.step_right ha hstep with hphase | ⟨arrived, harrived, hsized⟩
          · exact Or.inl hphase
          · have hdecoded : decoded buffers arrived ≤ 0 := by
              rcases harrived with rfl | rfl
              · exact hapart
              · exact htogether
            exact Or.inr (hsized.settled hdecoded ha.waits hnext)
    · intro s side t hs hstep
      cases side with
      | left =>
          exact hs.step_left hk hstep
      | right =>
          exact hs.step_right hstep
  rcases hcases with ⟨n', hn, hphase⟩ | hsettled
  · exact ⟨fun _ => by omega, fun hstuck => absurd hstuck (hphase.not_stuck ha), hphase.declining⟩
  · have hafter := hsettled.not_isFirst
    exact ⟨fun hfirst => absurd hfirst hafter, fun _ => hafter,
      ConsoleState.declining_of_not_isFirst hafter, hsettled.aligned⟩

/-- Both ways to read the reply occur. -/
theorem exists_run_sized (loopBuffers : Server.Buffers) (storage : Storage) (userName : Bytes)
    {fileName arrived : Bytes} (hinfo : stale.additionalInfo.strcpy fileName = some info)
    (harrived : arrived = (replyTo storage userName info.string).1 ∨
      arrived = (replyTo storage userName info.string).1.drop 5) :
    ∃ sides w, run (Duplex.step (serve loopBuffers storage userName) (console buffers commands))
        (asking stale fileName) sides = some w ∧
      Sized buffers commands (replyTo storage userName info.string).2 arrived w := by
  have ha := answer_serve loopBuffers storage userName stale info
  rcases exists_takes_packet loopBuffers storage userName (Server.fillPacket stale cmdDownload info)
    with ⟨m, htakes⟩
  rcases run_request buffers commands (asking_right hinfo) rfl rfl (length_sendPacket _) htakes with
    ⟨sides, w, hrun, hread, hleft, hright, hnone⟩
  rcases harrived with rfl | rfl
  · rcases run_apart buffers commands ha hread hleft hright hnone with ⟨w', hrest, hsized⟩
    refine ⟨sides ++ [.left, .right, .left, .right], w', ?_, hsized⟩
    rw [run_append, hrun, Option.bind_some, hrest]
  · rcases run_together buffers commands ha hread hleft hright hnone with ⟨w', hrest, hsized⟩
    refine ⟨sides ++ [.left, .left, .right, .right], w', ?_, hsized⟩
    rw [run_append, hrun, Option.bind_some, hrest]

/-- A packet is sent in chunks, of which the first is not empty. -/
theorem exists_chunk (packet : CommandPacket) :
    ∃ c cs, DropboxSimulator.sendLargePayloadToSocket packet.bytes = c :: cs ∧ c ≠ [] := by
  have hne : DropboxSimulator.sendLargePayloadToSocket packet.bytes ≠ [] :=
    sendLargePayloadToSocket_ne_nil
  have hsolid : ∀ c ∈ DropboxSimulator.sendLargePayloadToSocket packet.bytes, c ≠ [] :=
    sendLoop_ne_nil packet.length_bytes_lt _ 0 (List.length_pos_iff.2 packet.bytes_ne_nil)
  rcases List.exists_cons_of_ne_nil hne with ⟨c, cs, hcons⟩
  rw [hcons] at hsolid
  exact ⟨c, cs, hcons, hsolid c List.mem_cons_self⟩

/-- A script that begins with a packet. -/
theorem script_writes (buffers : ReceiveBuffers) (packet : CommandPacket) (acts : List Action)
    (rest : List FollowUp) :
    ∃ c k, c ≠ [] ∧ console buffers commands
      (.script (sendLargePayloadToSocket packet.bytes ++ acts) rest) = .write c k := by
  rcases exists_chunk packet with ⟨c, cs, hcons, hc⟩
  refine ⟨c, .afterScript rest (cs.map sendDataToSocket ++ acts), hc, ?_⟩
  rw [sendLargePayloadToSocket, hcons]
  rfl

/-- A client that goes on with a command writes at once. -/
theorem resume_writes (buffers : ReceiveBuffers) (hcommands : commands ≠ []) :
    ∃ c k, c ≠ [] ∧ console buffers commands (.resume commands) = .write c k := by
  cases commands with
  | nil =>
      exact absurd rfl hcommands
  | cons first rest =>
      cases first with
      | command stale c valid =>
          cases c with
          | upload fileName fileContent =>
              exact script_writes buffers _ _ rest
          | delete fileName =>
              have hlength : fileName.length < 100 := valid.1.trans (by norm_num)
              rcases CharArray.exists_strcpy stale.additionalInfo hlength with ⟨info, hinfo⟩
              simp only [ConsoleState.resume, ClientCommand.actions, deleteFile, hinfo]
              exact script_writes buffers _ _ rest
          | listServer =>
              exact script_writes buffers _ _ rest
      | download stale later fileName fits =>
          rcases CharArray.exists_strcpy stale.additionalInfo fits with ⟨info, hinfo⟩
          rcases exists_chunk (Server.fillPacket stale cmdDownload info) with ⟨c, cs, hcons, hc⟩
          refine ⟨c, .download later (.request cs) rest, hc, ?_⟩
          simp only [ConsoleState.resume, askForFile, hinfo, Server.sendPacket, hcons]
          rfl
      | exit stale =>
          exact script_writes buffers _ _ rest

/-- If a command follows, it comes to a server that is back in its loop. -/
theorem settled_of_declines
    (h : Declines loopBuffers buffers storage userName stale file commands)
    (hinfo : stale.additionalInfo.strcpy file.fileName = some info)
    (hdecoded : decoded buffers (replyTo storage userName info.string).1 ≤ 0) :
    (replyTo storage userName info.string).2 = .loop (.command []) ∨ commands = [] := by
  rcases h with ⟨bound, hall⟩
  by_contra hnext
  push Not at hnext
  rcases hnext with ⟨hwaits, hcommands⟩
  rcases exists_run_sized loopBuffers storage userName hinfo (Or.inl rfl) with
    ⟨sides, w, hrun, hsized⟩
  -- the next command comes while the server waits for an acknowledgement
  rcases resume_writes buffers hcommands with ⟨c, k, hc, hwrite⟩
  have hright : w.right = .resume commands := by
    rw [hsized.right, sized_of_decoded hdecoded]
    rfl
  have hstep : w.step (serve loopBuffers storage userName) (console buffers commands) .right =
      some { w with right := k, toLeft := w.toLeft.write [c] } := by
    simp [Duplex.step, hright, hwrite, Request.perform]
  have hrun' : run (Duplex.step (serve loopBuffers storage userName) (console buffers commands))
      (asking stale file.fileName) (sides ++ [.right]) =
        some { w with right := k, toLeft := w.toLeft.write [c] } := by
    rw [run_append, hrun, Option.bind_some, run_cons, hstep]
    rfl
  have haligned := (hall _ _ hrun').2.2.2
  have hleft : w.left = .loop (.command []) := by
    refine haligned ?_ ?_
    · dsimp only
      rw [Pipe.flatten_write, List.length_append, hsized.length_writes]
      simp [Pipe.write, hsized.unread]
    · simp [Pipe.write, hc]
  rw [hsized.left] at hleft
  exact hwaits hleft

theorem understood_of_declines
    (h : Declines loopBuffers buffers storage userName stale file commands) :
    Understood buffers storage userName file commands := by
  rw [understood_iff]
  rcases CharArray.exists_strcpy stale.additionalInfo file.length_name with ⟨info, hinfo⟩
  have hstring : info.string = file.fileName := CharArray.string_of_strcpy file.bytes_name hinfo
  -- in each way the client has to come to its branch without content
  have hdecoded : ∀ arrived, arrived = (replyTo storage userName info.string).1 ∨
      arrived = (replyTo storage userName info.string).1.drop 5 → decoded buffers arrived ≤ 0 := by
    intro arrived harrived
    rcases h with ⟨bound, hall⟩
    rcases exists_run_sized loopBuffers storage userName hinfo harrived with
      ⟨sides, w, hrun, hsized⟩
    by_contra hpos
    have hlt : 0 < decoded buffers arrived := by omega
    have hnot := not_declining_of_decoded commands hlt
    rw [← hsized.right] at hnot
    exact hnot (hall sides w hrun).2.2.1
  have hsettled := settled_of_declines h hinfo (hdecoded _ (Or.inl rfl))
  rw [hstring] at hdecoded hsettled
  exact ⟨⟨hdecoded _ (Or.inl rfl), hdecoded _ (Or.inr rfl)⟩, hsettled⟩

/-- A download of a file that is not there or is empty is declined, and leaves the server at the
next command, if and only if the reply is understood. -/
theorem declines_iff_understood (loopBuffers : Server.Buffers) (buffers : ReceiveBuffers)
    (storage : Storage) (userName : Bytes) (stale : CommandPacket)
    (file : NoContent storage userName) (commands : List FollowUp) :
    Declines loopBuffers buffers storage userName stale file commands ↔
      Understood buffers storage userName file commands :=
  ⟨understood_of_declines, declines_of_understood⟩

end Answers

/-- A server on which the file of the user is empty. -/
def emptyFile : Storage where
  files := fun path => if path = completePath [97] [102] then some [] else none
  notDownloadedMessage := ⟨[0, 0, 0, 0, 0, 0], rfl⟩

def emptyFileName : NoContent emptyFile [97] where
  fileName := [102]
  length_name := by decide
  bytes_name := by simp
  files := Or.inr rfl

/-- Behind the download of an empty file the server takes the first bytes of the next packet for an
acknowledgement. -/
theorem emptyFile_swallows_command :
    ¬Declines loopBuffers emptyReceiveBuffers emptyFile [97] emptyPacket emptyFileName
      [.command emptyPacket .listServer trivial] := by
  rintro ⟨bound, hall⟩
  have hrun : (run (Duplex.step (serve loopBuffers emptyFile [97])
      (console emptyReceiveBuffers [.command emptyPacket .listServer trivial]))
      (asking emptyPacket [102]) (List.replicate 30 .right ++ List.replicate 31 .left ++
        [.right, .left, .right, .right])).any (fun w =>
          match w.left with
          | .sizeAck _ =>
              w.toLeft.writes.flatten.length = commandPacketSize + w.toLeft.unread.length ∧
                w.toLeft.unread ≠ []
          | _ => false) = true := by
    decide +kernel
  rcases (Option.any_eq_true _ _).1 hrun with ⟨w, hw, hboth⟩
  cases hleft : w.left with
  | sizeAck fileContent =>
      rw [hleft] at hboth
      rcases of_decide_eq_true hboth with ⟨hread, hne⟩
      have hcommand := (hall _ w hw).2.2.2 hread hne
      rw [hleft] at hcommand
      cases hcommand
  | _ =>
      rw [hleft] at hboth
      cases hboth

end Client
end DropboxSimulator
