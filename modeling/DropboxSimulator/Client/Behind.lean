import DropboxSimulator.Client.Download
import DropboxSimulator.Client.SendFile

/-!
# Behind — a download behind an upload on the same connection

`sendFilePacket` does not wait for the acknowledgement of the content.  So that one is there when
the client next asks for something on the connection, and the wait of `downloadFile` takes it for
the acknowledgement of the request: what is then decoded as the size begins with the text `ack`
(`download_behind_upload`).
-/

namespace DropboxSimulator
namespace Client

open Library
open Server (Executed LoopState ServeState Buffers terminalThreadFunction ackBytes_ne_nil)

/-- A round of `readLargePayloadFromSocket` writes and notes nothing. -/
theorem of_perform_readLargePayload {σ ε : Type} {size : Nat} {got unread : Bytes}
    {again done : Bytes → σ} {exit : σ} {move : Move σ ε}
    (h : (DropboxSimulator.readLargePayloadFromSocket size got again done exit :
      Request σ ε).perform unread = some move) :
    move.written = [] ∧ move.noted = [] ∧
      ((∃ bs, move.state = again bs) ∨ (∃ bs, move.state = done bs) ∨ move.state = exit) := by
  rw [DropboxSimulator.readLargePayloadFromSocket] at h
  rcases Request.of_perform_read h with ⟨rfl, -⟩
  refine ⟨rfl, rfl, ?_⟩
  dsimp only
  split
  · exact Or.inr (Or.inr rfl)
  · split
    · exact Or.inl ⟨_, rfl⟩
    · exact Or.inr (Or.inl ⟨_, rfl⟩)

/-! ## The acknowledgement left over -/

/-- The loop is within an upload, and comes back to its commands only by an acknowledgement. -/
def Owes : LoopState → Prop
  | .command _ | .commandAck _ | .execute _ | .download _ => False
  | _ => True

/-- The script has nothing more to wait for. -/
def ReadsNothing (acts : List Action) : Prop :=
  ∀ n, Action.read n ∉ acts

/-- The server writes acknowledgements only, and once the script waits no more there is one that is
not read, or there will be. -/
structure LeavesAck (w : Duplex (List Action) LoopState Executed) : Prop where
  writes : ∀ c ∈ w.toLeft.writes, c = ackBytes
  unread : ReadsNothing w.left → w.toLeft.unread ≠ [] ∨ Owes w.right

section Leftover

variable {buffers : Buffers} {stale : CommandPacket} {file : FileToSend} {s : LoopState}
variable {w w' : Duplex (List Action) LoopState Executed} {n : Nat} {es : List Executed}
variable {unread : Bytes} {move : Move LoopState Executed} {k : Nat}

/-- A step of the loop that writes nothing owes an acknowledgement if it did before. -/
theorem owes_of_perform (hmove : (terminalThreadFunction buffers s).perform unread = some move) :
    move.written = [ackBytes] ∨ (move.written = [] ∧ (Owes s → Owes move.state)) := by
  cases s with
  | command got =>
      exact Or.inr ⟨(of_perform_readLargePayload hmove).1, fun howes => howes.elim⟩
  | payload size name got =>
      rcases of_perform_readLargePayload hmove with ⟨hwritten, -, ⟨bs, hs⟩ | ⟨bs, hs⟩ | hs⟩ <;>
        exact Or.inr ⟨hwritten, fun _ => by rw [hs]; trivial⟩
  | fileType | fileSize | fileName =>
      rcases Request.of_perform_read hmove with ⟨rfl, -⟩
      exact Or.inr ⟨rfl, fun _ => trivial⟩
  | commandAck | fileTypeAck | fileSizeAck | fileNameAck | payloadAck =>
      cases hmove
      exact Or.inl rfl
  | execute e =>
      cases hmove
      exact Or.inr ⟨rfl, fun howes => howes.elim⟩
  | download | ended =>
      cases hmove

/-- Where the loop reads the last block of an upload, it owes the acknowledgement of that. -/
theorem owes_of_absorbs {block : List Bytes} {m : Nat} {name payload : Bytes}
    (habs : Absorbs (terminalThreadFunction buffers) m s block (.payloadAck name payload))
    (hrest : Resting (terminalThreadFunction buffers) s) : Owes s := by
  by_cases hreads : ReadsCommand s
  · exact (readsCommand_of_absorbs habs hreads).elim
  · rcases hrest with ⟨n, k, hs, -⟩
    cases s with
    | command | commandAck | ended =>
        exact absurd trivial hreads
    | execute | download =>
        cases hs
    | _ =>
        exact trivial

/-- A script that waits for the last time waits for what the loop owes. -/
theorem owes_of_conversing {acts : List Action}
    (h : Conversing (terminalThreadFunction buffers) []
      (.payloadAck file.fileName file.fileContent) (.command []) w n es)
    (hleft : w.left = .read k :: acts) (hacts : ReadsNothing acts)
    (hread : 0 < k → w.toLeft.unread ≠ []) : Owes w.right := by
  cases h with
  | @asking m n l k' s u ahead pending answer acts' es hl hu hnone habs hs hrest hne hk =>
      -- the answer is still to come
      rw [hleft] at hl
      cases pending with
      | nil =>
          obtain rfl : k = k' := by simpa using congrArg List.head? hl
          have hpos : 0 < answer.length := List.length_pos_iff.2 hne
          exact absurd hnone (hread (by omega))
      | cons c pending =>
          cases hl
  | @answered n l k' acts' es hl hanswer hk hnone hright hrest hcon =>
      obtain ⟨-, rfl⟩ := List.cons_eq_cons.1 (hleft.symm.trans hl)
      generalize hall : acts = acts' at hrest
      cases hrest with
      | last habs =>
          exact owes_of_absorbs habs hright
      | turn habs ht hu hne hk hholds =>
          have hmem : Action.read _ ∈ acts :=
            hall ▸ List.mem_append_right _ List.mem_cons_self
          exact absurd hmem (hacts _)
  | @last m l ahead pending es hl hu habs hcon =>
      -- the last block is only written
      rw [hleft] at hl
      cases pending with
      | nil =>
          cases hl
      | cons c pending =>
          cases hl
  | concluding hl hnone hcon =>
      rw [hleft] at hl
      cases hl

theorem LeavesAck.step_left (h : LeavesAck w)
    (hcon : Conversing (terminalThreadFunction buffers) []
      (.payloadAck file.fileName file.fileContent) (.command []) w n es)
    (hstep : w.step script (terminalThreadFunction buffers) .left = some w') : LeavesAck w' := by
  rcases Option.map_eq_some_iff.1 hstep with ⟨move, hmove, rfl⟩
  refine ⟨h.writes, fun hnothing => ?_⟩
  cases hleft : w.left with
  | nil =>
      rw [hleft] at hmove
      cases hmove
  | cons act acts =>
      rw [hleft] at hmove
      cases act with
      | write bs =>
          cases hmove
          exact h.unread fun k hk => hnothing k (by simpa [hleft] using hk)
      | read k =>
          rcases Request.of_perform_read hmove with ⟨rfl, hread⟩
          have howes : Owes w.right := owes_of_conversing hcon hleft hnothing hread
          exact Or.inr howes
      | stop =>
          cases hmove

theorem LeavesAck.step_right (h : LeavesAck w)
    (hstep : w.step script (terminalThreadFunction buffers) .right = some w') : LeavesAck w' := by
  rcases Option.map_eq_some_iff.1 hstep with ⟨move, hmove, rfl⟩
  rcases owes_of_perform hmove with hwritten | ⟨hwritten, howes⟩
  · refine ⟨?_, fun _ => Or.inl ?_⟩
    · intro c hc
      rcases List.mem_append.1 hc with hc | hc
      · exact h.writes c hc
      · simpa [hwritten, ackBytes_ne_nil] using hc
    · simp [Pipe.write, hwritten, ackBytes_ne_nil]
  · refine ⟨by simpa [Pipe.write, hwritten] using h.writes, fun hnothing => ?_⟩
    rcases h.unread hnothing with hunread | hs
    · exact Or.inl (by simpa [Pipe.write, hwritten] using hunread)
    · exact Or.inr (howes hs)

/-- When an upload has come to its end, an acknowledgement is left, and whatever the server wrote
was one. -/
theorem leavesAck_of_finished {sides : List Side}
    (hroom : file.fileName.length < file.fileContent.length)
    (hrun : run (Duplex.step script (terminalThreadFunction buffers)) (sending stale file) sides =
      some w) (hw : Finished w) :
    (∀ c ∈ w.toLeft.writes, c = ackBytes) ∧ w.toLeft.unread ≠ [] := by
  rcases holds_sendFile buffers stale hroom with ⟨n, hholds⟩
  rw [← sending_left] at hholds
  have hstart := Holds.conversing (w := sending stale file) hholds concludes_upload rfl rfl
  have hinitial : LeavesAck (sending stale file) := by
    refine ⟨by simp [sending, session, Duplex.start, Pipe.empty], fun hnothing => ?_⟩
    rw [sending_left] at hnothing
    exact absurd (by simp [sendFile, waitForSocketAck]) (hnothing 8)
  have hboth : (∃ n es, Conversing (terminalThreadFunction buffers) []
      (.payloadAck file.fileName file.fileContent) (.command []) w n es) ∧ LeavesAck w := by
    refine run_invariant (P := fun w => (∃ n es, Conversing (terminalThreadFunction buffers) []
      (.payloadAck file.fileName file.fileContent) (.command []) w n es) ∧ LeavesAck w) ?_
      ⟨⟨_, _, hstart⟩, hinitial⟩ hrun
    rintro w side w' ⟨⟨n, es, hcon⟩, hleaves⟩ hstep
    obtain ⟨n', es', -, -, hcon'⟩ := hcon.step rfl hstep
    refine ⟨⟨n', es', hcon'⟩, ?_⟩
    cases side with
    | left =>
        exact hleaves.step_left hcon hstep
    | right =>
        exact hleaves.step_right hstep
  refine ⟨hboth.2.writes, ?_⟩
  rcases hboth.2.unread (by simp [ReadsNothing, hw.1]) with hunread | howes
  · exact hunread
  · rw [hw.2] at howes
    exact howes.elim

end Leftover

/-! ## The download behind it -/

/-- The client asks for a file on the connection as an upload has left it. -/
def behind (w : Duplex (List Action) LoopState Executed) (stale : CommandPacket)
    (fileName : Bytes) : Duplex ServeState DownloadState (Executed ⊕ Downloaded) where
  left := .loop w.right
  right := askForFile stale fileName
  toLeft := w.toRight
  toRight := w.toLeft
  noted := []

/-- The size that the client goes by, once it has decoded one. -/
def DownloadState.goesBy : DownloadState → Option Nat
  | .sizeAck payloadSize | .payload payloadSize _ | .payloadAck payloadSize _
  | .save payloadSize _ => some payloadSize
  | _ => none

/-- Its lowest bytes are those of an acknowledgement. -/
def BeginsWithAck (payloadSize : Nat) : Prop :=
  payloadSize % 256 ^ ackBytes.length = leValue ackBytes

/-- The server's next write is an acknowledgement. -/
def AnswersFirst : ServeState → Prop
  | .loop s => ReadsCommand s
  | _ => False

/-- What the server has written since the upload: nothing yet, or an acknowledgement first. -/
structure Since (s : ServeState) (rest : List Bytes) : Prop where
  solid : ∀ c ∈ rest, c ≠ []
  head : ∀ c ∈ rest.head?, c = ackBytes
  nothing : rest = [] → AnswersFirst s

/-- Where the download is: its request goes with the acknowledgement of the upload still there, then
that one has been read, and then the client goes by a size that begins with one. -/
inductive Misled (before : List Bytes)
    (w : Duplex ServeState DownloadState (Executed ⊕ Downloaded)) : Prop
  | asks {pending rest : List Bytes} (left : Bytes) (hright : w.right = .request pending)
      (hleft : left ≠ []) (hunread : w.toRight.unread = left ++ rest.flatten)
      (hwrites : w.toRight.writes = before ++ rest) (hsince : Since w.left rest)
  | waits {rest : List Bytes} (hright : w.right = .size) (hunread : w.toRight.unread = rest.flatten)
      (hsince : Since w.left rest)
  | goes {n : Nat} (hright : w.right.goesBy = some n) (hn : BeginsWithAck n)
  | ended (hright : w.right = .ended)

section Misleading

variable {loopBuffers : Buffers} {buffers : ReceiveBuffers} {storage : Server.Storage}
variable {userName unread : Bytes} {s : ServeState} {rest before : List Bytes}
variable {w w' : Duplex ServeState DownloadState (Executed ⊕ Downloaded)}

/-- What the server writes comes behind what it has written. -/
theorem Since.of_perform {move : Move ServeState (Executed ⊕ Downloaded)} (h : Since s rest)
    (hmove : (Server.serve loopBuffers storage userName s).perform unread = some move) :
    Since move.state (rest ++ move.written.filter (· ≠ [])) := by
  have hsolid : ∀ c ∈ rest ++ move.written.filter (· ≠ []), c ≠ [] := by
    intro c hc
    rcases List.mem_append.1 hc with hc | hc
    · exact h.solid c hc
    · simpa using (List.mem_filter.1 hc).2
  cases rest with
  | cons c rest =>
      exact ⟨hsolid, h.head, fun hnil => by cases hnil⟩
  | nil =>
      have hanswers := h.nothing rfl
      cases s with
      | sizeAck | content =>
          exact hanswers.elim
      | loop s =>
          cases s with
          | command got =>
              have hread : Server.serve loopBuffers storage userName (.loop (.command got)) =
                  (DropboxSimulator.readLargePayloadFromSocket commandPacketSize got
                    (fun bs => .loop (.command bs)) (fun bs => .loop (.commandAck bs))
                    (.loop .ended) : Request ServeState (Executed ⊕ Downloaded)) :=
                readLargePayloadFromSocket_map ServeState.loop Sum.inl _ got .command .commandAck
                  .ended
              rw [hread] at hmove
              obtain ⟨hwritten, -, hstate⟩ := of_perform_readLargePayload hmove
              refine ⟨hsolid, by simp [hwritten], fun _ => ?_⟩
              rcases hstate with ⟨bs, hs⟩ | ⟨bs, hs⟩ | hs <;> rw [hs] <;> trivial
          | commandAck packet =>
              cases hmove
              refine ⟨hsolid, by simp [ackBytes_ne_nil], fun hnil => ?_⟩
              simp [ackBytes_ne_nil] at hnil
          | ended =>
              cases hmove
          | _ =>
              exact hanswers.elim

/-- A step of the server writes no file of the client. -/
theorem inr_not_mem_noted {move : Move ServeState (Executed ⊕ Downloaded)}
    (hmove : (Server.serve loopBuffers storage userName s).perform unread = some move)
    (f : Downloaded) : Sum.inr f ∉ move.noted := by
  rw [Server.serve.eq_def] at hmove
  split at hmove
  · next name =>
      rw [Server.downloadFileCommand] at hmove
      split at hmove <;> cases hmove <;> simp
  · next s _ =>
      rcases Request.noted_of_perform_map hmove with ⟨es, hnoted⟩
      simp [hnoted]
  · rcases Request.of_perform_read hmove with ⟨rfl, -⟩
    simp
  · cases hmove
    simp
  · rcases Request.of_perform_read hmove with ⟨rfl, -⟩
    simp

theorem toNat_bmod_mod {m : Nat} {x : Int}
    (hx : Int.bmod (7037793 + 256 ^ 3 * m : Nat) (2 ^ 64) = x) (hpos : 0 < x) :
    x.toNat % 256 ^ 3 = 7037793 := by
  rw [Int.bmod_def] at hx
  omega

/-- A size that is decoded from an acknowledgement and what is behind it begins with it. -/
theorem sized_ackBytes (buffers : ReceiveBuffers) (behind : Bytes) :
    DownloadState.sized (readDataFromSocket buffers.fileSizeBuffer.val (ackBytes ++ behind)) =
        .ended ∨
      ∃ n, DownloadState.sized (readDataFromSocket buffers.fileSizeBuffer.val
        (ackBytes ++ behind)) = .sizeAck n ∧ BeginsWithAck n := by
  obtain ⟨m, hvalue⟩ : ∃ m, leValue (readDataFromSocket buffers.fileSizeBuffer.val
      (ackBytes ++ behind)) = 7037793 + 256 ^ 3 * m := by
    refine ⟨leValue (behind ++ buffers.fileSizeBuffer.val.drop (ackBytes ++ behind).length), ?_⟩
    rw [readDataFromSocket, List.append_assoc, leValue_append]
    rfl
  obtain ⟨x, hx⟩ : ∃ x, int64OfBytes (readDataFromSocket buffers.fileSizeBuffer.val
      (ackBytes ++ behind)) = x := ⟨_, rfl⟩
  rw [DownloadState.sized, hx]
  unfold int64OfBytes at hx
  rw [hvalue] at hx
  by_cases hpos : x ≤ 0
  · exact Or.inl (if_pos hpos)
  · exact Or.inr ⟨x.toNat, if_neg hpos, toNat_bmod_mod hx (by omega)⟩

/-- A read that takes only one acknowledgement takes the one of the upload, before the server has
written anything. -/
theorem nothing_of_alone {left : Bytes} (hbefore : ∀ c ∈ before, c = ackBytes) (hleft : left ≠ [])
    (hlast : (before ++ rest).getLast? = some (left ++ rest.flatten)) :
    rest = [] ∧ left = ackBytes := by
  cases rest with
  | nil =>
      rw [List.append_nil, List.flatten_nil, List.append_nil] at hlast
      exact ⟨rfl, hbefore left (List.mem_of_getLast? hlast)⟩
  | cons c rest =>
      -- the last write would hold all that is unread
      rw [List.getLast?_append_of_ne_nil _ (by simp)] at hlast
      have hle := (List.sublist_flatten_of_mem (List.mem_of_getLast? hlast)).length_le
      have hpos : 0 < left.length := List.length_pos_iff.2 hleft
      rw [List.length_append] at hle
      omega

theorem Misled.step_left (h : Misled before w)
    (hstep : w.step (Server.serve loopBuffers storage userName) (downloadFile buffers) .left =
      some w') : Misled before w' := by
  rcases Option.map_eq_some_iff.1 hstep with ⟨move, hmove, rfl⟩
  cases h with
  | @asks pending rest left hright hleft hunread hwrites hsince =>
      refine .asks left hright hleft ?_ ?_ (hsince.of_perform hmove)
      · rw [List.flatten_append, List.flatten_filter_ne_nil, ← List.append_assoc, ← hunread]
        rfl
      · rw [← List.append_assoc, ← hwrites]
        rfl
  | @waits rest hright hunread hsince =>
      refine .waits hright ?_ (hsince.of_perform hmove)
      rw [List.flatten_append, List.flatten_filter_ne_nil, ← hunread]
      rfl
  | goes hright hn =>
      exact .goes hright hn
  | ended hright =>
      exact .ended hright

/-- A client that goes by a size keeps it until it has written its file. -/
theorem goesBy_of_perform {t : DownloadState} {n : Nat}
    {move : Move DownloadState (Executed ⊕ Downloaded)} (hn : t.goesBy = some n)
    (hmove : (downloadFile buffers t).perform unread = some move) :
    (move.state.goesBy = some n ∨ move.state = .ended) ∧
      ∀ f, Sum.inr f ∈ move.noted → f.payloadSize = n := by
  cases t with
  | request | size | ended =>
      cases hn
  | sizeAck m =>
      cases hmove
      exact ⟨Or.inl hn, by simp⟩
  | payload m got =>
      have hread : (downloadFile buffers (.payload m got) :
          Request DownloadState (Executed ⊕ Downloaded)) =
          DropboxSimulator.readLargePayloadFromSocket m got (.payload m)
            (fun got => .payloadAck m (readDataFromSocket (buffers.payload m).val got))
            (.payloadAck m (readDataFromSocket (buffers.payload m).val got)) := rfl
      rw [hread] at hmove
      obtain ⟨-, hnoted, hstate⟩ := of_perform_readLargePayload hmove
      refine ⟨Or.inl ?_, by simp [hnoted]⟩
      rcases hstate with ⟨bs, hs⟩ | ⟨bs, hs⟩ | hs <;> rw [hs] <;> exact hn
  | payloadAck m payload =>
      cases hmove
      exact ⟨Or.inl hn, by simp⟩
  | save m payload =>
      obtain rfl : m = n := Option.some.inj hn
      cases hmove
      exact ⟨Or.inr rfl, by simp⟩

theorem Misled.step_right (hbefore : ∀ c ∈ before, c = ackBytes) (h : Misled before w)
    (hok : Unmixed DownloadState.waitsForAck w .right)
    (hstep : w.step (Server.serve loopBuffers storage userName) (downloadFile buffers) .right =
      some w') :
    Misled before w' ∧ ((∀ f, Sum.inr f ∈ w.noted → BeginsWithAck f.payloadSize) →
      ∀ f, Sum.inr f ∈ w'.noted → BeginsWithAck f.payloadSize) := by
  rcases Option.map_eq_some_iff.1 hstep with ⟨move, hmove, rfl⟩
  cases h with
  | @asks pending rest left hright hleft hunread hwrites hsince =>
      rw [hright] at hmove
      cases pending with
      | cons bs pending =>
          cases hmove
          exact ⟨.asks left rfl hleft hunread hwrites hsince, by simp⟩
      | nil =>
          have halone := hok rfl (by rw [hright]; rfl)
          rw [hunread, hwrites] at halone
          obtain ⟨rfl, rfl⟩ := nothing_of_alone hbefore hleft halone
          rcases Request.of_perform_read hmove with ⟨rfl, -⟩
          refine ⟨.waits rfl ?_ hsince, by simp⟩
          rw [hunread]
          rfl
  | @waits rest hright hunread hsince =>
      rw [hright] at hmove
      rcases Request.of_perform_read hmove with ⟨rfl, hne⟩
      cases rest with
      | nil =>
          exact absurd hunread (hne (by norm_num))
      | cons c rest =>
          -- the size is read from the acknowledgement of the request on
          obtain rfl : c = ackBytes := hsince.head c rfl
          have htake : w.toRight.unread.take 8 = ackBytes ++ rest.flatten.take 5 := by
            rw [hunread, List.flatten_cons, List.take_append]
            rfl
          refine ⟨?_, by simp⟩
          rcases sized_ackBytes buffers (rest.flatten.take 5) with hs | ⟨n, hs, hn⟩
          · exact .ended (by simp only [htake, hs])
          · exact .goes (by simp only [htake, hs]; rfl) hn
  | @goes n hright hn =>
      obtain ⟨hstate, hnoted⟩ := goesBy_of_perform hright hmove
      refine ⟨?_, fun hall f hf => ?_⟩
      · rcases hstate with hs | hs
        · exact .goes hs hn
        · exact .ended hs
      · rcases List.mem_append.1 hf with hf | hf
        · exact hall f hf
        · rw [hnoted f hf]
          exact hn
  | ended hright =>
      rw [hright] at hmove
      cases hmove

theorem misled_behind {w : Duplex (List Action) LoopState Executed} (hw : Finished w)
    (hunread : w.toLeft.unread ≠ []) (stale : CommandPacket) (fileName : Bytes) :
    Misled w.toLeft.writes (behind w stale fileName) := by
  have hsince : Since (.loop w.right) [] := by
    rw [hw.2]
    exact ⟨by simp, by simp, fun _ => trivial⟩
  cases hask : askForFile stale fileName with
  | request pending =>
      exact .asks w.toLeft.unread hask hunread (by simp [behind]) (by simp [behind]) hsince
  | ended =>
      exact .ended hask
  | _ =>
      rw [askForFile] at hask
      split at hask <;> cases hask

end Misleading

/-- An upload has come to its end, and the client asks for a file on the same connection.  While the
wait for the acknowledgement takes only one, every size that the client goes by, and so that of
every file it writes, begins with the bytes of an acknowledgement. -/
theorem download_behind_upload (buffers : Buffers) (stale : CommandPacket) (file : FileToSend)
    (hroom : file.fileName.length < file.fileContent.length) {sides : List Side}
    {w : Duplex (List Action) LoopState Executed}
    (hrun : run (Duplex.step script (terminalThreadFunction buffers)) (sending stale file) sides =
      some w) (hw : Finished w)
    (loopBuffers : Buffers) (receive : ReceiveBuffers) (storage : Server.Storage)
    (userName fileName : Bytes) (stale' : CommandPacket)
    {v : Duplex ServeState DownloadState (Executed ⊕ Downloaded)}
    (hreach : Reaches
      (Duplex.step (Server.serve loopBuffers storage userName) (downloadFile receive))
      (Unmixed DownloadState.waitsForAck) (behind w stale' fileName) v) :
    (∀ n ∈ v.right.goesBy, BeginsWithAck n) ∧
      ∀ f, Sum.inr f ∈ v.noted → BeginsWithAck f.payloadSize := by
  rcases leavesAck_of_finished hroom hrun hw with ⟨hwrites, hunread⟩
  have hboth : Misled w.toLeft.writes v ∧
      ∀ f, Sum.inr f ∈ v.noted → BeginsWithAck f.payloadSize := by
    refine hreach.invariant (P := fun v => Misled w.toLeft.writes v ∧
      ∀ f, Sum.inr f ∈ v.noted → BeginsWithAck f.payloadSize)
      ⟨misled_behind hw hunread stale' fileName, by simp [behind]⟩ ?_
    rintro v side v' ⟨hmisled, hnoted⟩ hok hstep
    cases side with
    | left =>
        refine ⟨hmisled.step_left hstep, fun f hf => ?_⟩
        rcases Option.map_eq_some_iff.1 hstep with ⟨move, hmove, rfl⟩
        rcases List.mem_append.1 hf with hf | hf
        · exact hnoted f hf
        · exact absurd hf (inr_not_mem_noted hmove f)
    | right =>
        obtain ⟨hmisled', hnoted'⟩ := hmisled.step_right hwrites hok hstep
        exact ⟨hmisled', hnoted' hnoted⟩
  refine ⟨fun n hn => ?_, hboth.2⟩
  cases hboth.1 with
  | asks left hright =>
      rw [hright] at hn
      cases hn
  | waits hright =>
      rw [hright] at hn
      cases hn
  | goes hright hack =>
      obtain rfl := Option.mem_unique hn hright
      exact hack
  | ended hright =>
      rw [hright] at hn
      cases hn

/-- A file `a` of two bytes. -/
def twoByteFile : FileToSend where
  fileName := [97]
  fileContent := [1, 2]
  length_name := by decide
  bytes_name := by simp
  length_content := by decide

/-- The request, the acknowledgement of the upload, and what the server writes first. -/
def behindSteps : List Side :=
  List.replicate 31 .right ++ List.replicate 31 .left ++ [.right]

/-- A client that has uploaded two bytes is then to receive seven million of them. -/
theorem download_behind_upload_twoByteFile :
    ∃ w v, run (Duplex.step script (terminalThreadFunction clearBuffers))
        (sending emptyPacket twoByteFile) uploadSteps = some w ∧
      runWhile (Duplex.step (Server.serve clearBuffers oneFile [97])
        (downloadFile emptyReceiveBuffers)) (Unmixed DownloadState.waitsForAck)
        (behind w emptyPacket [102]) behindSteps = some v ∧
      v.right.goesBy = some 7037793 ∧ BeginsWithAck 7037793 := by
  have hrun : (run (Duplex.step script (terminalThreadFunction clearBuffers))
      (sending emptyPacket twoByteFile) uploadSteps).any (fun w =>
        w.Stuck script (terminalThreadFunction clearBuffers) ∧
          (runWhile (Duplex.step (Server.serve clearBuffers oneFile [97])
            (downloadFile emptyReceiveBuffers)) (Unmixed DownloadState.waitsForAck)
            (behind w emptyPacket [102]) behindSteps).any
              (fun v => v.right.goesBy = some 7037793) = true) = true := by
    decide +kernel
  have hroom : twoByteFile.fileName.length < twoByteFile.fileContent.length := by decide
  rcases (Option.any_eq_true _ _).1 hrun with ⟨w, hw, hboth⟩
  rcases of_decide_eq_true hboth with ⟨hstuck, hbehind⟩
  rcases (Option.any_eq_true _ _).1 hbehind with ⟨v, hv, hgoes⟩
  rcases completes_of_room hroom with ⟨bound, hall⟩
  have hsize := of_decide_eq_true hgoes
  have hfinished : Finished w := (hall uploadSteps w hw).2.1 hstuck
  exact ⟨w, v, hw, hv, hsize, (download_behind_upload clearBuffers emptyPacket twoByteFile hroom hw
    hfinished clearBuffers emptyReceiveBuffers oneFile [97] [102] emptyPacket
    (.of_runWhile hv)).1 _ hsize⟩

end Client
end DropboxSimulator
