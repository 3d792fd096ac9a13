import DropboxSimulator.Library.Machine
import DropboxSimulator.Packets

/-!
# Inotify — what a Box sends to the server of the changes in its folder

Two threads of a Box work on `sync_dir`.  `th_func_server_comm` applies the commands of the
server, and `th_func_inotify` sends the changes it is told of to the server.  The flag
`instruction_source_is_server` is meant to keep the changes of the first thread from being sent:
it is set when a command arrives and cleared when a batch of events has been handled.

Every event carries its `Origin`, which the code does not see, and `log` lists the events taken
from the queue with what was sent for each.
-/

namespace DropboxSimulator
namespace Box

open Library

/-! ## Events -/

/-- The bits of an event mask that the watch asks for. -/
inductive Mask
  | delete
  | closeWrite
  | movedFrom
  | movedTo
  deriving DecidableEq

/-- Who caused an event. -/
inductive Origin
  | user
  | server
  deriving DecidableEq

structure Event where
  mask : Mask
  name : Bytes
  origin : Origin
  deriving DecidableEq

/-- What is sent to the server for an event. -/
inductive Request
  | upload (name : Bytes)
  | delete (name : Bytes)
  deriving DecidableEq

/-- `".goutputstream-"`, the start of the names an editor uses for its temporary files. -/
def goutputstream : Bytes :=
  [46, 103, 111, 117, 116, 112, 117, 116, 115, 116, 114, 101, 97, 109, 45]

/-- The instruction of the loop of `th_func_inotify` for an event, if the flag is not set. -/
def Event.request (e : Event) : Option Request :=
  match e.mask with
  | .delete => some (.delete e.name)
  | .closeWrite => some (.upload e.name)
  -- the substring test of `event_name.find(".goutputstream-")`
  | .movedFrom => if goutputstream <:+: e.name then none else some (.delete e.name)
  | .movedTo => some (.upload e.name)

/-! ## The Box -/

/-- A command of the server to the Box. -/
inductive Command
  | upload (name payload : Bytes)
  | delete (name : Bytes)
  deriving DecidableEq

structure State where
  syncDir : Bytes → Option Bytes
  queue : List Event
  instructionSourceIsServer : Bool
  log : List (Event × Option Request)

/-- A Box that has nothing to do yet. -/
def State.initial (syncDir : Bytes → Option Bytes) : State where
  syncDir := syncDir
  queue := []
  instructionSourceIsServer := false
  log := []

/-- One round of `th_func_server_comm`. -/
def State.receive (s : State) : Command → State
  | .upload name payload =>
      { s with
        instructionSourceIsServer := true
        syncDir := Function.update s.syncDir name (some payload)
        queue := s.queue ++ [{ mask := .closeWrite, name := name, origin := .server }] }
  | .delete name =>
      match s.syncDir name with
      | some _ =>
          { s with
            instructionSourceIsServer := true
            syncDir := Function.update s.syncDir name none
            queue := s.queue ++ [{ mask := .delete, name := name, origin := .server }] }
      -- `remove` fails and causes no event, but the flag is set already
      | none => { s with instructionSourceIsServer := true }

/-- The user changes a file; `content` is what the file then holds, if it is there. -/
def State.change (s : State) (mask : Mask) (name : Bytes) (content : Option Bytes) : State :=
  { s with
    syncDir := Function.update s.syncDir name content
    queue := s.queue ++ [{ mask := mask, name := name, origin := .user }] }

/-- The loop of `th_func_inotify` over a batch of `n` events. -/
def State.take (s : State) (n : Nat) : State :=
  { s with
    queue := s.queue.drop n
    log := s.log ++ (s.queue.take n).map fun e =>
      (e, if s.instructionSourceIsServer then none else e.request)
    instructionSourceIsServer := false }

/-- The steps of a Box. -/
inductive Step
  | receive (c : Command)
  | change (mask : Mask) (name : Bytes) (content : Option Bytes)
  | take (n : Nat)
  deriving DecidableEq

/-- One step.  A batch is never empty. -/
def State.step (s : State) : Step → Option State
  | .receive c => some (s.receive c)
  | .change mask name content => some (s.change mask name content)
  | .take n => if 0 < n ∧ n ≤ s.queue.length then some (s.take n) else none

/-! ## When the flag tells the origin -/

/-- An event of the user was sent, unless it is one that the Box never sends, and an event of a
server command was not. -/
def Propagated (entry : Event × Option Request) : Prop :=
  match entry.1.origin with
  | .user => entry.2 = entry.1.request
  | .server => entry.2 = none

/-- Every batch holds only events of the user, with no command of the server received since the
batch before it, or only events of server commands and such as are never sent, with at least one
command received since then.  `received` says whether a command has been received since the last
batch. -/
def Separated : Bool → State → List Step → Prop
  | _, _, [] => True
  | received, s, step :: rest =>
      match step with
      | .receive c => Separated true (s.receive c) rest
      | .change mask name content => Separated received (s.change mask name content) rest
      | .take n =>
          ((received = false ∧ ∀ e ∈ s.queue.take n, e.origin = .user) ∨
            (received = true ∧ ∀ e ∈ s.queue.take n, e.origin = .server ∨ e.request = none)) ∧
          Separated false (s.take n) rest

section Runs

variable {s t : State} {steps : List Step} {n : Nat}

/-- Every event of a server command in the queue is one the Box would forward. -/
def Forwardable (s : State) : Prop :=
  ∀ e ∈ s.queue, e.origin = .server → e.request ≠ none

theorem Forwardable.step {l : Step} (hf : Forwardable s) (h : s.step l = some t) :
    Forwardable t := by
  cases l with
  | receive c =>
      cases h
      cases c with
      | upload name payload =>
          intro e he
          rcases List.mem_append.1 he with he | he
          · exact hf e he
          · -- the close-write event of the upload
            rw [List.mem_singleton.1 he]
            simp [Event.request]
      | delete name =>
          cases hfile : s.syncDir name with
          | none =>
              simpa [Forwardable, State.receive, hfile] using hf
          | some content =>
              intro e he
              simp only [State.receive, hfile] at he
              rcases List.mem_append.1 he with he | he
              · exact hf e he
              · rw [List.mem_singleton.1 he]
                simp [Event.request]
  | change mask name content =>
      cases h
      intro e he hserver
      rcases List.mem_append.1 he with he | he
      · exact hf e he hserver
      · -- the new event is one of the user
        rw [List.mem_singleton.1 he] at hserver
        cases hserver
  | take n =>
      simp only [State.step] at h
      split at h
      · cases h
        exact fun e he => hf e (List.mem_of_mem_drop he)
      · cases h

/-- What a batch adds to the log is right just when the flag tells the origin of its events. -/
theorem propagated_take_iff (hf : Forwardable s) :
    (∀ e ∈ s.queue.take n,
        Propagated (e, if s.instructionSourceIsServer then none else e.request)) ↔
      (s.instructionSourceIsServer = false ∧ ∀ e ∈ s.queue.take n, e.origin = .user) ∨
        (s.instructionSourceIsServer = true ∧
          ∀ e ∈ s.queue.take n, e.origin = .server ∨ e.request = none) := by
  cases hflag : s.instructionSourceIsServer with
  | false =>
      -- the whole batch is sent
      simp only [Bool.false_eq_true, if_false, true_and, false_and, or_false]
      refine forall_congr' fun e => forall_congr' fun he => ?_
      cases ho : e.origin with
      | user =>
          simp [Propagated, ho]
      | server =>
          have hforward : e.request ≠ none := hf e (List.mem_of_mem_take he) ho
          simp [Propagated, ho, hforward]
  | true =>
      -- nothing of the batch is sent
      simp only [if_true, true_and, false_and, false_or, reduceCtorEq]
      refine forall_congr' fun e => forall_congr' fun he => ?_
      cases ho : e.origin with
      | user =>
          simp [Propagated, ho, eq_comm]
      | server =>
          simp [Propagated, ho]

@[simp] theorem receive_flag (c : Command) : (s.receive c).instructionSourceIsServer = true := by
  cases c with
  | upload name payload =>
      rfl
  | delete name =>
      cases hfile : s.syncDir name <;> simp [State.receive, hfile]

@[simp] theorem receive_log (c : Command) : (s.receive c).log = s.log := by
  cases c with
  | upload name payload =>
      rfl
  | delete name =>
      cases hfile : s.syncDir name <;> simp [State.receive, hfile]

/-- The log only grows. -/
theorem log_run (h : run State.step s steps = some t) : ∀ entry ∈ s.log, entry ∈ t.log := by
  induction steps generalizing s with
  | nil =>
      cases h
      exact fun _ h => h
  | cons l rest ih =>
      rw [run_cons, Option.bind_eq_some_iff] at h
      rcases h with ⟨s', hl, hrest⟩
      refine fun entry hentry => ih hrest entry ?_
      cases l with
      | receive c =>
          cases hl
          simpa using hentry
      | change mask name content =>
          cases hl
          exact hentry
      | take n =>
          simp only [State.step] at hl
          split at hl
          · cases hl
            exact List.mem_append_left _ hentry
          · cases hl

/-- The rest of a run is right just when it is separated from the flag on. -/
theorem propagated_run_iff (hf : Forwardable s) (hlog : ∀ entry ∈ s.log, Propagated entry)
    (h : run State.step s steps = some t) :
    (∀ entry ∈ t.log, Propagated entry) ↔ Separated s.instructionSourceIsServer s steps := by
  induction steps generalizing s with
  | nil =>
      cases h
      exact ⟨fun _ => trivial, fun _ => hlog⟩
  | cons l rest ih =>
      rw [run_cons, Option.bind_eq_some_iff] at h
      rcases h with ⟨s', hl, hrest⟩
      have hf' := hf.step hl
      cases l with
      | receive c =>
          cases hl
          -- a command sets the flag, whatever it was
          rw [ih hf' (by simpa using hlog) hrest, receive_flag]
          rfl
      | change mask name content =>
          cases hl
          exact ih hf' hlog hrest
      | take n =>
          simp only [State.step] at hl
          split at hl
          · cases hl
            rw [Separated, ← propagated_take_iff hf]
            -- a batch that is wrong stays in the log
            by_cases hbatch : ∀ e ∈ s.queue.take n,
                Propagated (e, if s.instructionSourceIsServer then none else e.request)
            · have hlog' : ∀ entry ∈ (s.take n).log, Propagated entry := by
                intro entry hentry
                rcases List.mem_append.1 hentry with hentry | hentry
                · exact hlog entry hentry
                · rcases List.mem_map.1 hentry with ⟨e, he, rfl⟩
                  exact hbatch e he
              rw [ih hf' hlog' hrest]
              exact ⟨fun hsep => ⟨hbatch, hsep⟩, fun hsep => hsep.2⟩
            · refine ⟨fun hall => absurd (fun e he => ?_) hbatch, fun hsep => absurd hsep.1 hbatch⟩
              exact hall _ (log_run hrest _ (List.mem_append_right _ (List.mem_map_of_mem he)))
          · cases hl

/-- In a run of a Box every event of the user that is ever sent is sent when it is taken, and no
event of a server command is, if and only if its batches are separated. -/
theorem propagated_iff_separated (syncDir : Bytes → Option Bytes) (steps : List Step)
    (h : run State.step (State.initial syncDir) steps = some t) :
    (∀ entry ∈ t.log, Propagated entry) ↔ Separated false (State.initial syncDir) steps := by
  have hf : Forwardable (State.initial syncDir) := fun e he => by cases he
  exact propagated_run_iff hf (fun entry hentry => by cases hentry) h

/-- The server sends a file; then the user writes a file and moves another one away; then the server
deletes its file.  The events of each are handled on their own. -/
def alternating : List Step :=
  [.receive (.upload [97] []), .take 1, .change .closeWrite [98] (some [1]),
    .change .movedFrom [99] none, .take 2, .receive (.delete [97]), .take 1]

def alternatingBox : State :=
  (run State.step (State.initial fun _ => none) alternating).get (by decide +kernel)

theorem propagated_iff_separated_alternating :
    alternatingBox.log =
        [({ mask := .closeWrite, name := [97], origin := .server }, none),
          ({ mask := .closeWrite, name := [98], origin := .user }, some (.upload [98])),
          ({ mask := .movedFrom, name := [99], origin := .user }, some (.delete [99])),
          ({ mask := .delete, name := [97], origin := .server }, none)] ∧
      ((∀ entry ∈ alternatingBox.log, Propagated entry) ↔
        Separated false (State.initial fun _ => none) alternating) :=
  ⟨by decide +kernel,
    propagated_iff_separated (fun _ => none) alternating (Option.some_get _).symm⟩

/-- Two files that the server sends, handled in two batches: the second is sent back. -/
theorem upload_sent_back :
    ∃ t, run State.step (State.initial fun _ => none)
        [.receive (.upload [97] []), .receive (.upload [98] []), .take 1, .take 1] = some t ∧
      ({ mask := .closeWrite, name := [98], origin := .server }, some (.upload [98])) ∈ t.log := by
  refine ⟨_, rfl, ?_⟩
  simp [State.take, State.receive, State.initial, Event.request]

end Runs

end Box
end DropboxSimulator
