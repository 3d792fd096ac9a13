import DropboxSimulator.Library.Machine
import DropboxSimulator.Library.Streams

/-!
# Duplex — a script and a program at the two ends of a connection

A script writes and reads in a fixed order, whatever it reads.  A program at the other end of the
connection answers it.  The two take steps in any order.

* `Takes`   : like `Consumes`, but in some states the program asks for more than one write holds;
* `Answers` : the program takes the writes of a script one by one, and writes something itself
  before the script waits for it;
* `Paired`  : the script and the program are at corresponding places, with what is on its way.

A read that asks for more than one write holds gets that write alone only if nothing has been
written after it.  While that is so (`Unmixed`), a program that answers a script notes just what
it should, and both come to their end (`Paired.run`, `Paired.stuck`).
-/

namespace DropboxSimulator
namespace Library

/-! ## Connections -/

/-- One direction of a connection: the writes so far and the bytes still to be read. -/
structure Pipe where
  writes : List Bytes
  unread : Bytes

def Pipe.empty : Pipe where
  writes := []
  unread := []

/-- Writes append their bytes; a write of no bytes does nothing. -/
def Pipe.write (p : Pipe) (ws : List Bytes) : Pipe where
  writes := p.writes ++ ws.filter (· ≠ [])
  unread := p.unread ++ ws.flatten

/-- Two programs at the ends of a connection, with the events they have noted. -/
structure Duplex (σ τ ε : Type) where
  left : σ
  right : τ
  toLeft : Pipe
  toRight : Pipe
  noted : List ε

inductive Side
  | left
  | right
  deriving DecidableEq

section Steps

variable {σ τ ε : Type} (p : σ → Request σ ε) (q : τ → Request τ ε)

/-- A connection on which nothing has been written. -/
def Duplex.start (s : σ) (t : τ) : Duplex σ τ ε where
  left := s
  right := t
  toLeft := .empty
  toRight := .empty
  noted := []

/-- One side takes a step. -/
def Duplex.step (w : Duplex σ τ ε) : Side → Option (Duplex σ τ ε)
  | .left =>
      ((p w.left).perform w.toLeft.unread).map fun move =>
        { left := move.state
          right := w.right
          toLeft := { w.toLeft with unread := move.unread }
          toRight := w.toRight.write move.written
          noted := w.noted ++ move.noted }
  | .right =>
      ((q w.right).perform w.toRight.unread).map fun move =>
        { left := w.left
          right := move.state
          toLeft := w.toLeft.write move.written
          toRight := { w.toRight with unread := move.unread }
          noted := w.noted ++ move.noted }

/-- Neither side can take a step. -/
def Duplex.Stuck (w : Duplex σ τ ε) : Prop :=
  w.step p q .left = none ∧ w.step p q .right = none

instance (w : Duplex σ τ ε) : Decidable (w.Stuck p q) :=
  decidable_of_iff ((w.step p q .left).isNone ∧ (w.step p q .right).isNone)
    (by simp [Duplex.Stuck])

/-- In a greedy state the right side reads only when its unread bytes are the last write. -/
def Unmixed (greedy : τ → Bool) (w : Duplex σ τ ε) (side : Side) : Prop :=
  side = .right → greedy w.right = true → w.toRight.writes.getLast? = some w.toRight.unread

instance (greedy : τ → Bool) (w : Duplex σ τ ε) (side : Side) :
    Decidable (Unmixed greedy w side) :=
  inferInstanceAs (Decidable (_ → _ → _))

end Steps

/-! ## Scripts -/

/-- What a script does next. -/
inductive Action
  | write (bs : Bytes)
  | read (n : Nat)
  | stop

/-- A script as a program; it ends at a `stop`, whatever follows. -/
def script {ε : Type} : List Action → Request (List Action) ε
  | [] => .halt
  | .write bs :: rest => .write bs rest
  | .read n :: rest => .read n fun _ => rest
  | .stop :: _ => .halt

/-! ## Programs that take writes one by one -/

section Taking

variable {τ ε : Type} (next : τ → Request τ ε) (greedy : τ → Bool)

/-- From `s` the program takes the writes `cs`, one with each read, notes the events, writes the
messages and comes to `t`, in so many steps.  In a greedy state a read may ask for more. -/
inductive Takes : Nat → τ → List Bytes → List ε → List Bytes → τ → Prop
  | done (s : τ) : Takes 0 s [] [] [] s
  | read {m n : Nat} {s t : τ} {k : Bytes → τ} {c : Bytes} {cs : List Bytes} {es : List ε}
      {ws : List Bytes} (hc : c ≠ []) (hs : next s = .read n k)
      (hn : c.length = n ∨ greedy s = true ∧ c.length ≤ n) :
      Takes m (k c) cs es ws t → Takes (m + 1) s (c :: cs) es ws t
  | skip {m : Nat} {s t : τ} {k : Bytes → τ} {cs : List Bytes} {es : List ε} {ws : List Bytes}
      (hs : next s = .read 0 k) : Takes m (k []) cs es ws t → Takes (m + 1) s cs es ws t
  | emit {m : Nat} {s t k : τ} {e : ε} {cs : List Bytes} {es : List ε} {ws : List Bytes}
      (hs : next s = .emit e k) : Takes m k cs es ws t → Takes (m + 1) s cs (e :: es) ws t
  | write {m : Nat} {s t k : τ} {w : Bytes} {cs : List Bytes} {es : List ε} {ws : List Bytes}
      (hw : w ≠ []) (hs : next s = .write w k) :
      Takes m k cs es ws t → Takes (m + 1) s cs es (w :: ws) t

variable {next greedy} {m n : Nat} {s t r : τ} {cs ds : List Bytes} {es fs : List ε}
variable {ws vs : List Bytes}

theorem Takes.trans (h : Takes next greedy m s cs es ws t) (h' : Takes next greedy n t ds fs vs r) :
    Takes next greedy (m + n) s (cs ++ ds) (es ++ fs) (ws ++ vs) r := by
  induction h with
  | done s =>
      simpa using h'
  | read hc hs hn _ ih =>
      rw [Nat.add_right_comm]
      exact .read hc hs hn (ih h')
  | skip hs _ ih =>
      rw [Nat.add_right_comm]
      exact .skip hs (ih h')
  | emit hs _ ih =>
      rw [Nat.add_right_comm]
      exact .emit hs (ih h')
  | write hw hs _ ih =>
      rw [Nat.add_right_comm]
      exact .write hw hs (ih h')

/-- A program that consumes chunks takes them as writes. -/
theorem Consumes.takes (h : Consumes next s cs es [] t) :
    ∃ m, Takes next greedy m s cs es [] t := by
  generalize hws : ([] : List Bytes) = ws at h
  induction h with
  | done s =>
      exact ⟨0, .done s⟩
  | read hc hs _ ih =>
      rcases ih hws with ⟨m, hm⟩
      exact ⟨m + 1, .read hc hs (Or.inl rfl) hm⟩
  | skip hs _ ih =>
      rcases ih hws with ⟨m, hm⟩
      exact ⟨m + 1, .skip hs hm⟩
  | emit hs _ ih =>
      rcases ih hws with ⟨m, hm⟩
      exact ⟨m + 1, .emit hs hm⟩
  | write hs _ _ =>
      cases hws

/-- A step of a program that takes whole writes. -/
theorem Takes.of_perform (hr : Resting next t) (h : Takes next greedy m s cs es ws t)
    (halone : greedy s = true → cs.length ≤ 1) {move : Move τ ε}
    (hmove : (next s).perform cs.flatten = some move) :
    ∃ m' cs' es' ws', m = m' + 1 ∧ move.unread = cs'.flatten ∧ cs' <:+ cs ∧
      es = move.noted ++ es' ∧ ws = move.written ++ ws' ∧ (∀ w ∈ move.written, w ≠ []) ∧
      Takes next greedy m' move.state cs' es' ws' t := by
  cases h with
  | done s =>
      rw [List.flatten_nil, hr.perform_nil] at hmove
      cases hmove
  | @read m n s t k c cs es ws hc hs hn h =>
      have hlen : 0 < c.length := List.length_pos_iff.2 hc
      have hpos : 0 < n := by omega
      rw [hs, Request.perform_read_cons hpos hc] at hmove
      cases hmove
      have htake : (c :: cs).flatten.take n = c ∧ (c :: cs).flatten.drop n = cs.flatten := by
        rcases hn with rfl | ⟨hgreedy, hle⟩
        · simp
        · -- nothing else is there to be read
          have hcs : cs = [] := by
            have hone := halone hgreedy
            rw [List.length_cons] at hone
            exact List.length_eq_zero_iff.1 (by omega)
          subst hcs
          simp [hle]
      refine ⟨m, cs, es, ws, rfl, htake.2, List.suffix_cons c cs, rfl, rfl, by simp, ?_⟩
      dsimp only
      rw [htake.1]
      exact h
  | skip hs h =>
      simp only [hs, Request.perform, if_true, Option.some.injEq] at hmove
      subst hmove
      exact ⟨_, cs, es, ws, rfl, rfl, List.suffix_rfl, rfl, rfl, by simp, h⟩
  | emit hs h =>
      simp only [hs, Request.perform, Option.some.injEq] at hmove
      subst hmove
      exact ⟨_, cs, _, ws, rfl, rfl, List.suffix_rfl, rfl, rfl, by simp, h⟩
  | write hw hs h =>
      simp only [hs, Request.perform, Option.some.injEq] at hmove
      subst hmove
      exact ⟨_, cs, es, _, rfl, rfl, List.suffix_rfl, rfl, rfl, by simpa using hw, h⟩

/-- A program that cannot take a step has taken everything. -/
theorem Takes.of_stuck (h : Takes next greedy m s cs es ws t)
    (hstuck : (next s).perform cs.flatten = none) : s = t ∧ es = [] ∧ ws = [] := by
  cases h with
  | done s =>
      exact ⟨rfl, rfl, rfl⟩
  | @read m n s t k c cs es ws hc hs hn h =>
      have hlen : 0 < c.length := List.length_pos_iff.2 hc
      have hpos : 0 < n := by omega
      rw [hs, Request.perform_read_cons hpos hc] at hstuck
      cases hstuck
  | skip hs h =>
      simp [hs, Request.perform] at hstuck
  | emit hs h =>
      simp [hs, Request.perform] at hstuck
  | write hw hs h =>
      simp [hs, Request.perform] at hstuck

/-- A step of a program that is to take more writes than there are so far: it has come to its end,
or takes the step of one that is not greedy. -/
theorem Takes.of_perform_ahead {unread rest : List Bytes}
    (h : Takes next (fun _ => false) m s (unread ++ rest) es ws t) {move : Move τ ε}
    (hmove : (next s).perform unread.flatten = some move) :
    (m = 0 ∧ s = t ∧ unread = [] ∧ rest = []) ∨
      ∃ m' unread' es' ws', m = m' + 1 ∧ move.unread = unread'.flatten ∧ es = move.noted ++ es' ∧
        ws = move.written ++ ws' ∧
        Takes next (fun _ => false) m' move.state (unread' ++ rest) es' ws' t := by
  generalize hcs : unread ++ rest = cs at h
  cases h with
  | done s =>
      rcases List.append_eq_nil_iff.1 hcs with ⟨hunread, hrest⟩
      exact Or.inl ⟨rfl, rfl, hunread, hrest⟩
  | @read m n s t k c cs es ws hc hs hn h =>
      have hlength : c.length = n := by simpa using hn
      have hpos : 0 < n := (List.length_pos_iff.2 hc).trans_eq hlength
      cases unread with
      | nil =>
          rw [hs, List.flatten_nil, Request.perform_read_nil hpos] at hmove
          cases hmove
      | cons c' unread =>
          rcases List.cons_eq_cons.1 hcs with ⟨rfl, rfl⟩
          rw [hs, Request.perform_read_cons hpos hc] at hmove
          cases hmove
          exact Or.inr ⟨m, unread, es, ws, rfl, by simp [← hlength], rfl, rfl,
            by simpa [← hlength] using h⟩
  | skip hs h =>
      simp only [hs, Request.perform, if_true, Option.some.injEq] at hmove
      subst hmove
      exact Or.inr ⟨_, unread, es, ws, rfl, rfl, rfl, rfl, by simpa [hcs] using h⟩
  | emit hs h =>
      simp only [hs, Request.perform, Option.some.injEq] at hmove
      subst hmove
      exact Or.inr ⟨_, unread, _, ws, rfl, rfl, rfl, rfl, by simpa [hcs] using h⟩
  | write hw hs h =>
      simp only [hs, Request.perform, Option.some.injEq] at hmove
      subst hmove
      exact Or.inr ⟨_, unread, es, _, rfl, rfl, rfl, rfl, by simpa [hcs] using h⟩

theorem Takes.ne_nil (h : Takes next greedy m s cs es ws t) : ∀ c ∈ cs, c ≠ [] := by
  induction h with
  | done s =>
      simp
  | read hc hs hn _ ih =>
      intro c' hc'
      rcases List.mem_cons.1 hc' with rfl | hc'
      · exact hc
      · exact ih c' hc'
  | skip hs _ ih =>
      exact ih
  | emit hs _ ih =>
      exact ih
  | write hw hs _ ih =>
      exact ih

end Taking

/-! ## One side on its own -/

section Alone

variable {σ τ ε : Type} {p : σ → Request σ ε} {q : τ → Request τ ε} {w : Duplex σ τ ε}

@[simp] theorem Pipe.write_nil (pipe : Pipe) : pipe.write [] = pipe := by
  simp [Pipe.write]

theorem Pipe.write_write (pipe : Pipe) (ws vs : List Bytes) :
    (pipe.write ws).write vs = pipe.write (ws ++ vs) := by
  simp [Pipe.write]

theorem Pipe.flatten_write (pipe : Pipe) (ws : List Bytes) :
    (pipe.write ws).writes.flatten = pipe.writes.flatten ++ ws.flatten := by
  rw [Pipe.write, List.flatten_append, List.flatten_filter_ne_nil]

/-- The left side writes. -/
theorem Duplex.exists_step_left {bs : Bytes} {k : σ} (hs : p w.left = .write bs k) :
    ∃ w', w.step p q .left = some w' ∧ w'.left = k ∧ w'.right = w.right ∧ w'.toLeft = w.toLeft ∧
      w'.toRight.unread = w.toRight.unread ++ bs := by
  refine ⟨{ w with left := k, toRight := w.toRight.write [bs] }, ?_, rfl, rfl, rfl, ?_⟩
  · simp [Duplex.step, hs, Request.perform]
  · simp [Pipe.write]

/-- The right side reads of what is there. -/
theorem Duplex.exists_step_right {n : Nat} {k : Bytes → τ} (hs : q w.right = .read n k)
    (hn : 0 < n) (hne : w.toRight.unread ≠ []) :
    ∃ w', w.step p q .right = some w' ∧ w'.left = w.left ∧
      w'.right = k (w.toRight.unread.take n) ∧ w'.toLeft = w.toLeft ∧
      w'.toRight.unread = w.toRight.unread.drop n := by
  refine ⟨{ w with
    right := k (w.toRight.unread.take n)
    toRight := { w.toRight with unread := w.toRight.unread.drop n } }, ?_, rfl, rfl, rfl, rfl⟩
  simp [Duplex.step, hs, Request.perform, hne, Nat.pos_iff_ne_zero.1 hn]

/-- The left side takes the writes that are there. -/
theorem Takes.run_left {m : Nat} {t : σ} {chunks : List Bytes} {es : List ε} {ws : List Bytes}
    (h : Takes p (fun _ => false) m w.left chunks es ws t)
    (hunread : w.toLeft.unread = chunks.flatten) :
    run (Duplex.step p q) w (List.replicate m .left) =
      some
        { left := t
          right := w.right
          toLeft := { w.toLeft with unread := [] }
          toRight := w.toRight.write ws
          noted := w.noted ++ es } := by
  generalize hs : w.left = s at h
  induction h generalizing w with
  | done s =>
      rcases w with ⟨left, right, toLeft, toRight, noted⟩
      subst hs
      simp only [List.flatten_nil] at hunread
      simp [run, ← hunread]
  | @read m n s t k c cs es ws hc hnext hn _ ih =>
      have hlength : c.length = n := by simpa using hn
      have hstep : w.step p q .left =
          some { w with left := k c, toLeft := { w.toLeft with unread := cs.flatten } } := by
        simp [Duplex.step, hs, hnext, Request.perform, hunread, hc, ← hlength]
      rw [List.replicate_succ, run_cons, hstep, Option.bind_some, ih rfl rfl]
  | @skip m s t k cs es ws hnext _ ih =>
      have hstep : w.step p q .left = some { w with left := k [] } := by
        simp [Duplex.step, hs, hnext, Request.perform]
      rw [List.replicate_succ, run_cons, hstep, Option.bind_some]
      exact ih (w := { w with left := k [] }) hunread rfl
  | @emit m s t k e cs es ws hnext _ ih =>
      have hstep : w.step p q .left = some { w with left := k, noted := w.noted ++ [e] } := by
        simp [Duplex.step, hs, hnext, Request.perform]
      rw [List.replicate_succ, run_cons, hstep, Option.bind_some,
        ih (w := { w with left := k, noted := w.noted ++ [e] }) hunread rfl]
      simp
  | @write m s t k v cs es ws hv hnext _ ih =>
      have hstep : w.step p q .left =
          some { w with left := k, toRight := w.toRight.write [v] } := by
        simp [Duplex.step, hs, hnext, Request.perform]
      rw [List.replicate_succ, run_cons, hstep, Option.bind_some,
        ih (w := { w with left := k, toRight := w.toRight.write [v] }) hunread rfl]
      simp [Pipe.write_write]

/-- The right side writes what is pending. -/
theorem run_right_writes {k : List Bytes → τ} (hk : ∀ c cs, q (k (c :: cs)) = .write c (k cs))
    {pending : List Bytes} (hright : w.right = k pending) :
    run (Duplex.step p q) w (List.replicate pending.length .right) =
      some { w with right := k [], toLeft := w.toLeft.write pending } := by
  induction pending generalizing w with
  | nil =>
      rcases w with ⟨left, right, toLeft, toRight, noted⟩
      subst hright
      simp [run]
  | cons c pending ih =>
      have hstep : w.step p q .right =
          some { w with right := k pending, toLeft := w.toLeft.write [c] } := by
        simp [Duplex.step, hright, hk, Request.perform]
      rw [List.length_cons, List.replicate_succ, run_cons, hstep, Option.bind_some, ih rfl]
      simp [Pipe.write_write]

end Alone

/-! ## Programs that answer a script -/

section Answering

variable {τ ε : Type} (next : τ → Request τ ε) (greedy : τ → Bool)

/-- From `s`, a state in which it waits, the program takes the writes of the script and notes the
events, in so many steps of both.  Each read of the script follows a write that the program
answers with a write of its own. -/
inductive Answers : Nat → τ → List Action → List ε → Prop
  | done (s : τ) : Answers 0 s [] []
  | write {m n : Nat} {s t : τ} {bs : Bytes} {acts : List Action} {es fs : List ε}
      {ws : List Bytes} (htakes : Takes next greedy m s [bs] es ws t) (ht : Resting next t) :
      Answers n t acts fs → Answers (m + n + 1) s (.write bs :: acts) (es ++ fs)
  | exchange {m n k : Nat} {s t : τ} {bs : Bytes} {acts : List Action} {es fs : List ε}
      {ws : List Bytes} (htakes : Takes next greedy m s [bs] es ws t) (ht : Resting next t)
      (hws : ws ≠ []) (hk : 0 < k) :
      Answers n t acts fs → Answers (m + n + 2) s (.write bs :: .read k :: acts) (es ++ fs)
  | skip {n : Nat} {s : τ} {acts : List Action} {es : List ε} :
      Answers n s acts es → Answers (n + 1) s (.write [] :: acts) es

/-- From `s` the program comes by itself to a state from which it answers the script. -/
def Leads (s : τ) (acts : List Action) (es : List ε) : Prop :=
  ∃ m n t es₁ ws es₂, Takes next greedy m s [] es₁ ws t ∧ Resting next t ∧
    Answers next greedy n t acts es₂ ∧ es = es₁ ++ es₂

variable {next greedy} {m n k : Nat} {s t : τ} {cs : List Bytes} {es fs : List ε}
variable {ws : List Bytes} {acts : List Action}

theorem Leads.of_takes (htakes : Takes next greedy m s [] es ws t)
    (h : Leads next greedy t acts fs) : Leads next greedy s acts (es ++ fs) := by
  rcases h with ⟨m', n, u, es₁, ws', es₂, htakes', hu, hanswers, rfl⟩
  exact ⟨m + m', n, u, es ++ es₁, ws ++ ws', es₂, htakes.trans htakes', hu, hanswers, by simp⟩

/-- The program takes one write, and what it writes itself is enough for the script to read. -/
theorem Leads.exchange {c : Bytes} (hs : Resting next s)
    (htakes : Takes next greedy m s [c] es ws t) (hws : ws ≠ []) (hk : 0 < k)
    (h : Leads next greedy t acts fs) :
    Leads next greedy s (.write c :: .read k :: acts) (es ++ fs) := by
  rcases h with ⟨m', n, u, es₁, ws', es₂, htakes', hu, hanswers, rfl⟩
  have hboth := htakes.trans htakes'
  refine ⟨0, _, s, [], [], _, .done s, hs,
    .exchange hboth hu (by simp [hws]) hk hanswers, by simp⟩

theorem Leads.write {c : Bytes} (hs : Resting next s)
    (htakes : Takes next greedy m s [c] es ws t) (h : Leads next greedy t acts fs) :
    Leads next greedy s (.write c :: acts) (es ++ fs) := by
  rcases h with ⟨m', n, u, es₁, ws', es₂, htakes', hu, hanswers, rfl⟩
  have hboth := htakes.trans htakes'
  exact ⟨0, _, s, [], [], _, .done s, hs, .write hboth hu hanswers, by simp⟩

/-- A write of no bytes is nothing to the program. -/
theorem Leads.skip (h : Leads next greedy s acts fs) :
    Leads next greedy s (.write [] :: acts) fs := by
  rcases h with ⟨m, n, t, es₁, ws, es₂, htakes, ht, hanswers, rfl⟩
  exact ⟨m, n + 1, t, es₁, ws, es₂, htakes, ht, .skip hanswers, rfl⟩

theorem resting_of_read {c : Bytes} {k : Bytes → τ} (hc : c ≠ []) (hs : next s = .read n k)
    (hn : c.length = n ∨ greedy s = true ∧ c.length ≤ n) : Resting next s := by
  have hlen : 0 < c.length := List.length_pos_iff.2 hc
  exact ⟨n, k, hs, by omega⟩

/-- A script that writes several times in a row. -/
theorem Leads.writes (htakes : Takes next greedy m s cs es ws t)
    (h : Leads next greedy t acts fs) :
    Leads next greedy s (cs.map .write ++ acts) (es ++ fs) := by
  induction htakes with
  | done s =>
      exact h
  | read hc hs hn _ ih =>
      have hread := Takes.read hc hs hn (.done _)
      simpa using Leads.write (resting_of_read hc hs hn) hread (ih h)
  | skip hs _ ih =>
      simpa using Leads.of_takes (.skip hs (.done _)) (ih h)
  | emit hs _ ih =>
      simpa using Leads.of_takes (.emit hs (.done _)) (ih h)
  | write hw hs _ ih =>
      simpa using Leads.of_takes (.write hw hs (.done _)) (ih h)

/-- A script that writes several times in a row and then waits for the answer. -/
theorem Leads.exchanges {w : Bytes} {u : τ} (htakes : Takes next greedy m s cs es ws t)
    (hcs : cs ≠ []) (hw : w ≠ []) (ht : next t = .write w u) (hk : 0 < k)
    (h : Leads next greedy u acts fs) :
    Leads next greedy s (cs.map .write ++ .read k :: acts) (es ++ fs) := by
  induction htakes with
  | done s =>
      exact absurd rfl hcs
  | @read m n s t k' c cs es ws hc hs hn htakes ih =>
      -- each write goes to the program alone; the last one of them is answered
      have hread := Takes.read hc hs hn (.done _)
      cases cs with
      | nil =>
          have hall := (hread.trans htakes).trans (Takes.write hw ht (.done u))
          simpa using Leads.exchange (resting_of_read hc hs hn) hall (by simp) hk h
      | cons c' cs =>
          simpa using Leads.write (resting_of_read hc hs hn) hread (ih (by simp) ht)
  | skip hs _ ih =>
      simpa using Leads.of_takes (.skip hs (.done _)) (ih hcs ht)
  | emit hs _ ih =>
      simpa using Leads.of_takes (.emit hs (.done _)) (ih hcs ht)
  | write hw' hs _ ih =>
      simpa using Leads.of_takes (.write hw' hs (.done _)) (ih hcs ht)

end Answering

/-! ## Corresponding places -/

section Pairing

variable {τ ε : Type} (next : τ → Request τ ε) (greedy : τ → Bool)

/-- The program is to take the writes on their way and then answers the rest of the script, or
the script waits and what it waits for is there or will be written. -/
inductive Paired (w : Duplex (List Action) τ ε) : Nat → List ε → Prop
  | running {m n : Nat} {s : τ} {chunks : List Bytes} {es fs : List ε} {ws : List Bytes}
      (hunread : w.toRight.unread = chunks.flatten) (hlast : chunks <:+ w.toRight.writes)
      (htakes : Takes next greedy m w.right chunks es ws s) (hs : Resting next s)
      (hanswers : Answers next greedy n s w.left fs) : Paired w (m + n) (es ++ fs)
  | waiting {m n k : Nat} {s : τ} {chunks : List Bytes} {es fs : List ε} {ws : List Bytes}
      {acts : List Action} (hleft : w.left = .read k :: acts) (hk : 0 < k)
      (hunread : w.toRight.unread = chunks.flatten) (hlast : chunks <:+ w.toRight.writes)
      (htakes : Takes next greedy m w.right chunks es ws s) (hs : Resting next s)
      (hanswers : Answers next greedy n s acts fs)
      (hanswer : ws ≠ [] ∨ w.toLeft.unread ≠ []) : Paired w (m + n + 1) (es ++ fs)

variable {next greedy} {n : Nat} {es : List ε} {w w' : Duplex (List Action) τ ε} {side : Side}

theorem Paired.start {s : τ} {acts : List Action} (h : Leads next greedy s acts es) :
    ∃ n, Paired next greedy (Duplex.start acts s) n es := by
  rcases h with ⟨m, n, t, es₁, ws, es₂, htakes, ht, hanswers, rfl⟩
  have hlast : ([] : List Bytes) <:+
      (Duplex.start acts s : Duplex (List Action) τ ε).toRight.writes :=
    List.nil_suffix
  exact ⟨_, .running rfl hlast htakes ht hanswers⟩

/-- A greedy read finds one write. -/
theorem Pipe.length_le_one {pipe : Pipe} {chunks : List Bytes} (hne : ∀ c ∈ chunks, c ≠ [])
    (hunread : pipe.unread = chunks.flatten) (hlast : chunks <:+ pipe.writes)
    (hwrites : pipe.writes.getLast? = some pipe.unread) : chunks.length ≤ 1 := by
  match chunks with
  | [] =>
      simp
  | [c] =>
      simp
  | c :: d :: rest =>
      -- two writes unread are more bytes than the last write has
      exfalso
      rcases hlast with ⟨before, hbefore⟩
      rw [← hbefore, List.getLast?_append_of_ne_nil _ (by simp)] at hwrites
      have hmem : pipe.unread ∈ d :: rest := by
        rw [List.getLast?_cons_cons] at hwrites
        exact List.mem_of_getLast? hwrites
      have hle : pipe.unread.length ≤ (d :: rest).flatten.length :=
        (List.sublist_flatten_of_mem hmem).length_le
      have hc : 0 < c.length := List.length_pos_iff.2 (hne c (by simp))
      have hlen : pipe.unread.length = c.length + (d :: rest).flatten.length := by
        rw [hunread, List.flatten_cons, List.length_append]
      omega

/-- A step of the script. -/
theorem Paired.step_left (h : Paired next greedy w n es)
    (hstep : w.step script next .left = some w') :
    w'.noted = w.noted ∧ ∃ n', n = n' + 1 ∧ Paired next greedy w' n' es := by
  rcases Option.map_eq_some_iff.1 hstep with ⟨move, hmove, rfl⟩
  rcases w with ⟨left, right, toLeft, toRight, noted⟩
  cases h with
  | @running m n s chunks es fs ws hunread hlast htakes hs hanswers =>
      -- the script is not waiting, so it writes or has ended
      dsimp only at hunread hlast htakes hanswers hmove ⊢
      cases hanswers with
      | done =>
          cases hmove
      | @write m' n s t bs acts fs₁ fs₂ ws' htakes' ht hanswers =>
          cases hmove
          -- the bytes it writes are at the end of what the program has to take
          have hbs : bs ≠ [] := htakes'.ne_nil bs (by simp)
          rcases hlast with ⟨before, hbefore⟩
          refine ⟨by simp, m + m' + n, by omega, ?_⟩
          rw [← List.append_assoc]
          refine .running (by simp [Pipe.write, hunread]) ⟨before, ?_⟩ (htakes.trans htakes') ht
            hanswers
          simp [Pipe.write, ← hbefore, hbs]
      | @exchange m' n k s t bs acts fs₁ fs₂ ws' htakes' ht hws hk hanswers =>
          cases hmove
          have hbs : bs ≠ [] := htakes'.ne_nil bs (by simp)
          rcases hlast with ⟨before, hbefore⟩
          refine ⟨by simp, m + m' + n + 1, by omega, ?_⟩
          rw [← List.append_assoc]
          refine .waiting rfl hk (by simp [Pipe.write, hunread]) ⟨before, ?_⟩
            (htakes.trans htakes') ht hanswers (Or.inl (by simp [hws]))
          simp [Pipe.write, ← hbefore, hbs]
      | @skip n s acts fs hanswers =>
          cases hmove
          refine ⟨by simp, m + n, by omega, ?_⟩
          exact .running (by simpa [Pipe.write] using hunread) (by simpa [Pipe.write] using hlast)
            htakes hs hanswers
  | @waiting m n k s chunks es fs ws acts hleft hk hunread hlast htakes hs hanswers hanswer =>
      -- it waits: its read takes all that is there
      dsimp only at hleft hunread hlast htakes hanswers hmove ⊢
      subst hleft
      simp only [script, Request.perform, Nat.pos_iff_ne_zero.1 hk, if_false] at hmove
      split at hmove
      · cases hmove
      · cases hmove
        refine ⟨by simp, m + n, by omega, ?_⟩
        exact .running (by simpa [Pipe.write] using hunread) (by simpa [Pipe.write] using hlast)
          htakes hs hanswers

/-- What a step of the program leaves it to take. -/
theorem Takes.of_step {m : Nat} {s : τ} {chunks : List Bytes} {ws : List Bytes}
    (hunread : w.toRight.unread = chunks.flatten) (hlast : chunks <:+ w.toRight.writes)
    (htakes : Takes next greedy m w.right chunks es ws s) (hs : Resting next s)
    (hok : Unmixed greedy w .right) {move : Move τ ε}
    (hmove : (next w.right).perform w.toRight.unread = some move) :
    ∃ m' chunks' es' ws', m = m' + 1 ∧ move.unread = chunks'.flatten ∧
      chunks' <:+ w.toRight.writes ∧ es = move.noted ++ es' ∧
      (ws ≠ [] → ws' ≠ [] ∨ move.written.flatten ≠ []) ∧
      Takes next greedy m' move.state chunks' es' ws' s := by
  -- where the program asks for more than a write, only one is there
  have halone : greedy w.right = true → chunks.length ≤ 1 := fun hgreedy =>
    Pipe.length_le_one htakes.ne_nil hunread hlast (hok rfl hgreedy)
  rw [hunread] at hmove
  obtain ⟨m', chunks', es', ws', hm, hunread', hsuffix, hnoted, hwritten, hne, htakes'⟩ :=
    htakes.of_perform hs halone hmove
  refine ⟨m', chunks', es', ws', hm, hunread', hsuffix.trans hlast, hnoted, fun hws => ?_, htakes'⟩
  cases hw : move.written with
  | nil =>
      rw [hw, List.nil_append] at hwritten
      exact Or.inl (hwritten ▸ hws)
  | cons x xs =>
      have hx : x ≠ [] := hne x (by simp [hw])
      exact Or.inr (by simp [hx])

/-- A step of the program. -/
theorem Paired.step_right (h : Paired next greedy w n es) (hok : Unmixed greedy w .right)
    (hstep : w.step script next .right = some w') :
    ∃ n' es', n = n' + 1 ∧ w.noted ++ es = w'.noted ++ es' ∧ Paired next greedy w' n' es' := by
  rcases Option.map_eq_some_iff.1 hstep with ⟨move, hmove, rfl⟩
  cases h with
  | @running m n s chunks es fs ws hunread hlast htakes hs hanswers =>
      obtain ⟨m', chunks', es', ws', rfl, hunread', hlast', rfl, -, htakes'⟩ :=
        htakes.of_step hunread hlast hs hok hmove
      refine ⟨m' + n, es' ++ fs, by omega, by simp, ?_⟩
      exact .running hunread' hlast' htakes' hs hanswers
  | @waiting m n k s chunks es fs ws acts hleft hk hunread hlast htakes hs hanswers hanswer =>
      obtain ⟨m', chunks', es', ws', rfl, hunread', hlast', rfl, hws, htakes'⟩ :=
        htakes.of_step hunread hlast hs hok hmove
      refine ⟨m' + n + 1, es' ++ fs, by omega, by simp, ?_⟩
      refine .waiting hleft hk hunread' hlast' htakes' hs hanswers ?_
      -- what the script waits for is still to be written, or has been
      rcases hanswer with hanswer | hanswer
      · rcases hws hanswer with hws' | hwritten
        · exact Or.inl hws'
        · exact Or.inr (by simp only [Pipe.write]; simp [hwritten])
      · exact Or.inr (by simp only [Pipe.write]; simp [hanswer])

theorem Paired.step (h : Paired next greedy w n es) (hok : Unmixed greedy w side)
    (hstep : w.step script next side = some w') :
    ∃ n' es', n = n' + 1 ∧ w.noted ++ es = w'.noted ++ es' ∧ Paired next greedy w' n' es' := by
  cases side with
  | left =>
      rcases h.step_left hstep with ⟨hnoted, n', hn, hpaired⟩
      exact ⟨n', es, hn, by rw [hnoted], hpaired⟩
  | right =>
      exact h.step_right hok hstep

/-- An unmixed run notes what it should, and takes one of the steps to come with each of its own. -/
theorem Paired.run {sides : List Side} (h : Paired next greedy w n es)
    (hrun : runWhile (Duplex.step script next) (Unmixed greedy) w sides = some w') :
    ∃ n' es', n = sides.length + n' ∧ w.noted ++ es = w'.noted ++ es' ∧
      Paired next greedy w' n' es' := by
  induction sides generalizing w n es with
  | nil =>
      cases hrun
      exact ⟨n, es, by simp, rfl, h⟩
  | cons side rest ih =>
      rw [runWhile, run_cons, Option.bind_eq_some_iff] at hrun
      rcases hrun with ⟨w₁, hstep, hrest⟩
      split at hstep
      · next hok =>
          rcases h.step hok hstep with ⟨n₁, es₁, rfl, hnoted₁, h₁⟩
          rcases ih h₁ hrest with ⟨n', es', rfl, hnoted', h'⟩
          exact ⟨n', es', by simp; omega, hnoted₁.trans hnoted', h'⟩
      · cases hstep

/-- When neither side can go on, all has been noted. -/
theorem Paired.stuck (h : Paired next greedy w n es) (hstuck : w.Stuck script next) : es = [] := by
  rcases hstuck with ⟨hleft, hright⟩
  have hright' : (next w.right).perform w.toRight.unread = none := Option.map_eq_none_iff.1 hright
  have hleft' : (script w.left).perform w.toLeft.unread = (none : Option (Move _ ε)) :=
    Option.map_eq_none_iff.1 hleft
  cases h with
  | @running m n s chunks es fs ws hunread hlast htakes hs hanswers =>
      rw [hunread] at hright'
      rcases htakes.of_stuck hright' with ⟨_, rfl, rfl⟩
      generalize hacts : w.left = acts at hanswers hleft'
      cases hanswers with
      | done =>
          rfl
      | _ =>
          cases hleft'
  | @waiting m n k s chunks es fs ws acts hl hk hunread hlast htakes hs hanswers hanswer =>
      rw [hunread] at hright'
      rcases htakes.of_stuck hright' with ⟨_, rfl, rfl⟩
      -- the program has nothing more to write, so the answer is there
      have hthere : w.toLeft.unread ≠ [] := by simpa using hanswer
      rw [hl] at hleft'
      simp [script, Request.perform, hthere, Nat.pos_iff_ne_zero.1 hk] at hleft'

/-- Every unmixed run of a program with a script that it answers comes to an end; it notes a first
part of what it should, and all of it when neither side can go on. -/
theorem Leads.runs {s : τ} {acts : List Action} (h : Leads next greedy s acts es) :
    ∃ bound, ∀ sides w,
      runWhile (Duplex.step script next) (Unmixed greedy) (Duplex.start acts s) sides = some w →
      sides.length ≤ bound ∧ ∃ rest, es = w.noted ++ rest ∧ (w.Stuck script next → rest = []) := by
  rcases Paired.start h with ⟨bound, hpaired⟩
  refine ⟨bound, fun sides w hrun => ?_⟩
  rcases hpaired.run hrun with ⟨n, rest, hn, hnoted, hpaired'⟩
  -- what is noted and what is still to be noted make up the events
  have hall : es = w.noted ++ rest := hnoted
  exact ⟨by omega, rest, hall, hpaired'.stuck⟩

end Pairing

end Library
end DropboxSimulator
