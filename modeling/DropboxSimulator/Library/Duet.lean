import DropboxSimulator.Library.Dialogue

/-!
# Duet — two programs that play a script to its end

`Plays` says what a program may do while it plays a script.  Here its steps and the events that it
notes are counted as well.

* `Performs` : a program does its part of a script in so many steps, and notes just these events;
* `Duet`     : two programs perform what is left of a script, with the steps and the events to come.

A step of either program is one of the steps to come, so two programs that perform one script come
to their end (`Duet.run`); and as long as something is left, one of them can go on (`Duet.stuck`).
`Performs.together` puts both together.
-/

namespace DropboxSimulator
namespace Library

section Performing

variable {σ ε : Type} (next : σ → Request σ ε) (side : Side) (guarded : σ → Bool)

/-- From `s` the program does its part of the script in `m` steps, takes each message of the other
side with one read, notes the events, and waits or has halted. -/
inductive Performs : Nat → Lines → List ε → σ → Prop
  | done {s : σ} (hidle : (next s).perform [] = none) : Performs 0 [] [] s
  | emit {m : Nat} {lines : Lines} {es : List ε} {s k : σ} {e : ε} (hs : next s = .emit e k) :
      Performs m lines es k → Performs (m + 1) lines (e :: es) s
  | skip {m : Nat} {lines : Lines} {es : List ε} {s : σ} {k : Bytes → σ} (hs : next s = .read 0 k) :
      Performs m lines es (k []) → Performs (m + 1) lines es s
  | send {m : Nat} {lines : Lines} {es : List ε} {s k : σ} {c : Bytes} (hc : c ≠ [])
      (hs : next s = .write c k) :
      Performs m lines es k → Performs (m + 1) ((side, c) :: lines) es s
  | blank {m : Nat} {lines : Lines} {es : List ε} {s k : σ} (hs : next s = .write [] k) :
      Performs m lines es k → Performs (m + 1) lines es s
  | receive {m : Nat} {lines : Lines} {es : List ε} {s : σ} {n : Nat} {k : Bytes → σ} {c : Bytes}
      (hc : c ≠ []) (hs : next s = .read n k)
      (hn : c.length = n ∨
        (c.length ≤ n ∧ (guarded s = true ∨ ∀ line ∈ lines.head?, line.1 = side))) :
      Performs m lines es (k c) → Performs (m + 1) ((side.other, c) :: lines) es s

variable {next side guarded} {s t : σ} {m : Nat} {lines : Lines} {es : List ε}

/-- No message of the script is empty. -/
theorem Performs.ne_nil (h : Performs next side guarded m lines es s) :
    ∀ line ∈ lines, line.2 ≠ [] := by
  induction h with
  | done hidle =>
      simp
  | emit hs _ ih =>
      exact ih
  | skip hs _ ih =>
      exact ih
  | send hc hs _ ih =>
      exact List.forall_mem_cons.2 ⟨hc, ih⟩
  | blank hs _ ih =>
      exact ih
  | receive hc hs hn _ ih =>
      exact List.forall_mem_cons.2 ⟨hc, ih⟩

/-- Chunks that a program consumes are messages it takes. -/
theorem Performs.consumes {cs : List Bytes} {fs : List ε} (h : Consumes next s cs fs [] t)
    (ht : ∃ m, Performs next side guarded m lines es t) :
    ∃ m, Performs next side guarded m (Lines.by side.other cs ++ lines) (fs ++ es) s := by
  generalize hws : ([] : List Bytes) = ws at h
  induction h with
  | done s =>
      exact ht
  | read hc hs _ ih =>
      rcases ih ht hws with ⟨m, hm⟩
      exact ⟨m + 1, .receive hc hs (Or.inl rfl) hm⟩
  | skip hs _ ih =>
      rcases ih ht hws with ⟨m, hm⟩
      exact ⟨m + 1, .skip hs hm⟩
  | emit hs _ ih =>
      rcases ih ht hws with ⟨m, hm⟩
      exact ⟨m + 1, .emit hs hm⟩
  | write hs _ _ =>
      cases hws

/-- A program that writes what is pending, chunk by chunk; an empty chunk is no message. -/
theorem Performs.writes {k : List Bytes → σ}
    (hs : ∀ c pending, next (k (c :: pending)) = .write c (k pending)) (pending : List Bytes)
    (h : ∃ m, Performs next side guarded m lines es (k [])) :
    ∃ m, Performs next side guarded m (Lines.by side (pending.filter (· ≠ [])) ++ lines) es
      (k pending) := by
  induction pending with
  | nil =>
      exact h
  | cons c pending ih =>
      rcases ih with ⟨m, hm⟩
      by_cases hc : c = []
      · subst hc
        exact ⟨m + 1, .blank (hs [] pending) hm⟩
      · rw [List.filter_cons_of_pos (by simpa using hc)]
        exact ⟨m + 1, .send hc (hs c pending) hm⟩

/-- A read gets a message that has just its size, or that is there alone. -/
theorem perform_receive {n : Nat} {k : Bytes → σ} {c : Bytes} {chunks : List Bytes} (hc : c ≠ [])
    (hn : c.length = n ∨ (c.length ≤ n ∧ chunks = [])) :
    (Request.read n k : Request σ ε).perform (c :: chunks).flatten =
      some { state := k c, unread := chunks.flatten, written := [], noted := [] } := by
  have hlen : 0 < c.length := List.length_pos_iff.2 hc
  have hpos : 0 < n := by omega
  rw [Request.perform_read_cons hpos hc]
  rcases hn with rfl | ⟨hle, rfl⟩
  · simp
  · simp [List.take_of_length_le hle, hle]

/-- A step of the program, with the messages it has not read in front of those to come: it takes
some of them, or there are none and it writes the next message of the script. -/
theorem Performs.of_perform (chunks : List Bytes)
    (h : Performs next side guarded m (Lines.by side.other chunks ++ lines) es s)
    (halone : guarded s = true → chunks.length ≤ 1) {move : Move σ ε}
    (hmove : (next s).perform chunks.flatten = some move) :
    ∃ m' es', m = m' + 1 ∧ es = move.noted ++ es' ∧
      ((∃ chunks', move.unread = chunks'.flatten ∧ move.written.filter (· ≠ []) = [] ∧
          chunks' <:+ chunks ∧
          Performs next side guarded m' (Lines.by side.other chunks' ++ lines) es' move.state) ∨
        (∃ c lines', chunks = [] ∧ move.unread = [] ∧ move.written = [c] ∧ c ≠ [] ∧
          lines = (side, c) :: lines' ∧ Performs next side guarded m' lines' es' move.state)) := by
  generalize hall : Lines.by side.other chunks ++ lines = all at h
  cases h with
  | done hidle =>
      have hchunks : chunks = [] := by
        simpa [Lines.by] using (List.append_eq_nil_iff.1 hall).1
      rw [hchunks, List.flatten_nil, hidle] at hmove
      cases hmove
  | emit hs h =>
      rw [hs, Request.perform, Option.some.injEq] at hmove
      subst hmove hall
      exact ⟨_, _, rfl, rfl, Or.inl ⟨chunks, rfl, rfl, List.suffix_rfl, h⟩⟩
  | skip hs h =>
      rw [hs, Request.perform, if_pos rfl, Option.some.injEq] at hmove
      subst hmove hall
      exact ⟨_, _, rfl, rfl, Or.inl ⟨chunks, rfl, rfl, List.suffix_rfl, h⟩⟩
  | blank hs h =>
      rw [hs, Request.perform, Option.some.injEq] at hmove
      subst hmove hall
      exact ⟨_, _, rfl, rfl, Or.inl ⟨chunks, rfl, rfl, List.suffix_rfl, h⟩⟩
  | send hc hs h =>
      rw [hs, Request.perform, Option.some.injEq] at hmove
      subst hmove
      cases chunks with
      | nil =>
          exact ⟨_, _, rfl, rfl, Or.inr ⟨_, _, rfl, rfl, rfl, hc, hall, h⟩⟩
      | cons c' chunks =>
          -- the next message of the script is still to be read
          have hside := congrArg Prod.fst (List.cons_eq_cons.1 hall).1
          exact absurd hside (Side.other_ne side)
  | @receive m' lines' _ _ n k c hc hs hn h =>
      rw [hs] at hmove
      cases chunks with
      | nil =>
          have hlen : 0 < c.length := List.length_pos_iff.2 hc
          rw [List.flatten_nil, Request.perform_read_nil (by omega)] at hmove
          cases hmove
      | cons c' chunks =>
          rcases List.cons_eq_cons.1 hall with ⟨hhead, rfl⟩
          obtain rfl : c' = c := congrArg Prod.snd hhead
          -- whoever asks for more finds the message alone
          have hthere : c'.length = n ∨ (c'.length ≤ n ∧ chunks = []) := by
            rcases hn with hn | ⟨hle, hguarded | hturn⟩
            · exact Or.inl hn
            · have hone := halone hguarded
              rw [List.length_cons] at hone
              exact Or.inr ⟨hle, List.length_eq_zero_iff.1 (by omega)⟩
            · cases chunks with
              | nil =>
                  exact Or.inr ⟨hle, rfl⟩
              | cons d chunks =>
                  exact absurd (hturn (side.other, d) (by rfl)) (Side.other_ne side)
          rw [perform_receive hc hthere, Option.some.injEq] at hmove
          subst hmove
          exact ⟨m', es, rfl, rfl, Or.inl ⟨chunks, rfl, rfl, List.suffix_cons c' chunks, h⟩⟩

/-- A program that can take no step has read all that is there, and it has done its part or waits
for the next message. -/
theorem Performs.of_stuck (chunks : List Bytes)
    (h : Performs next side guarded m (Lines.by side.other chunks ++ lines) es s)
    (hstuck : (next s).perform chunks.flatten = none) :
    chunks = [] ∧ (((m = 0 ∧ es = []) ∧ lines = []) ∨ ∃ c, (side.other, c) ∈ lines.head?) := by
  generalize hall : Lines.by side.other chunks ++ lines = all at h
  cases h with
  | done hidle =>
      have hnil : chunks = [] ∧ lines = [] := by simpa [Lines.by] using hall
      exact ⟨hnil.1, Or.inl ⟨⟨rfl, rfl⟩, hnil.2⟩⟩
  | emit hs _ =>
      rw [hs] at hstuck
      cases hstuck
  | skip hs _ =>
      rw [hs] at hstuck
      cases hstuck
  | send hc hs _ =>
      rw [hs] at hstuck
      cases hstuck
  | blank hs _ =>
      rw [hs] at hstuck
      cases hstuck
  | @receive _ lines' _ _ n k c hc hs hn _ =>
      cases chunks with
      | nil =>
          exact ⟨rfl, Or.inr ⟨c, by rw [show lines = _ from hall]; rfl⟩⟩
      | cons c' chunks =>
          obtain rfl : c' = c := congrArg Prod.snd (List.cons_eq_cons.1 hall).1
          have hlen : 0 < c'.length := List.length_pos_iff.2 hc
          rw [hs, Request.perform_read_cons (by omega) hc] at hstuck
          cases hstuck

end Performing

/-! ## Two programs -/

/-- Writes of no bytes leave a pipe as it is. -/
theorem Pipe.write_blank {ws : List Bytes} (h : ws.filter (· ≠ []) = []) (pipe : Pipe) :
    pipe.write ws = pipe := by
  rw [Pipe.write, h, List.append_nil, ← List.flatten_filter_ne_nil, h]
  simp

section Two

variable {σ τ ε : Type} (p : σ → Request σ ε) (q : τ → Request τ ε) (guarded : τ → Bool)

/-- The two programs perform what is left of a script in `n` steps, and note the events `es` on the
left and `fs` on the right; what one of them has written and the other has not read is all from one
side. -/
inductive Duet (w : Duplex σ τ ε) (n : Nat) (es fs : List ε) : Prop
  | leftAhead (chunks : List Bytes) {lines : Lines} {i j : Nat} (hn : n = i + j)
      (hunread : w.toRight.unread = chunks.flatten) (hlast : chunks <:+ w.toRight.writes)
      (hnone : w.toLeft.unread = [])
      (hleft : Performs p .left (fun _ => false) i lines es w.left)
      (hright : Performs q .right guarded j (Lines.by .left chunks ++ lines) fs w.right)
  | rightAhead (chunks : List Bytes) {lines : Lines} {i j : Nat} (hn : n = i + j)
      (hunread : w.toLeft.unread = chunks.flatten) (hnone : w.toRight.unread = [])
      (hleft : Performs p .left (fun _ => false) i (Lines.by .right chunks ++ lines) es w.left)
      (hright : Performs q .right guarded j lines fs w.right)

variable {p q guarded} {w w' : Duplex σ τ ε} {n : Nat} {es fs : List ε} {side : Side}

theorem Duet.start {s : σ} {t : τ} {lines : Lines} {i j : Nat}
    (hs : Performs p .left (fun _ => false) i lines es s)
    (ht : Performs q .right guarded j lines fs t) :
    Duet p q guarded (Duplex.start s t) (i + j) es fs :=
  .leftAhead [] rfl rfl List.nil_suffix rfl hs ht

/-- A step of the left program is one of the steps to come. -/
theorem Duet.step_left (h : Duet p q guarded w n es fs) (hstep : w.step p q .left = some w') :
    ∃ n' es' noted, n = n' + 1 ∧ es = noted ++ es' ∧ w'.noted = w.noted ++ noted ∧
      Duet p q guarded w' n' es' fs := by
  rcases Option.map_eq_some_iff.1 hstep with ⟨move, hmove, rfl⟩
  cases h with
  | @leftAhead chunks lines i j hn hunread hlast hnone hleft hright =>
      rw [hnone] at hmove
      obtain ⟨i', es', rfl, rfl, hcase⟩ := Performs.of_perform [] hleft (by simp) hmove
      refine ⟨i' + j, es', move.noted, by omega, rfl, rfl, ?_⟩
      rcases hcase with ⟨chunks', hrest, hwritten, hsuffix, hperforms⟩ |
        ⟨c, lines', _, hrest, hwritten, hc, rfl, hperforms⟩
      · rw [List.suffix_nil.1 hsuffix] at hrest hperforms
        refine .leftAhead chunks rfl ?_ ?_ hrest hperforms hright
        · exact (Pipe.write_blank hwritten _).symm ▸ hunread
        · exact (Pipe.write_blank hwritten _).symm ▸ hlast
      · -- one message more is on its way
        rw [Lines.by_append] at hright
        refine .leftAhead (chunks ++ [c]) rfl ?_ ?_ hrest hperforms hright
        · simp [Pipe.write, hwritten, hunread]
        · rcases hlast with ⟨before, hbefore⟩
          exact ⟨before, by simp [Pipe.write, hwritten, hc, ← hbefore]⟩
  | @rightAhead chunks lines i j hn hunread hnone hleft hright =>
      rw [hunread] at hmove
      obtain ⟨i', es', rfl, rfl, hcase⟩ := Performs.of_perform chunks hleft (by simp) hmove
      refine ⟨i' + j, es', move.noted, by omega, rfl, rfl, ?_⟩
      rcases hcase with ⟨chunks', hrest, hwritten, _, hperforms⟩ |
        ⟨c, lines', rfl, hrest, hwritten, hc, rfl, hperforms⟩
      · refine .rightAhead chunks' rfl hrest ?_ hperforms hright
        exact (Pipe.write_blank hwritten _).symm ▸ hnone
      · refine .leftAhead [c] rfl ?_ ?_ hrest hperforms hright
        · simp [Pipe.write, hwritten, hnone]
        · exact ⟨w.toRight.writes, by simp [Pipe.write, hwritten, hc]⟩

/-- So is a step of the right one, if a guarded read finds one message. -/
theorem Duet.step_right (h : Duet p q guarded w n es fs) (hok : Unmixed guarded w .right)
    (hstep : w.step p q .right = some w') :
    ∃ n' fs' noted, n = n' + 1 ∧ fs = noted ++ fs' ∧ w'.noted = w.noted ++ noted ∧
      Duet p q guarded w' n' es fs' := by
  rcases Option.map_eq_some_iff.1 hstep with ⟨move, hmove, rfl⟩
  cases h with
  | @leftAhead chunks lines i j hn hunread hlast hnone hleft hright =>
      have halone : guarded w.right = true → chunks.length ≤ 1 := fun hguarded =>
        Pipe.length_le_one
          (fun c hc => hright.ne_nil (.left, c) (by simp [Lines.by, hc])) hunread hlast
          (hok rfl hguarded)
      rw [hunread] at hmove
      obtain ⟨j', fs', rfl, rfl, hcase⟩ := Performs.of_perform chunks hright halone hmove
      refine ⟨i + j', fs', move.noted, by omega, rfl, rfl, ?_⟩
      rcases hcase with ⟨chunks', hrest, hwritten, hsuffix, hperforms⟩ |
        ⟨c, lines', rfl, hrest, hwritten, hc, rfl, hperforms⟩
      · refine .leftAhead chunks' rfl hrest (hsuffix.trans hlast) ?_ hleft hperforms
        exact (Pipe.write_blank hwritten _).symm ▸ hnone
      · refine .rightAhead [c] rfl ?_ hrest hleft hperforms
        simp [Pipe.write, hwritten, hnone]
  | @rightAhead chunks lines i j hn hunread hnone hleft hright =>
      rw [hnone] at hmove
      obtain ⟨j', fs', rfl, rfl, hcase⟩ := Performs.of_perform [] hright (by simp) hmove
      refine ⟨i + j', fs', move.noted, by omega, rfl, rfl, ?_⟩
      rcases hcase with ⟨chunks', hrest, hwritten, hsuffix, hperforms⟩ |
        ⟨c, lines', _, hrest, hwritten, hc, rfl, hperforms⟩
      · rw [List.suffix_nil.1 hsuffix] at hrest hperforms
        refine .rightAhead chunks rfl ?_ hrest hleft hperforms
        exact (Pipe.write_blank hwritten _).symm ▸ hunread
      · rw [Lines.by_append] at hleft
        refine .rightAhead (chunks ++ [c]) rfl ?_ hrest hleft hperforms
        simp [Pipe.write, hwritten, hunread]

/-- What the right program notes can be told from what the left one notes. -/
structure Separates (keep : ε → Bool) (es fs : List ε) : Prop where
  left : ∀ e ∈ es, keep e = false
  right : ∀ e ∈ fs, keep e = true

theorem Duet.step {keep : ε → Bool} (h : Duet p q guarded w n es fs) (hs : Separates keep es fs)
    (hok : Unmixed guarded w side) (hstep : w.step p q side = some w') :
    ∃ n' es' fs', n = n' + 1 ∧ Separates keep es' fs' ∧
      w'.noted.filter (fun e => !keep e) ++ es' = w.noted.filter (fun e => !keep e) ++ es ∧
      w'.noted.filter keep ++ fs' = w.noted.filter keep ++ fs ∧
      Duet p q guarded w' n' es' fs' := by
  cases side with
  | left =>
      obtain ⟨n', es', noted, rfl, rfl, hnoted, hduet⟩ := h.step_left hstep
      rcases List.forall_mem_append.1 hs.left with ⟨hnow, hlater⟩
      refine ⟨n', es', fs, rfl, ⟨hlater, hs.right⟩, ?_, ?_, hduet⟩
      · have hall : noted.filter (fun e => !keep e) = noted :=
          List.filter_eq_self.2 fun e he => by simp [hnow e he]
        rw [hnoted, List.filter_append, hall, List.append_assoc]
      · have hnone : noted.filter keep = [] :=
          List.filter_eq_nil_iff.2 fun e he => by simp [hnow e he]
        rw [hnoted, List.filter_append, hnone, List.append_nil]
  | right =>
      obtain ⟨n', fs', noted, rfl, rfl, hnoted, hduet⟩ := h.step_right hok hstep
      rcases List.forall_mem_append.1 hs.right with ⟨hnow, hlater⟩
      refine ⟨n', es, fs', rfl, ⟨hs.left, hlater⟩, ?_, ?_, hduet⟩
      · have hnone : noted.filter (fun e => !keep e) = [] :=
          List.filter_eq_nil_iff.2 fun e he => by simp [hnow e he]
        rw [hnoted, List.filter_append, hnone, List.append_nil]
      · have hall : noted.filter keep = noted := List.filter_eq_self.2 hnow
        rw [hnoted, List.filter_append, hall, List.append_assoc]

/-- Each step of a run whose guarded reads find one message is one of the steps to come, and what
each side has noted is the first part of what it is to note. -/
theorem Duet.run {keep : ε → Bool} {sides : List Side} (h : Duet p q guarded w n es fs)
    (hs : Separates keep es fs)
    (hrun : runWhile (Duplex.step p q) (Unmixed guarded) w sides = some w') :
    ∃ n' es' fs', n = sides.length + n' ∧
      w'.noted.filter (fun e => !keep e) ++ es' = w.noted.filter (fun e => !keep e) ++ es ∧
      w'.noted.filter keep ++ fs' = w.noted.filter keep ++ fs ∧
      Duet p q guarded w' n' es' fs' := by
  induction sides generalizing w n es fs with
  | nil =>
      cases hrun
      exact ⟨n, es, fs, by simp, rfl, rfl, h⟩
  | cons side rest ih =>
      rw [runWhile, run_cons, Option.bind_eq_some_iff] at hrun
      rcases hrun with ⟨w₁, hstep, hrest⟩
      split at hstep
      · next hok =>
          obtain ⟨n₁, es₁, fs₁, rfl, hs₁, hleft₁, hright₁, h₁⟩ := h.step hs hok hstep
          obtain ⟨n', es', fs', rfl, hleft', hright', h'⟩ := ih h₁ hs₁ hrest
          exact ⟨n', es', fs', by simp; omega, hleft'.trans hleft₁, hright'.trans hright₁, h'⟩
      · cases hstep

/-- Two programs that wait, each for the other, have both done their part: the next message is
one side's. -/
theorem both_done {lines : Lines} {P Q : Prop}
    (hl : (P ∧ lines = []) ∨ ∃ c, (Side.left.other, c) ∈ lines.head?)
    (hr : (Q ∧ lines = []) ∨ ∃ c, (Side.right.other, c) ∈ lines.head?) : P ∧ Q := by
  rcases hl with ⟨hp, rfl⟩ | ⟨c, hc⟩
  · rcases hr with ⟨hq, -⟩ | ⟨c, hc⟩
    · exact ⟨hp, hq⟩
    · cases hc
  · rcases hr with ⟨-, rfl⟩ | ⟨c', hc'⟩
    · cases hc
    · have hside := congrArg Prod.fst (Option.mem_unique hc hc')
      cases hside

/-- When neither program can go on, the script is played and all has been noted. -/
theorem Duet.stuck (h : Duet p q guarded w n es fs) (hstuck : w.Stuck p q) :
    n = 0 ∧ es = [] ∧ fs = [] := by
  have hleft' : (p w.left).perform w.toLeft.unread = none := Option.map_eq_none_iff.1 hstuck.1
  have hright' : (q w.right).perform w.toRight.unread = none := Option.map_eq_none_iff.1 hstuck.2
  cases h with
  | leftAhead chunks hn hunread hlast hnone hleft hright =>
      rw [hnone] at hleft'
      rw [hunread] at hright'
      obtain ⟨-, hl⟩ := Performs.of_stuck [] hleft hleft'
      obtain ⟨rfl, hr⟩ := Performs.of_stuck chunks hright hright'
      obtain ⟨⟨rfl, rfl⟩, rfl, rfl⟩ := both_done hl hr
      exact ⟨hn, rfl, rfl⟩
  | rightAhead chunks hn hunread hnone hleft hright =>
      rw [hunread] at hleft'
      rw [hnone] at hright'
      obtain ⟨rfl, hl⟩ := Performs.of_stuck chunks hleft hleft'
      obtain ⟨-, hr⟩ := Performs.of_stuck [] hright hright'
      obtain ⟨⟨rfl, rfl⟩, rfl, rfl⟩ := both_done hl hr
      exact ⟨hn, rfl, rfl⟩

/-- Two programs that perform one script come to its end: each of them has noted the first part of
its events all the time, and all of its events when neither can go on. -/
theorem Performs.together {keep : ε → Bool} {s : σ} {t : τ} {lines : Lines} {i j : Nat}
    (hp : Performs p .left (fun _ => false) i lines es s)
    (hq : Performs q .right guarded j lines fs t) (hs : Separates keep es fs) :
    ∃ bound, ∀ sides w,
      runWhile (Duplex.step p q) (Unmixed guarded) (Duplex.start s t) sides = some w →
      sides.length ≤ bound ∧
        (w.noted.filter (fun e => !keep e) <+: es ∧ w.noted.filter keep <+: fs) ∧
        (w.Stuck p q → w.noted.filter (fun e => !keep e) = es ∧ w.noted.filter keep = fs) := by
  refine ⟨i + j, fun sides w hrun => ?_⟩
  obtain ⟨n, es', fs', hn, hleft, hright, hduet⟩ := (Duet.start hp hq).run hs hrun
  refine ⟨by omega, ⟨⟨es', hleft⟩, ⟨fs', hright⟩⟩, fun hstuck => ?_⟩
  obtain ⟨-, rfl, rfl⟩ := hduet.stuck hstuck
  rw [List.append_nil] at hleft hright
  exact ⟨hleft, hright⟩

end Two

end Library
end DropboxSimulator
