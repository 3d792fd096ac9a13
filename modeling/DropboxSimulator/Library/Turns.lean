import DropboxSimulator.Library.Duplex

/-!
# Turns — a script that waits for the answer to each of its blocks

A script writes a block of messages and waits for the answer before it writes the next.  A program
that answers each block when it has read all of it keeps in step with the script, however the steps
of the two are ordered, and its reads may then ask for more than the last message of a block holds.

* `Absorbs`    : the program reads a block;
* `Concludes`  : what the program does by itself after the last block;
* `Holds`      : the program answers the blocks of a script;
* `Conversing` : where the two are, with the number of steps to come.

Every run comes to its end within that number (`Conversing.step`), and ends with both sides through
(`Conversing.stuck`).
-/

namespace DropboxSimulator
namespace Library

section Blocks

variable {τ ε : Type} (next : τ → Request τ ε)

/-- From `s` the program reads the messages of a block, each with one read, and comes to `t`.  Only
behind the last message a read may ask for more. -/
inductive Absorbs : Nat → τ → List Bytes → τ → Prop
  | done (s : τ) : Absorbs 0 s [] s
  | read {m n : Nat} {s t : τ} {k : Bytes → τ} {c : Bytes} {cs : List Bytes} (hc : c ≠ [])
      (hs : next s = .read n k) (hn : c.length = n ∨ c.length ≤ n ∧ cs = []) :
      Absorbs m (k c) cs t → Absorbs (m + 1) s (c :: cs) t
  | skip {m : Nat} {s t : τ} {k : Bytes → τ} {cs : List Bytes} (hs : next s = .read 0 k) :
      Absorbs m (k []) cs t → Absorbs (m + 1) s cs t

/-- From `s` the program writes and notes the events without reading, and then waits at `t`. -/
inductive Concludes : Nat → τ → List ε → τ → Prop
  | rest {t : τ} (ht : Resting next t) : Concludes 0 t [] t
  | write {m : Nat} {s k t : τ} {w : Bytes} {es : List ε} (hs : next s = .write w k) :
      Concludes m k es t → Concludes (m + 1) s es t
  | emit {m : Nat} {s k t : τ} {e : ε} {es : List ε} (hs : next s = .emit e k) :
      Concludes m k es t → Concludes (m + 1) s (e :: es) t

/-- From `s` the program answers each block of the script, and comes to `final` with the last one,
behind which the script is at `tail`. -/
inductive Holds (tail : List Action) (final : τ) : Nat → τ → List Action → Prop
  | last {m : Nat} {s : τ} {block : List Bytes} (habs : Absorbs next m s block final) :
      Holds tail final (block.length + m) s (block.map .write ++ tail)
  | turn {m n k : Nat} {s t u : τ} {block : List Bytes} {answer : Bytes} {acts : List Action}
      (habs : Absorbs next m s block t) (ht : next t = .write answer u) (hu : Resting next u)
      (hne : answer ≠ []) (hk : answer.length ≤ k) :
      Holds tail final n u acts →
        Holds tail final (block.length + m + 2 + n) s (block.map .write ++ .read k :: acts)

/-- Where a script and a program stand in a conversation: a block is under way, its answer is, or
the last block and what comes behind it. -/
inductive Conversing (tail : List Action) (final t : τ) (w : Duplex (List Action) τ ε) :
    Nat → List ε → Prop
  | asking {m n l k : Nat} {s u : τ} {ahead pending : List Bytes} {answer : Bytes}
      {acts : List Action} {es : List ε} (hleft : w.left = pending.map .write ++ .read k :: acts)
      (hunread : w.toRight.unread = ahead.flatten) (hnone : w.toLeft.unread = [])
      (habs : Absorbs next m w.right (ahead ++ pending) s) (hs : next s = .write answer u)
      (hu : Resting next u) (hne : answer ≠ []) (hk : answer.length ≤ k)
      (hrest : Holds next tail final n u acts) (hcon : Concludes next l final es t) :
      Conversing tail final t w (pending.length + m + 2 + n + l) es
  | answered {n l k : Nat} {acts : List Action} {es : List ε} (hleft : w.left = .read k :: acts)
      (hanswer : w.toLeft.unread ≠ []) (hk : w.toLeft.unread.length ≤ k)
      (hnone : w.toRight.unread = []) (hright : Resting next w.right)
      (hrest : Holds next tail final n w.right acts) (hcon : Concludes next l final es t) :
      Conversing tail final t w (1 + n + l) es
  | last {m l : Nat} {ahead pending : List Bytes} {es : List ε}
      (hleft : w.left = pending.map .write ++ tail) (hunread : w.toRight.unread = ahead.flatten)
      (habs : Absorbs next m w.right (ahead ++ pending) final)
      (hcon : Concludes next l final es t) :
      Conversing tail final t w (pending.length + m + l) es
  | concluding {l : Nat} {es : List ε} (hleft : w.left = tail) (hnone : w.toRight.unread = [])
      (hcon : Concludes next l w.right es t) : Conversing tail final t w l es

variable {next} {tail : List Action} {final t s u : τ} {w w' : Duplex (List Action) τ ε}
variable {m n : Nat} {es : List ε} {acts : List Action} {side : Side}

/-- A program that consumes chunks can read them as a block. -/
theorem Consumes.absorbs {cs : List Bytes} (h : Consumes next s cs [] [] t) :
    ∃ m, Absorbs next m s cs t := by
  generalize hes : ([] : List ε) = es at h
  generalize hws : ([] : List Bytes) = ws at h
  induction h with
  | done s =>
      exact ⟨0, .done s⟩
  | read hc hs _ ih =>
      rcases ih hes hws with ⟨m, hm⟩
      exact ⟨m + 1, .read hc hs (Or.inl rfl) hm⟩
  | skip hs _ ih =>
      rcases ih hes hws with ⟨m, hm⟩
      exact ⟨m + 1, .skip hs hm⟩
  | emit hs _ _ =>
      cases hes
  | write hs _ _ =>
      cases hws

/-- A step of a program that reads a block, of which the first messages are there. -/
theorem Absorbs.of_perform {ahead pending : List Bytes}
    (h : Absorbs next m s (ahead ++ pending) t) {move : Move τ ε}
    (hmove : (next s).perform ahead.flatten = some move) :
    (m = 0 ∧ s = t ∧ ahead = [] ∧ pending = []) ∨
      ∃ m' ahead', m = m' + 1 ∧ move.unread = ahead'.flatten ∧ move.written = [] ∧
        move.noted = [] ∧ Absorbs next m' move.state (ahead' ++ pending) t := by
  generalize hall : ahead ++ pending = all at h
  cases h with
  | done s =>
      rcases List.append_eq_nil_iff.1 hall with ⟨hahead, hpending⟩
      exact Or.inl ⟨rfl, rfl, hahead, hpending⟩
  | @read m n s t k c cs hc hs hn h =>
      have hlen : 0 < c.length := List.length_pos_iff.2 hc
      have hpos : 0 < n := by omega
      cases ahead with
      | nil =>
          rw [hs, List.flatten_nil, Request.perform_read_nil hpos] at hmove
          cases hmove
      | cons c' ahead =>
          rcases List.cons_eq_cons.1 hall with ⟨rfl, htail⟩
          rw [hs, Request.perform_read_cons hpos hc] at hmove
          cases hmove
          have htake : (c' :: ahead).flatten.take n = c' ∧
              (c' :: ahead).flatten.drop n = ahead.flatten := by
            rcases hn with rfl | ⟨hle, hnil⟩
            · simp
            · -- the block has ended with this message
              have hahead : ahead = [] := (List.append_eq_nil_iff.1 (htail.trans hnil)).1
              subst hahead
              simp [hle]
          refine Or.inr ⟨m, ahead, rfl, htake.2, rfl, rfl, ?_⟩
          dsimp only
          rw [htake.1]
          subst htail
          exact h
  | skip hs h =>
      simp only [hs, Request.perform, if_true, Option.some.injEq] at hmove
      subst hmove
      subst hall
      exact Or.inr ⟨_, ahead, rfl, rfl, rfl, rfl, h⟩

/-- A program that has not read the whole block can go on once all of it is there. -/
theorem Absorbs.of_stuck {block : List Bytes} (h : Absorbs next m s block t)
    (hstuck : (next s).perform block.flatten = none) : m = 0 ∧ s = t ∧ block = [] := by
  cases h with
  | done s =>
      exact ⟨rfl, rfl, rfl⟩
  | @read m n s t k c cs hc hs hn h =>
      have hlen : 0 < c.length := List.length_pos_iff.2 hc
      have hpos : 0 < n := by omega
      rw [hs, Request.perform_read_cons hpos hc] at hstuck
      cases hstuck
  | skip hs h =>
      simp [hs, Request.perform] at hstuck

theorem Concludes.of_perform (h : Concludes next m s es t) {unread : Bytes} (hunread : unread = [])
    {move : Move τ ε} (hmove : (next s).perform unread = some move) :
    ∃ m' es', m = m' + 1 ∧ es = move.noted ++ es' ∧ move.unread = [] ∧
      Concludes next m' move.state es' t := by
  subst hunread
  cases h with
  | rest ht =>
      rw [ht.perform_nil] at hmove
      cases hmove
  | write hs h =>
      rw [hs, Request.perform, Option.some.injEq] at hmove
      subst hmove
      exact ⟨_, _, rfl, rfl, rfl, h⟩
  | emit hs h =>
      rw [hs, Request.perform, Option.some.injEq] at hmove
      subst hmove
      exact ⟨_, _, rfl, rfl, rfl, h⟩

theorem Concludes.of_stuck (h : Concludes next m s es t) {unread : Bytes}
    (hstuck : (next s).perform unread = none) : s = t ∧ es = [] := by
  cases h with
  | rest ht =>
      exact ⟨rfl, rfl⟩
  | write hs h =>
      simp [hs, Request.perform] at hstuck
  | emit hs h =>
      simp [hs, Request.perform] at hstuck

/-- From the start of a script the conversation begins with its first block. -/
theorem Holds.conversing (h : Holds next tail final n w.right w.left) {l : Nat}
    (hcon : Concludes next l final es t) (hright : w.toRight.unread = [])
    (hleft : w.toLeft.unread = []) : Conversing next tail final t w (n + l) es := by
  generalize hs : w.right = s at h
  generalize hacts : w.left = acts at h
  subst hs
  have hunread : w.toRight.unread = ([] : List Bytes).flatten := hright
  cases h with
  | last habs =>
      exact .last hacts hunread habs hcon
  | turn habs ht hu hne hk hrest =>
      exact .asking hacts hunread hleft habs ht hu hne hk hrest hcon

/-! ## Steps -/

/-- A step of the script. -/
theorem Conversing.step_left (h : Conversing next tail final t w n es)
    (htail : (script tail : Request _ ε) = .halt) (hstep : w.step script next .left = some w') :
    w'.noted = w.noted ∧ ∃ n', n = n' + 1 ∧ Conversing next tail final t w' n' es := by
  rcases Option.map_eq_some_iff.1 hstep with ⟨move, hmove, rfl⟩
  rcases w with ⟨left, right, toLeft, toRight, noted⟩
  cases h with
  | @asking m n l k s u ahead pending answer acts es hleft hunread hnone habs hs hu hne hk hrest
      hcon =>
      dsimp only at hleft hunread hnone habs hmove ⊢
      subst hleft
      cases pending with
      | nil =>
          -- the answer is not there yet
          have hk0 : k ≠ 0 := by
            have hpos : 0 < answer.length := List.length_pos_iff.2 hne
            omega
          simp [script, Request.perform, hk0, hnone] at hmove
      | cons c pending =>
          cases hmove
          have hunread' : (toRight.write [c]).unread = (ahead ++ [c]).flatten := by
            simp [Pipe.write, hunread]
          have habs' : Absorbs next m right ((ahead ++ [c]) ++ pending) s := by simpa using habs
          exact ⟨by simp, pending.length + m + 2 + n + l, by simp; omega,
            .asking rfl hunread' hnone habs' hs hu hne hk hrest hcon⟩
  | @answered n l k acts es hleft hanswer hk hnone hright hrest hcon =>
      dsimp only at hleft hanswer hk hnone hright hrest hmove ⊢
      subst hleft
      have hk0 : k ≠ 0 := by
        have hpos : 0 < toLeft.unread.length := List.length_pos_iff.2 hanswer
        omega
      simp only [script, Request.perform, if_neg hk0, if_neg hanswer, Option.some.injEq] at hmove
      subst hmove
      -- all of the answer is read, and the next block begins
      refine ⟨by simp, n + l, by omega, hrest.conversing hcon ?_ ?_⟩
      · simpa [Pipe.write] using hnone
      · simpa using hk
  | @last m l ahead pending es hleft hunread habs hcon =>
      dsimp only at hleft hunread habs hmove ⊢
      subst hleft
      cases pending with
      | nil =>
          rw [List.map_nil, List.nil_append, htail] at hmove
          cases hmove
      | cons c pending =>
          cases hmove
          have hunread' : (toRight.write [c]).unread = (ahead ++ [c]).flatten := by
            simp [Pipe.write, hunread]
          have habs' : Absorbs next m right ((ahead ++ [c]) ++ pending) final := by
            simpa using habs
          exact ⟨by simp, pending.length + m + l, by simp; omega, .last rfl hunread' habs' hcon⟩
  | @concluding l es hleft hnone hcon =>
      dsimp only at hleft hmove
      rw [hleft, htail] at hmove
      cases hmove

/-- A step of the program. -/
theorem Conversing.step_right (h : Conversing next tail final t w n es)
    (hstep : w.step script next .right = some w') :
    ∃ n' es', n = n' + 1 ∧ w.noted ++ es = w'.noted ++ es' ∧
      Conversing next tail final t w' n' es' := by
  rcases Option.map_eq_some_iff.1 hstep with ⟨move, hmove, rfl⟩
  rcases w with ⟨left, right, toLeft, toRight, noted⟩
  cases h with
  | @asking m n l k s u ahead pending answer acts es hleft hunread hnone habs hs hu hne hk hrest
      hcon =>
      dsimp only at hleft hunread hnone habs hmove ⊢
      rw [hunread] at hmove
      rcases habs.of_perform hmove with
        ⟨rfl, rfl, rfl, rfl⟩ | ⟨m', ahead', rfl, hunread', hwritten, hnoted, habs'⟩
      · -- the block has been read: the answer is written
        rw [hs, Request.perform, Option.some.injEq] at hmove
        subst hmove
        have hthere : (toLeft.write [answer]).unread = answer := by simp [Pipe.write, hnone]
        refine ⟨1 + n + l, es, by simp; omega, by simp, .answered hleft ?_ ?_ rfl hu hrest hcon⟩
        · rw [hthere]
          exact hne
        · rw [hthere]
          exact hk
      · refine ⟨pending.length + m' + 2 + n + l, es, by omega, by simp [hnoted],
          .asking hleft hunread' ?_ habs' hs hu hne hk hrest hcon⟩
        simp [Pipe.write, hwritten, hnone]
  | @answered n l k acts es hleft hanswer hk hnone hright hrest hcon =>
      dsimp only at hnone hright hmove
      rw [hnone, hright.perform_nil] at hmove
      cases hmove
  | @last m l ahead pending es hleft hunread habs hcon =>
      dsimp only at hleft hunread habs hmove ⊢
      rw [hunread] at hmove
      rcases habs.of_perform hmove with
        ⟨rfl, rfl, rfl, rfl⟩ | ⟨m', ahead', rfl, hunread', hwritten, hnoted, habs'⟩
      · rcases hcon.of_perform rfl hmove with ⟨l', es', rfl, rfl, hunread', hcon'⟩
        exact ⟨l', es', by simp, by simp, .concluding hleft hunread' hcon'⟩
      · exact ⟨pending.length + m' + l, es, by omega, by simp [hnoted],
          .last hleft hunread' habs' hcon⟩
  | @concluding l es hleft hnone hcon =>
      dsimp only at hleft hnone hcon hmove ⊢
      rcases hcon.of_perform hnone hmove with ⟨l', es', rfl, rfl, hunread', hcon'⟩
      exact ⟨l', es', rfl, by simp, .concluding hleft hunread' hcon'⟩

theorem Conversing.step (h : Conversing next tail final t w n es)
    (htail : (script tail : Request _ ε) = .halt) (hstep : w.step script next side = some w') :
    ∃ n' es', n = n' + 1 ∧ w.noted ++ es = w'.noted ++ es' ∧
      Conversing next tail final t w' n' es' := by
  cases side with
  | left =>
      rcases h.step_left htail hstep with ⟨hnoted, n', hn, h'⟩
      exact ⟨n', es, hn, by rw [hnoted], h'⟩
  | right =>
      exact h.step_right hstep

/-- Wherever a run comes, the conversation goes on from there. -/
theorem Conversing.run {sides : List Side} (h : Conversing next tail final t w n es)
    (htail : (script tail : Request _ ε) = .halt)
    (hrun : Library.run (Duplex.step script next) w sides = some w') :
    ∃ n' es', n = sides.length + n' ∧ w.noted ++ es = w'.noted ++ es' ∧
      Conversing next tail final t w' n' es' := by
  induction sides generalizing w n es with
  | nil =>
      cases hrun
      exact ⟨n, es, by simp, rfl, h⟩
  | cons side rest ih =>
      rw [run_cons, Option.bind_eq_some_iff] at hrun
      rcases hrun with ⟨w₁, hstep, hrest⟩
      rcases h.step htail hstep with ⟨n₁, es₁, rfl, hnoted₁, h₁⟩
      rcases ih h₁ hrest with ⟨n', es', rfl, hnoted', h'⟩
      exact ⟨n', es', by simp; omega, hnoted₁.trans hnoted', h'⟩

/-- When neither side can go on, both are through. -/
theorem Conversing.stuck (h : Conversing next tail final t w n es)
    (hstuck : w.Stuck script next) :
    w.left = tail ∧ w.right = t ∧ w.toRight.unread = [] ∧ es = [] := by
  rcases hstuck with ⟨hleft, hright⟩
  have hright' : (next w.right).perform w.toRight.unread = none := Option.map_eq_none_iff.1 hright
  have hleft' : (script w.left).perform w.toLeft.unread = (none : Option (Move _ ε)) :=
    Option.map_eq_none_iff.1 hleft
  cases h with
  | @asking m n l k s u ahead pending answer acts es hl hunread hnone habs hs hu hne hk hrest
      hcon =>
      cases pending with
      | nil =>
          -- the block has been read, so the answer can be written
          rw [hunread] at hright'
          rw [List.append_nil] at habs
          rcases habs.of_stuck hright' with ⟨_, hsame, _⟩
          rw [hsame, hs] at hright'
          cases hright'
      | cons c pending =>
          rw [hl] at hleft'
          cases hleft'
  | @answered n l k acts es hl hanswer hk hnone hr hrest hcon =>
      have hk0 : k ≠ 0 := by
        have hpos : 0 < w.toLeft.unread.length := List.length_pos_iff.2 hanswer
        omega
      rw [hl] at hleft'
      simp [script, Request.perform, hk0, hanswer] at hleft'
  | @last m l ahead pending es hl hunread habs hcon =>
      cases pending with
      | nil =>
          have hstop := hright'
          rw [hunread] at hstop
          rw [List.append_nil] at habs
          rcases habs.of_stuck hstop with ⟨_, hsame, rfl⟩
          rw [← hsame] at hcon
          rcases hcon.of_stuck hright' with ⟨ht, hes⟩
          exact ⟨hl, ht, hunread, hes⟩
      | cons c pending =>
          rw [hl] at hleft'
          cases hleft'
  | @concluding l es hl hnone hcon =>
      rcases hcon.of_stuck hright' with ⟨ht, hes⟩
      exact ⟨hl, ht, hnone, hes⟩

/-- A conversation can be run to its end. -/
theorem Conversing.exists_stuck (h : Conversing next tail final t w n es)
    (htail : (script tail : Request _ ε) = .halt) :
    ∃ sides w', Library.run (Duplex.step script next) w sides = some w' ∧
      w'.Stuck script next := by
  induction n using Nat.strong_induction_on generalizing w es with
  | _ n ih =>
      by_cases hstuck : w.Stuck script next
      · exact ⟨[], w, rfl, hstuck⟩
      · -- one of the sides can go on, and then there are fewer steps to come
        have hmove : ∃ side w₁, w.step script next side = some w₁ := by
          by_contra hnone
          push Not at hnone
          exact hstuck ⟨Option.eq_none_iff_forall_ne_some.2 (hnone .left),
            Option.eq_none_iff_forall_ne_some.2 (hnone .right)⟩
        rcases hmove with ⟨side, w₁, hstep⟩
        rcases h.step htail hstep with ⟨n', es', rfl, _, h'⟩
        rcases ih n' (by omega) h' with ⟨sides, w', hrun, hend⟩
        refine ⟨side :: sides, w', ?_, hend⟩
        rw [run_cons, hstep]
        exact hrun

end Blocks

end Library
end DropboxSimulator
