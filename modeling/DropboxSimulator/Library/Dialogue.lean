import DropboxSimulator.Library.Duplex

/-!
# Dialogue — two programs that keep to one script of messages

A script lists the messages of a conversation in their order, each with the side that writes it.

* `Plays`  : a program does its part of a script, whatever the other side does;
* `InStep` : two programs play what is left of a script, and one of them is ahead of the other.

The messages by which one side is ahead are all its own, and they are what the other side has not
read.  So a read that asks for more than its message holds gets the message alone if the next one
comes from the side that reads; where it does not, the run has to see to it (`guarded`).
-/

namespace DropboxSimulator
namespace Library

def Side.other : Side → Side
  | .left => .right
  | .right => .left

@[simp] theorem Side.other_ne (side : Side) : side.other ≠ side := by
  cases side <;> simp [Side.other]

/-- A script of messages: who writes, and the bytes. -/
abbrev Lines := List (Side × Bytes)

/-- Messages that one side writes in a row. -/
def Lines.by (side : Side) (chunks : List Bytes) : Lines :=
  chunks.map fun c => (side, c)

section Playing

variable {σ ε : Type} (next : σ → Request σ ε) (side : Side) (guarded : σ → Bool) (E : ε → Prop)

/-- From `s` the program writes its own messages of the script, takes each message of the other side
with one read, notes only events with the property, and does nothing more. -/
inductive Plays : Lines → σ → Prop
  | done {s : σ} (hidle : (next s).perform [] = none) : Plays [] s
  | emit {lines : Lines} {s k : σ} {e : ε} (hs : next s = .emit e k) (he : E e) :
      Plays lines k → Plays lines s
  | skip {lines : Lines} {s : σ} {k : Bytes → σ} (hs : next s = .read 0 k) :
      Plays lines (k []) → Plays lines s
  | send {lines : Lines} {s k : σ} {c : Bytes} (hc : c ≠ []) (hs : next s = .write c k) :
      Plays lines k → Plays ((side, c) :: lines) s
  | receive {lines : Lines} {s : σ} {n : Nat} {k : Bytes → σ} {c : Bytes} (hc : c ≠ [])
      (hs : next s = .read n k)
      (hn : c.length = n ∨
        (c.length ≤ n ∧ (guarded s = true ∨ ∀ line ∈ lines.head?, line.1 = side))) :
      Plays lines (k c) → Plays ((side.other, c) :: lines) s

variable {next side guarded E} {s t : σ} {lines : Lines}

/-- Chunks that a program consumes are messages it takes. -/
theorem Plays.consumes {cs : List Bytes} (h : Consumes next s cs [] [] t)
    (ht : Plays next side guarded E lines t) :
    Plays next side guarded E (Lines.by side.other cs ++ lines) s := by
  generalize hes : ([] : List ε) = es at h
  generalize hws : ([] : List Bytes) = ws at h
  induction h with
  | done s =>
      exact ht
  | read hc hs _ ih =>
      exact .receive hc hs (Or.inl rfl) (ih ht hes hws)
  | skip hs _ ih =>
      exact .skip hs (ih ht hes hws)
  | emit hs _ _ =>
      cases hes
  | write hs _ _ =>
      cases hws

/-- A program that writes what is pending, chunk by chunk. -/
theorem Plays.writes {k : List Bytes → σ}
    (hs : ∀ c pending, next (k (c :: pending)) = .write c (k pending)) {pending : List Bytes}
    (hne : ∀ c ∈ pending, c ≠ []) (h : Plays next side guarded E lines (k [])) :
    Plays next side guarded E (Lines.by side pending ++ lines) (k pending) := by
  induction pending with
  | nil =>
      exact h
  | cons c pending ih =>
      have hrest : ∀ d ∈ pending, d ≠ [] := fun d hd => hne d (List.mem_cons_of_mem _ hd)
      exact .send (hne c List.mem_cons_self) (hs c pending) (ih hrest)

/-- No message of the script is empty. -/
theorem Plays.ne_nil (h : Plays next side guarded E lines s) : ∀ line ∈ lines, line.2 ≠ [] := by
  induction h with
  | done hidle =>
      simp
  | emit hs he _ ih =>
      exact ih
  | skip hs _ ih =>
      exact ih
  | send hc hs _ ih =>
      exact List.forall_mem_cons.2 ⟨hc, ih⟩
  | receive hc hs hn _ ih =>
      exact List.forall_mem_cons.2 ⟨hc, ih⟩

/-- A step of the program, with the messages it has not read in front of those to come: it takes
some of them, or there are none and it writes the next message of the script. -/
theorem Plays.of_perform (chunks : List Bytes)
    (h : Plays next side guarded E (Lines.by side.other chunks ++ lines) s)
    (halone : guarded s = true → chunks.length ≤ 1) {m : Move σ ε}
    (hm : (next s).perform chunks.flatten = some m) :
    (∀ e ∈ m.noted, E e) ∧
      ((∃ chunks', m.unread = chunks'.flatten ∧ m.written = [] ∧ chunks' <:+ chunks ∧
          Plays next side guarded E (Lines.by side.other chunks' ++ lines) m.state) ∨
        (∃ c lines', chunks = [] ∧ m.unread = [] ∧ m.written = [c] ∧ c ≠ [] ∧
          lines = (side, c) :: lines' ∧ Plays next side guarded E lines' m.state)) := by
  generalize hall : Lines.by side.other chunks ++ lines = all at h
  cases h with
  | done hidle =>
      have hchunks : chunks = [] := by
        simpa [Lines.by] using (List.append_eq_nil_iff.1 hall).1
      rw [hchunks, List.flatten_nil, hidle] at hm
      cases hm
  | emit hs he h =>
      rw [hs, Request.perform, Option.some.injEq] at hm
      subst hm
      subst hall
      exact ⟨by simpa using he, Or.inl ⟨chunks, rfl, rfl, List.suffix_rfl, h⟩⟩
  | skip hs h =>
      rw [hs, Request.perform, if_pos rfl, Option.some.injEq] at hm
      subst hm
      subst hall
      exact ⟨by simp, Or.inl ⟨chunks, rfl, rfl, List.suffix_rfl, h⟩⟩
  | @send lines' s k c hc hs h =>
      rw [hs, Request.perform, Option.some.injEq] at hm
      subst hm
      cases chunks with
      | nil =>
          exact ⟨by simp, Or.inr ⟨c, lines', rfl, rfl, rfl, hc, hall, h⟩⟩
      | cons c' chunks =>
          -- the next message of the script is still to be read
          have hside := congrArg Prod.fst (List.cons_eq_cons.1 hall).1
          exact absurd hside (Side.other_ne side)
  | @receive lines' s n k c hc hs hn h =>
      have hlen : 0 < c.length := List.length_pos_iff.2 hc
      have hpos : 0 < n := by omega
      cases chunks with
      | nil =>
          rw [hs, List.flatten_nil, Request.perform_read_nil hpos] at hm
          cases hm
      | cons c' chunks =>
          rcases List.cons_eq_cons.1 hall with ⟨hhead, htail⟩
          obtain rfl : c' = c := congrArg Prod.snd hhead
          rw [hs, Request.perform_read_cons hpos hc] at hm
          cases hm
          have htake : (c' :: chunks).flatten.take n = c' ∧
              (c' :: chunks).flatten.drop n = chunks.flatten := by
            rcases hn with rfl | ⟨hle, halone'⟩
            · simp
            · -- the message is there alone
              have hnil : chunks = [] := by
                rcases halone' with hguarded | hturn
                · have hone := halone hguarded
                  rw [List.length_cons] at hone
                  exact List.length_eq_zero_iff.1 (by omega)
                · cases chunks with
                  | nil =>
                      rfl
                  | cons d chunks =>
                      have hside := hturn (side.other, d) (by rw [← htail]; rfl)
                      exact absurd hside (Side.other_ne side)
              subst hnil
              simp [hle]
          refine ⟨by simp, Or.inl ⟨chunks, htake.2, rfl, List.suffix_cons c' chunks, ?_⟩⟩
          dsimp only
          rw [htake.1]
          subst htail
          exact h

end Playing

/-! ## Two programs -/

section Two

variable {σ τ ε : Type} (p : σ → Request σ ε) (q : τ → Request τ ε) (guarded : τ → Bool)
variable (E : ε → Prop)

/-- The two programs play what is left of a script; the messages that one of them has written and
the other has not read are all from one side. -/
inductive InStep (w : Duplex σ τ ε) : Prop
  | leftAhead (chunks : List Bytes) {lines : Lines} (hunread : w.toRight.unread = chunks.flatten)
      (hlast : chunks <:+ w.toRight.writes) (hnone : w.toLeft.unread = [])
      (hleft : Plays p .left (fun _ => false) E lines w.left)
      (hright : Plays q .right guarded E (Lines.by .left chunks ++ lines) w.right)
  | rightAhead (chunks : List Bytes) {lines : Lines} (hunread : w.toLeft.unread = chunks.flatten)
      (hnone : w.toRight.unread = [])
      (hleft : Plays p .left (fun _ => false) E (Lines.by .right chunks ++ lines) w.left)
      (hright : Plays q .right guarded E lines w.right)

variable {p q guarded E} {w w' : Duplex σ τ ε} {side : Side}

theorem InStep.start {s : σ} {t : τ} {lines : Lines}
    (hs : Plays p .left (fun _ => false) E lines s) (ht : Plays q .right guarded E lines t) :
    InStep p q guarded E (Duplex.start s t) :=
  .leftAhead [] rfl List.nil_suffix rfl hs ht

theorem Lines.by_append {lines : Lines} (chunks : List Bytes) (c : Bytes) :
    Lines.by side chunks ++ (side, c) :: lines = Lines.by side (chunks ++ [c]) ++ lines := by
  simp [Lines.by]

theorem InStep.step_left (h : InStep p q guarded E w) (hstep : w.step p q .left = some w') :
    InStep p q guarded E w' ∧ ((∀ e ∈ w.noted, E e) → ∀ e ∈ w'.noted, E e) := by
  rcases Option.map_eq_some_iff.1 hstep with ⟨move, hmove, rfl⟩
  cases h with
  | @leftAhead chunks lines hunread hlast hnone hleft hright =>
      rw [hnone] at hmove
      rcases Plays.of_perform [] hleft (by simp) hmove with ⟨hE, hcase⟩
      refine ⟨?_, fun hall => List.forall_mem_append.2 ⟨hall, hE⟩⟩
      rcases hcase with ⟨chunks', hrest, hwritten, hsuffix, hplays⟩ |
        ⟨c, lines', _, hrest, hwritten, hc, rfl, hplays⟩
      · rw [List.suffix_nil.1 hsuffix] at hrest hplays
        refine .leftAhead chunks ?_ ?_ hrest hplays hright
        · simpa [Pipe.write, hwritten] using hunread
        · simpa [Pipe.write, hwritten] using hlast
      · -- one message more is on its way
        rw [Lines.by_append] at hright
        refine .leftAhead (chunks ++ [c]) ?_ ?_ hrest hplays hright
        · simp [Pipe.write, hwritten, hunread]
        · rcases hlast with ⟨before, hbefore⟩
          exact ⟨before, by simp [Pipe.write, hwritten, hc, ← hbefore]⟩
  | @rightAhead chunks lines hunread hnone hleft hright =>
      rw [hunread] at hmove
      rcases Plays.of_perform chunks hleft (by simp) hmove with ⟨hE, hcase⟩
      refine ⟨?_, fun hall => List.forall_mem_append.2 ⟨hall, hE⟩⟩
      rcases hcase with ⟨chunks', hrest, hwritten, _, hplays⟩ |
        ⟨c, lines', rfl, hrest, hwritten, hc, rfl, hplays⟩
      · refine .rightAhead chunks' hrest ?_ hplays hright
        simpa [Pipe.write, hwritten] using hnone
      · refine .leftAhead [c] ?_ ?_ hrest hplays hright
        · simp [Pipe.write, hwritten, hnone]
        · exact ⟨w.toRight.writes, by simp [Pipe.write, hwritten, hc]⟩

theorem InStep.step_right (h : InStep p q guarded E w) (hok : Unmixed guarded w .right)
    (hstep : w.step p q .right = some w') :
    InStep p q guarded E w' ∧ ((∀ e ∈ w.noted, E e) → ∀ e ∈ w'.noted, E e) := by
  rcases Option.map_eq_some_iff.1 hstep with ⟨move, hmove, rfl⟩
  cases h with
  | @leftAhead chunks lines hunread hlast hnone hleft hright =>
      have halone : guarded w.right = true → chunks.length ≤ 1 := fun hguarded =>
        Pipe.length_le_one
          (fun c hc => hright.ne_nil (.left, c) (by simp [Lines.by, hc])) hunread hlast
          (hok rfl hguarded)
      rw [hunread] at hmove
      rcases Plays.of_perform chunks hright halone hmove with ⟨hE, hcase⟩
      refine ⟨?_, fun hall => List.forall_mem_append.2 ⟨hall, hE⟩⟩
      rcases hcase with ⟨chunks', hrest, hwritten, hsuffix, hplays⟩ |
        ⟨c, lines', rfl, hrest, hwritten, hc, rfl, hplays⟩
      · refine .leftAhead chunks' hrest (hsuffix.trans hlast) ?_ hleft hplays
        simpa [Pipe.write, hwritten] using hnone
      · refine .rightAhead [c] ?_ hrest hleft hplays
        simp [Pipe.write, hwritten, hnone]
  | @rightAhead chunks lines hunread hnone hleft hright =>
      rw [hnone] at hmove
      rcases Plays.of_perform [] hright (by simp) hmove with ⟨hE, hcase⟩
      refine ⟨?_, fun hall => List.forall_mem_append.2 ⟨hall, hE⟩⟩
      rcases hcase with ⟨chunks', hrest, hwritten, hsuffix, hplays⟩ |
        ⟨c, lines', _, hrest, hwritten, hc, rfl, hplays⟩
      · rw [List.suffix_nil.1 hsuffix] at hrest hplays
        refine .rightAhead chunks ?_ hrest hleft hplays
        simpa [Pipe.write, hwritten] using hunread
      · rw [Lines.by_append] at hleft
        refine .rightAhead (chunks ++ [c]) ?_ hrest hleft hplays
        simp [Pipe.write, hwritten, hunread]

/-- Two programs that play one script note only events with the property, in every run whose
guarded reads find one message. -/
theorem InStep.run {s : σ} {t : τ} (h : InStep p q guarded E (Duplex.start s t))
    (hrun : Reaches (Duplex.step p q) (Unmixed guarded) (Duplex.start s t) w) :
    ∀ e ∈ w.noted, E e := by
  have hboth : InStep p q guarded E w ∧ ∀ e ∈ w.noted, E e := by
    refine hrun.invariant (P := fun w => InStep p q guarded E w ∧ ∀ e ∈ w.noted, E e)
      ⟨h, by simp [Duplex.start]⟩ ?_
    rintro t side u ⟨hinstep, hnoted⟩ hok hstep
    cases side with
    | left =>
        rcases hinstep.step_left hstep with ⟨hinstep', hnoted'⟩
        exact ⟨hinstep', hnoted' hnoted⟩
    | right =>
        rcases hinstep.step_right hok hstep with ⟨hinstep', hnoted'⟩
        exact ⟨hinstep', hnoted' hnoted⟩
  exact hboth.2

end Two

end Library
end DropboxSimulator
