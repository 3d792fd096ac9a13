import DropboxSimulator.Library.Bytes

/-!
# Streams — programs that read and write reliable byte streams

A program that talks over a connection is a state machine: in each state it asks for one thing,
and what it does next may depend on the bytes it gets (`Request`).  A connection is a pair of
byte streams: a write appends its bytes at once, and `read n` with `0 < n` waits while the stream
is empty and then returns `min n unread` bytes.

* `perform`  : one step of a program on the bytes that are there for it to read;
* `Consumes` : the program reads a list of chunks, each with one read of just its size;
* `Reader`   : a program in front of a stream that is there as a whole.

Nothing on a stream marks where one write ended, so a program reads what was written only if its
reads fall on the boundaries of the writes.  `Consumes.of_perform` is the rule for that: while the
unread bytes are whole chunks that the program consumes, every step of it consumes one of them.
-/

namespace DropboxSimulator
namespace Library

/-! ## Programs -/

/-- What a program asks for: `read` bytes, `write` bytes, note an event, or nothing more. -/
inductive Request (σ ε : Type)
  | read (n : Nat) (k : Bytes → σ)
  | write (bs : Bytes) (k : σ)
  | emit (e : ε) (k : σ)
  | halt

/-- The same request of a program that is part of a larger one. -/
def Request.map {σ τ ε φ : Type} (f : σ → τ) (g : ε → φ) : Request σ ε → Request τ φ
  | .read n k => .read n fun bs => f (k bs)
  | .write bs k => .write bs (f k)
  | .emit e k => .emit (g e) (f k)
  | .halt => .halt

/-- The effect of one step: the next state, the bytes still unread, what was written and what
was noted. -/
structure Move (σ ε : Type) where
  state : σ
  unread : Bytes
  written : List Bytes
  noted : List ε

/-- One step of a program; `none` while it waits for bytes, and once it has halted. -/
def Request.perform {σ ε : Type} (unread : Bytes) : Request σ ε → Option (Move σ ε)
  | .read n k =>
      if n = 0 then
        some { state := k [], unread := unread, written := [], noted := [] }
      else if unread = [] then
        none
      else
        some { state := k (unread.take n), unread := unread.drop n, written := [], noted := [] }
  | .write bs k => some { state := k, unread := unread, written := [bs], noted := [] }
  | .emit e k => some { state := k, unread := unread, written := [], noted := [e] }
  | .halt => none

/-- A read waits while there is nothing. -/
theorem Request.perform_read_nil {σ ε : Type} {n : Nat} {k : Bytes → σ} (hn : 0 < n) :
    (Request.read n k : Request σ ε).perform [] = none := by
  rw [Request.perform, if_neg hn.ne', if_pos rfl]

/-- A read does not wait once a chunk is there. -/
theorem Request.perform_read_cons {σ ε : Type} {n : Nat} {k : Bytes → σ} {c : Bytes}
    {cs : List Bytes} (hn : 0 < n) (hc : c ≠ []) :
    (Request.read n k : Request σ ε).perform (c :: cs).flatten =
      some
        { state := k ((c :: cs).flatten.take n)
          unread := (c :: cs).flatten.drop n
          written := []
          noted := [] } := by
  have hflat : (c :: cs).flatten ≠ [] := by simp [hc]
  rw [Request.perform, if_neg hn.ne', if_neg hflat]

/-- What a read takes is the first of what is there. -/
theorem Request.of_perform_read {σ ε : Type} {n : Nat} {k : Bytes → σ} {unread : Bytes}
    {move : Move σ ε} (h : (Request.read n k : Request σ ε).perform unread = some move) :
    move = { state := k (unread.take n), unread := unread.drop n, written := [], noted := [] } ∧
      (0 < n → unread ≠ []) := by
  rw [Request.perform] at h
  split at h
  · next hn =>
      subst hn
      cases h
      exact ⟨by simp, fun hpos => absurd hpos (lt_irrefl 0)⟩
  · split at h
    · cases h
    · next hne =>
        cases h
        exact ⟨rfl, fun _ => hne⟩

/-- What a step of a mapped program leads to is a mapped state. -/
theorem Request.state_of_perform_map {σ τ ε φ : Type} {f : σ → τ} {g : ε → φ} {r : Request σ ε}
    {unread : Bytes} {move : Move τ φ} (h : (r.map f g).perform unread = some move) :
    ∃ s, move.state = f s := by
  cases r with
  | read n k =>
      simp only [Request.map, Request.perform] at h
      split at h
      · cases h
        exact ⟨_, rfl⟩
      · split at h
        · cases h
        · cases h
          exact ⟨_, rfl⟩
  | write bs k =>
      cases h
      exact ⟨_, rfl⟩
  | emit e k =>
      cases h
      exact ⟨_, rfl⟩
  | halt =>
      cases h

/-- What a mapped program notes are mapped events. -/
theorem Request.noted_of_perform_map {σ τ ε φ : Type} {f : σ → τ} {g : ε → φ} {r : Request σ ε}
    {unread : Bytes} {move : Move τ φ} (h : (r.map f g).perform unread = some move) :
    ∃ es : List ε, move.noted = es.map g := by
  cases r with
  | read n k =>
      rcases Request.of_perform_read h with ⟨rfl, -⟩
      exact ⟨[], rfl⟩
  | write bs k =>
      cases h
      exact ⟨[], rfl⟩
  | emit e k =>
      cases h
      exact ⟨[e], rfl⟩
  | halt =>
      cases h

/-- What a step leaves unread was unread before. -/
theorem Request.length_unread_of_perform {σ ε : Type} {r : Request σ ε} {unread : Bytes}
    {move : Move σ ε} (h : r.perform unread = some move) :
    move.unread.length ≤ unread.length := by
  cases r with
  | read n k =>
      simp only [Request.perform] at h
      split at h
      · cases h
        exact le_rfl
      · split at h
        · cases h
        · cases h
          simp
  | write bs k =>
      cases h
      exact le_rfl
  | emit e k =>
      cases h
      exact le_rfl
  | halt =>
      cases h

section Consumption

variable {σ ε : Type} (next : σ → Request σ ε)

/-- The program waits for bytes. -/
def Resting (s : σ) : Prop :=
  ∃ n k, next s = .read n k ∧ 0 < n

/-- From `s` the program reads the chunks, each with one read of just its size, notes the events
and writes the messages, and comes to `t`. -/
inductive Consumes : σ → List Bytes → List ε → List Bytes → σ → Prop
  | done (s : σ) : Consumes s [] [] [] s
  | read {s t : σ} {k : Bytes → σ} {c : Bytes} {cs : List Bytes} {es : List ε}
      {ws : List Bytes} (hc : c ≠ []) (hs : next s = .read c.length k) :
      Consumes (k c) cs es ws t → Consumes s (c :: cs) es ws t
  | skip {s t : σ} {k : Bytes → σ} {cs : List Bytes} {es : List ε} {ws : List Bytes}
      (hs : next s = .read 0 k) : Consumes (k []) cs es ws t → Consumes s cs es ws t
  | emit {s t k : σ} {e : ε} {cs : List Bytes} {es : List ε} {ws : List Bytes}
      (hs : next s = .emit e k) : Consumes k cs es ws t → Consumes s cs (e :: es) ws t
  | write {s t k : σ} {w : Bytes} {cs : List Bytes} {es : List ε} {ws : List Bytes}
      (hs : next s = .write w k) : Consumes k cs es ws t → Consumes s cs es (w :: ws) t

variable {next} {s t r : σ} {cs ds : List Bytes} {es fs : List ε} {ws vs : List Bytes}

theorem Resting.perform_nil (h : Resting next s) : (next s).perform [] = none := by
  rcases h with ⟨n, k, hs, hpos⟩
  rw [hs, Request.perform_read_nil hpos]

theorem Consumes.trans (h : Consumes next s cs es ws t) (h' : Consumes next t ds fs vs r) :
    Consumes next s (cs ++ ds) (es ++ fs) (ws ++ vs) r := by
  induction h with
  | done s =>
      exact h'
  | read hc hs _ ih =>
      exact .read hc hs (ih h')
  | skip hs _ ih =>
      exact .skip hs (ih h')
  | emit hs _ ih =>
      exact .emit hs (ih h')
  | write hs _ ih =>
      exact .write hs (ih h')

theorem Consumes.reads_trans (h : Consumes next s cs [] [] t)
    (h' : Consumes next t ds fs vs r) : Consumes next s (cs ++ ds) fs vs r :=
  h.trans h'

/-- A program that is part of a larger one consumes there what it does by itself. -/
theorem Consumes.map {τ φ : Type} {next' : τ → Request τ φ} {f : σ → τ} {g : ε → φ}
    (hmap : ∀ s, next' (f s) = (next s).map f g) (h : Consumes next s cs es ws t) :
    Consumes next' (f s) cs (es.map g) ws (f t) := by
  induction h with
  | done s =>
      exact .done (f s)
  | read hc hs _ ih =>
      exact .read hc (by rw [hmap, hs]; rfl) ih
  | skip hs _ ih =>
      exact .skip (by rw [hmap, hs]; rfl) ih
  | emit hs _ ih =>
      exact .emit (by rw [hmap, hs]; rfl) ih
  | write hs _ ih =>
      exact .write (by rw [hmap, hs]; rfl) ih

/-- While the unread bytes are whole chunks in front of those still to come, a step of the
program consumes one of them, or notes the next event, or writes the next message. -/
theorem Consumes.of_perform {unread rest : List Bytes} (hr : Resting next t)
    (hne : ∀ c ∈ unread, c ≠ []) (h : Consumes next s (unread ++ rest) es ws t)
    {m : Move σ ε} (hm : (next s).perform unread.flatten = some m) :
    ∃ unread' es' ws', m.unread = unread'.flatten ∧ (∀ c ∈ unread', c ≠ []) ∧
      es = m.noted ++ es' ∧ ws = m.written ++ ws' ∧
      Consumes next m.state (unread' ++ rest) es' ws' t := by
  generalize hcs : unread ++ rest = cs at h
  cases h with
  | done s =>
      -- at its end the program waits, and there is nothing for it to read
      rcases List.append_eq_nil_iff.1 hcs with ⟨rfl, rfl⟩
      rw [List.flatten_nil, hr.perform_nil] at hm
      cases hm
  | @read s t k c cs es ws hc hs h =>
      have hlen : 0 < c.length := List.length_pos_iff.2 hc
      -- the chunk to be read next is the first of those that are there
      cases unread with
      | nil =>
          rw [hs, List.flatten_nil, Request.perform_read_nil hlen] at hm
          cases hm
      | cons c' unread =>
          rcases List.cons_eq_cons.1 hcs with ⟨rfl, rfl⟩
          rw [hs, Request.perform_read_cons hlen hc] at hm
          cases hm
          exact ⟨unread, es, ws, by simp, fun d hd => hne d (by simp [hd]), rfl, rfl,
            by simpa using h⟩
  -- the other requests read nothing
  | skip hs h =>
      simp only [hs, Request.perform, if_true, Option.some.injEq] at hm
      subst hm
      exact ⟨unread, es, ws, rfl, hne, rfl, rfl, by simpa [hcs] using h⟩
  | emit hs h =>
      simp only [hs, Request.perform, Option.some.injEq] at hm
      subst hm
      exact ⟨unread, _, ws, rfl, hne, rfl, rfl, by simpa [hcs] using h⟩
  | write hs h =>
      simp only [hs, Request.perform, Option.some.injEq] at hm
      subst hm
      exact ⟨unread, es, _, rfl, hne, rfl, rfl, by simpa [hcs] using h⟩

/-- A program that cannot take a step has read and noted everything. -/
theorem Consumes.of_stuck (hne : ∀ c ∈ cs, c ≠ []) (h : Consumes next s cs es ws t)
    (hstuck : (next s).perform cs.flatten = none) : es = [] ∧ ws = [] := by
  cases h with
  | done s =>
      exact ⟨rfl, rfl⟩
  | @read s t k c cs es ws hc hs h =>
      rw [hs, Request.perform_read_cons (List.length_pos_iff.2 hc) hc] at hstuck
      cases hstuck
  | skip hs h =>
      simp [hs, Request.perform] at hstuck
  | emit hs h =>
      simp [hs, Request.perform] at hstuck
  | write hs h =>
      simp [hs, Request.perform] at hstuck

end Consumption

/-! ## Complete reads -/

/-- A program, the bytes it has still to read, and the events it has noted. -/
structure Reader (σ ε : Type) where
  state : σ
  unread : Bytes
  noted : List ε

section Reading

variable {σ ε : Type} (next : σ → Request σ ε)

/-- One step when every read is complete: it gets all the bytes it asks for, or waits. -/
def Reader.step (r : Reader σ ε) : Option (Reader σ ε) :=
  match next r.state with
  | .read n k =>
      if n ≤ r.unread.length then
        some { r with state := k (r.unread.take n), unread := r.unread.drop n }
      else
        none
  | .write _ k => some { r with state := k }
  | .emit e k => some { r with state := k, noted := r.noted ++ [e] }
  | .halt => none

/-- The program goes on until it waits or has halted, and then stands at `r'`. -/
def Reader.Ends (r r' : Reader σ ε) : Prop :=
  Relation.ReflTransGen (fun r r' => r.step next = some r') r r' ∧ r'.step next = none

variable {next} {s t : σ} {cs : List Bytes} {es : List ε} {ws : List Bytes}

/-- A program ends at one place only. -/
theorem Reader.Ends.unique {r r₁ r₂ : Reader σ ε} (h₁ : r.Ends next r₁) (h₂ : r.Ends next r₂) :
    r₁ = r₂ := by
  have hunique : Relator.RightUnique fun r r' : Reader σ ε => r.step next = some r' := by
    intro a b c hb hc
    exact Option.some.inj (hb.symm.trans hc)
  -- one of the two runs goes on where the other ends
  rcases Relation.ReflTransGen.total_of_right_unique hunique h₁.1 h₂.1 with h | h
  · rcases h.cases_head with heq | ⟨r, hr, _⟩
    · exact heq
    · rw [h₁.2] at hr
      cases hr
  · rcases h.cases_head with heq | ⟨r, hr, _⟩
    · exact heq.symm
    · rw [h₂.2] at hr
      cases hr

/-- Chunks that the program consumes one by one it also reads when nothing marks their ends. -/
theorem Consumes.reads (h : Consumes next s cs es ws t) (rest : Bytes) (noted : List ε) :
    Relation.ReflTransGen (fun r r' => Reader.step next r = some r')
      { state := s, unread := cs.flatten ++ rest, noted := noted }
      { state := t, unread := rest, noted := noted ++ es } := by
  induction h generalizing noted with
  | done s =>
      simp only [List.flatten_nil, List.nil_append, List.append_nil]
      exact .refl
  | @read s t k c cs es ws hc hs _ ih =>
      refine .head ?_ (ih noted)
      simp [Reader.step, hs]
  | skip hs _ ih =>
      refine .head ?_ (ih noted)
      simp [Reader.step, hs]
  | @emit s t k e cs es ws hs _ ih =>
      have hrest := ih (noted ++ [e])
      rw [List.append_assoc, List.singleton_append] at hrest
      refine .head ?_ hrest
      simp [Reader.step, hs]
  | write hs _ ih =>
      refine .head ?_ (ih noted)
      simp [Reader.step, hs]

/-- A loop that consumes the writes of each message, and comes back to one of its starts, consumes
those of a list of messages. -/
theorem Consumes.messages {α : Type} {writes : α → Option (List Bytes)} {event : α → ε}
    {ms : List α} {P : σ → Prop}
    (h : ∀ s, P s → ∀ m ∈ ms, ∃ w t, writes m = some w ∧ P t ∧
      Consumes next s (w.filter (· ≠ [])) [event m] [] t) (hs : P s) :
    ∃ ws t, ms.mapM writes = some ws ∧ P t ∧
      Consumes next s (ws.flatten.filter (· ≠ [])) (ms.map event) [] t := by
  induction ms generalizing s with
  | nil =>
      exact ⟨[], s, rfl, hs, .done s⟩
  | cons m ms ih =>
      rcases h s hs m List.mem_cons_self with ⟨w, u, hw, hu, hfirst⟩
      rcases ih (fun s hs m' hm' => h s hs m' (List.mem_cons_of_mem _ hm')) hu with
        ⟨ws, t, hws, ht, hrest⟩
      refine ⟨w :: ws, t, by simp [hw, hws], ht, ?_⟩
      rw [List.flatten_cons, List.filter_append, List.map_cons]
      exact hfirst.trans hrest

/-- What a program reads of chunks that it consumes are their events, and no byte is left. -/
theorem Reader.ends_of_consumes (ht : Resting next t)
    (h : Consumes next s (cs.filter (· ≠ [])) es [] t) (r : Reader σ ε) :
    Reader.Ends next { state := s, unread := cs.flatten, noted := [] } r ↔
      r = { state := t, unread := [], noted := es } := by
  have hend : Reader.Ends next { state := s, unread := cs.flatten, noted := [] }
      { state := t, unread := [], noted := es } := by
    have hreads := h.reads [] []
    rw [List.append_nil, List.nil_append, List.flatten_filter_ne_nil] at hreads
    rcases ht with ⟨n, k, hn, hpos⟩
    exact ⟨hreads, by simp [Reader.step, hn, Nat.pos_iff_ne_zero.1 hpos]⟩
  constructor
  · intro hr
    exact hr.unique hend
  · rintro rfl
    exact hend

end Reading

end Library
end DropboxSimulator
