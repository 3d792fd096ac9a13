import DropboxSimulator.Library.Streams

/-!
# Severed — programs in front of a stream that has ended

Nothing is written to the stream any more.  A read gets what is left of the bytes that have arrived,
at most as many as it asks for, and no byte once they are used up; the program goes on either way.

* `Reader.advance` : one step;
* `Reader.Settles` : from some step on the program has noted just these events.

A program never takes back what it has noted, so one that settles has noted nothing else before.
-/

namespace DropboxSimulator
namespace Library

section Severed

variable {σ ε : Type} (next : σ → Request σ ε)

/-- One step in front of what has arrived. -/
def Reader.advance (r : Reader σ ε) : Reader σ ε :=
  match next r.state with
  | .read n k => { r with state := k (r.unread.take n), unread := r.unread.drop n }
  | .write _ k => { r with state := k }
  | .emit e k => { r with state := k, noted := r.noted ++ [e] }
  | .halt => r

/-- From some step on the events are just these. -/
def Reader.Settles (r : Reader σ ε) (es : List ε) : Prop :=
  ∃ k₀, ∀ k ≥ k₀, ((Reader.advance next)^[k] r).noted = es

/-- Some number of steps leads from one to the other. -/
def Reader.Comes (r r' : Reader σ ε) : Prop :=
  ∃ k, (Reader.advance next)^[k] r = r'

variable {next} {r r' r'' : Reader σ ε} {s t : σ} {cs : List Bytes} {es : List ε}
variable {ws : List Bytes}

theorem Reader.Comes.refl : r.Comes next r :=
  ⟨0, rfl⟩

theorem Reader.Comes.head (h : (r.advance next).Comes next r') : r.Comes next r' := by
  rcases h with ⟨k, hk⟩
  exact ⟨k + 1, by rw [Function.iterate_succ_apply, hk]⟩

theorem Reader.Comes.trans (h : r.Comes next r') (h' : r'.Comes next r'') : r.Comes next r'' := by
  rcases h with ⟨k, rfl⟩
  rcases h' with ⟨k', rfl⟩
  exact ⟨k' + k, by rw [Function.iterate_add_apply]⟩

/-- What happens first does not matter to where a program settles. -/
theorem Reader.Comes.settles_iff (h : r.Comes next r') :
    r.Settles next es ↔ r'.Settles next es := by
  rcases h with ⟨k, rfl⟩
  constructor
  · rintro ⟨k₀, hall⟩
    refine ⟨k₀, fun j hj => ?_⟩
    rw [← Function.iterate_add_apply]
    exact hall (j + k) (by omega)
  · rintro ⟨k₀, hall⟩
    refine ⟨k₀ + k, fun j hj => ?_⟩
    have hsplit : j = (j - k) + k := by omega
    rw [hsplit, Function.iterate_add_apply]
    exact hall (j - k) (by omega)

theorem Reader.noted_prefix_advance (r : Reader σ ε) : r.noted <+: (r.advance next).noted := by
  unfold Reader.advance
  split
  · exact List.prefix_rfl
  · exact List.prefix_rfl
  · exact List.prefix_append _ _
  · exact List.prefix_rfl

theorem Reader.noted_prefix_iterate (k : Nat) (r : Reader σ ε) :
    r.noted <+: ((Reader.advance next)^[k] r).noted := by
  induction k generalizing r with
  | zero =>
      exact List.prefix_rfl
  | succ k ih =>
      rw [Function.iterate_succ_apply]
      exact r.noted_prefix_advance.trans (ih _)

/-- What has been noted is a part of where the program settles. -/
theorem Reader.Settles.noted_isPrefix (h : r.Settles next es) : r.noted <+: es := by
  rcases h with ⟨k₀, hall⟩
  rw [← hall k₀ le_rfl]
  exact r.noted_prefix_iterate k₀

/-- A program that only goes around among states in which it notes nothing. -/
theorem Reader.settles_of_idle {P : Reader σ ε → Prop} (hr : P r)
    (hstep : ∀ r, P r → P (r.advance next) ∧ (r.advance next).noted = r.noted) :
    r.Settles next r.noted := by
  have hall : ∀ k (r : Reader σ ε), P r → ((Reader.advance next)^[k] r).noted = r.noted := by
    intro k
    induction k with
    | zero =>
        intro r hr
        rfl
    | succ k ih =>
        intro r hr
        rcases hstep r hr with ⟨hr', hnoted⟩
        rw [Function.iterate_succ_apply, ih _ hr', hnoted]
  exact ⟨0, fun k _ => hall k r hr⟩

/-- A step with a complete read is one in front of what has arrived. -/
theorem Reader.advance_of_step (h : r.step next = some r') : r.advance next = r' := by
  unfold Reader.step at h
  unfold Reader.advance
  cases hnext : next r.state with
  | read n k =>
      simp only [hnext] at h
      split at h
      · exact Option.some.inj h
      · cases h
  | write bs k =>
      simpa [hnext] using h
  | emit e k =>
      simpa [hnext] using h
  | halt =>
      simp [hnext] at h

theorem Reader.Comes.of_steps
    (h : Relation.ReflTransGen (fun r r' => Reader.step next r = some r') r r') :
    r.Comes next r' := by
  induction h using Relation.ReflTransGen.head_induction_on with
  | refl =>
      exact .refl
  | head hstep _ ih =>
      rw [← Reader.advance_of_step hstep] at ih
      exact .head ih

/-- Chunks that the program consumes it reads when they have arrived. -/
theorem Consumes.comes (h : Consumes next s cs es ws t) (rest : Bytes) (noted : List ε) :
    Reader.Comes next { state := s, unread := cs.flatten ++ rest, noted := noted }
      { state := t, unread := rest, noted := noted ++ es } :=
  .of_steps (h.reads rest noted)

end Severed

end Library
end DropboxSimulator
