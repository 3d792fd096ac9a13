import Mathlib.Data.List.Basic
import Mathlib.Tactic

/-!
# Sharing — threads that use one object

A thread is a list of accesses to an object of type `σ` that other threads use too.  An access may
write to the object, change what the thread holds itself (`μ`) and send something (`ο`).

* `Accesses`       : what each access does, the place of the object it reads and the places whose
  content it decides;
* `Accesses.live`  : the places that a thread reads before it has written them itself;
* `Accesses.alone` : what a thread sends when no other thread comes between its accesses.

What a thread sends alone depends on the object only through its live places (`alone_congr`).
-/

namespace DropboxSimulator
namespace Library

/-- What the accesses of threads to an object do. -/
structure Accesses (α σ μ ο π β : Type*) where
  /-- the object after the access; `none` where the access leaves the object's bounds -/
  write : α → σ → Option σ
  /-- what the thread itself holds after the access -/
  keep : α → σ → μ → μ
  send : α → σ → μ → Option ο
  reads : α → Option π
  decides : α → π → Bool
  content : π → σ → β

namespace Accesses

section Sharing

variable {α σ μ ο π β : Type*}

/-- An access depends on the object only through the place it reads, and it leaves the places that
it does not decide as they were. -/
structure Lawful (A : Accesses α σ μ ο π β) : Prop where
  send_congr {a : α} {s t : σ} (m : μ) (h : ∀ p ∈ A.reads a, A.content p s = A.content p t) :
    A.send a s m = A.send a t m
  keep_congr {a : α} {s t : σ} (m : μ) (h : ∀ p ∈ A.reads a, A.content p s = A.content p t) :
    A.keep a s m = A.keep a t m
  write_isSome (a : α) (s t : σ) : (A.write a s).isSome = (A.write a t).isSome
  content_congr {a : α} {s t s' t' : σ} {p : π} (hs : A.write a s = some s')
    (ht : A.write a t = some t') (hreads : ∀ p ∈ A.reads a, A.content p s = A.content p t)
    (hp : A.decides a p = false → A.content p s = A.content p t) :
    A.content p s' = A.content p t'

variable (A : Accesses α σ μ ο π β)

/-- The places that a thread reads before it decides their content itself. -/
def live : List α → List π
  | [] => []
  | a :: rest => (A.reads a).toList ++ (live rest).filter fun p => !A.decides a p

/-- What a thread sends when it is left alone with the object. -/
def alone (s : σ) (m : μ) : List α → List ο
  | [] => []
  | a :: rest =>
      (A.send a s m).toList ++
        match A.write a s with
        | some s' => alone s' (A.keep a s m) rest
        | none => []

/-- The live places hold the same in two objects. -/
def Agree (todo : List α) (s t : σ) : Prop :=
  ∀ p ∈ A.live todo, A.content p s = A.content p t

instance [DecidableEq β] (todo : List α) (s t : σ) : Decidable (A.Agree todo s t) :=
  inferInstanceAs (Decidable (∀ p ∈ A.live todo, A.content p s = A.content p t))

variable {A}

theorem Agree.reads {a : α} {rest : List α} {s t : σ} (h : A.Agree (a :: rest) s t) :
    ∀ p ∈ A.reads a, A.content p s = A.content p t := by
  intro p hp
  exact h p (List.mem_append_left _ (by simpa using hp))

theorem Agree.rest {a : α} {rest : List α} {s t : σ} (h : A.Agree (a :: rest) s t) {p : π}
    (hp : p ∈ A.live rest) (hdecides : A.decides a p = false) :
    A.content p s = A.content p t := by
  refine h p (List.mem_append_right _ ?_)
  simp [hp, hdecides]

/-- An access keeps two objects in agreement on what the thread still reads. -/
theorem Agree.write (hA : A.Lawful) {a : α} {rest : List α} {s t s' t' : σ}
    (h : A.Agree (a :: rest) s t) (hs : A.write a s = some s') (ht : A.write a t = some t') :
    A.Agree rest s' t' := by
  intro p hp
  exact hA.content_congr hs ht h.reads fun hdecides => h.rest hp hdecides

/-- A thread alone sends the same from two objects that agree on its live places. -/
theorem alone_congr (hA : A.Lawful) {todo : List α} {s t : σ} (m : μ)
    (h : A.Agree todo s t) : A.alone s m todo = A.alone t m todo := by
  induction todo generalizing s t m with
  | nil =>
      rfl
  | cons a rest ih =>
      have hsome := hA.write_isSome a s t
      simp only [alone, hA.send_congr m h.reads, hA.keep_congr m h.reads]
      cases hs : A.write a s with
      | none =>
          have ht : A.write a t = none := by
            simpa [hs] using hsome
          simp [ht]
      | some s' =>
          obtain ⟨t', ht⟩ : ∃ t', A.write a t = some t' := by
            rw [← Option.isSome_iff_exists, ← hsome, hs]
            rfl
          simp only [ht]
          rw [ih _ (h.write hA hs ht)]

/-- What a thread sends alone is sent by its first access or alone after it. -/
theorem mem_alone_cons {a : α} {rest : List α} {s : σ} {m : μ} {o : ο} :
    o ∈ A.alone s m (a :: rest) ↔
      A.send a s m = some o ∨
        ∃ s', A.write a s = some s' ∧ o ∈ A.alone s' (A.keep a s m) rest := by
  cases hs : A.write a s <;> simp [alone, hs]

end Sharing

end Accesses

end Library
end DropboxSimulator
