import DropboxSimulator.Library.Machine

/-!
# Semaphore — threads that share data and binary semaphores

A thread is a program over its own states: in each state it waits for a semaphore, posts one,
acts on the shared data in one step, or has ended (`Instr`).  A `World` is the shared data, the
values of the semaphores and the threads; threads take steps in any order, and so does the
environment.

* `Stepped`     : what one step can do to a world;
* `Disciplined` : the states in which a thread holds a semaphore follow its waits and posts;
* `Balanced`    : each semaphore is `1` less the number of threads that hold it;
* `Solo`        : at most one thread has a share of something.

A world of disciplined threads stays balanced, and then no two threads hold one semaphore.
-/

namespace DropboxSimulator
namespace Library

/-! ## Counting threads -/

section Count

variable {α : Type*} {p : α → Bool} {l : List α} {i j : Nat} {a b : α}

/-- Replacing one element exchanges its share in a count. -/
theorem countP_set_add (h : l[i]? = some a) :
    (l.set i b).countP p + (if p a then 1 else 0) = l.countP p + (if p b then 1 else 0) := by
  induction l generalizing i with
  | nil =>
      simp at h
  | cons x xs ih =>
      cases i with
      | zero =>
          simp only [List.getElem?_cons_zero, Option.some.injEq] at h
          subst h
          simp only [List.set_cons_zero, List.countP_cons]
          omega
      | succ i =>
          simp only [List.getElem?_cons_succ] at h
          have hi := ih h
          simp only [List.set_cons_succ, List.countP_cons]
          omega

/-- Elements that together count no more than the one they replace. -/
theorem countP_set_append_le {new : List α} (h : l[i]? = some a)
    (hle : (if p b then 1 else 0) + new.countP p ≤ if p a then 1 else 0) :
    (l.set i b ++ new).countP p ≤ l.countP p := by
  have hset := countP_set_add (b := b) (p := p) h
  rw [List.countP_append]
  omega

theorem countP_pos_of_getElem? (h : l[i]? = some a) (ha : p a = true) : 0 < l.countP p :=
  List.countP_pos_iff.2 ⟨a, List.mem_of_getElem? h, ha⟩

/-- At most one element counts, so two places that count are one. -/
theorem eq_of_countP_le_one (hle : l.countP p ≤ 1) (hi : l[i]? = some a) (hj : l[j]? = some b)
    (ha : p a = true) (hb : p b = true) : i = j := by
  induction l generalizing i j with
  | nil =>
      simp at hi
  | cons x xs ih =>
      cases i with
      | zero =>
          cases j with
          | zero =>
              rfl
          | succ j =>
              simp only [List.getElem?_cons_zero, Option.some.injEq] at hi
              simp only [List.getElem?_cons_succ] at hj
              subst hi
              rw [List.countP_cons_of_pos ha] at hle
              have hpos := countP_pos_of_getElem? hj hb
              omega
      | succ i =>
          simp only [List.getElem?_cons_succ] at hi
          cases j with
          | zero =>
              simp only [List.getElem?_cons_zero, Option.some.injEq] at hj
              subst hj
              rw [List.countP_cons_of_pos hb] at hle
              have hpos := countP_pos_of_getElem? hi ha
              omega
          | succ j =>
              simp only [List.getElem?_cons_succ] at hj
              rw [List.countP_cons] at hle
              rw [ih (by omega) hi hj]

theorem countP_eq_zero_of_forall {ts : List α} (h : ∀ t ∈ ts, p t = false) : ts.countP p = 0 := by
  rw [List.countP_eq_zero]
  intro t ht
  simp [h t ht]

/-- A new element may count where no other one does. -/
theorem countP_append_singleton_le_one (hle : l.countP p ≤ 1)
    (hnone : p b = true → ∀ t ∈ l, p t = false) : (l ++ [b]).countP p ≤ 1 := by
  rw [List.countP_append]
  by_cases hb : p b = true
  · rw [countP_eq_zero_of_forall (hnone hb)]
    simp [hb]
  · simpa [hb] using hle

end Count

/-! ## Shares of threads -/

section Share

variable {α β : Type*} {f : α → List β} {l new : List α} {i j k : Nat} {a b c : α}

/-- Only the element at `i` may have a share. -/
def Solo (f : α → List β) (l : List α) (i : Nat) : Prop :=
  ∀ j a, l[j]? = some a → j ≠ i → f a = []

theorem Solo.flatMap_eq (h : Solo f l i) (hi : l[i]? = some a) : l.flatMap f = f a := by
  induction l generalizing i with
  | nil =>
      simp at hi
  | cons x xs ih =>
      cases i with
      | zero =>
          -- no later element has a share
          have hxs : xs.flatMap f = [] := by
            rw [List.flatMap_eq_nil_iff]
            intro y hy
            rcases List.mem_iff_getElem?.1 hy with ⟨j, hj⟩
            exact h (j + 1) y (by simpa using hj) (by omega)
          simp only [List.getElem?_cons_zero, Option.some.injEq] at hi
          rw [List.flatMap_cons, hxs, List.append_nil, hi]
      | succ i =>
          -- the first element is not the one at `i + 1`
          have hx : f x = [] := h 0 x (by simp) (by omega)
          have hxs : Solo f xs i := fun j y hj hne => h (j + 1) y (by simpa using hj) (by omega)
          rw [List.flatMap_cons, hx, List.nil_append]
          exact ih hxs (by simpa using hi)

/-- An element after one has been replaced and some have been added. -/
theorem getElem?_set_append (h : (l.set i b ++ new)[j]? = some c) :
    (j = i ∧ c = b) ∨ (j ≠ i ∧ l[j]? = some c) ∨ c ∈ new := by
  by_cases hj : j < l.length
  · -- a place of the old list
    rw [List.getElem?_append_left (by simpa using hj)] at h
    by_cases hji : j = i
    · subst hji
      rw [List.getElem?_set_self hj] at h
      exact Or.inl ⟨rfl, (Option.some.inj h).symm⟩
    · rw [List.getElem?_set_ne (Ne.symm hji)] at h
      exact Or.inr (Or.inl ⟨hji, h⟩)
  · -- a place behind its end
    rw [List.getElem?_append_right (by simpa using hj)] at h
    exact Or.inr (Or.inr (List.mem_of_getElem? h))

theorem getElem?_set_append_self (h : l[i]? = some a) : (l.set i b ++ new)[i]? = some b := by
  have hi : i < l.length := (List.getElem?_eq_some_iff.1 h).1
  rw [List.getElem?_append_left (by simpa using hi), List.getElem?_set_self hi]

theorem getElem?_set_append_of_ne (h : l[j]? = some c) (hji : j ≠ i) :
    (l.set i b ++ new)[j]? = some c := by
  have hj : j < l.length := (List.getElem?_eq_some_iff.1 h).1
  rw [List.getElem?_append_left (by simpa using hj), List.getElem?_set_ne (Ne.symm hji), h]

/-- Where a replacement adds none that counts, one that counts was there before, or takes over from
the one replaced. -/
theorem exists_counting {p : α → Bool}
    (hle : (if p b then 1 else 0) + new.countP p ≤ if p a then 1 else 0)
    (h : c ∈ l.set i b ++ new) (hc : p c = true) :
    (∃ j, j ≠ i ∧ l[j]? = some c) ∨ (p a = true ∧ (c = b ∨ c ∈ new)) := by
  rcases List.mem_iff_getElem?.1 h with ⟨j, hj⟩
  rcases getElem?_set_append hj with ⟨_, rfl⟩ | ⟨hne, hold⟩ | hmem
  · refine Or.inr ⟨?_, Or.inl rfl⟩
    by_contra hno
    rw [if_pos hc, if_neg hno] at hle
    omega
  · exact Or.inl ⟨j, hne, hold⟩
  · refine Or.inr ⟨?_, Or.inr hmem⟩
    by_contra hno
    have hpos : 0 < new.countP p := List.countP_pos_iff.2 ⟨c, hmem, hc⟩
    rw [if_neg hno] at hle
    omega

/-- An element of such a list is the new one, one of those added, or at another place of the
old list. -/
theorem mem_set_append (h : c ∈ l.set i b ++ new) : c ∈ l.eraseIdx i ∨ c = b ∨ c ∈ new := by
  rcases List.mem_iff_getElem?.1 h with ⟨j, hj⟩
  rcases getElem?_set_append hj with ⟨_, rfl⟩ | ⟨hne, hold⟩ | hmem
  · exact Or.inr (Or.inl rfl)
  · exact Or.inl (List.mem_eraseIdx_iff_getElem?.2 ⟨j, hne, hold⟩)
  · exact Or.inr (Or.inr hmem)

/-- Replacing an element by one with the same share, or the one that may have a share. -/
theorem Solo.set (h : Solo f l k) (hi : l[i]? = some a) (hb : f b = f a ∨ k = i)
    (hnew : ∀ c ∈ new, f c = []) : Solo f (l.set i b ++ new) k := by
  intro j c hc hjk
  rcases getElem?_set_append hc with ⟨rfl, rfl⟩ | ⟨_, hold⟩ | hmem
  · rcases hb with hb | rfl
    · rw [hb]
      exact h _ a hi hjk
    · exact absurd rfl hjk
  · exact h j c hold hjk
  · exact hnew c hmem

/-- Elements without a share may be added. -/
theorem Solo.append (h : Solo f l k) (hnew : ∀ c ∈ new, f c = []) : Solo f (l ++ new) k := by
  intro j c hc hjk
  by_cases hj : j < l.length
  · rw [List.getElem?_append_left hj] at hc
    exact h j c hc hjk
  · rw [List.getElem?_append_right (Nat.le_of_not_lt hj)] at hc
    exact hnew c (List.mem_of_getElem? hc)

theorem flatMap_set_append (hi : l[i]? = some a) (hb : f b = f a) (hnew : ∀ c ∈ new, f c = []) :
    (l.set i b ++ new).flatMap f = l.flatMap f := by
  rw [List.flatMap_append, List.flatMap_eq_nil_iff.2 hnew, List.append_nil]
  induction l generalizing i with
  | nil =>
      simp at hi
  | cons x xs ih =>
      cases i with
      | zero =>
          simp only [List.getElem?_cons_zero, Option.some.injEq] at hi
          rw [List.set_cons_zero, List.flatMap_cons, List.flatMap_cons, hb, hi]
      | succ i =>
          rw [List.set_cons_succ, List.flatMap_cons, List.flatMap_cons, ih (by simpa using hi)]

end Share

/-! ## Programs and worlds -/

/-- What an action leads to: the new data, the next state of the thread, the threads it starts. -/
structure Effect (δ π : Type*) where
  data : δ
  next : π
  spawned : List π

/-- What a thread does next.  An action may depend on an input and is `none` where it is not
enabled. -/
inductive Instr (μ δ ι π : Type*)
  | wait (m : μ) (k : π)
  | post (m : μ) (k : π)
  | act (f : δ → ι → Option (Effect δ π))
  | halt

structure World (μ δ π : Type*) where
  semaphores : μ → Nat
  data : δ
  threads : List π

/-- Whose turn it is: a thread with its input, or the environment. -/
inductive Turn (ι ε : Type*)
  | thread (i : Nat) (input : ι)
  | env (e : ε)

section Steps

variable {μ δ ι π ε : Type*} [DecidableEq μ]
variable (program : π → Instr μ δ ι π) (env : δ → ε → Option (δ × List π))

/-- One step. -/
def World.step (w : World μ δ π) : Turn ι ε → Option (World μ δ π)
  | .thread i input =>
      match w.threads[i]? with
      | none => none
      | some pc =>
          match program pc with
          | .wait m k =>
              if w.semaphores m = 0 then
                none
              else
                some
                  { w with
                    semaphores := Function.update w.semaphores m (w.semaphores m - 1)
                    threads := w.threads.set i k }
          | .post m k =>
              some
                { w with
                  semaphores := Function.update w.semaphores m (w.semaphores m + 1)
                  threads := w.threads.set i k }
          | .act f =>
              match f w.data input with
              | none => none
              | some e =>
                  some
                    { w with
                      data := e.data
                      threads := w.threads.set i e.next ++ e.spawned }
          | .halt => none
  | .env e =>
      match env w.data e with
      | none => none
      | some (data, spawned) => some { w with data := data, threads := w.threads ++ spawned }

/-- What one step can do. -/
inductive Stepped (w : World μ δ π) : Turn ι ε → World μ δ π → Prop
  | wait {i : Nat} {input : ι} {pc : π} {m : μ} {k : π} (hpc : w.threads[i]? = some pc)
      (hinstr : program pc = .wait m k) (hfree : w.semaphores m ≠ 0) :
      Stepped w (.thread i input)
        { w with
          semaphores := Function.update w.semaphores m (w.semaphores m - 1)
          threads := w.threads.set i k }
  | post {i : Nat} {input : ι} {pc : π} {m : μ} {k : π} (hpc : w.threads[i]? = some pc)
      (hinstr : program pc = .post m k) :
      Stepped w (.thread i input)
        { w with
          semaphores := Function.update w.semaphores m (w.semaphores m + 1)
          threads := w.threads.set i k }
  | act {i : Nat} {input : ι} {pc : π} {f : δ → ι → Option (Effect δ π)} {e : Effect δ π}
      (hpc : w.threads[i]? = some pc) (hinstr : program pc = .act f)
      (heffect : f w.data input = some e) :
      Stepped w (.thread i input)
        { w with data := e.data, threads := w.threads.set i e.next ++ e.spawned }
  | env {e : ε} {data : δ} {spawned : List π} (henv : env w.data e = some (data, spawned)) :
      Stepped w (.env e) { w with data := data, threads := w.threads ++ spawned }

variable {program env} {w w' : World μ δ π} {l : Turn ι ε}

theorem World.step_cases (h : w.step program env l = some w') : Stepped program env w l w' := by
  cases l with
  | thread i input =>
      simp only [World.step] at h
      split at h
      · cases h
      · next pc hpc =>
          split at h
          · next m k hinstr =>
              split at h
              · cases h
              · next hfree =>
                  cases h
                  exact .wait hpc hinstr hfree
          · next m k hinstr =>
              cases h
              exact .post hpc hinstr
          · next f hinstr =>
              split at h
              · cases h
              · next e heffect =>
                  cases h
                  exact .act hpc hinstr heffect
          · cases h
  | env e =>
      simp only [World.step] at h
      split at h
      · cases h
      · next data spawned henv =>
          cases h
          exact .env henv

/-! ## Who holds a semaphore -/

/-- The states in which a thread holds a semaphore follow its waits and posts. -/
structure Disciplined (program : π → Instr μ δ ι π) (env : δ → ε → Option (δ × List π))
    (holds : μ → π → Bool) : Prop where
  wait : ∀ pc m k, program pc = .wait m k →
    holds m pc = false ∧ ∀ m', holds m' k = if m' = m then true else holds m' pc
  post : ∀ pc m k, program pc = .post m k →
    holds m pc = true ∧ ∀ m', holds m' k = if m' = m then false else holds m' pc
  act : ∀ pc f data input e, program pc = .act f → f data input = some e →
    ∀ m, holds m e.next = holds m pc ∧ ∀ t ∈ e.spawned, holds m t = false
  env : ∀ data e data' spawned, env data e = some (data', spawned) →
    ∀ m, ∀ t ∈ spawned, holds m t = false

/-- Each semaphore is `1` less the number of threads that hold it. -/
def Balanced (holds : μ → π → Bool) (w : World μ δ π) : Prop :=
  ∀ m, w.semaphores m + w.threads.countP (holds m) = 1

variable {holds : μ → π → Bool}

theorem Balanced.step (hd : Disciplined program env holds) (hb : Balanced holds w)
    (h : w.step program env l = some w') : Balanced holds w' := by
  intro m
  have hm := hb m
  cases World.step_cases h with
  | @wait i input pc m₀ k hpc hinstr hfree =>
      -- one thread comes to hold `m₀`, and nothing else changes in the counts
      rcases hd.wait pc m₀ k hinstr with ⟨hno, hk⟩
      have hset := countP_set_add (b := k) (p := holds m) hpc
      rw [hk] at hset
      by_cases hmm : m = m₀
      · subst hmm
        simp only [hno, Function.update_self] at hset ⊢
        simp at hset
        omega
      · simp only [hmm, if_false, Function.update_of_ne, ne_eq, not_false_eq_true] at hset ⊢
        omega
  | @post i input pc m₀ k hpc hinstr =>
      -- one thread gives `m₀` back
      rcases hd.post pc m₀ k hinstr with ⟨hyes, hk⟩
      have hset := countP_set_add (b := k) (p := holds m) hpc
      rw [hk] at hset
      by_cases hmm : m = m₀
      · subst hmm
        simp only [hyes, Function.update_self] at hset ⊢
        simp at hset
        omega
      · simp only [hmm, if_false, Function.update_of_ne, ne_eq, not_false_eq_true] at hset ⊢
        omega
  | @act i input pc f e hpc hinstr heffect =>
      rcases hd.act pc f _ _ e hinstr heffect m with ⟨hnext, hspawned⟩
      -- an action changes neither who holds a semaphore nor its value
      have hset := countP_set_add (b := e.next) (p := holds m) hpc
      rw [hnext] at hset
      rw [List.countP_append, countP_eq_zero_of_forall hspawned]
      change w.semaphores m + _ = 1
      omega
  | env henv =>
      -- new threads hold nothing
      rw [List.countP_append, countP_eq_zero_of_forall (hd.env _ _ _ _ henv m)]
      exact hm

omit [DecidableEq μ] in
/-- No two threads hold one semaphore. -/
theorem Balanced.exclusive (hb : Balanced holds w) {m : μ} {i j : Nat} {a b : π}
    (hi : w.threads[i]? = some a) (hj : w.threads[j]? = some b) (ha : holds m a = true)
    (hb' : holds m b = true) : i = j := by
  have hm := hb m
  exact eq_of_countP_le_one (by omega) hi hj ha hb'

end Steps

end Library
end DropboxSimulator
