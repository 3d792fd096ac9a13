import DropboxSimulator.Library.Semaphore

/-!
# Progress — sections that come to their end

Threads that share semaphores, with a bound on what each has still to do inside its section.

* `Brief`                : a thread is inside one section at a time, waits for nothing there, and
  comes nearer to the end of the section with every action;
* `Balanced.released`    : a semaphore becomes free before its holder has had more turns than that,
  whatever other threads do in between;
* `Balanced.wait_served` : a thread that waits gets its turn once the holder has been left alone
  for long enough.

The steps may be guarded further than those of a world, as long as the guard lets a thread go on
that has not stopped for good (`Guards`).
-/

namespace DropboxSimulator
namespace Library

/-- The turn is one of thread `i`. -/
def Turn.isOf {ι ε : Type*} (i : Nat) : Turn ι ε → Bool
  | .thread j _ => decide (j = i)
  | .env _ => false

section Sections

variable {μ δ ι π ε : Type*} [DecidableEq μ]
variable (program : π → Instr μ δ ι π) (env : δ → ε → Option (δ × List π))

/-- A thread is inside one section at a time, waits for nothing there, and has less to do after
every action. -/
structure Brief (holds : μ → π → Bool) (remaining : π → Nat) : Prop where
  one : ∀ pc m m', holds m pc = true → holds m' pc = true → m = m'
  waits : ∀ pc m k m', program pc = .wait m k → holds m' pc = false
  act : ∀ pc f data input e m, program pc = .act f → f data input = some e →
    holds m pc = true → remaining e.next < remaining pc

/-- Inside a section a thread posts or acts, unless it has stopped for good. -/
def Able (holds : μ → π → Bool) (stopped : π → Prop) : Prop :=
  ∀ pc data m, holds m pc = true → ¬stopped pc →
    (∃ k, program pc = .post m k) ∨
      ∃ f input e, program pc = .act f ∧ f data input = some e

/-- The steps are steps of a world, and all of these while no thread has stopped. -/
structure Guards (stopped : π → Prop) (step : World μ δ π → Turn ι ε → Option (World μ δ π)) :
    Prop where
  sound : ∀ w l w', step w l = some w' → World.step program env w l = some w'
  complete : ∀ w l w', (∀ pc ∈ w.threads, ¬stopped pc) → World.step program env w l = some w' →
    step w l = some w'

variable {program env} {holds : μ → π → Bool} {remaining : π → Nat} {stopped : π → Prop}
variable {step : World μ δ π → Turn ι ε → Option (World μ δ π)}
variable {w w' : World μ δ π} {i j : Nat} {pc : π} {m : μ} {l : Turn ι ε}

/-- A turn of another thread leaves a thread where it is. -/
theorem World.getElem?_of_step (h : World.step program env w l = some w')
    (hpc : w.threads[i]? = some pc) (hl : l.isOf i = false) : w'.threads[i]? = some pc := by
  have hi : i < w.threads.length := (List.getElem?_eq_some_iff.1 hpc).1
  cases World.step_cases h with
  | @wait j input pc' m k hpc' hinstr hfree =>
      have hne : j ≠ i := by simpa [Turn.isOf] using hl
      rw [List.getElem?_set_ne hne, hpc]
  | @post j input pc' m k hpc' hinstr =>
      have hne : j ≠ i := by simpa [Turn.isOf] using hl
      rw [List.getElem?_set_ne hne, hpc]
  | @act j input pc' f e hpc' hinstr heffect =>
      have hne : j ≠ i := by simpa [Turn.isOf] using hl
      exact getElem?_set_append_of_ne hpc hne.symm
  | env henv =>
      rw [List.getElem?_append_left hi, hpc]

/-- So do the turns that one other thread takes in a row. -/
theorem World.getElem?_of_run (hguards : Guards program env stopped step) {inputs : List ι}
    (hpc : w.threads[j]? = some pc) (hij : i ≠ j)
    (h : run step w (inputs.map (Turn.thread i)) = some w') : w'.threads[j]? = some pc := by
  induction inputs generalizing w with
  | nil =>
      cases h
      exact hpc
  | cons input inputs ih =>
      rw [List.map_cons, run_cons, Option.bind_eq_some_iff] at h
      rcases h with ⟨u, hl, hrest⟩
      have hother : (Turn.thread i input : Turn ι ε).isOf j = false := decide_eq_false hij
      exact ih (World.getElem?_of_step (hguards.sound w _ u hl) hpc hother) hrest

/-- What a thread inside a section does with its turn: it gives the semaphore back, or stays in the
section with less to do. -/
theorem Balanced.own_turn (hbrief : Brief program holds remaining)
    (hd : Disciplined program env holds) (hb : Balanced holds w) {input : ι}
    (hpc : w.threads[i]? = some pc) (hin : holds m pc = true)
    (h : World.step program env w (.thread i input) = some w') :
    w'.semaphores m = 1 ∨
      ∃ pc', w'.threads[i]? = some pc' ∧ holds m pc' = true ∧ remaining pc' < remaining pc := by
  have hb' : Balanced holds w' := hb.step hd h
  cases World.step_cases h with
  | @wait _ _ pc₀ m₀ k hpc₀ hinstr hfree =>
      obtain rfl : pc₀ = pc := Option.some.inj (hpc₀.symm.trans hpc)
      rw [hbrief.waits pc₀ m₀ k m hinstr] at hin
      cases hin
  | @post _ _ pc₀ m₀ k hpc₀ hinstr =>
      obtain rfl : pc₀ = pc := Option.some.inj (hpc₀.symm.trans hpc)
      -- the semaphore that it posts is the one it holds
      obtain rfl : m = m₀ := hbrief.one pc₀ m m₀ hin (hd.post pc₀ m₀ k hinstr).1
      have hvalue := hb' m
      simp only [Function.update_self] at hvalue ⊢
      exact Or.inl (by omega)
  | @act _ _ pc₀ f e hpc₀ hinstr heffect =>
      obtain rfl : pc₀ = pc := Option.some.inj (hpc₀.symm.trans hpc)
      refine Or.inr ⟨e.next, getElem?_set_append_self hpc, ?_, ?_⟩
      · rw [(hd.act pc₀ f w.data input e hinstr heffect m).1, hin]
      · exact hbrief.act pc₀ f w.data input e m hinstr heffect hin

/-- Before the holder of a semaphore has had more turns than it has left to do, the semaphore is
free. -/
theorem Balanced.released (hguards : Guards program env stopped step)
    (hbrief : Brief program holds remaining) (hd : Disciplined program env holds)
    (hb : Balanced holds w) (hpc : w.threads[i]? = some pc) (hin : holds m pc = true)
    {turns : List (Turn ι ε)} (hrun : run step w turns = some w')
    (hturns : remaining pc < turns.countP (Turn.isOf i)) :
    ∃ before after w₁, turns = before ++ after ∧ run step w before = some w₁ ∧
      w₁.semaphores m = 1 := by
  induction turns generalizing w pc with
  | nil =>
      exact absurd hturns (Nat.not_lt_zero _)
  | cons l rest ih =>
      rw [run_cons, Option.bind_eq_some_iff] at hrun
      rcases hrun with ⟨u, hl, hrest⟩
      have hstep := hguards.sound w l u hl
      have hu : Balanced holds u := hb.step hd hstep
      -- what the rest of the turns does, does it after this one
      have hlater : (∃ before after w₁, rest = before ++ after ∧ run step u before = some w₁ ∧
          w₁.semaphores m = 1) → ∃ before after w₁, l :: rest = before ++ after ∧
            run step w before = some w₁ ∧ w₁.semaphores m = 1 := by
        rintro ⟨before, after, w₁, rfl, hbefore, hfree⟩
        exact ⟨l :: before, after, w₁, rfl, by rw [run_cons, hl, Option.bind_some, hbefore], hfree⟩
      cases hof : l.isOf i with
      | false =>
          rw [List.countP_cons_of_neg (by simp [hof])] at hturns
          exact hlater (ih hu (World.getElem?_of_step hstep hpc hof) hin hrest hturns)
      | true =>
          rw [List.countP_cons_of_pos hof] at hturns
          cases l with
          | env e =>
              cases hof
          | thread j input =>
              obtain rfl : j = i := of_decide_eq_true hof
              rcases hb.own_turn hbrief hd hpc hin hstep with hfree | ⟨pc', hpc', hin', hless⟩
              · exact ⟨[.thread j input], rest, u, rfl, by rw [run_cons, hl]; rfl, hfree⟩
              · exact hlater (ih hu hpc' hin' hrest (by omega))

/-- Inside a section a thread that has not stopped has a turn to take. -/
theorem Able.exists_turn [Nonempty ι] (hable : Able program holds stopped)
    (hpc : w.threads[i]? = some pc) (hin : holds m pc = true) (hrunning : ¬stopped pc) :
    ∃ input u, World.step program env w (.thread i input) = some u := by
  rcases hable pc w.data m hin hrunning with ⟨k, hinstr⟩ | ⟨f, input, e, hinstr, heffect⟩
  · obtain ⟨input⟩ := ‹Nonempty ι›
    refine ⟨input, Option.isSome_iff_exists.1 ?_⟩
    simp only [World.step, hpc, hinstr, Option.isSome_some]
  · refine ⟨input, Option.isSome_iff_exists.1 ?_⟩
    simp only [World.step, hpc, hinstr, heffect, Option.isSome_some]

/-- Left alone, the holder of a semaphore gives it back, unless a thread stops for good. -/
theorem Balanced.exists_release [Nonempty ι] (hguards : Guards program env stopped step)
    (hbrief : Brief program holds remaining) (hd : Disciplined program env holds)
    (hable : Able program holds stopped) (hb : Balanced holds w)
    (hclean : ∀ t ∈ w.threads, ¬stopped t) (hpc : w.threads[i]? = some pc)
    (hin : holds m pc = true) :
    ∃ (inputs : List ι) (w' : World μ δ π), inputs.length ≤ remaining pc + 1 ∧
      run step w (inputs.map (Turn.thread i)) = some w' ∧
      ((∃ t ∈ w'.threads, stopped t) ∨ w'.semaphores m = 1) := by
  generalize hn : remaining pc = n
  induction n using Nat.strong_induction_on generalizing w pc with
  | _ n ih =>
      have hrunning : ¬stopped pc := hclean pc (List.mem_of_getElem? hpc)
      obtain ⟨input, u, hturn⟩ : ∃ input u, World.step program env w (.thread i input) = some u :=
        hable.exists_turn hpc hin hrunning
      have hl : step w (.thread i input) = some u := hguards.complete w _ u hclean hturn
      have hone : run step w ([input].map (Turn.thread i)) = some u := by
        rw [List.map_singleton, run_cons, hl]
        rfl
      rcases hb.own_turn hbrief hd hpc hin hturn with hfree | ⟨pc', hpc', hin', hless⟩
      · exact ⟨[input], u, by simp, hone, Or.inr hfree⟩
      · by_cases hstopped : ∃ t ∈ u.threads, stopped t
        · exact ⟨[input], u, by simp, hone, Or.inl hstopped⟩
        · -- it goes on from there with less to do
          have hclean' : ∀ t ∈ u.threads, ¬stopped t := fun t ht hs => hstopped ⟨t, ht, hs⟩
          obtain ⟨inputs, w', hlength, hrun, hend⟩ :=
            ih (remaining pc') (by omega) (hb.step hd hturn) hclean' hpc' hin' rfl
          refine ⟨input :: inputs, w', ?_, ?_, hend⟩
          · rw [List.length_cons]
            omega
          · rw [List.map_cons, run_cons, hl, Option.bind_some, hrun]

/-- A thread that waits for a semaphore finds it free once its holder has been left alone for long
enough, unless a thread stops for good. -/
theorem Balanced.wait_served [Nonempty ι] (hguards : Guards program env stopped step)
    (hbrief : Brief program holds remaining) (hd : Disciplined program env holds)
    (hable : Able program holds stopped) (hb : Balanced holds w)
    (hclean : ∀ t ∈ w.threads, ¬stopped t) {k : π} (hpc : w.threads[j]? = some pc)
    (hwait : program pc = .wait m k) :
    ∃ (i : Nat) (inputs : List ι) (w' : World μ δ π),
      (inputs = [] ∨ ∃ t, w.threads[i]? = some t ∧ holds m t = true ∧
        inputs.length ≤ remaining t + 1) ∧
      run step w (inputs.map (Turn.thread i)) = some w' ∧
      ((∃ t ∈ w'.threads, stopped t) ∨
        w'.semaphores m = 1 ∧ w'.threads[j]? = some pc) := by
  have hm := hb m
  by_cases hfree : w.semaphores m = 1
  · exact ⟨j, [], w, Or.inl rfl, rfl, Or.inr ⟨hfree, hpc⟩⟩
  · -- some thread holds the semaphore, and it is not the one that waits
    have hpos : 0 < w.threads.countP (holds m) := by omega
    obtain ⟨t, ht, hin⟩ := List.countP_pos_iff.1 hpos
    obtain ⟨i, hi⟩ := List.mem_iff_getElem?.1 ht
    have hij : i ≠ j := by
      rintro rfl
      obtain rfl : t = pc := Option.some.inj (hi.symm.trans hpc)
      rw [(hd.wait t m k hwait).1] at hin
      cases hin
    obtain ⟨inputs, w', hlength, hrun, hend⟩ :=
      hb.exists_release hguards hbrief hd hable hclean hi hin
    refine ⟨i, inputs, w', Or.inr ⟨t, hi, hin, hlength⟩, hrun, ?_⟩
    exact hend.imp_right fun hfree => ⟨hfree, World.getElem?_of_run hguards hpc hij hrun⟩

end Sections

end Library
end DropboxSimulator
