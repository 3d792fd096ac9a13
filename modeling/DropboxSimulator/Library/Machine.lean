import Mathlib.Data.List.Basic
import Mathlib.Tactic

/-!
# Machine — runs of a guarded step function

A system is a function `step : σ → ℓ → Option σ` that says what a labelled step leads to, with
`none` where the step is not enabled.

* `run`     : the steps of a list of labels one after another;
* `Reaches` : the states that runs reach whose steps all meet a condition on the state before the
  step and its label; `runWhile` computes such runs.
-/

namespace DropboxSimulator
namespace Library

section Machine

variable {σ ℓ : Type*} (step : σ → ℓ → Option σ)

/-- The state after a list of steps. -/
def run (s : σ) (labels : List ℓ) : Option σ :=
  labels.foldlM step s

/-- The states reached from `s` by steps that all meet the condition. -/
inductive Reaches (ok : σ → ℓ → Prop) (s : σ) : σ → Prop
  | start : Reaches ok s s
  | next {t u : σ} (l : ℓ) : Reaches ok s t → ok t l → step t l = some u → Reaches ok s u

variable {step} {ok : σ → ℓ → Prop} {s t u : σ}

theorem run_cons {l : ℓ} {ls : List ℓ} :
    run step s (l :: ls) = (step s l).bind fun t => run step t ls := by
  simp [run, List.foldlM_cons]

theorem run_append {ls ls' : List ℓ} :
    run step s (ls ++ ls') = (run step s ls).bind fun t => run step t ls' := by
  simp [run, List.foldlM_append]

/-- A property that every step keeps holds wherever a run comes. -/
theorem Reaches.invariant {P : σ → Prop} (h : Reaches step ok s t) (hs : P s)
    (hstep : ∀ t l u, P t → ok t l → step t l = some u → P u) : P t := by
  induction h with
  | start =>
      exact hs
  | next l _ hok hl ih =>
      exact hstep _ l _ ih hok hl

theorem run_invariant {P : σ → Prop} {ls : List ℓ}
    (hstep : ∀ s l t, P s → step s l = some t → P t) (hs : P s) (h : run step s ls = some t) :
    P t := by
  induction ls generalizing s with
  | nil =>
      cases h
      exact hs
  | cons l ls ih =>
      rw [run_cons, Option.bind_eq_some_iff] at h
      rcases h with ⟨s', hl, hrest⟩
      exact ih (hstep s l s' hs hl) hrest

/-- A phase that lasts at most so many steps, and what holds from its end on. -/
theorem run_countdown {P : Nat → σ → Prop} {Q : σ → Prop} {n : Nat} {ls : List ℓ}
    (hphase : ∀ n s l t, P n s → step s l = some t → (∃ n', n = n' + 1 ∧ P n' t) ∨ Q t)
    (hafter : ∀ s l t, Q s → step s l = some t → Q t) (hs : P n s)
    (h : run step s ls = some t) : (∃ n', n = ls.length + n' ∧ P n' t) ∨ Q t := by
  induction ls generalizing s n with
  | nil =>
      cases h
      exact Or.inl ⟨n, by simp, hs⟩
  | cons l ls ih =>
      rw [run_cons, Option.bind_eq_some_iff] at h
      rcases h with ⟨s', hl, hrest⟩
      rcases hphase n s l s' hs hl with ⟨n', rfl, hs'⟩ | hs'
      · rcases ih hs' hrest with ⟨n'', rfl, ht⟩ | ht
        · exact Or.inl ⟨n'', by simp; omega, ht⟩
        · exact Or.inr ht
      · exact Or.inr (run_invariant hafter hs' hrest)

/-- Where every step leaves less work ahead, apart from what it brings itself, a run is not longer
than all that it was brought. -/
theorem run_length_le (ahead : σ → Nat) (gain : ℓ → Nat) {ls : List ℓ}
    (hstep : ∀ s l t, step s l = some t → ahead t + 1 ≤ ahead s + gain l)
    (h : run step s ls = some t) : ahead t + ls.length ≤ ahead s + (ls.map gain).sum := by
  induction ls generalizing s with
  | nil =>
      cases h
      simp
  | cons l ls ih =>
      rw [run_cons, Option.bind_eq_some_iff] at h
      rcases h with ⟨s', hl, hrest⟩
      have hfirst := hstep s l s' hl
      have hothers := ih hrest
      rw [List.map_cons, List.sum_cons, List.length_cons]
      omega

theorem Reaches.trans (h : Reaches step ok s t) (h' : Reaches step ok t u) :
    Reaches step ok s u := by
  induction h' with
  | start =>
      exact h
  | next l _ hok hl ih =>
      exact .next l ih hok hl

theorem Reaches.mono {ok' : σ → ℓ → Prop} (himp : ∀ t l, ok t l → ok' t l)
    (h : Reaches step ok s t) : Reaches step ok' s t := by
  induction h with
  | start =>
      exact .start
  | next l _ hok hl ih =>
      exact .next l ih (himp _ l hok) hl

/-- The steps of a list of labels, as long as each meets the condition. -/
def runWhile (step : σ → ℓ → Option σ) (ok : σ → ℓ → Prop) [∀ s l, Decidable (ok s l)] (s : σ)
    (labels : List ℓ) : Option σ :=
  run (fun s l => if ok s l then step s l else none) s labels

/-- A condition that every step meets is none. -/
theorem runWhile_eq_run [∀ s l, Decidable (ok s l)] (hok : ∀ s l, ok s l) {ls : List ℓ} :
    runWhile step ok s ls = run step s ls := by
  have hsame : (fun s l => if ok s l then step s l else none) = step := by
    funext s l
    rw [if_pos (hok s l)]
  rw [runWhile, hsame]

theorem Reaches.of_runWhile [∀ s l, Decidable (ok s l)] {ls : List ℓ}
    (h : runWhile step ok s ls = some t) : Reaches step ok s t := by
  induction ls generalizing s with
  | nil =>
      cases h
      exact .start
  | cons l ls ih =>
      rw [runWhile, run_cons, Option.bind_eq_some_iff] at h
      rcases h with ⟨s', hl, hls⟩
      -- the guarded run goes on only where the condition is met
      split at hl
      · next hok => exact (Reaches.start.next l hok hl).trans (ih hls)
      · cases hl

end Machine

end Library
end DropboxSimulator
