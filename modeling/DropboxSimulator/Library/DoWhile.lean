import Mathlib.Data.List.Basic
import Mathlib.Algebra.BigOperators.Group.List.Basic
import Mathlib.Tactic

/-!
# DoWhile — loops that test at the end of a round

The body of a loop takes a state, notes an event, and goes on with another state or stops with a
result.

* `Ends`       : from a state the loop notes these events and stops with this result;
* `ends_total` : an invariant and a number that each round lowers end a loop;
* `chunkSizes` : the rounds in which a loop goes through a size by chunks.
-/

namespace DropboxSimulator
namespace Library

/-- What a round leads to. -/
inductive Outcome (σ ρ : Type)
  | again (s : σ)
  | stop (r : ρ)

section Loops

variable {σ ρ ε : Type} (body : σ → ε × Outcome σ ρ)

/-- From `s` on the loop notes these events and stops with `r`. -/
inductive Ends : σ → List ε → ρ → Prop
  | stop {s : σ} {e : ε} {r : ρ} (h : body s = (e, .stop r)) : Ends s [e] r
  | again {s t : σ} {e : ε} {es : List ε} {r : ρ} (h : body s = (e, .again t)) :
      Ends t es r → Ends s (e :: es) r

variable {body} {s : σ} {es : List ε} {r : ρ} {P : σ → Prop} {Q : ρ → Prop}

/-- What each round keeps holds at the end. -/
theorem Ends.invariant (h : Ends body s es r) (hs : P s)
    (hagain : ∀ s e t, P s → body s = (e, .again t) → P t)
    (hstop : ∀ s e r, P s → body s = (e, .stop r) → Q r) : Q r := by
  induction h with
  | stop hbody =>
      exact hstop _ _ _ hs hbody
  | again hbody _ ih =>
      exact ih (hagain _ _ _ hs hbody)

/-- A loop whose rounds keep an invariant and lower a number ends. -/
theorem ends_total (count : σ → Nat) (hs : P s)
    (hagain : ∀ s e t, P s → body s = (e, .again t) → P t ∧ count t < count s)
    (hstop : ∀ s e r, P s → body s = (e, .stop r) → Q r) :
    ∃ es r, Ends body s es r ∧ Q r := by
  obtain ⟨n, hn⟩ : ∃ n, count s = n := ⟨_, rfl⟩
  induction n using Nat.strong_induction_on generalizing s with
  | _ n ih =>
      cases hbody : body s with
      | mk e outcome =>
          cases outcome with
          | again t =>
              obtain ⟨ht, hlt⟩ := hagain s e t hs hbody
              obtain ⟨es, r, hends, hr⟩ := ih (count t) (hn ▸ hlt) ht rfl
              exact ⟨e :: es, r, .again hbody hends, hr⟩
          | stop r =>
              exact ⟨[e], r, .stop hbody, hstop s e r hs hbody⟩

end Loops

/-! ## Chunks -/

/-- The sizes of the chunks in which a loop goes through `n` bytes, at most `c` at a time. The
first round is made also when there is nothing to do. -/
def chunkSizes (c n : Nat) : List Int :=
  List.replicate ((n - 1) / c) (c : Int) ++ [((n - c * ((n - 1) / c) : Nat) : Int)]

section Chunks

variable {c n : Nat}

theorem chunkSizes_of_le (h : n ≤ c) : chunkSizes c n = [(n : Int)] := by
  have hnone : (n - 1) / c = 0 := by
    cases n with
    | zero =>
        exact Nat.zero_div c
    | succ n =>
        exact Nat.div_eq_of_lt h
  simp [chunkSizes, hnone]

theorem chunkSizes_of_lt (hc : 0 < c) (h : c < n) :
    chunkSizes c n = (c : Int) :: chunkSizes c (n - c) := by
  have hone : (n - 1) / c = (n - c - 1) / c + 1 := by
    rw [Nat.div_eq_sub_div hc (by omega)]
    congr 2
    omega
  have hlast : n - c * ((n - c - 1) / c + 1) = n - c - c * ((n - c - 1) / c) := by
    rw [Nat.mul_succ]
    omega
  rw [chunkSizes, hone, hlast, List.replicate_succ, List.cons_append, chunkSizes]

/-- The chunks make up the whole. -/
theorem sum_chunkSizes (c n : Nat) : (chunkSizes c n).sum = n := by
  have hle : c * ((n - 1) / c) ≤ n := by
    have hdiv := Nat.mul_div_le (n - 1) c
    omega
  rw [chunkSizes, List.sum_append, List.sum_replicate, List.sum_singleton, nsmul_eq_mul,
    Nat.cast_sub hle]
  push_cast
  ring

/-- A chunk has at most `c` bytes, and no byte only where there is nothing to do. -/
theorem mem_chunkSizes (hc : 0 < c) : ∀ k ∈ chunkSizes c n, k ≤ c ∧ (0 < n → 1 ≤ k) := by
  induction n using Nat.strong_induction_on with
  | _ n ih =>
      intro k hk
      by_cases h : n ≤ c
      · rw [chunkSizes_of_le h, List.mem_singleton] at hk
        omega
      · rw [chunkSizes_of_lt hc (not_le.1 h), List.mem_cons] at hk
        rcases hk with rfl | hk
        · omega
        · have hrest := ih (n - c) (by omega) k hk
          omega

variable {σ ρ : Type} {body : σ → Int × Outcome σ ρ} {s : Nat → σ} {r : ρ}

/-- A loop whose rounds are at `s 0`, `s 1`, … and move a chunk each makes these rounds. -/
theorem ends_chunkSizes (hc : 0 < c)
    (hagain : ∀ j, c < n - c * j → body (s j) = ((c : Int), .again (s (j + 1))))
    (hstop : ∀ j, c * j ≤ n → n - c * j ≤ c → body (s j) = (((n - c * j : Nat) : Int), .stop r))
    (j : Nat) (hj : c * j ≤ n) : Ends body (s j) (chunkSizes c (n - c * j)) r := by
  obtain ⟨left, hleft⟩ : ∃ left, n - c * j = left := ⟨_, rfl⟩
  induction left using Nat.strong_induction_on generalizing j with
  | _ left ih =>
      by_cases hlast : n - c * j ≤ c
      · rw [chunkSizes_of_le hlast]
        exact .stop (hstop j hj hlast)
      · have hnext : n - c * (j + 1) = n - c * j - c := by
          rw [Nat.mul_succ]
          omega
        have hle : c * (j + 1) ≤ n := by
          rw [Nat.mul_succ]
          omega
        rw [chunkSizes_of_lt hc (not_le.1 hlast), ← hnext]
        exact .again (hagain j (not_le.1 hlast)) (ih _ (by omega) (j + 1) hle rfl)

end Chunks

end Library
end DropboxSimulator
