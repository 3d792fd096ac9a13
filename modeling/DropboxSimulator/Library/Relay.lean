import Mathlib.Data.List.Basic
import Mathlib.Logic.Function.Conjugate
import Mathlib.Tactic

/-!
# Relay — changes made at one place and passed on to another

A state is changed at a first place by operations, each of which is passed on later and made
again at a second place when it arrives.

* `applyAll` : the changes of a list, one after another;
* `Follows`  : the first state is the second one after the changes on their way and then the ones
  not yet passed on;
* `Ledger`   : which of several workers has made a change and not yet passed it on.

`Follows.send` is the point: changes may be passed on in another order than that in which they
were made, if it makes no difference that a change overtakes earlier ones (`Overtakes`).
-/

namespace DropboxSimulator
namespace Library

section Changes

variable {δ ω : Type*} (apply : ω → δ → δ)

/-- The changes of a list, the first one first. -/
def applyAll (ops : List ω) (d : δ) : δ :=
  ops.foldl (fun d op => apply op d) d

/-- In the state `d` the change may as well be made before the others as after them. -/
def Overtakes (ops : List ω) (op : ω) (d : δ) : Prop :=
  applyAll apply ops (apply op d) = apply op (applyAll apply ops d)

/-- The first state is the second one after the changes on their way and those not passed on. -/
def Follows (unsent inFlight : List ω) (first second : δ) : Prop :=
  first = applyAll apply unsent (applyAll apply inFlight second)

variable {apply} {d first second : δ} {op : ω} {before after ops unsent inFlight : List ω}

theorem applyAll_append :
    applyAll apply (before ++ after) d = applyAll apply after (applyAll apply before d) :=
  List.foldl_append

/-- A change that commutes with others overtakes them in any state. -/
theorem Overtakes.of_commute (h : ∀ op' ∈ ops, Function.Commute (apply op') (apply op)) :
    Overtakes apply ops op d := by
  induction ops generalizing d with
  | nil =>
      rfl
  | cons op' rest ih =>
      have hrest : ∀ op'' ∈ rest, Function.Commute (apply op'') (apply op) :=
        fun op'' hop => h op'' (List.mem_cons_of_mem op' hop)
      calc
        applyAll apply (op' :: rest) (apply op d)
            = applyAll apply rest (apply op' (apply op d)) := rfl
        _ = applyAll apply rest (apply op (apply op' d)) := by
              rw [(h op' (by simp)).eq d]
        _ = apply op (applyAll apply (op' :: rest) d) := ih hrest

theorem Follows.refl : Follows apply [] [] d d :=
  rfl

theorem Follows.eq (h : Follows apply [] [] first second) : first = second :=
  h

/-- A change is made at the first place. -/
theorem Follows.make (h : Follows apply unsent inFlight first second) (op : ω) :
    Follows apply (unsent ++ [op]) inFlight (apply op first) second := by
  rw [Follows, applyAll_append, ← h]
  rfl

/-- A change is passed on before others that were made earlier and that it may overtake in the
state that the second place then comes to. -/
theorem Follows.send (h : Follows apply (before ++ op :: after) inFlight first second)
    (hover : Overtakes apply before op (applyAll apply inFlight second)) :
    Follows apply (before ++ after) (inFlight ++ [op]) first second := by
  calc
    first
        = applyAll apply (before ++ op :: after) (applyAll apply inFlight second) := h
    _ = applyAll apply after (apply op (applyAll apply before (applyAll apply inFlight second))) :=
          applyAll_append
    _ = applyAll apply after
          (applyAll apply before (apply op (applyAll apply inFlight second))) := by
          rw [hover]
    _ = applyAll apply (before ++ after) (applyAll apply (inFlight ++ [op]) second) := by
          rw [applyAll_append, applyAll_append]
          rfl

/-- The first change on its way arrives at the second place. -/
theorem Follows.deliver (h : Follows apply unsent (op :: inFlight) first second) :
    Follows apply unsent inFlight first (apply op second) :=
  h

end Changes

/-! ## Workers -/

section Workers

variable {τ ω : Type*} {share : τ → Option ω} {workers : List τ} {entries : List (Nat × ω)}
variable {i : Nat} {t t' : τ} {m : ω}

/-- The entries say which worker has made a change that it has not passed on. -/
structure Ledger (share : τ → Option ω) (workers : List τ) (entries : List (Nat × ω)) : Prop where
  nodup : (entries.map Prod.fst).Nodup
  mem_iff : ∀ i m, (i, m) ∈ entries ↔ ∃ t, workers[i]? = some t ∧ share t = some m

theorem exists_getElem?_set_iff {P : τ → Prop} {j : Nat} (ht : workers[i]? = some t) :
    (∃ u, (workers.set i t')[j]? = some u ∧ P u) ↔
      if j = i then P t' else ∃ u, workers[j]? = some u ∧ P u := by
  have hlt : i < workers.length := (List.getElem?_eq_some_iff.1 ht).1
  by_cases hji : j = i
  · subst hji
    simp [hlt]
  · simp [hji, List.getElem?_set_ne (Ne.symm hji)]

/-- A worker goes on without making or passing on a change. -/
theorem Ledger.set (h : Ledger share workers entries) (ht : workers[i]? = some t)
    (hsame : share t' = share t) : Ledger share (workers.set i t') entries := by
  refine ⟨h.nodup, fun j m => ?_⟩
  rw [h.mem_iff, exists_getElem?_set_iff ht]
  by_cases hji : j = i
  · subst hji
    simp [ht, hsame]
  · simp [hji]

/-- A worker joins. -/
theorem Ledger.append (h : Ledger share workers entries) (ht : share t = none) :
    Ledger share (workers ++ [t]) entries := by
  refine ⟨h.nodup, fun j m => ?_⟩
  rw [h.mem_iff]
  rcases lt_trichotomy j workers.length with hlt | heq | hgt
  · rw [List.getElem?_append_left hlt]
  · subst heq
    simp [ht]
  · have hnone : (workers ++ [t])[j]? = none := by simpa using hgt
    have hnone' : workers[j]? = none := by simpa using hgt.le
    simp [hnone, hnone']

/-- A worker makes a change. -/
theorem Ledger.make (h : Ledger share workers entries) (ht : workers[i]? = some t)
    (hnone : share t = none) (hsome : share t' = some m) :
    Ledger share (workers.set i t') (entries ++ [(i, m)]) := by
  -- by the ledger a worker with an entry has a change to pass on, and this one has none
  have hfresh : ∀ m', (i, m') ∉ entries := by
    intro m' hmem
    rcases (h.mem_iff i m').1 hmem with ⟨u, hu, hshare⟩
    rw [ht] at hu
    cases hu
    rw [hnone] at hshare
    cases hshare
  constructor
  · rw [List.map_append, List.nodup_append]
    refine ⟨h.nodup, by simp, ?_⟩
    intro j hj k hk hjk
    rcases List.mem_map.1 hj with ⟨⟨j', m'⟩, hmem, rfl⟩
    simp only [List.map_cons, List.map_nil, List.mem_singleton] at hk
    -- no two entries are of one worker
    subst hk hjk
    exact hfresh m' hmem
  · intro j m'
    rw [exists_getElem?_set_iff ht, List.mem_append, h.mem_iff]
    by_cases hji : j = i
    · subst hji
      have hno : ¬∃ u, workers[j]? = some u ∧ share u = some m' := fun hu =>
        hfresh m' ((h.mem_iff j m').2 hu)
      simp only [hno, false_or, if_true, hsome, List.mem_singleton, Prod.mk.injEq, true_and,
        Option.some.injEq]
      exact eq_comm
    · simp [hji]

/-- Where the entry of a worker stands. -/
theorem Ledger.split (h : Ledger share workers entries) (hmem : (i, m) ∈ entries) :
    ∃ after, entries = entries.takeWhile (fun e => e.1 ≠ i) ++ (i, m) :: after ∧
      entries.filter (fun e => e.1 ≠ i) = entries.takeWhile (fun e => e.1 ≠ i) ++ after := by
  rcases h with ⟨hnodup, -⟩
  induction entries with
  | nil =>
      cases hmem
  | cons e rest ih =>
      rcases List.nodup_cons.1 hnodup with ⟨hnot, hrest⟩
      -- the entry is at the head exactly if its worker is, since no worker has two
      by_cases he : e.1 = i
      · have hall : ∀ e' ∈ rest, e'.1 ≠ i := fun e' he' heq =>
          hnot (List.mem_map.2 ⟨e', he', heq.trans he.symm⟩)
        have heq : e = (i, m) := by
          rcases List.mem_cons.1 hmem with heq | hmem
          · exact heq.symm
          · exact absurd rfl (hall _ hmem)
        subst heq
        refine ⟨rest, by simp, ?_⟩
        simpa using hall
      · have hmem' : (i, m) ∈ rest := by
          rcases List.mem_cons.1 hmem with rfl | hmem
          · exact absurd rfl he
          · exact hmem
        rcases ih hmem' hrest with ⟨after, hsplit, hfilter⟩
        refine ⟨after, ?_, ?_⟩
        · simpa [he] using hsplit
        · simpa [he] using hfilter

/-- A worker passes its change on. -/
theorem Ledger.send (h : Ledger share workers entries) (ht : workers[i]? = some t)
    (hnone : share t' = none) :
    Ledger share (workers.set i t') (entries.filter fun e => e.1 ≠ i) := by
  refine ⟨h.nodup.sublist (List.filter_sublist.map _), fun j m => ?_⟩
  rw [exists_getElem?_set_iff ht, List.mem_filter, h.mem_iff]
  by_cases hji : j = i
  · simp [hji, hnone]
  · simp [hji]

end Workers

end Library
end DropboxSimulator
