import Mathlib.Data.Fintype.Pi
import Mathlib.Data.Finset.Card
import Mathlib.Logic.Function.Basic
import Mathlib.Tactic

/-!
# SlotArray — fixed arrays whose free slots carry a sentinel key

A table of fixed capacity is often kept as an array of slots, each with a key, where one
reserved key (the *sentinel*) marks the slots that are free.  Lookup, insertion and removal all
scan the array for the first slot with a given key; a free slot is found by looking up the
sentinel itself.

This file develops that representation over arbitrary slot and key types:

* `find`      : the first slot that carries a key;
* `used`      : how many slots carry a key other than the sentinel;
* `Distinct`  : no key other than the sentinel occurs twice;
* `keys`      : the finite set of keys the array holds.

Under `Distinct` an array is a partial map from keys to slots, and `used` is the size of its
domain (`used_eq_card_keys`).
-/

namespace DropboxSimulator
namespace Library
namespace SlotArray

variable {n : Nat} {σ κ : Type*} [DecidableEq κ]
variable {key : σ → κ} {free : κ} {a : Fin n → σ} {i j : Fin n} {k k' : κ} {v : σ}

/-! ## Lookup and counting -/

/-- The first slot that carries the key `k`. -/
def find (key : σ → κ) (a : Fin n → σ) (k : κ) : Option (Fin n) :=
  (List.finRange n).find? fun i => key (a i) = k

/-- The number of slots that carry a key other than the sentinel. -/
def used (key : σ → κ) (free : κ) (a : Fin n → σ) : Nat :=
  (List.finRange n).countP fun i => key (a i) ≠ free

/-- The keys other than the sentinel that the array holds. -/
def keys (key : σ → κ) (free : κ) (a : Fin n → σ) : Finset κ :=
  (Finset.univ.image fun i => key (a i)).erase free

/-- No key other than the sentinel occurs in two slots. -/
def Distinct (key : σ → κ) (free : κ) (a : Fin n → σ) : Prop :=
  ∀ i j, key (a i) = key (a j) → key (a i) ≠ free → i = j

theorem find_eq_none_iff : find key a k = none ↔ ∀ i, key (a i) ≠ k := by
  simp [find]

theorem key_of_find (h : find key a k = some i) : key (a i) = k := by
  simpa using List.find?_some h

theorem exists_find (h : key (a i) = k) : ∃ j, find key a k = some j := by
  cases hf : find key a k with
  | none =>
      exact absurd h (find_eq_none_iff.1 hf i)
  | some j =>
      exact ⟨j, rfl⟩

theorem mem_keys_iff : k ∈ keys key free a ↔ k ≠ free ∧ ∃ i, key (a i) = k := by
  simp [keys]

/-- In an array with distinct keys the lookup finds the only slot that carries the key. -/
theorem Distinct.find_eq_some_iff (hd : Distinct key free a) (hk : k ≠ free) :
    find key a k = some i ↔ key (a i) = k := by
  constructor
  · exact key_of_find
  · intro hi
    rcases exists_find hi with ⟨j, hj⟩
    have hij : j = i := by
      apply hd j i
      · rw [key_of_find hj, hi]
      · rwa [key_of_find hj]
    rw [hj, hij]

/-- An array that is not full has a free slot. -/
theorem exists_find_free_of_used_lt (h : used key free a < n) :
    ∃ i, find key a free = some i := by
  by_contra hnone
  -- if the lookup of the sentinel fails, every slot is used
  have hall : ∀ i, key (a i) ≠ free := by
    intro i hi
    exact hnone (exists_find hi)
  have hfull : used key free a = n := by
    simp [used, hall]
  omega

theorem used_le : used key free a ≤ n := by
  simpa [used] using
    (List.countP_le_length (p := fun i => decide (key (a i) ≠ free)) (l := List.finRange n))

/-- Counting the used slots counts the keys, when no key occurs twice. -/
theorem Distinct.used_eq_card_keys (hd : Distinct key free a) :
    used key free a = (keys key free a).card := by
  -- as many slots are used as keys are held, since no key is in two slots
  have hcount : used key free a =
      (Finset.univ.filter fun i => key (a i) ≠ free).card := by
    calc
      used key free a
          = ((List.finRange n).filter fun i => key (a i) ≠ free).length :=
            List.countP_eq_length_filter
      _ = ((List.finRange n).filter fun i => key (a i) ≠ free).toFinset.card :=
            (List.toFinset_card_of_nodup ((List.nodup_finRange n).filter _)).symm
      _ = (Finset.univ.filter fun i => key (a i) ≠ free).card := by
            congr 1
            ext i
            simp
  have himage : keys key free a =
      (Finset.univ.filter fun i => key (a i) ≠ free).image fun i => key (a i) := by
    ext k
    simp only [mem_keys_iff, Finset.mem_image, Finset.mem_filter, Finset.mem_univ, true_and]
    constructor
    · rintro ⟨hk, i, rfl⟩
      exact ⟨i, hk, rfl⟩
    · rintro ⟨i, hi, rfl⟩
      exact ⟨hi, i, rfl⟩
  rw [hcount, himage, Finset.card_image_of_injOn]
  intro i hi j _ hij
  exact hd i j hij (by simpa using hi)

/-! ## Writing one slot -/

/-- Overwriting a slot without changing its key changes no lookup. -/
theorem find_update_same_key (h : key v = key (a i)) :
    find key (Function.update a i v) k = find key a k := by
  unfold find
  congr 1
  funext j
  by_cases hj : j = i
  · subst hj
    simp [h]
  · simp [Function.update_of_ne hj]

omit [DecidableEq κ] in
theorem Distinct.update_same_key (hd : Distinct key free a) (h : key v = key (a i)) :
    Distinct key free (Function.update a i v) := by
  have hkey : ∀ j, key (Function.update a i v j) = key (a j) := by
    intro j
    by_cases hj : j = i
    · subst hj
      simp [h]
    · rw [Function.update_of_ne hj]
  intro j l hjl hfree
  exact hd j l (by simpa [hkey] using hjl) (by simpa [hkey] using hfree)

omit [DecidableEq κ] in
/-- Writing a fresh key into a slot keeps the keys distinct. -/
theorem Distinct.update_fresh (hd : Distinct key free a) (hfresh : ∀ j, key (a j) ≠ key v) :
    Distinct key free (Function.update a i v) := by
  intro j l hjl hfree
  by_cases hj : j = i <;> by_cases hl : l = i
  · -- both positions are the slot that was written
    rw [hj, hl]
  · subst hj
    rw [Function.update_self, Function.update_of_ne hl] at hjl
    exact absurd hjl.symm (hfresh l)
  · subst hl
    rw [Function.update_self, Function.update_of_ne hj] at hjl
    exact absurd hjl (hfresh j)
  · rw [Function.update_of_ne hj, Function.update_of_ne hl] at hjl
    rw [Function.update_of_ne hj] at hfree
    exact hd j l hjl hfree

omit [DecidableEq κ] in
/-- Freeing a slot keeps the keys distinct. -/
theorem Distinct.update_free (hd : Distinct key free a) (hv : key v = free) :
    Distinct key free (Function.update a i v) := by
  intro j l hjl hfree
  have hj : j ≠ i := by
    rintro rfl
    simp [hv] at hfree
  have hl : l ≠ i := by
    rintro rfl
    rw [Function.update_self, hv] at hjl
    exact hfree hjl
  rw [Function.update_of_ne hj, Function.update_of_ne hl] at hjl
  rw [Function.update_of_ne hj] at hfree
  exact hd j l hjl hfree

end SlotArray
end Library
end DropboxSimulator
