import Mathlib.Data.Set.Card
import Mathlib.Tactic

/-!
# Roster — who is registered with whom, within fixed capacities

A roster records for each *owner* a set of *members* and for each pair some data.  It is the
abstract reading of a two-level table: a partial map from pairs to data.  A table of bounded
size admits a pair when it knows it already, when the owner has room for one more member, or
when the owner is new and there is room for one more owner.

* `put`, `erase`  : record or forget one pair;
* `adjust`        : record a pair with data that depend on what is recorded of it;
* `owners`, `members`, `pairs` : what is recorded;
* `Within`, `PairsWithin` : the roster, or a set of pairs, respects the two capacities;
* `Admits`        : the pair can be recorded without exceeding them.

The main fact is `Admits.of_pairs_subset`: a roster that holds a part of another one within the
capacities admits every pair that the other one admits.  Adjustments of different pairs commute,
and so do adjustments of one pair that touch different parts of its data (`adjust_comm`).
-/

namespace DropboxSimulator
namespace Library

/-- The data recorded for each owner and member. -/
def Roster (α β γ : Type*) := α → β → Option γ

namespace Roster

variable {α β γ : Type*}

/-- The members recorded for an owner. -/
def members (r : Roster α β γ) (a : α) : Set β :=
  {b | r a b ≠ none}

/-- The owners with at least one member. -/
def owners (r : Roster α β γ) : Set α :=
  {a | ∃ b, r a b ≠ none}

/-- The recorded pairs. -/
def pairs (r : Roster α β γ) : Set (α × β) :=
  {p | r p.1 p.2 ≠ none}

theorem mem_pairs_iff {r : Roster α β γ} {a : α} {b : β} : (a, b) ∈ r.pairs ↔ r a b ≠ none :=
  Iff.rfl

/-- At most `m` owners, with at most `n` members each. -/
def Within (m n : Nat) (r : Roster α β γ) : Prop :=
  r.owners.encard ≤ m ∧ ∀ a, (r.members a).encard ≤ n

/-- The pair can be recorded without exceeding the capacities. -/
def Admits (m n : Nat) (r : Roster α β γ) (a : α) (b : β) : Prop :=
  b ∈ r.members a ∨
    (a ∈ r.owners ∧ (r.members a).encard < n) ∨
    (a ∉ r.owners ∧ r.owners.encard < m)

section Update

variable [DecidableEq α] [DecidableEq β]

/-- The roster with the data of one pair replaced. -/
def put (r : Roster α β γ) (a : α) (b : β) (c : γ) : Roster α β γ :=
  fun a' b' => if a' = a ∧ b' = b then some c else r a' b'

/-- The roster without one pair. -/
def erase (r : Roster α β γ) (a : α) (b : β) : Roster α β γ :=
  fun a' b' => if a' = a ∧ b' = b then none else r a' b'

/-- The roster with the data of one pair replaced by what `f` makes of them. -/
def adjust (r : Roster α β γ) (a : α) (b : β) (f : Option γ → γ) : Roster α β γ :=
  r.put a b (f (r a b))

theorem adjust_comm {r : Roster α β γ} {a a' : α} {b b' : β} {f g : Option γ → γ}
    (h : a = a' → b = b' → ∀ x, g (some (f x)) = f (some (g x))) :
    (r.adjust a b f).adjust a' b' g = (r.adjust a' b' g).adjust a b f := by
  by_cases hpair : a = a' ∧ b = b'
  · rcases hpair with ⟨rfl, rfl⟩
    have hfg := h rfl rfl (r a b)
    funext x y
    by_cases hxy : x = a ∧ y = b <;> simp [adjust, put, hxy, hfg]
  · have hswap : ¬(a' = a ∧ b' = b) := fun heq => hpair ⟨heq.1.symm, heq.2.symm⟩
    funext x y
    by_cases hxy : x = a ∧ y = b
    · rcases hxy with ⟨rfl, rfl⟩
      simp [adjust, put, hpair]
    · simp [adjust, put, hxy, hswap]

theorem pairs_put (r : Roster α β γ) (a : α) (b : β) (c : γ) :
    (r.put a b c).pairs = insert (a, b) r.pairs := by
  ext ⟨a', b'⟩
  by_cases h : a' = a ∧ b' = b <;> simp [pairs, put, h, Prod.ext_iff]

theorem pairs_erase (r : Roster α β γ) (a : α) (b : β) :
    (r.erase a b).pairs = r.pairs \ {(a, b)} := by
  ext ⟨a', b'⟩
  by_cases h : a' = a ∧ b' = b
  · simp [pairs, erase, h]
  · have hne : (a', b') ∉ ({(a, b)} : Set (α × β)) := by simpa using h
    have herase : r.erase a b a' b' = r a' b' := if_neg h
    exact ⟨fun hp => ⟨by rwa [mem_pairs_iff, herase] at hp, hne⟩,
      fun hp => by rw [mem_pairs_iff, herase]; exact hp.1⟩

end Update

/-! ## Comparing rosters by their pairs -/

section Compare

variable {δ : Type*} {r : Roster α β γ} {s : Roster α β δ} {a : α} {b : β} {m n : Nat}

theorem mem_members_iff : b ∈ r.members a ↔ (a, b) ∈ r.pairs :=
  Iff.rfl

theorem mem_owners_iff : a ∈ r.owners ↔ ∃ b, (a, b) ∈ r.pairs :=
  Iff.rfl

theorem members_subset (h : s.pairs ⊆ r.pairs) (a : α) : s.members a ⊆ r.members a := by
  intro b hb
  exact mem_members_iff.2 (h (mem_members_iff.1 hb))

theorem owners_subset (h : s.pairs ⊆ r.pairs) : s.owners ⊆ r.owners := by
  intro a ha
  rcases mem_owners_iff.1 ha with ⟨b, hb⟩
  exact mem_owners_iff.2 ⟨b, h hb⟩

theorem encard_lt_of_notMem {τ : Type*} {A B : Set τ} {x : τ} {k : Nat} (h : A ⊆ B)
    (hx : x ∈ B) (hxA : x ∉ A) (hB : B.encard ≤ k) : A.encard < k := by
  have hfin : A.Finite := (Set.finite_of_encard_le_coe hB).subset h
  have hlt : A.encard < B.encard :=
    hfin.encard_lt_encard ⟨h, fun hBA => hxA (hBA hx)⟩
  exact hlt.trans_le hB

/-- A part of a roster within the capacities admits what the roster itself admits. -/
theorem Admits.of_pairs_subset (hr : r.Within m n) (h : s.pairs ⊆ r.pairs)
    (hadm : r.Admits m n a b) : s.Admits m n a b := by
  by_cases hb : b ∈ s.members a
  · exact Or.inl hb
  · by_cases ha : a ∈ s.owners
    · -- the owner is known but not with this member, so it is below its capacity
      refine Or.inr (Or.inl ⟨ha, ?_⟩)
      rcases hadm with hmem | ⟨_, hlt⟩ | ⟨hno, _⟩
      · exact encard_lt_of_notMem (members_subset h a) hmem hb (hr.2 a)
      · exact (Set.encard_le_encard (members_subset h a)).trans_lt hlt
      · exact absurd (owners_subset h ha) hno
    · -- the owner is new
      refine Or.inr (Or.inr ⟨ha, ?_⟩)
      rcases hadm with hmem | ⟨hown, _⟩ | ⟨_, hlt⟩
      · exact encard_lt_of_notMem (owners_subset h) ⟨b, hmem⟩ ha hr.1
      · exact encard_lt_of_notMem (owners_subset h) hown ha hr.1
      · exact (Set.encard_le_encard (owners_subset h)).trans_lt hlt

/-- A set of pairs with at most `m` owners and at most `n` members of each. -/
def PairsWithin (m n : Nat) (pairs : Set (α × β)) : Prop :=
  (Prod.fst '' pairs).encard ≤ m ∧ ∀ a, {b | (a, b) ∈ pairs}.encard ≤ n

open Classical in
/-- The roster that records just the given pairs. -/
noncomputable def ofPairs (pairs : Set (α × β)) : Roster α β Unit := fun a b =>
  if (a, b) ∈ pairs then some () else none

theorem mem_pairs_ofPairs_iff {pairs : Set (α × β)} :
    (a, b) ∈ (ofPairs pairs).pairs ↔ (a, b) ∈ pairs := by
  simp [mem_pairs_iff, ofPairs]

theorem within_ofPairs {pairs : Set (α × β)} (h : PairsWithin m n pairs) :
    (ofPairs pairs).Within m n := by
  constructor
  · have howners : (ofPairs pairs).owners = Prod.fst '' pairs := by
      ext a
      simp [mem_owners_iff, mem_pairs_ofPairs_iff]
    rw [howners]
    exact h.1
  · intro a
    have hmembers : (ofPairs pairs).members a = {b | (a, b) ∈ pairs} := by
      ext b
      rw [mem_members_iff, mem_pairs_ofPairs_iff]
      rfl
    rw [hmembers]
    exact h.2 a

/-- A roster that holds some pairs of a set within the capacities admits every pair of the set. -/
theorem Admits.of_pairsWithin {pairs : Set (α × β)} (h : PairsWithin m n pairs)
    (hsub : s.pairs ⊆ pairs) (hmem : (a, b) ∈ pairs) : s.Admits m n a b := by
  refine .of_pairs_subset (within_ofPairs h) (fun p hp => ?_)
    (Or.inl (mem_members_iff.2 (mem_pairs_ofPairs_iff.2 hmem)))
  exact mem_pairs_ofPairs_iff.2 (hsub hp)

end Compare

end Roster
end Library
end DropboxSimulator
