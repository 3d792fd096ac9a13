import DropboxSimulator.Library.Bytes

/-!
# Memory — the bytes that a process can address

The memory of a process, as far as copying objects byte by byte goes:

* `Memory`       : the byte at every address that is mapped;
* `Memory.store` : bytes written from an address on;
* `Memory.load`  : bytes read from an address on, `none` when one of them is not mapped.

What a load gives is known from the single bytes (`Memory.load_eq_some_iff`), and a part of what
was stored is loaded back whatever the memory held before (`Memory.load_store`).
-/

namespace DropboxSimulator
namespace Library

/-- The memory of a process. -/
abbrev Memory := Nat → Option UInt8

namespace Memory

/-- The bytes are written from address `a` on. -/
def store (m : Memory) (a : Nat) (bs : Bytes) : Memory :=
  fun b => if a ≤ b ∧ b < a + bs.length then bs[b - a]? else m b

/-- The `n` bytes from address `a` on. -/
def load (m : Memory) : Nat → Nat → Option Bytes
  | _, 0 => some []
  | a, n + 1 =>
      match m a with
      | none => none
      | some b => (load m (a + 1) n).map (b :: ·)

variable {m : Memory} {a n : Nat} {bs : Bytes}

theorem store_add (i : Nat) :
    m.store a bs (a + i) = if i < bs.length then bs[i]? else m (a + i) := by
  by_cases hi : i < bs.length
  · simp [store, hi]
  · simp [store, hi]

/-- What an address holds is known for every earlier memory only where the store wrote it. -/
theorem forall_store_eq_some_iff {b : Nat} {x : UInt8} :
    (∀ m : Memory, m.store a bs b = some x) ↔ a ≤ b ∧ bs[b - a]? = some x := by
  constructor
  · intro h
    by_cases hin : a ≤ b ∧ b < a + bs.length
    · have hx := h fun _ => none
      rw [store, if_pos hin] at hx
      exact ⟨hin.1, hx⟩
    · -- a memory with another byte there
      have hx := h fun _ => some (x + 1)
      rw [store, if_neg hin, Option.some.injEq] at hx
      exact absurd hx (by simp)
  · rintro ⟨hle, hx⟩ m
    have hlt : b - a < bs.length := (List.getElem?_eq_some_iff.1 hx).1
    have hin : a ≤ b ∧ b < a + bs.length := ⟨hle, by omega⟩
    rw [store, if_pos hin]
    exact hx

/-- The bytes of a load are those at the addresses it covers. -/
theorem load_eq_some_iff :
    m.load a n = some bs ↔ bs.length = n ∧ ∀ i (h : i < bs.length), m (a + i) = some bs[i] := by
  induction n generalizing a bs with
  | zero =>
      cases bs with
      | nil =>
          simp [load]
      | cons b rest =>
          simp [load]
  | succ n ih =>
      cases bs with
      | nil =>
          cases hb : m a <;> simp [load, hb]
      | cons b rest =>
          have hloads : m.load a (n + 1) = some (b :: rest) ↔
              m a = some b ∧ m.load (a + 1) n = some rest := by
            cases hb : m a <;> simp [load, hb, and_comm]
          rw [hloads, ih]
          constructor
          · rintro ⟨hb, hlen, hrest⟩
            refine ⟨by simp [hlen], ?_⟩
            intro i hi
            cases i with
            | zero =>
                exact hb
            | succ i =>
                have hnext := hrest i (by simpa using hi)
                simpa [Nat.add_comm 1 i, Nat.add_assoc] using hnext
          · rintro ⟨hlen, hall⟩
            refine ⟨hall 0 (by simp), by simpa using hlen, ?_⟩
            intro i hi
            have hnext := hall (i + 1) (by simpa using hi)
            simpa [Nat.add_comm 1 i, Nat.add_assoc] using hnext

/-- A part of what was stored is loaded back. -/
theorem load_store {front part rest : Bytes} (h : bs = front ++ (part ++ rest)) :
    (m.store a bs).load (a + front.length) part.length = some part := by
  rw [load_eq_some_iff]
  refine ⟨rfl, ?_⟩
  intro i hi
  have hin : front.length + i < bs.length := by
    simp only [h, List.length_append]
    omega
  calc
    m.store a bs (a + front.length + i)
        = bs[front.length + i]? := by
          rw [Nat.add_assoc, store_add, if_pos hin]
    _ = (part ++ rest)[i]? := by
          rw [h, List.getElem?_append_right (by omega), Nat.add_sub_cancel_left]
    _ = some part[i] := by
          rw [List.getElem?_append_left hi, List.getElem?_eq_getElem hi]

end Memory

end Library
end DropboxSimulator
