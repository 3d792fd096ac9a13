import DropboxSimulator.Library.Bytes

/-!
# Heap — strings copied into memory from `malloc`

`malloc(size)` returns a block of at least `size` bytes, or a null pointer.  How many bytes can be
used, and what stands in them, is up to the allocator and may differ from call to call.

`Heap.copy` is `strcpy` into a new block: it succeeds if and only if the string and its terminator
fit what can be used of the block (`copy_isSome_iff`).
-/

namespace DropboxSimulator
namespace Library

/-- What `malloc` returns in the `i`-th call of a function: the usable bytes of the block. -/
structure Heap where
  malloc : Nat → Nat → Option Bytes
  size_le : ∀ i size block, malloc i size = some block → size ≤ block.length

/-- A copy of a string into a new block: the number of the call, the size that is asked for, and the
string. -/
structure Copy where
  call : Nat
  size : Nat
  string : Bytes

namespace Heap

/-- `strcpy(malloc(size), s)`: the block after the copy. -/
def copy (h : Heap) (call size : Nat) (s : Bytes) : Option Bytes :=
  (h.malloc call size).bind fun block =>
    if s.length < block.length then some (s ++ 0 :: block.drop (s.length + 1)) else none

/-- The string and its terminator fit the block. -/
def Holds (h : Heap) (c : Copy) : Prop :=
  ∃ block, h.malloc c.call c.size = some block ∧ c.string.length < block.length

section Copies

variable {h : Heap} {call size : Nat} {s block : Bytes}

theorem copy_isSome_iff : (h.copy call size s).isSome ↔ h.Holds ⟨call, size, s⟩ := by
  unfold copy Holds
  cases hblock : h.malloc call size with
  | none =>
      simp
  | some block =>
      by_cases hfits : s.length < block.length <;> simp [hfits]

theorem holds_of_copy (hcopy : h.copy call size s = some block) : h.Holds ⟨call, size, s⟩ :=
  copy_isSome_iff.1 (Option.isSome_of_mem hcopy)

theorem Holds.exists_copy (hholds : h.Holds ⟨call, size, s⟩) :
    ∃ block, h.copy call size s = some block :=
  Option.isSome_iff_exists.1 (copy_isSome_iff.2 hholds)

/-- A string that is shorter than the size that was asked for fits. -/
theorem holds_of_lt (hsome : (h.malloc call size).isSome) (hlt : s.length < size) :
    h.Holds ⟨call, size, s⟩ := by
  obtain ⟨block, hblock⟩ := Option.isSome_iff_exists.1 hsome
  exact ⟨block, hblock, hlt.trans_le (h.size_le _ _ _ hblock)⟩

/-- The block begins with the string and its terminator. -/
theorem exists_of_copy (hcopy : h.copy call size s = some block) :
    ∃ behind, block = s ++ 0 :: behind := by
  rcases Option.bind_eq_some_iff.1 hcopy with ⟨fresh, _, hif⟩
  split at hif
  · cases hif
    exact ⟨_, rfl⟩
  · cases hif

theorem cString_of_copy (hs : ∀ b ∈ s, b ≠ 0) (hcopy : h.copy call size s = some block) :
    cString block = s := by
  rcases exists_of_copy hcopy with ⟨behind, rfl⟩
  exact cString_append_nul hs

end Copies

end Heap

end Library
end DropboxSimulator
