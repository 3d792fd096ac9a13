import Mathlib.Data.List.Basic
import Mathlib.Data.List.TakeWhile
import Mathlib.Tactic

/-!
# Bytes — C strings, fixed character arrays and little-endian integers

Byte-level data as C programs keep it:

* `cString`   : the string a character buffer holds, up to its first NUL;
* `CharArray` : a character array of fixed size, with `strcpy` into it and `strcat` onto it;
* `leBytes` / `leValue` : an unsigned integer in little-endian order and back.

`strcpy` and `strcat` return `none` when the string and its terminator do not fit the destination,
where the C functions write past the end of the array.
-/

namespace DropboxSimulator
namespace Library

/-- The bytes of a string, of a packet or of a file. -/
abbrev Bytes := List UInt8

/-! ## C strings -/

/-- The string a character buffer holds: its bytes up to the first NUL. -/
def cString (bs : Bytes) : Bytes :=
  bs.takeWhile (· ≠ 0)

theorem cString_append_nul {s rest : Bytes} (hs : ∀ b ∈ s, b ≠ 0) :
    cString (s ++ 0 :: rest) = s := by
  unfold cString
  rw [List.takeWhile_append_of_pos (by simpa using hs)]
  simp

/-- What stands behind a NUL does not matter. -/
theorem cString_append_zero {s rest : Bytes} : cString (s ++ 0 :: rest) = cString s := by
  unfold cString
  induction s with
  | nil =>
      simp
  | cons b s ih =>
      by_cases hb : b = 0
      · simp [hb]
      · simpa [hb] using ih

theorem cString_append_congr {s rest rest' : Bytes} (h : cString rest = cString rest') :
    cString (s ++ rest) = cString (s ++ rest') := by
  unfold cString at h ⊢
  induction s with
  | nil =>
      simpa using h
  | cons b s ih =>
      by_cases hb : b = 0
      · simp [hb]
      · simpa [hb] using ih

theorem cString_replicate_zero {n : Nat} : cString (List.replicate n 0) = [] := by
  cases n with
  | zero =>
      rfl
  | succ n =>
      simp [cString, List.replicate_succ]

theorem cString_of_nulFree {s : Bytes} (h : ∀ b ∈ s, b ≠ 0) : cString s = s := by
  rw [cString, List.takeWhile_eq_self_iff]
  simpa using h

theorem ne_zero_of_mem_cString {s : Bytes} : ∀ b ∈ cString s, b ≠ 0 := by
  intro b hb
  simpa using List.mem_takeWhile_imp hb

/-- A character array of fixed size. -/
abbrev CharArray (n : Nat) := {bs : Bytes // bs.length = n}

namespace CharArray

variable {n : Nat}

/-- The string the array holds. -/
def string (dst : CharArray n) : Bytes :=
  cString dst.val

/-- The array after `strcpy`; `none` when the string and its terminator do not fit. -/
def strcpy (dst : CharArray n) (src : Bytes) : Option (CharArray n) :=
  if h : src.length < n then
    some ⟨src ++ 0 :: dst.val.drop (src.length + 1), by
      have hd := dst.property
      simp only [List.length_append, List.length_cons, List.length_drop]
      omega⟩
  else
    none

theorem strcpy_isSome_iff {dst : CharArray n} {src : Bytes} :
    (dst.strcpy src).isSome ↔ src.length < n := by
  unfold strcpy
  split <;> simp_all

theorem exists_strcpy (dst : CharArray n) {src : Bytes} (h : src.length < n) :
    ∃ dst', dst.strcpy src = some dst' :=
  Option.isSome_iff_exists.1 (strcpy_isSome_iff.2 h)

/-- What was copied is what the array then holds. -/
theorem string_of_strcpy {dst dst' : CharArray n} {src : Bytes}
    (hsrc : ∀ b ∈ src, b ≠ 0) (h : dst.strcpy src = some dst') : dst'.string = src := by
  unfold strcpy at h
  split at h
  · -- the copy ends with a NUL that `src` itself does not have
    cases h
    exact cString_append_nul hsrc
  · cases h

/-- The array after `strcat`; `none` when what it would then hold does not fit. -/
def strcat (dst : CharArray n) (src : Bytes) : Option (CharArray n) :=
  dst.strcpy (dst.string ++ src)

theorem strcat_isSome_iff {dst : CharArray n} {src : Bytes} :
    (dst.strcat src).isSome ↔ dst.string.length + src.length < n := by
  rw [strcat, strcpy_isSome_iff, List.length_append]

/-- The array then holds what it held before and what was appended. -/
theorem string_of_strcat {dst dst' : CharArray n} {src : Bytes}
    (hsrc : ∀ b ∈ src, b ≠ 0) (h : dst.strcat src = some dst') :
    dst'.string = dst.string ++ src := by
  refine string_of_strcpy ?_ h
  intro b hb
  rcases List.mem_append.1 hb with hb | hb
  · exact ne_zero_of_mem_cString b hb
  · exact hsrc b hb

/-- The `n` bytes of a buffer from position `off` on. -/
def ofSlice (bs : Bytes) (off : Nat) (h : off + n ≤ bs.length) : CharArray n :=
  ⟨(bs.drop off).take n, by
    simp only [List.length_take, List.length_drop]
    omega⟩

end CharArray

/-! ## Little-endian integers -/

/-- The low `k` bytes of a number, least significant first. -/
def leBytes : Nat → Nat → Bytes
  | 0, _ => []
  | k + 1, v => UInt8.ofNat v :: leBytes k (v / 256)

/-- The number that little-endian bytes spell. -/
def leValue : Bytes → Nat
  | [] => 0
  | b :: bs => b.toNat + 256 * leValue bs

@[simp] theorem length_leBytes (k v : Nat) : (leBytes k v).length = k := by
  induction k generalizing v with
  | zero =>
      rfl
  | succ k ih =>
      simp [leBytes, ih]

/-- The first bytes of a little-endian number are its low part. -/
theorem take_leBytes {j k : Nat} (h : j ≤ k) (v : Nat) : (leBytes k v).take j = leBytes j v := by
  induction j generalizing k v with
  | zero =>
      rfl
  | succ j ih =>
      obtain ⟨k, rfl⟩ : ∃ l, k = l + 1 := ⟨k - 1, by omega⟩
      rw [leBytes, List.take_succ_cons, ih (by omega), leBytes]

theorem leValue_leBytes (k v : Nat) : leValue (leBytes k v) = v % 256 ^ k := by
  induction k generalizing v with
  | zero =>
      simp [leBytes, leValue, Nat.mod_one]
  | succ k ih =>
      have hbyte : (UInt8.ofNat v).toNat = v % 256 := by simp
      -- the lowest byte is `v % 256`, the others spell `v / 256`
      rw [leBytes, leValue, ih, hbyte, Nat.pow_succ', Nat.mod_mul]

theorem leValue_leBytes_of_lt {k v : Nat} (h : v < 256 ^ k) : leValue (leBytes k v) = v := by
  rw [leValue_leBytes, Nat.mod_eq_of_lt h]

theorem leValue_append (bs cs : Bytes) :
    leValue (bs ++ cs) = leValue bs + 256 ^ bs.length * leValue cs := by
  induction bs with
  | nil =>
      simp [leValue]
  | cons b bs ih =>
      simp only [List.cons_append, leValue, ih, List.length_cons, pow_succ]
      ring

theorem leValue_lt (bs : Bytes) : leValue bs < 256 ^ bs.length := by
  induction bs with
  | nil =>
      simp [leValue]
  | cons b bs ih =>
      have hb := b.toNat_lt
      rw [leValue, List.length_cons, pow_succ]
      omega

end Library
end DropboxSimulator
