import DropboxSimulator.Library.Streams

/-!
# Bursts — calls in front of bytes that arrive in parts

What arrives on a stream arrives in bursts.  A read gets of the first burst as much as it asks for,
never of two at once, and no byte when nothing is left.  With the bursts any way in which reads can
split a stream is given.

* `Returns` : the events that a call notes until it is over;
* `Fills`   : reads in chunks of fixed size are all complete, up to a whole size.

A loop that reads in chunks goes to its end if and only if the bursts fill its reads: no burst that
it uses up ends within a chunk (`fills_iff_readBurst`).
-/

namespace DropboxSimulator
namespace Library

/-! ## Reads -/

/-- What a read of at most `n` bytes gets, and what it leaves. -/
def readBurst (n : Nat) : List Bytes → Bytes × List Bytes
  | [] => ([], [])
  | b :: rest => if b = [] then readBurst n rest else (b.take n, b.drop n :: rest)

/-- The bursts hold `size` bytes, and those that end before are whole chunks. -/
def Fills (chunk : Nat) : Nat → List Bytes → Prop
  | size, [] => size = 0
  | size, b :: rest => size ≤ b.length ∨ chunk ∣ b.length ∧ Fills chunk (size - b.length) rest

instance decidableFills (chunk : Nat) :
    (size : Nat) → (bursts : List Bytes) → Decidable (Fills chunk size bursts)
  | size, [] => inferInstanceAs (Decidable (size = 0))
  | size, b :: rest =>
      have := decidableFills chunk (size - b.length) rest
      inferInstanceAs (Decidable (size ≤ b.length ∨ chunk ∣ b.length ∧ _))

section Bursts

variable {chunk size n : Nat} {bursts : List Bytes}

/-- A read splits what has arrived. -/
theorem readBurst_append_flatten :
    (readBurst n bursts).1 ++ (readBurst n bursts).2.flatten = bursts.flatten := by
  induction bursts with
  | nil =>
      rfl
  | cons b rest ih =>
      rw [readBurst]
      split
      · next hb =>
          rw [ih, hb, List.flatten_cons, List.nil_append]
      · rw [List.flatten_cons, List.flatten_cons, ← List.append_assoc, List.take_append_drop]

theorem length_readBurst_add (n : Nat) (bursts : List Bytes) :
    (readBurst n bursts).1.length + (readBurst n bursts).2.flatten.length =
      bursts.flatten.length := by
  calc
    (readBurst n bursts).1.length + (readBurst n bursts).2.flatten.length
        = ((readBurst n bursts).1 ++ (readBurst n bursts).2.flatten).length :=
          List.length_append.symm
    _ = bursts.flatten.length := congrArg List.length readBurst_append_flatten

theorem length_readBurst_le : (readBurst n bursts).1.length ≤ n := by
  induction bursts with
  | nil =>
      exact Nat.zero_le n
  | cons b rest ih =>
      rw [readBurst]
      split
      · exact ih
      · exact List.length_take_le n b

/-- A read that gets all it asks for and the bytes behind it, up to some length. -/
theorem readBurst_append_take {left : Nat} (hn : n ≤ left)
    (hfull : (readBurst n bursts).1.length = n) :
    (readBurst n bursts).1 ++ (readBurst n bursts).2.flatten.take (left - n) =
      bursts.flatten.take left := by
  have hsplit : (readBurst n bursts).1 ++ (readBurst n bursts).2.flatten = bursts.flatten :=
    readBurst_append_flatten
  have hshort : (readBurst n bursts).1.length ≤ left := by omega
  calc
    (readBurst n bursts).1 ++ (readBurst n bursts).2.flatten.take (left - n)
        = ((readBurst n bursts).1 ++ (readBurst n bursts).2.flatten).take left := by
          rw [List.take_append, List.take_of_length_le hshort, hfull]
    _ = bursts.flatten.take left := by
          rw [hsplit]

/-- A read that gets all it asks for gets what the stream begins with. -/
theorem readBurst_eq_of_isPrefix {first rest : Bytes} (hbegins : bursts.flatten <+: first ++ rest)
    (hfull : (readBurst n bursts).1.length = first.length) :
    (readBurst n bursts).1 = first ∧ (readBurst n bursts).2.flatten <+: rest := by
  have hsplit : (readBurst n bursts).1 ++ (readBurst n bursts).2.flatten = bursts.flatten :=
    readBurst_append_flatten
  rcases hbegins with ⟨after, hafter⟩
  rw [← hsplit, List.append_assoc] at hafter
  rcases List.append_inj hafter hfull with ⟨hfirst, hrest⟩
  exact ⟨hfirst, after, hrest⟩

theorem fills_zero : Fills chunk 0 bursts := by
  cases bursts with
  | nil =>
      exact rfl
  | cons b rest =>
      exact Or.inl (Nat.zero_le _)

/-- What fills the reads has arrived. -/
theorem Fills.le_length (h : Fills chunk size bursts) : size ≤ bursts.flatten.length := by
  induction bursts generalizing size with
  | nil =>
      exact h.le
  | cons b rest ih =>
      rw [List.flatten_cons, List.length_append]
      rcases h with hb | ⟨_, hrest⟩
      · omega
      · have hle := ih hrest
        omega

/-- The reads are filled if the next one is and, from what it leaves, the others are. -/
theorem fills_iff_readBurst (hchunk : 0 < chunk) (hsize : 0 < size) :
    Fills chunk size bursts ↔
      (readBurst (min chunk size) bursts).1.length = min chunk size ∧
        Fills chunk (size - min chunk size) (readBurst (min chunk size) bursts).2 := by
  induction bursts with
  | nil =>
      simp only [Fills, readBurst, List.length_nil]
      omega
  | cons b rest ih =>
      by_cases hb : b = []
      · -- an empty burst gives a read nothing
        subst hb
        rw [readBurst, if_pos rfl, ← ih]
        simp only [Fills, List.length_nil, dvd_zero, true_and, Nat.sub_zero, or_iff_right_iff_imp]
        intro hzero
        exact absurd hsize (not_lt.2 hzero)
      · have hpos : 0 < b.length := List.length_pos_iff.2 hb
        rw [readBurst, if_neg hb]
        simp only [Fills, List.length_take, List.length_drop]
        constructor
        · rintro (hle | ⟨hdvd, hrest⟩)
          · exact ⟨by omega, Or.inl (by omega)⟩
          · have hle : chunk ≤ b.length := Nat.le_of_dvd hpos hdvd
            refine ⟨by omega, ?_⟩
            by_cases hshort : size ≤ b.length
            · exact Or.inl (by omega)
            · -- the burst ends before the size is reached, so a whole chunk was read
              have hmin : min chunk size = chunk := by omega
              have hleft : size - chunk - (b.length - chunk) = size - b.length := by omega
              rw [hmin, hleft]
              exact Or.inr ⟨Nat.dvd_sub hdvd (dvd_refl chunk), hrest⟩
        · rintro ⟨hfull, hle | ⟨hdvd, hrest⟩⟩
          · exact Or.inl (by omega)
          · by_cases hlast : size ≤ b.length
            · exact Or.inl hlast
            · have hmin : min chunk size = chunk := by omega
              have hleft : size - chunk - (b.length - chunk) = size - b.length := by omega
              rw [hmin] at hdvd hrest
              rw [hleft] at hrest
              rcases Nat.dvd_sub_self_right.1 hdvd with hwhole | hshort
              · exact Or.inr ⟨hwhole, hrest⟩
              · have heq : b.length = chunk := by omega
                exact Or.inr ⟨heq ▸ dvd_refl chunk, hrest⟩

end Bursts

/-! ## Calls -/

section Calls

variable {σ ε : Type} (next : σ → Request σ ε) (ended : σ → Bool)

/-- From `s` on, in front of the bursts, a call notes these events until it is over. -/
inductive Returns : σ → List Bytes → List ε → Prop
  | done {s : σ} {bursts : List Bytes} (hs : ended s = true) : Returns s bursts []
  | read {s : σ} {n : Nat} {k : Bytes → σ} {bursts : List Bytes} {es : List ε}
      (hs : ended s = false) (hnext : next s = .read n k) :
      Returns (k (readBurst n bursts).1) (readBurst n bursts).2 es → Returns s bursts es
  | write {s t : σ} {w : Bytes} {bursts : List Bytes} {es : List ε}
      (hs : ended s = false) (hnext : next s = .write w t) :
      Returns t bursts es → Returns s bursts es
  | emit {s t : σ} {e : ε} {bursts : List Bytes} {es : List ε}
      (hs : ended s = false) (hnext : next s = .emit e t) :
      Returns t bursts es → Returns s bursts (e :: es)

variable {next ended} {s : σ} {bursts : List Bytes} {es es' : List ε}

/-- A call notes the same events each time. -/
theorem Returns.unique (h : Returns next ended s bursts es) (h' : Returns next ended s bursts es') :
    es = es' := by
  induction h generalizing es' with
  | done hs =>
      cases h' with
      | done _ =>
          rfl
      | read hs' _ _ | write hs' _ _ | emit hs' _ _ =>
          rw [hs] at hs'
          cases hs'
  | read hs hnext _ ih =>
      cases h' with
      | done hs' =>
          rw [hs] at hs'
          cases hs'
      | read _ hnext' h' =>
          rw [hnext] at hnext'
          cases hnext'
          exact ih h'
      | write _ hnext' _ | emit _ hnext' _ =>
          rw [hnext] at hnext'
          cases hnext'
  | write hs hnext _ ih =>
      cases h' with
      | done hs' =>
          rw [hs] at hs'
          cases hs'
      | write _ hnext' h' =>
          rw [hnext] at hnext'
          cases hnext'
          exact ih h'
      | read _ hnext' _ | emit _ hnext' _ =>
          rw [hnext] at hnext'
          cases hnext'
  | emit hs hnext _ ih =>
      cases h' with
      | done hs' =>
          rw [hs] at hs'
          cases hs'
      | emit _ hnext' h' =>
          rw [hnext] at hnext'
          cases hnext'
          rw [ih h']
      | read _ hnext' _ | write _ hnext' _ =>
          rw [hnext] at hnext'
          cases hnext'

/-- What can be said of the events of a call is what can be said of these. -/
theorem Returns.exists_iff (h : Returns next ended s bursts es) {P : List ε → Prop} :
    (∃ es', Returns next ended s bursts es' ∧ P es') ↔ P es := by
  constructor
  · rintro ⟨es', h', hP⟩
    rw [h.unique h']
    exact hP
  · intro hP
    exact ⟨es, h, hP⟩

end Calls

end Library
end DropboxSimulator
