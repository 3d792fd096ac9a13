import DropboxSimulator.Transfer

/-!
# Election — the choice of a new primary

The `catch` branch of `second_server_processing`: two secondaries tell each other their ids, and
the one that finds its own id greater makes itself the primary.  The result of the read is not
looked at, so a failed read leaves the `0` that `secondaryId` started with, and that `0` takes
part in the comparison.
-/

namespace DropboxSimulator
namespace Server

open Library

/-! ## One election -/

/-- What the election reads and writes of a secondary server. -/
structure Candidate where
  myId : Int32
  isPrimary : Bool
  primaryStillAlive : Bool
  deriving DecidableEq

namespace Candidate

/-- A secondary at the moment it finds the primary dead. -/
def entering (id : Int32) : Candidate :=
  { myId := id, isPrimary := false, primaryStillAlive := true }

/-- The id it sends to the other secondary. -/
def idMessage (s : Candidate) : Bytes :=
  int32Bytes s.myId

/-- `secondaryId` after the read; `arrived` is what the read stored. -/
def secondaryId (arrived : Bytes) : Int32 :=
  int32OfBytes (readDataFromSocket (int32Bytes 0) arrived)

/-- The decision. -/
def elect (s : Candidate) (arrived : Bytes) : Candidate :=
  if s.myId > secondaryId arrived then
    { s with isPrimary := true, primaryStillAlive := false }
  else
    s

end Candidate

/-- How a read of the other id ends. -/
inductive Delivery
  | delivered
  | failed
  deriving DecidableEq

/-- The bytes a read stores. -/
def Delivery.arrived (outcome : Delivery) (message : Bytes) : Bytes :=
  match outcome with
  | .delivered => message
  | .failed => []

/-- Two secondaries after their election, given how the read of each one ended. -/
def electBetween (a b : Int32) (readByA readByB : Delivery) : Candidate × Candidate :=
  let s := Candidate.entering a
  let t := Candidate.entering b
  (s.elect (readByA.arrived t.idMessage), t.elect (readByB.arrived s.idMessage))

/-! ## Who wins -/

section Winner

variable {a b : Int32}

theorem secondaryId_arrived (outcome : Delivery) :
    Candidate.secondaryId (outcome.arrived (Candidate.entering b).idMessage) =
      if outcome = .delivered then b else 0 := by
  cases outcome with
  | delivered =>
      -- four bytes fill the whole of `secondaryId`
      have hdrop : (int32Bytes 0).drop 4 = [] := List.drop_eq_nil_of_le (by simp)
      simp [Candidate.secondaryId, Delivery.arrived, Candidate.idMessage, Candidate.entering,
        readDataFromSocket, hdrop]
  | failed =>
      -- nothing is stored, and `secondaryId` keeps its initial 0
      simp [Candidate.secondaryId, Delivery.arrived, readDataFromSocket]

theorem elect_isPrimary_iff (outcome : Delivery) :
    ((Candidate.entering a).elect
      (outcome.arrived (Candidate.entering b).idMessage)).isPrimary = true ↔
      if outcome = .delivered then b < a else 0 < a := by
  rw [Candidate.elect, secondaryId_arrived]
  by_cases hout : outcome = .delivered
  · by_cases hlt : b < a <;> simp [hout, hlt, Candidate.entering]
  · by_cases hlt : 0 < a <;> simp [hout, hlt, Candidate.entering]

/-- The greater of two positive ids always wins. -/
theorem elect_of_greater (hb : 0 < b) (hlt : b < a) (outcome : Delivery) :
    ((Candidate.entering a).elect
      (outcome.arrived (Candidate.entering b).idMessage)).isPrimary = true := by
  rw [elect_isPrimary_iff]
  split
  · exact hlt
  · exact Int32.lt_trans hb hlt

/-- The smaller of two positive ids wins just when it does not learn of the other. -/
theorem elect_of_smaller_iff (ha : 0 < a) (hlt : a < b) (outcome : Delivery) :
    ((Candidate.entering a).elect
      (outcome.arrived (Candidate.entering b).idMessage)).isPrimary = true ↔
      outcome = .failed := by
  rw [elect_isPrimary_iff]
  cases outcome with
  | delivered =>
      -- it learns of the greater id and stays a secondary
      simpa using Int32.lt_asymm hlt
  | failed =>
      -- it compares with 0
      simpa using ha

/-- At most one of two secondaries makes itself the primary if and only if the one with the
smaller id receives the id of the other. -/
theorem electBetween_unique_iff (ha : 0 < a) (hb : 0 < b) (hab : a ≠ b)
    (readByA readByB : Delivery) :
    ¬((electBetween a b readByA readByB).1.isPrimary = true ∧
        (electBetween a b readByA readByB).2.isPrimary = true) ↔
      (if a < b then readByA else readByB) = .delivered := by
  have hfailed : ∀ outcome : Delivery, ¬outcome = .failed ↔ outcome = .delivered := by
    intro outcome
    cases outcome <;> simp
  simp only [electBetween]
  by_cases hlt : a < b
  · rw [if_pos hlt, elect_of_smaller_iff ha hlt, ← hfailed]
    simp [elect_of_greater ha hlt]
  · have hgt : b < a := by
      rcases Int32.lt_or_lt_of_ne hab with h | h
      · exact absurd h hlt
      · exact h
    rw [if_neg hlt, elect_of_smaller_iff hb hgt, ← hfailed]
    simp [elect_of_greater hb hgt]

theorem electBetween_unique_iff_one_two :
    ¬((electBetween 1 2 .delivered .failed).1.isPrimary = true ∧
        (electBetween 1 2 .delivered .failed).2.isPrimary = true) :=
  (electBetween_unique_iff (by decide) (by decide) (by decide) .delivered .failed).2 rfl

/-- With both reads failed, two secondaries both become the primary. -/
theorem electBetween_both :
    (0 : Int32) < 1 ∧ (0 : Int32) < 2 ∧ (1 : Int32) ≠ 2 ∧
      (electBetween 1 2 .failed .failed).1.isPrimary = true ∧
      (electBetween 1 2 .failed .failed).2.isPrimary = true := by
  decide

end Winner

end Server
end DropboxSimulator
