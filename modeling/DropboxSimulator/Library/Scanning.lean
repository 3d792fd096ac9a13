import Mathlib.Data.List.DropRight
import DropboxSimulator.Library.Bytes

/-!
# Scanning — taking strings apart as C programs do

* `Scanner` : the memory that `strtok` cuts in place, with the position it keeps between calls;
* `InStream` : a file that is read line by line with `getline`;
* `decimal` / `atoi` : a number in decimal digits and back.

Positions stand for pointers into the memory.  The lemmas on `strtok` describe one call by what
stands at the position it starts from: delimiters, a token, and what ends the token.
-/

namespace DropboxSimulator
namespace Library

/-- The string at a position of a memory. -/
def stringAt (memory : Bytes) (p : Nat) : Bytes :=
  cString (memory.drop p)

theorem stringAt_append (front rest : Bytes) : stringAt (front ++ rest) front.length =
    cString rest := by
  simp [stringAt]

/-- `strrchr`, for a character other than NUL: the position of its last occurrence in the string
at `p`. -/
def strrchr (memory : Bytes) (p : Nat) (c : UInt8) : Option Nat :=
  if c ∈ stringAt memory p then
    some (p + ((stringAt memory p).rdropWhile (· ≠ c)).length - 1)
  else
    none

/-! ## `strtok` -/

/-- What `strtok` works on: the memory, and the position where it goes on when it is called with
a null pointer. -/
structure Scanner where
  memory : Bytes
  saved : Nat
  deriving DecidableEq

namespace Scanner

/-- `strtok(str, delim)`: the position of the token, `none` where no token is left.  The delimiter
behind the token is overwritten with a NUL. -/
def strtok (t : Scanner) (str : Option Nat) (delim : Bytes) : Option Nat × Scanner :=
  let s := str.getD t.saved
  let start := s + ((stringAt t.memory s).takeWhile (· ∈ delim)).length
  let stop := start + ((stringAt t.memory start).takeWhile (· ∉ delim)).length
  if stringAt t.memory start = [] then
    (none, { t with saved := start })
  else if stringAt t.memory stop = [] then
    (some start, { t with saved := stop })
  else
    (some start, { memory := t.memory.set stop 0, saved := stop + 1 })

section Calls

variable {front lead token rest delim : Bytes} {d : UInt8} {saved : Nat} {str : Option Nat}

/-- The run of delimiters, or of other characters, that a string starts with. -/
theorem takeWhile_cString {p : UInt8 → Bool} (hlead : ∀ b ∈ lead, p b ∧ b ≠ 0)
    (hrest : (cString rest).takeWhile p = []) : (cString (lead ++ rest)).takeWhile p = lead := by
  induction lead with
  | nil =>
      simpa using hrest
  | cons b lead ih =>
      have hb := hlead b (by simp)
      have hcut : cString (b :: (lead ++ rest)) = b :: cString (lead ++ rest) := by
        simp [cString, hb.2]
      rw [List.cons_append, hcut, List.takeWhile_cons_of_pos hb.1,
        ih fun c hc => hlead c (by simp [hc])]

/-- Where the scan has come to once it has passed the delimiters. -/
theorem stringAt_append_append : stringAt (front ++ (lead ++ rest)) (front.length + lead.length) =
    cString rest := by
  rw [← List.append_assoc, ← List.length_append, stringAt_append]

/-- No token is left. -/
theorem strtok_none (hstr : str.getD saved = front.length)
    (hlead : ∀ b ∈ lead, b ∈ delim ∧ b ≠ 0) (hrest : cString rest = []) :
    strtok ⟨front ++ (lead ++ rest), saved⟩ str delim =
      (none, ⟨front ++ (lead ++ rest), front.length + lead.length⟩) := by
  have hskip : (cString (lead ++ rest)).takeWhile (· ∈ delim) = lead :=
    takeWhile_cString (by simpa using hlead) (by simp [hrest])
  simp only [strtok, hstr, stringAt_append, hskip, stringAt_append_append, hrest, if_pos]

/-- The delimiters that a call passes. -/
theorem takeWhile_lead (hlead : ∀ b ∈ lead, b ∈ delim ∧ b ≠ 0)
    (htoken : ∀ b ∈ token, b ∉ delim ∧ b ≠ 0) (hne : token ≠ []) :
    (cString (lead ++ (token ++ rest))).takeWhile (· ∈ delim) = lead := by
  refine takeWhile_cString (by simpa using hlead) ?_
  cases token with
  | nil =>
      exact absurd rfl hne
  | cons b token =>
      have hb := htoken b (by simp)
      simp [cString, hb.1, hb.2]

theorem cString_token_ne_nil (htoken : ∀ b ∈ token, b ∉ delim ∧ b ≠ 0) (hne : token ≠ []) :
    cString (token ++ rest) ≠ [] := by
  cases token with
  | nil =>
      exact absurd rfl hne
  | cons b token =>
      simp [cString, (htoken b (by simp)).2]

/-- The last token of a string: behind it the string ends. -/
theorem strtok_last (hstr : str.getD saved = front.length)
    (hlead : ∀ b ∈ lead, b ∈ delim ∧ b ≠ 0) (htoken : ∀ b ∈ token, b ∉ delim ∧ b ≠ 0)
    (hne : token ≠ []) (hrest : cString rest = []) :
    strtok ⟨front ++ (lead ++ (token ++ rest)), saved⟩ str delim =
      (some (front.length + lead.length), ⟨front ++ (lead ++ (token ++ rest)),
        front.length + lead.length + token.length⟩) := by
  have hword : (cString (token ++ rest)).takeWhile (· ∉ delim) = token :=
    takeWhile_cString (by simpa using htoken) (by simp [hrest])
  have hend : stringAt (front ++ (lead ++ (token ++ rest)))
      (front.length + lead.length + token.length) = [] := by
    rw [← List.append_assoc, ← List.length_append, stringAt_append_append, hrest]
  simp only [strtok, hstr, stringAt_append, takeWhile_lead hlead htoken hne,
    stringAt_append_append, hword, hend, if_neg (cString_token_ne_nil htoken hne), if_pos]

/-- A token with a delimiter behind it. -/
theorem strtok_token (hstr : str.getD saved = front.length)
    (hlead : ∀ b ∈ lead, b ∈ delim ∧ b ≠ 0) (htoken : ∀ b ∈ token, b ∉ delim ∧ b ≠ 0)
    (hne : token ≠ []) (hd : d ∈ delim ∧ d ≠ 0) :
    strtok ⟨front ++ (lead ++ (token ++ d :: rest)), saved⟩ str delim =
      (some (front.length + lead.length), ⟨front ++ (lead ++ (token ++ 0 :: rest)),
        front.length + lead.length + token.length + 1⟩) := by
  have hword : (cString (token ++ d :: rest)).takeWhile (· ∉ delim) = token :=
    takeWhile_cString (by simpa using htoken) (by simp [cString, hd.1, hd.2])
  have hend : stringAt (front ++ (lead ++ (token ++ d :: rest)))
      (front.length + lead.length + token.length) ≠ [] := by
    rw [← List.append_assoc, ← List.length_append, stringAt_append_append]
    simp [cString, hd.2]
  have hset : (front ++ (lead ++ (token ++ d :: rest))).set
      (front.length + lead.length + token.length) 0 = front ++ (lead ++ (token ++ 0 :: rest)) := by
    rw [Nat.add_assoc]
    simp
  simp only [strtok, hstr, stringAt_append, takeWhile_lead hlead htoken hne,
    stringAt_append_append, hword, hset, if_neg (cString_token_ne_nil htoken hne), if_neg hend]

end Calls

end Scanner

/-! ## Lines -/

abbrev newline : UInt8 := 10

/-- A file that is read, and whether its end was met. -/
structure InStream where
  unread : Bytes
  eof : Bool
  deriving DecidableEq

/-- `getline(file, line)`: the text up to the next newline, which is dropped.  Once the end of the
file was met, the line stays as it was. -/
def InStream.getline (file : InStream) (line : Bytes) : InStream × Bytes :=
  if file.eof then
    (file, line)
  else
    let text := file.unread.takeWhile (· ≠ newline)
    let rest := file.unread.drop text.length
    ({ unread := rest.drop 1, eof := rest = [] }, text)

section Lines

variable {text rest line : Bytes}

/-- A line with a newline behind it. -/
theorem getline_append (htext : ∀ b ∈ text, b ≠ newline) :
    InStream.getline ⟨text ++ newline :: rest, false⟩ line = (⟨rest, false⟩, text) := by
  have hall : (text ++ newline :: rest).takeWhile (· ≠ newline) = text := by
    rw [List.takeWhile_append_of_pos (by simpa using htext)]
    simp
  simp only [InStream.getline, hall, List.drop_left]
  simp

/-- The last line, with or without a newline behind it. -/
theorem getline_last (htext : ∀ b ∈ text, b ≠ newline) (hrest : rest = [] ∨ rest = [newline]) :
    ∃ file, InStream.getline ⟨text ++ rest, false⟩ line = (file, text) := by
  rcases hrest with rfl | rfl
  · have hall : (text ++ []).takeWhile (· ≠ newline) = text := by
      rw [List.append_nil, List.takeWhile_eq_self_iff]
      simpa using htext
    exact ⟨_, Prod.ext rfl hall⟩
  · exact ⟨_, getline_append htext⟩

end Lines

/-! ## Decimal numbers -/

/-- A number in decimal digits. -/
def decimal (n : Nat) : Bytes :=
  (Nat.toDigits 10 n).map fun c => UInt8.ofNat c.toNat

def isDigit (b : UInt8) : Bool :=
  48 ≤ b ∧ b ≤ 57

/-- `isspace`. -/
def isSpace (b : UInt8) : Bool :=
  b = 32 ∨ 9 ≤ b ∧ b ≤ 13

/-- The number that decimal digits spell. -/
def digitsValue (bs : Bytes) : Nat :=
  bs.foldl (fun value b => 10 * value + (b.toNat - 48)) 0

/-- `strtol` to base ten: white space, a sign and digits; a value that does not fit a `long`
becomes the nearest that does. -/
def strtol (s : Bytes) : Int :=
  match s.dropWhile isSpace with
  | 45 :: s => max (-(digitsValue (s.takeWhile isDigit) : Int)) (-2 ^ 63)
  | 43 :: s => min (digitsValue (s.takeWhile isDigit)) (2 ^ 63 - 1)
  | s => min (digitsValue (s.takeWhile isDigit)) (2 ^ 63 - 1)

/-- `atoi`: the `long` cut down to an `int`. -/
def atoi (s : Bytes) : Int :=
  Int.bmod (strtol s) (2 ^ 32)

section Decimal

variable {n : Nat}

/-- A digit as a byte. -/
theorem digit_cases {c : Char} (hc : c.isDigit) :
    48 ≤ c.toNat ∧ c.toNat ≤ 57 := by
  simpa [Char.isDigit, UInt32.le_iff_toNat_le] using hc

theorem isDigit_of_mem_decimal : ∀ b ∈ decimal n, isDigit b := by
  intro b hb
  rcases List.mem_map.1 hb with ⟨c, hc, rfl⟩
  have hdigit := digit_cases (Nat.isDigit_of_mem_toDigits (by norm_num) le_rfl hc)
  have hsmall : c.toNat < 256 := by omega
  simpa [isDigit, UInt8.le_iff_toNat_le, Nat.mod_eq_of_lt hsmall] using hdigit

theorem decimal_ne_nil : decimal n ≠ [] := by
  simp [decimal]

theorem digitsValue_decimal : digitsValue (decimal n) = n := by
  calc
    digitsValue (decimal n) = Nat.ofDigitChars 10 (Nat.toDigits 10 n) 0 := by
      unfold digitsValue decimal
      rw [List.foldl_map, Nat.ofDigitChars_eq_foldl]
      refine List.foldl_ext _ _ _ ?_
      intro value c hc
      have hdigit := digit_cases (Nat.isDigit_of_mem_toDigits (by norm_num) le_rfl hc)
      have hsmall : c.toNat < 256 := by omega
      simp [Nat.mod_eq_of_lt hsmall]
    _ = n := Nat.ofDigitChars_ten_toDigits

theorem isSpace_of_isDigit {b : UInt8} (h : isDigit b) : isSpace b = false := by
  simp only [isDigit, isSpace, UInt8.le_iff_toNat_le, ← UInt8.toNat_inj, decide_eq_true_eq,
    decide_eq_false_iff_not] at h ⊢
  have h48 : (48 : UInt8).toNat = 48 := rfl
  have h13 : (13 : UInt8).toNat = 13 := rfl
  have h32 : (32 : UInt8).toNat = 32 := rfl
  omega

/-- No white space and no sign stands before the digits. -/
theorem strtol_decimal (h : n < 2 ^ 63) : strtol (decimal n) = n := by
  have hdigits : ∀ b ∈ decimal n, isDigit b := isDigit_of_mem_decimal
  have hall : (decimal n).takeWhile isDigit = decimal n := List.takeWhile_eq_self_iff.2 hdigits
  have hspaces : (decimal n).dropWhile isSpace = decimal n := by
    cases hbytes : decimal n with
    | nil =>
        rfl
    | cons b bs =>
        rw [hbytes] at hdigits
        have hb := isSpace_of_isDigit (hdigits b List.mem_cons_self)
        exact List.dropWhile_cons_of_neg (by simp [hb])
  have hvalue : digitsValue ((decimal n).takeWhile isDigit) = n := by
    rw [hall, digitsValue_decimal]
  rw [strtol, hspaces]
  split
  · next s hs =>
      exact absurd (hdigits 45 (by simp [hs])) (by decide)
  · next s hs =>
      exact absurd (hdigits 43 (by simp [hs])) (by decide)
  · rw [hvalue]
    omega

/-- `atoi` reads the digits of every number that an `int` can hold. -/
theorem atoi_decimal (h : n < 2 ^ 31) : atoi (decimal n) = n := by
  rw [atoi, strtol_decimal (h.trans (by norm_num)), Int.bmod_def]
  omega

end Decimal

end Library
end DropboxSimulator
