import Mathlib.Data.Nat.Notation

/-!
# LibCheck.Numerals

Numbers in ASCII, in any base up to 36, read the way of `strtoimax` and
`strtoumax` (without a bound on the value).

* `readDigits_of_digits` — the digits up to the first other character.
* `readNumber_field` — a number in a field: spaces, a sign, the prefix of base 16
  and zeros before the digits, and spaces behind them.
-/

namespace LibCheck.Numerals

/-! ## reading -/

/-- The value of a digit; `36` for other characters. -/
def digitValue (b : UInt8) : Nat :=
  if 48 ≤ b.toNat ∧ b.toNat ≤ 57 then b.toNat - 48
  else if 97 ≤ b.toNat ∧ b.toNat ≤ 122 then b.toNat - 87
  else if 65 ≤ b.toNat ∧ b.toNat ≤ 90 then b.toNat - 55
  else 36

/-- `isspace`. -/
def isSpace (b : UInt8) : Bool := b = 32 ∨ (9 ≤ b.toNat ∧ b.toNat ≤ 13)

/-- The digits that a text begins with, behind the number `n`. -/
def readDigits (base : Nat) : (n : Nat) → List UInt8 → Nat
  | n, [] => n
  | n, b :: bs =>
      if digitValue b < base then readDigits base (base * n + digitValue b) bs else n

/-- A text behind the prefix `0x` or `0X`, which must be followed by a digit. -/
def skipPrefix (base : Nat) : List UInt8 → List UInt8
  | z :: x :: d :: bs =>
      if base = 16 ∧ z = 48 ∧ (x = 120 ∨ x = 88) ∧ digitValue d < 16 then d :: bs
      else z :: x :: d :: bs
  | bs => bs

/-- A number behind spaces and a sign. -/
def readNumber (base : Nat) (bs : List UInt8) : Int :=
  match bs.dropWhile isSpace with
  | [] => 0
  | b :: bs =>
      if b = 45 then -(readDigits base 0 (skipPrefix base bs) : Int)
      else if b = 43 then readDigits base 0 (skipPrefix base bs)
      else readDigits base 0 (skipPrefix base (b :: bs))

/-! ## what is read -/

/-- The number that digits write behind the number `n`. -/
def number (base n : Nat) (digits : List UInt8) : Nat :=
  digits.foldl (fun n b => base * n + digitValue b) n

variable {base : Nat} {digits : List UInt8}

theorem number_append (n : Nat) (digits digits' : List UInt8) :
    number base n (digits ++ digits') = number base (number base n digits) digits' :=
  List.foldl_append

@[simp] theorem number_zeros (k : Nat) : number base 0 (List.replicate k 48) = 0 := by
  induction k with
  | zero => rfl
  | succ k ih => simpa [List.replicate_succ, number, digitValue] using ih

/-- The spaces behind a number are not read. -/
theorem readDigits_of_digits (hbase : base ≤ 36) (h : ∀ b ∈ digits, digitValue b < base)
    (n k : Nat) :
    readDigits base n (digits ++ List.replicate k 32) = number base n digits := by
  induction digits generalizing n with
  | nil =>
      obtain _ | k := k
      · rfl
      · simp [List.replicate_succ, readDigits, number, digitValue, Nat.not_lt.mpr hbase]
  | cons b digits ih =>
      simp only [List.cons_append, readDigits, h b List.mem_cons_self, if_true]
      exact ih (fun b hb => h b (List.mem_cons_of_mem _ hb)) _

/-- Digits have no prefix. -/
theorem skipPrefix_of_digits (h : ∀ b ∈ digits, digitValue b < base) (k : Nat) :
    skipPrefix base (digits ++ List.replicate k 32) = digits ++ List.replicate k 32 := by
  rcases digits with _ | ⟨z, _ | ⟨x, digits⟩⟩
  · rcases k with _ | _ | _ | k <;> simp [List.replicate_succ, skipPrefix]
  · rcases k with _ | _ | k <;> simp [List.replicate_succ, skipPrefix]
  · have hx := h x (List.mem_cons_of_mem _ List.mem_cons_self)
    rcases hrest : digits ++ List.replicate k 32 with _ | ⟨d, rest⟩
    · simp [skipPrefix, hrest]
    · simp only [List.cons_append, hrest, skipPrefix]
      refine if_neg ?_
      rintro ⟨rfl, -, rfl | rfl, -⟩ <;> simp [digitValue] at hx

/-- The prefix before the digits of base 16. -/
theorem skipPrefix_cons {x : UInt8} (hx : x = 120 ∨ x = 88) (h : ∀ b ∈ digits, digitValue b < 16)
    (hne : digits ≠ []) (rest : List UInt8) :
    skipPrefix 16 (48 :: x :: (digits ++ rest)) = digits ++ rest := by
  obtain ⟨d, digits, rfl⟩ := List.exists_cons_of_ne_nil hne
  simp [skipPrefix, hx, h d List.mem_cons_self]

theorem not_isSpace_of_digit {b : UInt8} (h : digitValue b < 36) : isSpace b = false := by
  refine Bool.eq_false_iff.mpr fun hspace => ?_
  simp only [isSpace, decide_eq_true_eq] at hspace
  rcases hspace with rfl | hspace
  · exact absurd h (by decide)
  · simp [digitValue, show ¬ 48 ≤ b.toNat by omega, show ¬ 97 ≤ b.toNat by omega,
      show ¬ 65 ≤ b.toNat by omega] at h

theorem dropWhile_spaces {b : UInt8} (h : isSpace b = false) (k : Nat) (bs : List UInt8) :
    (List.replicate k 32 ++ b :: bs).dropWhile isSpace = b :: bs := by
  induction k with
  | zero => simp [h]
  | succ k ih => simpa [List.replicate_succ, isSpace] using ih

theorem ne_sign_of_digit {b : UInt8} (h : digitValue b < 36) : b ≠ 45 ∧ b ≠ 43 := by
  constructor <;> rintro rfl <;> exact absurd h (by decide)

/-- The signs before a number: none, `-`, `+` or a space. -/
def signOf (sign : UInt8) : Int := if sign = 45 then -1 else 1

/-- **A number in a field** is read back: spaces, sign, prefix and digits, with
spaces behind them. -/
theorem readNumber_field {sign hexPrefix : UInt8} (hbase : base ≤ 36)
    (hsign : sign = 0 ∨ sign = 45 ∨ sign = 43 ∨ sign = 32)
    (hpre : hexPrefix = 0 ∨ base = 16 ∧ (hexPrefix = 120 ∨ hexPrefix = 88))
    (hdigits : ∀ b ∈ digits, digitValue b < base) (hne : digits ≠ []) (j k : Nat) :
    readNumber base (List.replicate j 32 ++ ((if sign ≠ 0 then [sign] else []) ++
      ((if hexPrefix ≠ 0 then [48, hexPrefix] else []) ++
        (digits ++ List.replicate k 32)))) =
      signOf sign * number base 0 digits := by
  -- behind the spaces and the sign
  have hread : ∀ bs, bs = (if hexPrefix ≠ 0 then [48, hexPrefix] else []) ++
      (digits ++ List.replicate k 32) →
      readDigits base 0 (skipPrefix base bs) = number base 0 digits := by
    rintro _ rfl
    rcases hpre with rfl | ⟨rfl, hx⟩
    · rw [if_neg (by simp), List.nil_append, skipPrefix_of_digits hdigits,
        readDigits_of_digits hbase hdigits]
    · rw [if_pos (by rcases hx with rfl | rfl <;> decide), List.cons_append, List.cons_append,
        List.nil_append, skipPrefix_cons hx hdigits hne, readDigits_of_digits hbase hdigits]
  obtain ⟨b, bs, hbs, hb⟩ : ∃ b bs, (if hexPrefix ≠ 0 then [48, hexPrefix] else []) ++
      (digits ++ List.replicate k 32) = b :: bs ∧ digitValue b < 36 := by
    rcases hpre with rfl | ⟨rfl, hx⟩
    · obtain ⟨d, digits, rfl⟩ := List.exists_cons_of_ne_nil hne
      exact ⟨d, _, rfl, Nat.lt_of_lt_of_le (hdigits d List.mem_cons_self) hbase⟩
    · refine ⟨48, hexPrefix :: (digits ++ List.replicate k 32), ?_, by decide⟩
      rcases hx with rfl | rfl <;> rfl
  replace hread := hread _ hbs.symm
  have hspace := not_isSpace_of_digit hb
  have hnosign := ne_sign_of_digit hb
  rw [hbs]
  rcases hsign with rfl | rfl | rfl | rfl
  · simp [readNumber, dropWhile_spaces hspace, hnosign, hread, signOf]
  · simp [readNumber, dropWhile_spaces (b := 45) (by decide), hread, signOf]
  · simp [readNumber, dropWhile_spaces (b := 43) (by decide), hread, signOf]
  · -- the space is one more of the spaces before the number
    have hsplit : List.replicate j (32 : UInt8) ++ ([32] ++ b :: bs) =
        List.replicate (j + 1) 32 ++ b :: bs := by simp [List.replicate_succ']
    rw [if_pos (by decide), hsplit]
    simp [readNumber, dropWhile_spaces hspace, hnosign, hread, signOf]

end LibCheck.Numerals
