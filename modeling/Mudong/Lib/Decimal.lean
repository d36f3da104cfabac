import Mathlib.Data.List.Basic

namespace Decimal

/-- The value of a digit. -/
def value (c : Char) : Nat := c.toNat - '0'.toNat

theorem isDigit_bounds {c : Char} (hc : c.isDigit = true) : 48 ≤ c.toNat ∧ c.toNat ≤ 57 := Char.isDigit_iff_toNat.mp hc

theorem value_lt_ten {c : Char} (hc : c.isDigit = true) : value c < 10 := by
  have hbounds := isDigit_bounds hc
  change c.toNat - 48 < 10
  omega

theorem digitChar_value {c : Char} (hc : c.isDigit = true) : Nat.digitChar (value c) = c := by
  have hbounds := isDigit_bounds hc
  apply Char.toNat_inj.mp
  rw [Nat.toNat_digitChar_of_lt_ten (value_lt_ten hc)]
  change 48 + (c.toNat - 48) = c.toNat
  omega

theorem value_digitChar {n : Nat} (hn : n < 10) : value n.digitChar = n := Nat.toNat_digitChar_sub_48_of_lt_ten hn

theorem toDigits_value {c : Char} (hc : c.isDigit = true) : Nat.toDigits 10 (value c) = [c] := by
  rw [Nat.toDigits_of_lt_base (value_lt_ten hc), digitChar_value hc]

/-- A further digit behind a number that is not zero. -/
theorem toDigits_snoc {n : Nat} (hn : 0 < n) {c : Char} (hc : c.isDigit = true) :
    Nat.toDigits 10 (n * 10 + value c) = Nat.toDigits 10 n ++ [c] := by
  rw [Nat.mul_comm, ← Nat.toDigits_append_toDigits (by decide) hn (value_lt_ten hc), toDigits_value hc]

theorem isDigit_of_mem {n : Nat} {c : Char} (hc : c ∈ Nat.toDigits 10 n) : c.isDigit = true :=
  Nat.isDigit_of_mem_toDigits (by decide) (by decide) hc

/-- Reading the digits of a number up to a bound with a function that takes one character at a time: what the state is
after the first digit, and what a further digit does to it. -/
theorem foldlM_toDigits {σ : Type*} {step : σ → Char → Option σ} {s : σ} (state : Nat → σ) {bound : Nat}
    (hfirst : ∀ c : Char, c.isDigit = true → value c ≤ bound → step s c = some (state (value c)))
    (hnext : ∀ n, 0 < n → ∀ c : Char, c.isDigit = true → n * 10 + value c ≤ bound →
      step (state n) c = some (state (n * 10 + value c))) {n : Nat} (hn : n ≤ bound) :
    (Nat.toDigits 10 n).foldlM step s = some (state n) := by
  induction n using Nat.strongRecOn with
  | ind n ih =>
    obtain hsmall | hlarge := Nat.lt_or_ge n 10
    · have hdigit : n.digitChar.isDigit = true := by rw [Nat.isDigit_digitChar, decide_eq_true hsmall]
      have hstep := hfirst n.digitChar hdigit (by rwa [value_digitChar hsmall])
      rw [value_digitChar hsmall] at hstep
      simp [Nat.toDigits_of_lt_base hsmall, hstep]
    · have hlast : n % 10 < 10 := Nat.mod_lt n (by decide)
      have hdigit : (n % 10).digitChar.isDigit = true := by rw [Nat.isDigit_digitChar, decide_eq_true hlast]
      have hsplit : n / 10 * 10 + value (n % 10).digitChar = n := by
        rw [value_digitChar hlast]
        omega
      have hstep := hnext (n / 10) (by omega) (n % 10).digitChar hdigit (by omega)
      rw [hsplit] at hstep
      rw [Nat.toDigits_of_base_le (by decide) hlarge, List.foldlM_append, ih (n / 10) (by omega) (by omega)]
      simp [hstep]

/-- The text of an integer. -/
def ofInt (n : Int) : List Char :=
  if n < 0 then '-' :: Nat.toDigits 10 n.natAbs else Nat.toDigits 10 n.natAbs

def isspace (c : Char) : Bool := c == ' ' || decide (9 ≤ c.toNat ∧ c.toNat ≤ 13)

/-- The sign in front of a number, and what follows it. -/
def sign : List Char → Bool × List Char
  | '-' :: rest => (true, rest)
  | '+' :: rest => (false, rest)
  | s => (false, s)

/-- The integer at the beginning of a text, behind white space and a sign; nothing if there is no digit. -/
def toInt (s : List Char) : Option Int :=
  let (negative, rest) := sign (s.dropWhile isspace)
  let digits := rest.takeWhile Char.isDigit
  if digits = [] then none
  else some (if negative then -(Nat.ofDigitChars 10 digits 0 : Int) else Nat.ofDigitChars 10 digits 0)

end Decimal
