import Mathlib.Algebra.Ring.Int.Defs
import Mathlib.Order.MinMax

namespace Int64

/-- The order of the signed values. -/
instance linearOrder : LinearOrder Int64 where
  le_refl := Int64.le_refl
  le_trans _ _ _ := Int64.le_trans
  lt_iff_le_not_ge a b := by
    rw [Int64.not_le]
    exact ⟨fun h => ⟨Int64.le_of_lt h, h⟩, fun h => h.2⟩
  le_antisymm _ _ := Int64.le_antisymm
  le_total := Int64.le_total
  toDecidableLE := inferInstance
  toDecidableEq := inferInstance
  toDecidableLT := inferInstance

@[simp] theorem toInt_max (a b : Int64) : (max a b).toInt = max a.toInt b.toInt := by
  simp only [max_def, Int64.le_iff_toInt_le]
  split <;> rfl

/-- A sum is exact if it is in range, and has wrapped around otherwise. -/
theorem toInt_add_eq_iff {a b : Int64} :
    (a + b).toInt = a.toInt + b.toInt ↔ -2 ^ 63 ≤ a.toInt + b.toInt ∧ a.toInt + b.toInt < 2 ^ 63 := by
  constructor
  · intro h
    rw [← h]
    exact ⟨(a + b).le_toInt, (a + b).toInt_lt⟩
  · rintro ⟨hmin, hmax⟩
    rw [Int64.toInt_add]
    exact Int.bmod_eq_of_le hmin hmax

theorem toInt_add_of_nonneg {a b : Int64} (hb : 0 ≤ b.toInt) (h : a.toInt + b.toInt < 2 ^ 63) :
    (a + b).toInt = a.toInt + b.toInt := by
  have hmin := a.le_toInt
  exact toInt_add_eq_iff.mpr ⟨by omega, h⟩

/-- A double is exact if it is in range. -/
theorem toInt_two_mul {a : Int64} (hmin : 0 ≤ a.toInt) (hmax : 2 * a.toInt < 2 ^ 63) : (2 * a).toInt = 2 * a.toInt := by
  have htwo : (2 : Int64).toInt = 2 := by decide
  rw [Int64.toInt_mul, htwo]
  exact Int.bmod_eq_of_le (by omega) hmax

theorem toInt_add_one {a : Int64} (ha : a ≠ maxValue) : (a + 1).toInt = a.toInt + 1 := by
  have hlt : a.toInt < maxValue.toInt := lt_of_le_of_ne a.toInt_le fun h => ha (Int64.toInt_inj.mp h)
  rw [Int64.toInt_maxValue] at hlt
  have hone := Int64.toInt_one
  rw [toInt_add_of_nonneg (by omega) (by omega), hone]

/-- Below the largest value, the successor bounds what its predecessor bounds. -/
theorem lt_add_one_iff {a b : Int64} (hb : b ≠ maxValue) : a < b + 1 ↔ a ≤ b := by
  rw [Int64.lt_iff_toInt_lt, Int64.le_iff_toInt_le, toInt_add_one hb, Int.lt_add_one_iff]

/-- Nothing lies below the successor of the largest value, which is the smallest one. -/
theorem not_lt_maxValue_add_one (a : Int64) : ¬a < maxValue + 1 := Int64.not_lt_minValue

theorem le_of_lt_add_one {a b : Int64} (h : a < b + 1) : a ≤ b := by
  by_cases hb : b = maxValue
  · exact hb ▸ a.le_maxValue
  · exact (lt_add_one_iff hb).mp h

/-- A difference that is replaced by `c` where it is smaller comes out too large exactly if it falls below the range,
unless wrapped around it is still no more than `c`. -/
theorem toInt_sub_le_max_iff {a b : Int64} {c : Int} (hc : 0 ≤ c) :
    (a - b).toInt ≤ max (a.toInt - b.toInt) c ↔ -2 ^ 63 ≤ a.toInt - b.toInt ∨ a.toInt - b.toInt + 2 ^ 64 ≤ c := by
  have hamin := a.le_toInt
  have hamax := a.toInt_lt
  have hbmin := b.le_toInt
  have hbmax := b.toInt_lt
  rw [Int64.toInt_sub, Int.bmod_def]
  split <;> omega

end Int64
