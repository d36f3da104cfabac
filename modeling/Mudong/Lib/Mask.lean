import Mathlib.Data.BitVec

namespace Mask

variable {w : Nat}

/-- Some flag of `f` is set in the mask. -/
def has (m f : BitVec w) : Bool := m &&& f != 0

/-- Every flag set in `m` is set in `n`. -/
def Within (m n : BitVec w) : Prop := m &&& ~~~n = 0

instance decidableWithin (m n : BitVec w) : Decidable (Within m n) := inferInstanceAs (Decidable (_ = _))

@[simp] theorem has_zero (f : BitVec w) : has 0 f = false := by simp [has]

@[simp] theorem has_or (m n f : BitVec w) : has (m ||| n) f = (has m f || has n f) := by
  have hdistrib : (m ||| n) &&& f = m &&& f ||| n &&& f := by
    ext i hi
    simp [Bool.and_or_distrib_right]
  by_cases hm : m &&& f = 0
  · simp [has, hdistrib, hm]
  · have hne : m &&& f ||| n &&& f ≠ 0 := fun h => hm (BitVec.or_eq_zero_iff.mp h).1
    simp only [has, hdistrib, bne_iff_ne.mpr hm, bne_iff_ne.mpr hne, Bool.true_or]

theorem has_or_right (m f g : BitVec w) : has m (f ||| g) = (has m f || has m g) := by
  have hcomm (x y : BitVec w) : has x y = has y x := by simp [has, BitVec.and_comm]
  rw [hcomm, has_or, hcomm f, hcomm g]

/-- Clearing flags leaves the flags outside the cleared ones. -/
theorem has_clear_of_disjoint (m : BitVec w) {f g : BitVec w} (h : f &&& g = 0) :
    has (m &&& ~~~g) f = has m f := by
  have hkeep : m &&& ~~~g &&& f = m &&& f := by
    ext i hi
    have hbit := congrArg (fun v => v.getLsbD i) h
    simp only [BitVec.getLsbD_and] at hbit
    cases hf : f.getLsbD i <;> simp_all [BitVec.getLsbD_eq_getElem]
  simp only [has, hkeep]

@[simp] theorem has_clear_self (m f : BitVec w) : has (m &&& ~~~f) f = false := by
  have hgone : m &&& ~~~f &&& f = 0 := by
    ext i hi
    simp
  simp [has, hgone]

theorem Within.has {m n f : BitVec w} (h : Within m n) (hf : Mask.has m f = true) : Mask.has n f = true := by
  by_contra hnot
  have hnone : n &&& f = 0 := by simpa [Mask.has] using hnot
  have hzero : m &&& f = 0 := by
    ext i hi
    have hsub := congrArg (fun v => v.getLsbD i) h
    have hbit := congrArg (fun v => v.getLsbD i) hnone
    simp only [BitVec.getLsbD_and, BitVec.getLsbD_not] at hsub hbit
    cases hm : m.getLsbD i <;> cases hn : n.getLsbD i <;> simp_all [BitVec.getLsbD_eq_getElem]
  simp [Mask.has, hzero] at hf

/-- Clearing flags sets none. -/
theorem has_clear_of_not {m f g : BitVec w} (h : has m f = false) : has (m &&& ~~~g) f = false := by
  have hwithin : Within (m &&& ~~~g) m := by
    unfold Within
    ext i hi
    cases hm : m[i] <;> simp [hm]
  by_contra hbit
  simp [hwithin.has (by simpa using hbit)] at h

end Mask
