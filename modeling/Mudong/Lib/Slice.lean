import Mathlib.Data.List.Basic

namespace Slice

variable {α : Type*}

/-- The elements at the positions from `lo` up to `hi`, the latter excluded. -/
def window (l : List α) (lo hi : Nat) : List α := (l.take hi).drop lo

/-- `src` copied over the storage `l` from position `pos` on. -/
def overwrite (l : List α) (pos : Nat) (src : List α) : List α :=
  l.take pos ++ src ++ l.drop (pos + src.length)

/-- The storage cut or filled up with `x` to exactly `n` elements. -/
def resize (l : List α) (n : Nat) (x : α) : List α := l.take n ++ List.replicate (n - l.length) x

theorem length_window {l : List α} {lo hi : Nat} (h : hi ≤ l.length) : (window l lo hi).length = hi - lo := by
  simp only [window, List.length_drop, List.length_take]
  omega

theorem length_overwrite {l src : List α} {pos : Nat} (h : pos + src.length ≤ l.length) :
    (overwrite l pos src).length = l.length := by
  simp only [overwrite, List.length_append, List.length_take, List.length_drop]
  omega

theorem length_resize (l : List α) (n : Nat) (x : α) : (resize l n x).length = n := by
  simp only [resize, List.length_append, List.length_take, List.length_replicate]
  omega

@[simp] theorem window_self (l : List α) (lo : Nat) : window l lo lo = [] := by
  apply List.drop_eq_nil_of_le
  simp only [List.length_take]
  omega

theorem window_add (l : List α) (lo n hi : Nat) : window l (lo + n) hi = (window l lo hi).drop n := by
  simp only [window, List.drop_drop]

/-- Growing the storage leaves a window inside the old storage as it was. -/
theorem window_resize {l : List α} {lo hi n : Nat} (x : α) (hhi : hi ≤ l.length) (hn : l.length ≤ n) :
    window (resize l n x) lo hi = window l lo hi := by
  simp only [window, resize]
  rw [List.take_of_length_le hn, List.take_append_of_le_length hhi]

theorem take_overwrite_add {l src : List α} {pos : Nat} (h : pos ≤ l.length) :
    (overwrite l pos src).take (pos + src.length) = l.take pos ++ src := by
  have hlen : (l.take pos ++ src).length = pos + src.length := by simp [h]
  rw [overwrite, List.take_append_of_le_length (by omega), ← hlen, List.take_length]

/-- A copy that starts where a window ends extends the window by what was copied. -/
theorem window_overwrite_back {l src : List α} {lo pos : Nat} (hlo : lo ≤ pos) (hpos : pos ≤ l.length) :
    window (overwrite l pos src) lo (pos + src.length) = window l lo pos ++ src := by
  rw [window, take_overwrite_add hpos, List.drop_append_of_le_length (by simp; omega), window]

/-- A copy that ends where a window starts extends the window to the front. -/
theorem window_overwrite_front {l src : List α} {pos hi : Nat} (hhi : pos + src.length ≤ hi)
    (hlen : hi ≤ l.length) :
    window (overwrite l pos src) pos hi = src ++ window l (pos + src.length) hi := by
  have hpos : pos ≤ l.length := by omega
  have htake : (l.take pos).length = pos := by simp [hpos]
  have hsplit : (overwrite l pos src).take hi = l.take pos ++ (src ++ window l (pos + src.length) hi) := by
    have hcut : (l.take pos ++ src).length = pos + src.length := by simp [hpos]
    rw [overwrite, List.take_append, hcut, List.take_of_length_le (by omega), List.append_assoc, window,
      List.drop_take]
  rw [window, hsplit]
  exact List.drop_left' htake

/-- Just after the copy the copied range holds what was copied. -/
theorem window_overwrite_self {l src : List α} {pos : Nat} (h : pos ≤ l.length) :
    window (overwrite l pos src) pos (pos + src.length) = src := by
  rw [window_overwrite_back (Nat.le_refl pos) h, window_self, List.nil_append]

end Slice
