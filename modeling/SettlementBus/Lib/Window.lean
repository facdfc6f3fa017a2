import Mathlib.Algebra.Order.Group.Int
import Mathlib.Data.Int.Basic
import Mathlib.Tactic.Common
import Mathlib.Tactic.Linarith
import Mathlib.Tactic.Ring

/-! Times that are counted in windows of a fixed length, and in intervals of that length. -/

namespace SettlementBus.Lib.Window

/-- The number of the window, counted from `start`, that the time is in. -/
def index (start length t : ℤ) : ℤ := (t - start) / length

/-- The times in the half-open interval that begins at `a`. -/
def within (length a t : ℤ) : Bool := a ≤ t ∧ t < a + length

variable {start length a t u w : ℤ} {ts : List ℤ} {n : ℕ}

theorem index_mono (hlength : 0 < length) (h : t ≤ u) :
    index start length t ≤ index start length u :=
  Int.ediv_le_ediv hlength (Int.sub_le_sub_right h start)

/-- A window is an interval. -/
theorem index_eq_iff (hlength : 0 < length) :
    index start length t = w ↔ within length (start + w * length) t := by
  rw [index, within, decide_eq_true_iff, Int.ediv_eq_iff_of_pos hlength]
  constructor <;> intro h <;> constructor <;> linarith [h.1, h.2]

theorem index_nonneg_iff (hlength : 0 < length) : 0 ≤ index start length t ↔ start ≤ t := by
  rw [index, Int.ediv_nonneg_iff_of_pos hlength, Int.sub_nonneg]

/-- An interval meets at most two windows. -/
theorem index_of_within (hlength : 0 < length) (h : within length a t) :
    index start length t = index start length a ∨
      index start length t = index start length a + 1 := by
  obtain ⟨hle, hlt⟩ := of_decide_eq_true h
  have hlow : index start length a ≤ index start length t := index_mono hlength hle
  have hhigh : index start length t < index start length a + 2 := by
    rw [index, Int.ediv_lt_iff_lt_mul hlength]
    have hwindow : a - start < ((a - start) / length + 1) * length :=
      Int.lt_ediv_add_one_mul_self (a - start) hlength
    rw [index]
    linarith
  omega

theorem countP_or_le {α : Type} (p q : α → Bool) (l : List α) :
    l.countP (fun x => p x || q x) ≤ l.countP p + l.countP q := by
  induction l with
  | nil => exact Nat.zero_le _
  | cons x l ih =>
    simp only [List.countP_cons]
    cases p x <;> cases q x <;> simp <;> omega

/-- When each window has at most `n` times, an interval has at most twice as many. -/
theorem countP_within_le (start : ℤ) (hlength : 0 < length)
    (h : ∀ w, ts.countP (fun t => index start length t = w) ≤ n) (a : ℤ) :
    ts.countP (within length a) ≤ 2 * n := by
  have htwo : ts.countP (within length a) ≤ ts.countP fun t =>
      decide (index start length t = index start length a) ||
        decide (index start length t = index start length a + 1) := by
    refine List.countP_mono_left fun t _ ht => ?_
    simpa using index_of_within hlength ht
  have hor := countP_or_le (fun t => decide (index start length t = index start length a))
    (fun t => decide (index start length t = index start length a + 1)) ts
  have hfirst := h (index start length a)
  have hsecond := h (index start length a + 1)
  omega

end SettlementBus.Lib.Window
