import Mathlib.Data.Int.Basic
import Mathlib.Data.List.DropRight
import Mathlib.Tactic.Common

/-! Methods of strings. -/

namespace SettlementBus.Lib.Text

/-- White space and line ends. -/
def whitespace : List ℕ :=
  [0x09, 0x0A, 0x0B, 0x0C, 0x0D, 0x20, 0xA0, 0x1680, 0x2000, 0x2001, 0x2002, 0x2003, 0x2004,
    0x2005, 0x2006, 0x2007, 0x2008, 0x2009, 0x200A, 0x2028, 0x2029, 0x202F, 0x205F, 0x3000, 0xFEFF]

def isWhitespace (c : Char) : Bool := c.toNat ∈ whitespace

def trim (s : List Char) : List Char := (s.dropWhile isWhitespace).rdropWhile isWhitespace

def padStart (length : ℤ) (c : Char) (s : List Char) : List Char := s.leftpad length.toNat c

def padEnd (length : ℤ) (c : Char) (s : List Char) : List Char := s.rightpad length.toNat c

/-- A negative index counts from the end. -/
def relativeIndex (s : List Char) (i : ℤ) : ℕ :=
  if i < 0 then (s.length + i).toNat else min i.toNat s.length

def slice (s : List Char) (start stop : ℤ) : List Char :=
  (s.take (relativeIndex s stop)).drop (relativeIndex s start)

/-- `slice` with no second argument. -/
def sliceFrom (s : List Char) (start : ℤ) : List Char := s.drop (relativeIndex s start)

variable {s : List Char} {c : Char} {n : ℕ}

theorem trim_eq_self (h : ∀ c ∈ s, isWhitespace c = false) : trim s = s := by
  have hdrop : s.dropWhile isWhitespace = s := by
    rw [List.dropWhile_eq_self_iff]
    intro hs
    simp [h _ (List.getElem_mem hs)]
  rw [trim, hdrop, List.rdropWhile_eq_self_iff]
  intro hs
  simp [h _ (List.getLast_mem hs)]

theorem mem_dropWhile {p : Char → Bool} (h : c ∈ s) (hc : p c = false) : c ∈ s.dropWhile p := by
  rw [← List.takeWhile_append_dropWhile (p := p) (l := s), List.mem_append] at h
  rcases h with h | h
  · exact absurd (List.mem_takeWhile_imp h) (by simp [hc])
  · exact h

theorem trim_sublist : (trim s).Sublist s :=
  (List.rdropWhile_prefix _ _).sublist.trans (List.dropWhile_sublist _)

/-- Only whitespace is trimmed. -/
theorem mem_trim (h : c ∈ s) (hc : isWhitespace c = false) : c ∈ trim s := by
  rw [trim, List.rdropWhile, List.mem_reverse]
  exact mem_dropWhile (List.mem_reverse.mpr (mem_dropWhile h hc)) hc

/-- The last characters, when there are at least so many. -/
theorem relativeIndex_neg (h : n ≤ s.length) (hn : 0 < n) :
    relativeIndex s (-n) = s.length - n := by
  rw [relativeIndex, if_pos (by omega)]
  omega

theorem slice_zero : slice s 0 0 = [] := by
  simp [slice, relativeIndex]

theorem sliceFrom_zero : sliceFrom s 0 = s := by
  simp [sliceFrom, relativeIndex]

theorem slice_neg (h : n ≤ s.length) (hn : 0 < n) : slice s 0 (-n) = s.take (s.length - n) := by
  rw [slice, relativeIndex_neg h hn]
  simp [relativeIndex]

theorem sliceFrom_neg (h : n ≤ s.length) (hn : 0 < n) :
    sliceFrom s (-n) = s.drop (s.length - n) := by
  rw [sliceFrom, relativeIndex_neg h hn]

end SettlementBus.Lib.Text
