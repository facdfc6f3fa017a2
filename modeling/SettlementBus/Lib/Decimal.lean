import Mathlib.Algebra.Order.Field.Rat
import Mathlib.Data.List.DropRight
import Mathlib.Tactic.Common
import Mathlib.Tactic.FieldSimp
import Mathlib.Tactic.Linarith
import Mathlib.Tactic.Ring

/-! Strings of decimal digits, and the amounts that are written with them. -/

namespace SettlementBus.Lib.Decimal

def IsDigits (g : List Char) : Prop := ∀ c ∈ g, c.isDigit = true

def digit (c : Char) : ℕ := c.toNat - '0'.toNat

def value (g : List Char) : ℕ := Nat.ofDigitChars 10 g 0

/-- The zeros at the end are dropped. -/
def dropZeros (g : List Char) : List Char := g.rdropWhile (· = '0')

/-- The zeros at the front are dropped, if a digit is left. -/
def dropLeadingZeros (g : List Char) : List Char :=
  if (g.dropWhile (· = '0')).isEmpty then ['0'] else g.dropWhile (· = '0')

/-- The integer part and the fraction, with a point if the fraction is there. -/
def render (integer fraction : List Char) : List Char :=
  if fraction.isEmpty then integer else integer ++ '.' :: fraction

/-- The number that is written. -/
def rational (integer fraction : List Char) : ℚ :=
  value integer + value fraction / 10 ^ fraction.length

variable {g g' : List Char} {c : Char} {k n : ℕ}

theorem digit_lt (h : c.isDigit = true) : digit c < 10 := by
  simp only [Char.isDigit, Bool.and_eq_true, decide_eq_true_iff] at h
  have hhigh : c.toNat ≤ '9'.toNat := h.2
  rw [digit]
  have : '9'.toNat = 57 := rfl
  have : '0'.toNat = 48 := rfl
  omega

theorem digit_injective {c d : Char} (hc : c.isDigit = true) (hd : d.isDigit = true)
    (h : digit c = digit d) : c = d := by
  simp only [Char.isDigit, Bool.and_eq_true, decide_eq_true_iff] at hc hd
  have hc' : '0'.toNat ≤ c.toNat := hc.1
  have hd' : '0'.toNat ≤ d.toNat := hd.1
  rw [digit, digit] at h
  exact Char.toNat_inj.mp (by omega)

theorem digit_eq_zero (h : c.isDigit = true) : digit c = 0 ↔ c = '0' := by
  constructor
  · intro hzero
    exact digit_injective h rfl hzero
  · rintro rfl
    rfl

theorem value_append : value (g ++ g') = value g * 10 ^ g'.length + value g' := by
  rw [value, Nat.ofDigitChars_append, Nat.ofDigitChars_eq_ofDigitChars_zero, mul_comm]
  rfl

theorem value_cons : value (c :: g) = digit c * 10 ^ g.length + value g := by
  rw [value, Nat.ofDigitChars_cons, Nat.ofDigitChars_eq_ofDigitChars_zero, mul_comm]
  simp [digit, value]

@[simp] theorem value_nil : value [] = 0 := rfl

@[simp] theorem value_replicate_zero : value (List.replicate n '0') = 0 := by
  rw [value, Nat.ofDigitChars_replicate_zero, Nat.mul_zero]

theorem value_toDigits : value (Nat.toDigits 10 n) = n := Nat.ofDigitChars_ten_toDigits

theorem isDigits_toDigits : IsDigits (Nat.toDigits 10 n) := fun _ hc =>
  Nat.isDigit_of_mem_toDigits (by decide) (by decide) hc

theorem IsDigits.append (h : IsDigits g) (h' : IsDigits g') : IsDigits (g ++ g') := by
  intro c hc
  rcases List.mem_append.mp hc with hc | hc
  · exact h c hc
  · exact h' c hc

theorem isDigits_replicate_zero : IsDigits (List.replicate n '0') := by
  intro c hc
  rw [List.eq_of_mem_replicate hc]
  rfl

theorem isDigits_cons : IsDigits (c :: g) ↔ c.isDigit = true ∧ IsDigits g := by
  rw [IsDigits, List.forall_mem_cons]
  rfl

theorem value_lt (h : IsDigits g) : value g < 10 ^ g.length := by
  induction g with
  | nil => exact Nat.one_pos
  | cons c g ih =>
    obtain ⟨hc, hg⟩ := isDigits_cons.mp h
    have := ih hg
    have := digit_lt hc
    rw [value_cons, List.length_cons, pow_succ]
    nlinarith

/-- Strings of one length are told apart by their values. -/
theorem eq_of_value_eq (hg : IsDigits g) (hg' : IsDigits g') (hlength : g.length = g'.length)
    (h : value g = value g') : g = g' := by
  induction g generalizing g' with
  | nil => exact (List.length_eq_zero_iff.mp hlength.symm).symm
  | cons c g ih =>
    cases g' with
    | nil => exact absurd hlength (by simp)
    | cons d g' =>
      obtain ⟨hc, hg⟩ := isDigits_cons.mp hg
      obtain ⟨hd, hg'⟩ := isDigits_cons.mp hg'
      have hlength : g.length = g'.length := Nat.succ.inj hlength
      have hlt := value_lt hg
      have hlt' := value_lt hg'
      rw [value_cons, value_cons, hlength] at h
      rw [hlength] at hlt
      have hdigit : digit c = digit d := by
        have hdiv := congrArg (· / 10 ^ g'.length) h
        simp only [add_comm (_ * _)] at hdiv
        rwa [Nat.add_mul_div_right _ _ (by positivity), Nat.add_mul_div_right _ _ (by positivity),
          Nat.div_eq_of_lt hlt, Nat.div_eq_of_lt hlt', zero_add, zero_add] at hdiv
      rw [digit_injective hc hd hdigit, ih hg hg' hlength (by rw [hdigit] at h; omega)]

/-- At least `k` digits, and no zero in front of more. -/
structure Shortest (k : ℕ) (g : List Char) : Prop where
  digits : IsDigits g
  length_le : k ≤ g.length
  head : k < g.length → 10 ^ (g.length - 1) ≤ value g

theorem Shortest.length_le_length (h : Shortest k g) (h' : Shortest k g')
    (hvalue : value g = value g') : g'.length ≤ g.length := by
  by_contra hlt
  have hhead := h'.head (by have := h.length_le; omega)
  have hpow : 10 ^ g.length ≤ 10 ^ (g'.length - 1) := Nat.pow_le_pow_right (by omega) (by omega)
  have := value_lt h.digits
  omega

/-- A value has one shortest string. -/
theorem Shortest.eq (h : Shortest k g) (h' : Shortest k g') (hvalue : value g = value g') : g = g' :=
  eq_of_value_eq h.digits h'.digits (le_antisymm (h'.length_le_length h hvalue.symm)
    (h.length_le_length h' hvalue)) hvalue

theorem pow_le_value_cons (hc : c.isDigit = true) (hne : c ≠ '0') :
    10 ^ g.length ≤ value (c :: g) := by
  have hdigit : 0 < digit c := Nat.pos_of_ne_zero fun h => hne ((digit_eq_zero hc).mp h)
  rw [value_cons]
  exact (Nat.le_mul_of_pos_left _ hdigit).trans (Nat.le_add_right ..)

theorem pow_le_value_toDigits (h : 1 < (Nat.toDigits 10 n).length) :
    10 ^ ((Nat.toDigits 10 n).length - 1) ≤ n := by
  by_contra hlt
  have := (Nat.length_toDigits_le_iff (by omega : 1 < 10) (by omega)).mpr (not_le.mp hlt)
  omega

theorem value_leftpad : value (g.leftpad n '0') = value g := by
  rw [List.leftpad, value_append, value_replicate_zero, zero_mul, zero_add]

theorem value_rightpad : value (g.rightpad n '0') = value g * 10 ^ (n - g.length) := by
  rw [List.rightpad, value_append, value_replicate_zero, List.length_replicate, add_zero]

theorem IsDigits.rightpad (h : IsDigits g) : IsDigits (g.rightpad n '0') :=
  h.append isDigits_replicate_zero

theorem shortest_toDigits : Shortest 1 (Nat.toDigits 10 n) := by
  refine ⟨isDigits_toDigits, Nat.length_toDigits_pos, fun h => ?_⟩
  rw [value_toDigits]
  exact pow_le_value_toDigits h

/-- The digits of a number with zeros in front. -/
theorem shortest_leftpad (hk : 0 < k) : Shortest k ((Nat.toDigits 10 n).leftpad k '0') := by
  refine ⟨isDigits_replicate_zero.append isDigits_toDigits, ?_, fun h => ?_⟩
  · rw [List.length_leftpad]
    exact le_max_left ..
  · rw [List.length_leftpad] at h ⊢
    have hmax : max k (Nat.toDigits 10 n).length = (Nat.toDigits 10 n).length := by omega
    rw [hmax] at h ⊢
    rw [value_leftpad, value_toDigits]
    exact pow_le_value_toDigits (by omega)

theorem IsDigits.of_sublist (h : IsDigits g) (hsub : g'.Sublist g) : IsDigits g' :=
  fun c hc => h c (hsub.subset hc)

theorem value_dropLeadingZeros : value (dropLeadingZeros g) = value g := by
  induction g with
  | nil => rfl
  | cons c g ih =>
    by_cases hc : c = '0'
    · subst hc
      have hcons : dropLeadingZeros ('0' :: g) = dropLeadingZeros g := by
        simp [dropLeadingZeros]
      rw [hcons, ih, value_cons]
      simp [digit]
    · simp [dropLeadingZeros, hc]

theorem shortest_dropLeadingZeros (h : IsDigits g) : Shortest 1 (dropLeadingZeros g) := by
  induction g with
  | nil =>
    have hnil : dropLeadingZeros [] = ['0'] := rfl
    rw [hnil]
    exact ⟨isDigits_replicate_zero (n := 1), le_rfl, fun h => absurd h (by decide)⟩
  | cons c g ih =>
    obtain ⟨hc, hg⟩ := isDigits_cons.mp h
    by_cases hzero : c = '0'
    · subst hzero
      have hcons : dropLeadingZeros ('0' :: g) = dropLeadingZeros g := by
        simp [dropLeadingZeros]
      rw [hcons]
      exact ih hg
    · have hcons : dropLeadingZeros (c :: g) = c :: g := by simp [dropLeadingZeros, hzero]
      rw [hcons]
      exact ⟨h, by simp, fun _ => pow_le_value_cons hc hzero⟩

/-- More digits behind a shortest string. -/
theorem Shortest.append (h : Shortest k g) (h' : IsDigits g') (hk : 0 < k) :
    Shortest (k + g'.length) (g ++ g') := by
  refine ⟨h.digits.append h', ?_, fun hlt => ?_⟩
  · rw [List.length_append]
    exact Nat.add_le_add_right h.length_le _
  · rw [List.length_append] at hlt ⊢
    have hhead := h.head (by omega)
    have hlength : g.length + g'.length - 1 = g.length - 1 + g'.length := by
      have := h.length_le
      omega
    rw [hlength, pow_add, value_append]
    have := Nat.mul_le_mul_right (10 ^ g'.length) hhead
    omega

theorem dropZeros_rightpad : dropZeros (g.rightpad n '0') = dropZeros g := by
  rw [List.rightpad]
  induction n - g.length with
  | zero => simp
  | succ m ih =>
    rw [List.replicate_succ', ← List.append_assoc, dropZeros, List.rdropWhile_concat_pos _ _ _ rfl]
    exact ih

/-- The zeros that were dropped can be put back. -/
theorem rightpad_dropZeros (h : g.length = n) : (dropZeros g).rightpad n '0' = g := by
  have happend : dropZeros g ++ g.rtakeWhile (· = '0') = g := List.rdropWhile_append_rtakeWhile
  have hlength := congrArg List.length happend
  rw [List.length_append, h] at hlength
  have hzeros : g.rtakeWhile (· = '0') = List.replicate (n - (dropZeros g).length) '0' := by
    refine List.eq_replicate_iff.mpr ⟨by omega, fun c hc => ?_⟩
    have := List.mem_rtakeWhile_imp hc
    exact of_decide_eq_true this
  rw [List.rightpad, ← hzeros, happend]

theorem length_dropZeros_le : (dropZeros g).length ≤ g.length :=
  (List.rdropWhile_prefix _ g).length_le

theorem IsDigits.dropZeros (h : IsDigits g) : IsDigits (dropZeros g) :=
  h.of_sublist (List.rdropWhile_prefix _ g).sublist

theorem value_eq_zero (h : IsDigits g) : value g = 0 ↔ ∀ c ∈ g, c = '0' := by
  induction g with
  | nil => simp
  | cons c g ih =>
    obtain ⟨hc, hg⟩ := isDigits_cons.mp h
    have hpow : 10 ^ g.length ≠ 0 := by positivity
    rw [value_cons, Nat.add_eq_zero_iff, Nat.mul_eq_zero, or_iff_left hpow, digit_eq_zero hc, ih hg,
      List.forall_mem_cons]

/-- The number in units of the last of `n` decimals. -/
theorem rational_mul_pow (h : g'.length ≤ n) :
    rational g g' * 10 ^ n = value (g ++ g'.rightpad n '0') := by
  have hpow : (10 : ℚ) ^ n = 10 ^ g'.length * 10 ^ (n - g'.length) := by
    rw [← pow_add, Nat.add_sub_cancel' h]
  have hlength : (g'.rightpad n '0').length = n := by
    rw [List.length_rightpad, max_eq_left h]
  have hne : (10 : ℚ) ^ g'.length ≠ 0 := by positivity
  rw [rational, value_append, value_rightpad, hlength, add_mul]
  push_cast
  rw [hpow]
  field_simp

/-- The parts of a number in units of the last of `n` decimals. -/
theorem exists_shortest (hn : 0 < n) (v : ℕ) :
    ∃ i r, Shortest 1 i ∧ IsDigits r ∧ r.length = n ∧ value (i ++ r) = v := by
  have hlength : (Nat.toDigits 10 (v % 10 ^ n)).length ≤ n := by
    rw [Nat.length_toDigits_le_iff (by omega) hn]
    exact Nat.mod_lt _ (by positivity)
  have hpad : ((Nat.toDigits 10 (v % 10 ^ n)).leftpad n '0').length = n := by
    rw [List.length_leftpad, max_eq_left hlength]
  refine ⟨Nat.toDigits 10 (v / 10 ^ n), (Nat.toDigits 10 (v % 10 ^ n)).leftpad n '0',
    shortest_toDigits, isDigits_replicate_zero.append isDigits_toDigits, hpad, ?_⟩
  rw [value_append, hpad, value_leftpad, value_toDigits, value_toDigits, Nat.div_add_mod']

/-! ### The point -/

variable {i f : List Char}

theorem ne_point_of_isDigit (h : c.isDigit = true) : c ≠ '.' := by
  rintro rfl
  exact absurd h (by decide)

theorem IsDigits.point_notMem (h : IsDigits g) : '.' ∉ g := fun hmem =>
  ne_point_of_isDigit (h _ hmem) rfl

theorem render_nil : render i [] = i := rfl

theorem render_of_ne_nil (h : f ≠ []) : render i f = i ++ '.' :: f := by
  rw [render, if_neg (by simpa using h)]

theorem ite_length_eq_render : (if 0 < f.length then i ++ '.' :: f else i) = render i f := by
  rcases eq_or_ne f [] with rfl | hf
  · rfl
  · rw [render_of_ne_nil hf, if_pos (List.length_pos_of_ne_nil hf)]

theorem takeWhile_render {p : Char → Bool} (hi : ∀ c ∈ i, p c = true) (hpoint : p '.' = false) :
    (render i f).takeWhile p = i := by
  rcases eq_or_ne f [] with rfl | hf
  · rw [render_nil, List.takeWhile_eq_self_iff.mpr hi]
  · rw [render_of_ne_nil hf, List.takeWhile_append_of_pos hi,
      List.takeWhile_cons_of_neg (by simp [hpoint]), List.append_nil]

theorem dropWhile_render {p : Char → Bool} (hi : ∀ c ∈ i, p c = true) (hpoint : p '.' = false) :
    (render i f).dropWhile p = if f.isEmpty then [] else '.' :: f := by
  rcases eq_or_ne f [] with rfl | hf
  · rw [render_nil, List.dropWhile_eq_nil_iff.mpr hi]
    rfl
  · rw [render_of_ne_nil hf, List.dropWhile_append_of_pos hi,
      List.dropWhile_cons_of_neg (by simp [hpoint]), if_neg (by simpa using hf)]

/-- The parts that `split` finds. -/
theorem splitOn_render (hi : IsDigits i) (hf : IsDigits f) :
    (render i f).splitOn '.' = if f.isEmpty then [i] else [i, f] := by
  rcases eq_or_ne f [] with rfl | hne
  · rw [render_nil, List.splitOn_eq_singleton hi.point_notMem]
    rfl
  · rw [render_of_ne_nil hne, List.splitOn_append_cons_self,
      List.splitOn_eq_singleton hi.point_notMem, List.splitOn_eq_singleton hf.point_notMem,
      if_neg (by simpa using hne)]
    rfl

theorem mem_render : c ∈ render i f ↔ c ∈ i ∨ c = '.' ∧ f ≠ [] ∨ c ∈ f := by
  rcases eq_or_ne f [] with rfl | hf
  · simp [render_nil]
  · simp [render_of_ne_nil hf, hf]

end SettlementBus.Lib.Decimal
