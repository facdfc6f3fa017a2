import SettlementBus.Utils.AmountSerialization

/-! The decimal strings of amounts are exact. -/

namespace SettlementBus

open Lib Decimal

def decimalInteger (s : Str) : Str := (Text.trim s).takeWhile (· ≠ '.')

def decimalFraction (s : Str) : Str := ((Text.trim s).dropWhile (· ≠ '.')).drop 1

/-- The string without what does not matter to the amount. -/
def canonicalDecimal (s : Str) : Str :=
  render (dropLeadingZeros (decimalInteger s)) (dropZeros (decimalFraction s))

/-- The number that is written. -/
def decimalAmount (s : Str) : ℚ := rational (decimalInteger s) (decimalFraction s)

/-- A string in the decimal format, read as its parts. -/
structure DecimalParts (s i f : Str) : Prop where
  trim : Text.trim s = render i f
  integer_ne_nil : i ≠ []
  integer : IsDigits i
  fraction : IsDigits f

variable {s i f : Str} {v w d : ℕ} {c : Char}

theorem isWhitespace_digit (h : c.isDigit = true) : Text.isWhitespace c = false := by
  simp only [Char.isDigit, Bool.and_eq_true, decide_eq_true_iff] at h
  have hlow : 48 ≤ c.toNat := h.1
  have hhigh : c.toNat ≤ 57 := h.2
  have houtside : ∀ n ∈ Text.whitespace, n < 48 ∨ 57 < n := by decide
  rw [Text.isWhitespace, decide_eq_false_iff_not]
  intro hmem
  have := houtside _ hmem
  omega

theorem isDecimalFormat_render (hne : i ≠ []) (hi : IsDigits i) (hf : IsDigits f) :
    isDecimalFormat (render i f) = true := by
  rw [isDecimalFormat, takeWhile_render hi (by decide), dropWhile_render hi (by decide)]
  rcases eq_or_ne f [] with rfl | hfne
  · simp [hne]
  · simp [hne, hfne]
    exact hf

theorem exists_render (h : isDecimalFormat s = true) :
    ∃ i f, s = render i f ∧ i ≠ [] ∧ IsDigits i ∧ IsDigits f := by
  rw [isDecimalFormat, Bool.and_eq_true] at h
  obtain ⟨hi, hrest⟩ := h
  have hsplit := (List.takeWhile_append_dropWhile (p := Char.isDigit) (l := s)).symm
  have hdigits : IsDigits (s.takeWhile Char.isDigit) := fun c hc => List.mem_takeWhile_imp hc
  refine ⟨s.takeWhile Char.isDigit, ?_⟩
  cases hdrop : s.dropWhile Char.isDigit with
  | nil =>
    rw [hdrop, List.append_nil] at hsplit
    exact ⟨[], by rw [render_nil, ← hsplit], by simpa using hi, hdigits, by simp [IsDigits]⟩
  | cons c f =>
    rw [hdrop] at hsplit hrest
    simp only [Bool.and_eq_true, decide_eq_true_iff, List.all_eq_true] at hrest
    obtain ⟨⟨rfl, hf⟩, hfdigits⟩ := hrest
    have hfne : f ≠ [] := by simpa using hf
    exact ⟨f, by rw [render_of_ne_nil hfne, ← hsplit], by simpa using hi, hdigits, hfdigits⟩

theorem trim_render (hi : IsDigits i) (hf : IsDigits f) : Text.trim (render i f) = render i f := by
  refine Text.trim_eq_self fun c hc => ?_
  rcases mem_render.mp hc with hc | ⟨rfl, -⟩ | hc
  · exact isWhitespace_digit (hi c hc)
  · decide
  · exact isWhitespace_digit (hf c hc)

theorem head_render (hne : i ≠ []) (hi : IsDigits i) : (render i f).head? ≠ some '-' := by
  intro h
  cases i with
  | nil => exact hne rfl
  | cons c i =>
    have hc : c = '-' := by
      rcases eq_or_ne f [] with rfl | hf
      · simpa [render_nil] using h
      · simpa [render_of_ne_nil hf] using h
    rw [hc] at hi
    exact absurd (hi '-' List.mem_cons_self) (by decide)

/-- What is parsed of a string in the format. -/
theorem decimalStringToBigInt_eq (h : DecimalParts s i f) : decimalStringToBigInt s d =
    if d < f.length then .error (.tooManyDecimalPlaces d)
    else if maxAmount < value (i ++ f.rightpad d '0') then .error .exceedsMaximum
    else .ok (value (i ++ f.rightpad d '0')) := by
  have hparts : ((render i f).splitOn '.')[0]?.getD [] = i ∧
      ((render i f).splitOn '.')[1]?.getD [] = f := by
    rw [splitOn_render h.integer h.fraction]
    rcases eq_or_ne f [] with rfl | hf
    · exact ⟨rfl, rfl⟩
    · rw [if_neg (by simpa using hf)]
      exact ⟨rfl, rfl⟩
  have hformat := isDecimalFormat_render h.integer_ne_nil h.integer h.fraction
  rw [decimalStringToBigInt, h.trim]
  dsimp only
  rw [if_neg (head_render h.integer_ne_nil h.integer), hformat, hparts.1, hparts.2,
    if_neg (by decide), Text.padEnd, Int.toNat_natCast]
  simp only [Nat.cast_lt]

theorem decimalStringToBigInt_eq_ok (h : DecimalParts s i f) :
    decimalStringToBigInt s d = .ok v ↔
      f.length ≤ d ∧ v ≤ maxAmount ∧ value (i ++ f.rightpad d '0') = v := by
  rw [decimalStringToBigInt_eq h]
  split
  case isTrue hlong => simp [not_le.mpr hlong]
  case isFalse hshort =>
    split
    case isTrue hbig =>
      simp only [reduceCtorEq, false_iff]
      rintro ⟨-, hle, rfl⟩
      omega
    case isFalse hfits =>
      simp only [Except.ok.injEq]
      constructor
      · rintro rfl
        exact ⟨not_lt.mp hshort, not_lt.mp hfits, rfl⟩
      · exact fun h => h.2.2

theorem exists_parts (h : decimalStringToBigInt s d = .ok v) : ∃ i f, DecimalParts s i f := by
  rw [decimalStringToBigInt] at h
  dsimp only at h
  split at h
  case isTrue => exact absurd h (by simp)
  case isFalse =>
    split at h
    case isTrue => exact absurd h (by simp)
    case isFalse hformat =>
      obtain ⟨i, f, hs, hne, hi, hf⟩ := exists_render (by simpa using hformat)
      exact ⟨i, f, hs, hne, hi, hf⟩

/-- What is printed, when there are decimals. -/
theorem bigIntToDecimalString_eq {r : Str} (hd : 0 < d) (hv : v ≤ maxAmount) (hi : Shortest 1 i)
    (hr : IsDigits r) (hlength : r.length = d) (hvalue : value (i ++ r) = v) :
    bigIntToDecimalString v d = .ok (render i (dropZeros r)) := by
  have hstr : Text.padStart (d + 1) '0' (Nat.toDigits 10 v) = i ++ r := by
    have happend := hi.append hr Nat.one_pos
    rw [hlength, add_comm 1 d] at happend
    refine (shortest_leftpad (Nat.succ_pos d)).eq happend ?_
    rw [value_leftpad, value_toDigits, hvalue]
  have hpos : 0 < i.length := hi.length_le
  have hempty : ¬i.isEmpty = true := by simpa using List.ne_nil_of_length_pos hpos
  have htotal : (i ++ r).length = i.length + d := by rw [List.length_append, hlength]
  have hlow : (i ++ r).length - d = i.length := by omega
  rw [bigIntToDecimalString, if_neg (by omega), if_neg (by omega),
    if_neg (by exact_mod_cast not_lt.mpr hv)]
  dsimp only
  rw [Int.toNat_natCast, hstr, if_neg (by omega), Text.slice_neg (by omega) hd,
    Text.sliceFrom_neg (by omega) hd, hlow, List.take_left, List.drop_left, if_neg hempty,
    ite_length_eq_render]

/-- With no decimals all digits are printed behind the point. -/
theorem bigIntToDecimalString_zero (hv : v ≤ maxAmount) :
    bigIntToDecimalString v 0 = .ok (render ['0'] (dropZeros (Nat.toDigits 10 v))) := by
  have hpos : 0 < (Nat.toDigits 10 v).length := Nat.length_toDigits_pos
  have hstr : Text.padStart (0 + 1) '0' (Nat.toDigits 10 v) = Nat.toDigits 10 v := by
    have hzero : (0 + 1 : ℤ).toNat - (Nat.toDigits 10 v).length = 0 := by omega
    rw [Text.padStart, List.leftpad, hzero, List.replicate_zero, List.nil_append]
  rw [bigIntToDecimalString, if_neg (by omega), if_neg (by omega),
    if_neg (by exact_mod_cast not_lt.mpr hv)]
  dsimp only
  rw [Int.toNat_natCast, hstr, if_neg (by omega), neg_zero, Text.slice_zero, Text.sliceFrom_zero,
    if_pos List.isEmpty_nil, ite_length_eq_render]

/-- The parts of a string that was printed. -/
theorem decimalParts_render (hi : Shortest 1 i) (hf : IsDigits f) :
    DecimalParts (render i f) i f where
  trim := trim_render hi.digits hf
  integer_ne_nil := List.ne_nil_of_length_pos hi.length_le
  integer := hi.digits
  fraction := hf

theorem DecimalParts.eq (h : DecimalParts s i f) : decimalInteger s = i ∧ decimalFraction s = f := by
  have hi : ∀ c ∈ i, decide (c ≠ '.') = true := fun c hc =>
    decide_eq_true (ne_point_of_isDigit (h.integer c hc))
  rw [decimalInteger, decimalFraction, h.trim, takeWhile_render hi (by decide),
    dropWhile_render hi (by decide)]
  rcases eq_or_ne f [] with rfl | hf
  · exact ⟨rfl, rfl⟩
  · rw [if_neg (by simpa using hf)]
    exact ⟨rfl, rfl⟩

/-- A printed amount is read back. -/
theorem decimalStringToBigInt_print (hd : 0 < d) (hv : v ≤ maxAmount) :
    ((bigIntToDecimalString v d).bind fun s => decimalStringToBigInt s d) = .ok v := by
  obtain ⟨i, r, hi, hr, hlength, hvalue⟩ := exists_shortest hd v
  rw [bigIntToDecimalString_eq hd hv hi hr hlength hvalue]
  refine (decimalStringToBigInt_eq_ok (decimalParts_render hi hr.dropZeros)).mpr ⟨?_, hv, ?_⟩
  · exact length_dropZeros_le.trans hlength.le
  · rw [rightpad_dropZeros hlength, hvalue]

/-- An accepted string is printed in its canonical form. -/
theorem bigIntToDecimalString_parse (hd : 0 < d) (h : decimalStringToBigInt s d = .ok v) :
    bigIntToDecimalString v d = .ok (canonicalDecimal s) := by
  obtain ⟨i, f, hparts⟩ := exists_parts h
  obtain ⟨hlength, hv, hvalue⟩ := (decimalStringToBigInt_eq_ok hparts).mp h
  have hpad : (f.rightpad d '0').length = d := by rw [List.length_rightpad, max_eq_left hlength]
  rw [bigIntToDecimalString_eq hd hv (shortest_dropLeadingZeros hparts.integer)
    hparts.fraction.rightpad hpad, dropZeros_rightpad, canonicalDecimal, hparts.eq.1, hparts.eq.2]
  rw [value_append, value_dropLeadingZeros, ← value_append, hvalue]

theorem decimalAmount_parse (h : decimalStringToBigInt s d = .ok v) :
    (v : ℚ) = decimalAmount s * 10 ^ d := by
  obtain ⟨i, f, hparts⟩ := exists_parts h
  obtain ⟨hlength, -, rfl⟩ := (decimalStringToBigInt_eq_ok hparts).mp h
  rw [decimalAmount, hparts.eq.1, hparts.eq.2, rational_mul_pow hlength]

/-! ### No decimals -/

theorem dropZeros_toDigits_eq_nil : dropZeros (Nat.toDigits 10 v) = [] ↔ v = 0 := by
  have hzero := value_eq_zero (isDigits_toDigits (n := v))
  rw [value_toDigits] at hzero
  rw [dropZeros, List.rdropWhile_eq_nil_iff, hzero]
  simp only [decide_eq_true_iff]

theorem decimalStringToBigInt_print_zero (hv : v ≤ maxAmount) :
    ((bigIntToDecimalString v 0).bind fun s => decimalStringToBigInt s 0) = .ok v ↔ v = 0 := by
  have hi : Shortest 1 ['0'] := shortest_toDigits (n := 0)
  have hparts := decimalParts_render hi (isDigits_toDigits (n := v)).dropZeros
  rw [bigIntToDecimalString_zero hv]
  refine Iff.trans (decimalStringToBigInt_eq_ok (d := 0) hparts) ?_
  rw [Nat.le_zero, List.length_eq_zero_iff, dropZeros_toDigits_eq_nil]
  constructor
  · exact fun h => h.1
  · rintro rfl
    exact ⟨rfl, hv, by decide⟩

theorem value_integer_eq_zero (h : DecimalParts s i []) :
    value i = 0 ↔ ∀ c ∈ s, c.isDigit = true → c = '0' := by
  have htrim := h.trim
  rw [render_nil] at htrim
  rw [value_eq_zero h.integer]
  constructor
  · intro hzero c hc hdigit
    exact hzero c (htrim ▸ Text.mem_trim hc (isWhitespace_digit hdigit))
  · intro hzero c hc
    exact hzero c (Text.trim_sublist.subset (htrim.symm ▸ hc)) (h.integer c hc)

theorem bigIntToDecimalString_parse_zero (h : decimalStringToBigInt s 0 = .ok v) :
    bigIntToDecimalString v 0 = .ok (canonicalDecimal s) ↔
      ∀ c ∈ s, c.isDigit = true → c = '0' := by
  obtain ⟨i, f, hparts⟩ := exists_parts (d := 0) h
  obtain ⟨hlength, hv, hvalue⟩ := (decimalStringToBigInt_eq_ok (d := 0) hparts).mp h
  obtain rfl := List.length_eq_zero_iff.mp (Nat.le_zero.mp hlength)
  have hvalue : value i = v := by simpa [List.rightpad] using hvalue
  have hshortest := shortest_dropLeadingZeros hparts.integer
  rw [← value_integer_eq_zero hparts, bigIntToDecimalString_zero hv, canonicalDecimal,
    hparts.eq.1, hparts.eq.2, hvalue, Except.ok.injEq]
  constructor
  · intro hrender
    by_contra hne
    have hpoint : '.' ∈ dropLeadingZeros i := by
      have hmem : '.' ∈ render ['0'] (dropZeros (Nat.toDigits 10 v)) :=
        mem_render.mpr (.inr (.inl ⟨rfl, mt dropZeros_toDigits_eq_nil.mp hne⟩))
      rwa [hrender] at hmem
    exact hshortest.digits.point_notMem hpoint
  · rintro rfl
    have hleading : dropLeadingZeros i = ['0'] := by
      refine hshortest.eq (shortest_toDigits (n := 0)) ?_
      rw [value_dropLeadingZeros, hvalue]
      rfl
    rw [hleading]
    rfl

/-! ### The round trips -/

/-- The round trips hold exactly when there are decimals, or the amount is zero. -/
theorem amount_roundTrip_iff (d : ℕ) :
    (∀ v : ℕ, v ≤ maxAmount →
      (((bigIntToDecimalString v d).bind fun s => decimalStringToBigInt s d) = .ok v ↔
        0 < d ∨ v = 0)) ∧
      (∀ s v, decimalStringToBigInt s d = .ok v →
        (bigIntToDecimalString v d = .ok (canonicalDecimal s) ↔
          0 < d ∨ ∀ c ∈ s, c.isDigit = true → c = '0')) ∧
      ((∀ v w : ℕ, v ≤ maxAmount → w ≤ maxAmount →
        bigIntToDecimalString v d = bigIntToDecimalString w d → v = w) ↔ 0 < d) ∧
      ∀ s v, decimalStringToBigInt s d = .ok v → (v : ℚ) = decimalAmount s * 10 ^ d := by
  refine ⟨fun v hv => ?_, fun s v h => ?_, ?_, fun s v h => decimalAmount_parse h⟩
  · rcases Nat.eq_zero_or_pos d with rfl | hd
    · rw [or_iff_right (Nat.lt_irrefl 0)]
      exact decimalStringToBigInt_print_zero hv
    · exact iff_of_true (decimalStringToBigInt_print hd hv) (.inl hd)
  · rcases Nat.eq_zero_or_pos d with rfl | hd
    · rw [or_iff_right (Nat.lt_irrefl 0)]
      exact bigIntToDecimalString_parse_zero h
    · exact iff_of_true (bigIntToDecimalString_parse hd h) (.inl hd)
  · constructor
    · intro hinj
      by_contra hd
      obtain rfl : d = 0 := by omega
      have := hinj 1 10 (by decide) (by decide) (by decide +kernel)
      omega
    · intro hd v w hv hw heq
      have hread := decimalStringToBigInt_print hd hv
      rw [heq, decimalStringToBigInt_print hd hw] at hread
      exact (Except.ok.inj hread).symm

/-- Without decimals, one and ten are printed as a tenth. -/
theorem not_amount_roundTrip_noDecimals :
    bigIntToDecimalString 1 0 = .ok "0.1".toList ∧ bigIntToDecimalString 10 0 = .ok "0.1".toList ∧
      ¬∀ d v : ℕ, v ≤ maxAmount →
        ((bigIntToDecimalString v d).bind fun s => decimalStringToBigInt s d) = .ok v := by
  refine ⟨by decide +kernel, by decide +kernel, fun h => ?_⟩
  exact absurd (h 0 1 (by decide)) (by decide +kernel)

example : decimalStringToBigInt " 007.50 ".toList 18 = .ok 7500000000000000000 ∧
    bigIntToDecimalString 7500000000000000000 18 = .ok "7.5".toList := by decide +kernel

end SettlementBus
