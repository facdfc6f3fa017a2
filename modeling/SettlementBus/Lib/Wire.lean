import Mathlib.Algebra.Group.Nat.Defs
import Mathlib.Data.List.Basic
import Mathlib.Tactic.Common

/-! Lists that are read and written at positions: pieces, cursors and loops over items. -/

namespace SettlementBus.Lib.Wire

section Pieces

variable {α : Type} {buf a b : List α} {offset : ℕ}

/-- The piece stands in the list at the position. -/
def At (buf : List α) (offset : ℕ) (piece : List α) : Prop :=
  piece <+: buf.drop offset

theorem At.self (buf : List α) : At buf 0 buf :=
  List.prefix_refl _

theorem at_append : At buf offset (a ++ b) ↔ At buf offset a ∧ At buf (offset + a.length) b := by
  rw [At, At, At, ← List.drop_drop]
  constructor
  · rintro ⟨rest, h⟩
    rw [← h, List.append_assoc, List.drop_left]
    exact ⟨List.prefix_append _ _, List.prefix_append _ _⟩
  · rintro ⟨⟨rest, h⟩, hb⟩
    rw [← h, List.drop_left] at hb
    rw [← h]
    exact (List.prefix_append_right_inj a).mpr hb

theorem At.slice (h : At buf offset a) : (buf.drop offset).take a.length = a :=
  (List.prefix_iff_eq_take.mp h).symm

theorem At.le_length (h : At buf offset a) (hne : a ≠ []) :
    offset + a.length ≤ buf.length := by
  have hle := h.length_le
  have hpos := List.length_pos_of_ne_nil hne
  rw [List.length_drop] at hle
  omega

end Pieces

/-! ### Loops that read items -/

section Loop

variable {σ : Type} (item : σ → ℕ → Option (σ × ℕ)) (stop : ℕ)

/-- Reads items until the position reaches the end, `fuel` of them at most. -/
def readFuel : ℕ → σ × ℕ → Option (σ × ℕ)
  | 0, c => if stop ≤ c.2 then some c else none
  | fuel + 1, c => if stop ≤ c.2 then some c else (item c.1 c.2).bind (readFuel fuel)

/-- Reads items until the position reaches the end. -/
def readItems (c : σ × ℕ) : Option (σ × ℕ) :=
  readFuel item stop (stop - c.2) c

/-- An item takes at least one position. -/
def Advances : Prop :=
  ∀ s offset c, item s offset = some c → offset < c.2

variable {item stop} {c c' : σ × ℕ}

theorem readFuel_stop (fuel : ℕ) (h : stop ≤ c.2) : readFuel item stop fuel c = some c := by
  cases fuel <;> rw [readFuel, if_pos h]

theorem readFuel_eq (h : Advances item) {fuel fuel' : ℕ} (hfuel : stop - c.2 ≤ fuel)
    (hfuel' : stop - c.2 ≤ fuel') : readFuel item stop fuel c = readFuel item stop fuel' c := by
  induction fuel generalizing fuel' c with
  | zero =>
    have hstop : stop ≤ c.2 := by omega
    rw [readFuel_stop _ hstop, readFuel_stop _ hstop]
  | succ fuel ih =>
    by_cases hstop : stop ≤ c.2
    · rw [readFuel_stop _ hstop, readFuel_stop _ hstop]
    · cases fuel' with
      | zero => omega
      | succ fuel' =>
        rw [readFuel, readFuel, if_neg hstop, if_neg hstop]
        cases hitem : item c.1 c.2 with
        | none => rfl
        | some d =>
          have hlt := h _ _ _ hitem
          exact ih (by omega) (by omega)

/-- The loop, whose bound never shows. -/
theorem readItems_eq (h : Advances item) (c : σ × ℕ) :
    readItems item stop c =
      if stop ≤ c.2 then some c else (item c.1 c.2).bind (readItems item stop) := by
  by_cases hstop : stop ≤ c.2
  · rw [if_pos hstop, readItems, readFuel_stop _ hstop]
  · rw [if_neg hstop, readItems]
    obtain ⟨fuel, hfuel⟩ : ∃ fuel, stop - c.2 = fuel + 1 := ⟨stop - c.2 - 1, by omega⟩
    rw [hfuel, readFuel, if_neg hstop]
    cases hitem : item c.1 c.2 with
    | none => rfl
    | some d =>
      have hlt := h _ _ _ hitem
      exact readFuel_eq h (by omega) (Nat.le_refl _)

theorem readItems_stop (h : stop ≤ c.2) : readItems item stop c = some c :=
  readFuel_stop _ h

theorem readItems_step (h : Advances item) (hlt : c.2 < stop) (hitem : item c.1 c.2 = some c') :
    readItems item stop c = readItems item stop c' := by
  rw [readItems_eq h, if_neg (Nat.not_le.mpr hlt), hitem]
  rfl

/-- What every item keeps, the loop keeps. -/
theorem readItems_invariant {P : σ × ℕ → Prop}
    (hitem : ∀ c c', item c.1 c.2 = some c' → P c → P c')
    (hc : P c) (hread : readItems item stop c = some c') : P c' := by
  rw [readItems] at hread
  generalize stop - c.2 = fuel at hread
  induction fuel generalizing c with
  | zero =>
    rw [readFuel] at hread
    split at hread
    · cases hread
      exact hc
    · cases hread
  | succ fuel ih =>
    rw [readFuel] at hread
    split at hread
    · cases hread
      exact hc
    · obtain ⟨d, hd, hread⟩ := Option.bind_eq_some_iff.mp hread
      exact ih (hitem _ _ hd hc) hread

theorem readItems_le (h : Advances item) (hread : readItems item stop c = some c') :
    c.2 ≤ c'.2 :=
  readItems_invariant (P := fun d => c.2 ≤ d.2)
    (fun _ _ hd hle => Nat.le_trans hle (Nat.le_of_lt (h _ _ _ hd))) (Nat.le_refl _) hread

/-- The items of a list, one after the other, each with its effect. -/
theorem readItems_flatMap {α ι : Type} {buf : List α} {encode : ι → List α} {effect : σ → ι → σ}
    (h : Advances item) {items : List ι} {s : σ} {offset : ℕ}
    (hitem : ∀ i ∈ items, ∀ s offset, At buf offset (encode i) →
      item s offset = some (effect s i, offset + (encode i).length))
    (hat : At buf offset (items.flatMap encode)) :
    readItems item (offset + (items.flatMap encode).length) (s, offset) =
      some (items.foldl effect s, offset + (items.flatMap encode).length) := by
  induction items generalizing s offset with
  | nil => exact readItems_stop (Nat.le_refl _)
  | cons i items ih =>
    rw [List.flatMap_cons, at_append] at hat
    have hi := hitem i List.mem_cons_self s offset hat.1
    have hlt : offset < offset + (encode i).length := h _ _ _ hi
    rw [List.flatMap_cons, List.length_append, ← Nat.add_assoc,
      readItems_step h (Nat.lt_of_lt_of_le hlt (Nat.le_add_right _ _)) hi, List.foldl_cons]
    exact ih (fun j hj => hitem j (List.mem_cons_of_mem i hj)) hat.2

end Loop

/-! ### Writing -/

section Write

variable {α : Type}

/-- What is written past the end of a buffer is lost. -/
def overwrite (buf : List α) (offset : ℕ) (piece : List α) : List α :=
  (buf.take offset ++ piece ++ buf.drop (offset + piece.length)).take buf.length

/-- Writes a piece and moves behind it. -/
def write (piece : List α) (c : List α × ℕ) : List α × ℕ :=
  (overwrite c.1 c.2 piece, c.2 + piece.length)

@[simp] theorem length_overwrite (buf : List α) (offset : ℕ) (piece : List α) :
    (overwrite buf offset piece).length = buf.length := by
  simp only [overwrite, List.length_take, List.length_append, List.length_drop]
  omega

theorem getElem?_overwrite (buf : List α) (offset : ℕ) (piece : List α) (i : ℕ) :
    (overwrite buf offset piece)[i]? =
      if offset ≤ i ∧ i < offset + piece.length ∧ i < buf.length then piece[i - offset]?
      else buf[i]? := by
  rw [overwrite, List.getElem?_take]
  by_cases hi : i < buf.length
  · rw [if_pos hi]
    by_cases hlt : i < offset
    · rw [if_neg (by omega), List.append_assoc, List.getElem?_append_left (by simp; omega),
        List.getElem?_take_of_lt hlt]
    · have hlen : (buf.take offset).length = offset := by simp; omega
      by_cases hin : i < offset + piece.length
      · rw [if_pos ⟨Nat.not_lt.mp hlt, hin, hi⟩, List.getElem?_append_left (by simp; omega),
          List.getElem?_append_right (by omega), hlen]
      · have hlen' : (buf.take offset ++ piece).length = offset + piece.length := by
          rw [List.length_append, hlen]
        rw [if_neg (by omega), List.getElem?_append_right (by omega), hlen', List.getElem?_drop]
        congr 1
        omega
  · rw [if_neg hi, if_neg (by omega), List.getElem?_eq_none (Nat.not_lt.mp hi)]

theorem overwrite_append (buf : List α) (offset : ℕ) (a b : List α) :
    overwrite (overwrite buf offset a) (offset + a.length) b = overwrite buf offset (a ++ b) := by
  apply List.ext_getElem?
  intro i
  simp only [getElem?_overwrite, length_overwrite, List.length_append]
  by_cases hb : offset + a.length ≤ i
  · by_cases hin : i < offset + a.length + b.length ∧ i < buf.length
    · rw [if_pos ⟨hb, hin⟩, if_pos (by omega), List.getElem?_append_right (by omega)]
      congr 1
      omega
    · rw [if_neg (by omega), if_neg (by omega), if_neg (by omega)]
  · rw [if_neg (by omega)]
    by_cases ha : offset ≤ i ∧ i < buf.length
    · rw [if_pos (by omega), if_pos (by omega), List.getElem?_append_left (by omega)]
    · rw [if_neg (by omega), if_neg (by omega)]

/-- Two pieces are written as one. -/
theorem write_write (a b : List α) (c : List α × ℕ) : write b (write a c) = write (a ++ b) c := by
  rw [write, write, write, overwrite_append, List.length_append, Nat.add_assoc]

theorem write_nil (c : List α × ℕ) : write [] c = c := by
  simp [write, overwrite]

/-- A piece as long as the buffer leaves nothing of what was there. -/
theorem overwrite_all {buf piece : List α} (h : buf.length = piece.length) :
    overwrite buf 0 piece = piece := by
  rw [overwrite, List.take_zero, List.nil_append, Nat.zero_add, ← h, List.drop_length,
    List.append_nil, h, List.take_length]

end Write

/-! ### Numbers in groups of seven bits -/

namespace Leb128

/-- Least significant group first, `fuel` bytes at most. -/
def encode : ℕ → ℕ → List UInt8
  | 0, _ => []
  | fuel + 1, n =>
    if n < 128 then [UInt8.ofNat n] else UInt8.ofNat (n % 128 + 128) :: encode fuel (n / 128)

/-- The number and the bytes it took. -/
def decode : ℕ → List UInt8 → Option (ℕ × ℕ)
  | 0, _ => none
  | _ + 1, [] => none
  | fuel + 1, b :: rest =>
    if b.toNat < 128 then some (b.toNat, 1)
    else (decode fuel rest).map fun d => (b.toNat - 128 + 128 * d.1, d.2 + 1)

/-- As `decode`, with no limit on the bytes. -/
def decodeAll : List UInt8 → Option (ℕ × ℕ)
  | [] => none
  | b :: rest =>
    if b.toNat < 128 then some (b.toNat, 1)
    else (decodeAll rest).map fun d => (b.toNat - 128 + 128 * d.1, d.2 + 1)

theorem toNat_ofNat {n : ℕ} (h : n < 256) : (UInt8.ofNat n).toNat = n := by
  rw [UInt8.toNat_ofNat', Nat.mod_eq_of_lt h]

theorem decode_small {fuel n : ℕ} (rest : List UInt8) (h : n < 128) :
    decode (fuel + 1) (UInt8.ofNat n :: rest) = some (n, 1) := by
  have hbyte : (UInt8.ofNat n).toNat = n := toNat_ofNat (by omega)
  rw [decode, hbyte, if_pos h]

theorem decode_encode {fuel fuel' n : ℕ} {l : List UInt8} (hn : n < 128 ^ (fuel + 1))
    (hfuel : fuel < fuel') (h : encode (fuel + 1) n <+: l) :
    decode fuel' l = some (n, (encode (fuel + 1) n).length) := by
  obtain ⟨rest, rfl⟩ := h
  induction fuel generalizing fuel' n with
  | zero =>
    obtain ⟨fuel', rfl⟩ := Nat.exists_eq_add_one_of_ne_zero (n := fuel') (by omega)
    have hlt : n < 128 := hn
    rw [encode, if_pos hlt]
    exact decode_small rest hlt
  | succ fuel ih =>
    obtain ⟨fuel', rfl⟩ := Nat.exists_eq_add_one_of_ne_zero (n := fuel') (by omega)
    rw [encode]
    by_cases hlt : n < 128
    · rw [if_pos hlt]
      exact decode_small rest hlt
    · have hbyte : (UInt8.ofNat (n % 128 + 128)).toNat = n % 128 + 128 := toNat_ofNat (by omega)
      have hn' : n / 128 < 128 ^ (fuel + 1) := by
        rw [Nat.pow_succ] at hn
        omega
      rw [if_neg hlt, List.cons_append, decode, hbyte, if_neg (by omega), ih hn' (by omega),
        Option.map_some, List.length_cons]
      congr 2
      omega

theorem decodeAll_of_decode {fuel : ℕ} {l : List UInt8} {d : ℕ × ℕ} (h : decode fuel l = some d) :
    decodeAll l = some d := by
  induction fuel generalizing l d with
  | zero => cases h
  | succ fuel ih =>
    cases l with
    | nil => cases h
    | cons b rest =>
      rw [decode] at h
      rw [decodeAll]
      split at h
      case isTrue hlt => rwa [if_pos hlt]
      case isFalse hlt =>
        obtain ⟨d', hd', rfl⟩ := Option.map_eq_some_iff.mp h
        rw [if_neg hlt, ih hd', Option.map_some]

theorem decodeAll_pos {l : List UInt8} {d : ℕ × ℕ} (h : decodeAll l = some d) : 0 < d.2 := by
  cases l with
  | nil => cases h
  | cons b rest =>
    rw [decodeAll] at h
    split at h
    · cases h
      exact Nat.one_pos
    · obtain ⟨d', -, rfl⟩ := Option.map_eq_some_iff.mp h
      exact Nat.succ_pos _

theorem decode_pos {fuel : ℕ} {l : List UInt8} {d : ℕ × ℕ} (h : decode fuel l = some d) :
    0 < d.2 :=
  decodeAll_pos (decodeAll_of_decode h)

theorem encode_ne_nil (fuel n : ℕ) : encode (fuel + 1) n ≠ [] := by
  rw [encode]
  split <;> exact List.cons_ne_nil _ _

theorem length_encode_le (fuel n : ℕ) : (encode fuel n).length ≤ fuel := by
  induction fuel generalizing n with
  | zero => exact Nat.le_refl _
  | succ fuel ih =>
    rw [encode]
    split
    · exact Nat.succ_le_succ (Nat.zero_le _)
    · exact Nat.succ_le_succ (ih _)

end Leb128

end SettlementBus.Lib.Wire
