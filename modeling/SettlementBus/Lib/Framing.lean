import SettlementBus.Lib.Bytes

/-! Byte strings framed by two numbers, with blocks of known sizes between them. -/

namespace SettlementBus.Lib

/-- A head and a tail of `width` bytes around the blocks. -/
def framed (width head : ℕ) (blocks : List (List UInt8)) (tail : ℕ) : List UInt8 :=
  Bytes.ofNat width head ++ blocks.flatten ++ Bytes.ofNat width tail

variable {width head head' tail tail' : ℕ} {blocks blocks' : List (List UInt8)}

theorem Bytes.ofNat_inj (hhead : head < 256 ^ width) (hhead' : head' < 256 ^ width)
    (h : Bytes.ofNat width head = Bytes.ofNat width head') : head = head' := by
  have hnat := congrArg Bytes.toNat h
  rwa [Bytes.toNat_ofNat, Bytes.toNat_ofNat, Nat.mod_eq_of_lt hhead, Nat.mod_eq_of_lt hhead']
    at hnat

section

variable (h : framed width head blocks tail = framed width head' blocks' tail')

include h

theorem framed_tail (htail : tail < 256 ^ width) (htail' : tail' < 256 ^ width) :
    tail = tail' :=
  Bytes.ofNat_inj htail htail' (List.append_inj' h (by simp)).2

theorem framed_flatten : blocks.flatten = blocks'.flatten := by
  have hleft := (List.append_inj' h (by simp)).1
  exact (List.append_inj hleft (by simp)).2

theorem framed_size : (blocks.map List.length).sum = (blocks'.map List.length).sum := by
  have hlen := congrArg List.length (framed_flatten h)
  simpa using hlen

/-- Frames whose blocks have the same sizes have the same blocks. -/
theorem framed_blocks (hsize : blocks.map List.length = blocks'.map List.length) :
    blocks = blocks' :=
  List.eq_iff_flatten_eq.mpr ⟨framed_flatten h, hsize⟩

end

end SettlementBus.Lib
