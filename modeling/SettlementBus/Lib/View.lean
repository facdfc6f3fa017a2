import SettlementBus.Lib.Heap

/-! Views: parts of blocks that share their bytes. -/

namespace SettlementBus.Lib

structure View where
  block : Ptr
  offset : ℕ
  length : ℕ
  deriving DecidableEq

/-- The bytes with others written at the offset. -/
def splice (b : List UInt8) (offset : ℕ) (x : List UInt8) : List UInt8 :=
  b.take offset ++ x ++ b.drop (offset + x.length)

namespace View

def read (v : View) (h : Heap) : List UInt8 := ((h.read v.block).drop v.offset).take v.length

/-- The view lies in an allocated block. -/
structure Fits (v : View) (h : Heap) : Prop where
  block_lt : v.block < h.length
  le_length : v.offset + v.length ≤ (h.read v.block).length

/-- `subarray`, within the view. -/
def subarray (v : View) (start stop : ℕ) : View :=
  { block := v.block, offset := v.offset + start, length := stop - start }

def bytes (v : View) : HeapM (List UInt8) := do return v.read (← get)

def load (v : View) (i : ℕ) : HeapM UInt8 := do return (← v.bytes).getD i 0

/-- Bytes beyond the end of the view are not written. -/
def write (v : View) (start : ℕ) (x : List UInt8) : HeapM Unit :=
  modify fun h => h.set v.block
    (splice (h.read v.block) (v.offset + start) (x.take (v.length - start)))

def store (v : View) (i : ℕ) (x : UInt8) : HeapM Unit := v.write i [x]

/-- The source is read before the target is written. -/
def copy (source target : View) (start : ℕ) : HeapM Unit := do
  target.write start (← source.bytes)

def alloc (n : ℕ) : HeapM View := do
  return { block := ← HeapM.alloc n, offset := 0, length := n }

/-- The views share no byte. -/
def Apart (v w : View) : Prop :=
  v.block ≠ w.block ∨ v.offset + v.length ≤ w.offset ∨ w.offset + w.length ≤ v.offset

section Rules

variable {h : Heap} {v w : View} {n start i : ℕ} {b x : List UInt8}

theorem length_splice (hlen : start + x.length ≤ b.length) :
    (splice b start x).length = b.length := by
  simp only [splice, List.length_append, List.length_take, List.length_drop]
  omega

theorem getElem?_splice (hlen : start + x.length ≤ b.length) (j : ℕ) :
    (splice b start x)[j]? = if start ≤ j ∧ j < start + x.length then x[j - start]? else b[j]? := by
  have hfront : (b.take start).length = start := by
    rw [List.length_take]
    omega
  rw [splice, List.append_assoc, List.getElem?_append, hfront]
  rcases Nat.lt_or_ge j start with hbefore | hj
  · rw [if_pos hbefore, if_neg (by omega), List.getElem?_take_of_lt hbefore]
  · rw [if_neg (by omega), List.getElem?_append]
    rcases Nat.lt_or_ge j (start + x.length) with hin | hbehind
    · rw [if_pos (by omega), if_pos ⟨hj, hin⟩]
    · rw [if_neg (by omega), if_neg (by omega), List.getElem?_drop]
      congr 1
      omega

theorem getElem?_part (j : ℕ) : ((b.drop i).take n)[j]? = if j < n then b[i + j]? else none := by
  rw [List.getElem?_take, List.getElem?_drop]

/-- What is written in a part of the bytes is written in the whole. -/
theorem splice_part (hlen : start + x.length ≤ n) (hb : i + n ≤ b.length) :
    ((splice b (i + start) x).drop i).take n = splice ((b.drop i).take n) start x := by
  have hpart : start + x.length ≤ ((b.drop i).take n).length := by
    rw [List.length_take, List.length_drop]
    omega
  ext1 j
  rw [getElem?_part, getElem?_splice (by omega), getElem?_splice hpart, getElem?_part]
  rcases Nat.lt_or_ge j n with hj | hj
  · rw [if_pos hj, if_pos hj]
    congr 1
    · simp only [eq_iff_iff]
      omega
    · congr 1
      omega
  · rw [if_neg (by omega), if_neg (by omega), if_neg (by omega)]

/-- A part before or behind what is written. -/
theorem splice_part_apart (hb : start + x.length ≤ b.length)
    (hapart : i + n ≤ start ∨ start + x.length ≤ i) :
    ((splice b start x).drop i).take n = (b.drop i).take n := by
  ext1 j
  rw [getElem?_part, getElem?_part, getElem?_splice hb]
  split
  case isTrue hj => rw [if_neg (by omega)]
  case isFalse => rfl

theorem length_read (hv : v.Fits h) : (v.read h).length = v.length := by
  have := hv.le_length
  rw [read, List.length_take, List.length_drop]
  omega

theorem read_subarray {stop : ℕ} (hstop : stop ≤ v.length) :
    (v.subarray start stop).read h = ((v.read h).drop start).take (stop - start) := by
  rw [read, read, subarray, List.drop_take, List.drop_drop, List.take_take,
    Nat.min_eq_left (Nat.sub_le_sub_right hstop start)]

theorem Fits.subarray {stop : ℕ} (hv : v.Fits h) (hstart : start ≤ stop) (hstop : stop ≤ v.length) :
    (v.subarray start stop).Fits h := by
  have := hv.le_length
  refine ⟨hv.block_lt, ?_⟩
  show v.offset + start + (stop - start) ≤ (h.read v.block).length
  omega

@[simp] theorem exec_bytes : (v.bytes).exec h = (.ok (v.read h), h) := rfl

@[simp] theorem exec_load : (v.load i).exec h = (.ok ((v.read h).getD i 0), h) := rfl

/-- The heap after a write within the view. -/
def written (v : View) (start : ℕ) (x : List UInt8) (h : Heap) : Heap :=
  h.set v.block (splice (h.read v.block) (v.offset + start) x)

theorem exec_write (hlen : start + x.length ≤ v.length) :
    (v.write start x).exec h = (.ok ⟨⟩, v.written start x h) := by
  rw [write, Exec.exec_modify, List.take_of_length_le (by omega), written]

theorem exec_store {y : UInt8} (hi : i < v.length) :
    (v.store i y).exec h = (.ok ⟨⟩, v.written i [y] h) := exec_write hi

theorem exec_copy (hw : w.Fits h) (hlen : start + w.length ≤ v.length) :
    (copy w v start).exec h = (.ok ⟨⟩, v.written start (w.read h) h) := by
  rw [copy, Exec.exec_bind, exec_bytes]
  exact exec_write (by rw [length_read hw]; exact hlen)

theorem read_set {p q : Ptr} (hp : p < h.length) :
    Heap.read (h.set p b) q = if q = p then b else h.read q := by
  rw [Heap.read, Heap.read, List.getD_eq_getElem?_getD, List.getD_eq_getElem?_getD,
    List.getElem?_set]
  by_cases hq : p = q
  · subst hq
    simp [hp]
  · rw [if_neg hq, if_neg (Ne.symm hq)]

theorem Fits.written (hw : w.Fits h) (hv : v.Fits h) (hlen : start + x.length ≤ v.length) :
    w.Fits (v.written start x h) := by
  have := hv.le_length
  refine ⟨by simpa [View.written] using hw.block_lt, ?_⟩
  rw [View.written, read_set hv.block_lt]
  split
  case isTrue hblock =>
    rw [length_splice (by omega), ← hblock]
    exact hw.le_length
  case isFalse => exact hw.le_length

theorem read_written (hv : v.Fits h) (hlen : start + x.length ≤ v.length) :
    v.read (v.written start x h) = splice (v.read h) start x := by
  rw [read, written, read_set hv.block_lt, if_pos rfl]
  exact splice_part hlen hv.le_length

/-- Views that are apart from what is written keep their bytes. -/
theorem read_written_apart (hv : v.Fits h) (hlen : start + x.length ≤ v.length)
    (hapart : w.block ≠ v.block ∨ w.offset + w.length ≤ v.offset + start ∨
      v.offset + start + x.length ≤ w.offset) :
    w.read (v.written start x h) = w.read h := by
  have := hv.le_length
  rw [read, read, written, read_set hv.block_lt]
  by_cases hblock : w.block = v.block
  · rw [if_pos hblock, hblock]
    exact splice_part_apart (by omega) (hapart.resolve_left (not_not.mpr hblock))
  · rw [if_neg hblock]

theorem exec_alloc : (alloc n).exec h =
    (.ok { block := h.length, offset := 0, length := n }, h ++ [List.replicate n 0]) := rfl

theorem Fits.append (hv : v.Fits h) : v.Fits (h ++ [b]) := by
  have hlt := hv.block_lt
  refine ⟨Nat.lt_of_lt_of_le hlt (by simp), ?_⟩
  rw [Heap.read, List.getD_append _ _ _ _ hlt]
  exact hv.le_length

theorem read_append (hv : v.Fits h) : v.read (h ++ [b]) = v.read h := by
  rw [read, read, Heap.read, Heap.read, List.getD_append _ _ _ _ hv.block_lt]

theorem fits_alloc : Fits { block := h.length, offset := 0, length := n }
    (h ++ [List.replicate n 0]) := by
  refine ⟨by simp, ?_⟩
  rw [HeapM.read_length, List.length_replicate]
  exact Nat.le_of_eq (Nat.zero_add n)

theorem read_alloc : read { block := h.length, offset := 0, length := n }
    (h ++ [List.replicate n 0]) = List.replicate n 0 := by
  rw [read, HeapM.read_length]
  simp

theorem splice_zero (hx : x.length = b.length) : splice b 0 x = x := by
  rw [splice, hx, Nat.zero_add, List.drop_length, List.take_zero, List.append_nil, List.nil_append]

theorem splice_zero_singleton {y : UInt8} (hb : 0 < b.length) : splice b 0 [y] = b.set 0 y := by
  cases b with
  | nil => exact absurd hb (Nat.lt_irrefl 0)
  | cons z b => rfl

/-- The view has a block of its own, and the views of before keep their bytes. -/
structure Fresh (v : View) (h h' : Heap) : Prop where
  block : v.block = h.length
  fits : v.Fits h'
  fits_of : ∀ w : View, w.Fits h → w.Fits h'
  read_eq : ∀ w : View, w.Fits h → w.read h' = w.read h

theorem fresh_alloc : Fresh { block := h.length, offset := 0, length := n } h
    (h ++ [List.replicate n 0]) :=
  ⟨rfl, fits_alloc, fun _ hw => hw.append, fun _ hw => read_append hw⟩

variable {h' : Heap}

theorem Fresh.block_ne (hv : v.Fresh h h') (hw : w.Fits h) : w.block ≠ v.block := by
  rw [hv.block]
  exact Nat.ne_of_lt hw.block_lt

theorem Fresh.written (hv : v.Fresh h h') (hlen : start + x.length ≤ v.length) :
    v.Fresh h (v.written start x h') where
  block := hv.block
  fits := hv.fits.written hv.fits hlen
  fits_of w hw := (hv.fits_of w hw).written hv.fits hlen
  read_eq w hw := by
    rw [read_written_apart hv.fits hlen (.inl (hv.block_ne hw)), hv.read_eq w hw]

/-- A copy to the fresh view of what was there before. -/
theorem Fresh.exec_copy (hv : v.Fresh h h') (hw : w.Fits h) (hlen : start + w.length ≤ v.length) :
    (copy w v start).exec h' = (.ok ⟨⟩, v.written start (w.read h) h') := by
  rw [View.exec_copy (hv.fits_of w hw) hlen, hv.read_eq w hw]

end Rules

end View

end SettlementBus.Lib
