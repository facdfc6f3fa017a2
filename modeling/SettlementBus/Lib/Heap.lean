import SettlementBus.Lib.Exec
import Mathlib.Data.List.GetD

/-! Byte blocks in memory, which programs allocate, read and write, and loops over their digits. -/

namespace SettlementBus.Lib

/-- The index of a block. -/
abbrev Ptr := ℕ

/-- The blocks in the order of their allocation. -/
abbrev Heap := List (List UInt8)

def Heap.read (h : Heap) (p : Ptr) : List UInt8 := h.getD p []

/-- The pointer is allocated and its block has these bytes. -/
def Heap.Holds (h : Heap) (p : Ptr) (b : List UInt8) : Prop := h[p]? = some b

/-- Programs over a heap, which always return. -/
abbrev HeapM := Exec Empty Heap

namespace HeapM

open Exec

variable {σ : Type}

/-- Allocates a block with the given bytes. -/
def allocFrom (b : List UInt8) : HeapM Ptr := do
  let h ← get
  set (h ++ [b])
  return h.length

def alloc (n : ℕ) : HeapM Ptr := allocFrom (List.replicate n 0)

def block (p : Ptr) : HeapM (List UInt8) := do return (← get).read p

def load (p : Ptr) (i : ℕ) : HeapM UInt8 := do return (← block p).getD i 0

def store (p : Ptr) (i : ℕ) (v : UInt8) : HeapM Unit :=
  modify fun h => h.set p ((h.read p).set i v)

/-- The loop that writes the digits of `p` from `offset + n - 1` down to `offset`: each step
computes a digit and what it hands on to the next, such as a carry. -/
def digits (p : Ptr) (offset : ℕ) (step : ℕ → σ → HeapM (UInt8 × σ)) : ℕ → σ → HeapM σ
  | 0, s => pure s
  | i + 1, s => do
    let (v, s) ← step i s
    store p (offset + i) v
    digits p offset step i s

/-- The loop over `i = n - 1, …, 0`. -/
def down (body : ℕ → HeapM Unit) : ℕ → HeapM Unit
  | 0 => pure ()
  | i + 1 => do
    body i
    down body i

/-- The loop over `i = 0, …, n - 1`. -/
def up (body : ℕ → σ → HeapM σ) (s : σ) : ℕ → HeapM σ
  | 0 => pure s
  | n + 1 => do body n (← up body s n)

section Rules

variable {h h' : Heap} {p i n : ℕ} {b : List UInt8}

theorem read_of_holds (hp : h.Holds p b) : h.read p = b := by
  rw [Heap.read, List.getD_eq_getElem?_getD, hp, Option.getD_some]

theorem holds_append (hp : h.Holds p b) : Heap.Holds (h ++ h') p b := by
  obtain ⟨hlt, -⟩ := List.getElem?_eq_some_iff.mp hp
  exact (List.getElem?_append_left hlt).trans hp

theorem read_append (hp : h.Holds p b) : Heap.read (h ++ h') p = b :=
  read_of_holds (holds_append hp)

@[simp] theorem holds_length : Heap.Holds (h ++ b :: h') h.length b := by
  simp [Heap.Holds]

@[simp] theorem read_length : Heap.read (h ++ b :: h') h.length = b := read_of_holds holds_length

@[simp] theorem exec_allocFrom : (allocFrom b).exec h = (.ok h.length, h ++ [b]) := rfl

@[simp] theorem exec_alloc :
    (alloc n).exec h = (.ok h.length, h ++ [List.replicate n 0]) := rfl

@[simp] theorem exec_block : (block p).exec h = (.ok (h.read p), h) := rfl

@[simp] theorem exec_load : (load p i).exec h = (.ok ((h.read p).getD i 0), h) := rfl

@[simp] theorem exec_store {v : UInt8} :
    (store p i v).exec h = (.ok (), h.set p ((h.read p).set i v)) := rfl

theorem set_last (b' : List UInt8) : (h ++ b :: h').set h.length b' = h ++ b' :: h' := by
  induction h with
  | nil => rfl
  | cons a h ih => simp

/-- A loop writes the digits that `g` computes: `g i` is what the loop has written and what it hands
on when it comes to the index `i`. -/
theorem exec_digits {step : ℕ → σ → HeapM (UInt8 × σ)} {offset : ℕ} {g : ℕ → List UInt8 × σ}
    {s : σ} (hlen : offset + n ≤ b.length) (hstart : g n = ([], s))
    (hstep : ∀ i < n, ∃ v, (g i).1 = v :: (g (i + 1)).1 ∧
      ∀ b' : List UInt8, b'.getD (offset + i) 0 = b.getD (offset + i) 0 →
        (step i (g (i + 1)).2).exec (h ++ b' :: h') = (.ok (v, (g i).2), h ++ b' :: h')) :
    (digits h.length offset step n s).exec (h ++ b :: h') =
      (.ok (g 0).2, h ++ (b.take offset ++ (g 0).1 ++ b.drop (offset + n)) :: h') := by
  suffices key : ∀ i ≤ n, (digits h.length offset step i (g i).2).exec
      (h ++ (b.take (offset + i) ++ (g i).1 ++ b.drop (offset + n)) :: h') =
        (.ok (g 0).2, h ++ (b.take offset ++ (g 0).1 ++ b.drop (offset + n)) :: h') by
    have hb := key n (Nat.le_refl n)
    rwa [hstart, List.append_nil, List.take_append_drop] at hb
  intro i hi
  induction i with
  | zero => rfl
  | succ i ih =>
    obtain ⟨v, hv, hexec⟩ := hstep i hi
    have hb : offset + i < b.length := by omega
    have htake : b.take (offset + (i + 1)) = b.take (offset + i) ++ [b[offset + i]] := by
      rw [← Nat.add_assoc, List.take_succ_eq_append_getElem hb]
    have hfront : (b.take (offset + i)).length = offset + i := by
      rw [List.length_take]
      omega
    have hread : (b.take (offset + (i + 1)) ++ (g (i + 1)).1 ++ b.drop (offset + n)).getD
        (offset + i) 0 = b.getD (offset + i) 0 := by
      rw [htake, List.getD_eq_getElem?_getD, List.getD_eq_getElem?_getD,
        List.getElem?_eq_getElem hb]
      generalize b.take (offset + i) = front at hfront ⊢
      simp [← hfront]
    have hset : (b.take (offset + (i + 1)) ++ (g (i + 1)).1 ++ b.drop (offset + n)).set
        (offset + i) v = b.take (offset + i) ++ (g i).1 ++ b.drop (offset + n) := by
      rw [htake, hv]
      generalize b.take (offset + i) = front at hfront ⊢
      simp [← hfront]
    rw [digits, exec_bind, hexec _ hread]
    simp only [exec_bind, exec_store, read_length, set_last, hset]
    exact ih (Nat.le_of_succ_le hi)

/-- The loop fills a block that has just been allocated. -/
theorem exec_digits_fresh {step : ℕ → σ → HeapM (UInt8 × σ)} {g : ℕ → List UInt8 × σ} {s : σ}
    (hstart : g n = ([], s))
    (hstep : ∀ i < n, ∃ v, (g i).1 = v :: (g (i + 1)).1 ∧ ∀ b : List UInt8,
      (step i (g (i + 1)).2).exec (h ++ [b]) = (.ok (v, (g i).2), h ++ [b])) :
    (digits h.length 0 step n s).exec (h ++ [List.replicate n 0]) =
      (.ok (g 0).2, h ++ [(g 0).1]) := by
  have hloop : (digits h.length 0 step n s).exec (h ++ List.replicate n 0 :: []) =
      (.ok (g 0).2, h ++ ((List.replicate n 0).take 0 ++ (g 0).1 ++
        (List.replicate n 0).drop (0 + n)) :: []) := by
    refine exec_digits (by simp) hstart fun i hi => ?_
    obtain ⟨v, hv, hexec⟩ := hstep i hi
    exact ⟨v, hv, fun b _ => hexec b⟩
  simpa using hloop

theorem exec_load_of_holds (hp : h.Holds p b) (hi : i < b.length) :
    (load p i).exec (h ++ h') = (.ok b[i], h ++ h') := by
  rw [exec_load, read_append hp, List.getD_eq_getElem b 0 hi]

/-- The rule of a loop that counts down. -/
theorem exec_down {body : ℕ → HeapM Unit} {I : ℕ → Heap → Prop} (hn : I n h)
    (hbody : ∀ i < n, ∀ h, I (i + 1) h → ∃ h', (body i).exec h = (.ok (), h') ∧ I i h') :
    ∃ h', (down body n).exec h = (.ok (), h') ∧ I 0 h' := by
  induction n generalizing h with
  | zero => exact ⟨h, rfl, hn⟩
  | succ n ih =>
    obtain ⟨h₁, hexec, hinv⟩ := hbody n (Nat.lt_succ_self n) h hn
    obtain ⟨h₂, hrest, hinv⟩ := ih hinv fun i hi => hbody i (Nat.lt_succ_of_lt hi)
    exact ⟨h₂, by rw [down, exec_bind, hexec]; exact hrest, hinv⟩

/-- The rule of a loop that counts up. -/
theorem exec_up {body : ℕ → σ → HeapM σ} {I : ℕ → σ → Heap → Prop} {s : σ} (h0 : I 0 s h)
    (hbody : ∀ i < n, ∀ s h, I i s h →
      ∃ s' h', (body i s).exec h = (.ok s', h') ∧ I (i + 1) s' h') :
    ∃ s' h', (up body s n).exec h = (.ok s', h') ∧ I n s' h' := by
  induction n with
  | zero => exact ⟨s, h, rfl, h0⟩
  | succ n ih =>
    obtain ⟨s₁, h₁, hrest, hinv⟩ := ih fun i hi => hbody i (Nat.lt_succ_of_lt hi)
    obtain ⟨s₂, h₂, hexec, hinv⟩ := hbody n (Nat.lt_succ_self n) s₁ h₁ hinv
    exact ⟨s₂, h₂, by rw [up, exec_bind, hrest]; exact hexec, hinv⟩

end Rules

end HeapM

end SettlementBus.Lib
