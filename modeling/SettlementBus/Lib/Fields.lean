import SettlementBus.Lib.Wire

/-! Messages that are sequences of numbered fields: each field reads itself, and what no field reads
is skipped. -/

namespace SettlementBus.Lib.Wire

variable {α β σ : Type}

/-- A value and the position behind it. -/
abbrev Reader (α β : Type) := List α → ℕ → Option (β × ℕ)

/-- The piece is read as the value, wherever it stands. -/
def Reads (read : Reader α β) (piece : List α) (b : β) : Prop :=
  ∀ buf offset, At buf offset piece → read buf offset = some (b, offset + piece.length)

/-- A reader does not move back. -/
def Reader.Forward (read : Reader α β) : Prop :=
  ∀ buf offset d, read buf offset = some d → offset ≤ d.2

/-- What a field does with a message. -/
abbrev FieldReader (α σ : Type) := σ → Reader α σ

/-- Sets a property to what is read. -/
def Reader.field (read : Reader α β) (set : β → σ → σ) : FieldReader α σ :=
  fun s buf offset => (read buf offset).map fun d => (set d.1 s, d.2)

/-- The functions that a format shares: a number and a type in front of each field, and a way past
a field of which no more is known than its type. -/
structure Format (α : Type) where
  header : Reader α (ℕ × ℕ)
  skip : ℕ → List α → ℕ → Option ℕ
  lt_header : ∀ {buf offset d}, header buf offset = some d → offset < d.2
  le_skip : ∀ {wire buf offset offset'}, skip wire buf offset = some offset' → offset ≤ offset'

namespace Format

variable (F : Format α) (fields : ℕ → Option (FieldReader α σ))

/-- The piece is skipped, wherever it stands. -/
def Skips (wire : ℕ) (piece : List α) : Prop :=
  ∀ buf offset, At buf offset piece → F.skip wire buf offset = some (offset + piece.length)

/-- Reads one field, whatever its type is, or skips it. -/
def item (buf : List α) (s : σ) (offset : ℕ) : Option (σ × ℕ) := do
  let ((number, wire), offset) ← F.header buf offset
  match fields number with
  | some read => read s buf offset
  | none => return (s, ← F.skip wire buf offset)

/-- Reads a message that is the whole list. -/
def decode (init : σ) (buf : List α) : Option σ :=
  (readItems (F.item fields buf) buf.length (init, 0)).map Prod.fst

/-- Reads a message behind its length. A last field may end after the position that this gives. -/
def delimited (length : Reader α ℕ) (init : σ) : Reader α σ := fun buf offset => do
  let (len, offset) ← length buf offset
  readItems (F.item fields buf) (offset + len) (init, offset)

/-- A sequence of fields, and what it does to a message. -/
inductive Fields : List α → (σ → σ) → Prop
  | nil : Fields [] id
  | known {number wire : ℕ} {head piece rest : List α} {read : FieldReader α σ} {f g : σ → σ}
      (hhead : Reads F.header head (number, wire)) (hfield : fields number = some read)
      (hread : ∀ s, Reads (read s) piece (f s)) (h : Fields rest g) :
      Fields (head ++ (piece ++ rest)) (g ∘ f)
  | unknown {number wire : ℕ} {head piece rest : List α} {g : σ → σ}
      (hhead : Reads F.header head (number, wire)) (hfield : fields number = none)
      (hskip : F.Skips wire piece) (h : Fields rest g) : Fields (head ++ (piece ++ rest)) g

variable {F fields} {buf piece rest : List α} {offset : ℕ} {s : σ} {f g : σ → σ}

namespace Fields

theorem append (h : Fields F fields piece f) (h' : Fields F fields rest g) :
    Fields F fields (piece ++ rest) (g ∘ f) := by
  induction h with
  | nil => exact h'
  | known hhead hfield hread _ ih =>
    rw [List.append_assoc, List.append_assoc, ← Function.comp_assoc]
    exact .known hhead hfield hread ih
  | unknown hhead hfield hskip _ ih =>
    rw [List.append_assoc, List.append_assoc]
    exact .unknown hhead hfield hskip ih

/-- The same field for each of several values. -/
theorem flatMap {ι : Type} {encode : ι → List α} {effect : ι → σ → σ} {items : List ι}
    (h : ∀ i ∈ items, Fields F fields (encode i) (effect i)) :
    Fields F fields (items.flatMap encode) (fun s => items.foldl (fun s i => effect i s) s) := by
  induction items with
  | nil => exact .nil
  | cons i items ih =>
    exact (h i List.mem_cons_self).append (ih fun j hj => h j (List.mem_cons_of_mem i hj))

end Fields

/-- No field moves back. -/
def Forward (fields : ℕ → Option (FieldReader α σ)) : Prop :=
  ∀ number read, fields number = some read → ∀ s, (read s).Forward

theorem item_advances (hfields : Forward fields) : Advances (F.item fields buf) := by
  intro s offset c h
  obtain ⟨⟨⟨number, wire⟩, offset'⟩, hheader, h⟩ := Option.bind_eq_some_iff.mp h
  have hlt := F.lt_header hheader
  simp only at h hlt
  split at h
  next read hread => exact Nat.lt_of_lt_of_le hlt (hfields number read hread s buf offset' c h)
  next =>
    obtain ⟨offset'', hskip, h⟩ := Option.bind_eq_some_iff.mp h
    cases h
    exact Nat.lt_of_lt_of_le hlt (F.le_skip hskip)

/-- The fields take effect one after the other. -/
theorem Fields.readItems (hfields : Forward fields) (h : Fields F fields piece f)
    (hat : At buf offset piece) :
    readItems (F.item fields buf) (offset + piece.length) (s, offset) =
      some (f s, offset + piece.length) := by
  have hadvances : Advances (F.item fields buf) := item_advances hfields
  induction h generalizing s offset with
  | nil => exact readItems_stop (Nat.le_refl _)
  | @known number wire head piece rest read f g hhead hfield hread _ ih =>
    rw [at_append, at_append] at hat
    have hitem : F.item fields buf s offset =
        some (f s, offset + head.length + piece.length) := by
      rw [item, hhead buf offset hat.1]
      simp only [Option.bind_eq_bind, Option.bind_some, hfield]
      exact hread s buf _ hat.2.1
    have hlt := hadvances s offset _ hitem
    rw [List.length_append, List.length_append, ← Nat.add_assoc, ← Nat.add_assoc,
      readItems_step hadvances (Nat.lt_of_lt_of_le hlt (Nat.le_add_right _ _)) hitem]
    exact ih hat.2.2
  | @unknown number wire head piece rest g hhead hfield hskip _ ih =>
    rw [at_append, at_append] at hat
    have hitem : F.item fields buf s offset = some (s, offset + head.length + piece.length) := by
      rw [item, hhead buf offset hat.1]
      simp only [Option.bind_eq_bind, Option.bind_some, hfield, hskip buf _ hat.2.1]
      rfl
    have hlt := hadvances s offset _ hitem
    rw [List.length_append, List.length_append, ← Nat.add_assoc, ← Nat.add_assoc,
      readItems_step hadvances (Nat.lt_of_lt_of_le hlt (Nat.le_add_right _ _)) hitem]
    exact ih hat.2.2

/-- What a sequence of fields makes of an empty message. -/
theorem Fields.decode (hfields : Forward fields) (h : Fields F fields piece f) (init : σ) :
    F.decode fields init piece = some (f init) := by
  have hread := h.readItems (s := init) hfields (At.self piece)
  rw [Nat.zero_add] at hread
  rw [Format.decode, hread]
  rfl

/-- A message behind its length is a value for the field of another one. -/
theorem Fields.delimited (hfields : Forward fields) {length : Reader α ℕ} {head : List α}
    (hlength : Reads length head piece.length) (h : Fields F fields piece f) (init : σ) :
    Reads (F.delimited fields length init) (head ++ piece) (f init) := by
  intro buf offset hat
  rw [at_append] at hat
  rw [Format.delimited, hlength buf offset hat.1, List.length_append, ← Nat.add_assoc]
  exact h.readItems hfields hat.2

/-- A message behind its length does not move back either. -/
theorem delimited_forward (hfields : Forward fields) {length : Reader α ℕ}
    (hlength : length.Forward) (init : σ) : (F.delimited fields length init).Forward := by
  intro buf offset d hd
  obtain ⟨⟨len, offset'⟩, hlen, hd⟩ := Option.bind_eq_some_iff.mp hd
  exact Nat.le_trans (hlength buf offset _ hlen) (readItems_le (item_advances hfields) hd)

end Format

theorem Reads.field {read : Reader α β} {piece : List α} {b : β} (h : Reads read piece b)
    (set : β → σ → σ) (s : σ) : Reads (read.field set s) piece (set b s) := by
  intro buf offset hat
  rw [Reader.field, h buf offset hat]
  rfl

theorem Reader.Forward.field {read : Reader α β} (h : read.Forward) (set : β → σ → σ) (s : σ) :
    (read.field set s).Forward := by
  intro buf offset d hd
  obtain ⟨c, hc, rfl⟩ := Option.map_eq_some_iff.mp hd
  exact h buf offset c hc

end SettlementBus.Lib.Wire
