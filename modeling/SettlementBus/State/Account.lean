import SettlementBus.State.Balance

namespace SettlementBus

/-- A well-formed node entry: the fields have their lengths and the role is one of `NodeRole`. -/
structure Account where
  role : NodeRole
  wk : Buffer
  length_wk : wk.length = writerByteLength
  balance : Balance
  license : Buffer
  length_license : license.length = licenseByteLength
  stakedBalance : Balance
  deriving DecidableEq

namespace NodeRole

theorem isNodeRoleValid_byte (r : NodeRole) : isNodeRoleValid r.byte := by
  cases r <;> decide

theorem byte_injective : Function.Injective byte := by
  intro r s h
  cases r <;> cases s <;> first | rfl | exact absurd h (by decide)

def isWhitelisted : NodeRole → Bool
  | reader => false
  | _ => true

def isWriter : NodeRole → Bool
  | writer => true
  | indexer => true
  | _ => false

def isIndexer : NodeRole → Bool
  | indexer => true
  | _ => false

theorem byte_and_whitelistedMask (r : NodeRole) :
    decide (r.byte &&& whitelistedMask ≠ 0) = r.isWhitelisted := by
  cases r <;> rfl

theorem byte_and_writerMask (r : NodeRole) :
    decide (r.byte &&& writerMask ≠ 0) = r.isWriter := by
  cases r <;> rfl

theorem byte_and_indexerMask (r : NodeRole) :
    decide (r.byte &&& indexerMask ≠ 0) = r.isIndexer := by
  cases r <;> rfl

end NodeRole

namespace Account

def toBuffer (a : Account) : Buffer :=
  a.role.byte :: (a.wk ++ (a.balance.value ++ (a.license ++ a.stakedBalance.value)))

/-- Balance and stake together. -/
def total (a : Account) : ℕ := a.balance.toNat + a.stakedBalance.toNat

variable (a : Account)

@[simp] theorem length_toBuffer : a.toBuffer.length = nodeEntrySize := by
  simp [toBuffer, a.length_wk, a.balance.length_value, a.length_license,
    a.stakedBalance.length_value]
  rfl

@[simp] theorem toBuffer_ne_nil : a.toBuffer ≠ [] := List.cons_ne_nil _ _

@[simp] theorem isBufferValid_toBuffer : isBufferValid a.toBuffer nodeEntrySize := by
  simp [isBufferValid]

@[simp] theorem isBufferValid_wk : isBufferValid a.wk writerByteLength := by
  simp [isBufferValid, a.length_wk]

@[simp] theorem isBufferValid_license : isBufferValid a.license licenseByteLength := by
  simp [isBufferValid, a.length_license]

section Layout

variable (x : UInt8) {w b l s : Buffer} (hw : w.length = 32) (hb : b.length = 16)
  (hl : l.length = 4)

include hw in
theorem take_wk (t : Buffer) : (x :: (w ++ t)).take 33 = x :: w := by
  rw [List.take_succ_cons, List.take_left' hw]

include hw in
theorem drop_wk (t : Buffer) : (x :: (w ++ t)).drop 33 = t := by
  rw [List.drop_succ_cons, List.drop_left' hw]

include hw hb in
theorem take_balance (t : Buffer) : (x :: (w ++ (b ++ t))).take 49 = x :: (w ++ b) := by
  rw [← List.append_assoc, List.take_succ_cons, List.take_left' (by simp [hw, hb])]

include hw hb in
theorem drop_balance (t : Buffer) : (x :: (w ++ (b ++ t))).drop 49 = t := by
  rw [← List.append_assoc, List.drop_succ_cons, List.drop_left' (by simp [hw, hb])]

include hw hb hl in
theorem take_license (t : Buffer) :
    (x :: (w ++ (b ++ (l ++ t)))).take 53 = x :: (w ++ (b ++ l)) := by
  rw [← List.append_assoc b, ← List.append_assoc, List.take_succ_cons,
    List.take_left' (by simp [hw, hb, hl])]

include hw hb hl in
theorem drop_license (t : Buffer) : (x :: (w ++ (b ++ (l ++ t)))).drop 53 = t := by
  rw [← List.append_assoc b, ← List.append_assoc, List.drop_succ_cons,
    List.drop_left' (by simp [hw, hb, hl])]

end Layout

@[simp] theorem decode_toBuffer : NodeEntry.decode a.toBuffer = some {
    wk := a.wk
    isWhitelisted := a.role.isWhitelisted
    isWriter := a.role.isWriter
    isIndexer := a.role.isIndexer
    balance := a.balance.value
    license := a.license
    stakedBalance := a.stakedBalance.value } := by
  rw [NodeEntry.decode, if_pos (isBufferValid_toBuffer a)]
  simp only [toBuffer, List.headD_cons, Option.some.injEq, DecodedNodeEntry.mk.injEq]
  refine ⟨List.take_left' a.length_wk, a.role.byte_and_whitelistedMask, a.role.byte_and_writerMask,
    a.role.byte_and_indexerMask, ?_, ?_, ?_⟩
  · rw [drop_wk _ a.length_wk, List.take_left' a.balance.length_value]
  · rw [drop_balance _ a.length_wk a.balance.length_value, List.take_left' a.length_license]
  · rw [drop_license _ a.length_wk a.balance.length_value a.length_license,
      List.take_of_length_le (Nat.le_of_eq a.stakedBalance.length_value)]

@[simp] theorem isWhitelisted_toBuffer :
    NodeEntry.isWhitelisted a.toBuffer = a.role.isWhitelisted := by
  rw [NodeEntry.isWhitelisted, isBufferValid_toBuffer, Bool.true_and]
  exact a.role.byte_and_whitelistedMask

@[simp] theorem isWriter_toBuffer : NodeEntry.isWriter a.toBuffer = a.role.isWriter := by
  rw [NodeEntry.isWriter, isWhitelisted_toBuffer]
  refine (congrArg (a.role.isWhitelisted && ·) a.role.byte_and_writerMask).trans ?_
  cases a.role <;> rfl

@[simp] theorem isIndexer_toBuffer : NodeEntry.isIndexer a.toBuffer = a.role.isIndexer := by
  rw [NodeEntry.isIndexer, isWriter_toBuffer]
  refine (congrArg (a.role.isWriter && ·) a.role.byte_and_indexerMask).trans ?_
  cases a.role <;> rfl

@[simp] theorem setRole_toBuffer (r : NodeRole) :
    NodeEntry.setRole a.toBuffer r.byte = some { a with role := r }.toBuffer := by
  rw [NodeEntry.setRole, if_pos ⟨r.isNodeRoleValid_byte, isBufferValid_toBuffer a⟩]
  rfl

theorem setWritingKey_toBuffer {wk : Buffer} (h : wk.length = writerByteLength) :
    NodeEntry.setWritingKey a.toBuffer wk = some { a with wk := wk, length_wk := h }.toBuffer := by
  rw [NodeEntry.setWritingKey, if_pos ⟨isBufferValid_toBuffer a, by simp [isBufferValid, h]⟩, copy,
    h]
  exact congrArg some (congrArg (_ :: wk ++ ·) (drop_wk _ a.length_wk _))

@[simp] theorem setBalance_toBuffer (b : Balance) :
    NodeEntry.setBalance a.toBuffer b.value = some { a with balance := b }.toBuffer := by
  rw [NodeEntry.setBalance, if_pos ⟨isBufferValid_toBuffer a, isBufferValid_value b⟩, copy,
    b.length_value]
  simp only [toBuffer, writerByteLength, balanceByteLength, take_wk _ a.length_wk,
    drop_balance _ a.length_wk a.balance.length_value, List.cons_append, List.append_assoc]

@[simp] theorem update_toBuffer (b : Balance) :
    b.update a.toBuffer = some { a with balance := b }.toBuffer := setBalance_toBuffer a b

theorem setLicense_toBuffer {l : Buffer} (h : l.length = licenseByteLength) :
    NodeEntry.setLicense a.toBuffer l =
      some { a with license := l, length_license := h }.toBuffer := by
  rw [NodeEntry.setLicense, if_pos ⟨isBufferValid_toBuffer a, by simp [isBufferValid, h]⟩, copy, h]
  simp only [toBuffer, writerByteLength, balanceByteLength, licenseByteLength,
    take_balance _ a.length_wk a.balance.length_value,
    drop_license _ a.length_wk a.balance.length_value a.length_license, List.cons_append,
    List.append_assoc]

@[simp] theorem setStakedBalance_toBuffer (b : Balance) :
    NodeEntry.setStakedBalance a.toBuffer b.value =
      some { a with stakedBalance := b }.toBuffer := by
  have hdrop : a.toBuffer.drop nodeEntrySize = [] := by
    rw [List.drop_eq_nil_iff, length_toBuffer]
  rw [NodeEntry.setStakedBalance, if_pos ⟨isBufferValid_toBuffer a, isBufferValid_value b⟩, copy,
    b.length_value]
  rw [show writerByteLength + balanceByteLength + licenseByteLength + 1 + balanceByteLength =
    nodeEntrySize from rfl, hdrop, List.append_nil]
  simp only [toBuffer, writerByteLength, balanceByteLength, licenseByteLength,
    take_license _ a.length_wk a.balance.length_value a.length_license, List.cons_append,
    List.append_assoc]

theorem setRoleAndWriterKey_toBuffer (r : NodeRole) {wk : Buffer}
    (h : wk.length = writerByteLength) :
    NodeEntry.setRoleAndWriterKey a.toBuffer r.byte wk =
      some { a with role := r, wk := wk, length_wk := h }.toBuffer := by
  have hwk : isBufferValid wk writerByteLength := by simp [isBufferValid, h]
  rw [NodeEntry.setRoleAndWriterKey,
    if_pos ⟨r.isNodeRoleValid_byte, hwk, isBufferValid_toBuffer a⟩, copy, h]
  exact congrArg some (congrArg (r.byte :: wk ++ ·) (drop_wk _ a.length_wk _))

@[simp] theorem init_toBuffer :
    NodeEntry.init a.wk a.role.byte a.balance.value a.license a.stakedBalance.value =
      a.toBuffer := by
  have hw := a.length_wk
  have hb := a.balance.length_value
  have hl := a.length_license
  have hs := a.stakedBalance.length_value
  rw [NodeEntry.init, if_pos ⟨isBufferValid_wk a, isBufferValid_value _,
    a.role.isNodeRoleValid_byte,
    isBufferValid_license a, isBufferValid_value _⟩]
  have h1 : copy a.wk ((List.replicate nodeEntrySize 0).set 0 a.role.byte) 1 =
      a.role.byte :: (a.wk ++ List.replicate 36 0) := by
    rw [copy, hw]
    rfl
  have h2 : copy a.balance.value (a.role.byte :: (a.wk ++ List.replicate 36 0)) 33 =
      a.role.byte :: (a.wk ++ (a.balance.value ++ List.replicate 20 0)) := by
    rw [copy, hb, take_wk _ hw, ← List.drop_drop, drop_wk _ hw]
    simp [balanceByteLength]
  have h3 : copy a.license (a.role.byte :: (a.wk ++ (a.balance.value ++ List.replicate 20 0))) 49 =
      a.role.byte :: (a.wk ++ (a.balance.value ++ (a.license ++ List.replicate 16 0))) := by
    rw [copy, hl, take_balance _ hw hb, ← List.drop_drop, drop_balance _ hw hb]
    simp [licenseByteLength]
  have h4 : copy a.stakedBalance.value
      (a.role.byte :: (a.wk ++ (a.balance.value ++ (a.license ++ List.replicate 16 0)))) 53 =
      a.toBuffer := by
    rw [copy, hs, take_license _ hw hb hl, ← List.drop_drop, drop_license _ hw hb hl]
    simp [balanceByteLength, toBuffer]
  simp only [h1, h2, h3, h4]

theorem toBuffer_injective : Function.Injective toBuffer := by
  intro a c h
  have hdec := congrArg NodeEntry.decode h
  simp only [decode_toBuffer, Option.some.injEq, DecodedNodeEntry.mk.injEq] at hdec
  obtain ⟨hwk, -, -, -, hbal, hlic, hstake⟩ := hdec
  have hrole := NodeRole.byte_injective (List.head_eq_of_cons_eq h)
  have hbal : a.balance = c.balance := Balance.toNat_inj.mp (congrArg Lib.Bytes.toNat hbal)
  have hstake : a.stakedBalance = c.stakedBalance :=
    Balance.toNat_inj.mp (congrArg Lib.Bytes.toNat hstake)
  cases a
  cases c
  simp_all only

/-- Every buffer of the right size with a valid role byte is a well-formed entry. -/
theorem exists_toBuffer {e : Buffer} (hlen : e.length = nodeEntrySize)
    (hrole : isNodeRoleValid (e.headD 0)) : ∃ a : Account, a.toBuffer = e := by
  cases e with
  | nil => cases hlen
  | cons x e =>
    have hlen : e.length = 68 := Nat.succ.inj hlen
    obtain ⟨r, -, hr⟩ := List.any_eq_true.mp hrole
    refine ⟨⟨r, e.take 32, by simp [hlen, writerByteLength],
      ⟨(e.drop 32).take 16, by simp [hlen, balanceByteLength]⟩,
      (e.drop 48).take 4, by simp [hlen, licenseByteLength],
      ⟨e.drop 52, by simp [hlen, balanceByteLength]⟩⟩, ?_⟩
    have h3 : (e.drop 48).take 4 ++ e.drop 52 = e.drop 48 := by
      rw [show 52 = 48 + 4 from rfl, ← List.drop_drop, List.take_append_drop]
    have h2 : (e.drop 32).take 16 ++ e.drop 48 = e.drop 32 := by
      rw [show 48 = 32 + 16 from rfl, ← List.drop_drop, List.take_append_drop]
    simp only [toBuffer, h3, h2, List.take_append_drop, of_decide_eq_true hr, List.headD_cons]

end Account

end SettlementBus
