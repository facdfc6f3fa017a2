import SettlementBus.State.EntryMemory

/-! A node entry is a record with independent fields. -/

namespace SettlementBus.Memory

open Lib View

variable {h : Heap} {a nodeEntry value : Argument} {v e : View} {size offset : ℕ} {role : UInt8}

theorem Argument.bufferOf_eq_some : a.bufferOf size = some v ↔ a = .buffer v ∧ v.length = size := by
  cases a with
  | buffer view =>
    rw [bufferOf, Option.ite_none_right_eq_some, Option.some.injEq, buffer.injEq, and_comm]
    exact and_congr_right fun hview => by rw [hview]
  | number value => simp [bufferOf]
  | other => simp [bufferOf]

theorem Argument.length_of_bufferOf (hv : a.bufferOf size = some v) : v.length = size :=
  (bufferOf_eq_some.mp hv).2

theorem Argument.eq_none_or_fits (size : ℕ) (ha : a.Fits h) :
    a.bufferOf size = none ∨ ∃ v, a.bufferOf size = some v ∧ v.Fits h := by
  cases hv : a.bufferOf size with
  | none => exact .inl rfl
  | some v =>
    obtain ⟨rfl, -⟩ := bufferOf_eq_some.mp hv
    exact .inr ⟨v, rfl, ha⟩

theorem Argument.isNodeRoleValid_of_nodeRoleOf (hrole : a.nodeRoleOf = some role) :
    isNodeRoleValid role := by
  cases a with
  | buffer view => exact absurd hrole (by simp [nodeRoleOf])
  | number value =>
    obtain ⟨r, hr, rfl⟩ := List.mem_map.mp (List.mem_of_find?_eq_some hrole)
    exact List.any_eq_true.mpr ⟨r, hr, decide_eq_true rfl⟩
  | other => exact absurd hrole (by simp [nodeRoleOf])

theorem isBufferValid_read (hv : v.Fits h) (hlength : v.length = size) :
    isBufferValid (v.read h) size := by
  rw [isBufferValid_iff, length_read hv, hlength]

namespace NodeEntry

/-- The entry that `init` and `encode` fill has the bytes of `init`. -/
theorem exec_fill {wk balance license stakedBalance : View} (hwk : wk.Fits h)
    (hbalance : balance.Fits h) (hlicense : license.Fits h) (hstaked : stakedBalance.Fits h)
    (hrole : isNodeRoleValid role) (hwklen : wk.length = writerByteLength)
    (hbalancelen : balance.length = balanceByteLength)
    (hlicenselen : license.length = licenseByteLength)
    (hstakedlen : stakedBalance.length = balanceByteLength) :
    ∃ v h', (fill role wk balance license stakedBalance).exec h = (.ok v, h') ∧ v.Fresh h h' ∧
      v.read h' = SettlementBus.NodeEntry.init (wk.read h) role (balance.read h) (license.read h)
        (stakedBalance.read h) := by
  generalize hv : ({ block := h.length, offset := 0, length := nodeEntrySize } : View) = v
  have hlen : v.length = nodeEntrySize := hv ▸ rfl
  have hrolelen : 0 < v.length := by rw [hlen]; decide
  have hwkle : 1 + wk.length ≤ v.length := by rw [hlen, hwklen]; decide
  have hbalancele : 1 + writerByteLength + balance.length ≤ v.length := by
    rw [hlen, hbalancelen]; decide
  have hlicensele : 1 + writerByteLength + balanceByteLength + license.length ≤ v.length := by
    rw [hlen, hlicenselen]; decide
  have hstakedle : 1 + writerByteLength + balanceByteLength + licenseByteLength +
      stakedBalance.length ≤ v.length := by rw [hlen, hstakedlen]; decide
  have hzero : v.Fresh h (h ++ [List.replicate nodeEntrySize 0]) := hv ▸ fresh_alloc
  have hzeroread : v.read (h ++ [List.replicate nodeEntrySize 0]) =
      List.replicate nodeEntrySize 0 := hv ▸ read_alloc
  have hone := hzero.written (x := [role]) hrolelen
  have htwo := hone.written (x := wk.read h) (by rw [length_read hwk]; exact hwkle)
  have hthree := htwo.written (x := balance.read h) (by rw [length_read hbalance]; exact hbalancele)
  have hfour := hthree.written (x := license.read h)
    (by rw [length_read hlicense]; exact hlicensele)
  have hfive := hfour.written (x := stakedBalance.read h)
    (by rw [length_read hstaked]; exact hstakedle)
  refine ⟨v, _, ?_, hfive, ?_⟩
  · rw [fill, Exec.exec_bind, exec_alloc]
    dsimp only
    rw [hv, Exec.exec_bind, exec_store hrolelen]
    dsimp only
    rw [Exec.exec_bind, hone.exec_copy hwk hwkle]
    dsimp only
    rw [Exec.exec_bind, htwo.exec_copy hbalance hbalancele]
    dsimp only
    rw [Exec.exec_bind, hthree.exec_copy hlicense hlicensele]
    dsimp only
    rw [Exec.exec_bind, hfour.exec_copy hstaked hstakedle]
    rfl
  · have hinit : isBufferValid (wk.read h) writerByteLength ∧
        isBufferValid (balance.read h) balanceByteLength ∧ isNodeRoleValid role ∧
          isBufferValid (license.read h) licenseByteLength ∧
            isBufferValid (stakedBalance.read h) balanceByteLength :=
      ⟨isBufferValid_read hwk hwklen, isBufferValid_read hbalance hbalancelen, hrole,
        isBufferValid_read hlicense hlicenselen, isBufferValid_read hstaked hstakedlen⟩
    rw [read_written hfour.fits (by rw [length_read hstaked]; exact hstakedle),
      read_written hthree.fits (by rw [length_read hlicense]; exact hlicensele),
      read_written htwo.fits (by rw [length_read hbalance]; exact hbalancele),
      read_written hone.fits (by rw [length_read hwk]; exact hwkle),
      read_written hzero.fits hrolelen, hzeroread, SettlementBus.NodeEntry.init, if_pos hinit,
      splice_zero_singleton (by decide)]
    rfl

/-- The fields that are decoded share the bytes of the entry. -/
theorem exec_decode (hentry : nodeEntry.bufferOf nodeEntrySize = some e) (he : e.Fits h) :
    ∃ d, (decode nodeEntry).exec h = (.ok (some d), h) ∧
      SettlementBus.NodeEntry.decode (e.read h) = some (d.read h) ∧
      ∀ v ∈ [d.wk, d.balance, d.license, d.stakedBalance], v.Fits h ∧ v.block = e.block := by
  have hlen := Argument.length_of_bufferOf hentry
  have hfits (start stop : ℕ) (hstart : start ≤ stop) (hstop : stop ≤ nodeEntrySize) :
      (e.subarray start stop).Fits h ∧ (e.subarray start stop).block = e.block :=
    ⟨he.subarray hstart (hlen ▸ hstop), rfl⟩
  refine ⟨views e ((e.read h).getD 0 0), ?_, ?_, ?_⟩
  · rw [decode, hentry]
    rfl
  · have hrole : (e.read h).getD 0 0 = (e.read h).headD 0 := by
      cases e.read h <;> rfl
    rw [SettlementBus.NodeEntry.decode, if_pos (isBufferValid_read he hlen), hrole,
      DecodedNodeEntry.read, views]
    dsimp only
    rw [read_subarray (hlen.symm ▸ (by decide : 1 + writerByteLength ≤ nodeEntrySize)),
      read_subarray (hlen.symm ▸
        (by decide : 1 + writerByteLength + balanceByteLength ≤ nodeEntrySize)),
      read_subarray (hlen.symm ▸ (by decide :
        1 + writerByteLength + balanceByteLength + licenseByteLength ≤ nodeEntrySize)),
      read_subarray (Nat.le_of_eq hlen.symm)]
    rfl
  · intro v hv
    simp only [views, List.mem_cons, List.not_mem_nil, or_false] at hv
    rcases hv with rfl | rfl | rfl | rfl
    · exact hfits _ _ (by decide) (by decide)
    · exact hfits _ _ (by decide) (by decide)
    · exact hfits _ _ (by decide) (by decide)
    · exact hfits _ _ (by decide) (by decide)

/-- What a setter leaves in memory: the entry that it returns, and all else as it was. -/
structure Done (h : Heap) (e : View) (inPlace : Prop) (e' : View) (h' : Heap) : Prop where
  length : e'.length = nodeEntrySize
  fits : e'.Fits h'
  fits_of : ∀ w : View, w.Fits h → w.Fits h'
  same : inPlace → e' = e
  read_eq : ∀ w : View, w.Fits h → (inPlace → w.Apart e) → w.read h' = w.read h
  apart : ¬inPlace → ∀ w : View, w.Fits h → w.block ≠ e'.block

theorem done_written {start : ℕ} {x : Buffer} (he : e.Fits h) (hlen : e.length = nodeEntrySize)
    (hx : start + x.length ≤ nodeEntrySize) : Done h e True e (e.written start x h) where
  length := hlen
  fits := he.written he (hlen ▸ hx)
  fits_of w hw := hw.written he (hlen ▸ hx)
  same _ := rfl
  read_eq w _ hw := by
    refine read_written_apart he (hlen ▸ hx) ?_
    rcases hw trivial with hblock | hbefore | hbehind
    · exact .inl hblock
    · exact .inr (.inl (by omega))
    · exact .inr (.inr (by omega))
  apart hcopy := absurd trivial hcopy

theorem done_fresh {v : View} {h' : Heap} (hv : v.Fresh h h') (hlen : v.length = nodeEntrySize) :
    Done h e False v h' where
  length := hlen
  fits := hv.fits
  fits_of := hv.fits_of
  same := False.elim
  read_eq w hw _ := hv.read_eq w hw
  apart _ _ hw := hv.block_ne hw

/-- The setters that write to their argument. -/
theorem exec_setInPlace (offset : ℕ) (hentry : nodeEntry.bufferOf nodeEntrySize = some e)
    (he : e.Fits h) (hvalue : value.bufferOf size = some v) (hv : v.Fits h)
    (hoffset : offset + size ≤ nodeEntrySize) : ∃ h',
      (setInPlace size offset nodeEntry value).exec h = (.ok (some e), h') ∧
        e.read h' = SettlementBus.copy (v.read h) (e.read h) offset ∧ Done h e True e h' := by
  have hlen := Argument.length_of_bufferOf hentry
  have hsize := Argument.length_of_bufferOf hvalue
  have hle : offset + v.length ≤ e.length := by rw [hlen, hsize]; exact hoffset
  have hread : offset + (v.read h).length ≤ e.length := by rw [length_read hv]; exact hle
  refine ⟨e.written offset (v.read h) h, ?_, read_written he hread, done_written he hlen ?_⟩
  · rw [setInPlace, hentry, hvalue]
    dsimp only
    rw [Exec.exec_bind, View.exec_copy hv hle]
    rfl
  · rw [← hlen]
    exact hread

theorem exec_clone (he : e.Fits h) (hlen : e.length = nodeEntrySize) : ∃ v h',
    (clone e).exec h = (.ok v, h') ∧ v.Fresh h h' ∧ v.length = nodeEntrySize ∧
      v.read h' = e.read h := by
  have hfresh : Fresh { block := h.length, offset := 0, length := nodeEntrySize } h
      (h ++ [List.replicate nodeEntrySize 0]) := fresh_alloc
  have hread := length_read he
  have hle : 0 + (e.read h).length ≤ nodeEntrySize := by omega
  refine ⟨_, _, ?_, hfresh.written hle, rfl, ?_⟩
  · rw [clone, Exec.exec_bind, exec_alloc]
    dsimp only
    rw [Exec.exec_bind, hfresh.exec_copy he (hread ▸ hle)]
    rfl
  · rw [read_written hfresh.fits hle, read_alloc, splice_zero]
    rw [hread, hlen, List.length_replicate]

theorem exec_setRole {a : Argument} (hentry : nodeEntry.bufferOf nodeEntrySize = some e)
    (he : e.Fits h) (hrole : a.nodeRoleOf = some role) : ∃ e' h',
      (setRole nodeEntry a).exec h = (.ok (some e'), h') ∧
        e'.read h' = (e.read h).set 0 role ∧ Done h e False e' h' := by
  have hlen := Argument.length_of_bufferOf hentry
  obtain ⟨v, h', hclone, hfresh, hvlen, hread⟩ := exec_clone he hlen
  have hpos : 0 < v.length := by rw [hvlen]; decide
  have hbytes : 0 < (v.read h').length := by rw [length_read hfresh.fits]; exact hpos
  refine ⟨v, v.written 0 [role] h', ?_, ?_, done_fresh (hfresh.written hpos) hvlen⟩
  · rw [setRole, hrole, hentry]
    dsimp only
    rw [Exec.exec_bind, hclone]
    dsimp only
    rw [Exec.exec_bind, exec_store hpos]
    rfl
  · rw [read_written hfresh.fits hpos, splice_zero_singleton hbytes, hread]

theorem exec_setStakedBalance (hentry : nodeEntry.bufferOf nodeEntrySize = some e) (he : e.Fits h)
    (hvalue : value.bufferOf balanceByteLength = some v) (hv : v.Fits h) : ∃ e' h',
      (setStakedBalance nodeEntry value).exec h = (.ok (some e'), h') ∧
        e'.read h' = SettlementBus.copy (v.read h) (e.read h)
          (writerByteLength + balanceByteLength + licenseByteLength + 1) ∧
        Done h e False e' h' := by
  obtain ⟨w, h', hclone, hfresh, hwlen, hread⟩ :=
    exec_clone he (Argument.length_of_bufferOf hentry)
  have hle : writerByteLength + balanceByteLength + licenseByteLength + 1 + v.length ≤
      w.length := by
    rw [hwlen, Argument.length_of_bufferOf hvalue]
    decide
  have hle' := hle
  rw [← length_read hv] at hle'
  refine ⟨w, _, ?_, ?_, done_fresh (hfresh.written hle') hwlen⟩
  · rw [setStakedBalance, hentry, hvalue]
    dsimp only
    rw [Exec.exec_bind, hclone]
    dsimp only
    rw [Exec.exec_bind, hfresh.exec_copy hv hle]
    rfl
  · rw [read_written hfresh.fits hle', hread]
    rfl

/-- The key that is written is the one that was given, if it is no view of the role. -/
theorem exec_setRoleAndWriterKey {a : Argument}
    (hentry : nodeEntry.bufferOf nodeEntrySize = some e) (he : e.Fits h)
    (hrole : a.nodeRoleOf = some role) (hvalue : value.bufferOf writerByteLength = some v)
    (hv : v.Fits h)
    (hkey : v.block ≠ e.block ∨ v.offset + v.length ≤ e.offset ∨ e.offset + 1 ≤ v.offset) : ∃ h',
      (setRoleAndWriterKey nodeEntry a value).exec h = (.ok (some e), h') ∧
        e.read h' = SettlementBus.copy (v.read h) ((e.read h).set 0 role) 1 ∧
        Done h e True e h' := by
  have hlen := Argument.length_of_bufferOf hentry
  have hpos : 0 < e.length := by rw [hlen]; decide
  have hbytes : 0 < (e.read h).length := by rw [length_read he]; exact hpos
  have hle : 1 + v.length ≤ e.length := by
    rw [hlen, Argument.length_of_bufferOf hvalue]
    decide
  have hfits : v.Fits (e.written 0 [role] h) := hv.written he hpos
  have hfirst : Done h e True e (e.written 0 [role] h) := done_written he hlen (hlen ▸ hpos)
  have hle' : 1 + (v.read h).length ≤ e.length := by rw [length_read hv]; exact hle
  have hread : v.read (e.written 0 [role] h) = v.read h := read_written_apart he hpos hkey
  have hsecond : Done (e.written 0 [role] h) e True e
      (e.written 1 (v.read h) (e.written 0 [role] h)) :=
    done_written hfirst.fits hlen (hlen ▸ hle')
  refine ⟨_, ?_, ?_, ⟨hlen, hsecond.fits, fun w hw => hsecond.fits_of w (hfirst.fits_of w hw),
    fun _ => rfl, fun w hw hapart => ?_, fun hcopy => absurd trivial hcopy⟩⟩
  · rw [setRoleAndWriterKey, hrole, hvalue, hentry]
    dsimp only
    rw [Exec.exec_bind, exec_store hpos]
    dsimp only
    rw [Exec.exec_bind, View.exec_copy hfits hle, hread]
    rfl
  · rw [read_written hfirst.fits hle', read_written he hpos, splice_zero_singleton hbytes]
    rfl
  · rw [hsecond.read_eq w (hfirst.fits_of w hw) hapart, hfirst.read_eq w hw hapart]

theorem exec_setInPlace_none (hnone : nodeEntry.bufferOf nodeEntrySize = none ∨
    value.bufferOf size = none) :
    (setInPlace size offset nodeEntry value).exec h = (.ok none, h) := by
  rw [setInPlace]
  rcases hnone with hentry | hvalue
  · rw [hentry]
    rfl
  · rw [hvalue]
    cases nodeEntry.bufferOf nodeEntrySize <;> rfl

end NodeEntry

namespace SetterCall

variable {s : SetterCall} {t : Setter UInt8 Buffer Balance}

/-- A refused call returns null, and memory is as it was. -/
theorem exec_run_none (hnone : nodeEntry.bufferOf nodeEntrySize = none ∨ s.Refused) :
    (s.run nodeEntry).exec h = (.ok none, h) := by
  cases s with
  | setRole nodeRole =>
    rw [run, NodeEntry.setRole]
    rcases hnone with hentry | hrole
    · rw [hentry]
      cases nodeRole.nodeRoleOf <;> rfl
    · rw [show nodeRole.nodeRoleOf = none from hrole]
      rfl
  | setWritingKey writingKey => exact NodeEntry.exec_setInPlace_none hnone
  | setBalance balance => exact NodeEntry.exec_setInPlace_none hnone
  | setLicense license => exact NodeEntry.exec_setInPlace_none hnone
  | setStakedBalance stakedBalance =>
    rw [run, NodeEntry.setStakedBalance]
    rcases hnone with hentry | hvalue
    · rw [hentry]
      rfl
    · rw [show stakedBalance.bufferOf balanceByteLength = none from hvalue]
      cases nodeEntry.bufferOf nodeEntrySize <;> rfl
  | setRoleAndWriterKey nodeRole writingKey =>
    rw [run, NodeEntry.setRoleAndWriterKey]
    rcases hnone with hentry | hrole | hvalue
    · rw [hentry]
      cases nodeRole.nodeRoleOf <;> cases writingKey.bufferOf writerByteLength <;> rfl
    · rw [hrole]
      rfl
    · rw [hvalue]
      cases nodeRole.nodeRoleOf <;> rfl
  | update balance => exact NodeEntry.exec_setInPlace_none (hnone.imp_right False.elim)

/-- A call does in memory what the setter does on the bytes. -/
theorem exec_run (hentry : nodeEntry.bufferOf nodeEntrySize = some e) (he : e.Fits h)
    (hreads : s.Reads h t) (hkey : s.KeyApart e) : ∃ e' h',
      (s.run nodeEntry).exec h = (.ok (some e'), h') ∧ t.apply (e.read h) = some (e'.read h') ∧
        NodeEntry.Done h e s.InPlace e' h' := by
  have hvalid := isBufferValid_read he (Argument.length_of_bufferOf hentry)
  cases hreads with
  | setRole hrole =>
    obtain ⟨e', h', hexec, hread, hdone⟩ := NodeEntry.exec_setRole hentry he hrole
    refine ⟨e', h', hexec, ?_, hdone⟩
    rw [hread]
    exact if_pos ⟨Argument.isNodeRoleValid_of_nodeRoleOf hrole, hvalid⟩
  | setWritingKey hvalue hv =>
    obtain ⟨h', hexec, hread, hdone⟩ :=
      NodeEntry.exec_setInPlace 1 hentry he hvalue hv (by decide)
    refine ⟨e, h', hexec, ?_, hdone⟩
    rw [hread]
    exact if_pos ⟨hvalid, isBufferValid_read hv (Argument.length_of_bufferOf hvalue)⟩
  | setBalance hvalue hv =>
    obtain ⟨h', hexec, hread, hdone⟩ :=
      NodeEntry.exec_setInPlace (writerByteLength + 1) hentry he hvalue hv (by decide)
    refine ⟨e, h', hexec, ?_, hdone⟩
    rw [hread]
    exact if_pos ⟨hvalid, isBufferValid_read hv (Argument.length_of_bufferOf hvalue)⟩
  | setLicense hvalue hv =>
    obtain ⟨h', hexec, hread, hdone⟩ := NodeEntry.exec_setInPlace
      (writerByteLength + balanceByteLength + 1) hentry he hvalue hv (by decide)
    refine ⟨e, h', hexec, ?_, hdone⟩
    rw [hread]
    exact if_pos ⟨hvalid, isBufferValid_read hv (Argument.length_of_bufferOf hvalue)⟩
  | setStakedBalance hvalue hv =>
    obtain ⟨e', h', hexec, hread, hdone⟩ :=
      NodeEntry.exec_setStakedBalance hentry he hvalue hv
    refine ⟨e', h', hexec, ?_, hdone⟩
    rw [hread]
    exact if_pos ⟨hvalid, isBufferValid_read hv (Argument.length_of_bufferOf hvalue)⟩
  | setRoleAndWriterKey hrole hvalue hv =>
    obtain ⟨rfl, hlength⟩ := Argument.bufferOf_eq_some.mp hvalue
    obtain ⟨h', hexec, hread, hdone⟩ :=
      NodeEntry.exec_setRoleAndWriterKey hentry he hrole hvalue hv hkey
    refine ⟨e, h', hexec, ?_, hdone⟩
    rw [hread]
    exact if_pos ⟨Argument.isNodeRoleValid_of_nodeRoleOf hrole, isBufferValid_read hv hlength,
      hvalid⟩
  | @update a b hv hvalue =>
    have hbuffer : (Argument.buffer a.value).bufferOf balanceByteLength = some a.value :=
      if_pos a.length_value
    obtain ⟨h', hexec, hread, hdone⟩ :=
      NodeEntry.exec_setInPlace (writerByteLength + 1) hentry he hbuffer hv (by decide)
    refine ⟨e, h', hexec, ?_, hdone⟩
    rw [hread, ← hvalue]
    exact if_pos ⟨hvalid, isBufferValid_value b⟩

/-- A call whose buffers are in memory is refused or has values. -/
theorem refused_or_reads (hfits : s.Fits h) : s.Refused ∨ ∃ t, s.Reads h t := by
  cases s with
  | setRole nodeRole =>
    cases hrole : nodeRole.nodeRoleOf with
    | none => exact .inl hrole
    | some role => exact .inr ⟨_, .setRole hrole⟩
  | setWritingKey writingKey =>
    rcases writingKey.eq_none_or_fits writerByteLength hfits with hnone | ⟨v, hv, hfits⟩
    · exact .inl hnone
    · exact .inr ⟨_, .setWritingKey hv hfits⟩
  | setBalance balance =>
    rcases balance.eq_none_or_fits balanceByteLength hfits with hnone | ⟨v, hv, hfits⟩
    · exact .inl hnone
    · exact .inr ⟨_, .setBalance hv hfits⟩
  | setLicense license =>
    rcases license.eq_none_or_fits licenseByteLength hfits with hnone | ⟨v, hv, hfits⟩
    · exact .inl hnone
    · exact .inr ⟨_, .setLicense hv hfits⟩
  | setStakedBalance stakedBalance =>
    rcases stakedBalance.eq_none_or_fits balanceByteLength hfits with hnone | ⟨v, hv, hfits⟩
    · exact .inl hnone
    · exact .inr ⟨_, .setStakedBalance hv hfits⟩
  | setRoleAndWriterKey nodeRole writingKey =>
    cases hrole : nodeRole.nodeRoleOf with
    | none => exact .inl (.inl hrole)
    | some role =>
      rcases writingKey.eq_none_or_fits writerByteLength hfits with hnone | ⟨v, hv, hfits⟩
      · exact .inl (.inr hnone)
      · exact .inr ⟨_, .setRoleAndWriterKey hrole hv hfits⟩
  | update balance =>
    have hlength : (balance.value.read h).length = balanceByteLength :=
      (length_read hfits).trans balance.length_value
    exact .inr ⟨.update ⟨_, hlength⟩, .update hfits rfl⟩

end SetterCall

namespace NodeEntry

/-- The buffers of the fields pass the checks of `init` and `encode`. -/
structure FieldViews (h : Heap) (wk balance license stakedBalance : Argument) (w b l s : View) :
    Prop where
  wk : wk.bufferOf writerByteLength = some w
  balance : balance.bufferOf balanceByteLength = some b
  license : license.bufferOf licenseByteLength = some l
  stakedBalance : stakedBalance.bufferOf balanceByteLength = some s
  fits : ∀ v ∈ [w, b, l, s], v.Fits h

theorem exec_checkAndFill {wk balance license stakedBalance : Argument} {w b l s : View}
    (hfields : FieldViews h wk balance license stakedBalance w b l s)
    (hrole : isNodeRoleValid role) : ∃ v h',
      (checkAndFill wk (some role) balance license stakedBalance).exec h = (.ok v, h') ∧
        v.Fresh h h' ∧ v.read h' =
          SettlementBus.NodeEntry.init (w.read h) role (b.read h) (l.read h) (s.read h) := by
  rw [checkAndFill, hfields.wk, hfields.balance, hfields.license, hfields.stakedBalance]
  exact exec_fill (hfields.fits w (by simp)) (hfields.fits b (by simp)) (hfields.fits l (by simp))
    (hfields.fits s (by simp)) hrole (Argument.length_of_bufferOf hfields.wk)
    (Argument.length_of_bufferOf hfields.balance) (Argument.length_of_bufferOf hfields.license)
    (Argument.length_of_bufferOf hfields.stakedBalance)

/-- In memory an entry is made of copies, and decoded as views. -/
structure Lawful : Prop where
  inits : ∀ {h : Heap} {wk nodeRole balance license stakedBalance : Argument} {w b l s : View}
    {role : UInt8}, FieldViews h wk balance license stakedBalance w b l s →
      nodeRole.nodeRoleOf = some role → ∃ v h',
        (init wk nodeRole balance license stakedBalance).exec h = (.ok v, h') ∧ v.Fresh h h' ∧
          v.read h' =
            SettlementBus.NodeEntry.init (w.read h) role (b.read h) (l.read h) (s.read h)
  encodes : ∀ {h : Heap} {node : NodeObject} {d : SettlementBus.DecodedNodeEntry} {w b l s : View},
    FieldViews h node.wk node.balance node.license node.stakedBalance w b l s → d = {
        wk := w.read h
        isWhitelisted := node.isWhitelisted
        isWriter := node.isWriter
        isIndexer := node.isIndexer
        balance := b.read h
        license := l.read h
        stakedBalance := s.read h } → isNodeRoleValid d.role → ∃ v h',
      (encode node).exec h = (.ok v, h') ∧ v.Fresh h h' ∧
        v.read h' = SettlementBus.NodeEntry.encode d
  decodes : ∀ {h : Heap} {nodeEntry : Argument} {e : View},
    nodeEntry.bufferOf nodeEntrySize = some e → e.Fits h → ∃ d,
      (decode nodeEntry).exec h = (.ok (some d), h) ∧
        SettlementBus.NodeEntry.decode (e.read h) = some (d.read h) ∧
          ∀ v ∈ [d.wk, d.balance, d.license, d.stakedBalance], v.Fits h ∧ v.block = e.block

theorem lawful : Lawful where
  inits := by
    intro h wk nodeRole balance license stakedBalance w b l s role hfields hrole
    rw [init, hrole]
    exact exec_checkAndFill hfields (Argument.isNodeRoleValid_of_nodeRoleOf hrole)
  encodes := by
    intro h node d w b l s hfields hd hrole
    subst hd
    change isNodeRoleValid
      (calculateNodeRole node.isWhitelisted node.isWriter node.isIndexer) at hrole
    rw [encode, if_pos hrole]
    exact exec_checkAndFill hfields hrole
  decodes := exec_decode

end NodeEntry

namespace SetterCall

/-- In memory the setters do to the entry what they do to its bytes, and nothing else. -/
structure Lawful : Prop where
  refuses : ∀ {h : Heap} {nodeEntry : Argument} {s : SetterCall},
    nodeEntry.bufferOf nodeEntrySize = none ∨ s.Refused →
      (s.run nodeEntry).exec h = (.ok none, h)
  applies : ∀ {h : Heap} {nodeEntry : Argument} {e : View} {s : SetterCall},
    nodeEntry.bufferOf nodeEntrySize = some e → e.Fits h → s.Fits h → ¬s.Refused →
      s.KeyApart e → ∃ t e' h', s.Reads h t ∧ (s.run nodeEntry).exec h = (.ok (some e'), h') ∧
        t.apply (e.read h) = some (e'.read h') ∧ NodeEntry.Done h e s.InPlace e' h'

theorem lawful : Lawful where
  refuses := exec_run_none
  applies := by
    intro h nodeEntry e s hentry he hs hrefused hkey
    obtain ⟨t, hreads⟩ := (refused_or_reads hs).resolve_left hrefused
    obtain ⟨e', h', hrun⟩ := exec_run hentry he hreads hkey
    exact ⟨t, e', h', hreads, hrun⟩

end SetterCall

end SettlementBus.Memory

namespace SettlementBus

/-- The setters are those of a record. -/
structure Setter.Lawful : Prop where
  changes : ∀ {e : Buffer} {s : Setter UInt8 Buffer Balance}, IsNodeEntry e → s.Valid →
    ∃ e', s.apply e = some e' ∧ IsNodeEntry e' ∧
      NodeEntry.decode e' = (NodeEntry.decode e).map fun d => s.change d
  commutes : ∀ {e : Buffer} {s t : Setter UInt8 Buffer Balance}, IsNodeEntry e → s.Valid →
    t.Valid → (∀ f ∈ s.fields, f ∉ t.fields) →
      ((s.apply e).bind fun e' => t.apply e') = (t.apply e).bind fun e' => s.apply e'
  overwrites : ∀ {e : Buffer} {s t : Setter UInt8 Buffer Balance}, IsNodeEntry e → s.Valid →
    t.Valid → (∀ f ∈ s.fields, f ∈ t.fields) →
      ((s.apply e).bind fun e' => t.apply e') = t.apply e
  refuses : ∀ {e : Buffer} {s : Setter UInt8 Buffer Balance},
    ¬s.Valid ∨ ¬isBufferValid e nodeEntrySize → s.apply e = none

theorem Setter.lawful : Setter.Lawful where
  changes := by
    intro e s he hs
    obtain ⟨a, rfl⟩ := he.exists_account
    obtain ⟨a', happly, hdecoded⟩ := Setter.apply_toBuffer a hs
    refine ⟨_, happly, a'.isNodeEntry_toBuffer, ?_⟩
    rw [a'.decode_eq_decoded, a.decode_eq_decoded, hdecoded]
    rfl
  commutes := by
    intro e s t he hs ht hfields
    obtain ⟨a, rfl⟩ := he.exists_account
    obtain ⟨b, hsb, hb⟩ := Setter.apply_toBuffer a hs
    obtain ⟨c, htc, hc⟩ := Setter.apply_toBuffer a ht
    obtain ⟨b', htb, hb'⟩ := Setter.apply_toBuffer b ht
    obtain ⟨c', hsc, hc'⟩ := Setter.apply_toBuffer c hs
    have hsame : b' = c' := by
      apply Account.decoded_injective
      rw [hb', hc', hb, hc, Setter.change_comm hfields]
    rw [hsb, htc, Option.bind_some, Option.bind_some, htb, hsc, hsame]
  overwrites := by
    intro e s t he hs ht hfields
    obtain ⟨a, rfl⟩ := he.exists_account
    obtain ⟨b, hsb, hb⟩ := Setter.apply_toBuffer a hs
    obtain ⟨c, htc, hc⟩ := Setter.apply_toBuffer a ht
    obtain ⟨b', htb, hb'⟩ := Setter.apply_toBuffer b ht
    have hsame : b' = c := by
      apply Account.decoded_injective
      rw [hb', hc, hb, Setter.change_change hfields]
    rw [hsb, htc, Option.bind_some, htb, hsame]
  refuses := Setter.apply_eq_none

/-- A node entry is a record with independent fields. -/
theorem nodeEntry_record :
    (∀ wk role balance license stakedBalance, wk.length = writerByteLength →
      isNodeRoleValid role → balance.length = balanceByteLength →
      license.length = licenseByteLength → stakedBalance.length = balanceByteLength →
      NodeEntry.decode (NodeEntry.init wk role balance license stakedBalance) = some {
        wk
        isWhitelisted := role &&& whitelistedMask ≠ 0
        isWriter := role &&& writerMask ≠ 0
        isIndexer := role &&& indexerMask ≠ 0
        balance
        license
        stakedBalance }) ∧
      (∀ d : DecodedNodeEntry, d.WellFormed → NodeEntry.decode (NodeEntry.encode d) = some d) ∧
      (∀ e, IsNodeEntry e → ∃ d, NodeEntry.decode e = some d ∧ NodeEntry.encode d = e ∧
        NodeEntry.isWhitelisted e = d.isWhitelisted ∧ NodeEntry.isWriter e = d.isWriter ∧
        NodeEntry.isIndexer e = d.isIndexer) ∧
      Setter.Lawful ∧ Memory.NodeEntry.Lawful ∧ Memory.SetterCall.Lawful := by
  refine ⟨fun wk role balance license stakedBalance hwk hrole hbalance hlicense hstaked => ?_,
    fun d hd => ?_, fun e he => ?_, Setter.lawful,
    Memory.NodeEntry.lawful, Memory.SetterCall.lawful⟩
  · obtain ⟨r, rfl⟩ := exists_byte hrole
    have hinit := Account.init_toBuffer ⟨r, wk, hwk, ⟨balance, hbalance⟩, license, hlicense,
      ⟨stakedBalance, hstaked⟩⟩
    rw [hinit, Account.decode_toBuffer, r.byte_and_whitelistedMask, r.byte_and_writerMask,
      r.byte_and_indexerMask]
  · obtain ⟨a, rfl⟩ := hd.exists_account
    rw [a.encode_decoded, a.decode_eq_decoded]
  · obtain ⟨a, rfl⟩ := he.exists_account
    exact ⟨a.decoded, a.decode_eq_decoded, a.encode_decoded, a.isWhitelisted_toBuffer,
      a.isWriter_toBuffer, a.isIndexer_toBuffer⟩

end SettlementBus
