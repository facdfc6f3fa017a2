import SettlementBus.Invariants.Counter
import SettlementBus.Sample

/-! Licenses and the writers index only grow. -/

namespace SettlementBus

open Lib View

variable {env : Env} {w w' w'' : World} {es : List Event}

/-- Entries `li/<i>` and `wri/<i>`, and the accounts they name. -/
structure World.Registries (env : Env) (w : World) : Prop where
  license_named : ∀ i, 0 < i → i ≤ licenseCounter.count w → ∃ b s a,
    w.view.get (.licenseIndex i) = some b ∧ bufferToAddress env b = some s ∧ w.Has s a ∧
      Bytes.toNat a.license = i
  license_indexed : ∀ s a, w.Has s a → a.license ≠ zeroLicense →
    Bytes.toNat a.license ≤ licenseCounter.count w ∧ ∃ b,
      w.view.get (.licenseIndex (Bytes.toNat a.license)) = some b ∧ bufferToAddress env b = some s
  license_unique : ∀ s t a b, w.Has s a → w.Has t b → a.license = b.license →
    a.license ≠ zeroLicense → s = t
  writer_named : ∀ i, i < writersCounter.count w → ∃ b s a,
    w.view.get (.writersIndex i) = some b ∧ bufferToAddress env b = some s ∧ w.Has s a
  writer_bounded : ∀ i, writersCounter.count w ≤ i → w.view.get (.writersIndex i) = none
  writer_listed : ∀ s a, w.Has s a → a.role = .writer ∨ a.role = .indexer →
    ∃ i b, i < writersCounter.count w ∧ w.view.get (.writersIndex i) = some b ∧
      bufferToAddress env b = some s

/-- Counts do not decrease, indices keep their names and accounts their licenses. -/
structure RegistriesKept (w w' : World) : Prop where
  licenses : licenseCounter.Kept w w'
  writers : writersCounter.Kept w w'
  license : ∀ s a, w.Has s a → a.license ≠ zeroLicense → ∃ a', w'.Has s a' ∧ a'.license = a.license

theorem World.licenseNumber_pos {s : Str} {a : Account} (ha : w.Has s a)
    (hne : a.license ≠ zeroLicense) : 0 < w.licenseNumber s := by
  rw [World.licenseNumber_eq ha]
  exact Nat.pos_of_ne_zero fun h => hne (Account.toNat_license_eq_zero.mp h)

theorem World.exists_of_licenseNumber_pos (hw : w.WellFormed) {s : Str}
    (h : 0 < w.licenseNumber s) : ∃ a, w.Has s a := by
  cases hget : w.view.get (.account s) with
  | none =>
    rw [World.licenseNumber_eq_zero hget] at h
    exact absurd h (Nat.lt_irrefl 0)
  | some v =>
    obtain ⟨a, -, ha⟩ := hw.has hget
    exact ⟨a, ha⟩

theorem World.Enumerated.registries (h : w.Enumerated env) (hw : w.WellFormed) :
    w.Registries env where
  license_named i hpos hi := by
    obtain ⟨s, hname, hnum⟩ := h.licenses.named hpos hi
    obtain ⟨b, hb, hs⟩ := Option.bind_eq_some_iff.mp hname
    have hnum : w.licenseNumber s = i := hnum
    obtain ⟨a, ha⟩ := World.exists_of_licenseNumber_pos hw (s := s) (hnum ▸ hpos)
    exact ⟨b, s, a, hb, hs, ha, (World.licenseNumber_eq ha).symm.trans hnum⟩
  license_indexed s a ha hne := by
    obtain ⟨hle, hname⟩ := h.licenses.numbered (World.licenseNumber_pos ha hne)
    have hnum : (w.licenses env).number s = Bytes.toNat a.license := World.licenseNumber_eq ha
    rw [hnum] at hle hname
    exact ⟨hle, Option.bind_eq_some_iff.mp hname⟩
  license_unique s t a b ha hb heq hne := by
    refine h.licenses.unique ?_ (World.licenseNumber_pos ha hne)
    show w.licenseNumber s = w.licenseNumber t
    rw [World.licenseNumber_eq ha, World.licenseNumber_eq hb, heq]
  writer_named i hi := by
    obtain ⟨s, hname, hs⟩ := h.writers.named hi
    obtain ⟨b, hb, hbs⟩ := Option.bind_eq_some_iff.mp hname
    obtain ⟨v, hv⟩ := Option.isSome_iff_exists.mp hs
    obtain ⟨a, -, ha⟩ := hw.has hv
    exact ⟨b, s, a, hb, hbs, ha⟩
  writer_bounded i hi := by
    by_contra hne
    have := h.writersIndex i (Option.isSome_iff_ne_none.mpr hne)
    exact Nat.lt_irrefl _ (Nat.lt_of_lt_of_le this hi)
  writer_listed s a ha hrole := by
    have hwriter : a.role.isWriter := by
      obtain hrole | hrole := hrole <;> rw [hrole] <;> rfl
    obtain ⟨i, hi, hname⟩ := h.writers.listed ⟨a, ha, hwriter⟩
    obtain ⟨b, hb, hbs⟩ := Option.bind_eq_some_iff.mp hname
    exact ⟨i, b, hi, hb, hbs⟩

theorem RegistriesKept.refl (w : World) : RegistriesKept w w :=
  ⟨.refl _ w, .refl _ w, fun _ a ha _ => ⟨a, ha, rfl⟩⟩

theorem RegistriesKept.trans (h : RegistriesKept w w') (h' : RegistriesKept w' w'') :
    RegistriesKept w w'' where
  licenses := h.licenses.trans h'.licenses
  writers := h.writers.trans h'.writers
  license s a ha hne := by
    obtain ⟨a', ha', hl⟩ := h.license s a ha hne
    obtain ⟨a'', ha'', hl'⟩ := h'.license s a' ha' (hl ▸ hne)
    exact ⟨a'', ha'', hl'.trans hl⟩

theorem Event.Step.registriesKept {e : Event} (hs : e.Step env) (hw : e.before.WellFormed)
    (hf : e.before.Founded env) (h : e.before.Enumerated env) :
    RegistriesKept e.before e.after where
  licenses := (hs.assigns hw hf).kept h.licenseIndex
  writers := (hs.appends hw).kept h.writersIndex
  license s a ha hne := by
    have hpos := World.licenseNumber_pos ha hne
    have hnum : e.after.licenseNumber s = e.before.licenseNumber s :=
      (hs.assigns hw hf).grows.number hpos
    obtain ⟨a', ha'⟩ := World.exists_of_licenseNumber_pos (hs.wellFormed hw) (hnum ▸ hpos)
    rw [World.licenseNumber_eq ha, World.licenseNumber_eq ha'] at hnum
    exact ⟨a', ha', Bytes.toNat_inj (a'.length_license.trans a.length_license.symm) hnum⟩

/-- From a reachable state on, every run keeps the licenses and the writers index and extends them
at their ends. -/
theorem registries_of_run (hw : Reachable env w) (hrun : Run env w es w') :
    w'.Registries env ∧ RegistriesKept w w' ∧
      ∀ e ∈ es, e.before.Registries env ∧ e.after.Registries env ∧
        RegistriesKept e.before e.after := by
  let P : World → Prop := fun w => w.Founded env ∧ w.Enumerated env
  have hstep : ∀ e : Event, e.Step env → e.before.WellFormed → P e.before → P e.after :=
    fun e hs hwf h => ⟨hs.founded h.1, hs.enumerated hwf h.1 h.2⟩
  have hinv : P w := hw.invariant ⟨.inl rfl, enumerated_genesis⟩ hstep
  have hp := hrun.path hw.wellFormed
  have hend : P w' := hp.invariant hw.wellFormed hinv fun e _ => hstep e
  refine ⟨hend.2.registries (hp.wellFormed hw.wellFormed), ?_, fun e he => ?_⟩
  · have hpres := hp.invariant (P := fun w' => P w' ∧ RegistriesKept w w') hw.wellFormed ⟨hinv, .refl w⟩ fun e _ hs hwf h =>
      ⟨hstep e hs hwf h.1, h.2.trans (hs.registriesKept hwf h.1.1 h.1.2)⟩
    exact hpres.2
  · obtain ⟨hs, hwf, hbefore⟩ := hp.mem hw.wellFormed hinv hstep he
    exact ⟨hbefore.2.registries hwf, (hstep e hs hwf hbefore).2.registries (hs.wellFormed hwf),
      hs.registriesKept hwf hbefore.1 hbefore.2⟩

namespace Sample

theorem registries_of_run_funded : funded.Registries network ∧ RegistriesKept founded funded ∧
    ∀ e ∈ events network [block bootstrap fundAliceOp] founded, e.before.Registries network ∧
      e.after.Registries network ∧ RegistriesKept e.before e.after :=
  registries_of_run reachable_founded (.single (Env.apply_eq_after (by decide +kernel)))

end Sample

end SettlementBus
