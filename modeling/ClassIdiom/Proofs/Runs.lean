import ClassIdiom.Conversion
import ClassIdiom.Proofs.Logged

/-! # Runs of a conversion

A conversion at once has the result of its four stages one after the other (`result_convert`), each
failure marked with its stage. Taken step by step, it passes through the phases that
`Converter.Reaches` describes; where the conversion fails, one of these phases cannot advance. -/

namespace ClassIdiom

theorem Stage.result_run {α : Type} (s : Stage) (typeName : String) (x : Logged Failure α) :
    (s.run typeName x).result = x.result.mapError (StageFailure.mk s) := by
  unfold Stage.run
  rw [Logged.result_bind, Logged.result_mapError]
  cases x.result <;> rfl

theorem Stage.run_ok_iff {α : Type} {s : Stage} {typeName : String} {x : Logged Failure α} {a : α} :
    (s.run typeName x).result = .ok a ↔ x.result = .ok a := by
  rw [Stage.result_run]
  cases x.result <;> simp [Except.mapError]

theorem Stage.run_error_iff {α : Type} {s : Stage} {typeName : String} {x : Logged Failure α}
    {f : StageFailure} :
    (s.run typeName x).result = .error f ↔ ∃ e, x.result = .error e ∧ ⟨s, e⟩ = f := by
  rw [Stage.result_run, Logged.except_mapError_error_iff]

namespace Converter

variable {t : Converter} {d : Decl}

/-- **The result of a conversion**, stage after stage and without the events. -/
theorem result_convert (t : Converter) (d : Decl) :
    (t.convert d).result = (do
      let m ← (d.mapped t.profile).result.mapError (.mk .mapping)
      let f ← (Mapped.flattened m t.profile.naming).result.mapError (.mk .expansion)
      let c ← (Flat.resolved f t.hierarchy).result.mapError (.mk .inheritance)
      (t.emit c).mapError (.mk .emission)) := by
  unfold convert map flatten resolve write
  simp only [Logged.result_bind, Stage.result_run, Logged.result_ofExcept]

/-- **The phases that a conversion comes to**, from a declaration that is loaded. -/
inductive Reaches (t : Converter) (d : Decl) : Phase → Prop where
  | start : Reaches t d (.loaded d)
  | step {q q' : Phase} (reached : Reaches t d q) (next : (t.advance q).result = .ok q') :
    Reaches t d q'

/-- A conversion that fails comes to a phase that cannot advance, for the same reason. -/
theorem exists_reaches_of_convert_error {f : StageFailure}
    (h : (t.convert d).result = .error f) :
    ∃ q, t.Reaches d q ∧ (t.advance q).result = .error f := by
  unfold convert at h
  rcases Logged.bind_error_iff.mp h with h | ⟨m, hm, h⟩
  · exact ⟨.loaded d, .start, Logged.map_error_iff.mpr h⟩
  have hmapped : t.Reaches d (.mapped m) := .step .start (Logged.map_ok_iff.mpr ⟨m, hm, rfl⟩)
  rcases Logged.bind_error_iff.mp h with h | ⟨f, hf, h⟩
  · exact ⟨.mapped m, hmapped, Logged.map_error_iff.mpr h⟩
  have hflat : t.Reaches d (.flat f) := .step hmapped (Logged.map_ok_iff.mpr ⟨f, hf, rfl⟩)
  rcases Logged.bind_error_iff.mp h with h | ⟨c, hc, h⟩
  · exact ⟨.flat f, hflat, Logged.map_error_iff.mpr h⟩
  exact ⟨.resolved c, .step hflat (Logged.map_ok_iff.mpr ⟨c, hc, rfl⟩),
    Logged.map_error_iff.mpr h⟩

end Converter

end ClassIdiom
