import GradleScript.Proofs.Simulation.Reading

namespace GradleScript

/-!
# Two states whose names are read alike

A naming simulation also keeps what the reading of a name depends on: how far the name has been
read, and what a name resolves to.  Then every construct leads from related states to related
states.
-/

namespace State

/-- A simulation that the reading of names keeps too. -/
structure NamingSimulation (follows : Text → Text → Prop) (related : State → State → Prop) : Prop
    extends Simulation follows related where
  interpolation {first second : State} :
    related first second → second.session.interpolation = first.session.interpolation
  escapes {first second : State} :
    related first second →
      (second.frame.previous = some '\\' ↔ first.frame.previous = some '\\')
  withInterpolation {first second : State} (interpolation : Interpolation) :
    related first second →
      related (first.withInterpolation interpolation) (second.withInterpolation interpolation)
  resolved {first second : State} (name fallback : Text) :
    related first second →
      (second.session.journal.resolve name fallback).1 =
        (first.session.journal.resolve name fallback).1
  resolve {first second : State} (name fallback : Text) :
    related first second →
      related (first.withJournal (first.session.journal.resolve name fallback).2)
        (second.withJournal (second.session.journal.resolve name fallback).2)

namespace NamingSimulation

variable {follows : Text → Text → Prop} {related : State → State → Prop} {first second : State}

/-- What a complete name resolves to is spliced alike. -/
theorem spliceName
    (simulation : NamingSimulation follows related)
    (areRelated : related first second) :
    related first.spliceName second.spliceName := by
  have spliced (state : State) :
      state.spliceName =
        ((state.withJournal
          (state.session.journal.resolve state.session.interpolation.name
            state.session.interpolation.written).2).append
          (state.session.journal.resolve state.session.interpolation.name
            state.session.interpolation.written).1).withInterpolation
          state.session.interpolation.closed :=
    rfl
  rw [spliced first, spliced second, simulation.interpolation areRelated,
    simulation.resolved _ _ areRelated]
  exact simulation.withInterpolation _
    (simulation.append (simulation.resolve _ _ areRelated) _)

/-- A name without a value is restored in related states alike. -/
theorem restoreName
    (simulation : NamingSimulation follows related)
    (areRelated : related first second) :
    related first.restoreName second.restoreName := by
  unfold State.restoreName
  rw [simulation.interpolation areRelated]
  exact simulation.withInterpolation _ (simulation.append areRelated _)

/-- A name that the next character cannot belong to ends alike. -/
theorem settle
    (simulation : NamingSimulation follows related)
    (areRelated : related first second)
    (ch : Char) :
    related (first.settle ch) (second.settle ch) := by
  unfold State.settle
  rw [simulation.commentOpen areRelated, simulation.form areRelated]
  split
  · exact areRelated
  · split
    · exact areRelated
    · split
      · exact simulation.restoreName areRelated
      · exact areRelated
    · split
      · exact simulation.spliceName areRelated
      · exact areRelated

/-- A name that the end of the text cuts off ends alike. -/
theorem settleEnd
    (simulation : NamingSimulation follows related)
    (areRelated : related first second) :
    related first.settleEnd second.settleEnd := by
  unfold State.settleEnd
  rw [simulation.form areRelated]
  split
  · exact areRelated
  · exact simulation.restoreName areRelated
  · exact simulation.spliceName areRelated

/-- A dollar sign begins a name in both of two related states or in neither. -/
theorem beginsName_eq
    (simulation : NamingSimulation follows related)
    (areRelated : related first second)
    (ch : Char) :
    second.beginsName ch = first.beginsName ch := by
  unfold beginsName
  rw [simulation.interpolation areRelated]
  congr 1
  rw [Bool.eq_iff_iff, bne_iff_ne, bne_iff_ne]
  exact not_congr (simulation.escapes areRelated)

/-- A construct leads from related states to related states, where both readings go on. -/
theorem take
    (simulation : NamingSimulation follows related)
    (areRelated : related first second)
    {closures : Closures} {next other : State} {ch : Char} {rest otherRest : Text}
    (reads :
      ReadsAlike follows closures first.frame (ch :: rest) (ch :: otherRest) (first.turn ch rest))
    (taken : first.take closures ch rest (first.turn ch rest) = .running next)
    (otherTaken : second.take closures ch otherRest (first.turn ch rest) = .running other) :
    related next other := by
  have inLine := simulation.withLineStart false areRelated
  cases turn : first.turn ch rest with
  | namePart =>
      rw [turn] at taken otherTaken reads
      cases taken
      cases otherTaken
      have named :=
        simulation.withInterpolation (first.session.interpolation.extend [ch])
          (simulation.withRest reads areRelated)
      unfold readNamePart
      rw [simulation.interpolation areRelated]
      dsimp only
      split
      · exact named
      · exact simulation.withPrevious _ named
  | nameEnd =>
      rw [turn] at taken otherTaken reads
      cases taken
      cases otherTaken
      exact simulation.withPrevious _
        (simulation.withRest reads (simulation.spliceName areRelated))
  | nameStart =>
      rw [turn] at taken otherTaken reads
      cases taken
      cases otherTaken
      obtain ⟨restsFollow, sameBrace, namesFollow⟩ := reads
      unfold readNameStart
      rw [simulation.interpolation inLine]
      dsimp only
      split
      · obtain ⟨otherName, shape⟩ := List.head?_eq_some_iff.mp (sameBrace.mpr rfl)
        obtain rfl : otherRest = '{' :: otherName := shape
        exact simulation.withInterpolation _ (simulation.withRest (namesFollow rfl) inLine)
      · next noBrace =>
          split
          · next name =>
              obtain ⟨name, shape⟩ := List.head?_eq_some_iff.mp (sameBrace.mp rfl)
              exact (noBrace name shape).elim
          · exact simulation.withInterpolation _ (simulation.withRest restsFollow inLine)
  | _ =>
      exact simulation.toSimulation.take areRelated (by rw [turn]; rfl) reads taken otherTaken

end NamingSimulation

end State

end GradleScript
