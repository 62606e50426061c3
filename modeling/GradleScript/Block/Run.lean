import GradleScript.Block.StepLemmas

namespace GradleScript

/-!
# Reading a body

A body is read one construct at a time until the brace that closes it, or until the text ends,
which closes everything.  Every construct takes at least one character from the text, so reading
ends on every text.
-/

namespace State

/-- End the interpolation that the end of the text cuts off. -/
def settleEnd (state : State) : State :=
  match state.session.interpolation.form with
  | none =>
      state
  | some .braced =>
      state.restoreName
  | some .bare =>
      state.spliceName

/-- Finish every body being read, the innermost first. -/
def unwind (state : State) : Session × Mapping :=
  match _enclosing : state.outer with
  | [] =>
      (state.session, state.frame.entries)
  | suspended :: outer =>
      unwind (state.resume suspended outer)
termination_by state.outer.length
decreasing_by
  simp [_enclosing]

/-- What the end of the text leads to: the last statement ends, and then every body. -/
def finish (state : State) : Session × Mapping :=
  state.settleEnd.flush.unwind

/-- Read one construct, or the end of the text. -/
def step (closures : Closures) (state : State) : Progress :=
  match state.session.rest with
  | [] =>
      .closed state.finish.1 state.finish.2
  | ch :: rest =>
      state.advance closures ch rest

/-- Every step that goes on leaves a shorter text. -/
theorem length_rest_step
    {closures : Closures} {state next : State}
    (stepped : state.step closures = .running next) :
    next.session.rest.length < state.session.rest.length := by
  unfold step at stepped
  split at stepped
  · cases stepped
  · next ch rest text =>
      rw [text]
      exact Nat.lt_succ_of_le (rest_advance stepped).length_le

/-- Read to the end of the outermost body: the session it leaves, and what the body denotes. -/
def run (closures : Closures) (state : State) : Session × Mapping :=
  match _progress : state.step closures with
  | .running next =>
      run closures next
  | .closed session entries =>
      (session, entries)
termination_by state.session.rest.length
decreasing_by
  exact length_rest_step _progress

end State

/-- Read one body of a session, up to its closing brace or as a whole script. -/
def Session.readBody
    (closures : Closures)
    (session : Session)
    (mode : Mode)
    (wholeScript : Bool) :
    Session × Mapping :=
  (State.start session mode wholeScript).run closures

end GradleScript
