import GradleScript.Proofs.Simulation.Alike

namespace GradleScript

/-!
# The same body in another place

What a body denotes, where no name is read, depends on its outline alone: on the statements that
are read and stored in it and in the bodies in it.  It does not depend on the bodies around it,
nor on the context, nor on the variables, nor on which lists are shared with them.  Two states
have the same outline up to a base when the second one reads the body of the first one inside
further bodies.
-/

/-- What is opened, apart from the context around it. -/
def Opening.outline : Opening → Opening
  | .block key _ => .block key false
  | .closure key repositories => .closure key repositories

/-- A waiting body, apart from the sharing of its lists and from the context around it. -/
def Suspended.outline (suspended : Suspended) : Suspended :=
  ⟨{ suspended.frame with shared := [] }, suspended.opening.outline⟩

/-- What of a state decides what is denoted, where no name is read. -/
structure Outline where
  mode : Mode
  statement : Statement
  lineStart : Bool
  escape : Option Char
  entries : Mapping
  quote : Quote
  comment : Comment
  form : Option NameForm
  outer : List Suspended

namespace Outline

/-- An outline inside further bodies. -/
def within (outline : Outline) (base : List Suspended) : Outline :=
  { outline with outer := outline.outer ++ base }

end Outline

/-! ## What a finished body leaves in the one around it -/

/-- The entries after a closure has been stored. -/
def Mapping.putClosure (entries : Mapping) (key : Text) (value : Value) : Mapping :=
  match entries.get? key, value with
  | some (.list present), .list items => entries.put key (.list (present ++ items))
  | _, _ => entries.put key value

/-- The entries of a waiting body after the nested one has been stored. -/
def Suspended.entriesAfter (suspended : Suspended) (nested : Mapping) : Mapping :=
  match suspended.opening with
  | .closure key true => suspended.frame.entries.putClosure key (.list (repositoriesOf nested))
  | .closure key false => suspended.frame.entries.putClosure key (.mapping nested)
  | .block key _ =>
      if key.isEmpty then
        Mapping.merge suspended.frame.entries nested
      else
        suspended.frame.entries.put key
          (Mapping.mergeValue (suspended.frame.entries.get? key) (.mapping nested))

/-- What a finished body leaves in the one around depends on the outline of that one alone. -/
theorem Suspended.entriesAfter_outline
    (suspended : Suspended) (nested : Mapping) :
    suspended.outline.entriesAfter nested = suspended.entriesAfter nested := by
  obtain ⟨frame, opening⟩ := suspended
  cases opening <;> rfl

namespace State

/-- Adding to the list of a variable leaves the entries of the current body. -/
theorem entries_growShared
    (state : State) (key : Text) (items : List Value) :
    (state.growShared key items).frame.entries = state.frame.entries := by
  unfold growShared
  split <;> rfl

/-- A stored closure changes the entries as it does in an outline. -/
theorem entries_storeClosure
    (state : State) (key : Text) (value : Value) :
    (state.storeClosure key value).frame.entries = state.frame.entries.putClosure key value := by
  unfold storeClosure
  split
  · next present items found =>
      rw [entries_growShared]
      unfold Mapping.putClosure
      rw [found]
      rfl
  · next notLists =>
      unfold Mapping.putClosure
      split
      · next present items found =>
          exact (notLists present items found rfl).elim
      · rfl

/-- Extra properties become variables and no entries. -/
theorem entries_setExtVariables
    (state : State) (entries : Mapping) :
    (state.setExtVariables entries).frame.entries = state.frame.entries :=
  (state.writes_setExtVariables entries).entries

/-- A finished body leaves its entries in the body around it. -/
theorem entries_resume
    (state : State) (suspended : Suspended) (outer : List Suspended) :
    (state.resume suspended outer).frame.entries = suspended.entriesAfter state.frame.entries := by
  obtain ⟨frame, opening⟩ := suspended
  unfold resume Suspended.entriesAfter
  cases opening with
  | closure key repositories =>
      cases repositories <;> exact entries_storeClosure _ _ _
  | block key inDependencies =>
      dsimp only
      split
      · exact entries_setExtVariables _ _
      · exact entries_storeBlock _ _ _

/-! ## The outline of a state -/

/-- The outline of a state. -/
def outline (state : State) : Outline where
  mode := state.lexical.frame.mode
  statement := state.lexical.frame.statement
  lineStart := state.lexical.frame.lineStart
  escape := escapeOf state.lexical.frame.previous
  entries := state.frame.entries
  quote := state.lexical.session.quote.unmarked
  comment := state.lexical.session.comment
  form := state.lexical.session.interpolation.form
  outer := state.lexical.outer.map Suspended.outline

/-- What is not stored of an outline belongs to the lexical side. -/
theorem outline_of_lexical
    {state next : State}
    (same : next.lexical = state.lexical) :
    next.outline = { state.outline with entries := next.frame.entries } := by
  unfold outline
  rw [same]

/-- The outline of a state has the outlines of the bodies around it. -/
theorem outer_outline
    (state : State) :
    state.outline.outer = state.outer.map Suspended.outline := by
  unfold outline lexical
  dsimp only
  rw [List.map_map]
  rfl

/-- Going on with a body around takes its outline from the waiting body. -/
theorem outline_resume
    (state : State) (suspended : Suspended) (outer : List Suspended) :
    (state.resume suspended outer).outline =
      { state.outline with
        mode := suspended.outline.frame.mode
        statement := suspended.outline.frame.statement
        lineStart := suspended.outline.frame.lineStart
        escape := escapeOf suspended.outline.frame.previous
        entries := suspended.outline.entriesAfter state.outline.entries
        outer := outer.map Suspended.outline } := by
  have resumed := lexical_resume state suspended outer
  have outlined :
      (state.resume suspended outer).outline =
        { ({ state with frame := suspended.frame, outer := outer }.withInterpolation
            (state.resumedInterpolation suspended.opening)).outline with
          entries := (state.resume suspended outer).frame.entries } :=
    outline_of_lexical resumed
  have outers :
      (outer.map Suspended.unshared).map Suspended.outline = outer.map Suspended.outline := by
    rw [List.map_map]
    rfl
  have forms :
      (state.resumedInterpolation suspended.opening).form = state.session.interpolation.form := by
    cases suspended.opening <;> rfl
  rw [outlined, entries_resume, Suspended.entriesAfter_outline]
  unfold outline lexical withInterpolation
  dsimp only
  rw [outers, forms]
  rfl

/-- A body that is entered waits in the outline around the nested one. -/
theorem outline_suspend
    (state : State) (opening : Opening) (mode : Mode) :
    (state.suspend opening mode).outline =
      { state.outline with
        mode := mode
        statement := {}
        lineStart := true
        escape := none
        entries := []
        outer := Suspended.outline ⟨state.frame, opening⟩ :: state.outline.outer } :=
  rfl

/-- Where one body is left around, it gets the entries of the body in it. -/
theorem entries_unwind_of_outline
    {state : State} {waiting : Suspended}
    (around : state.outer.map Suspended.outline = [waiting]) :
    state.unwind.2 = waiting.entriesAfter state.frame.entries := by
  obtain ⟨suspended, outermost, isWaiting⟩ := List.map_eq_singleton_iff.mp around
  have alone : (state.resume suspended []).outer = [] :=
    List.length_eq_zero_iff.mp (length_outer_resume state suspended [])
  calc
    state.unwind.2 = (state.resume suspended []).frame.entries := by
      rw [unwind_of_around outermost, unwind_of_alone alone]
    _ = suspended.entriesAfter state.frame.entries :=
      entries_resume state suspended []
    _ = waiting.entriesAfter state.frame.entries := by
      rw [← Suspended.entriesAfter_outline, isWaiting]

/-! ## States with the same outline -/

/-- Whether a second state reads the body of a first one, in an outline with further bodies
around.  A whole script has none around it. -/
structure SameOutline
    (follows : Text → Text → Prop)
    (base : List Suspended)
    (first second : State) : Prop where
  rest : follows first.session.rest second.session.rest
  outline : second.outline = first.outline.within base
  alone : first.wholeScript = true → base = []

namespace SameOutline

variable {follows : Text → Text → Prop} {base : List Suspended} {first second : State}

/-- What is stored alike leaves states with the same outline. -/
theorem of_lexical
    {next other : State}
    (same : SameOutline follows base first second)
    (firstSame : next.lexical = first.lexical)
    (secondSame : other.lexical = second.lexical)
    (entries : other.frame.entries = next.frame.entries) :
    SameOutline follows base next other := by
  have rests : next.session.rest = first.session.rest :=
    congrArg (fun body => body.session.rest) firstSame
  have otherRests : other.session.rest = second.session.rest :=
    congrArg (fun body => body.session.rest) secondSame
  have scripts : next.wholeScript = first.wholeScript :=
    congrArg (fun body => body.wholeScript) firstSame
  refine ⟨?_, ?_, ?_⟩
  · rw [rests, otherRests]
    exact same.rest
  · rw [outline_of_lexical firstSame, outline_of_lexical secondSame, same.outline, entries]
    rfl
  · rw [scripts]
    exact same.alone

/-- States with the same outline have the same entries in the current body. -/
theorem entries_eq
    (same : SameOutline follows base first second) :
    second.frame.entries = first.frame.entries :=
  congrArg Outline.entries same.outline

/-- A body that is entered alike waits alike, if the same character comes before it. -/
theorem suspend
    (same : SameOutline follows base first second)
    (samePrevious : second.frame.previous = first.frame.previous)
    {opening otherOpening : Opening}
    (sameOpening : otherOpening.outline = opening.outline)
    (mode : Mode) :
    SameOutline follows base (first.suspend opening mode) (second.suspend otherOpening mode) := by
  have sameMode : second.frame.mode = first.frame.mode := congrArg Outline.mode same.outline
  have sameStatement : second.frame.statement = first.frame.statement :=
    congrArg Outline.statement same.outline
  have sameLineStart : second.frame.lineStart = first.frame.lineStart :=
    congrArg Outline.lineStart same.outline
  have waiting :
      Suspended.outline ⟨second.frame, otherOpening⟩ =
        Suspended.outline ⟨first.frame, opening⟩ := by
    unfold Suspended.outline
    dsimp only
    rw [sameMode, sameStatement, sameLineStart, samePrevious, same.entries_eq, sameOpening]
  refine ⟨same.rest, ?_, same.alone⟩
  rw [outline_suspend, outline_suspend, waiting, same.outline]
  rfl

/-- Of states with the same outline, the second one has the bodies of the first one inside further
ones. -/
theorem outer_eq
    (same : SameOutline follows base first second) :
    second.outer.map Suspended.outline = first.outer.map Suspended.outline ++ base := by
  have outers : second.outline.outer = first.outline.outer ++ base :=
    congrArg Outline.outer same.outline
  rw [outer_outline, outer_outline] at outers
  exact outers

/-- A body around the first state that is gone on with has its counterpart around the second one. -/
theorem resume
    (same : SameOutline follows base first second)
    {suspended : Suspended} {outer : List Suspended}
    (around : first.outer = suspended :: outer) :
    ∃ otherSuspended otherOuter,
      second.outer = otherSuspended :: otherOuter ∧
        SameOutline follows base (first.resume suspended outer)
          (second.resume otherSuspended otherOuter) := by
  have outers := same.outer_eq
  rw [around, List.map_cons, List.cons_append, List.map_eq_cons_iff] at outers
  obtain ⟨otherSuspended, otherOuter, otherAround, sameSuspended, sameOuter⟩ := outers
  have scripts : (first.resume suspended outer).wholeScript = first.wholeScript :=
    congrArg (fun body => body.wholeScript) (lexical_resume first suspended outer)
  refine ⟨otherSuspended, otherOuter, otherAround, ?_, ?_, ?_⟩
  · rw [rest_resume, rest_resume]
    exact same.rest
  · rw [outline_resume, outline_resume, sameSuspended, sameOuter, same.outline]
    rfl
  · rw [scripts]
    exact same.alone

/-- At the end of a body inside one other, that one gets its entries. -/
theorem entries_unwind
    {waiting : Suspended}
    (same : SameOutline follows [waiting] first second)
    (outermost : first.outer = []) :
    second.unwind.2 = waiting.entriesAfter first.frame.entries := by
  have around : second.outer.map Suspended.outline = [waiting] := by
    rw [same.outer_eq, outermost]
    rfl
  rw [entries_unwind_of_outline around, same.entries_eq]

end SameOutline

/-- Without names, the reading of a body keeps its outline. -/
theorem simulation_sameOutline
    (follows : Text → Text → Prop)
    (base : List Suspended) :
    Simulation follows (SameOutline follows base) where
  rest same := same.rest
  statement same := congrArg Outline.statement same.outline
  mode same := congrArg Outline.mode same.outline
  lineStart same := congrArg Outline.lineStart same.outline
  commentOpen same := congrArg (fun outline => outline.comment.isOpen) same.outline
  form same := congrArg Outline.form same.outline
  quoteOpen {first second} same := by
    have sameQuote : second.session.quote.unmarked = first.session.quote.unmarked :=
      congrArg Outline.quote same.outline
    rw [← Quote.isOpen_unmarked, sameQuote, Quote.isOpen_unmarked]
  withRest restsFollow same := ⟨restsFollow, same.outline, same.alone⟩
  withStatement statement same :=
    ⟨same.rest, congrArg (fun outline => { outline with statement := statement }) same.outline,
      same.alone⟩
  withPrevious previous same :=
    ⟨same.rest, congrArg (fun outline => { outline with escape := escapeOf previous }) same.outline,
      same.alone⟩
  withLineStart lineStart same :=
    ⟨same.rest, congrArg (fun outline => { outline with lineStart := lineStart }) same.outline,
      same.alone⟩
  withComment comment same :=
    ⟨same.rest, congrArg (fun outline => { outline with comment := comment }) same.outline,
      same.alone⟩
  hearComment {first second} ch same := by
    have sameComment : second.session.comment = first.session.comment :=
      congrArg Outline.comment same.outline
    rw [sameComment]
    exact ⟨rfl, same.rest,
      congrArg (fun outline => { outline with comment := (first.session.comment.hear [ch]).2 })
        same.outline,
      same.alone⟩
  closeQuote same :=
    ⟨same.rest, congrArg (fun outline => { outline with quote := .closed }) same.outline,
      same.alone⟩
  hearQuote {first second} ch same := by
    have heard (state : State) :
        (state.withQuote (state.session.quote.next ch state.frame.previous)).outline =
          { state.outline with
            quote := (state.outline.quote.next ch state.outline.escape).unmarked } := by
      have quotes := Quote.unmarked_next state.session.quote ch state.frame.previous
      exact congrArg (fun quote => { state.outline with quote := quote }) quotes
    refine ⟨same.rest, ?_, same.alone⟩
    rw [heard first, heard second, same.outline]
    rfl
  record {first second} key value same := by
    apply same.of_lexical (lexical_record _ key value) (lexical_record _ key value)
    rw [entries_record, entries_record, same.entries_eq]
  storeClosure {first second} key value same := by
    apply same.of_lexical (lexical_storeClosure _ key value) (lexical_storeClosure _ key value)
    rw [entries_storeClosure, entries_storeClosure, same.entries_eq]
  enterBlock {first second} key same samePrevious := by
    have sameMode : second.frame.mode = first.frame.mode := congrArg Outline.mode same.outline
    have sameOpening :
        Opening.outline (.block key second.session.interpolation.inDependencies) =
          Opening.outline (.block key first.session.interpolation.inDependencies) :=
      rfl
    have entered := same.suspend samePrevious sameOpening first.frame.mode
    refine ⟨entered.rest, ?_, entered.alone⟩
    refine Eq.trans ?_ entered.outline
    unfold enterBlock
    rw [sameMode]
    rfl
  enterClosure key repositories mode same samePrevious := same.suspend samePrevious rfl mode
  resume same around := same.resume around
  stray {first second} same alone whole := by
    have outers := same.outer_eq
    rw [alone, same.alone whole, List.map_nil, List.append_nil, List.map_eq_nil_iff] at outers
    exact ⟨outers, same.rest, same.outline, same.alone⟩

end State

end GradleScript
