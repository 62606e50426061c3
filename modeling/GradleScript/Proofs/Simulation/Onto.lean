import GradleScript.Proofs.Simulation.Layers
import GradleScript.Proofs.Value.Compatible

namespace GradleScript

/-!
# Reading onto earlier entries

A body can be read onto the entries that earlier statements have left.  It then does to them, one
construct after the other, what it does to no entries when it is read on its own, and what comes of
it is a merge of its own entries into the earlier ones, as long as nothing is replaced: at every
place outside its nested blocks the entries it has so far go together with the earlier ones.
-/

namespace Mapping

/-! ## Values that are stored after a merge -/

/-- What collects values under a key makes no mapping of them. -/
theorem collect_ne_mapping
    {value : Value}
    (noMapping : ∀ entries, value ≠ .mapping entries)
    (present : Option Value) (entries : Mapping) :
    collect present value ≠ .mapping entries := by
  cases present with
  | none =>
      exact noMapping entries
  | some present =>
      cases present <;> exact nofun

/-- The items that a closure stores come after those that are there. -/
def appendItems (items : List Value) : Option Value → Value
  | some (.list present) => .list (present ++ items)
  | _ => .list items

/-- A list that a closure stores is appended to what its key holds. -/
theorem putClosure_list
    (entries : Mapping) (key : Text) (items : List Value) :
    entries.putClosure key (.list items) =
      entries.put key (appendItems items (entries.get? key)) := by
  unfold putClosure appendItems
  cases entries.get? key with
  | none =>
      rfl
  | some present =>
      cases present <;> rfl

/-- Appending items makes no mapping of them. -/
theorem appendItems_ne_mapping
    (items : List Value) (present : Option Value) (entries : Mapping) :
    appendItems items present ≠ .mapping entries := by
  unfold appendItems
  split <;> exact nofun

/-- Whether a pending value, if there is one, is no mapping. -/
def NoMapping (pending : Option (Text × Value)) : Prop :=
  ∀ key value, pending = some (key, value) → ∀ entries, value ≠ .mapping entries

/-- Entries stay well keyed when a value that is no mapping is recorded. -/
theorem WellKeyed.addPending
    {entries : Mapping} {pending : Option (Text × Value)}
    (wellKeyed : WellKeyed entries)
    (noMapping : NoMapping pending) :
    WellKeyed (entries.addPending pending) := by
  cases pending with
  | none =>
      exact wellKeyed
  | some entry =>
      obtain ⟨key, value⟩ := entry
      unfold Mapping.addPending add
      dsimp only
      split
      · exact wellKeyed
      · exact wellKeyed.put key
          (valueWellKeyed_of_ne_mapping
            (collect_ne_mapping (noMapping key value rfl) (entries.get? key)))

/-- A value is recorded after a merge as before it, where it replaces nothing. -/
theorem addPending_merge
    {first second : Mapping} {pending : Option (Text × Value)}
    (distinct : (second.map Prod.fst).Nodup)
    (noMapping : NoMapping pending)
    (joined : joins first (second.addPending pending) = true) :
    addPending (merge first second) pending = merge first (second.addPending pending) := by
  cases pending with
  | none =>
      rfl
  | some entry =>
      obtain ⟨key, value⟩ := entry
      unfold addPending add at joined ⊢
      dsimp only at joined ⊢
      split
      · rfl
      · next keyed =>
          rw [if_neg keyed] at joined
          exact
            put_merge_of_ne_mapping distinct (fun present => collect present value)
              (collect_ne_mapping (noMapping key value rfl)) joined

end Mapping

namespace Opening

/-- Whether what is opened stores a list, or merges a mapping. -/
def Merges : Opening → Prop
  | .closure _ repositories => repositories = true
  | .block _ _ => True

variable {opening : Opening} {outer nested : Mapping}

/-- What a finished body stores leaves the entries around it well keyed. -/
theorem wellKeyed_stores
    (merges : opening.Merges)
    (wellKeyed : Mapping.WellKeyed outer)
    (nestedWellKeyed : Mapping.WellKeyed nested) :
    Mapping.WellKeyed (opening.stores outer nested) := by
  cases opening with
  | closure key repositories =>
      cases (show repositories = true from merges)
      unfold stores Suspended.entriesAfter
      dsimp only
      rw [Mapping.putClosure_list]
      exact wellKeyed.put key
        (Mapping.valueWellKeyed_of_ne_mapping (Mapping.appendItems_ne_mapping _ _))
  | block key inDependencies =>
      have ofNested : Mapping.ValueWellKeyed (.mapping nested) := nestedWellKeyed
      unfold stores Suspended.entriesAfter
      dsimp only
      split
      · exact wellKeyed.merge nestedWellKeyed
      · exact wellKeyed.put_mergeValue key ofNested

/-- A finished body is stored after a merge as before it, where all mappings stay mappings and no
list comes under a key that is there. -/
theorem stores_merge
    {earlier : Mapping}
    (merges : opening.Merges)
    (wellKeyed : Mapping.WellKeyed outer)
    (nestedWellKeyed : Mapping.WellKeyed nested)
    (keeps : Mapping.keepsMappings earlier outer = true)
    (storedJoined : Mapping.joins earlier (opening.stores outer nested) = true) :
    opening.stores (Mapping.merge earlier outer) nested =
      Mapping.merge earlier (opening.stores outer nested) := by
  cases opening with
  | closure key repositories =>
      cases (show repositories = true from merges)
      unfold stores Suspended.entriesAfter at storedJoined ⊢
      dsimp only at storedJoined ⊢
      rw [Mapping.putClosure_list] at storedJoined
      rw [Mapping.putClosure_list, Mapping.putClosure_list]
      exact
        Mapping.put_merge_of_ne_mapping wellKeyed.distinct _ (Mapping.appendItems_ne_mapping _)
          storedJoined
  | block key inDependencies =>
      unfold stores Suspended.entriesAfter at storedJoined ⊢
      dsimp only at storedJoined ⊢
      split
      · next anonymous =>
          exact Mapping.merge_assoc wellKeyed nestedWellKeyed keeps
      · next keyed =>
          exact Mapping.put_merge_mapping wellKeyed nestedWellKeyed keeps

end Opening

/-! ## Layers onto earlier entries -/

namespace Layers

/-- The entries of the outermost body. -/
def bottom : Layers → Mapping
  | ⟨entries, []⟩ => entries
  | ⟨_, layer :: around⟩ => ((layer :: around).getLast (List.cons_ne_nil layer around)).1

/-- The layers around a body, with the outermost one merged into earlier entries. -/
def ontoLast (earlier : Mapping) : List (Mapping × Opening) → List (Mapping × Opening)
  | [] => []
  | [(entries, opening)] => [(Mapping.merge earlier entries, opening)]
  | layer :: next :: around => layer :: ontoLast earlier (next :: around)

/-- The layers with the outermost one merged into earlier entries, inside further layers. -/
def onto (earlier : Mapping) (outside : List (Mapping × Opening)) : Layers → Layers
  | ⟨entries, []⟩ => ⟨Mapping.merge earlier entries, outside⟩
  | ⟨entries, layer :: around⟩ => ⟨entries, ontoLast earlier (layer :: around) ++ outside⟩

/-- Whether all keys are distinct, and what is open merges what it stores. -/
structure Sound (layers : Layers) : Prop where
  entries : Mapping.WellKeyed layers.entries
  around : ∀ layer ∈ layers.around, Mapping.WellKeyed layer.1 ∧ layer.2.Merges

end Layers

namespace Act

/-- Whether an act records no mapping, and opens nothing but what merges. -/
def Sound : Act → Prop
  | .record pending => Mapping.NoMapping pending
  | .enter opening => opening.Merges
  | .leave pending => Mapping.NoMapping pending

variable {act : Act} {layers : Layers}

/-- A sound act keeps the layers sound. -/
theorem sound_apply
    (sound : act.Sound)
    (layersSound : layers.Sound) :
    (act.apply layers).Sound := by
  obtain ⟨entries, around⟩ := layers
  obtain ⟨wellKeyed, aroundSound⟩ := layersSound
  cases act with
  | record pending =>
      exact ⟨wellKeyed.addPending sound, aroundSound⟩
  | enter opening =>
      refine ⟨trivial, ?_⟩
      exact List.forall_mem_cons.mpr ⟨⟨wellKeyed, sound⟩, aroundSound⟩
  | leave pending =>
      cases around with
      | nil =>
          exact ⟨wellKeyed.addPending sound, aroundSound⟩
      | cons layer around =>
          obtain ⟨⟨outerWellKeyed, merges⟩, laterSound⟩ := List.forall_mem_cons.mp aroundSound
          exact
            ⟨Opening.wellKeyed_stores merges outerWellKeyed (wellKeyed.addPending sound),
              laterSound⟩

/-- What is done inside nested bodies leaves the outermost one as it is. -/
theorem bottom_apply
    (nested : (act.apply layers).around ≠ []) :
    (act.apply layers).bottom = layers.bottom := by
  obtain ⟨entries, around⟩ := layers
  cases act with
  | record pending =>
      cases around with
      | nil =>
          exact (nested rfl).elim
      | cons layer around =>
          rfl
  | enter opening =>
      cases around <;> rfl
  | leave pending =>
      cases around with
      | nil =>
          exact (nested rfl).elim
      | cons layer around =>
          cases around with
          | nil =>
              exact (nested rfl).elim
          | cons next around =>
              rfl

/-- An act does onto earlier entries what it does on its own, where it replaces nothing of them. -/
theorem apply_onto
    {earlier : Mapping}
    (sound : act.Sound)
    (layersSound : layers.Sound)
    (stays : ∀ pending, act = .leave pending → layers.around ≠ [])
    (joined : Mapping.joins earlier layers.bottom = true)
    (nextJoined : Mapping.joins earlier (act.apply layers).bottom = true)
    (outside : List (Mapping × Opening)) :
    act.apply (layers.onto earlier outside) = (act.apply layers).onto earlier outside := by
  obtain ⟨entries, around⟩ := layers
  obtain ⟨wellKeyed, aroundSound⟩ := layersSound
  cases act with
  | record pending =>
      cases around with
      | nil =>
          have recorded :=
            Mapping.addPending_merge wellKeyed.distinct sound nextJoined
          exact congrArg (fun entries => Layers.mk entries outside) recorded
      | cons layer around =>
          rfl
  | enter opening =>
      cases around <;> rfl
  | leave pending =>
      cases around with
      | nil =>
          exact (stays pending rfl rfl).elim
      | cons layer around =>
          obtain ⟨⟨outerWellKeyed, merges⟩, _⟩ := List.forall_mem_cons.mp aroundSound
          cases around with
          | nil =>
              have stored :=
                Opening.stores_merge merges outerWellKeyed (wellKeyed.addPending sound)
                  (Mapping.joins.keepsMappings joined) nextJoined
              exact congrArg (fun entries => Layers.mk entries outside) stored
          | cons next around =>
              rfl

end Act

/-! ## The same reading, whatever is stored -/

/-- A waiting body without its entries. -/
def Suspended.emptied (suspended : Suspended) : Suspended :=
  { suspended with frame := { suspended.frame with entries := [] } }

namespace State

/-- A state without the entries of its bodies. -/
def emptied (state : State) : State :=
  { state with
    frame := { state.frame with entries := [] }
    outer := state.outer.map Suspended.emptied }

/-- Whether the bodies have stored anything is not seen when the text is read. -/
theorem lexical_emptied
    (state : State) :
    state.emptied.lexical = state.lexical.emptied := by
  unfold emptied lexical
  dsimp only
  rw [List.map_map, List.map_map]
  rfl

/-- The outline of an emptied state is the outline without entries. -/
theorem outline_emptied
    (state : State) :
    state.emptied.outline =
      { state.outline with
        entries := []
        outer := state.outline.outer.map Suspended.emptied } := by
  unfold outline emptied lexical
  dsimp only
  rw [List.map_map, List.map_map, List.map_map, List.map_map]
  rfl

/-- Whether a second state reads the body of a first one inside further bodies, whatever the two
have stored. -/
def SameReading
    (follows : Text → Text → Prop)
    (base : List Suspended)
    (first second : State) : Prop :=
  SameOutline follows base first.emptied second.emptied

variable {follows : Text → Text → Prop} {base : List Suspended} {first second : State}

/-- What two states read the same depends on their lexical sides alone. -/
theorem SameReading.of_lexical
    {next other : State}
    (same : SameReading follows base first second)
    (firstSame : next.lexical = first.lexical)
    (secondSame : other.lexical = second.lexical) :
    SameReading follows base next other := by
  have emptiedSame {state later : State} (laterSame : later.lexical = state.lexical) :
      later.emptied.lexical = state.emptied.lexical := by
    rw [lexical_emptied, lexical_emptied, laterSame]
  exact SameOutline.of_lexical same (emptiedSame firstSame) (emptiedSame secondSame) rfl

/-- Going on with the body around a finished one is read in the same way where nothing has been
stored. -/
theorem lexical_emptied_resume
    (state : State) (suspended : Suspended) (outer : List Suspended) :
    (state.resume suspended outer).emptied.lexical =
      (state.emptied.resume suspended.emptied (outer.map Suspended.emptied)).lexical := by
  rw [lexical_emptied, lexical_resume, lexical_resume, ← lexical_emptied]
  rfl

/-- Two states that read the same go on reading the same with the bodies around. -/
theorem SameReading.resume
    (same : SameReading follows base first second)
    {suspended : Suspended} {outer : List Suspended}
    (around : first.outer = suspended :: outer) :
    ∃ otherSuspended otherOuter,
      second.outer = otherSuspended :: otherOuter ∧
        SameReading follows base (first.resume suspended outer)
          (second.resume otherSuspended otherOuter) := by
  have emptiedAround :
      first.emptied.outer = suspended.emptied :: outer.map Suspended.emptied := by
    unfold emptied
    dsimp only
    rw [around, List.map_cons]
  obtain ⟨_, _, otherAround, resumed⟩ := SameOutline.resume same emptiedAround
  obtain ⟨otherSuspended, otherOuter, isAround, rfl, rfl⟩ := List.map_eq_cons_iff.mp otherAround
  exact
    ⟨otherSuspended, otherOuter, isAround,
      SameOutline.of_lexical resumed (lexical_emptied_resume first suspended outer)
        (lexical_emptied_resume second otherSuspended otherOuter) rfl⟩

/-- Without names, the reading of a body goes on in the same way, whatever is stored. -/
theorem simulation_sameReading
    (follows : Text → Text → Prop)
    (base : List Suspended) :
    Simulation follows (SameReading follows base) where
  rest same := by
    have kept := (simulation_sameOutline follows base).rest same
    exact kept
  statement same := by
    have kept := (simulation_sameOutline follows base).statement same
    exact kept
  mode same := by
    have kept := (simulation_sameOutline follows base).mode same
    exact kept
  lineStart same := by
    have kept := (simulation_sameOutline follows base).lineStart same
    exact kept
  commentOpen same := by
    have kept := (simulation_sameOutline follows base).commentOpen same
    exact kept
  form same := by
    have kept := (simulation_sameOutline follows base).form same
    exact kept
  quoteOpen same := by
    have kept := (simulation_sameOutline follows base).quoteOpen same
    exact kept
  withRest restsFollow same := (simulation_sameOutline follows base).withRest restsFollow same
  withStatement statement same := (simulation_sameOutline follows base).withStatement statement same
  withPrevious previous same := (simulation_sameOutline follows base).withPrevious previous same
  withLineStart lineStart same := (simulation_sameOutline follows base).withLineStart lineStart same
  withComment comment same := (simulation_sameOutline follows base).withComment comment same
  hearComment ch same := (simulation_sameOutline follows base).hearComment ch same
  closeQuote same := (simulation_sameOutline follows base).closeQuote same
  hearQuote ch same := (simulation_sameOutline follows base).hearQuote ch same
  record key value same := same.of_lexical (lexical_record _ key value) (lexical_record _ key value)
  storeClosure key value same :=
    same.of_lexical (lexical_storeClosure _ key value) (lexical_storeClosure _ key value)
  enterBlock key same samePrevious :=
    (simulation_sameOutline follows base).enterBlock key same samePrevious
  enterClosure key repositories mode same samePrevious :=
    (simulation_sameOutline follows base).enterClosure key repositories mode same samePrevious
  resume same around := same.resume around
  stray {first second} same alone whole := by
    have emptiedAlone : first.emptied.outer = [] := by
      unfold emptied
      dsimp only
      rw [alone, List.map_nil]
    obtain ⟨otherAlone, reported⟩ :=
      (simulation_sameOutline follows base).stray same emptiedAlone whole
    exact ⟨List.map_eq_nil_iff.mp otherAlone, reported⟩

/-! ## Reading onto earlier entries -/

/-- The text of a value is recorded as no mapping. -/
theorem noMapping_entryOf
    (mode : Mode) (key raw : Text) :
    Mapping.NoMapping (mode.entryOf key raw) := by
  intro other value isEntry
  unfold Mode.entryOf at isEntry
  split at isEntry
  · cases isEntry
  · obtain ⟨_, rfl⟩ := Prod.mk.inj (Option.some.inj isEntry)
    unfold Value.ofScalar
    repeat' split
    all_goals exact nofun

/-- The end of a statement records no mapping. -/
theorem noMapping_pending
    (frame : Frame) :
    Mapping.NoMapping frame.pending := by
  unfold Frame.pending
  split <;> exact noMapping_entryOf _ _ _

/-- A call records no mapping. -/
theorem noMapping_keptCall
    (frame : Frame) (text : Text) :
    Mapping.NoMapping (frame.keptCall text) := by
  unfold Frame.keptCall
  split
  · exact nofun
  · exact noMapping_entryOf _ _ _

/-- Where no block is read as a body of its own, every body merges what it stores. -/
theorem merges_opening
    {closures : Closures}
    (noBodies : ∀ key mode, closures.find? key ≠ some (.body mode))
    (frame : Frame) :
    (frame.opening closures).Merges := by
  unfold Frame.opening
  split
  · exact rfl
  · next mode found =>
      exact (noBodies _ mode found).elim
  · trivial

/-- Nothing that a construct does to the layers records a mapping, or replaces one. -/
theorem sound_act
    {closures : Closures}
    (noBodies : ∀ key mode, closures.find? key ≠ some (.body mode))
    (frame : Frame) (text : Text) (turn : Turn) :
    (frame.act closures text turn).Sound := by
  cases turn with
  | lineEnd | commentStart kind | blockEnd =>
      exact noMapping_pending frame
  | call =>
      exact noMapping_keptCall frame text
  | array =>
      intro key value isArray
      obtain ⟨_, rfl⟩ := Prod.mk.inj (Option.some.inj isArray)
      exact nofun
  | blockStart =>
      exact merges_opening noBodies frame
  | comment | namePart | nameEnd | indentation | nameStart | quoted | keyEnd | plain =>
      exact nofun

/-- The brace that closes a body which is no script leaves it for one around. -/
theorem outer_ne_nil_of_closeBlock
    {state next : State} {rest : Text}
    (inBody : state.wholeScript = false)
    (closed : state.closeBlock rest = .running next) :
    state.outer ≠ [] := by
  intro alone
  have depths := length_outer_of_surroundings (surroundings_flush (state.withRest rest))
  have aloneThere : (state.withRest rest).flush.outer = [] :=
    List.length_eq_zero_iff.mp (depths.trans (List.length_eq_zero_iff.mpr alone))
  have inBodyThere : (state.withRest rest).flush.wholeScript = false :=
    (congrArg (fun body => body.wholeScript) (surroundings_flush (state.withRest rest))).trans
      inBody
  unfold closeBlock at closed
  dsimp only at closed
  rw [aloneThere] at closed
  simp [inBodyThere] at closed

/-- Only a brace leaves a body, and it does so where there is one around. -/
theorem around_ne_nil_of_leave
    {closures : Closures} {state next : State} {ch : Char} {rest : Text} {turn : Turn}
    {pending : Option (Text × Value)}
    (inBody : state.wholeScript = false)
    (taken : state.take closures ch rest turn = .running next)
    (leaves : state.frame.act closures (ch :: rest) turn = .leave pending) :
    state.layers.around ≠ [] := by
  cases turn with
  | blockEnd =>
      have closed : (state.withLineStart false).closeBlock rest = .running next := taken
      have inBodyHere : (state.withLineStart false).wholeScript = false := inBody
      have inBlock := outer_ne_nil_of_closeBlock inBodyHere closed
      exact fun none => inBlock (List.map_eq_nil_iff.mp none)
  | _ =>
      cases leaves

/-- Whether a second state reads the body of a first one onto earlier entries, which go together
with those that the first one has so far. -/
structure ReadsOnto
    (follows : Text → Text → Prop)
    (base : List Suspended)
    (earlier : Mapping)
    (first second : State) : Prop where
  reading : SameReading follows base first second
  layers :
    second.layers =
      first.layers.onto earlier
        (base.map fun suspended => (suspended.frame.entries, suspended.opening.outline))
  sound : first.layers.Sound
  joined : Mapping.joins earlier first.layers.bottom = true
  inBody : first.wholeScript = false

/-- Where no body is around, the outermost entries are those of the current one. -/
theorem bottom_layers_of_alone
    {state : State}
    (alone : state.outer = []) :
    state.layers.bottom = state.frame.entries := by
  unfold layers
  rw [alone]
  rfl

/-- A construct is read onto earlier entries, where it replaces nothing of them. -/
theorem ReadsOnto.steps
    {follows : Text → Text → Prop} {base : List Suspended} {earlier : Mapping}
    {closures : Closures} {first second next other : State}
    (texts : TextSimulation follows)
    (noArrays : ∀ key, closures.find? key ≠ some .array)
    (noBodies : ∀ key mode, closures.find? key ≠ some (.body mode))
    (onto : ReadsOnto follows base earlier first second)
    (nameless : first.Nameless)
    (otherNameless : second.Nameless)
    (keeps : KeepsAlike follows closures first second)
    (steps : Steps closures first next)
    (otherSteps : Steps closures second other)
    (joinedThere : next.outer = [] → Mapping.joins earlier next.frame.entries = true) :
    ReadsOnto follows base earlier next other := by
  have simulation := simulation_sameReading follows base
  obtain ⟨ch, rest, otherRest, alike⟩ :=
    simulation.exists_readsAlike texts onto.reading nameless otherNameless keeps steps otherSteps
  have reading :=
    simulation.steps_of_readsAlike onto.reading nameless otherNameless alike steps otherSteps
  obtain ⟨text, otherText, sameTurn, reads⟩ := alike
  obtain ⟨_, _, shape, advanced⟩ := steps_iff.mp steps
  obtain ⟨_, _, otherShape, otherAdvanced⟩ := steps_iff.mp otherSteps
  obtain ⟨rfl, rfl⟩ := List.cons.inj (text.symm.trans shape)
  obtain ⟨rfl, rfl⟩ := List.cons.inj (otherText.symm.trans otherShape)
  rw [settle_of_noName nameless.noName, settle_of_noName otherNameless.noName] at sameTurn
  rw [settle_of_noName nameless.noName] at reads
  rw [nameless.advance_eq] at advanced
  rw [otherNameless.advance_eq, sameTurn] at otherAdvanced
  generalize turnShape : first.turn ch rest = turn at advanced otherAdvanced reads
  have left := layers_take noArrays advanced
  have otherLeft := layers_take noArrays otherAdvanced
  rw [Frame.act_eq (simulation.statement onto.reading) (simulation.mode onto.reading) reads]
    at otherLeft
  have actSound := sound_act noBodies first.frame (ch :: rest) turn
  have stays (pending : Option (Text × Value))
      (leaves : first.frame.act closures (ch :: rest) turn = .leave pending) :
      first.layers.around ≠ [] :=
    around_ne_nil_of_leave onto.inBody advanced leaves
  have nextJoined : Mapping.joins earlier next.layers.bottom = true := by
    by_cases alone : next.outer = []
    · rw [bottom_layers_of_alone alone]
      exact joinedThere alone
    · have nested : next.layers.around ≠ [] := fun none => alone (List.map_eq_nil_iff.mp none)
      rw [left] at nested ⊢
      rw [Act.bottom_apply nested]
      exact onto.joined
  refine ⟨reading, ?_, left ▸ Act.sound_apply actSound onto.sound, nextJoined,
    steps.wholeScript_eq.trans onto.inBody⟩
  rw [left] at nextJoined
  rw [otherLeft, onto.layers, left]
  exact Act.apply_onto actSound onto.sound stays onto.joined nextJoined _

end State

end GradleScript
