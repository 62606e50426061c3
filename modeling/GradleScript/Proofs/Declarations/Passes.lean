import GradleScript.Project
import GradleScript.Proofs.Declarations.Files

namespace GradleScript.Declarations

/-!
# The order of declarations

The passes over a project leave the variables with all its declarations, so that the last pass
resolves every reference, wherever the name is declared.  What the dependencies mean is then a
matter of which names are declared with which texts, and not of the order or the files.
-/

open Plain State

/-- The names that root files declare, with their texts. -/
def declaredByRoots (roots : List (Text × RootFile)) : List (Text × Text) :=
  roots.flatMap fun root => root.2.declared

/-! ## Single passes -/

/-- A file begins with what the files before it have declared. -/
theorem stage_start
    {apart : List Text} {known : List (Text × Text)} {journal : Journal}
    (knows : Knows apart journal.table known)
    (sound : ∀ declaration ∈ known, Sound declaration)
    (text : Text) :
    Stage apart known [] none (State.start (Session.ofText text true journal) {} true).stored := by
  refine ⟨rfl, rfl, rfl, knows, sound, ?_, .inl ⟨rfl, rfl⟩, rfl⟩
  intro declaration member
  cases member

/-- A pass over a file that is read to its end has the entries and the variables that are stored. -/
theorem pass_of_readsLine
    {files : Files} {path text : Text} {journal : Journal} {result : State}
    {apart : List Text} {known inFile : List (Text × Text)} {dependencies : Option Value}
    (fileText : files.scriptText path = .ok text)
    (reads :
      ReadsLine Closures.standard (State.start (Session.ofText text true journal) {} true) []
        result)
    (stage : Stage apart known inFile dependencies result)
    (label : PassLabel) :
    ∃ entries left,
      Project.pass files true journal label path = (.ok entries, left) ∧
        Knows apart left.table known ∧ Mapping.get? entries dependenciesKey = dependencies := by
  obtain ⟨entriesShape, journalShape⟩ := reads.run_eq stage.outermost
  have parsedEntries :
      (Script.parse Closures.standard true journal text).1 = result.frame.entries :=
    entriesShape
  have parsedJournal :
      (Script.parse Closures.standard true journal text).2 = result.session.journal :=
    journalShape
  unfold Project.pass
  rw [fileText]
  refine ⟨_, _, rfl, ?_, ?_⟩
  · change Knows apart (Script.parse Closures.standard true journal text).2.table known
    rw [parsedJournal]
    exact stage.knows
  · change Mapping.get? (Script.parse Closures.standard true journal text).1 dependenciesKey = _
    rw [parsedEntries]
    exact stage.dependencies

/-- A pass over a root file adds the declarations of the file to what the variables know. -/
theorem RootFile.pass_eq
    {files : Files} {path : Text} {journal : Journal}
    {apart : List Text} {known : List (Text × Text)}
    (file : RootFile)
    (fileText : files.scriptText path = .ok file.text)
    (knows : Knows apart journal.table known)
    (sound : ∀ declaration ∈ known, Sound declaration)
    (distinct : (file.declared.map Prod.fst).Nodup)
    (consistent : Consistent (known ++ file.declared)) :
    (∀ declaration ∈ known ++ file.declared, Sound declaration) ∧
      ∃ entries left,
        Project.pass files true journal .root path = (.ok entries, left) ∧
          Knows apart left.table (known ++ file.declared) := by
  have atLine : (State.start (Session.ofText file.text true journal) {} true).AtLine :=
    ⟨⟨rfl, rfl, rfl⟩, rfl, rfl⟩
  obtain ⟨result, reads, stage⟩ :=
    file.readsLine atLine rfl (stage_start knows sound file.text) distinct consistent
  obtain ⟨entries, left, passShape, leftKnows, _⟩ :=
    pass_of_readsLine fileText reads stage .root
  exact ⟨stage.sound, entries, left, passShape, leftKnows⟩

/-- A pass over a main file makes its declarations known, and its dependencies mean what the
declarations known up to their place say. -/
theorem MainFile.pass_eq
    {files : Files} {path : Text} {journal : Journal}
    {apart : List Text} {known : List (Text × Text)}
    (file : MainFile)
    (fileText : files.scriptText path = .ok file.text)
    (knows : Knows apart journal.table known)
    (sound : ∀ declaration ∈ known, Sound declaration)
    (distinct : (file.declared.map Prod.fst).Nodup)
    (consistent : Consistent (known ++ file.declared))
    (elsewhere : RefersElsewhere apart file.dependencies.lines)
    (label : PassLabel) :
    (∀ declaration ∈ known ++ file.declared, Sound declaration) ∧
      ∃ entries left,
        Project.pass files true journal label path = (.ok entries, left) ∧
          Knows apart left.table (known ++ file.declared) ∧
            Mapping.get? entries dependenciesKey =
              some (.mapping
                (file.dependencies.meaning (known ++ declaredBy file.before))) := by
  have atLine : (State.start (Session.ofText file.text true journal) {} true).AtLine :=
    ⟨⟨rfl, rfl, rfl⟩, rfl, rfl⟩
  obtain ⟨result, reads, stage⟩ :=
    file.readsLine atLine rfl (stage_start knows sound file.text) distinct consistent elsewhere
  exact ⟨stage.sound, pass_of_readsLine fileText reads stage label⟩

/-- The passes over root files make their declarations known. -/
theorem passRoots_eq
    {files : Files} {journal : Journal} {apart : List Text} {known : List (Text × Text)}
    {roots : List (Text × RootFile)}
    (rootTexts : ∀ root ∈ roots, files.scriptText root.1 = .ok root.2.text)
    (knows : Knows apart journal.table known)
    (sound : ∀ declaration ∈ known, Sound declaration)
    (distinct : ∀ root ∈ roots, (root.2.declared.map Prod.fst).Nodup)
    (consistent : Consistent (known ++ declaredByRoots roots)) :
    (∀ declaration ∈ known ++ declaredByRoots roots, Sound declaration) ∧
      ∃ left,
        Project.passRoots files true journal (roots.map Prod.fst) = (.ok (), left) ∧
          Knows apart left.table (known ++ declaredByRoots roots) := by
  induction roots generalizing journal known with
  | nil =>
      have nothing : declaredByRoots [] = [] := rfl
      rw [nothing, List.append_nil]
      exact ⟨sound, journal, rfl, knows⟩
  | cons root roots inductionHypothesis =>
      have shape :
          declaredByRoots (root :: roots) = root.2.declared ++ declaredByRoots roots := by
        simp [declaredByRoots]
      rw [shape, ← List.append_assoc] at consistent
      have rootConsistent : Consistent (known ++ root.2.declared) :=
        consistent.of_subset fun declaration member => List.mem_append_left _ member
      obtain ⟨rootSound, entries, middle, passShape, middleKnows⟩ :=
        root.2.pass_eq (rootTexts root List.mem_cons_self) knows sound
          (distinct root List.mem_cons_self) rootConsistent
      obtain ⟨laterSound, left, laterShape, leftKnows⟩ :=
        inductionHypothesis
          (fun other member => rootTexts other (List.mem_cons_of_mem root member)) middleKnows
          rootSound (fun other member => distinct other (List.mem_cons_of_mem root member))
          consistent
      rw [List.append_assoc, ← shape] at laterSound leftKnows
      refine ⟨laterSound, left, ?_, leftKnows⟩
      rw [List.map_cons, Project.passRoots, passShape]
      exact laterShape

/-! ## The whole project -/

/-- The dependencies of a project mean what its declarations say, whatever the order of these and
whatever files they are in. -/
theorem parse_dependencies
    (files : Files) (path : Text) (roots : List (Text × RootFile)) (main : MainFile)
    (declared : List (Text × Text))
    (rootTexts : ∀ root ∈ roots, files.scriptText root.1 = .ok root.2.text)
    (mainText : files.scriptText path = .ok main.text)
    (order : (declaredByRoots roots ++ main.declared).Perm declared)
    (once : (declared.map Prod.fst).Nodup)
    (confsApart : ∀ name ∈ main.dependencies.referenced, name ∉ main.dependencies.confs) :
    ∃ result,
      (Project.parse files true {} ⟨path, roots.map Prod.fst⟩).1 = .ok result ∧
        Mapping.get? result dependenciesKey =
          some (.mapping (main.dependencies.meaning declared)) := by
  have elsewhere : RefersElsewhere main.dependencies.confs main.dependencies.lines :=
    ⟨fun _ member => member, confsApart⟩
  have allOnce : ((declaredByRoots roots ++ main.declared).map Prod.fst).Nodup :=
    (order.map Prod.fst).nodup_iff.mpr once
  have allConsistent := consistent_of_nodup allOnce
  rw [List.map_append] at allOnce
  have rootsDistinct : ∀ root ∈ roots, (root.2.declared.map Prod.fst).Nodup := by
    have rootsOnce := allOnce.of_append_left
    unfold declaredByRoots at rootsOnce
    rw [List.map_flatMap, List.nodup_flatMap] at rootsOnce
    exact rootsOnce.1
  have mainDistinct : (main.declared.map Prod.fst).Nodup := allOnce.of_append_right
  have nothingKnown : Knows main.dependencies.confs ({} : Journal).table [] := by
    intro name _ value
    constructor
    · intro found
      cases found
    · rintro ⟨text, member, _⟩
      cases member
  have rootsConsistent : Consistent ([] ++ declaredByRoots roots) :=
    allConsistent.of_subset fun declaration member => List.mem_append_left _ member
  -- The first pass over the main file ends with every declaration known.
  obtain ⟨rootsSound, seeded, rootsShape, rootsKnown⟩ :=
    passRoots_eq rootTexts nothingKnown (by simp) rootsDistinct rootsConsistent
  rw [List.nil_append] at rootsSound rootsKnown
  obtain ⟨allSound, firstEntries, collected, firstShape, allKnown, _⟩ :=
    main.pass_eq mainText rootsKnown rootsSound mainDistinct allConsistent elsewhere .first
  have againConsistent :
      Consistent ((declaredByRoots roots ++ main.declared) ++ main.declared) :=
    allConsistent.of_subset fun declaration member => by
      simp only [List.mem_append] at member ⊢
      tauto
  obtain ⟨_, result, left, finalShape, _, dependencies⟩ :=
    main.pass_eq mainText allKnown allSound mainDistinct againConsistent elsewhere .final
  refine ⟨result, ?_, ?_⟩
  · unfold Project.parse
    rw [rootsShape]
    dsimp only
    rw [firstShape]
    dsimp only
    rw [finalShape]
  · have members :
        ∀ declaration,
          declaration ∈ (declaredByRoots roots ++ main.declared) ++ declaredBy main.before ↔
            declaration ∈ declared := by
      intro declaration
      rw [← order.mem_iff]
      have declaredShape : main.declared = declaredBy main.before ++ declaredBy main.after := by
        simp [MainFile.declared, declaredBy]
      simp only [declaredShape, List.mem_append]
      tauto
    have sameConsistent :
        Consistent ((declaredByRoots roots ++ main.declared) ++ declaredBy main.before) :=
      (consistent_of_nodup once).of_subset fun declaration member =>
        (members declaration).mp member
    rw [dependencies, main.dependencies.meaning_congr sameConsistent members]

/-- A root file that declares a version. -/
def versionFile : RootFile where
  sections := []
  last :=
    .ext ⟨.none, .none,
      [.declaration ⟨.none, ⟨⟨"v".toList, by decide, by decide⟩, by decide⟩, .none, .none,
        "1$".toList, by decide, by decide, by decide, by decide⟩],
      .none⟩

/-- A main file that refers to the version, to a name that it declares later on, and to one that is
not declared. -/
def referringFile : MainFile where
  before := []
  dependencies :=
    ⟨.none, .space,
      [
        .entry ⟨.tab, ⟨⟨"api".toList, by decide, by decide⟩, by decide⟩, .space,
          Gap.text_space_ne_nil,
          [
            .literal "a:".toList (by decide) (by decide) (by decide) (by decide),
            .reference .bare ⟨"v".toList, by decide, by decide⟩],
          by decide, by decide⟩,
        .entry ⟨.none, ⟨⟨"api".toList, by decide, by decide⟩, by decide⟩, .space,
          Gap.text_space_ne_nil,
          [
            .reference .braced ⟨"w".toList, by decide, by decide⟩,
            .reference .braced ⟨"u".toList, by decide, by decide⟩],
          by decide, by decide⟩],
      .none⟩
  after := [
    .ext ⟨.none, .none,
      [.declaration ⟨.none, ⟨⟨"w".toList, by decide, by decide⟩, by decide⟩, .space, .none,
        "2".toList, by decide, by decide, by decide, by decide⟩],
      .none⟩]

/-- The two files, under one-letter names. -/
def referringFiles : Files :=
  FileTree.files [
    (["r".toList], versionFile.text.map fun ch => UInt8.ofNat ch.toNat),
    (["m".toList], referringFile.text.map fun ch => UInt8.ofNat ch.toNat)]

/-- References are resolved to earlier and later declarations, and left where there is none. -/
theorem parse_dependencies_referringFiles :
    ∃ result,
      (Project.parse referringFiles true {} ⟨"m".toList, ["r".toList]⟩).1 = .ok result ∧
        Mapping.get? result dependenciesKey =
          some (.mapping
            [("api".toList, .list [.text "a:1$".toList, .text "2$\x7bu\x7d".toList])]) := by
  have rootTexts :
      ∀ root ∈ [("r".toList, versionFile)],
        referringFiles.scriptText root.1 = .ok root.2.text := by
    intro root member
    rw [List.mem_singleton.mp member]
    decide
  have mainText : referringFiles.scriptText "m".toList = .ok referringFile.text := by decide
  exact parse_dependencies referringFiles "m".toList [("r".toList, versionFile)] referringFile
    [("w".toList, "2".toList), ("v".toList, "1$".toList)] rootTexts mainText
    (List.Perm.swap _ _ []) (by decide) (by decide)

end GradleScript.Declarations
