import GradleScript.Project
import GradleScript.Proofs.Script.Streams
import GradleScript.Proofs.Simulation.Alike

namespace GradleScript

/-!
# Failures

A stream that fails somewhere is not parsed at all.  A project of which a file cannot be read is
parsed up to that file: what the passes before it have written stays, and nothing else is written.
Files may change between two passes, so the main file can fail at its second pass too.
-/

/-! ## Streams that fail -/

namespace Chunk

open Utf8 (Decoder)

/-- The bytes of a stream, without the texts between them. -/
def bytesOf : List Chunk → List UInt8
  | [] => []
  | .bytes content :: chunks => content ++ bytesOf chunks
  | _ :: chunks => bytesOf chunks

/-- Whether a stream fails: at some piece, or because its bytes encode no text, be it that some of
them are not UTF-8 or that they end inside a character. -/
def Fails (chunks : List Chunk) : Prop :=
  (∃ words, .failure words ∈ chunks) ∨ ∀ text, bytesOf chunks ≠ Utf8.encode text

/-- Pieces that have been taken hold no failure, and their bytes can be taken by themselves. -/
theorem hasTaken_of_foldlM_decode
    {decoder shadow last : Decoder} {taken : List UInt8} {chunks : List Chunk}
    (samePending : decoder.pending = shadow.pending)
    (hasTaken : shadow.HasTaken taken)
    (decoded : chunks.foldlM decode decoder = .ok last) :
    (∀ words, .failure words ∉ chunks) ∧
      ∃ lastShadow : Decoder,
        last.pending = lastShadow.pending ∧ lastShadow.HasTaken (taken ++ bytesOf chunks) := by
  induction chunks generalizing decoder shadow taken with
  | nil =>
      cases decoded
      refine ⟨nofun, shadow, samePending, ?_⟩
      rw [bytesOf, List.append_nil]
      exact hasTaken
  | cons chunk chunks inductionHypothesis =>
      rw [List.foldlM_cons] at decoded
      cases chunk with
      | text content =>
          let next : Decoder := { decoder with decoded := content.reverse ++ decoder.decoded }
          have nextPending : next.pending = shadow.pending := samePending
          have laterDecoded : chunks.foldlM decode next = .ok last := decoded
          obtain ⟨noFailure, lastShadow, lastPending, lastTaken⟩ :=
            inductionHypothesis nextPending hasTaken laterDecoded
          refine ⟨?_, lastShadow, lastPending, lastTaken⟩
          intro words member
          exact noFailure words ((List.mem_cons.mp member).resolve_left nofun)
      | bytes content =>
          rw [decode_bytes] at decoded
          cases first : decoder.rebase.feedAll content with
          | error fault =>
              rw [first] at decoded
              cases decoded
          | ok next =>
              rw [first] at decoded
              have rebasedPending : decoder.rebase.pending = shadow.pending := samePending
              have laterDecoded : chunks.foldlM decode next = .ok last := decoded
              obtain ⟨nextShadow, _, shadowFed, nextPending, _, _⟩ :=
                Decoder.exists_feedAll_of_pending rebasedPending first
              obtain ⟨noFailure, lastShadow, lastPending, lastTaken⟩ :=
                inductionHypothesis nextPending (hasTaken.feedAll shadowFed) laterDecoded
              rw [List.append_assoc] at lastTaken
              refine ⟨?_, lastShadow, lastPending, lastTaken⟩
              intro words member
              exact noFailure words ((List.mem_cons.mp member).resolve_left nofun)
      | failure words =>
          cases decoded

/-- The pieces of a stream that fails have no text. -/
theorem exists_joined_eq_error
    {chunks : List Chunk}
    (fails : Fails chunks) :
    ∃ cause, joined chunks = .error cause := by
  have startedEmpty : Decoder.HasTaken {} [] := rfl
  unfold joined
  cases decoded : chunks.foldlM decode {} with
  | error cause =>
      exact ⟨cause, rfl⟩
  | ok last =>
      obtain ⟨noFailure, shadow, samePending, hasTaken⟩ :=
        hasTaken_of_foldlM_decode rfl startedEmpty decoded
      rcases fails with ⟨words, member⟩ | noText
      · exact (noFailure words member).elim
      · unfold Decoder.HasTaken at hasTaken
        rw [← samePending] at hasTaken
        cases begun : last.pending with
        | none =>
            rw [begun] at hasTaken
            exact (noText _ hasTaken).elim
        | some pending =>
            unfold Decoder.rebase Decoder.finish
            simp only [begun]
            exact ⟨_, rfl⟩

end Chunk

namespace Script

/-- A stream that fails is refused under its name, and leaves the journal as it was. -/
theorem exists_parseChunks_eq_error
    {chunks : List Chunk}
    (fails : Chunk.Fails chunks)
    (restricted : Bool) (journal : Journal) (name : Text) :
    ∃ cause,
      parseChunks restricted journal name chunks =
        (.error (.unreadable name cause), journal) := by
  obtain ⟨cause, failed⟩ := Chunk.exists_joined_eq_error fails
  refine ⟨cause, ?_⟩
  unfold parseChunks Chunk.streamText
  rw [failed]
  rfl

/-! ## Texts that are parsed one after another -/

/-- What a pass denotes, and the variables it leaves, depend on the variables it begins with, and
not on what has been reported before. -/
theorem table_parse_congr
    {journal other : Journal}
    (sameTable : other.table = journal.table)
    (closures : Closures) (restricted : Bool) (text : Text) :
    (parse closures restricted journal text).1 = (parse closures restricted other text).1 ∧
      (parse closures restricted journal text).2.table =
        (parse closures restricted other text).2.table := by
  have alike :
      State.Alike Eq (State.start (.ofText text restricted journal) {} true)
        (State.start (.ofText text restricted other) {} true) := by
    refine ⟨rfl, rfl, ?_⟩
    unfold State.StoredAlike State.storage
    exact congrArg (fun table => Storage.mk [] [] [] false table) sameTable
  exact alike.run rfl closures

/-- The variables that texts leave which are parsed one after another. -/
def tableAfter (restricted : Bool) (table : Variables) (texts : List Text) : Variables :=
  texts.foldl (fun table text => (parse .standard restricted ⟨table, []⟩ text).2.table) table

end Script

/-! ## Files that cannot be read -/

namespace Files

/-- Whether a file has a text, which its bytes encode, apart from the spelling of its line ends. -/
def Gives (files : Files) (path text : Text) : Prop :=
  '\x00' ∉ path ∧
    ∃ decoded,
      files.read (Path.ofText path) = .ok (Utf8.encode decoded) ∧ text = unifyLineEnds decoded

/-- Whether a file cannot be read: the system refuses it, or its bytes encode no text. -/
def Refuses (files : Files) (path : Text) : Prop :=
  '\x00' ∉ path ∧
    ((∃ fault, files.read (Path.ofText path) = .error fault) ∨
      ∃ bytes,
        files.read (Path.ofText path) = .ok bytes ∧ ∀ text, bytes ≠ Utf8.encode text)

/-- A script that has been given is the text that its file holds. -/
theorem scriptText_of_gives
    {files : Files} {path text : Text}
    (gives : files.Gives path text) :
    files.scriptText path = .ok text := by
  obtain ⟨noNull, decoded, read, rfl⟩ := gives
  unfold scriptText
  rw [if_neg (by simpa using noNull), read]
  dsimp only
  rw [Utf8.decode_eq_ok_iff.mpr rfl]

/-- A script that cannot be read is an error for its path. -/
theorem exists_scriptText_of_refuses
    {files : Files} {path : Text}
    (refuses : files.Refuses path) :
    ∃ cause, files.scriptText path = .error (.unreadable path cause) := by
  obtain ⟨noNull, ⟨fault, read⟩ | ⟨bytes, read, noText⟩⟩ := refuses
  · unfold scriptText
    rw [if_neg (by simpa using noNull), read]
    exact ⟨_, rfl⟩
  · unfold scriptText
    rw [if_neg (by simpa using noNull), read]
    dsimp only
    cases decoded : Utf8.decode bytes with
    | error fault =>
        exact ⟨_, rfl⟩
    | ok text =>
        exact (noText text (Utf8.decode_eq_ok_iff.mp decoded)).elim

end Files

namespace Project

/-- Whether the file of a pass has a text at the time of the pass. -/
def Visit.Gives (visit : Visit) (text : Text) : Prop :=
  visit.files.Gives visit.path text

/-- Passes up to a first file that cannot be read leave the variables of the texts before it. -/
theorem exists_passEach_eq_error
    {before later : List Visit} {visit : Visit} {texts : List Text}
    (given : List.Forall₂ Visit.Gives before texts)
    (refuses : visit.files.Refuses visit.path)
    (restricted : Bool) (result : Mapping) (journal : Journal) :
    ∃ cause left,
      passEach restricted result journal (before ++ visit :: later) =
          (.error (.unreadable visit.path cause), left) ∧
        left.table = Script.tableAfter restricted journal.table texts := by
  induction given generalizing result journal with
  | nil =>
      obtain ⟨cause, refused⟩ := Files.exists_scriptText_of_refuses refuses
      refine ⟨cause, journal, ?_, rfl⟩
      rw [List.nil_append, passEach]
      unfold pass
      rw [refused]
  | @cons first text before texts gives _ inductionHypothesis =>
      have hasText := Files.scriptText_of_gives gives
      rw [List.cons_append, passEach]
      unfold pass
      rw [hasText]
      dsimp only
      obtain ⟨cause, left, passed, table⟩ := inductionHypothesis _ _
      refine ⟨cause, left, passed, table.trans ?_⟩
      have sameStart : (⟨journal.table, []⟩ : Journal).table = journal.table := rfl
      have sameTable :
          (Script.parse .standard restricted journal text).2.table =
            (Script.parse .standard restricted ⟨journal.table, []⟩ text).2.table :=
        (Script.table_parse_congr sameStart .standard restricted text).2
      unfold Script.tableAfter
      rw [List.foldl_cons, ← sameTable]
      rfl

/-- While the files stay as they are, every pass is made among the same ones. -/
theorem visits_const
    (files : Files) (project : Project) :
    project.visits (fun _ => files) =
      project.roots.map (fun root => ⟨files, .root, root⟩) ++
        [⟨files, .first, project.path⟩, ⟨files, .final, project.path⟩] := by
  let passes : List (PassLabel × Text) :=
    project.roots.map (fun root => (.root, root)) ++
      [(.first, project.path), (.final, project.path)]
  calc
    project.visits (fun _ => files) =
        (passes.zipIdx.map Prod.fst).map fun pass => ⟨files, pass.1, pass.2⟩ := by
      rw [List.map_map]
      rfl
    _ = passes.map fun pass => ⟨files, pass.1, pass.2⟩ := by
      rw [List.zipIdx_map_fst]
    _ = _ := by
      rw [List.map_append, List.map_map]
      rfl

/-- The passes over the root files come first. -/
theorem passEach_roots
    (files : Files) (restricted : Bool) (result : Mapping) (journal : Journal) (roots : List Text)
    (visit : Visit) (later : List Visit) :
    passEach restricted result journal
        (roots.map (fun root => ⟨files, .root, root⟩) ++ visit :: later) =
      match passRoots files restricted journal roots with
      | (.error error, left) => (.error error, left)
      | (.ok _, left) => passEach restricted [] left (visit :: later) := by
  induction roots generalizing result journal with
  | nil =>
      rw [passRoots]
      rfl
  | cons root roots inductionHypothesis =>
      rw [List.map_cons, List.cons_append, passEach, passRoots]
      dsimp only
      cases made : pass files restricted journal .root root with
      | mk outcome left =>
          cases outcome with
          | error error =>
              rfl
          | ok rootResult =>
              exact inductionHypothesis rootResult left

/-- Files that stay as they are do not change between two passes. -/
theorem parse_eq_parseDuring
    (files : Files) (restricted : Bool) (journal : Journal) (project : Project) :
    parse files restricted journal project =
      parseDuring (fun _ => files) restricted journal project := by
  unfold parse parseDuring
  rw [visits_const, passEach_roots]
  cases passRoots files restricted journal project.roots with
  | mk outcome seeded =>
      cases outcome with
      | error error =>
          rfl
      | ok _ =>
          dsimp only
          rw [passEach]
          cases pass files restricted seeded .first project.path with
          | mk firstOutcome collected =>
              cases firstOutcome with
              | error error =>
                  rfl
              | ok _ =>
                  dsimp only
                  rw [passEach]
                  cases pass files restricted collected .final project.path with
                  | mk finalOutcome left =>
                      cases finalOutcome <;> rfl

end Project

/-- A stream that fails is refused under its name, and nothing of it is parsed.  A project is
refused under the path of the first file that cannot be read when its pass begins, and leaves the
variables that the texts of the passes before it leave, each parsed once and in order.  So does a
project whose files stay as they are. -/
theorem failures_keep_completedPasses
    (restricted : Bool) (journal : Journal) :
    (∀ name chunks,
      Chunk.Fails chunks →
        ∃ cause,
          Script.parseChunks restricted journal name chunks =
            (.error (.unreadable name cause), journal)) ∧
      (∀ moments project before visit later texts,
        Project.visits moments project = before ++ visit :: later →
          List.Forall₂ Project.Visit.Gives before texts →
            visit.files.Refuses visit.path →
              ∃ cause left,
                Project.parseDuring moments restricted journal project =
                    (.error (.unreadable visit.path cause), left) ∧
                  left.table = Script.tableAfter restricted journal.table texts) ∧
        ∀ files project,
          Project.parse files restricted journal project =
            Project.parseDuring (fun _ => files) restricted journal project := by
  refine ⟨?_, ?_, ?_⟩
  · intro name chunks fails
    exact Script.exists_parseChunks_eq_error fails restricted journal name
  · intro moments project before visit later texts order given refuses
    unfold Project.parseDuring
    rw [order]
    exact Project.exists_passEach_eq_error given refuses restricted [] journal
  · intro files project
    exact Project.parse_eq_parseDuring files restricted journal project

/-- A stream that ends inside a character, and a main file that is gone before its second pass. -/
theorem failures_keep_completedPasses_fileRemoved :
    ∃ (chunks : List Chunk) (moments : Nat → Files) (project : Project) (texts : List Text),
      Chunk.Fails chunks ∧
        (∃ cause,
          Script.parseChunks true {} "s".toList chunks =
            (.error (.unreadable "s".toList cause), {})) ∧
          texts.length = 2 ∧
            ∃ cause left,
              Project.parseDuring moments true {} project =
                  (.error (.unreadable "m".toList cause), left) ∧
                left.table = Script.tableAfter true {} texts := by
  let chunks : List Chunk := [.text "x 1\n".toList, .bytes [0xC3]]
  let rootText : Text := "ext.v = 1\n".toList
  let mainText : Text := "x 2\n".toList
  let present : FileTree :=
    .ofNames [("r".toList, Utf8.encode rootText), ("m".toList, Utf8.encode mainText)]
  let removed : FileTree := .ofNames [("r".toList, Utf8.encode rootText)]
  let moments (index : Nat) : Files := if index < 2 then present.files else removed.files
  let project : Project := ⟨"m".toList, ["r".toList]⟩
  obtain ⟨ofStreams, ofFiles, _⟩ := failures_keep_completedPasses true {}
  have fails : Chunk.Fails chunks := by
    refine .inr ?_
    intro text encoded
    have decoded : Utf8.decode (Chunk.bytesOf chunks) = .ok text :=
      Utf8.decode_eq_ok_iff.mpr encoded
    have refused : Utf8.decode (Chunk.bytesOf chunks) = .error ⟨0, 1, 0xC3, .endOfData⟩ := rfl
    cases refused.symm.trans decoded
  have given :
      List.Forall₂ Project.Visit.Gives
        [⟨present.files, .root, "r".toList⟩, ⟨present.files, .first, "m".toList⟩]
        [rootText, mainText] := by
    exact .cons ⟨by decide, rootText, rfl, rfl⟩ (.cons ⟨by decide, mainText, rfl, rfl⟩ .nil)
  have refuses : removed.files.Refuses "m".toList :=
    ⟨by decide, .inl ⟨.notFound, rfl⟩⟩
  exact
    ⟨chunks, moments, project, [rootText, mainText], fails, ofStreams _ _ fails, rfl,
      ofFiles moments project _ ⟨removed.files, .final, "m".toList⟩ [] _ rfl given refuses⟩

end GradleScript
