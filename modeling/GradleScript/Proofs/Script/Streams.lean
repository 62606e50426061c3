import GradleScript.Proofs.Source.Encoding
import GradleScript.Script

namespace GradleScript

/-!
# Streams

A stream counts positions from the beginning of each piece, and only the fault it may end with
tells them.  So the pieces of a stream decode as the bytes that they are put together to: it does
not matter where the bytes are cut, inside a character or not, and only bytes that encode a text
are parsed, all of them as one text.
-/

/-! ## Positions -/

namespace Utf8.Decoder

/-- Two decoders that have begun the same character take a byte alike. -/
theorem exists_feed_of_pending
    {decoder other next : Decoder} {byte : UInt8}
    (samePending : decoder.pending = other.pending)
    (fed : decoder.feed byte = .ok next) :
    ∃ otherNext added,
      other.feed byte = .ok otherNext ∧
        next.pending = otherNext.pending ∧
          next.decoded = added ++ decoder.decoded ∧
            otherNext.decoded = added ++ other.decoded := by
  unfold feed at fed ⊢
  rw [← samePending]
  split at fed
  · split at fed
    · cases fed
    · cases fed
      exact ⟨_, [_], rfl, rfl, rfl, rfl⟩
    · cases fed
      exact ⟨_, [], rfl, rfl, rfl, rfl⟩
  · next pending isBegun =>
      split at fed
      · next inRange =>
          rw [if_pos inRange]
          cases others : pending.others with
          | nil =>
              rw [others] at fed
              cases fed
              exact ⟨_, [_], rfl, rfl, rfl, rfl⟩
          | cons range more =>
              rw [others] at fed
              cases fed
              exact ⟨_, [], rfl, rfl, rfl, rfl⟩
      · cases fed

/-- Two decoders that have begun the same character take bytes alike. -/
theorem exists_feedAll_of_pending
    {decoder other last : Decoder} {bytes : List UInt8}
    (samePending : decoder.pending = other.pending)
    (fed : decoder.feedAll bytes = .ok last) :
    ∃ otherLast added,
      other.feedAll bytes = .ok otherLast ∧
        last.pending = otherLast.pending ∧
          last.decoded = added ++ decoder.decoded ∧
            otherLast.decoded = added ++ other.decoded := by
  unfold feedAll at fed ⊢
  induction bytes generalizing decoder other with
  | nil =>
      cases fed
      exact ⟨other, [], rfl, samePending, rfl, rfl⟩
  | cons byte bytes inductionHypothesis =>
      rw [List.foldlM_cons] at fed ⊢
      cases first : decoder.feed byte with
      | error fault =>
          rw [first] at fed
          cases fed
      | ok next =>
          rw [first] at fed
          obtain ⟨otherNext, added, otherFirst, nextPending, decoded, otherDecoded⟩ :=
            exists_feed_of_pending samePending first
          obtain ⟨otherLast, more, otherFed, lastPending, lastDecoded, otherLastDecoded⟩ :=
            inductionHypothesis nextPending fed
          rw [decoded, ← List.append_assoc] at lastDecoded
          rw [otherDecoded, ← List.append_assoc] at otherLastDecoded
          rw [otherFirst]
          exact
            ⟨otherLast, more ++ added, otherFed, lastPending, lastDecoded, otherLastDecoded⟩

/-- Whether two decoders have begun the same character after the same text, at any positions. -/
structure Agrees (decoder other : Decoder) : Prop where
  pending : decoder.pending = other.pending
  decoded : decoder.decoded = other.decoded

namespace Agrees

variable {decoder other : Decoder}

/-- A new piece is counted from its beginning, which does not show in what is decoded. -/
theorem rebase
    (agrees : decoder.Agrees other) :
    decoder.Agrees other.rebase :=
  ⟨agrees.pending, agrees.decoded⟩

/-- Decoders that agree take the same bytes, and they agree behind them. -/
theorem feedAll
    {last : Decoder} {bytes : List UInt8}
    (agrees : decoder.Agrees other)
    (fed : decoder.feedAll bytes = .ok last) :
    ∃ otherLast, other.feedAll bytes = .ok otherLast ∧ last.Agrees otherLast := by
  obtain ⟨otherLast, added, otherFed, samePending, decoded, otherDecoded⟩ :=
    exists_feedAll_of_pending agrees.pending fed
  have sameDecoded : last.decoded = otherLast.decoded := by
    rw [decoded, otherDecoded, agrees.decoded]
  exact ⟨otherLast, otherFed, samePending, sameDecoded⟩

end Agrees

end Utf8.Decoder

/-! ## Pieces -/

namespace Chunk

open Utf8 (Decoder)

/-- A piece of bytes goes on with the character that the pieces before it have begun. -/
theorem decode_bytes
    (decoder : Decoder) (piece : List UInt8) :
    decode decoder (bytes piece) = (decoder.rebase.feedAll piece).mapError ReadCause.encoding :=
  rfl

/-- Pieces are taken as the bytes that they are put together to. -/
theorem foldlM_decode_bytes
    {decoder other last : Decoder} {pieces : List (List UInt8)}
    (agrees : decoder.Agrees other)
    (fed : decoder.feedAll pieces.flatten = .ok last) :
    ∃ otherLast, (pieces.map bytes).foldlM decode other = .ok otherLast ∧
      last.Agrees otherLast := by
  induction pieces generalizing decoder other with
  | nil =>
      cases fed
      exact ⟨other, rfl, agrees⟩
  | cons piece pieces inductionHypothesis =>
      rw [List.flatten_cons, Decoder.feedAll_append] at fed
      rw [List.map_cons, List.foldlM_cons]
      cases first : decoder.feedAll piece with
      | error fault =>
          rw [first] at fed
          cases fed
      | ok next =>
          rw [first] at fed
          obtain ⟨otherNext, otherFirst, nextAgrees⟩ := agrees.rebase.feedAll first
          rw [decode_bytes, otherFirst]
          exact inductionHypothesis nextAgrees fed

/-- Pieces of bytes are taken one after another, or some of their bytes are not UTF-8. -/
theorem hasTaken_foldlM_decode_bytes
    {decoder : Decoder} {taken : List UInt8}
    (hasTaken : decoder.HasTaken taken)
    (pieces : List (List UInt8)) :
    (∃ last, (pieces.map bytes).foldlM decode decoder = .ok last ∧
        last.HasTaken (taken ++ pieces.flatten)) ∨
      ∃ fault, (pieces.map bytes).foldlM decode decoder = .error (.encoding fault) := by
  induction pieces generalizing decoder taken with
  | nil =>
      rw [List.flatten_nil, List.append_nil]
      exact .inl ⟨decoder, rfl, hasTaken⟩
  | cons piece pieces inductionHypothesis =>
      have rebased : decoder.rebase.HasTaken taken := hasTaken
      rw [List.map_cons, List.foldlM_cons, List.flatten_cons, ← List.append_assoc, decode_bytes]
      cases first : decoder.rebase.feedAll piece with
      | error fault =>
          exact .inr ⟨fault, rfl⟩
      | ok next =>
          exact inductionHypothesis (rebased.feedAll first)

/-- Pieces that are put together to the encoding of a text are joined to the text. -/
theorem joined_bytes_of_encode
    {pieces : List (List UInt8)} {text : Text}
    (encoded : pieces.flatten = Utf8.encode text) :
    joined (pieces.map bytes) = .ok text := by
  have noneBegun : Decoder.pending {} = none := rfl
  obtain ⟨position, fed⟩ := Decoder.feedAll_encode noneBegun text
  rw [← encoded] at fed
  obtain ⟨last, taken, agrees⟩ := foldlM_decode_bytes ⟨rfl, rfl⟩ fed
  have lastNoneBegun : last.rebase.pending = none := agrees.pending.symm
  have lastDecoded : last.rebase.decoded = text.reverse := by
    rw [Decoder.rebase, ← agrees.decoded, List.append_nil]
  unfold joined
  rw [taken]
  unfold Decoder.finish
  simp only [lastNoneBegun, lastDecoded, List.reverse_reverse]
  rfl

/-- Pieces of bytes encode the text that they decode to; else some of their bytes are not UTF-8. -/
theorem joined_bytes
    (pieces : List (List UInt8)) :
    (∃ text, joined (pieces.map bytes) = .ok text ∧ pieces.flatten = Utf8.encode text) ∨
      ∃ fault, joined (pieces.map bytes) = .error (.encoding fault) := by
  have startedEmpty : Decoder.HasTaken {} [] := rfl
  unfold joined
  obtain ⟨last, taken, hasTaken⟩ | ⟨fault, failed⟩ :=
    hasTaken_foldlM_decode_bytes startedEmpty pieces
  · rw [taken]
    have rebased : last.rebase.HasTaken pieces.flatten := hasTaken
    unfold Decoder.HasTaken at rebased
    unfold Decoder.finish
    dsimp only
    cases begun : last.rebase.pending with
    | none =>
        rw [begun] at rebased
        exact .inl ⟨_, rfl, rebased⟩
    | some pending =>
        exact .inr ⟨_, rfl⟩
  · rw [failed]
    exact .inr ⟨fault, rfl⟩

example : joined [.bytes [0xC3], .bytes [], .bytes [0xA9]] = .ok ['é'] := by
  rfl

/-- Pieces of text are added to what has been decoded as they are. -/
theorem foldlM_decode_text
    (decoder : Decoder) (pieces : List Text) :
    (pieces.map text).foldlM decode decoder =
      .ok { decoder with decoded := pieces.flatten.reverse ++ decoder.decoded } := by
  induction pieces generalizing decoder with
  | nil =>
      rfl
  | cons piece pieces inductionHypothesis =>
      rw [List.map_cons, List.foldlM_cons]
      unfold decode
      refine (inductionHypothesis _).trans ?_
      rw [List.flatten_cons, List.reverse_append, List.append_assoc]

/-- Pieces of text are joined to the text that they are put together to. -/
theorem joined_text
    (pieces : List Text) :
    joined (pieces.map text) = .ok pieces.flatten := by
  have taken := foldlM_decode_text {} pieces
  rw [List.append_nil] at taken
  unfold joined
  rw [taken]
  unfold Decoder.rebase Decoder.finish
  dsimp only
  rw [List.reverse_reverse]
  rfl

end Chunk

/-! ## Parsing -/

namespace Script

/-- A stream that is joined to a text is parsed as the text is. -/
theorem parseChunks_of_joined
    {restricted : Bool} {journal : Journal} {name text : Text} {chunks : List Chunk}
    (joined : Chunk.joined chunks = .ok text) :
    parseChunks restricted journal name chunks =
      (.ok (parse Closures.standard restricted journal text).1,
        (parse Closures.standard restricted journal text).2) := by
  unfold parseChunks Chunk.streamText
  rw [joined]
  rfl

/-- A stream is parsed as the text that its pieces are put together to, wherever that text or its
bytes are cut.  Bytes that encode no text are refused before anything is parsed. -/
theorem parseChunks_pieces
    (restricted : Bool) (journal : Journal) (name : Text) :
    (∀ pieces : List (List UInt8),
      (∃ text, pieces.flatten = Utf8.encode text ∧
        parseChunks restricted journal name (pieces.map .bytes) =
          (.ok (parse Closures.standard restricted journal text).1,
            (parse Closures.standard restricted journal text).2)) ∨
      ((∀ text, pieces.flatten ≠ Utf8.encode text) ∧
        ∃ fault, parseChunks restricted journal name (pieces.map .bytes) =
          (.error (.unreadable name (.encoding fault)), journal))) ∧
    ∀ pieces : List Text,
      parseChunks restricted journal name (pieces.map .text) =
        (.ok (parse Closures.standard restricted journal pieces.flatten).1,
          (parse Closures.standard restricted journal pieces.flatten).2) := by
  constructor
  · intro pieces
    obtain ⟨text, joined, encoded⟩ | ⟨fault, failed⟩ := Chunk.joined_bytes pieces
    · exact .inl ⟨text, encoded, parseChunks_of_joined joined⟩
    · refine .inr ⟨?_, fault, ?_⟩
      · intro text encoded
        rw [Chunk.joined_bytes_of_encode encoded] at failed
        cases failed
      · unfold parseChunks Chunk.streamText
        rw [failed]
        rfl
  · intro pieces
    exact parseChunks_of_joined (Chunk.joined_text pieces)

end Script

end GradleScript
