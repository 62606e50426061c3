import Mathlib.Data.List.Forall2
import GradleScript.Source.Utf8

namespace GradleScript.Utf8

/-!
# Decoding undoes encoding

The first byte of a character fixes the ranges of the bytes that must follow it, and bytes in these
ranges make up the encoding of one character.  So a decoder has always taken the encoding of the
text it has decoded and the beginning of one more character, and bytes decode exactly when they
encode a text.
-/

/-- The bytes that encode a text. -/
def encode (text : Text) : List UInt8 :=
  text.flatMap String.utf8EncodeChar

/-- Whether bytes lie one by one in the ranges of the bytes that must follow. -/
abbrev Fits (ranges : List ByteRange) (bytes : List UInt8) : Prop :=
  List.Forall₂ (fun range byte => range.covers byte = true) ranges bytes

/-- The code of the character whose bits begin with a number and go on with those of bytes. -/
def codeAfter (code : Nat) (bytes : List UInt8) : Nat :=
  bytes.foldl (fun code byte => code * 64 + byte.toNat % 64) code

/-! ## First bytes -/

/-- A range covers the bytes between its ends. -/
theorem covers_iff
    (range : ByteRange) (byte : UInt8) :
    range.covers byte = true ↔ range.first ≤ byte.toNat ∧ byte.toNat ≤ range.last := by
  simp [ByteRange.covers]

/-- The range of the second of three bytes: the shortest form and no surrogate. -/
structure SecondOfThree (code : Nat) (range : ByteRange) : Prop where
  first : range.first = if code = 0 then 0xA0 else 0x80
  last : range.last = if code = 0xD then 0x9F else 0xBF

/-- The range of the second of four bytes: the shortest form and no code past the last one. -/
structure SecondOfFour (code : Nat) (range : ByteRange) : Prop where
  first : range.first = if code = 0 then 0x90 else 0x80
  last : range.last = if code = 4 then 0x8F else 0xBF

/-- The second of three bytes follows any first byte, but for the longer forms and the
surrogates. -/
theorem SecondOfThree.covers_iff
    {code : Nat} {range : ByteRange}
    (second : SecondOfThree code range)
    (byte : UInt8) :
    range.covers byte = true ↔
      0x80 ≤ byte.toNat ∧ byte.toNat ≤ 0xBF ∧
        (code = 0 → 0xA0 ≤ byte.toNat) ∧ (code = 0xD → byte.toNat ≤ 0x9F) := by
  rw [Utf8.covers_iff, second.first, second.last]
  split <;> split <;> omega

/-- The second of four bytes follows any first byte, but for the longer forms and the codes past the
last one. -/
theorem SecondOfFour.covers_iff
    {code : Nat} {range : ByteRange}
    (second : SecondOfFour code range)
    (byte : UInt8) :
    range.covers byte = true ↔
      0x80 ≤ byte.toNat ∧ byte.toNat ≤ 0xBF ∧
        (code = 0 → 0x90 ≤ byte.toNat) ∧ (code = 4 → byte.toNat ≤ 0x8F) := by
  rw [Utf8.covers_iff, second.first, second.last]
  split <;> split <;> omega

/-- Every later byte begins with the same two bits. -/
theorem covers_tail_iff
    (byte : UInt8) :
    tail.covers byte = true ↔ 0x80 ≤ byte.toNat ∧ byte.toNat ≤ 0xBF :=
  covers_iff tail byte

/-- What the first byte of a character says of it, by the number of its bytes. -/
inductive Lead (byte : UInt8) (code : Nat) : List ByteRange → Prop where
  | one :
      byte.toNat = code → code < 0x80 → Lead byte code []
  | two :
      byte.toNat = code + 0xC0 → 2 ≤ code → code < 0x20 → Lead byte code [tail]
  | three {second : ByteRange} :
      byte.toNat = code + 0xE0 → code < 0x10 → SecondOfThree code second →
        Lead byte code [second, tail]
  | four {second : ByteRange} :
      byte.toNat = code + 0xF0 → code ≤ 4 → SecondOfFour code second →
        Lead byte code [second, tail, tail]

/-- A first byte that the decoder accepts is the first byte of a character. -/
theorem lead_of_lead?
    {byte : UInt8} {code : Nat} {ranges : List ByteRange}
    (found : lead? byte = some (code, ranges)) :
    Lead byte code ranges := by
  unfold lead? at found
  dsimp only at found
  repeat' split at found
  all_goals
    simp only [Option.some.injEq, Prod.mk.injEq, reduceCtorEq, Bool.and_eq_true, decide_eq_true_eq,
      beq_iff_eq] at *
  all_goals
    obtain ⟨rfl, rfl⟩ := found
  · exact .one rfl (by omega)
  · exact .two (by omega) (by omega) (by omega)
  · exact .three (by omega) (by omega) ⟨rfl, rfl⟩
  · exact .three (by omega) (by omega) ⟨rfl, rfl⟩
  · refine .three (by omega) (by omega) ⟨?_, ?_⟩
    · rw [if_neg (by omega)]
      rfl
    · rw [if_neg (by omega)]
      rfl
  · exact .four (by omega) (by omega) ⟨rfl, rfl⟩
  · refine .four (by omega) (by omega) ⟨?_, ?_⟩
    · rw [if_neg (by omega)]
      rfl
    · rw [if_neg (by omega)]
      rfl
  · exact .four (by omega) (by omega) ⟨rfl, rfl⟩

/-- The first byte of a character is accepted by the decoder. -/
theorem lead?_of_lead
    {byte : UInt8} {code : Nat} {ranges : List ByteRange}
    (lead : Lead byte code ranges) :
    lead? byte = some (code, ranges) := by
  unfold lead?
  dsimp only
  cases lead with
  | one isByte below =>
      rw [isByte, if_pos below]
  | two isByte above below =>
      rw [isByte, if_neg (by omega), if_pos (by simp; omega), Nat.add_sub_cancel]
  | @three second isByte below range =>
      obtain ⟨first, last⟩ := second
      obtain ⟨rfl, rfl⟩ := range
      rw [isByte, if_neg (by omega), if_neg (by simp)]
      by_cases isFirst : code = 0
      · subst isFirst
        rfl
      · by_cases surrogates : code = 0xD
        · subst surrogates
          rfl
        · rw [if_neg (by simpa using isFirst), if_neg (by simpa using surrogates),
            if_pos (by simp; omega), Nat.add_sub_cancel, if_neg isFirst, if_neg surrogates]
          rfl
  | @four second isByte below range =>
      obtain ⟨first, last⟩ := second
      obtain ⟨rfl, rfl⟩ := range
      rw [isByte, if_neg (by omega), if_neg (by simp), if_neg (by simp), if_neg (by simp),
        if_neg (by simp)]
      by_cases isFirst : code = 0
      · subst isFirst
        rfl
      · by_cases isLast : code = 4
        · subst isLast
          rfl
        · rw [if_neg (by simpa using isFirst), if_pos (by simp; omega), Nat.add_sub_cancel,
            if_neg isFirst, if_neg isLast]
          rfl

/-! ## One character -/

/-- A valid code is the code of its character. -/
theorem toNat_ofNat
    {code : Nat}
    (valid : code.isValidChar) :
    (Char.ofNat code).val.toNat = code := by
  unfold Char.ofNat
  rw [dif_pos valid]
  rfl

/-- A list of bytes begins with a byte that is given by its number. -/
theorem ofNat_cons_eq
    {code : Nat} {byte : UInt8} {rest other : List UInt8}
    (isByte : byte.toNat = code)
    (same : rest = other) :
    UInt8.ofNat code :: rest = byte :: other := by
  rw [← isByte, UInt8.ofNat_toNat, same]

/-- A first byte and bytes in the ranges that it fixes encode one character. -/
theorem utf8EncodeChar_of_lead
    {byte : UInt8} {code : Nat} {ranges : List ByteRange} {following : List UInt8}
    (lead : Lead byte code ranges)
    (fits : Fits ranges following) :
    String.utf8EncodeChar (Char.ofNat (codeAfter code following)) = byte :: following := by
  have encoded {whole : Nat} (valid : whole.isValidChar) :
      String.utf8EncodeChar (Char.ofNat whole) =
        if whole ≤ 0x7F then
          [UInt8.ofNat whole]
        else if whole ≤ 0x7FF then
          [UInt8.ofNat (whole / 64 % 32 + 0xC0), UInt8.ofNat (whole % 64 + 0x80)]
        else if whole ≤ 0xFFFF then
          [UInt8.ofNat (whole / 4096 % 16 + 0xE0), UInt8.ofNat (whole / 64 % 64 + 0x80),
            UInt8.ofNat (whole % 64 + 0x80)]
        else
          [UInt8.ofNat (whole / 262144 % 8 + 0xF0), UInt8.ofNat (whole / 4096 % 64 + 0x80),
            UInt8.ofNat (whole / 64 % 64 + 0x80), UInt8.ofNat (whole % 64 + 0x80)] := by
    unfold String.utf8EncodeChar
    simp only [toNat_ofNat valid]
  cases lead with
  | one isByte below =>
      obtain rfl := List.forall₂_nil_left_iff.mp fits
      rw [codeAfter, List.foldl_nil, encoded (.inl (by omega)), if_pos (by omega)]
      exact ofNat_cons_eq isByte rfl
  | two isByte above below =>
      obtain _ | ⟨inRange, _ | _⟩ := fits
      rw [covers_tail_iff] at inRange
      rw [codeAfter, List.foldl_cons, List.foldl_nil, encoded (.inl (by omega)),
        if_neg (by omega), if_pos (by omega)]
      exact ofNat_cons_eq (by omega) (ofNat_cons_eq (by omega) rfl)
  | three isByte below range =>
      obtain _ | ⟨inRange, _ | ⟨thirdInRange, _ | _⟩⟩ := fits
      rw [range.covers_iff] at inRange
      rw [covers_tail_iff] at thirdInRange
      rw [codeAfter, List.foldl_cons, List.foldl_cons, List.foldl_nil,
        encoded (by unfold Nat.isValidChar; omega), if_neg (by omega), if_neg (by omega),
        if_pos (by omega)]
      exact ofNat_cons_eq (by omega) (ofNat_cons_eq (by omega) (ofNat_cons_eq (by omega) rfl))
  | four isByte below range =>
      obtain _ | ⟨inRange, _ | ⟨thirdInRange, _ | ⟨fourthInRange, _ | _⟩⟩⟩ := fits
      rw [range.covers_iff] at inRange
      rw [covers_tail_iff] at thirdInRange fourthInRange
      rw [codeAfter, List.foldl_cons, List.foldl_cons, List.foldl_cons, List.foldl_nil,
        encoded (.inr (by omega)), if_neg (by omega), if_neg (by omega), if_neg (by omega)]
      exact ofNat_cons_eq (by omega) (ofNat_cons_eq (by omega)
        (ofNat_cons_eq (by omega) (ofNat_cons_eq (by omega) rfl)))

/-- Every character is encoded as a first byte and bytes in the ranges that it fixes. -/
theorem exists_lead
    (ch : Char) :
    ∃ byte code ranges following,
      String.utf8EncodeChar ch = byte :: following ∧
        Lead byte code ranges ∧ Fits ranges following ∧ codeAfter code following = ch.toNat := by
  have valid : ch.val.toNat.isValidChar := ch.valid
  have isCode : ch.toNat = ch.val.toNat := rfl
  have toNat_ofNat {code : Nat} (below : code < 0x100) : (UInt8.ofNat code).toNat = code :=
    UInt8.toNat_ofNat_of_lt below
  unfold Nat.isValidChar at valid
  rw [isCode]
  unfold String.utf8EncodeChar
  dsimp only
  generalize ch.val.toNat = whole at valid ⊢
  split
  · next below =>
      exact ⟨_, whole, _, _, rfl, .one (toNat_ofNat (by omega)) (by omega), .nil, rfl⟩
  · split
    · next above below =>
        refine ⟨_, whole / 64, _, _, rfl,
          .two (by rw [toNat_ofNat (by omega)]; omega) (by omega) (by omega),
          .cons ?_ .nil, ?_⟩
        · rw [covers_tail_iff, toNat_ofNat (by omega)]
          omega
        · rw [codeAfter, List.foldl_cons, List.foldl_nil, toNat_ofNat (by omega)]
          omega
    · split
      · next above below =>
          obtain ⟨second, isSecond⟩ : ∃ second, SecondOfThree (whole / 4096) second :=
            ⟨⟨_, _⟩, rfl, rfl⟩
          refine ⟨_, whole / 4096, _, _, rfl,
            .three (by rw [toNat_ofNat (by omega)]; omega) (by omega) isSecond,
            .cons ?_ (.cons ?_ .nil), ?_⟩
          · rw [isSecond.covers_iff, toNat_ofNat (by omega)]
            omega
          · rw [covers_tail_iff, toNat_ofNat (by omega)]
            omega
          · rw [codeAfter, List.foldl_cons, List.foldl_cons, List.foldl_nil,
              toNat_ofNat (by omega), toNat_ofNat (by omega)]
            omega
      · next above =>
          obtain ⟨second, isSecond⟩ : ∃ second, SecondOfFour (whole / 262144) second :=
            ⟨⟨_, _⟩, rfl, rfl⟩
          refine ⟨_, whole / 262144, _, _, rfl,
            .four (by rw [toNat_ofNat (by omega)]; omega) (by omega) isSecond,
            .cons ?_ (.cons ?_ (.cons ?_ .nil)), ?_⟩
          · rw [isSecond.covers_iff, toNat_ofNat (by omega)]
            omega
          · rw [covers_tail_iff, toNat_ofNat (by omega)]
            omega
          · rw [covers_tail_iff, toNat_ofNat (by omega)]
            omega
          · rw [codeAfter, List.foldl_cons, List.foldl_cons, List.foldl_cons, List.foldl_nil,
              toNat_ofNat (by omega), toNat_ofNat (by omega), toNat_ofNat (by omega)]
            omega

/-! ## What a decoder has taken -/

/-- Whether the bytes of a character begun, and those in the ranges still to come, encode it. -/
def Pending.Begins (pending : Pending) (begun : List UInt8) : Prop :=
  ∀ following,
    Fits (pending.next :: pending.others) following →
      String.utf8EncodeChar (Char.ofNat (codeAfter pending.code following)) = begun ++ following

namespace Decoder

/-- Whether bytes are what a decoder has taken: the encoding of the text it has decoded and the
beginning of one more character. -/
def HasTaken (decoder : Decoder) (bytes : List UInt8) : Prop :=
  match decoder.pending with
  | none =>
      bytes = encode decoder.decoded.reverse
  | some pending =>
      ∃ begun, pending.Begins begun ∧ bytes = encode decoder.decoded.reverse ++ begun

/-- The encoding of a text ends with the encoding of its last character. -/
theorem encode_push
    (decoded : Text) (ch : Char) :
    encode (ch :: decoded).reverse = encode decoded.reverse ++ String.utf8EncodeChar ch := by
  simp [encode]

/-- A byte that a decoder takes comes after those it has taken. -/
theorem HasTaken.feed
    {decoder next : Decoder} {bytes : List UInt8} {byte : UInt8}
    (hasTaken : decoder.HasTaken bytes)
    (fed : decoder.feed byte = .ok next) :
    next.HasTaken (bytes ++ [byte]) := by
  unfold HasTaken at hasTaken
  unfold Decoder.feed at fed
  split at fed
  · next noneBegun =>
      rw [noneBegun] at hasTaken
      subst hasTaken
      split at fed
      · cases fed
      · next code found =>
          cases fed
          have encoded : String.utf8EncodeChar (Char.ofNat code) = [byte] :=
            utf8EncodeChar_of_lead (lead_of_lead? found) .nil
          unfold HasTaken push
          dsimp only
          rw [encode_push, encoded]
      · next code range others found =>
          cases fed
          exact ⟨[byte], fun following fits =>
            utf8EncodeChar_of_lead (lead_of_lead? found) fits, rfl⟩
  · next pending isBegun =>
      rw [isBegun] at hasTaken
      obtain ⟨begun, begins, rfl⟩ := hasTaken
      split at fed
      · next inRange =>
          split at fed
          · next noOthers =>
              cases fed
              have encoded := begins [byte] (by rw [noOthers]; exact .cons inRange .nil)
              unfold HasTaken push
              dsimp only
              rw [encode_push, List.append_assoc]
              exact (congrArg (encode decoder.decoded.reverse ++ ·) encoded).symm
          · next range others following =>
              cases fed
              refine ⟨begun ++ [byte], ?_, List.append_assoc _ _ _⟩
              intro more fits
              rw [List.append_assoc]
              exact begins (byte :: more) (by rw [following]; exact .cons inRange fits)
      · cases fed

/-- What a decoder has taken goes on with the bytes that it takes next. -/
theorem HasTaken.feedAll
    {decoder last : Decoder} {bytes more : List UInt8}
    (hasTaken : decoder.HasTaken bytes)
    (fed : decoder.feedAll more = .ok last) :
    last.HasTaken (bytes ++ more) := by
  unfold Decoder.feedAll at fed
  induction more generalizing decoder bytes with
  | nil =>
      cases fed
      rw [List.append_nil]
      exact hasTaken
  | cons byte more inductionHypothesis =>
      rw [List.foldlM_cons] at fed
      cases first : decoder.feed byte with
      | error fault =>
          rw [first] at fed
          cases fed
      | ok next =>
          rw [first] at fed
          have shape : bytes ++ byte :: more = bytes ++ [byte] ++ more := by simp
          rw [shape]
          exact inductionHypothesis (hasTaken.feed first) fed

/-! ## What a decoder takes -/

/-- Bytes may be taken in two parts. -/
theorem feedAll_append
    (decoder : Decoder) (bytes more : List UInt8) :
    decoder.feedAll (bytes ++ more) =
      decoder.feedAll bytes >>= fun next => next.feedAll more :=
  List.foldlM_append

/-- Bytes in the ranges to come complete the character begun. -/
theorem feedAll_fits
    {decoder : Decoder} {pending : Pending} {following : List UInt8}
    (isBegun : decoder.pending = some pending)
    (fits : Fits (pending.next :: pending.others) following) :
    ∃ position,
      decoder.feedAll following =
        .ok ⟨position, none,
          Char.ofNat (codeAfter pending.code following) :: decoder.decoded⟩ := by
  induction following generalizing decoder pending with
  | nil =>
      cases fits
  | cons byte following inductionHypothesis =>
      obtain _ | ⟨inRange, fits⟩ := fits
      unfold feedAll
      rw [List.foldlM_cons]
      cases others : pending.others with
      | nil =>
          rw [others] at fits
          cases fits
          have fed :
              decoder.feed byte = .ok (decoder.push (pending.code * 64 + byte.toNat % 64)) := by
            unfold feed
            simp only [isBegun, inRange, others, if_true]
          rw [fed]
          exact ⟨_, rfl⟩
      | cons range more =>
          rw [others] at fits
          let longer : Pending :=
            ⟨pending.lead, pending.taken + 1, pending.code * 64 + byte.toNat % 64, range, more⟩
          have fed : decoder.feed byte = .ok (decoder.wait longer) := by
            unfold feed
            simp only [isBegun, inRange, others, if_true]
            rfl
          have longerIsBegun : (decoder.wait longer).pending = some longer := rfl
          rw [fed]
          exact inductionHypothesis longerIsBegun fits

/-- Between two characters a decoder takes the encoding of a character. -/
theorem feedAll_utf8EncodeChar
    {decoder : Decoder}
    (noneBegun : decoder.pending = none)
    (ch : Char) :
    ∃ position,
      decoder.feedAll (String.utf8EncodeChar ch) = .ok ⟨position, none, ch :: decoder.decoded⟩ := by
  obtain ⟨byte, code, ranges, following, shape, lead, fits, isCode⟩ := exists_lead ch
  have found := lead?_of_lead lead
  have isChar : Char.ofNat (codeAfter code following) = ch := by
    rw [isCode, Char.ofNat_toNat]
  rw [shape]
  unfold feedAll
  rw [List.foldlM_cons]
  cases ranges with
  | nil =>
      cases fits
      have fed : decoder.feed byte = .ok (decoder.push code) := by
        unfold feed
        simp only [noneBegun, found]
      rw [fed, ← isChar]
      exact ⟨_, rfl⟩
  | cons range others =>
      let begun : Pending := ⟨byte, 1, code, range, others⟩
      have fed : decoder.feed byte = .ok (decoder.wait begun) := by
        unfold feed
        simp only [noneBegun, found]
        rfl
      have isBegun : (decoder.wait begun).pending = some begun := rfl
      rw [fed, ← isChar]
      exact feedAll_fits isBegun fits

/-- Between two characters a decoder takes the encoding of a text. -/
theorem feedAll_encode
    {decoder : Decoder}
    (noneBegun : decoder.pending = none)
    (text : Text) :
    ∃ position,
      decoder.feedAll (encode text) = .ok ⟨position, none, text.reverse ++ decoder.decoded⟩ := by
  induction text generalizing decoder with
  | nil =>
      exact ⟨decoder.position, by rw [← noneBegun]; rfl⟩
  | cons ch text inductionHypothesis =>
      obtain ⟨position, first⟩ := feedAll_utf8EncodeChar noneBegun ch
      let next : Decoder := ⟨position, none, ch :: decoder.decoded⟩
      have nextNoneBegun : next.pending = none := rfl
      obtain ⟨last, rest⟩ := inductionHypothesis nextNoneBegun
      have shape : encode (ch :: text) = String.utf8EncodeChar ch ++ encode text := rfl
      have decoded : (ch :: text).reverse ++ decoder.decoded = text.reverse ++ next.decoded := by
        simp [next]
      rw [shape, feedAll_append, first, decoded]
      exact ⟨last, rest⟩

end Decoder

/-- Bytes decode to a text exactly when they encode it. -/
theorem decode_eq_ok_iff
    {bytes : List UInt8} {text : Text} :
    decode bytes = .ok text ↔ bytes = encode text := by
  unfold decode
  constructor
  · intro decoded
    split at decoded
    · next decoder fed =>
        have startedEmpty : Decoder.HasTaken {} [] := rfl
        have hasTaken := startedEmpty.feedAll fed
        unfold Decoder.HasTaken at hasTaken
        unfold Decoder.finish at decoded
        split at decoded
        · next noneBegun =>
            cases decoded
            rw [noneBegun] at hasTaken
            exact hasTaken
        · cases decoded
    · cases decoded
  · rintro rfl
    have noneBegun : Decoder.pending {} = none := rfl
    obtain ⟨position, fed⟩ := Decoder.feedAll_encode noneBegun text
    rw [fed]
    simp [Decoder.finish]

end GradleScript.Utf8
