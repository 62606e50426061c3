import GradleScript.Text.Quoted

namespace GradleScript.Utf8

/-!
# Decoding UTF-8

A decoder takes one byte at a time and keeps the beginning of a character that is not complete yet,
so that it does not matter how the bytes are cut into pieces.  The first byte of a character fixes
the range of each byte that must follow.  A fault names the bytes that were valid so far.
-/

/-- The bytes from `first` to `last`, both included. -/
structure ByteRange where
  first : Nat
  last : Nat
  deriving Repr, DecidableEq

/-- Whether a byte lies in a range. -/
def ByteRange.covers (range : ByteRange) (byte : UInt8) : Bool :=
  range.first ≤ byte.toNat && byte.toNat ≤ range.last

/-- The bytes that may continue a character. -/
def tail : ByteRange :=
  ⟨0x80, 0xBF⟩

/-- The bits a first byte contributes, and the ranges of the bytes that must follow it. -/
def lead? (byte : UInt8) : Option (Nat × List ByteRange) :=
  let code := byte.toNat
  if code < 0x80 then
    some (code, [])
  else if 0xC2 ≤ code && code ≤ 0xDF then
    some (code - 0xC0, [tail])
  else if code == 0xE0 then
    some (0, [⟨0xA0, 0xBF⟩, tail])
  else if code == 0xED then
    some (0xD, [⟨0x80, 0x9F⟩, tail])
  else if 0xE1 ≤ code && code ≤ 0xEF then
    some (code - 0xE0, [tail, tail])
  else if code == 0xF0 then
    some (0, [⟨0x90, 0xBF⟩, tail, tail])
  else if 0xF1 ≤ code && code ≤ 0xF3 then
    some (code - 0xF0, [tail, tail, tail])
  else if code == 0xF4 then
    some (4, [⟨0x80, 0x8F⟩, tail, tail])
  else
    none

/-- What is wrong with bytes that do not decode. -/
inductive Reason where
  /-- No character starts with the byte. -/
  | startByte
  /-- A byte follows that cannot continue the character. -/
  | continuationByte
  /-- The bytes end inside a character. -/
  | endOfData
  deriving Repr, DecidableEq

/-- Bytes that do not decode: where they are, how many, and the first of them. -/
structure Fault where
  position : Nat
  count : Nat
  lead : UInt8
  reason : Reason
  deriving Repr, DecidableEq

/-- The words for a reason. -/
def Reason.text : Reason → Text
  | .startByte => "invalid start byte".toList
  | .continuationByte => "invalid continuation byte".toList
  | .endOfData => "unexpected end of data".toList

/-- The text of a fault. -/
def Fault.message (fault : Fault) : Text :=
  let place :=
    if fault.count == 1 then
      "byte 0x".toList ++ hexDigits 2 fault.lead.toNat ++ " in position ".toList ++
        Nat.toDigits 10 fault.position
    else
      "bytes in position ".toList ++ Nat.toDigits 10 fault.position ++ ['-'] ++
        Nat.toDigits 10 (fault.position + fault.count - 1)
  "'utf-8' codec can't decode ".toList ++ place ++ ": ".toList ++ fault.reason.text

/-- A character of which some bytes have been taken, and the ranges of those to come. -/
structure Pending where
  lead : UInt8
  taken : Nat
  code : Nat
  next : ByteRange
  others : List ByteRange
  deriving Repr, DecidableEq

/-- What has been decoded, latest first; the character begun; and the position of the next byte. -/
structure Decoder where
  position : Nat := 0
  pending : Option Pending := none
  decoded : Text := []
  deriving Repr, DecidableEq

namespace Decoder

/-- Add a character that is complete. -/
def push (decoder : Decoder) (code : Nat) : Decoder :=
  ⟨decoder.position + 1, none, Char.ofNat code :: decoder.decoded⟩

/-- Wait for the rest of a character. -/
def wait (decoder : Decoder) (pending : Pending) : Decoder :=
  ⟨decoder.position + 1, some pending, decoder.decoded⟩

/-- Take one byte. -/
def feed (decoder : Decoder) (byte : UInt8) : Except Fault Decoder :=
  match decoder.pending with
  | none =>
      match lead? byte with
      | none =>
          .error ⟨decoder.position, 1, byte, .startByte⟩
      | some (code, []) =>
          .ok (decoder.push code)
      | some (code, next :: others) =>
          .ok (decoder.wait ⟨byte, 1, code, next, others⟩)
  | some pending =>
      if pending.next.covers byte then
        let code := pending.code * 64 + byte.toNat % 64
        match pending.others with
        | [] =>
            .ok (decoder.push code)
        | next :: others =>
            .ok (decoder.wait ⟨pending.lead, pending.taken + 1, code, next, others⟩)
      else
        .error ⟨decoder.position - pending.taken, pending.taken, pending.lead, .continuationByte⟩

/-- Take bytes one after another. -/
def feedAll (decoder : Decoder) (bytes : List UInt8) : Except Fault Decoder :=
  bytes.foldlM feed decoder

/-- Count positions from the first byte of the character begun, as at the start of a new piece. -/
def rebase (decoder : Decoder) : Decoder :=
  { decoder with position := (decoder.pending.map Pending.taken).getD 0 }

/-- The decoded text, when no character is left incomplete. -/
def finish (decoder : Decoder) : Except Fault Text :=
  match decoder.pending with
  | none =>
      .ok decoder.decoded.reverse
  | some pending =>
      .error ⟨decoder.position - pending.taken, pending.taken, pending.lead, .endOfData⟩

end Decoder

/-- The text that bytes encode. -/
def decode (bytes : List UInt8) : Except Fault Text :=
  match Decoder.feedAll {} bytes with
  | .ok decoder => decoder.finish
  | .error fault => .error fault

end GradleScript.Utf8
