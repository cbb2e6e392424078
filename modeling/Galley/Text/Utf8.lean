/-
# UTF-8

The encoding of texts in files.  `Utf8.decode` reads bytes or says where and why they are not
UTF-8: a byte that starts no character, a byte that does not continue the character before it, or
an end in the middle of a character.  A character has one encoding only, so the overlong forms,
the surrogates and the code points beyond `0x10FFFF` are refused at their first or second byte.

Every text can be encoded, and a wide text with surrogates cannot.
-/

import Galley.Text.Wide

namespace Galley
namespace Utf8

/-- Why bytes are not UTF-8. -/
inductive Reason where
  | invalidStart
  | invalidContinuation
  | unexpectedEnd
  deriving DecidableEq, Repr

/-- The bytes at fault, the number of bytes before them and the reason. -/
structure Failure where
  offset : Nat
  bytes : List UInt8
  reason : Reason
  deriving DecidableEq, Repr

/-- Whether a byte may continue a character. -/
def isTail (b : UInt8) : Bool := 0x80 ≤ b.toNat && b.toNat ≤ 0xBF

/-- Whether a byte may stand second after the lead byte. -/
def isSecond (lead second : UInt8) : Bool :=
  isTail second &&
    (if lead.toNat = 0xE0 then 0xA0 ≤ second.toNat
     else if lead.toNat = 0xED then second.toNat < 0xA0
     else if lead.toNat = 0xF0 then 0x90 ≤ second.toNat
     else if lead.toNat = 0xF4 then second.toNat < 0x90
     else true)

/-- The number of bytes of the character that a lead byte starts. -/
def lengthOf? (lead : UInt8) : Option Nat :=
  let n := lead.toNat
  if n < 0x80 then some 1
  else if n < 0xC2 then none
  else if n < 0xE0 then some 2
  else if n < 0xF0 then some 3
  else if n < 0xF5 then some 4
  else none

/-- The payload of the continuation bytes appended to the payload of the lead byte. -/
def payload (lead : Nat) (tails : List UInt8) : Nat :=
  tails.foldl (fun n b => n * 64 + b.toNat % 64) lead

/-- Reads one character: the character and the number of its continuation bytes, or the reason of
failure and the number of bytes at fault. -/
def readChar (lead : UInt8) (rest : List UInt8) : Except (Reason × Nat) (Char × Nat) :=
  match lengthOf? lead with
  | none => .error (.invalidStart, 1)
  | some 1 => .ok (Char.ofNat lead.toNat, 0)
  | some n =>
    let tails := rest.take (n - 1)
    let good :=
      match tails with
      | [] => 0
      | second :: more => if isSecond lead second then 1 + (more.takeWhile isTail).length else 0
    if good = n - 1 then
      let bits := if n = 2 then 32 else if n = 3 then 16 else 8
      .ok (Char.ofNat (payload (lead.toNat % bits) tails), n - 1)
    else if good = tails.length then .error (.unexpectedEnd, good + 1)
    else .error (.invalidContinuation, good + 1)

/-- Reads the bytes that stand after `offset` others. -/
def decodeFrom (offset : Nat) (bytes : List UInt8) : Except Failure Text :=
  match bytes with
  | [] => .ok []
  | lead :: rest =>
    match readChar lead rest with
    | .error (reason, n) => .error ⟨offset, (lead :: rest).take n, reason⟩
    | .ok (c, n) =>
      match decodeFrom (offset + n + 1) (rest.drop n) with
      | .error e => .error e
      | .ok t => .ok (c :: t)
termination_by bytes.length
decreasing_by
  simp only [List.length_cons, List.length_drop]
  omega

/-- The text that bytes encode. -/
def decode (bytes : List UInt8) : Except Failure Text := decodeFrom 0 bytes

/-- The number of bytes that encode a text. -/
def size (t : Text) : Nat := t.foldr (fun c n => c.utf8Size + n) 0

/-- The bytes that encode a text. -/
def encode (t : Text) : List UInt8 := (String.ofList t).toUTF8.toList

/-- Two hexadecimal digits of a byte. -/
def hexByte (b : UInt8) : Text :=
  let digits := Nat.toDigits 16 b.toNat
  List.leftpad 2 '0' digits

/-- The wording of a reason. -/
def Reason.message : Reason → Text
  | .invalidStart => "invalid start byte".toList
  | .invalidContinuation => "invalid continuation byte".toList
  | .unexpectedEnd => "unexpected end of data".toList

/-- The wording of a failure, with the byte at fault or the places of several. -/
def Failure.message (f : Failure) : Text :=
  let place :=
    match f.bytes with
    | [b] => "byte 0x".toList ++ hexByte b ++ " in position ".toList ++ Text.ofNat f.offset
    | bs =>
      "bytes in position ".toList ++ Text.ofNat f.offset ++ ['-'] ++
        Text.ofNat (f.offset + bs.length - 1)
  "'utf-8' codec can't decode ".toList ++ place ++ ": ".toList ++ f.reason.message

/-- Whether a code point can be encoded. -/
def isEncodable : CodePoint → Bool
  | .char _ => true
  | .surrogate _ => false

/-- Why a wide text with surrogates cannot be encoded: the first of them and those next to it. -/
def encodeMessage (t : WideText) : Text :=
  let before := t.takeWhile isEncodable
  let surrogates := (t.drop before.length).takeWhile fun c => !isEncodable c
  let place :=
    match surrogates with
    | [c] => "character '".toList ++ c.printed ++ "' in position ".toList ++ Text.ofNat before.length
    | cs =>
      "characters in position ".toList ++ Text.ofNat before.length ++ ['-'] ++
        Text.ofNat (before.length + cs.length - 1)
  "'utf-8' codec can't encode ".toList ++ place ++ ": surrogates not allowed".toList

end Utf8
end Galley
