import SchemaForm.Text.Quoted

/-!
# UTF-8

A decoder for UTF-8 that goes through the octets one by one and says where a text goes wrong. Octets are
natural numbers.

* `Utf8.Pending` — a character of which some octets are still to come;
* `Utf8.Fault` — the octets that are no character, and why;
* `Utf8.decode` — the characters of a sequence of octets.
-/

namespace SchemaForm.Text.Utf8

/-- Why octets are no character. -/
inductive Cause where
  | invalidStart
  | invalidContinuation
  | unexpectedEnd
  deriving DecidableEq, Repr

/-- Octets that are no character. -/
structure Fault where
  cause : Cause
  /-- The first of them. -/
  octet : Nat
  /-- How many octets come before. -/
  position : Nat
  /-- How many octets they are. -/
  count : Nat
  deriving DecidableEq, Repr

/-- A character of which some octets are still to come. -/
structure Pending where
  first : Nat
  /-- How many octets were there. -/
  seen : Nat
  /-- How many octets are still to come, besides the next one. -/
  owed : Nat
  /-- The least and the greatest that the next octet can be. -/
  low : Nat
  high : Nat
  /-- The bits so far. -/
  bits : Nat
  deriving DecidableEq, Repr

/-- What may follow a first octet beyond ASCII. Overlong forms, surrogates and what is beyond Unicode
are kept out by the range of the second octet. -/
def lead? (octet : Nat) : Option Pending :=
  let after (owed low high bits : Nat) : Option Pending := some ⟨octet, 1, owed, low, high, bits⟩
  if octet < 0xc2 then none
  else if octet < 0xe0 then after 0 0x80 0xbf (octet - 0xc0)
  else if octet = 0xe0 then after 1 0xa0 0xbf 0
  else if octet = 0xed then after 1 0x80 0x9f 0xd
  else if octet < 0xf0 then after 1 0x80 0xbf (octet - 0xe0)
  else if octet = 0xf0 then after 2 0x90 0xbf 0
  else if octet < 0xf4 then after 2 0x80 0xbf (octet - 0xf0)
  else if octet = 0xf4 then after 2 0x80 0x8f 4
  else none

/-- The fault of a character that is not completed; so many octets have come before now. -/
def Pending.fault (p : Pending) (cause : Cause) (position : Nat) : Fault :=
  ⟨cause, p.first, position - p.seen, p.seen⟩

/-- The characters of octets, so many of which have come before; a character may be incomplete. -/
def decodeFrom (position : Nat) : Option Pending → List Nat → Except Fault (List Char)
  | none, [] => .ok []
  | some p, [] => .error (p.fault .unexpectedEnd position)
  | none, octet :: rest =>
    if octet < 0x80 then (Char.ofNat octet :: ·) <$> decodeFrom (position + 1) none rest
    else match lead? octet with
      | some p => decodeFrom (position + 1) (some p) rest
      | none => .error ⟨.invalidStart, octet, position, 1⟩
  | some p, octet :: rest =>
    if octet < p.low ∨ p.high < octet then .error (p.fault .invalidContinuation position)
    else
      let bits := p.bits * 0x40 + (octet - 0x80)
      match p.owed with
      | 0 => (Char.ofNat bits :: ·) <$> decodeFrom (position + 1) none rest
      | owed + 1 => decodeFrom (position + 1) (some ⟨p.first, p.seen + 1, owed, 0x80, 0xbf, bits⟩) rest

/-- The characters of octets. -/
def decode (octets : List Nat) : Except Fault (List Char) := decodeFrom 0 none octets

namespace Cause

/-- The cause in words. -/
def message : Cause → String
  | .invalidStart => "invalid start byte"
  | .invalidContinuation => "invalid continuation byte"
  | .unexpectedEnd => "unexpected end of data"

end Cause

namespace Fault

/-- The message of the fault. -/
def message (f : Fault) : String :=
  let place :=
    if f.count = 1 then
      "byte 0x" ++ String.ofList (hexDigits 2 f.octet) ++ " in position " ++ toString f.position
    else
      "bytes in position " ++ toString f.position ++ "-" ++ toString (f.position + f.count - 1)
  "'utf-8' codec can't decode " ++ place ++ ": " ++ f.cause.message

end Fault

end SchemaForm.Text.Utf8
