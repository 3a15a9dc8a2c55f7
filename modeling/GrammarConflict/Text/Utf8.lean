import GrammarConflict.Text.Quoted

/-!
# Decoding UTF-8

A character takes one to four bytes.  The first says how many follow and, for some first bytes,
which may come second: that leaves out codes written longer than need be, halves of pairs, and
numbers beyond the last character.  The decoder refuses the first byte that does not fit.
-/

namespace GrammarConflict.Text.Utf8

/-- Why bytes are not UTF-8. -/
inductive Cause where
  | invalidStart
  | invalidContinuation
  | unexpectedEnd
deriving DecidableEq, Repr

/-- The words for a cause. -/
def Cause.message : Cause → String
  | .invalidStart => "invalid start byte"
  | .invalidContinuation => "invalid continuation byte"
  | .unexpectedEnd => "unexpected end of data"

/-- Bytes that start a character and do not finish it. -/
structure Fault where
  cause : Cause
  /-- The number of bytes before the first of them. -/
  start : Nat
  first : UInt8
  count : Nat
deriving DecidableEq, Repr

/-- The words for a fault. -/
def Fault.message (fault : Fault) : String :=
  let place :=
    if fault.count ≤ 1 then
      "byte 0x" ++ String.ofList (hexadecimal 2 fault.first.toNat) ++ " in position " ++
        toString fault.start
    else
      "bytes in position " ++ toString fault.start ++ "-" ++
        toString (fault.start + fault.count - 1)
  "'utf-8' codec can't decode " ++ place ++ ": " ++ fault.cause.message

/-- A character that has been started. -/
structure Pending where
  first : UInt8
  count : Nat
  /-- The bits so far. -/
  code : Nat
  /-- The number of bytes to come. -/
  missing : Nat
  /-- The range of the next byte. -/
  low : Nat
  high : Nat

/-- The character that a byte above the first 128 starts. -/
def start? (b : UInt8) : Option Pending :=
  let n := b.toNat
  if 0xc2 ≤ n ∧ n ≤ 0xdf then some ⟨b, 1, n - 0xc0, 1, 0x80, 0xbf⟩
  else if n = 0xe0 then some ⟨b, 1, 0, 2, 0xa0, 0xbf⟩
  else if n = 0xed then some ⟨b, 1, 0xd, 2, 0x80, 0x9f⟩
  else if 0xe1 ≤ n ∧ n ≤ 0xef then some ⟨b, 1, n - 0xe0, 2, 0x80, 0xbf⟩
  else if n = 0xf0 then some ⟨b, 1, 0, 3, 0x90, 0xbf⟩
  else if 0xf1 ≤ n ∧ n ≤ 0xf3 then some ⟨b, 1, n - 0xf0, 3, 0x80, 0xbf⟩
  else if n = 0xf4 then some ⟨b, 1, 4, 3, 0x80, 0x8f⟩
  else none

/-- Decodes on.  `position` bytes have been read, and `done` holds their characters, the last one
first. -/
def decodeFrom (position : Nat) (done : List Char) :
    Option Pending → List UInt8 → Except Fault (List Char)
  | none, [] => .ok done.reverse
  | some p, [] => .error ⟨.unexpectedEnd, position - p.count, p.first, p.count⟩
  | none, b :: rest =>
    if b.toNat < 0x80 then decodeFrom (position + 1) (Char.ofNat b.toNat :: done) none rest
    else match start? b with
      | some p => decodeFrom (position + 1) done (some p) rest
      | none => .error ⟨.invalidStart, position, b, 1⟩
  | some p, b :: rest =>
    if p.low ≤ b.toNat ∧ b.toNat ≤ p.high then
      let code := p.code * 64 + (b.toNat - 0x80)
      if p.missing ≤ 1 then decodeFrom (position + 1) (Char.ofNat code :: done) none rest
      else decodeFrom (position + 1) done
        (some ⟨p.first, p.count + 1, code, p.missing - 1, 0x80, 0xbf⟩) rest
    else .error ⟨.invalidContinuation, position - p.count, p.first, p.count⟩

/-- The characters that the bytes write. -/
def decode (bytes : List UInt8) : Except Fault (List Char) :=
  decodeFrom 0 [] none bytes

end GrammarConflict.Text.Utf8
