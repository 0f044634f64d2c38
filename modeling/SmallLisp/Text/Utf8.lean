import SmallLisp.Text.Quoted

/-! Strict decoding of UTF-8. A fault names the longest stretch that could still have
begun a character, so a reader can point at the bytes that spoil a line. -/
namespace SmallLisp.Text.Utf8

inductive Reason where
  | start
  | continuation
  | ending
  deriving DecidableEq, Repr

def Reason.text : Reason → String
  | .start => "invalid start byte"
  | .continuation => "invalid continuation byte"
  | .ending => "unexpected end of data"

/-- The bytes from `first` to `last`, counted from zero, are no character. -/
structure Fault where
  first : Nat
  last : Nat
  lead : UInt8
  reason : Reason
  deriving DecidableEq, Repr

def Fault.message (f : Fault) : String :=
  let bytes :=
    if f.first = f.last then
      "byte 0x" ++ String.ofList (Quoted.hex 2 f.lead.toNat) ++ " in position " ++ toString f.first
    else "bytes in position " ++ toString f.first ++ "-" ++ toString f.last
  "'utf-8' codec can't decode " ++ bytes ++ ": " ++ f.reason.text

/-- A character that has begun: where, with which byte, how many bytes it still needs,
between which bounds the next one lies, and the bits so far. -/
structure Begun where
  first : Nat
  lead : UInt8
  needs : Nat
  low : Nat
  high : Nat
  bits : Nat

/-- The bounds after `E0`, `ED`, `F0` and `F4` rule out overlong forms, surrogates and
code points beyond the last plane. -/
def begin? (position : Nat) (byte : UInt8) : Option Begun :=
  let b := byte.toNat
  if 0xC2 ≤ b ∧ b ≤ 0xDF then some ⟨position, byte, 1, 0x80, 0xBF, b - 0xC0⟩
  else if b = 0xE0 then some ⟨position, byte, 2, 0xA0, 0xBF, 0⟩
  else if b = 0xED then some ⟨position, byte, 2, 0x80, 0x9F, 0xD⟩
  else if 0xE1 ≤ b ∧ b ≤ 0xEF then some ⟨position, byte, 2, 0x80, 0xBF, b - 0xE0⟩
  else if b = 0xF0 then some ⟨position, byte, 3, 0x90, 0xBF, 0⟩
  else if b = 0xF4 then some ⟨position, byte, 3, 0x80, 0x8F, 4⟩
  else if 0xF1 ≤ b ∧ b ≤ 0xF3 then some ⟨position, byte, 3, 0x80, 0xBF, b - 0xF0⟩
  else none

/-- Decodes what is left; the characters decoded so far are `done`, newest first. -/
def decodeFrom (position : Nat) (begun : Option Begun) (done : List Char) :
    List UInt8 → Except Fault (List Char)
  | [] =>
    match begun with
    | none => .ok done.reverse
    | some c => .error ⟨c.first, position - 1, c.lead, .ending⟩
  | byte :: rest =>
    match begun with
    | none =>
      if byte.toNat < 0x80 then
        decodeFrom (position + 1) none (Char.ofNat byte.toNat :: done) rest
      else
        match begin? position byte with
        | some c => decodeFrom (position + 1) (some c) done rest
        | none => .error ⟨position, position, byte, .start⟩
    | some c =>
      if c.low ≤ byte.toNat ∧ byte.toNat ≤ c.high then
        let bits := c.bits * 64 + (byte.toNat - 0x80)
        if c.needs ≤ 1 then decodeFrom (position + 1) none (Char.ofNat bits :: done) rest
        else
          decodeFrom (position + 1) (some ⟨c.first, c.lead, c.needs - 1, 0x80, 0xBF, bits⟩)
            done rest
      else .error ⟨c.first, position - 1, c.lead, .continuation⟩

def decode (bytes : List UInt8) : Except Fault String :=
  (decodeFrom 0 none [] bytes).map String.ofList

def encode (text : String) : List UInt8 := text.toList.flatMap String.utf8EncodeChar

end SmallLisp.Text.Utf8
