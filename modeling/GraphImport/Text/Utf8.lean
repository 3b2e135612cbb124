/-!
# UTF-8

Strict decoding of UTF-8. A fault names the bytes that form no character: an impossible first
byte, the valid part of a sequence that an unfit byte cuts short, or an unfinished sequence at
the end.
-/
namespace GraphImport.Text

inductive Utf8Reason
  | invalidStart
  | invalidContinuation
  | unexpectedEnd
deriving DecidableEq, Repr

/-- `length` bytes from `position` on, the first of them `byte`, form no character. -/
structure Utf8Fault where
  byte : UInt8
  position : Nat
  length : Nat
  reason : Utf8Reason
deriving DecidableEq, Repr

/-- The number of bytes of a sequence with this first byte, and the bounds of its second. -/
def sequenceShape? (first : UInt8) : Option (Nat × UInt8 × UInt8) :=
  if 0xC2 ≤ first && first ≤ 0xDF then some (2, 0x80, 0xBF)
  else if first == 0xE0 then some (3, 0xA0, 0xBF)
  else if first == 0xED then some (3, 0x80, 0x9F)
  else if 0xE1 ≤ first && first ≤ 0xEF then some (3, 0x80, 0xBF)
  else if first == 0xF0 then some (4, 0x90, 0xBF)
  else if first == 0xF4 then some (4, 0x80, 0x8F)
  else if 0xF1 ≤ first && first ≤ 0xF3 then some (4, 0x80, 0xBF)
  else none

def isContinuation (b : UInt8) : Bool :=
  0x80 ≤ b && b ≤ 0xBF

/-- Decodes from a position on. -/
def decodeUtf8From (position : Nat) : List UInt8 → Except Utf8Fault (List Char)
  | [] => .ok []
  | a :: rest =>
    let fault (length : Nat) (reason : Utf8Reason) : Except Utf8Fault (List Char) :=
      .error { byte := a, position, length, reason }
    if a < 0x80 then
      (Char.ofNat a.toNat :: ·) <$> decodeUtf8From (position + 1) rest
    else match sequenceShape? a, rest with
      | none, _ => fault 1 .invalidStart
      | some _, [] => fault 1 .unexpectedEnd
      | some (width, low, high), b :: rest =>
        if b < low || high < b then fault 1 .invalidContinuation
        else if width == 2 then
          let n := (a.toNat - 0xC0) * 0x40 + (b.toNat - 0x80)
          (Char.ofNat n :: ·) <$> decodeUtf8From (position + 2) rest
        else match rest with
          | [] => fault 2 .unexpectedEnd
          | c :: rest =>
            if !isContinuation c then fault 2 .invalidContinuation
            else if width == 3 then
              let n := (a.toNat - 0xE0) * 0x1000 + (b.toNat - 0x80) * 0x40 + (c.toNat - 0x80)
              (Char.ofNat n :: ·) <$> decodeUtf8From (position + 3) rest
            else match rest with
              | [] => fault 3 .unexpectedEnd
              | d :: rest =>
                if !isContinuation d then fault 3 .invalidContinuation
                else
                  let n := (a.toNat - 0xF0) * 0x40000 + (b.toNat - 0x80) * 0x1000 +
                    (c.toNat - 0x80) * 0x40 + (d.toNat - 0x80)
                  (Char.ofNat n :: ·) <$> decodeUtf8From (position + 4) rest

def decodeUtf8 (bytes : List UInt8) : Except Utf8Fault String :=
  String.ofList <$> decodeUtf8From 0 bytes

def Utf8Reason.message : Utf8Reason → String
  | .invalidStart => "invalid start byte"
  | .invalidContinuation => "invalid continuation byte"
  | .unexpectedEnd => "unexpected end of data"

def Utf8Fault.message (f : Utf8Fault) : String :=
  let place :=
    if f.length == 1 then
      let hex := String.ofList (Nat.toDigits 16 f.byte.toNat)
      s!"byte 0x{hex} in position {f.position}"
    else s!"bytes in position {f.position}-{f.position + f.length - 1}"
  s!"'utf-8' codec can't decode {place}: {f.reason.message}"

end GraphImport.Text
