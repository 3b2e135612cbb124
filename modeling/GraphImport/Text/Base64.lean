/-!
# Base64

Lenient decoding: characters outside the alphabet are passed over, and padding that completes a
group of four ends the data. A group that stays incomplete is a fault.
-/
namespace GraphImport.Text

inductive Base64Fault
  | loneCharacter (count : Nat)
  | padding
deriving DecidableEq, Repr

def sextet? (c : Char) : Option Nat :=
  let n := c.toNat
  if 65 ≤ n && n ≤ 90 then some (n - 65)
  else if 97 ≤ n && n ≤ 122 then some (n - 71)
  else if 48 ≤ n && n ≤ 57 then some (n + 4)
  else if c == '+' then some 62
  else if c == '/' then some 63
  else none

/-- Decodes from within a group: `filled` of its characters were read, their bits not yet written
are `bits`, and `pads` padding characters have come since. -/
def decodeBase64From (written : List UInt8) (filled bits pads : Nat) :
    List Char → Except Base64Fault (List UInt8)
  | [] =>
    if filled == 0 then .ok written.reverse
    else if filled == 1 then .error (.loneCharacter (written.length / 3 * 4 + 1))
    else .error .padding
  | c :: rest =>
    if c == '=' then
      if filled ≥ 2 && filled + (pads + 1) ≥ 4 then .ok written.reverse
      else decodeBase64From written filled bits (if filled ≥ 2 then pads + 1 else pads) rest
    else match sextet? c with
      | none => decodeBase64From written filled bits pads rest
      | some n =>
        let write (b : Nat) := UInt8.ofNat b :: written
        match filled with
        | 0 => decodeBase64From written 1 n 0 rest
        | 1 => decodeBase64From (write (bits * 4 + n / 16)) 2 (n % 16) 0 rest
        | 2 => decodeBase64From (write (bits * 16 + n / 4)) 3 (n % 4) 0 rest
        | _ => decodeBase64From (write (bits * 64 + n)) 0 0 0 rest

def decodeBase64 (cs : List Char) : Except Base64Fault (List UInt8) :=
  decodeBase64From [] 0 0 0 cs

def Base64Fault.message : Base64Fault → String
  | .loneCharacter count =>
    s!"Invalid base64-encoded string: number of data characters ({count}) cannot be 1 more " ++
      "than a multiple of 4"
  | .padding => "Incorrect padding"

end GraphImport.Text
