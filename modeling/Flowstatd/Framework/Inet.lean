import Flowstatd.Framework.Bytes

/-!
# Internet addresses as text

`inet_addr` and `inet_ntop` of the C library. An address is a word whose bytes in memory are in
network order. `inet_addr` takes one to four numbers in C notation and stops at white space.
-/

namespace Flowstatd.Framework

/-- `INADDR_NONE`, also the address 255.255.255.255. -/
def inaddrNone : BitVec 32 := 0xffffffff

/-- Value of a digit character; 36 is no digit in any base. -/
def digitValue (c : Char) : Nat :=
  if '0' ≤ c ∧ c ≤ '9' then c.toNat - '0'.toNat
  else if 'a' ≤ c ∧ c ≤ 'f' then c.toNat - 'a'.toNat + 10
  else if 'A' ≤ c ∧ c ≤ 'F' then c.toNat - 'A'.toNat + 10
  else 36

/-- The digits in front and what is left behind them. -/
def readDigits (base : Nat) : Nat → List Char → Nat × List Char
  | value, [] => (value,[])
  | value, c :: cs =>
    if digitValue c < base then readDigits base (base * value + digitValue c) cs
    else (value,c :: cs)

/-- The rest of a number behind a leading zero: hexadecimal or octal. -/
def readAfterZero : List Char → Nat × List Char
  | x :: d :: ds =>
    if (x = 'x' ∨ x = 'X') ∧ digitValue d < 16 then readDigits 16 0 (d :: ds)
    else readDigits 8 0 (x :: d :: ds)
  | cs => readDigits 8 0 cs

/-- A number in C notation; it has to start with a decimal digit. -/
def readNumber : List Char → Option (Nat × List Char)
  | [] => none
  | c :: cs =>
    if 10 ≤ digitValue c then none
    else if c = '0' then some (readAfterZero cs)
    else some (readDigits 10 0 (c :: cs))

def isSpace (c : Char) : Bool := c ∈ [' ','\t','\n','\x0b','\x0c','\r']

/-- The numbers between the dots and the last one; `dots` more dots may come. -/
def readParts : Nat → List Char → Option (List Nat × Nat)
  | dots, cs =>
    match readNumber cs with
    | none => none
    | some (value,'.' :: rest) =>
      match dots with
      | 0 => none
      | dots+1 =>
        if value ≤ 0xff then (readParts dots rest).map fun (front,last) => (value :: front,last)
        else none
    | some (value,[]) => some ([],value)
    | some (value,c :: _) => if isSpace c then some ([],value) else none

/-- The parts in front are a byte each, the last one fills the rest of the address. -/
def inetAddr (text : String) : BitVec 32 :=
  match readParts 3 text.toList with
  | none => inaddrNone
  | some (front,last) =>
    if last < 256 ^ (4 - front.length) then
      BitVec.ofNat 32 (leNat (front.map (BitVec.ofNat 8) ++ beBytes (4 - front.length) last))
    else inaddrNone

/-- Four decimal numbers. -/
def inetNtop (addr : BitVec 32) : String :=
  ".".intercalate ((leBytes 4 addr.toNat).map fun b => toString b.toNat)

section RoundTrip

end RoundTrip

end Flowstatd.Framework
