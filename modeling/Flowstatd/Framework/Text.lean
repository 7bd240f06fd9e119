import Flowstatd.Framework.Inet

/-!
# Texts of the C library

`strtok`, `strtoul`, `strncpy` and `strcasecmp`. A character stands for a byte of the text.
-/

namespace Flowstatd.Framework

/-- What `strncpy` puts in front of the terminating zero of a buffer with room for `n` bytes. -/
def strncpy (n : Nat) (s : String) : List Char := s.toList.take n

/-- Whether `strcasecmp` finds no difference. -/
def sameIgnoringCase (s t : String) : Bool := s.toList.map Char.toLower = t.toList.map Char.toLower

/-- The first token of a text, and the text behind the delimiter that ends it. -/
def strtok (delimiters : List Char) (cs : List Char) : Option (List Char × List Char) :=
  match cs.dropWhile (· ∈ delimiters) with
  | [] => none
  | cs => some (cs.takeWhile (· ∉ delimiters),(cs.dropWhile (· ∉ delimiters)).drop 1)

/-- The sign in front of a number, whether it is a minus, and what is left. -/
def readSign : List Char → Bool × List Char
  | '-' :: cs => (true,cs)
  | '+' :: cs => (false,cs)
  | cs => (false,cs)

/-- `strtoul` to base 10 with 64-bit `unsigned long`: zero without digits, the largest number on
overflow, and a minus negates. -/
def strtoul (cs : List Char) : BitVec 64 :=
  let (negative,cs) := readSign (cs.dropWhile isSpace)
  let value := (readDigits 10 0 cs).1
  if 2 ^ 64 ≤ value then BitVec.allOnes 64
  else if negative then -BitVec.ofNat 64 value
  else BitVec.ofNat 64 value

/-- `%0<width>d` of a number that is not negative. -/
def zeroPadded (width n : Nat) : String :=
  let digits := toString n
  "".pushn '0' (width - digits.length) ++ digits

theorem sameIgnoringCase_trans {s t u : String} (h : sameIgnoringCase s t = true)
    (h' : sameIgnoringCase s u = true) : sameIgnoringCase t u = true := by
  simp only [sameIgnoringCase,decide_eq_true_eq] at h h' ⊢
  exact h.symm.trans h'

theorem zeroPadded_toList (width n : Nat) :
    (zeroPadded width n).toList =
      List.replicate (width - (Nat.toDigits 10 n).length) '0' ++ Nat.toDigits 10 n := by
  have hdigits : (toString n).toList = Nat.toDigits 10 n := Nat.toList_repr
  have hlength : (toString n).length = (Nat.toDigits 10 n).length := by
    rw [← hdigits,String.length_toList]
  rw [zeroPadded]
  simp only [String.toList_append,hdigits,hlength,String.pushn_eq_repeat_push]
  congr 1
  generalize width - (Nat.toDigits 10 n).length = k
  induction k with
  | zero => rfl
  | succ k ih => rw [Nat.repeat,String.toList_push,ih,List.replicate_succ']

/-- Leading zeros do not count. -/
theorem ofDigitChars_zeroPadded (width n : Nat) :
    Nat.ofDigitChars 10 (zeroPadded width n).toList 0 = n := by
  rw [zeroPadded_toList,Nat.ofDigitChars_append,Nat.ofDigitChars_replicate_zero,Nat.mul_zero,
    Nat.ofDigitChars_ten_toDigits]

theorem length_zeroPadded {width n : Nat} (hwidth : 0 < width) (h : n < 10 ^ width) :
    (zeroPadded width n).length = width := by
  have hdigits := (Nat.length_toDigits_le_iff (by decide) hwidth).mpr h
  rw [← String.length_toList,zeroPadded_toList,List.length_append,List.length_replicate]
  omega

example : strtok ['/'] "10.0.0.0/8".toList = some ("10.0.0.0".toList,['8']) := by decide +kernel

example : strtoul "-5x".toList = -5 := by decide +kernel

end Flowstatd.Framework
