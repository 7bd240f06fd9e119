import Flowstatd.Framework.Bytes
import Mathlib.Data.List.TakeWhile

/-!
# Strings in arrays

A C string is what stands in front of the first zero byte. Copying appends to it where it ends,
and overwrites the bytes that stand there. In a memory with holes, comparing with a string is only
possible as far as its bytes can be read.
-/

namespace Flowstatd.Framework

def cString (bytes : List Byte) : List Byte := bytes.takeWhile fun b => b ≠ 0

/-- An array after `bytes` were written to it from index `i` on. -/
def overwrite (array : List Byte) (i : Nat) (bytes : List Byte) : List Byte :=
  array.take i ++ bytes ++ array.drop (i + bytes.length)

/-- Where the string at index `dest` of an array ends. -/
def stringEnd (array : List Byte) (dest : Nat) : Nat := dest + (cString (array.drop dest)).length

/-- The string of at most `n` bytes that `strncat` takes from `src`, with its terminator. -/
def strncatBytes (src : List Byte) (n : Nat) : List Byte := cString (src.take n) ++ [0]

/-- `strncat(array + dest, src, n)` -/
def strncat (array : List Byte) (dest : Nat) (src : List Byte) (n : Nat) : List Byte :=
  overwrite array (stringEnd array dest) (strncatBytes src n)

def strncatWrites (array : List Byte) (dest : Nat) (src : List Byte) (n : Nat) : List Nat :=
  List.range' (stringEnd array dest) (strncatBytes src n).length

variable {u t x y : List Byte}

theorem cString_append (u x : List Byte) :
    cString (u ++ x) = if (cString u).length = u.length then u ++ cString x else cString u :=
  List.takeWhile_append

theorem cString_length_le (u : List Byte) : (cString u).length ≤ u.length :=
  (List.takeWhile_prefix _).length_le

theorem zero_notMem_cString (u : List Byte) : 0 ∉ cString u :=
  fun h => absurd (List.mem_takeWhile_imp h) (by simp)

theorem cString_eq_of_length (h : (cString u).length = u.length) : cString u = u :=
  (List.takeWhile_prefix _).eq_of_length h

theorem cString_replicate_zero (k : Nat) : cString (List.replicate k 0) = [] := by
  cases k <;> simp [cString,List.replicate_succ]

theorem cString_append_zeros (u : List Byte) (k : Nat) :
    cString (u ++ List.replicate k 0) = cString u := by
  rw [cString_append]
  split_ifs with h
  · rw [cString_replicate_zero,List.append_nil,cString_eq_of_length h]
  · rfl

@[simp] theorem cString_cString (u : List Byte) : cString (cString u) = cString u :=
  List.takeWhile_idem

/-- Beginnings of one length with one string can be exchanged, and so can what follows. -/
theorem cString_append_congr (hlen : u.length = t.length) (hu : cString u = cString t)
    (hx : cString x = cString y) : cString (u ++ x) = cString (t ++ y) := by
  rw [cString_append,cString_append,hu,hlen,hx]
  split_ifs with h
  · have hlong : cString u = u := cString_eq_of_length (by rw [hu,h,hlen])
    rw [← hlong,hu,cString_eq_of_length h]
  · rfl

section Append

variable {k n : Nat} {src : List Byte}

private theorem stringEnd_zeros (u : List Byte) (k : Nat) :
    stringEnd (u ++ List.replicate k 0) u.length = u.length := by
  simp only [stringEnd,List.drop_left,cString_replicate_zero,List.length_nil,Nat.add_zero]

/-- Copying to where only zeros follow, and one of them stays. -/
theorem strncat_zeros (h : (cString (src.take n)).length < k) :
    strncat (u ++ List.replicate k 0) u.length src n =
      u ++ cString (src.take n) ++
        List.replicate (k - (cString (src.take n)).length) 0 := by
  have hsplit : k - (cString (src.take n)).length =
      k - ((cString (src.take n)).length + 1) + 1 := by omega
  rw [strncat,stringEnd_zeros,overwrite,strncatBytes,hsplit,List.replicate_succ]
  simp [List.drop_append]

theorem mem_strncatWrites_zeros {i : Nat} :
    i ∈ strncatWrites (u ++ List.replicate k 0) u.length src n ↔
      u.length ≤ i ∧ i ≤ u.length + (cString (src.take n)).length := by
  rw [strncatWrites,stringEnd_zeros,List.mem_range'_1,strncatBytes,List.length_append,
    List.length_singleton]
  omega

end Append

section Memory

/-- A memory by address; `none` where nothing is mapped. -/
abbrev MappedMemory := BitVec 64 → Option Byte

def readBytes (mem : MappedMemory) : Nat → BitVec 64 → Option (List Byte)
  | 0, _ => some []
  | n+1, a =>
    match mem a with
    | none => none
    | some b => (readBytes mem n (a + 1)).map (b :: ·)

/-- The pointer that is stored, lowest byte first, at an address. -/
def pointerAt (mem : MappedMemory) (a : BitVec 64) : Option (BitVec 64) :=
  (readBytes mem 8 a).map fun bytes => BitVec.ofNat 64 (leNat bytes)

/-- Whether `strcmp` finds `s` at address `p`; `none` when it gets to an address that is not
mapped. -/
def strcmpAt (mem : MappedMemory) : List Byte → BitVec 64 → Option Bool
  | [], p => (mem p).map fun b => decide (b = 0)
  | c :: s, p =>
    match mem p with
    | none => none
    | some b => if b = c then strcmpAt mem s (p + 1) else some false

/-- The string `s` with its terminator stands at `p`. -/
def StringAt (mem : MappedMemory) (p : BitVec 64) (s : List Byte) : Prop :=
  ∀ i < s.length + 1, mem (p + BitVec.ofNat 64 i) = some (s.getD i 0)

/-- The bytes at `p` can be read up to one that differs from `s` and its terminator. -/
def DiffersAt (mem : MappedMemory) (p : BitVec 64) (s : List Byte) : Prop :=
  ∃ n < s.length + 1, (∀ i < n, mem (p + BitVec.ofNat 64 i) = some (s.getD i 0)) ∧
    ∃ b, mem (p + BitVec.ofNat 64 n) = some b ∧ b ≠ s.getD n 0

variable {mem : MappedMemory}

private theorem address_succ (p : BitVec 64) (i : Nat) :
    p + BitVec.ofNat 64 (i + 1) = p + 1 + BitVec.ofNat 64 i := by
  rw [Nat.add_comm i 1,BitVec.ofNat_add,BitVec.add_assoc]
  rfl

private theorem address_zero (p : BitVec 64) : p + BitVec.ofNat 64 0 = p := BitVec.add_zero p

private theorem stringAt_nil (p : BitVec 64) : StringAt mem p [] ↔ mem p = some 0 := by
  simp [StringAt]

private theorem stringAt_cons (p : BitVec 64) (c : Byte) (s : List Byte) :
    StringAt mem p (c :: s) ↔ mem p = some c ∧ StringAt mem (p + 1) s := by
  rw [StringAt,List.length_cons,Nat.forall_lt_succ_left]
  simp only [address_succ,address_zero,List.getD_cons_zero,List.getD_cons_succ]
  rfl

private theorem differsAt_nil (p : BitVec 64) :
    DiffersAt mem p [] ↔ ∃ b, mem p = some b ∧ b ≠ 0 := by
  simp [DiffersAt]

private theorem differsAt_cons (p : BitVec 64) (c : Byte) (s : List Byte) :
    DiffersAt mem p (c :: s) ↔
      (∃ b, mem p = some b ∧ b ≠ c) ∨ mem p = some c ∧ DiffersAt mem (p + 1) s := by
  rw [DiffersAt,List.length_cons,Nat.exists_lt_succ_left]
  simp only [Nat.forall_lt_succ_left,address_succ,address_zero,List.getD_cons_zero,
    List.getD_cons_succ,Nat.not_lt_zero,false_imp_iff,implies_true,true_and]
  refine or_congr_right ?_
  simp only [DiffersAt]
  constructor
  · rintro ⟨n,hn,⟨hc,hsame⟩,hdiffers⟩
    exact ⟨hc,n,hn,hsame,hdiffers⟩
  · rintro ⟨hc,n,hn,hsame,hdiffers⟩
    exact ⟨n,hn,⟨hc,hsame⟩,hdiffers⟩

theorem strcmpAt_eq_true_iff (s : List Byte) (p : BitVec 64) :
    strcmpAt mem s p = some true ↔ StringAt mem p s := by
  induction s generalizing p with
  | nil => simp [strcmpAt,stringAt_nil]
  | cons c s ih =>
    rw [stringAt_cons,← ih,strcmpAt]
    cases mem p with
    | none => simp
    | some b => by_cases h : b = c <;> simp [h]

theorem strcmpAt_eq_false_iff (s : List Byte) (p : BitVec 64) :
    strcmpAt mem s p = some false ↔ DiffersAt mem p s := by
  induction s generalizing p with
  | nil => simp [strcmpAt,differsAt_nil]
  | cons c s ih =>
    rw [differsAt_cons,← ih,strcmpAt]
    cases mem p with
    | none => simp
    | some b => by_cases h : b = c <;> simp [h]

/-- Where one string stands, any other one differs from it. -/
theorem StringAt.differsAt {p : BitVec 64} {s t : List Byte} (h : StringAt mem p t) (hs : 0 ∉ s)
    (ht : 0 ∉ t) (hne : s ≠ t) : DiffersAt mem p s := by
  induction s generalizing p t with
  | nil =>
    cases t with
    | nil => exact absurd rfl hne
    | cons d t =>
      rw [differsAt_nil]
      rw [stringAt_cons] at h
      exact ⟨d,h.1,fun hd => ht (by simp [hd])⟩
  | cons c s ih =>
    rw [differsAt_cons]
    cases t with
    | nil =>
      rw [stringAt_nil] at h
      exact .inl ⟨0,h,fun hc => hs (by simp [← hc])⟩
    | cons d t =>
      rw [stringAt_cons] at h
      by_cases hcd : d = c
      · subst hcd
        refine .inr ⟨h.1,ih h.2 ?_ ?_ ?_⟩
        · exact fun hmem => hs (List.mem_cons_of_mem _ hmem)
        · exact fun hmem => ht (List.mem_cons_of_mem _ hmem)
        · exact fun heq => hne (by rw [heq])
      · exact .inl ⟨d,h.1,hcd⟩

theorem readBytes_eq {bytes : List Byte} {a : BitVec 64}
    (h : ∀ i < bytes.length, mem (a + BitVec.ofNat 64 i) = some (bytes.getD i 0)) :
    readBytes mem bytes.length a = some bytes := by
  induction bytes generalizing a with
  | nil => rfl
  | cons b bytes ih =>
    rw [List.length_cons,Nat.forall_lt_succ_left] at h
    simp only [address_succ,address_zero,List.getD_cons_zero,List.getD_cons_succ] at h
    simp only [List.length_cons,readBytes,h.1,ih h.2,Option.map_some]

end Memory

end Flowstatd.Framework
