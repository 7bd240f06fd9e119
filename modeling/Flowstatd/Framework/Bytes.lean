import Mathlib.Algebra.Order.Group.Nat
import Mathlib.Tactic.Ring

/-!
# Byte order, memory and flat records

Words are read from and written to byte lists in either byte order. A memory is a total map from
offsets to bytes; `Holds` says which bytes stand at an offset. Fixed-size records are laid out
back to back.
-/

namespace Flowstatd.Framework

abbrev Byte := BitVec 8

/-- Natural represented by a little-endian byte list. -/
def leNat : List Byte → Nat
  | [] => 0
  | b :: bs => b.toNat + 256 * leNat bs

/-- The `n` low bytes of a natural, lowest first. -/
def leBytes : Nat → Nat → List Byte
  | 0, _ => []
  | n+1, v => BitVec.ofNat 8 v :: leBytes n (v / 256)

def beBytes (n v : Nat) : List Byte := (leBytes n v).reverse

def beNat (bs : List Byte) : Nat := leNat bs.reverse

@[simp] theorem leBytes_length (n v : Nat) : (leBytes n v).length = n := by
  induction n generalizing v with
  | zero => rfl
  | succ n ih => simp [leBytes,ih]

@[simp] theorem beBytes_length (n v : Nat) : (beBytes n v).length = n := by
  simp [beBytes]

theorem leBytes_add (m n v : Nat) :
    leBytes (m + n) v = leBytes m v ++ leBytes n (v / 256 ^ m) := by
  induction m generalizing v with
  | zero => simp [leBytes]
  | succ m ih =>
    rw [show m + 1 + n = m + n + 1 by omega,leBytes,leBytes,ih,List.cons_append,Nat.pow_succ',
      Nat.div_div_eq_div_mul]

theorem leNat_append (xs ys : List Byte) :
    leNat (xs ++ ys) = leNat xs + 256 ^ xs.length * leNat ys := by
  induction xs with
  | nil => simp [leNat]
  | cons x xs ih =>
    rw [List.cons_append,leNat,leNat,ih,List.length_cons]
    ring

theorem leNat_leBytes (n v : Nat) : leNat (leBytes n v) = v % 256 ^ n := by
  induction n generalizing v with
  | zero => simp [leBytes,leNat,Nat.mod_one]
  | succ n ih =>
    rw [leBytes,leNat,ih,BitVec.toNat_ofNat]
    change v % 256 + 256 * (v / 256 % 256 ^ n) = v % 256 ^ (n + 1)
    rw [Nat.pow_succ',Nat.mod_mul]

theorem beNat_beBytes (n v : Nat) : beNat (beBytes n v) = v % 256 ^ n := by
  rw [beNat,beBytes,List.reverse_reverse,leNat_leBytes]

theorem leNat_lt (bs : List Byte) : leNat bs < 256 ^ bs.length := by
  induction bs with
  | nil => simp [leNat]
  | cons b bs ih =>
    rw [leNat,List.length_cons,Nat.pow_succ']
    have hb := b.isLt
    omega

theorem beNat_lt (bs : List Byte) : beNat bs < 256 ^ bs.length := by
  rw [beNat,← List.length_reverse]
  exact leNat_lt _

theorem ofNat_leNat_leBytes {w : Nat} (n : Nat) (hw : 256 ^ n = 2 ^ w) (x : BitVec w) :
    BitVec.ofNat w (leNat (leBytes n x.toNat)) = x := by
  rw [leNat_leBytes,hw,Nat.mod_eq_of_lt x.isLt]
  simp

theorem ofNat_beNat_beBytes {w : Nat} (n : Nat) (hw : 256 ^ n = 2 ^ w) (x : BitVec w) :
    BitVec.ofNat w (beNat (beBytes n x.toNat)) = x := by
  rw [beNat_beBytes,hw,Nat.mod_eq_of_lt x.isLt]
  simp

/-- The bytes of a memory from `pos` on, `n` of them. -/
def bytesAt (mem : Nat → Byte) (pos n : Nat) : List Byte :=
  (List.range n).map fun i => mem (pos + i)

/-- The memory holds the byte list at `pos`. -/
def Holds (mem : Nat → Byte) (pos : Nat) (bs : List Byte) : Prop :=
  bytesAt mem pos bs.length = bs

@[simp] theorem bytesAt_length (mem : Nat → Byte) (pos n : Nat) :
    (bytesAt mem pos n).length = n := by simp [bytesAt]

theorem bytesAt_add (mem : Nat → Byte) (pos n k : Nat) :
    bytesAt mem pos (n + k) = bytesAt mem pos n ++ bytesAt mem (pos + n) k := by
  simp [bytesAt,List.range_add,Function.comp_def,Nat.add_assoc]

@[simp] theorem holds_nil (mem : Nat → Byte) (pos : Nat) : Holds mem pos [] := rfl

theorem holds_append {mem : Nat → Byte} {pos : Nat} {xs ys : List Byte} :
    Holds mem pos (xs ++ ys) ↔ Holds mem pos xs ∧ Holds mem (pos + xs.length) ys := by
  rw [Holds,List.length_append,bytesAt_add]
  constructor
  · intro h
    exact List.append_inj h (by simp)
  · rintro ⟨hx,hy⟩
    rw [hx,hy]

theorem holds_cons {mem : Nat → Byte} {pos : Nat} {x : Byte} {ys : List Byte} :
    Holds mem pos (x :: ys) ↔ mem pos = x ∧ Holds mem (pos + 1) ys := by
  rw [show x :: ys = [x] ++ ys from rfl,holds_append]
  simp [Holds,bytesAt]

theorem Holds.bytesAt {mem : Nat → Byte} {pos : Nat} {bs : List Byte} (h : Holds mem pos bs)
    {n : Nat} (hn : n = bs.length) : Framework.bytesAt mem pos n = bs := by
  rw [hn]
  exact h

/-- A byte list as a memory; nothing is known behind its end. -/
def memOf (bs : List Byte) (i : Nat) : Byte := bs.getD i 0

theorem holds_memOf (bs : List Byte) : Holds (memOf bs) 0 bs := by
  refine List.ext_getElem (by simp) fun i _ hi => ?_
  simp [memOf,Framework.bytesAt,List.getElem?_eq_getElem hi]

theorem holds_flatMap {α : Type} {mem : Nat → Byte} {pos size : Nat} {enc : α → List Byte}
    (hlen : ∀ x, (enc x).length = size) {xs : List α} (h : Holds mem pos (xs.flatMap enc))
    (i : Nat) (hi : i < xs.length) : Holds mem (pos + size * i) (enc (xs[i])) := by
  induction xs generalizing pos i with
  | nil => exact absurd hi (Nat.not_lt_zero i)
  | cons x xs ih =>
    rw [List.flatMap_cons,holds_append,hlen] at h
    cases i with
    | zero => exact h.1
    | succ i =>
      have hrest := ih h.2 i (Nat.lt_of_succ_lt_succ hi)
      rw [Nat.mul_succ,Nat.add_comm (size * i),← Nat.add_assoc]
      exact hrest

/-- `bs` written over the front of `old`. -/
def overlay (old bs : List Byte) : List Byte := bs ++ old.drop bs.length

section Records

variable {α : Type}

/-- Read `n` records of `size` bytes each. -/
def decodeMany (size : Nat) (dec : List Byte → α) : Nat → List Byte → List α
  | 0, _ => []
  | n+1, bs => dec (bs.take size) :: decodeMany size dec n (bs.drop size)

@[simp] theorem decodeMany_length (size : Nat) (dec : List Byte → α) (n : Nat)
    (bs : List Byte) : (decodeMany size dec n bs).length = n := by
  induction n generalizing bs with
  | zero => rfl
  | succ n ih => simp [decodeMany,ih]

theorem flatMap_length {size : Nat} {enc : α → List Byte} (hlen : ∀ x, (enc x).length = size)
    (xs : List α) : (xs.flatMap enc).length = size * xs.length := by
  induction xs with
  | nil => rfl
  | cons x xs ih =>
    rw [List.flatMap_cons,List.length_append,hlen,ih,List.length_cons]
    ring

theorem flatMap_drop {size : Nat} {enc : α → List Byte} (hlen : ∀ x, (enc x).length = size)
    (n : Nat) (xs : List α) : (xs.flatMap enc).drop (size * n) = (xs.drop n).flatMap enc := by
  induction n generalizing xs with
  | zero => rfl
  | succ n ih =>
    cases xs with
    | nil => simp
    | cons x xs =>
      rw [Nat.mul_succ,Nat.add_comm,← List.drop_drop,List.flatMap_cons,List.drop_left' (hlen x),ih,
        List.drop_succ_cons]

theorem flatMap_take {size : Nat} {enc : α → List Byte} (hlen : ∀ x, (enc x).length = size)
    (n : Nat) (xs : List α) : (xs.flatMap enc).take (size * n) = (xs.take n).flatMap enc := by
  induction n generalizing xs with
  | zero => simp
  | succ n ih =>
    cases xs with
    | nil => simp
    | cons x xs =>
      rw [Nat.mul_succ,Nat.add_comm,List.flatMap_cons,← hlen x,List.take_length_add_append,hlen x,
        ih,List.take_succ_cons,List.flatMap_cons]

/-- Records written back to back are read one by one, whatever bytes follow. -/
theorem decodeMany_encoded {β : Type} {size : Nat} {enc : α → List Byte}
    (hlen : ∀ x, (enc x).length = size) (dec : List Byte → β) (xs : List α) (rest : List Byte) :
    decodeMany size dec xs.length (xs.flatMap enc ++ rest) = xs.map fun x => dec (enc x) := by
  induction xs with
  | nil => rfl
  | cons x xs ih =>
    rw [List.length_cons,decodeMany,List.flatMap_cons,List.append_assoc,
      List.take_left' (hlen x),List.drop_left' (hlen x),ih,List.map_cons]

theorem decodeMany_flatMap {size : Nat} {enc : α → List Byte} {dec : List Byte → α}
    (hlen : ∀ x, (enc x).length = size) (hdec : ∀ x, dec (enc x) = x) (xs : List α)
    (rest : List Byte) : decodeMany size dec xs.length (xs.flatMap enc ++ rest) = xs := by
  rw [decodeMany_encoded hlen]
  simp only [hdec,List.map_id']

theorem decodeMany_append {size : Nat} {dec : List Byte → α} (n k : Nat) {bs rest : List Byte}
    (h : bs.length = size * n) :
    decodeMany size dec (n + k) (bs ++ rest) =
      decodeMany size dec n bs ++ decodeMany size dec k rest := by
  induction n generalizing bs with
  | zero =>
    have : bs = [] := List.length_eq_zero_iff.mp (by simpa using h)
    subst bs
    simp [decodeMany]
  | succ n ih =>
    have hs : size ≤ bs.length := by rw [h,Nat.mul_succ]; omega
    rw [show n + 1 + k = n + k + 1 by omega,decodeMany,decodeMany,
      List.take_append_of_le_length hs,List.drop_append_of_le_length hs,List.cons_append,ih]
    rw [List.length_drop,h,Nat.mul_succ]
    omega

theorem decodeMany_getElem? {size : Nat} {dec : List Byte → α} {n k : Nat} (h : k < n)
    (bs : List Byte) :
    (decodeMany size dec n bs)[k]? = some (dec ((bs.drop (size * k)).take size)) := by
  induction n generalizing k bs with
  | zero => exact absurd h (Nat.not_lt_zero k)
  | succ n ih =>
    cases k with
    | zero => rfl
    | succ k =>
      rw [decodeMany,List.getElem?_cons_succ,ih (Nat.lt_of_succ_lt_succ h),List.drop_drop,
        Nat.mul_succ,Nat.add_comm size]

/-- Where the new records end within one, it has its front from the new and the rest from the old
one. -/
theorem overlay_cut {size : Nat} {enc : α → List Byte} (hlen : ∀ x, (enc x).length = size)
    {old new : List α} {k r : Nat} {x y : α} (hold : old[k]? = some x) (hnew : new[k]? = some y)
    (hr : r ≤ size) :
    ((overlay (old.flatMap enc) ((new.flatMap enc).take (size * k + r))).drop (size * k)).take size =
      overlay (enc x) ((enc y).take r) := by
  induction k generalizing old new with
  | zero =>
    obtain ⟨old,rfl⟩ := List.head?_eq_some_iff.mp (List.head?_eq_getElem? ▸ hold)
    obtain ⟨new,rfl⟩ := List.head?_eq_some_iff.mp (List.head?_eq_getElem? ▸ hnew)
    have htake : ((enc y).take r).length = r := by rw [List.length_take,hlen,Nat.min_eq_left hr]
    have hsize : ((enc y).take r ++ (enc x).drop r).length = size := by
      rw [List.length_append,htake,List.length_drop,hlen]
      omega
    rw [List.flatMap_cons,List.flatMap_cons,Nat.mul_zero,Nat.zero_add,List.drop_zero,
      List.take_append_of_le_length (by rw [hlen]; exact hr),overlay,overlay,htake,
      List.drop_append_of_le_length (by rw [hlen]; exact hr),← List.append_assoc,
      List.take_left' hsize]
  | succ k ih =>
    cases old with
    | nil => simp at hold
    | cons x₀ old =>
      cases new with
      | nil => simp at hnew
      | cons y₀ new =>
        have hcut : size * (k + 1) + r = (enc y₀).length + (size * k + r) := by
          rw [hlen,Nat.mul_succ]
          omega
        have hskip (n : Nat) : (enc x₀).length + n = (enc y₀).length + n := by rw [hlen,hlen]
        rw [← ih hold hnew,List.flatMap_cons,List.flatMap_cons,hcut,List.take_length_add_append,
          overlay,List.length_append,← hskip,List.drop_length_add_append,List.append_assoc,
          Nat.mul_succ,Nat.add_comm (size * k) size,← List.drop_drop,List.drop_left' (hlen y₀)]
        rfl

end Records

end Flowstatd.Framework
