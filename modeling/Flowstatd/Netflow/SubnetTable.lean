import Flowstatd.Framework.Bisect
import Flowstatd.Framework.Bytes
import Flowstatd.Netflow.Globals
import Mathlib.Data.List.GetD

/-!
# Network list and slot numbers

The entries `LoadConfig` stores, the binary search of `getIPIdx` and the linear membership scan
of `GetByIP`.
-/

namespace Flowstatd

open Framework

def retInMyNet : Int := -1
def retNotInMyNet : Int := -2

/-- Network byte order of a host word, read back as a little-endian word. -/
def htonl (x : U32) : U32 := BitVec.ofNat 32 (leNat (beBytes 4 x.toNat))

/-- The entry `LoadConfig` stores for `addr/maskBits`, `1 ≤ maskBits ≤ 32`. -/
def statedNetwork (addr : InAddr) (maskBits : Nat) : Subnet :=
  let mask : U32 := 0xffffffff#32 <<< (32 - maskBits)
  { net := addr
    mask := htonl mask
    maskBits := BitVec.ofNat 8 maskBits
    ipCount := (mask ^^^ 0xffffffff#32) + 1 }

def Subnet.Contains (s : Subnet) (a : InAddr) : Prop := a &&& s.mask = s.net

instance (s : Subnet) (a : InAddr) : Decidable (s.Contains a) :=
  inferInstanceAs (Decidable (a &&& s.mask = s.net))

/-- `rcvNetList[k]`. -/
def subnetAt (nets : List Subnet) (k : Nat) : Subnet := nets.getD k Subnet.zero

/-- One comparison of the search loop of `getIPIdx`. -/
def subnetProbe (nets : List Subnet) (ipaddr : InAddr) (midPos : Nat) : Ordering :=
  let ipAddrNet := ipaddr &&& (subnetAt nets midPos).mask
  if ipAddrNet > (subnetAt nets midPos).net then .gt
  else if ipAddrNet < (subnetAt nets midPos).net then .lt
  else .eq

/-- The host part of an address, cut out by the shift of `getIPIdx`. -/
def hostNumber (s : Subnet) (ipaddr : InAddr) : U32 :=
  (ipaddr &&& ~~~s.mask) >>> s.maskBits.toNat

/-- The `uint` index `getIPIdx` adds up once the search has stopped at `midPos`. -/
def slotIdx (nets : List Subnet) (midPos : Nat) (ipaddr : InAddr) : U32 :=
  (nets.take midPos).foldl (fun idx s => idx + s.ipCount) 0 +
    hostNumber (subnetAt nets midPos) ipaddr

def getIPIdx (myNet : Subnet) (nets : List Subnet) (ipaddr : InAddr) : Int :=
  -- `leftPos = 0`, `rightPos = nSubnet - 1`; the upper bound is exclusive here
  match bisect (subnetProbe nets ipaddr) 0 nets.length with
  | some midPos => (slotIdx nets midPos ipaddr).toInt
  | none =>
    if myNet.net ≠ 0 ∧ myNet.net = ipaddr &&& myNet.mask then retInMyNet else retNotInMyNet

/-- `isOurNet` after the membership scan of `GetByIP`. -/
def isOurNet (nets : List Subnet) (ipaddr : InAddr) : Bool :=
  nets.any fun s => ipaddr &&& s.mask == s.net

/-- Number of addresses of the networks in use. -/
def addressCount (nets : List Subnet) : Nat := (nets.map fun s => s.ipCount.toNat).sum

/-- First slot of network `m`: the addresses of all networks in front of it. -/
def slotBase (nets : List Subnet) (m : Nat) : Nat :=
  ((nets.take m).map fun s => s.ipCount.toNat).sum

/-- Slot number of an address of network `m`, before it is cut to 32 bits. -/
def slotNumber (nets : List Subnet) (m : Nat) (a : InAddr) : Nat :=
  slotBase nets m + (hostNumber (subnetAt nets m) a).toNat

/-- Masked with the mask of network `k`, the address lies on the side of `k` where `m` is. -/
def OnSideOf (nets : List Subnet) (a : InAddr) (m k : Nat) : Prop :=
  (k < m → (subnetAt nets k).net < a &&& (subnetAt nets k).mask) ∧
    (m < k → a &&& (subnetAt nets k).mask < (subnetAt nets k).net)

/-- The address is in network `m` and on the right side of every network that bisection passes
on the way to position `m`. -/
def Lands (nets : List Subnet) (a : InAddr) (m : Nat) : Prop :=
  m < nets.length ∧ (subnetAt nets m).Contains a ∧
    ∀ k ∈ bisectPath m 0 nets.length, OnSideOf nets a m k

theorem subnetAt_eq {nets : List Subnet} {k : Nat} (h : k < nets.length) :
    subnetAt nets k = nets[k] := List.getD_eq_getElem _ _ h

theorem subnetProbe_eq_iff (nets : List Subnet) (a : InAddr) (k : Nat) :
    subnetProbe nets a k = .eq ↔ (subnetAt nets k).Contains a := by
  simp only [subnetProbe,Subnet.Contains,gt_iff_lt,BitVec.lt_def,← BitVec.toNat_inj]
  generalize (a &&& (subnetAt nets k).mask).toNat = x
  split_ifs <;> simp <;> omega

theorem subnetProbe_pointsTo_iff (nets : List Subnet) (a : InAddr) (m k : Nat) :
    PointsTo (subnetProbe nets a) m k ↔ OnSideOf nets a m k := by
  simp only [PointsTo,OnSideOf,subnetProbe,gt_iff_lt,BitVec.lt_def]
  generalize (a &&& (subnetAt nets k).mask).toNat = x
  split_ifs <;> simp <;> omega

theorem search_eq_some_iff (nets : List Subnet) (a : InAddr) (m : Nat) :
    bisect (subnetProbe nets a) 0 nets.length = some m ↔ Lands nets a m := by
  constructor
  · intro h
    obtain ⟨_,hm,_⟩ := bisect_mem h
    rw [bisect_eq_some_iff (Nat.zero_le m) hm,subnetProbe_eq_iff] at h
    exact ⟨hm,h.1,fun k hk => (subnetProbe_pointsTo_iff nets a m k).mp (h.2 k hk)⟩
  · rintro ⟨hm,hc,hpath⟩
    rw [bisect_eq_some_iff (Nat.zero_le m) hm,subnetProbe_eq_iff]
    exact ⟨hc,fun k hk => (subnetProbe_pointsTo_iff nets a m k).mpr (hpath k hk)⟩

theorem Lands.unique {nets : List Subnet} {a : InAddr} {m m' : Nat} (h : Lands nets a m)
    (h' : Lands nets a m') : m = m' := by
  have h1 := (search_eq_some_iff nets a m).mpr h
  have h2 := (search_eq_some_iff nets a m').mpr h'
  exact Option.some.inj (h1.symm.trans h2)

private theorem foldl_ipCount_toNat (nets : List Subnet) (idx : U32) :
    (nets.foldl (fun idx s => idx + s.ipCount) idx).toNat =
      (idx.toNat + (nets.map fun s => s.ipCount.toNat).sum) % 2 ^ 32 := by
  induction nets generalizing idx with
  | nil => simp [Nat.mod_eq_of_lt idx.isLt]
  | cons s nets ih =>
    rw [List.foldl_cons,ih,BitVec.toNat_add,List.map_cons,List.sum_cons,Nat.mod_add_mod,
      Nat.add_assoc]

theorem slotIdx_toNat (nets : List Subnet) (m : Nat) (a : InAddr) :
    (slotIdx nets m a).toNat = slotNumber nets m a % 2 ^ 32 := by
  rw [slotIdx,BitVec.toNat_add,foldl_ipCount_toNat,Nat.mod_add_mod]
  simp [slotNumber,slotBase]

theorem getIPIdx_of_lands {myNet : Subnet} {nets : List Subnet} {a : InAddr} {m : Nat}
    (h : Lands nets a m) : getIPIdx myNet nets a = (slotIdx nets m a).toInt := by
  rw [getIPIdx,(search_eq_some_iff nets a m).mpr h]

theorem getIPIdx_of_not_lands (myNet : Subnet) {nets : List Subnet} {a : InAddr}
    (h : ∀ m, ¬Lands nets a m) :
    getIPIdx myNet nets a = retInMyNet ∨ getIPIdx myNet nets a = retNotInMyNet := by
  have hnone : bisect (subnetProbe nets a) 0 nets.length = none := by
    cases hb : bisect (subnetProbe nets a) 0 nets.length with
    | none => rfl
    | some m => exact absurd ((search_eq_some_iff nets a m).mp hb) (h m)
  rw [getIPIdx,hnone]
  dsimp only
  split_ifs
  · exact .inl rfl
  · exact .inr rfl

theorem lands_of_getIPIdx_nonneg {myNet : Subnet} {nets : List Subnet} {a : InAddr}
    (h : 0 ≤ getIPIdx myNet nets a) : ∃ m, Lands nets a m := by
  by_contra hn
  rcases getIPIdx_of_not_lands myNet (not_exists.mp hn) with he | he <;>
    simp [he,retInMyNet,retNotInMyNet] at h

theorem slotIdx_toInt_nonneg_iff (nets : List Subnet) (m : Nat) (a : InAddr) :
    0 ≤ (slotIdx nets m a).toInt ↔ slotNumber nets m a % 2 ^ 32 < 2 ^ 31 := by
  rw [← slotIdx_toNat,BitVec.toInt_eq_toNat_cond]
  split_ifs <;> omega

theorem isOurNet_iff (nets : List Subnet) (a : InAddr) :
    isOurNet nets a = true ↔ ∃ m, m < nets.length ∧ (subnetAt nets m).Contains a := by
  simp only [isOurNet,List.any_eq_true,beq_iff_eq]
  constructor
  · rintro ⟨s,hs,ha⟩
    obtain ⟨m,hm,rfl⟩ := List.getElem_of_mem hs
    rw [← subnetAt_eq hm] at ha
    exact ⟨m,hm,ha⟩
  · rintro ⟨m,hm,ha⟩
    rw [subnetAt_eq hm] at ha
    exact ⟨nets[m],List.getElem_mem hm,ha⟩

theorem slotBase_succ {nets : List Subnet} {m : Nat} (h : m < nets.length) :
    slotBase nets (m + 1) = slotBase nets m + (subnetAt nets m).ipCount.toNat := by
  rw [slotBase,slotBase,List.take_succ_eq_append_getElem h,List.map_append,List.sum_append,
    subnetAt_eq h]
  simp

theorem slotBase_le_total (nets : List Subnet) (m : Nat) :
    slotBase nets m ≤ addressCount nets := by
  conv_rhs => rw [addressCount,← List.take_append_drop m nets,List.map_append,List.sum_append]
  exact Nat.le_add_right _ _

theorem slotBase_mono (nets : List Subnet) {m m' : Nat} (h : m ≤ m') :
    slotBase nets m ≤ slotBase nets m' := by
  have ht : nets.take m = (nets.take m').take m := by rw [List.take_take,Nat.min_eq_left h]
  rw [slotBase,ht]
  exact slotBase_le_total (nets.take m') m

private theorem maskBits_toNat (p : Fin 33) : (BitVec.ofNat 8 p.val).toNat = p.val := by
  revert p; decide

private theorem ipCount_toNat (p : Fin 32) :
    (((0xffffffff#32 <<< (32 - (p.val + 1))) ^^^ 0xffffffff#32) + 1).toNat =
      2 ^ (32 - (p.val + 1)) := by
  revert p; decide

theorem statedNetwork_maskBits (addr : InAddr) {p : Nat} (hp : p ≤ 32) :
    (statedNetwork addr p).maskBits.toNat = p :=
  maskBits_toNat ⟨p,by omega⟩

theorem statedNetwork_ipCount (addr : InAddr) {p : Nat} (h1 : 1 ≤ p) (hp : p ≤ 32) :
    (statedNetwork addr p).ipCount.toNat = 2 ^ (32 - p) := by
  obtain ⟨q,rfl⟩ : ∃ q, p = q + 1 := ⟨p-1,by omega⟩
  exact ipCount_toNat ⟨q,by omega⟩

theorem hostNumber_lt (addr a : InAddr) {p : Nat} (h1 : 1 ≤ p) (hp : p ≤ 32) :
    (hostNumber (statedNetwork addr p) a).toNat < (statedNetwork addr p).ipCount.toNat := by
  rw [statedNetwork_ipCount addr h1 hp,hostNumber,statedNetwork_maskBits addr hp,
    BitVec.toNat_ushiftRight,Nat.shiftRight_eq_div_pow]
  refine Nat.div_lt_of_lt_mul ?_
  rw [← Nat.pow_add,show p + (32 - p) = 32 by omega]
  exact BitVec.isLt _

theorem slotNumber_lt {nets : List Subnet} {m : Nat} (hm : m < nets.length)
    (hstated : ∃ addr p, 1 ≤ p ∧ p ≤ 32 ∧ subnetAt nets m = statedNetwork addr p) (a : InAddr) :
    slotNumber nets m a < slotBase nets (m + 1) := by
  obtain ⟨addr,p,hge,hle,hs⟩ := hstated
  have hhost := hostNumber_lt addr a hge hle
  rw [← hs] at hhost
  rw [slotNumber,slotBase_succ hm]
  omega

end Flowstatd
