import Flowstatd.Netflow.SubnetTable

/-!
# The order networks are sorted in

`main` sorts `rcvNetList` with a comparison that returns a difference, and `getIPIdx` searches it
with unsigned comparisons. The two orders agree on networks whose difference is an `int`.
-/

namespace Flowstatd

/-- `(int) tmpA->net - tmpB->net`: an unsigned difference, returned as an `int`. -/
def rcvNetListCmp (a b : Subnet) : Int := (a.net - b.net).toInt

structure OrderedAsSearched (a b : Subnet) : Prop where
  neg : rcvNetListCmp a b < 0 ↔ a.net < b.net
  zero : rcvNetListCmp a b = 0 ↔ a.net = b.net
  pos : 0 < rcvNetListCmp a b ↔ a.net > b.net

/-- The difference of two addresses, as byte-swapped words, fits an `int`. -/
def DifferenceFits (a b : Subnet) : Prop :=
  -2 ^ 31 ≤ (a.net.toNat : Int) - b.net.toNat ∧ (a.net.toNat : Int) - b.net.toNat < 2 ^ 31

instance (a b : Subnet) : Decidable (DifferenceFits a b) :=
  inferInstanceAs (Decidable (_ ∧ _))

private theorem rcvNetListCmp_eq (a b : Subnet) :
    -2 ^ 31 ≤ rcvNetListCmp a b ∧ rcvNetListCmp a b < 2 ^ 31 ∧
      ((a.net.toNat : Int) - b.net.toNat = rcvNetListCmp a b ∨
        (a.net.toNat : Int) - b.net.toNat = rcvNetListCmp a b + 2 ^ 32 ∨
        (a.net.toNat : Int) - b.net.toNat = rcvNetListCmp a b - 2 ^ 32) := by
  have ha := a.net.isLt
  have hb := b.net.isLt
  rw [rcvNetListCmp,BitVec.toInt_eq_toNat_cond,BitVec.toNat_sub]
  omega

theorem DifferenceFits.rcvNetListCmp_eq {a b : Subnet} (h : DifferenceFits a b) :
    rcvNetListCmp a b = (a.net.toNat : Int) - b.net.toNat := by
  obtain ⟨hlow,hhigh,hcases⟩ := Flowstatd.rcvNetListCmp_eq a b
  rw [DifferenceFits] at h
  omega

theorem orderedAsSearched_iff (a b : Subnet) :
    OrderedAsSearched a b ↔ DifferenceFits a b := by
  obtain ⟨hlow,hhigh,hcases⟩ := rcvNetListCmp_eq a b
  constructor
  · intro h
    have hneg := h.neg
    have hpos := h.pos
    rw [BitVec.lt_def] at hneg
    rw [gt_iff_lt,BitVec.lt_def] at hpos
    rw [DifferenceFits]
    omega
  · intro h
    rw [DifferenceFits] at h
    refine ⟨?_,?_,?_⟩
    · rw [BitVec.lt_def]
      omega
    · rw [← BitVec.toNat_inj]
      omega
    · rw [gt_iff_lt,BitVec.lt_def]
      omega

section Sorting

variable {nets : List Subnet}

def DifferencesFit (nets : List Subnet) : Prop := ∀ a ∈ nets, ∀ b ∈ nets, DifferenceFits a b

theorem rcvNetListCmp_preorder (h : DifferencesFit nets) {a b c : Subnet} (ha : a ∈ nets)
    (hb : b ∈ nets) (hc : c ∈ nets) :
    (rcvNetListCmp a b ≤ 0 ∨ rcvNetListCmp b a ≤ 0) ∧
      (rcvNetListCmp a b ≤ 0 → rcvNetListCmp b c ≤ 0 → rcvNetListCmp a c ≤ 0) := by
  have hle {x y : Subnet} (hx : x ∈ nets) (hy : y ∈ nets) :
      rcvNetListCmp x y ≤ 0 ↔ x.net ≤ y.net := by
    rw [(h x hx y hy).rcvNetListCmp_eq,BitVec.le_def]
    omega
  rw [hle ha hb,hle hb ha,hle hb hc,hle ha hc]
  exact ⟨BitVec.le_total _ _,fun hab hbc => BitVec.le_trans hab hbc⟩

/-- Where all differences fit, what the comparison calls sorted is what the search can be used on. -/
theorem ascending_of_sorted (h : DifferencesFit nets) {sorted : List Subnet}
    (hperm : sorted.Perm nets) (hsorted : sorted.Pairwise fun a b => rcvNetListCmp a b ≤ 0) :
    sorted.Pairwise fun a b => a.net ≤ b.net := by
  refine hsorted.imp_of_mem fun {a b} ha hb hab => ?_
  rw [(h a (hperm.mem_iff.mp ha) b (hperm.mem_iff.mp hb)).rcvNetListCmp_eq] at hab
  rw [BitVec.le_def]
  omega

end Sorting

/-- 10.0.0.192/26 in front of 10.0.0.0/26. -/
def swappedNetworks : List Subnet := [statedNetwork 0xc000000a 26,statedNetwork 0x0000000a 26]

/-- Sorted that way the list counts as ascending, and 10.0.0.1 is not found in it. -/
theorem swapped_networks_sorted :
    (swappedNetworks.Pairwise fun a b => rcvNetListCmp a b < 0) ∧
      (swappedNetworks.Pairwise fun a b => a.net > b.net) ∧
      getIPIdx Subnet.zero swappedNetworks 0x0100000a = retNotInMyNet ∧
      ¬OrderedAsSearched (statedNetwork 0xc000000a 26) (statedNetwork 0x0000000a 26) := by
  refine ⟨List.pairwise_pair.mpr (by decide),List.pairwise_pair.mpr (by decide),?_,?_⟩
  · decide +kernel
  · intro h
    exact absurd (h.neg.mp (by decide)) (by decide)

end Flowstatd
