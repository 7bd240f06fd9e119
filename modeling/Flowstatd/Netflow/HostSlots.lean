import Flowstatd.Netflow.Lookup
import Mathlib.Data.Set.Function

/-!
# Networks of whole bytes

With one prefix length of 8, 16 or 24 bits the shift of `getIPIdx` cuts out exactly the host bytes,
and the slots of the table are the hosts of the networks, each of them once.
-/

namespace Flowstatd

open Framework

/-- Different networks of one prefix length of whole bytes, sorted for the search, with slot numbers
that fit an `int`. -/
structure OnePrefix (nets : List Subnet) (p : Nat) : Prop where
  prefixLength : p = 8 ∨ p = 16 ∨ p = 24
  stated : ∀ s ∈ nets, s = statedNetwork s.net p ∧ s.Contains s.net
  ascending : nets.Pairwise fun s t => s.net < t.net
  room : nets.length * 2 ^ (32 - p) ≤ 2 ^ 31

section Slots

variable {nets : List Subnet} {p : Nat}

private theorem statedNetwork_mask {addr : InAddr} (hp : p = 8 ∨ p = 16 ∨ p = 24) :
    (statedNetwork addr p).mask.toNat = 2 ^ p - 1 := by
  rcases hp with rfl | rfl | rfl <;> rfl

private theorem OnePrefix.bounds (h : OnePrefix nets p) : 1 ≤ p ∧ p ≤ 31 := by
  have hp := h.prefixLength
  omega

private theorem OnePrefix.mask (h : OnePrefix nets p) {s : Subnet} (hs : s ∈ nets) :
    s.mask.toNat = 2 ^ p - 1 := by
  rw [(h.stated s hs).1]
  exact statedNetwork_mask h.prefixLength

/-- Of a byte-swapped address the low bits are the network. -/
theorem statedNetwork_contains_iff (hp : p = 8 ∨ p = 16 ∨ p = 24) (addr a : InAddr) :
    (statedNetwork addr p).Contains a ↔ a.toNat % 2 ^ p = addr.toNat := by
  rw [Subnet.Contains,← BitVec.toNat_inj,BitVec.toNat_and,statedNetwork_mask hp,
    Nat.and_two_pow_sub_one_eq_mod]
  rfl

theorem OnePrefix.contains_iff (h : OnePrefix nets p) {s : Subnet} (hs : s ∈ nets) (a : InAddr) :
    s.Contains a ↔ a.toNat % 2 ^ p = s.net.toNat := by
  rw [(h.stated s hs).1,statedNetwork_contains_iff h.prefixLength]
  rfl

theorem OnePrefix.host_lt (h : OnePrefix nets p) (a : InAddr) :
    a.toNat / 2 ^ p < 2 ^ (32 - p) := by
  have hp := h.bounds
  apply Nat.div_lt_of_lt_mul
  rw [← Nat.pow_add,show p + (32 - p) = 32 by omega]
  exact a.isLt

/-- The high bits are the host. -/
theorem OnePrefix.hostNumber (h : OnePrefix nets p) {s : Subnet} (hs : s ∈ nets) (a : InAddr) :
    (hostNumber s a).toNat = a.toNat / 2 ^ p := by
  have hbits : s.maskBits.toNat = p := by
    rw [(h.stated s hs).1]
    exact statedNetwork_maskBits s.net (by have := h.bounds; omega)
  have hkept : (2 ^ 32 - 1 - (2 ^ p - 1)) / 2 ^ p = 2 ^ (32 - p) - 1 := by
    rcases h.prefixLength with rfl | rfl | rfl <;> rfl
  rw [Flowstatd.hostNumber,hbits,BitVec.ushiftRight_and_distrib,BitVec.toNat_and,
    BitVec.toNat_ushiftRight,BitVec.toNat_ushiftRight,BitVec.toNat_not,h.mask hs,
    Nat.shiftRight_eq_div_pow,Nat.shiftRight_eq_div_pow,hkept,Nat.and_two_pow_sub_one_eq_mod,
    Nat.mod_eq_of_lt (h.host_lt a)]

theorem OnePrefix.ipCount (h : OnePrefix nets p) {s : Subnet} (hs : s ∈ nets) :
    s.ipCount.toNat = 2 ^ (32 - p) := by
  have hp := h.bounds
  rw [(h.stated s hs).1]
  exact statedNetwork_ipCount s.net (by omega) (by omega)

theorem OnePrefix.slotBase (h : OnePrefix nets p) {m : Nat} (hm : m ≤ nets.length) :
    slotBase nets m = m * 2 ^ (32 - p) := by
  have hcounts : (nets.take m).map (fun s => s.ipCount.toNat) =
      List.replicate m (2 ^ (32 - p)) := by
    rw [List.eq_replicate_iff]
    refine ⟨by simp [hm],?_⟩
    intro n hn
    obtain ⟨s,hs,rfl⟩ := List.mem_map.mp hn
    exact h.ipCount (List.mem_of_mem_take hs)
  rw [Flowstatd.slotBase,hcounts,List.sum_replicate_nat]

private theorem OnePrefix.statedNetworks (h : OnePrefix nets p) : StatedNetworks nets where
  stated s hs := ⟨p,h.bounds.1,h.bounds.2,h.stated s hs⟩
  disjoint := h.ascending.imp_of_mem fun {s t} hs ht hlt a hboth => by
    have hsame := ((h.contains_iff hs a).mp hboth.1).symm.trans ((h.contains_iff ht a).mp hboth.2)
    rw [BitVec.lt_def] at hlt
    omega
  sorted := h.ascending.imp fun hlt => BitVec.le_of_lt hlt

/-- A host of network `m` has the slot of its host bytes in the block of the network. -/
theorem OnePrefix.getIPIdx (h : OnePrefix nets p) (myNet : Subnet) {m : Nat}
    (hm : m < nets.length) {a : InAddr} (ha : a.toNat % 2 ^ p = nets[m].net.toNat) :
    getIPIdx myNet nets a = (m * 2 ^ (32 - p) + a.toNat / 2 ^ p : Nat) := by
  have hcontains : (subnetAt nets m).Contains a := by
    rw [subnetAt_eq hm]
    exact (h.contains_iff (List.getElem_mem hm) a).mpr ha
  have hmask : ∀ s ∈ nets, s.mask = BitVec.ofNat 32 (2 ^ p - 1) := fun s hs => by
    rw [← h.mask hs,BitVec.ofNat_toNat,BitVec.setWidth_eq]
  have hlands := lands_of_uniform h.statedNetworks hmask hm hcontains
  have hslot : slotNumber nets m a = m * 2 ^ (32 - p) + a.toNat / 2 ^ p := by
    rw [slotNumber,h.slotBase hm.le,subnetAt_eq hm,h.hostNumber (List.getElem_mem hm)]
  have hbound : slotNumber nets m a < 2 ^ 31 := by
    have hblock : (m + 1) * 2 ^ (32 - p) ≤ nets.length * 2 ^ (32 - p) := Nat.mul_le_mul_right _ hm
    have hroom := h.room
    have hhost := h.host_lt a
    rw [Nat.add_mul] at hblock
    omega
  have hindex := slotIdx_toNat nets m a
  rw [Nat.mod_eq_of_lt (by omega)] at hindex
  rw [getIPIdx_of_lands hlands,BitVec.toInt_eq_toNat_of_lt (by omega),hindex,hslot]

theorem OnePrefix.addressCount (h : OnePrefix nets p) :
    addressCount nets = nets.length * 2 ^ (32 - p) := by
  have hbase := h.slotBase le_rfl
  rwa [Flowstatd.slotBase,List.take_length] at hbase

/-- The hosts of the networks. -/
def hosts (nets : List Subnet) : Set InAddr := { a | ∃ s ∈ nets, s.Contains a }

theorem hosts_perm {nets nets' : List Subnet} (h : nets.Perm nets') : hosts nets = hosts nets' := by
  ext a
  exact exists_congr fun s => and_congr_left fun _ => h.mem_iff

theorem addressCount_perm {nets nets' : List Subnet} (h : nets.Perm nets') :
    addressCount nets = addressCount nets' := (h.map _).sum_eq

theorem OnePrefix.mem_hosts_iff (h : OnePrefix nets p) (a : InAddr) :
    a ∈ hosts nets ↔ ∃ (m : Nat) (hm : m < nets.length), a.toNat % 2 ^ p = nets[m].net.toNat := by
  constructor
  · rintro ⟨s,hs,ha⟩
    obtain ⟨m,hm,rfl⟩ := List.getElem_of_mem hs
    exact ⟨m,hm,(h.contains_iff hs a).mp ha⟩
  · rintro ⟨m,hm,ha⟩
    exact ⟨nets[m],List.getElem_mem hm,(h.contains_iff (List.getElem_mem hm) a).mpr ha⟩

/-- The host and the network are read back from a slot number, -/
private theorem OnePrefix.index_inj (h : OnePrefix nets p) {m m' : Nat} {a b : InAddr}
    (heq : m * 2 ^ (32 - p) + a.toNat / 2 ^ p = m' * 2 ^ (32 - p) + b.toNat / 2 ^ p) :
    m = m' ∧ a.toNat / 2 ^ p = b.toNat / 2 ^ p := by
  have hpos : 0 < 2 ^ (32 - p) := Nat.two_pow_pos _
  have hdiv := congrArg (· / 2 ^ (32 - p)) heq
  have hmod := congrArg (· % 2 ^ (32 - p)) heq
  simp only [Nat.mul_add_mod_self_right,Nat.mod_eq_of_lt (h.host_lt _)] at hmod
  simp only [Nat.mul_comm _ (2 ^ (32 - p)),Nat.mul_add_div hpos,
    Nat.div_eq_of_lt (h.host_lt _),Nat.add_zero] at hdiv
  exact ⟨hdiv,hmod⟩

/-- and every slot number is one of a host: its block is the network, its place in the block the
host. -/
private theorem OnePrefix.exists_host (h : OnePrefix nets p) {n : Nat}
    (hn : n < nets.length * 2 ^ (32 - p)) :
    ∃ (m : Nat) (hm : m < nets.length) (a : InAddr), a.toNat % 2 ^ p = nets[m].net.toNat ∧
      m * 2 ^ (32 - p) + a.toNat / 2 ^ p = n := by
  have hblocks : 0 < 2 ^ (32 - p) := Nat.two_pow_pos _
  have hhosts : 0 < 2 ^ p := Nat.two_pow_pos _
  have hm : n / 2 ^ (32 - p) < nets.length := by
    apply Nat.div_lt_of_lt_mul
    rwa [Nat.mul_comm]
  have hself := (h.contains_iff (List.getElem_mem hm) _).mp (h.stated _ (List.getElem_mem hm)).2
  have hnet := hself ▸ Nat.mod_lt _ hhosts
  have hsplit : 2 ^ (32 - p) * 2 ^ p = 2 ^ 32 := by
    have hp := h.bounds
    rw [← Nat.pow_add,Nat.sub_add_cancel (by omega)]
  have hfits : n % 2 ^ (32 - p) * 2 ^ p + nets[n / 2 ^ (32 - p)].net.toNat < 2 ^ 32 := by
    have hhost : (n % 2 ^ (32 - p) + 1) * 2 ^ p ≤ 2 ^ (32 - p) * 2 ^ p :=
      Nat.mul_le_mul_right _ (Nat.mod_lt _ hblocks)
    rw [Nat.add_mul,hsplit] at hhost
    omega
  refine ⟨n / 2 ^ (32 - p),hm,BitVec.ofNatLT _ hfits,?_,?_⟩
  · rw [BitVec.toNat_ofNatLT,Nat.mul_add_mod_self_right,hself]
  · rw [BitVec.toNat_ofNatLT,Nat.mul_comm _ (2 ^ p),Nat.mul_add_div hhosts,Nat.div_eq_of_lt hnet,
      Nat.add_zero,Nat.div_add_mod']

/-- The search numbers the hosts of the networks from zero on, without a gap and without using a
number twice. -/
theorem OnePrefix.bijOn (h : OnePrefix nets p) (myNet : Subnet) :
    Set.BijOn (Flowstatd.getIPIdx myNet nets) (hosts nets)
      { k | 0 ≤ k ∧ k < Flowstatd.addressCount nets } := by
  refine ⟨?_,?_,?_⟩
  · intro a ha
    obtain ⟨m,hm,hnet⟩ := (h.mem_hosts_iff a).mp ha
    have hblock : (m + 1) * 2 ^ (32 - p) ≤ nets.length * 2 ^ (32 - p) := Nat.mul_le_mul_right _ hm
    have hhost := h.host_lt a
    rw [Nat.add_mul] at hblock
    refine ⟨?_,?_⟩
    · rw [h.getIPIdx myNet hm hnet]
      exact Int.natCast_nonneg _
    · rw [h.getIPIdx myNet hm hnet,h.addressCount]
      omega
  · intro a ha b hb heq
    obtain ⟨m,hm,hnet⟩ := (h.mem_hosts_iff a).mp ha
    obtain ⟨m',hm',hnet'⟩ := (h.mem_hosts_iff b).mp hb
    rw [h.getIPIdx myNet hm hnet,h.getIPIdx myNet hm' hnet',Nat.cast_inj] at heq
    obtain ⟨rfl,hhost⟩ := h.index_inj heq
    apply BitVec.eq_of_toNat_eq
    rw [← Nat.div_add_mod a.toNat (2 ^ p),← Nat.div_add_mod b.toNat (2 ^ p),hhost,hnet,hnet']
  · rintro k ⟨hpos,hlt⟩
    obtain ⟨n,rfl⟩ := Int.eq_ofNat_of_zero_le hpos
    rw [h.addressCount,Nat.cast_lt] at hlt
    obtain ⟨m,hm,a,hnet,hindex⟩ := h.exists_host hlt
    exact ⟨a,(h.mem_hosts_iff a).mpr ⟨m,hm,hnet⟩,by rw [h.getIPIdx myNet hm hnet,hindex]⟩

/-- All other addresses have no slot. -/
theorem getIPIdx_neg_of_not_mem (myNet : Subnet) {a : InAddr} (ha : a ∉ hosts nets) :
    getIPIdx myNet nets a < 0 := by
  by_contra hnot
  obtain ⟨m,hlands⟩ := lands_of_getIPIdx_nonneg (Int.not_lt.mp hnot)
  have hcontains := hlands.2.1
  rw [subnetAt_eq hlands.1] at hcontains
  exact ha ⟨_,List.getElem_mem hlands.1,hcontains⟩

end Slots

end Flowstatd
