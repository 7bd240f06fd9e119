import Flowstatd.Netflow.SubnetTable

/-!
# Scan against search, and slots against hosts

When `GetByIP`'s scan and `getIPIdx`'s bisection agree, and when two hosts share a slot. Both
questions come down to the shape of the masks: a mask is a byte-swapped prefix, so masking
neither preserves the order of addresses nor leaves the host bits in one piece.
-/

namespace Flowstatd

open Framework

/-- A network list as configured: prefix lengths 1 to 31, no host bits in the base address, no
common addresses, sorted for the search. -/
structure StatedNetworks (nets : List Subnet) : Prop where
  stated : ∀ s ∈ nets, ∃ p, 1 ≤ p ∧ p ≤ 31 ∧ s = statedNetwork s.net p ∧ s.Contains s.net
  disjoint : nets.Pairwise fun s t => ∀ a, ¬(s.Contains a ∧ t.Contains a)
  sorted : nets.Pairwise fun s t => s.net ≤ t.net

theorem StatedNetworks.index_unique {nets : List Subnet} (h : StatedNetworks nets) {a : InAddr}
    {m m' : Nat} (hm : m < nets.length) (hm' : m' < nets.length)
    (ha : (subnetAt nets m).Contains a) (ha' : (subnetAt nets m').Contains a) : m = m' := by
  rw [subnetAt_eq hm] at ha
  rw [subnetAt_eq hm'] at ha'
  have hd := List.pairwise_iff_getElem.mp h.disjoint
  rcases Nat.lt_trichotomy m m' with hlt | heq | hgt
  · exact absurd ⟨ha,ha'⟩ (hd m m' hm hm' hlt a)
  · exact heq
  · exact absurd ⟨ha',ha⟩ (hd m' m hm' hm hgt a)

/-- The scan and the search agree on `a` iff `a` is in no network, or bisection is sent the right
way by each network it passes before that of `a` and the slot number is a nonnegative `int`. -/
theorem scan_agrees_iff {nets : List Subnet} (h : StatedNetworks nets) (myNet : Subnet)
    (a : InAddr) :
    (isOurNet nets a = true ↔ 0 ≤ getIPIdx myNet nets a) ↔
      ∀ m, m < nets.length → (subnetAt nets m).Contains a →
        (∀ k ∈ bisectPath m 0 nets.length, OnSideOf nets a m k) ∧
          slotNumber nets m a % 2 ^ 32 < 2 ^ 31 := by
  rw [isOurNet_iff]
  constructor
  · intro hiff m hm hc
    have hpos := hiff.mp ⟨m,hm,hc⟩
    obtain ⟨m',hl⟩ := lands_of_getIPIdx_nonneg hpos
    have he : m' = m := h.index_unique hl.1 hm hl.2.1 hc
    subst m'
    rw [getIPIdx_of_lands hl,slotIdx_toInt_nonneg_iff] at hpos
    exact ⟨hl.2.2,hpos⟩
  · intro hgood
    constructor
    · rintro ⟨m,hm,hc⟩
      obtain ⟨hpath,hslot⟩ := hgood m hm hc
      rw [getIPIdx_of_lands ⟨hm,hc,hpath⟩,slotIdx_toInt_nonneg_iff]
      exact hslot
    · intro hpos
      obtain ⟨m,hl⟩ := lands_of_getIPIdx_nonneg hpos
      exact ⟨m,hl.1,hl.2.1⟩

private theorem not_both_contain {s t : Subnet} (h : s.net &&& t.mask ≠ t.net &&& s.mask)
    (a : InAddr) : ¬(s.Contains a ∧ t.Contains a) := by
  rintro ⟨hs,ht⟩
  apply h
  rw [← hs,← ht,BitVec.and_assoc,BitVec.and_assoc,BitVec.and_comm s.mask]

/-- 10.0.0.0/24 and 10.0.1.0/24. -/
def twoSubnets : List Subnet := [statedNetwork 0x0000000a 24,statedNetwork 0x0001000a 24]

private theorem twoSubnets_stated : StatedNetworks twoSubnets := by
  refine ⟨?_,?_,?_⟩
  · intro s hs
    simp only [twoSubnets,List.mem_cons,List.not_mem_nil,or_false] at hs
    rcases hs with rfl | rfl
    · exact ⟨24,by decide,by decide,rfl,by decide⟩
    · exact ⟨24,by decide,by decide,rfl,by decide⟩
  · exact List.pairwise_pair.mpr (not_both_contain (by decide))
  · exact List.pairwise_pair.mpr (by decide)

theorem scan_agrees_twoSubnets :
    (isOurNet twoSubnets 0x0501000a = true ↔ 0 ≤ getIPIdx Subnet.zero twoSubnets 0x0501000a) ↔
      ∀ m, m < twoSubnets.length → (subnetAt twoSubnets m).Contains 0x0501000a →
        (∀ k ∈ bisectPath m 0 twoSubnets.length, OnSideOf twoSubnets 0x0501000a m k) ∧
          slotNumber twoSubnets m 0x0501000a % 2 ^ 32 < 2 ^ 31 :=
  scan_agrees_iff twoSubnets_stated Subnet.zero 0x0501000a

/-- 10.0.0.0/16, 20.0.1.0/24 and 30.0.1.0/24: bisection probes 20.0.1.0/24 first, and 10.0.2.0
masked with its /24 mask compares above it. -/
def mixedSubnets : List Subnet :=
  [statedNetwork 0x0000000a 16,statedNetwork 0x00010014 24,statedNetwork 0x0001001e 24]

/-- A stated address that the scan finds and the search does not. -/
theorem scan_disagrees :
    StatedNetworks mixedSubnets ∧
      ¬(isOurNet mixedSubnets 0x0002000a = true ↔
        0 ≤ getIPIdx Subnet.zero mixedSubnets 0x0002000a) := by
  refine ⟨⟨?_,?_,?_⟩,by decide +kernel⟩
  · intro s hs
    simp only [mixedSubnets,List.mem_cons,List.not_mem_nil,or_false] at hs
    rcases hs with rfl | rfl | rfl
    · exact ⟨16,by decide,by decide,rfl,by decide⟩
    · exact ⟨24,by decide,by decide,rfl,by decide⟩
    · exact ⟨24,by decide,by decide,rfl,by decide⟩
  · simp only [mixedSubnets,List.pairwise_cons,List.mem_cons,List.not_mem_nil,or_false,
      forall_eq_or_imp,forall_eq,false_imp_iff,implies_true,List.Pairwise.nil,and_true]
    exact ⟨⟨not_both_contain (by decide),not_both_contain (by decide)⟩,
      not_both_contain (by decide)⟩
  · decide

private theorem onSideOf_of_uniform {nets : List Subnet} (h : StatedNetworks nets) {mask : InAddr}
    (hmask : ∀ s ∈ nets, s.mask = mask) {a : InAddr} {m k : Nat} (hm : m < nets.length)
    (hk : k < nets.length) (hc : (subnetAt nets m).Contains a) : OnSideOf nets a m k := by
  have hself (i : Nat) (hi : i < nets.length) : (subnetAt nets i).Contains (subnetAt nets i).net := by
    rw [subnetAt_eq hi]
    obtain ⟨p,_,_,_,hp⟩ := h.stated _ (List.getElem_mem hi)
    exact hp
  have hmk : (subnetAt nets k).mask = (subnetAt nets m).mask := by
    rw [subnetAt_eq hk,subnetAt_eq hm,hmask _ (List.getElem_mem hk),
      hmask _ (List.getElem_mem hm)]
  have hsort := List.pairwise_iff_getElem.mp h.sorted
  have hne : k ≠ m → (subnetAt nets k).net ≠ (subnetAt nets m).net := by
    intro hkm heq
    refine hkm (h.index_unique hk hm (hself k hk) ?_)
    rw [heq]
    exact hself m hm
  rw [OnSideOf,hmk,hc]
  constructor
  · intro hlt
    have hle := hsort k m hk hm hlt
    rw [← subnetAt_eq hk,← subnetAt_eq hm] at hle
    exact BitVec.lt_of_le_ne hle (hne (by omega))
  · intro hlt
    have hle := hsort m k hm hk hlt
    rw [← subnetAt_eq hk,← subnetAt_eq hm] at hle
    exact BitVec.lt_of_le_ne hle (Ne.symm (hne (by omega)))

/-- With one prefix length throughout, the search finds every address that the scan finds. -/
theorem lands_of_uniform {nets : List Subnet} (h : StatedNetworks nets) {mask : InAddr}
    (hmask : ∀ s ∈ nets, s.mask = mask) {a : InAddr} {m : Nat} (hm : m < nets.length)
    (hc : (subnetAt nets m).Contains a) : Lands nets a m := by
  rw [← search_eq_some_iff]
  refine bisect_eq_some_of_forall (Nat.zero_le m) hm ((subnetProbe_eq_iff nets a m).mpr hc) ?_
  intro k _ hk
  exact (subnetProbe_pointsTo_iff nets a m k).mpr (onSideOf_of_uniform h hmask hm hk hc)

theorem hostNumber_eq_iff {s : Subnet} {a b : InAddr} (ha : s.Contains a) (hb : s.Contains b) :
    hostNumber s a = hostNumber s b ↔
      a >>> s.maskBits.toNat = b >>> s.maskBits.toNat := by
  have hmask : a &&& s.mask = b &&& s.mask := ha.trans hb.symm
  have hsplit (x : InAddr) : x = (x &&& s.mask) ||| (x &&& ~~~s.mask) := by
    ext i hi
    simp only [BitVec.getElem_or,BitVec.getElem_and,BitVec.getElem_not]
    cases x[i] <;> cases s.mask[i] <;> rfl
  simp only [hostNumber]
  constructor
  · intro h
    rw [hsplit a,hsplit b,BitVec.ushiftRight_or_distrib,BitVec.ushiftRight_or_distrib,hmask,h]
  · intro h
    rw [BitVec.ushiftRight_and_distrib,BitVec.ushiftRight_and_distrib,h]

/-- Hosts of different networks share a slot only where the networks have more than `2^32`
addresses together. -/
theorem slotNumber_not_modEq {nets : List Subnet}
    (hstated : ∀ s ∈ nets, ∃ addr p, 1 ≤ p ∧ p ≤ 32 ∧ s = statedNetwork addr p)
    (hfew : addressCount nets ≤ 2 ^ 32) {m m' : Nat} (hm : m < nets.length) (hm' : m' < nets.length)
    (hne : m ≠ m') (a b : InAddr) :
    ¬slotNumber nets m a ≡ slotNumber nets m' b [MOD 2 ^ 32] := by
  have hat {k : Nat} (hk : k < nets.length) :
      ∃ addr p, 1 ≤ p ∧ p ≤ 32 ∧ subnetAt nets k = statedNetwork addr p := by
    rw [subnetAt_eq hk]
    exact hstated _ (List.getElem_mem hk)
  have hlt {k : Nat} (hk : k < nets.length) (x : InAddr) : slotNumber nets k x < 2 ^ 32 := by
    have hblock := slotNumber_lt hk (hat hk) x
    have htotal := slotBase_le_total nets (k + 1)
    omega
  have hbefore {j k : Nat} (hj : j < nets.length) (hjk : j < k) (x y : InAddr) :
      slotNumber nets j x < slotNumber nets k y :=
    calc slotNumber nets j x < slotBase nets (j + 1) := slotNumber_lt hj (hat hj) x
      _ ≤ slotBase nets k := slotBase_mono nets hjk
      _ ≤ slotNumber nets k y := Nat.le_add_right _ _
  intro hmod
  have heq := Nat.ModEq.eq_of_lt_of_lt hmod (hlt hm a) (hlt hm' b)
  rcases Nat.lt_or_gt_of_ne hne with hlow | hhigh
  · exact absurd heq (Nat.ne_of_lt (hbefore hm hlow a b))
  · exact absurd heq (Nat.ne_of_gt (hbefore hm' hhigh b a))

/-- Two hosts found by the search have different indexes iff, where they land in one network,
they differ in a bit that the shift keeps, and, where they land in two, their slot numbers are
not a multiple of `2^32` apart. -/
theorem slots_differ_iff (myNet : Subnet) (nets : List Subnet) (a b : InAddr)
    (ha : 0 ≤ getIPIdx myNet nets a) (hb : 0 ≤ getIPIdx myNet nets b) :
    getIPIdx myNet nets a ≠ getIPIdx myNet nets b ↔
      ∀ m m', Lands nets a m → Lands nets b m' →
        (m = m' → a >>> (subnetAt nets m).maskBits.toNat ≠ b >>> (subnetAt nets m).maskBits.toNat) ∧
        (m ≠ m' → ¬slotNumber nets m a ≡ slotNumber nets m' b [MOD 2 ^ 32]) := by
  obtain ⟨m,hm⟩ := lands_of_getIPIdx_nonneg ha
  obtain ⟨m',hm'⟩ := lands_of_getIPIdx_nonneg hb
  have hidx : getIPIdx myNet nets a = getIPIdx myNet nets b ↔
      slotNumber nets m a ≡ slotNumber nets m' b [MOD 2 ^ 32] := by
    rw [getIPIdx_of_lands hm,getIPIdx_of_lands hm',BitVec.toInt_inj,← BitVec.toNat_inj,
      slotIdx_toNat,slotIdx_toNat]
    rfl
  have hsame : m = m' → (slotNumber nets m a ≡ slotNumber nets m' b [MOD 2 ^ 32] ↔
      a >>> (subnetAt nets m).maskBits.toNat = b >>> (subnetAt nets m).maskBits.toNat) := by
    rintro rfl
    rw [← hostNumber_eq_iff hm.2.1 hm'.2.1,slotNumber,slotNumber,
      Nat.ModEq.add_iff_left (Nat.ModEq.refl _),Nat.ModEq,Nat.mod_eq_of_lt (BitVec.isLt _),
      Nat.mod_eq_of_lt (BitVec.isLt _),BitVec.toNat_inj]
  rw [Ne,hidx]
  constructor
  · intro h n n' hn hn'
    obtain rfl := hm.unique hn
    obtain rfl := hm'.unique hn'
    exact ⟨fun he hbits => h ((hsame he).mpr hbits),fun _ => h⟩
  · intro h hmod
    obtain ⟨hs,hd⟩ := h m m' hm hm'
    by_cases he : m = m'
    · exact hs he ((hsame he).mp hmod)
    · exact hd he hmod

theorem slots_differ_twoSubnets :
    getIPIdx Subnet.zero twoSubnets 0x0500000a ≠ getIPIdx Subnet.zero twoSubnets 0x0501000a ↔
      ∀ m m', Lands twoSubnets 0x0500000a m → Lands twoSubnets 0x0501000a m' →
        (m = m' → (0x0500000a : InAddr) >>> (subnetAt twoSubnets m).maskBits.toNat ≠
          (0x0501000a : InAddr) >>> (subnetAt twoSubnets m).maskBits.toNat) ∧
        (m ≠ m' → ¬slotNumber twoSubnets m 0x0500000a ≡
          slotNumber twoSubnets m' 0x0501000a [MOD 2 ^ 32]) :=
  slots_differ_iff Subnet.zero twoSubnets 0x0500000a 0x0501000a (by decide +kernel)
    (by decide +kernel)

/-- 10.0.0.0 and 10.0.0.1 in 10.0.0.0/31: the shift by 31 drops the one host bit. -/
theorem slots_shared :
    let nets := [statedNetwork 0x0000000a 31]
    (0x0000000a : InAddr) ≠ 0x0100000a ∧ 0 ≤ getIPIdx Subnet.zero nets 0x0000000a ∧
      0 ≤ getIPIdx Subnet.zero nets 0x0100000a ∧
      getIPIdx Subnet.zero nets 0x0000000a = getIPIdx Subnet.zero nets 0x0100000a := by
  decide +kernel

end Flowstatd
