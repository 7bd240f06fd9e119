import Flowstatd.Daemon.Invariants
import Flowstatd.Netflow.Lookup
import Mathlib.Algebra.Order.BigOperators.Group.List

/-!
# Labels

A booking writes the address of the host into the slot. In every run the label of a used entry is
an address of that slot, and with prefixes of whole bytes it is the only one.
-/

namespace Flowstatd

open Framework

/-- An index that names a slot does not depend on `myNet`. -/
theorem getIPIdx_myNet {myNet myNet' : Subnet} {nets : List Subnet} {a : InAddr}
    (h : 0 ≤ getIPIdx myNet nets a) : getIPIdx myNet' nets a = getIPIdx myNet nets a := by
  obtain ⟨m,hm⟩ := lands_of_getIPIdx_nonneg h
  rw [getIPIdx_of_lands hm,getIPIdx_of_lands hm]

section Labelled

/-- Every entry is untouched or labelled with an address of its slot. -/
structure Globals.Labelled (g : Globals) : Prop where
  sizes : g.WellSized
  label : ∀ (i : Nat) e, g.ipTable[i]? = some e →
    e = HostFlow.zero ∨ getIPIdx g.myNet g.nets e.sinAddr = i

private theorem label_of_zero {g : Globals} {n : Nat} {i : Nat} {e : HostFlow}
    (h : (List.replicate n HostFlow.zero)[i]? = some e) :
    e = HostFlow.zero ∨ getIPIdx g.myNet g.nets e.sinAddr = i :=
  .inl (List.eq_of_mem_replicate (List.mem_of_getElem? h))

private theorem Credit.apply_labelled {g : Globals} (h : g.Labelled) {c : Credit}
    (hc : c.Lawful g) : Globals.Labelled { g with ipTable := c.apply g.ipTable } := by
  refine ⟨⟨(Credit.apply_length _ c).trans h.sizes.ipTable,h.sizes.rcvNetList,h.sizes.nSubnet⟩,?_⟩
  intro i e he
  simp only [Credit.apply,List.getElem?_modify] at he
  obtain ⟨e',he',rfl⟩ := Option.map_eq_some_iff.mp he
  by_cases hslot : c.slot = i
  · subst hslot
    rw [if_pos rfl]
    exact .inr hc
  · rw [if_neg hslot]
    exact h.label i e' he'

theorem keptByBookings_labelled : KeptByBookings Globals.Labelled where
  clock g tm h := ⟨keptByDaemon_wellSized.clock g tm h.sizes,h.label⟩
  reset g h := ⟨keptByDaemon_wellSized.reset g h.sizes,fun _ _ => label_of_zero⟩
  book g cs hcs h := by
    induction cs generalizing g with
    | nil => exact h
    | cons c cs ih =>
      obtain ⟨hc,hrest⟩ := List.forall_mem_cons.mp hcs
      exact ih { g with ipTable := c.apply g.ipTable } hrest (c.apply_labelled h hc)

private theorem import_labelled {networks : List StatedEntry} {heap : Nat → Byte} {tmpVal : U32}
    {g s g' : Globals} (hboot : Booted networks g) (hs : s.Labelled)
    (h : importRecord heap tmpVal g (exportRecord s) = some g') : g'.Labelled := by
  have hg := hboot.wellSized
  have hnets := hg.imported_nets hs.sizes h
  refine ⟨hg.imported hs.sizes h,?_⟩
  rw [importRecord_exportRecord heap tmpVal hg hs.sizes,Option.some.injEq] at h
  intro i e he
  rw [hnets]
  rw [← h] at he
  simp only [List.getElem?_append] at he
  split_ifs at he with hi
  · rcases hs.label i e he with hzero | hlabel
    · exact .inl hzero
    · exact .inr ((getIPIdx_myNet (by omega)).trans hlabel)
  · rw [hboot.ipTable,List.drop_replicate] at he
    exact .inl (List.eq_of_mem_replicate (List.mem_of_getElem? he))

theorem Reachable.labelled {Cfg : List StatedEntry → Prop} {localtime : Int → Tm} {d : Daemon}
    (h : Reachable Cfg localtime d) : d.globals.Labelled := by
  refine keptByBookings_labelled.reachable (fun networks g _ hg => ⟨hg.wellSized,?_⟩)
    (fun _ _ _ _ _ _ hg _ => import_labelled hg) h
  intro i e he
  rw [hg.ipTable] at he
  exact label_of_zero he

end Labelled

section WholeBytes

/-- All prefixes end between two bytes of the address. -/
def WholeBytes (networks : List StatedEntry) : Prop :=
  ∀ n ∈ networks, n.maskBits = 8 ∨ n.maskBits = 16 ∨ n.maskBits = 24

/-- The networks in use have been stated with such prefixes. -/
structure Globals.ByteNets (g : Globals) : Prop where
  sizes : g.WellSized
  stated : ∀ s ∈ g.nets, ∃ addr p, (p = 8 ∨ p = 16 ∨ p = 24) ∧ s = statedNetwork addr p

private theorem keptByDaemon_byteNets : KeptByDaemon Globals.ByteNets where
  clock g tm h := ⟨keptByDaemon_wellSized.clock g tm h.sizes,h.stated⟩
  reset g h := ⟨keptByDaemon_wellSized.reset g h.sizes,h.stated⟩
  book g cs h := ⟨keptByDaemon_wellSized.book g cs h.sizes,h.stated⟩

theorem Reachable.byteNets {localtime : Int → Tm} {d : Daemon}
    (h : Reachable WholeBytes localtime d) : d.globals.ByteNets := by
  refine keptByDaemon_byteNets.reachable (fun networks g hcfg hg => ⟨hg.wellSized,?_⟩) ?_ h
  · intro s hs
    obtain ⟨n,hn,rfl⟩ := List.mem_map.mp (hg.nets_perm.mem_iff.mp hs)
    exact ⟨n.addr,n.maskBits,hcfg n hn,rfl⟩
  · intro heap tmpVal g s g' hg hs himport
    exact ⟨hg.sizes.imported hs.sizes himport,hg.sizes.imported_nets hs.sizes himport ▸ hs.stated⟩

/-- A prefix of whole bytes takes up the low bits of the word, as many as it is long. -/
private theorem wholeBytes_mask (addr : InAddr) {p : Nat} (hp : p = 8 ∨ p = 16 ∨ p = 24) :
    (statedNetwork addr p).mask = BitVec.ofNat 32 (2 ^ p - 1) ∧
      (statedNetwork addr p).maskBits.toNat = p := by
  have hmask (q : Nat) (hq : q = 8 ∨ q = 16 ∨ q = 24) :
      htonl (0xffffffff#32 <<< (32 - q)) = BitVec.ofNat 32 (2 ^ q - 1) := by
    rcases hq with rfl | rfl | rfl <;> decide +kernel
  exact ⟨hmask p hp,statedNetwork_maskBits addr (by omega)⟩

private theorem eq_of_prefix_eq {p : Nat} (hp : p ≤ 32) {a b : InAddr}
    (hlow : a &&& BitVec.ofNat 32 (2 ^ p - 1) = b &&& BitVec.ofNat 32 (2 ^ p - 1))
    (hhigh : a >>> p = b >>> p) : a = b := by
  have hmod (x : InAddr) : (x &&& BitVec.ofNat 32 (2 ^ p - 1)).toNat = x.toNat % 2 ^ p := by
    have hpow : 2 ^ p ≤ 2 ^ 32 := Nat.pow_le_pow_right (by decide) hp
    have hpos : 0 < 2 ^ p := Nat.two_pow_pos p
    rw [BitVec.toNat_and,BitVec.toNat_ofNat,Nat.mod_eq_of_lt (by omega),
      Nat.and_two_pow_sub_one_eq_mod]
  have hlow' := congrArg BitVec.toNat hlow
  have hhigh' := congrArg BitVec.toNat hhigh
  rw [hmod,hmod] at hlow'
  rw [BitVec.toNat_ushiftRight,BitVec.toNat_ushiftRight,Nat.shiftRight_eq_div_pow,
    Nat.shiftRight_eq_div_pow] at hhigh'
  refine BitVec.eq_of_toNat_eq ?_
  rw [← Nat.div_add_mod a.toNat (2 ^ p),← Nat.div_add_mod b.toNat (2 ^ p),hlow',hhigh']

/-- Fifty networks of at most `2^24` addresses. -/
private theorem Globals.ByteNets.addressCount_le {g : Globals} (h : g.ByteNets) :
    addressCount g.nets ≤ 50 * 2 ^ 24 := by
  have hlen : g.nets.length ≤ 50 := h.sizes.nets_length ▸ h.sizes.nSubnet
  have hall : ∀ n ∈ g.nets.map fun s => s.ipCount.toNat, n ≤ 2 ^ 24 := by
    intro n hn
    obtain ⟨s,hs,rfl⟩ := List.mem_map.mp hn
    obtain ⟨addr,p,hp,rfl⟩ := h.stated s hs
    rw [statedNetwork_ipCount addr (by omega) (by omega)]
    exact Nat.pow_le_pow_right (by decide) (by omega)
  have hsum := List.sum_le_card_nsmul _ _ hall
  rw [List.length_map,smul_eq_mul] at hsum
  exact hsum.trans (Nat.mul_le_mul_right _ hlen)

/-- Under such networks no two addresses share a slot. -/
theorem Globals.ByteNets.index_injective {g : Globals} (h : g.ByteNets) {a b : InAddr}
    (ha : 0 ≤ getIPIdx g.myNet g.nets a)
    (hab : getIPIdx g.myNet g.nets a = getIPIdx g.myNet g.nets b) : a = b := by
  obtain ⟨m,hm⟩ := lands_of_getIPIdx_nonneg ha
  obtain ⟨m',hm'⟩ := lands_of_getIPIdx_nonneg (hab ▸ ha)
  rw [getIPIdx_of_lands hm,getIPIdx_of_lands hm',BitVec.toInt_inj,← BitVec.toNat_inj,
    slotIdx_toNat,slotIdx_toNat] at hab
  have hstated : ∀ s ∈ g.nets, ∃ addr p, 1 ≤ p ∧ p ≤ 32 ∧ s = statedNetwork addr p := by
    intro s hs
    obtain ⟨addr,p,hp,rfl⟩ := h.stated s hs
    exact ⟨addr,p,by omega,by omega,rfl⟩
  have hfew := h.addressCount_le
  obtain rfl : m = m' := by
    by_contra hne
    exact slotNumber_not_modEq hstated (by omega) hm.1 hm'.1 hne a b hab
  have hmem : subnetAt g.nets m ∈ g.nets := subnetAt_eq hm.1 ▸ List.getElem_mem hm.1
  have hhost : hostNumber (subnetAt g.nets m) a = hostNumber (subnetAt g.nets m) b := by
    refine BitVec.eq_of_toNat_eq ?_
    have hmod := Nat.ModEq.add_left_cancel' (slotBase g.nets m) hab
    rwa [Nat.ModEq,Nat.mod_eq_of_lt (BitVec.isLt _),Nat.mod_eq_of_lt (BitVec.isLt _)] at hmod
  rw [hostNumber_eq_iff hm.2.1 hm'.2.1] at hhost
  have hnet : a &&& (subnetAt g.nets m).mask = b &&& (subnetAt g.nets m).mask :=
    hm.2.1.trans hm'.2.1.symm
  obtain ⟨addr,p,hp,hs⟩ := h.stated _ hmem
  obtain ⟨hmask,hbits⟩ := wholeBytes_mask addr hp
  rw [hs,hbits] at hhost
  rw [hs,hmask] at hnet
  exact eq_of_prefix_eq (by omega) hnet hhost

end WholeBytes

end Flowstatd
