import Flowstatd.Daemon.Run

/-!
# What holds in every run

The arrays keep their sizes, the redundant counters of every entry agree, and no address is ever
given a slot outside the table.
-/

namespace Flowstatd

open Framework

section Sizes

theorem keptByDaemon_wellSized : KeptByDaemon Globals.WellSized where
  clock _ _ h := ⟨h.ipTable,h.rcvNetList,h.nSubnet⟩
  reset _ h := ⟨List.length_replicate,h.rcvNetList,h.nSubnet⟩
  book _ cs h := ⟨by rw [foldl_apply_length]; exact h.ipTable,h.rcvNetList,h.nSubnet⟩

theorem Globals.WellSized.imported {gz : Nat → Nat} {heap : Nat → Byte} {tmpVal : U32}
    {g s g' : Globals} (hg : g.WellSized) (hs : s.WellSized)
    (h : importRecordBy gz heap tmpVal g (exportRecordBy gz s) = some g') : g'.WellSized := by
  rw [importRecordBy_exportRecordBy gz heap tmpVal hg hs,Option.some.injEq] at h
  subst h
  refine ⟨?_,?_,hs.nSubnet⟩
  · rw [decodeMany_length]
    dsimp only
    split_ifs <;> omega
  · have hsub := hs.nSubnet
    simp only [List.length_append,List.length_drop,hs.nets_length,hg.rcvNetList]
    omega

/-- The networks in use after an import are those of the file. -/
theorem Globals.WellSized.imported_nets {gz : Nat → Nat} {heap : Nat → Byte} {tmpVal : U32}
    {g s g' : Globals} (hg : g.WellSized) (hs : s.WellSized)
    (h : importRecordBy gz heap tmpVal g (exportRecordBy gz s) = some g') : g'.nets = s.nets := by
  rw [importRecordBy_exportRecordBy gz heap tmpVal hg hs,Option.some.injEq] at h
  rw [← h,Globals.nets]
  simp only
  rw [← hs.nets_length,List.take_left]

theorem Globals.WellSized.imported_sumIpCount {gz : Nat → Nat} {heap : Nat → Byte} {tmpVal : U32}
    {g s g' : Globals} (hg : g.WellSized) (hs : s.WellSized)
    (h : importRecordBy gz heap tmpVal g (exportRecordBy gz s) = some g') :
    g'.sumIpCount.toNat = max s.sumIpCount.toNat g.sumIpCount.toNat := by
  rw [importRecordBy_exportRecordBy gz heap tmpVal hg hs,Option.some.injEq] at h
  rw [← h]
  dsimp only
  split_ifs <;> omega

theorem oneSubnet_booted : Booted [⟨0x0000000a,30⟩] oneSubnetMachine.globals where
  count := by decide
  globals := ⟨juneMorning,Subnet.zero,[statedNetwork 0x0000000a 30],.refl _,by decide +kernel⟩

/-- A daemon that also states 10.0.1.0/30, with a host of it in the table. -/
def twoSubnetGlobals : Globals :=
  { oneSubnetMachine.globals with
    ipTable := List.replicate 4 HostFlow.zero ++
      HostFlow.zero.book 0x0101000a juneMorning.tmHour .upload 1000 ::
        List.replicate 3 HostFlow.zero
    rcvNetList := statedNetwork 0x0000000a 30 :: statedNetwork 0x0001000a 30 ::
      List.replicate 48 Subnet.zero
    nSubnet := 2
    sumIpCount := 8 }

theorem twoSubnetGlobals_wellSized : twoSubnetGlobals.WellSized :=
  ⟨by decide,by decide,by decide⟩

theorem twoSubnet_booted :
    Booted [⟨0x0000000a,30⟩,⟨0x0001000a,30⟩] (resetTable twoSubnetGlobals) where
  count := by decide
  globals := ⟨juneMorning,Subnet.zero,[statedNetwork 0x0000000a 30,statedNetwork 0x0001000a 30],
    .refl _,by decide +kernel⟩

end Sizes

section Counters

/-- The sizes together with the agreement of the counters. -/
structure Globals.Balanced (g : Globals) : Prop where
  sizes : g.WellSized
  entries : ∀ e ∈ g.ipTable, e.Balanced

private theorem import_balanced {heap : Nat → Byte} {tmpVal : U32} {g s g' : Globals}
    (hg : g.Balanced) (hs : s.Balanced)
    (h : importRecord heap tmpVal g (exportRecord s) = some g') : g'.Balanced := by
  refine ⟨hg.sizes.imported hs.sizes h,?_⟩
  rw [importRecord_exportRecord heap tmpVal hg.sizes hs.sizes,Option.some.injEq] at h
  subst h
  intro e he
  rcases List.mem_append.mp he with he | he
  · exact hs.entries e he
  · exact hg.entries e (List.mem_of_mem_drop he)

private theorem replicate_zero_balanced (n : Nat) :
    ∀ e ∈ List.replicate n HostFlow.zero, e.Balanced := fun _ he =>
  (List.eq_of_mem_replicate he) ▸ HostFlow.zero_balanced

theorem keptByDaemon_balanced : KeptByDaemon Globals.Balanced where
  clock g tm h := ⟨keptByDaemon_wellSized.clock g tm h.sizes,h.entries⟩
  reset g h := ⟨keptByDaemon_wellSized.reset g h.sizes,replicate_zero_balanced _⟩
  book g cs h := ⟨keptByDaemon_wellSized.book g cs h.sizes,foldl_apply_balanced h.entries cs⟩

theorem Booted.balanced {networks : List StatedEntry} {g : Globals} (h : Booted networks g) :
    g.Balanced :=
  ⟨h.wellSized,h.ipTable ▸ replicate_zero_balanced _⟩

theorem Reachable.balanced {Cfg : List StatedEntry → Prop} {localtime : Int → Tm} {d : Daemon}
    (h : Reachable Cfg localtime d) : d.globals.Balanced :=
  keptByDaemon_balanced.reachable (fun _ _ _ hg => hg.balanced)
    (fun _ _ _ _ _ => import_balanced) h

end Counters

section Slots

/-- Prefix lengths of the supported range, and few enough addresses for an `int` index. -/
def Indexable (networks : List StatedEntry) : Prop :=
  (∀ n ∈ networks, 1 ≤ n.maskBits ∧ n.maskBits ≤ 32) ∧
    (networks.map fun n => 2 ^ (32 - n.maskBits)).sum ≤ 2 ^ 31

/-- Every network is one that `LoadConfig` stores, and the table has a slot for each address. -/
structure NetsFit (g : Globals) : Prop where
  sizes : g.WellSized
  stated : ∀ s ∈ g.nets, ∃ addr p, 1 ≤ p ∧ p ≤ 32 ∧ s = statedNetwork addr p
  total : addressCount g.nets ≤ g.sumIpCount.toNat
  bound : g.sumIpCount.toNat ≤ 2 ^ 31

private theorem sum_ipCount {networks : List StatedEntry}
    (h : ∀ n ∈ networks, 1 ≤ n.maskBits ∧ n.maskBits ≤ 32) :
    addressCount (networks.map StatedEntry.subnet) =
        (networks.map fun n => 2 ^ (32 - n.maskBits)).sum ∧
      (networks.map fun n => n.subnet.ipCount).sum =
        BitVec.ofNat 32 (networks.map fun n => 2 ^ (32 - n.maskBits)).sum := by
  induction networks with
  | nil => exact ⟨rfl,rfl⟩
  | cons n networks ih =>
    obtain ⟨hnat,hword⟩ := ih fun n hn => h n (List.mem_cons_of_mem _ hn)
    obtain ⟨hge,hle⟩ := h n List.mem_cons_self
    have hcount : n.subnet.ipCount.toNat = 2 ^ (32 - n.maskBits) :=
      statedNetwork_ipCount n.addr hge hle
    simp only [addressCount,List.map_cons,List.sum_cons,hword,hcount] at hnat ⊢
    refine ⟨by rw [hnat],?_⟩
    rw [BitVec.ofNat_add,← hcount,BitVec.ofNat_toNat,BitVec.setWidth_eq]

private theorem boot_netsFit {networks : List StatedEntry} {g : Globals}
    (hc : Indexable networks) (hg : Booted networks g) : NetsFit g := by
  obtain ⟨hrange,hfew⟩ := hc
  obtain ⟨hnat,hword⟩ := sum_ipCount hrange
  have htotal : addressCount g.nets = (networks.map fun n => 2 ^ (32 - n.maskBits)).sum := by
    rw [← hnat]
    exact (hg.nets_perm.map _).sum_eq
  have hsum : g.sumIpCount.toNat = (networks.map fun n => 2 ^ (32 - n.maskBits)).sum := by
    rw [hg.sumIpCount,hword,BitVec.toNat_ofNat]
    omega
  refine ⟨hg.wellSized,?_,by omega,by omega⟩
  intro s hs
  obtain ⟨n,hn,rfl⟩ := List.mem_map.mp (hg.nets_perm.mem_iff.mp hs)
  exact ⟨n.addr,n.maskBits,(hrange n hn).1,(hrange n hn).2,rfl⟩

/-- An import may bring networks, or a longer table, or both; the table stays long enough. -/
private theorem import_netsFit {heap : Nat → Byte} {tmpVal : U32} {g s g' : Globals}
    (hg : NetsFit g) (hs : NetsFit s)
    (h : importRecord heap tmpVal g (exportRecord s) = some g') : NetsFit g' := by
  have hsizes := hg.sizes.imported hs.sizes h
  have hnets := hg.sizes.imported_nets hs.sizes h
  rw [importRecord_exportRecord heap tmpVal hg.sizes hs.sizes,Option.some.injEq] at h
  have hsum : g'.sumIpCount.toNat = max s.sumIpCount.toNat g.sumIpCount.toNat := by
    rw [← h]
    dsimp only
    split_ifs <;> omega
  have htotal := hs.total
  have hbound := hs.bound
  have hbound' := hg.bound
  refine ⟨hsizes,hnets ▸ hs.stated,by rw [hnets,hsum]; omega,by rw [hsum]; omega⟩

/-- Where `getIPIdx` may point: one of the two negative results, or into the slots of a network
that contains the address, within the table. -/
structure SlotsInTable (g : Globals) : Prop where
  total : addressCount g.nets ≤ g.sumIpCount.toNat
  length : g.ipTable.length = g.sumIpCount.toNat
  index : ∀ a, getIPIdx g.myNet g.nets a = retInMyNet ∨
    getIPIdx g.myNet g.nets a = retNotInMyNet ∨
    ∃ m < g.nets.length, (subnetAt g.nets m).Contains a ∧
      (slotBase g.nets m : Int) ≤ getIPIdx g.myNet g.nets a ∧
      getIPIdx g.myNet g.nets a < slotBase g.nets (m + 1) ∧
      getIPIdx g.myNet g.nets a < g.ipTable.length

theorem NetsFit.slotsInTable {g : Globals} (h : NetsFit g) : SlotsInTable g := by
  refine ⟨h.total,h.sizes.ipTable,fun a => ?_⟩
  by_cases hl : ∃ m, Lands g.nets a m
  · obtain ⟨m,hm⟩ := hl
    have hlt := hm.1
    have hcontains := hm.2.1
    have hmem : subnetAt g.nets m ∈ g.nets := by
      rw [subnetAt_eq hlt]
      exact List.getElem_mem hlt
    have hslot := slotNumber_lt hlt (h.stated _ hmem) a
    have htotal := Nat.le_trans (slotBase_le_total g.nets (m + 1)) h.total
    have hbound := h.bound
    have hnat : (slotIdx g.nets m a).toNat = slotNumber g.nets m a := by
      rw [slotIdx_toNat]
      exact Nat.mod_eq_of_lt (by omega)
    have hidx : getIPIdx g.myNet g.nets a = slotNumber g.nets m a := by
      rw [getIPIdx_of_lands hm,BitVec.toInt_eq_toNat_of_lt (by omega),hnat]
    refine .inr (.inr ⟨m,hlt,hcontains,?_⟩)
    rw [hidx,h.sizes.ipTable]
    have hlow : slotBase g.nets m ≤ slotNumber g.nets m a := Nat.le_add_right _ _
    omega
  · rcases getIPIdx_of_not_lands g.myNet (not_exists.mp hl) with he | he
    · exact .inl he
    · exact .inr (.inl he)

private theorem keptByDaemon_netsFit : KeptByDaemon NetsFit where
  clock g tm h := ⟨keptByDaemon_wellSized.clock g tm h.sizes,h.stated,h.total,h.bound⟩
  reset g h := ⟨keptByDaemon_wellSized.reset g h.sizes,h.stated,h.total,h.bound⟩
  book g cs h := ⟨keptByDaemon_wellSized.book g cs h.sizes,h.stated,h.total,h.bound⟩

/-- Between datagrams and while one is handled, every slot that an address can get is one of its
own network and exists. -/
theorem slots_in_table {localtime : Int → Tm} {d : Daemon}
    (h : Reachable Indexable localtime d) :
    SlotsInTable d.globals ∧
      ∀ now stack p sourceIp, Always (handleDatagram localtime now stack p sourceIp)
        (fun d => SlotsInTable d.globals) d := by
  have hfit : NetsFit d.globals := keptByDaemon_netsFit.reachable (fun _ _ => boot_netsFit)
    (fun _ _ _ _ _ => import_netsFit) h
  refine ⟨hfit.slotsInTable,fun now stack p sourceIp fuel => NetsFit.slotsInTable ?_⟩
  exact keptByDaemon_netsFit.datagram localtime now stack p sourceIp hfit fuel

/-- A start with one network, where the file of an earlier run has two. -/
theorem slots_in_table_imported :
    ∃ g, importRecord (fun _ => 0) 0 oneSubnetMachine.globals
        (exportRecord (startup utc 1340000000 (fun _ => 0) (resetTable twoSubnetGlobals)).globals) =
          some g ∧
      SlotsInTable (startup utc 1340000100 (fun _ => 0) g).globals ∧
      0 ≤ getIPIdx g.myNet g.nets 0x0101000a := by
  have hold : Reachable Indexable utc
      (startup utc 1340000000 (fun _ => 0) (resetTable twoSubnetGlobals)) :=
    .start 1340000000 (fun _ => 0) ⟨by decide,by decide⟩ twoSubnet_booted
  have hsizes := keptByDaemon_wellSized.clock _ (utc 1340000000) twoSubnet_booted.wellSized
  have himport := importRecord_exportRecord (fun _ => 0) 0 oneSubnet_booted.wellSized hsizes
  have hnets := oneSubnet_booted.wellSized.imported_nets hsizes himport
  refine ⟨_,himport,(slots_in_table (.restart 1340000100 (fun _ => 0) ⟨by decide,by decide⟩
    oneSubnet_booted hold ⟨_,_,himport⟩)).1,?_⟩
  rw [hnets]
  decide +kernel

end Slots

end Flowstatd
