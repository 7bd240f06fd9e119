import Flowstatd.Netflow.SubnetTable

/-!
# The networks that `main` starts with

`LoadConfig` appends the stated networks to `rcvNetList` and adds up their addresses; `main` then
allocates the table and sorts the list. What `qsort` makes of it is any permutation, since the
comparator is no order.
-/

namespace Flowstatd

/-- A stated network as parsed from the configuration: address and prefix length. -/
structure StatedEntry where
  addr : InAddr
  maskBits : Nat

def StatedEntry.subnet (n : StatedEntry) : Subnet := statedNetwork n.addr n.maskBits

/-- One round of the loop over `statedNetworks`. -/
def loadEntry (g : Globals) (n : StatedEntry) : Globals :=
  { g with
    rcvNetList := g.rcvNetList.set g.nSubnet.toNat n.subnet
    sumIpCount := g.sumIpCount + n.subnet.ipCount
    nSubnet := g.nSubnet + 1 }

/-- The globals before `LoadConfig`; it has read `myNetwork` when it comes to the list. -/
def zeroGlobals (localtm : Tm) (myNet : Subnet) : Globals where
  localtm := localtm
  ipTable := []
  myNet := myNet
  rcvNetList := List.replicate maxSubnet Subnet.zero
  nSubnet := 0
  sumIpCount := 0

def loadConfig (localtm : Tm) (myNet : Subnet) (networks : List StatedEntry) : Globals :=
  networks.foldl loadEntry (zeroGlobals localtm myNet)

/-- `memset` of the table to zero. -/
def resetTable (g : Globals) : Globals :=
  { g with ipTable := List.replicate g.sumIpCount.toNat HostFlow.zero }

/-- What `qsort` may make of the networks in use. -/
def Sorted (g g' : Globals) : Prop :=
  ∃ sorted, sorted.Perm g.nets ∧
    g' = { g with rcvNetList := sorted ++ g.rcvNetList.drop g.nSubnet.toNat }

/-- The globals when `main` has read a configuration and sorted its networks. -/
structure Booted (networks : List StatedEntry) (g : Globals) : Prop where
  count : networks.length ≤ maxSubnet
  globals : ∃ localtm myNet, Sorted (resetTable (loadConfig localtm myNet networks)) g

/-- The globals after the loop has taken some of the entries. -/
structure Loaded (networks : List StatedEntry) (g : Globals) : Prop where
  nSubnet : g.nSubnet = BitVec.ofNat 32 networks.length
  sumIpCount : g.sumIpCount = (networks.map fun n => n.subnet.ipCount).sum
  rcvNetList : g.rcvNetList = networks.map StatedEntry.subnet ++
    List.replicate (maxSubnet - networks.length) Subnet.zero

private theorem loadEntry_loaded {networks : List StatedEntry} {g : Globals}
    (h : Loaded networks g) (n : StatedEntry) (hlen : networks.length < maxSubnet) :
    Loaded (networks ++ [n]) (loadEntry g n) := by
  have hn : g.nSubnet.toNat = (networks.map StatedEntry.subnet).length := by
    simp only [maxSubnet] at hlen
    rw [h.nSubnet,BitVec.toNat_ofNat,List.length_map]
    omega
  refine ⟨by simp [loadEntry,h.nSubnet,BitVec.ofNat_add],by simp [loadEntry,h.sumIpCount],?_⟩
  obtain ⟨k,hk⟩ : ∃ k, maxSubnet - networks.length = k + 1 := ⟨maxSubnet - networks.length - 1,by omega⟩
  have hk' : maxSubnet - (networks ++ [n]).length = k := by simp; omega
  simp only [loadEntry]
  rw [h.rcvNetList,hn,List.set_append_right _ _ le_rfl,Nat.sub_self,hk,hk',List.replicate_succ,
    List.set_cons_zero]
  simp

theorem loadConfig_loaded (localtm : Tm) (myNet : Subnet) {networks : List StatedEntry}
    (h : networks.length ≤ maxSubnet) : Loaded networks (loadConfig localtm myNet networks) := by
  suffices hrest : ∀ rest taken g, Loaded taken g → taken.length + rest.length ≤ maxSubnet →
      Loaded (taken ++ rest) (rest.foldl loadEntry g) from
    hrest networks [] (zeroGlobals localtm myNet) ⟨rfl,rfl,rfl⟩ (by simpa using h)
  intro rest
  induction rest with
  | nil => exact fun taken g hg _ => by simpa using hg
  | cons n rest ih =>
    intro taken g hg hlen
    rw [List.length_cons] at hlen
    have hnext := ih (taken ++ [n]) (loadEntry g n) (loadEntry_loaded hg n (by omega))
      (by simp; omega)
    rwa [List.append_assoc] at hnext

theorem Booted.nSubnet {networks : List StatedEntry} {g : Globals} (h : Booted networks g) :
    g.nSubnet.toNat = networks.length := by
  obtain ⟨localtm,myNet,sorted,_,rfl⟩ := h.globals
  have hcount := h.count
  simp only [maxSubnet] at hcount
  simp only [resetTable,(loadConfig_loaded localtm myNet h.count).nSubnet,BitVec.toNat_ofNat]
  omega

theorem Booted.sumIpCount {networks : List StatedEntry} {g : Globals} (h : Booted networks g) :
    g.sumIpCount = (networks.map fun n => n.subnet.ipCount).sum := by
  obtain ⟨localtm,myNet,sorted,_,rfl⟩ := h.globals
  exact (loadConfig_loaded localtm myNet h.count).sumIpCount

/-- The networks in use are those of the configuration, in some order. -/
theorem Booted.nets_perm {networks : List StatedEntry} {g : Globals} (h : Booted networks g) :
    g.nets.Perm (networks.map StatedEntry.subnet) := by
  have hn := h.nSubnet
  obtain ⟨localtm,myNet,sorted,hperm,rfl⟩ := h.globals
  have hload := loadConfig_loaded localtm myNet h.count
  have hnets : (resetTable (loadConfig localtm myNet networks)).nets =
      networks.map StatedEntry.subnet := by
    have hn' : (resetTable (loadConfig localtm myNet networks)).nSubnet.toNat =
        (networks.map StatedEntry.subnet).length := by rw [List.length_map]; exact hn
    rw [Globals.nets,hn']
    simp only [resetTable,hload.rcvNetList,List.take_left]
  rw [hnets] at hperm
  have hlen := hperm.length_eq
  rw [List.length_map] at hlen
  rw [Globals.nets,hn,← hlen,List.take_left]
  exact hperm

theorem Booted.wellSized {networks : List StatedEntry} {g : Globals} (h : Booted networks g) :
    g.WellSized := by
  have hn := h.nSubnet
  have hcount := h.count
  obtain ⟨localtm,myNet,sorted,hperm,rfl⟩ := h.globals
  have hload := loadConfig_loaded localtm myNet h.count
  have htotal : (loadConfig localtm myNet networks).rcvNetList.length = maxSubnet := by
    rw [hload.rcvNetList,List.length_append,List.length_map,List.length_replicate]
    omega
  have hlen := hperm.length_eq
  simp only [resetTable,Globals.nets,List.length_take,htotal] at hlen hn
  refine ⟨by simp [resetTable],?_,by simp only [resetTable]; omega⟩
  simp only [resetTable,List.length_append,List.length_drop,htotal,hlen]
  omega

theorem Booted.ipTable {networks : List StatedEntry} {g : Globals} (h : Booted networks g) :
    g.ipTable = List.replicate g.sumIpCount.toNat HostFlow.zero := by
  obtain ⟨localtm,myNet,sorted,_,rfl⟩ := h.globals
  rfl

end Flowstatd
