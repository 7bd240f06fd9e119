import Flowstatd.Daemon.ConfigFile
import Flowstatd.Framework.StableSort
import Flowstatd.Netflow.HostSlots
import Flowstatd.Netflow.NetworkOrder

/-!
# From the configuration file to the search

`main` up to its signal handlers: `LoadConfig`, the table, and `qsort` over the networks. What it
comes to is a start of the daemon as the runs have it, and for short prefixes it does not depend on
the order in which the file states the networks.
-/

namespace Flowstatd

open Framework

/-- `main` from `LoadConfig` to the sorted list; `none` where it ends before that. -/
def mainGlobals (host : ConfigHost) (qsort : List Subnet → List Subnet) (localtm : Tm)
    (jsonRoot : Option Json) : Option Globals :=
  match loadConfigFile host jsonRoot Config.initial with
  | none => none
  | some (ret,config) =>
    if mainReturns ret then none
    else
      let nSubnet := BitVec.ofInt 32 ret
      some
        { localtm := localtm
          ipTable := List.replicate config.sumIpCount.toNat HostFlow.zero
          myNet := config.myNet
          rcvNetList := qsort (config.rcvNetList.take nSubnet.toNat) ++
            config.rcvNetList.drop nSubnet.toNat
          nSubnet := nSubnet
          sumIpCount := config.sumIpCount }

section Loading

variable {host : ConfigHost} {jsonRoot : Json}

/-- The globals of `main`, from the networks in the order of the file. -/
theorem mainGlobals_eq (host : ConfigHost) (qsort : List Subnet → List Subnet) (localtm : Tm)
    (jsonRoot : Json) :
    let stored := storedNetworks host jsonRoot
    let sum := (stored.map Subnet.ipCount).sum
    mainGlobals host qsort localtm (some jsonRoot) =
      if stored = [] then none
      else some
        { localtm := localtm
          ipTable := List.replicate sum.toNat HostFlow.zero
          myNet := storedMyNet host jsonRoot
          rcvNetList := qsort stored ++ List.replicate (maxSubnet - stored.length) Subnet.zero
          nSubnet := BitVec.ofNat 32 stored.length
          sumIpCount := sum } := by
  obtain ⟨config,hload,hlist,hsum,hmyNet⟩ := loadConfigFile_eq host jsonRoot
  have hfew := storedNetworks_length host jsonRoot
  generalize storedNetworks host jsonRoot = stored at *
  have hcount : (BitVec.ofNat 32 stored.length).toNat = stored.length := by
    simp only [maxSubnet] at hfew
    rw [BitVec.toNat_ofNat]
    omega
  have hreturns : mainReturns (stored.length : Int) = decide (stored = []) := by
    rw [Bool.eq_iff_iff,mainReturns_iff hfew,decide_eq_true_eq,List.length_eq_zero_iff]
  rw [mainGlobals,hload]
  simp only [hreturns,decide_eq_true_eq,BitVec.ofInt_natCast,hcount,hlist,hsum,hmyNet,
    List.take_left,List.drop_left]

/-- Every prefix length that is read is one of an address. -/
def PrefixesInRange (host : ConfigHost) (jsonRoot : Json) : Prop :=
  ∀ e ∈ entriesRead host jsonRoot, ∀ addr maskBits,
    e.string? >>= parsePrefix = some (addr,maskBits) → 1 ≤ maskBits ∧ maskBits ≤ 32

theorem storedNetworks_eq (h : PrefixesInRange host jsonRoot) :
    storedNetworks host jsonRoot = (statedEntries host jsonRoot).map StatedEntry.subnet := by
  rw [storedNetworks,statedEntries,List.map_filterMap]
  apply List.filterMap_congr
  intro e he
  cases hparse : e.string? >>= parsePrefix with
  | none => simp [acceptedNetwork,hparse]
  | some entry =>
    simp only [acceptedNetwork,hparse,Option.map_some,
      prefixNetwork_eq (h e he entry.1 entry.2 hparse)]
    rfl

theorem loadConfig_frame (localtm : Tm) (myNet : Subnet) (networks : List StatedEntry) :
    (loadConfig localtm myNet networks).localtm = localtm ∧
      (loadConfig localtm myNet networks).myNet = myNet := by
  suffices hrest : ∀ g : Globals, (networks.foldl loadEntry g).localtm = g.localtm ∧
      (networks.foldl loadEntry g).myNet = g.myNet from hrest (zeroGlobals localtm myNet)
  induction networks with
  | nil => exact fun _ => ⟨rfl,rfl⟩
  | cons n networks ih => exact fun g => ih (loadEntry g n)

/-- What `main` makes of a configuration file is a start of the daemon as the runs have it. -/
theorem mainGlobals_booted {qsort : List Subnet → List Subnet} {localtm : Tm} {g : Globals}
    (hperm : ∀ nets, (qsort nets).Perm nets) (hrange : PrefixesInRange host jsonRoot)
    (h : mainGlobals host qsort localtm (some jsonRoot) = some g) :
    Booted (statedEntries host jsonRoot) g := by
  have hfew := storedNetworks_length host jsonRoot
  have hmain := mainGlobals_eq host qsort localtm jsonRoot
  simp only at hmain
  rw [hmain] at h
  split_ifs at h
  obtain rfl := Option.some.inj h
  rw [storedNetworks_eq hrange] at hfew ⊢
  rw [List.length_map] at hfew
  obtain ⟨hlocaltm,hmyNet⟩ := loadConfig_frame localtm (storedMyNet host jsonRoot)
    (statedEntries host jsonRoot)
  have hload := loadConfig_loaded localtm (storedMyNet host jsonRoot) hfew
  have hcount : (BitVec.ofNat 32 (statedEntries host jsonRoot).length).toNat =
      (statedEntries host jsonRoot).length := by
    simp only [maxSubnet] at hfew
    rw [BitVec.toNat_ofNat]
    omega
  have hnets : (resetTable (loadConfig localtm (storedMyNet host jsonRoot)
      (statedEntries host jsonRoot))).nets = (statedEntries host jsonRoot).map StatedEntry.subnet := by
    simp only [Globals.nets,resetTable,hload.nSubnet,hload.rcvNetList,hcount]
    exact List.take_left' (List.length_map _)
  have harranged : (qsort ((statedEntries host jsonRoot).map StatedEntry.subnet)).Perm
      (resetTable (loadConfig localtm (storedMyNet host jsonRoot)
        (statedEntries host jsonRoot))).nets := by
    rw [hnets]
    exact hperm _
  refine ⟨hfew,localtm,storedMyNet host jsonRoot,_,harranged,?_⟩
  have hdrop : ((statedEntries host jsonRoot).map StatedEntry.subnet ++
      List.replicate (maxSubnet - (statedEntries host jsonRoot).length) Subnet.zero).drop
        (statedEntries host jsonRoot).length =
      List.replicate (maxSubnet - (statedEntries host jsonRoot).length) Subnet.zero :=
    List.drop_left' (List.length_map _)
  simp only [resetTable,hload.nSubnet,hload.sumIpCount,hload.rcvNetList,hlocaltm,hmyNet,hcount,
    hdrop,List.map_map,List.length_map]
  rfl

end Loading

section Order

variable {host : ConfigHost} {r r' : Json}

/-- The files differ in the order of their stated networks, and in nothing that is read before
those. -/
structure Reordered (r r' : Json) : Prop where
  others : ∀ key, key ≠ "statedNetworks" → r.member? key = r'.member? key
  networks : ∃ es es', r.member? "statedNetworks" = some (.array es) ∧
    r'.member? "statedNetworks" = some (.array es') ∧ es.Perm es' ∧ es.length ≤ maxSubnet

private theorem entriesRead_of_few {es : List Json}
    (hes : r.member? "statedNetworks" = some (.array es)) (hfew : es.length ≤ maxSubnet) :
    entriesRead host r = match r.member? "dataDir" >>= Json.string?,
        r.member? "myNetwork" >>= Json.string? >>= parsePrefix with
      | some dataDir, some _ =>
        if host.usableDir (strncpy (savePrefixSize - 1) dataDir) then es else []
      | _, _ => [] := by
  have hlength : arrayLength es = es.length := by
    simp only [maxSubnet] at hfew
    rw [arrayLength,BitVec.toInt_eq_toNat_of_lt (by rw [BitVec.toNat_ofNat]; omega),
      BitVec.toNat_ofNat]
    omega
  have helements : r.member? "statedNetworks" >>= Json.elements? = some es := by
    rw [hes]
    rfl
  rw [entriesRead,helements]
  cases r.member? "dataDir" >>= Json.string? with
  | none => rfl
  | some dataDir =>
    cases r.member? "myNetwork" >>= Json.string? >>= parsePrefix with
    | none => rfl
    | some network =>
      have hle : (es.length : Int) ≤ maxSubnet := by omega
      simp only [hlength,hle,and_true,Int.toNat_natCast,List.take_length]

theorem Reordered.storedNetworks_perm (h : Reordered r r') (host : ConfigHost) :
    (storedNetworks host r).Perm (storedNetworks host r') := by
  obtain ⟨es,es',hes,hes',hperm,hfew⟩ := h.networks
  apply List.Perm.filterMap
  rw [entriesRead_of_few hes hfew,entriesRead_of_few hes' (hperm.length_eq ▸ hfew),
    h.others "dataDir" (by decide),h.others "myNetwork" (by decide)]
  split
  · split_ifs
    · exact hperm
    · exact .nil
  · exact .nil

theorem compares_of_differencesFit {nets : List Subnet} (h : DifferencesFit nets) :
    Compares rcvNetListCmp nets where
  swap x hx y hy := by
    rw [(h x hx y hy).rcvNetListCmp_eq,(h y hy x hx).rcvNetListCmp_eq]
    omega
  trans x hx y hy z hz := (rcvNetListCmp_preorder h hx hy hz).2

end Order

section Slots

variable {host : ConfigHost} {jsonRoot : Json} {entries : List Json} {p : Nat}

/-- The entries that parse are different networks of one prefix length of whole bytes. -/
structure OnePrefixEntries (entries : List Json) (p : Nat) : Prop where
  prefixLength : p = 8 ∨ p = 16 ∨ p = 24
  stated : ∀ e ∈ entries, ∀ addr maskBits, e.string? >>= parsePrefix = some (addr,maskBits) →
    maskBits = p ∧ (statedNetwork addr p).Contains addr
  distinct : ((entries.filterMap fun e => e.string? >>= parsePrefix).map Prod.fst).Nodup

/-- The addresses that an entry states. -/
def statedHosts (entries : List Json) (p : Nat) : Set InAddr :=
  { a | ∃ e ∈ entries, ∃ addr maskBits, e.string? >>= parsePrefix = some (addr,maskBits) ∧
    (statedNetwork addr p).Contains a }

theorem OnePrefixEntries.accepted (h : OnePrefixEntries entries p) (host : ConfigHost) :
    entries.filterMap (acceptedNetwork host) =
      ((entries.filterMap fun e => e.string? >>= parsePrefix).map Prod.fst).map
        fun addr => statedNetwork addr p := by
  rw [List.map_map,List.map_filterMap]
  apply List.filterMap_congr
  intro e he
  cases hparse : e.string? >>= parsePrefix with
  | none => simp [acceptedNetwork,hparse]
  | some entry =>
    obtain ⟨hbits,-⟩ := h.stated e he entry.1 entry.2 hparse
    have hp := h.prefixLength
    simp only [acceptedNetwork,hparse,Option.map_some,Function.comp_apply]
    rw [prefixNetwork_eq (by omega),hbits,Int.toNat_natCast]

private theorem OnePrefixEntries.stored (h : OnePrefixEntries entries p) (host : ConfigHost) :
    ∀ s ∈ entries.filterMap (acceptedNetwork host),
      s = statedNetwork s.net p ∧ s.Contains s.net := by
  rw [h.accepted host]
  intro s hs
  obtain ⟨addr,haddr,rfl⟩ := List.mem_map.mp hs
  obtain ⟨⟨_,maskBits⟩,hentry,rfl⟩ := List.mem_map.mp haddr
  obtain ⟨e,he,hparse⟩ := List.mem_filterMap.mp hentry
  exact ⟨rfl,(h.stated e he _ _ hparse).2⟩

private theorem OnePrefixEntries.fit (h : OnePrefixEntries entries p) (host : ConfigHost) :
    DifferencesFit (entries.filterMap (acceptedNetwork host)) := by
  have hsmall : ∀ s ∈ entries.filterMap (acceptedNetwork host), s.net.toNat < 2 ^ 24 := by
    intro s hs
    obtain ⟨heq,hself⟩ := h.stored host s hs
    rw [heq,statedNetwork_contains_iff h.prefixLength] at hself
    rw [← hself]
    apply (Nat.mod_lt _ (Nat.two_pow_pos p)).trans_le
    apply Nat.pow_le_pow_right (by decide)
    have hp := h.prefixLength
    omega
  intro s hs t ht
  have hs := hsmall s hs
  have ht := hsmall t ht
  rw [DifferenceFits]
  omega

/-- Sorted, the networks stored are as the search needs them. -/
theorem OnePrefixEntries.onePrefix (h : OnePrefixEntries entries p)
    (hfew : entries.length ≤ maxSubnet) {qsort : List Subnet → List Subnet}
    (hqsort : Qsorts rcvNetListCmp qsort) :
    OnePrefix (qsort (entries.filterMap (acceptedNetwork host))) p := by
  have hperm := hqsort.perm (entries.filterMap (acceptedNetwork host))
  have hfit := h.fit host
  have hsorted := ascending_of_sorted hfit hperm
    (hqsort.sorted _ (compares_of_differencesFit hfit))
  have haddrs : (entries.filterMap (acceptedNetwork host)).map Subnet.net =
      (entries.filterMap fun e => e.string? >>= parsePrefix).map Prod.fst := by
    rw [h.accepted host,List.map_map]
    exact List.map_id _
  have hdistinct : ((qsort (entries.filterMap (acceptedNetwork host))).map Subnet.net).Nodup := by
    rw [(hperm.map Subnet.net).nodup_iff,haddrs]
    exact h.distinct
  refine ⟨h.prefixLength,fun s hs => h.stored host s (hperm.mem_iff.mp hs),?_,?_⟩
  · exact hsorted.imp₂ (fun _ _ hle hne => BitVec.lt_of_le_ne hle hne) (List.pairwise_map.mp hdistinct)
  · have hlength := List.length_filterMap_le (acceptedNetwork host) entries
    have hp := h.prefixLength
    rw [hperm.length_eq]
    calc (entries.filterMap (acceptedNetwork host)).length * 2 ^ (32 - p)
        ≤ maxSubnet * 2 ^ 24 :=
          Nat.mul_le_mul (hlength.trans hfew) (Nat.pow_le_pow_right (by decide) (by omega))
      _ ≤ 2 ^ 31 := by decide

private theorem OnePrefixEntries.hosts (h : OnePrefixEntries entries p) (host : ConfigHost) :
    hosts (entries.filterMap (acceptedNetwork host)) = statedHosts entries p := by
  rw [h.accepted host]
  ext a
  constructor
  · rintro ⟨s,hs,ha⟩
    obtain ⟨addr,haddr,rfl⟩ := List.mem_map.mp hs
    obtain ⟨⟨_,maskBits⟩,hentry,rfl⟩ := List.mem_map.mp haddr
    obtain ⟨e,he,hparse⟩ := List.mem_filterMap.mp hentry
    exact ⟨e,he,_,_,hparse,ha⟩
  · rintro ⟨e,he,addr,maskBits,hparse,ha⟩
    have hentry : (addr,maskBits) ∈ entries.filterMap fun e => e.string? >>= parsePrefix :=
      List.mem_filterMap.mpr ⟨e,he,hparse⟩
    exact ⟨_,List.mem_map_of_mem (List.mem_map_of_mem hentry),ha⟩

private theorem mainGlobals_nets {qsort : List Subnet → List Subnet} {localtm : Tm} {g : Globals}
    (hlength : (qsort (storedNetworks host jsonRoot)).length = (storedNetworks host jsonRoot).length)
    (hmain : mainGlobals host qsort localtm (some jsonRoot) = some g) :
    g.nets = qsort (storedNetworks host jsonRoot) ∧ g.myNet = storedMyNet host jsonRoot ∧
      resetTable g = g ∧
      g.ipTable = List.replicate (((storedNetworks host jsonRoot).map Subnet.ipCount).sum).toNat
        HostFlow.zero := by
  have hfew := storedNetworks_length host jsonRoot
  have heq := mainGlobals_eq host qsort localtm jsonRoot
  simp only at heq
  rw [heq] at hmain
  split_ifs at hmain
  obtain rfl := Option.some.inj hmain
  refine ⟨?_,rfl,rfl,rfl⟩
  have hcount : (BitVec.ofNat 32 (storedNetworks host jsonRoot).length).toNat =
      (qsort (storedNetworks host jsonRoot)).length := by
    simp only [maxSubnet] at hfew
    rw [BitVec.toNat_ofNat,hlength]
    omega
  rw [Globals.nets,hcount,List.take_left]

/-- The globals of `main` for networks of whole bytes: the networks are ready for the search, and
the table is empty and as long as they are. -/
theorem OnePrefixEntries.mainGlobals {qsort : List Subnet → List Subnet} {localtm : Tm}
    {g : Globals} (h : OnePrefixEntries (entriesRead host jsonRoot) p)
    (hqsort : Qsorts rcvNetListCmp qsort)
    (hmain : Flowstatd.mainGlobals host qsort localtm (some jsonRoot) = some g) :
    OnePrefix g.nets p ∧ Flowstatd.hosts g.nets = statedHosts (entriesRead host jsonRoot) p ∧
      g.myNet = storedMyNet host jsonRoot ∧ resetTable g = g ∧
      g.ipTable = List.replicate (addressCount g.nets) HostFlow.zero := by
  have hprefixed : OnePrefix (qsort (storedNetworks host jsonRoot)) p :=
    h.onePrefix (entriesRead_length host jsonRoot) hqsort
  have hperm := hqsort.perm (storedNetworks host jsonRoot)
  have hhosts := h.hosts host
  rw [← storedNetworks,← hosts_perm hperm] at hhosts
  obtain ⟨hnets,hmyNet,hreset,htable⟩ := mainGlobals_nets hperm.length_eq hmain
  have hroom := hprefixed.room
  rw [hnets,hmyNet,htable,sum_ipCount_toNat,← addressCount_perm hperm,hprefixed.addressCount,
    Nat.mod_eq_of_lt (by omega)]
  exact ⟨hprefixed,hhosts,rfl,hreset,rfl⟩

end Slots

/-- The stated networks of `etc/config.json`. -/
def shippedNetworks : List String :=
  ["140.123.211.0/24","140.123.212.0/24","140.123.213.0/24","140.123.214.0/24",
    "140.123.215.0/24","140.123.216.0/24","140.123.217.0/24","140.123.218.0/24",
    "140.123.219.0/24","140.123.220.0/24","140.123.221.0/24","140.123.222.0/24",
    "140.123.223.0/24","140.123.224.0/24","140.123.225.0/24","140.123.232.0/24",
    "140.123.233.0/24","140.123.234.0/24","140.123.235.0/24","140.123.236.0/24",
    "140.123.237.0/24","140.123.238.0/24","140.123.239.0/24","140.123.240.0/24"]

/-- What `LoadConfig` reads of `etc/config.json` up to its networks, with these networks. -/
def shippedConfig (networks : List String) : Json :=
  .object [("dataDir",.string "/data/flowstatd/data"),("myNetwork",.string "140.123.0.0/16"),
    ("statedNetworks",.array (networks.map .string))]

private theorem onePrefixEntries_of_parsed {entries : List Json} {p : Nat}
    (hp : p = 8 ∨ p = 16 ∨ p = 24)
    (hstated : ∀ entry ∈ entries.filterMap fun e => e.string? >>= parsePrefix,
      entry.2 = p ∧ (statedNetwork entry.1 p).Contains entry.1)
    (hdistinct : ((entries.filterMap fun e => e.string? >>= parsePrefix).map Prod.fst).Nodup) :
    OnePrefixEntries entries p where
  prefixLength := hp
  stated e he addr maskBits hparse :=
    hstated (addr,maskBits) (List.mem_filterMap.mpr ⟨e,he,hparse⟩)
  distinct := hdistinct

/-- 140.123.211.0 to 140.123.225.0 and 140.123.232.0 to 140.123.240.0, byte-swapped. -/
def shippedAddrs : List InAddr :=
  (List.range' 211 15 ++ List.range' 232 9).map fun k => BitVec.ofNat 32 (k * 65536 + 31628)

private theorem shippedConfig_parsed :
    ((entriesRead plainHost (shippedConfig shippedNetworks)).filterMap
      fun e => e.string? >>= parsePrefix) = shippedAddrs.map fun addr => (addr,24) := by
  decide +kernel

theorem shippedConfig_onePrefix :
    OnePrefixEntries (entriesRead plainHost (shippedConfig shippedNetworks)) 24 := by
  apply onePrefixEntries_of_parsed (.inr (.inr rfl))
  · rw [shippedConfig_parsed]
    decide +kernel
  · rw [shippedConfig_parsed]
    decide +kernel

theorem shippedConfig_stated_iff {a : InAddr} :
    a ∈ statedHosts (entriesRead plainHost (shippedConfig shippedNetworks)) 24 ↔
      ∃ addr ∈ shippedAddrs, (statedNetwork addr 24).Contains a := by
  have hparsed (entry : InAddr × Int) :
      (∃ e ∈ entriesRead plainHost (shippedConfig shippedNetworks),
        e.string? >>= parsePrefix = some entry) ↔ ∃ addr ∈ shippedAddrs, (addr,24) = entry := by
    rw [← List.mem_filterMap,shippedConfig_parsed,List.mem_map]
  constructor
  · rintro ⟨e,he,addr,maskBits,hentry,ha⟩
    obtain ⟨addr',haddr,heq⟩ := (hparsed _).mp ⟨e,he,hentry⟩
    obtain ⟨rfl,-⟩ := Prod.mk.inj heq
    exact ⟨addr',haddr,ha⟩
  · rintro ⟨addr,haddr,ha⟩
    obtain ⟨e,he,hentry⟩ := (hparsed _).mpr ⟨addr,haddr,rfl⟩
    exact ⟨e,he,addr,24,hentry,ha⟩

private theorem shippedConfig_first {a : InAddr}
    (h : (statedNetwork (inetAddr "140.123.211.0") 24).Contains a) :
    a ∈ statedHosts (entriesRead plainHost (shippedConfig shippedNetworks)) 24 := by
  have hfirst : inetAddr "140.123.211.0" ∈ shippedAddrs := by decide +kernel
  exact shippedConfig_stated_iff.mpr ⟨_,hfirst,h⟩

theorem shippedConfig_states : inetAddr "140.123.211.1" ∈
    statedHosts (entriesRead plainHost (shippedConfig shippedNetworks)) 24 :=
  shippedConfig_first (by decide +kernel)

theorem shippedConfig_states_second : inetAddr "140.123.211.2" ∈
    statedHosts (entriesRead plainHost (shippedConfig shippedNetworks)) 24 :=
  shippedConfig_first (by decide +kernel)

/-- 8.8.8.8 is neither stated nor in `myNetwork`. -/
theorem shippedConfig_outside :
    0x08080808 ∉ statedHosts (entriesRead plainHost (shippedConfig shippedNetworks)) 24 ∧
      ¬((storedMyNet plainHost (shippedConfig shippedNetworks)).net ≠ 0 ∧
        (storedMyNet plainHost (shippedConfig shippedNetworks)).Contains 0x08080808) := by
  have hnone : shippedAddrs.all (fun addr => ¬(statedNetwork addr 24).Contains 0x08080808) := by
    decide +kernel
  have hmyNet : ¬((storedMyNet plainHost (shippedConfig shippedNetworks)).net ≠ 0 ∧
      (storedMyNet plainHost (shippedConfig shippedNetworks)).Contains 0x08080808) := by
    decide +kernel
  refine ⟨fun hstated => ?_,hmyNet⟩
  obtain ⟨addr,haddr,hcontains⟩ := shippedConfig_stated_iff.mp hstated
  exact of_decide_eq_true (List.all_eq_true.mp hnone addr haddr) hcontains

private theorem shippedConfig_stored :
    storedNetworks plainHost (shippedConfig shippedNetworks) =
      shippedAddrs.map fun addr => statedNetwork addr 24 := by
  rw [storedNetworks,shippedConfig_onePrefix.accepted,shippedConfig_parsed]
  decide +kernel

/-- `main` starts with the shipped configuration. -/
theorem exists_shippedGlobals (qsort : List Subnet → List Subnet) (localtm : Tm) :
    ∃ g, mainGlobals plainHost qsort localtm (some (shippedConfig shippedNetworks)) = some g := by
  have hstored : storedNetworks plainHost (shippedConfig shippedNetworks) ≠ [] := by
    rw [shippedConfig_stored]
    decide +kernel
  have hmain := mainGlobals_eq plainHost qsort localtm (shippedConfig shippedNetworks)
  simp only [hstored,if_false] at hmain
  exact ⟨_,hmain⟩

/-- 24 networks of 256 addresses. -/
theorem shippedGlobals_sumIpCount {qsort : List Subnet → List Subnet} {localtm : Tm} {g : Globals}
    (h : mainGlobals plainHost qsort localtm (some (shippedConfig shippedNetworks)) = some g) :
    g.sumIpCount = 6144 := by
  have hsum : ((storedNetworks plainHost (shippedConfig shippedNetworks)).map
      Subnet.ipCount).sum = 6144 := by
    rw [shippedConfig_stored]
    decide +kernel
  have hmain := mainGlobals_eq plainHost qsort localtm (shippedConfig shippedNetworks)
  rw [h] at hmain
  simp only [hsum] at hmain
  split_ifs at hmain
  rw [Option.some.inj hmain]

section Main

variable {host : ConfigHost} {jsonRoot r r' : Json} {p : Nat}

/-- For networks of whole bytes `main` comes from the file to a table with one slot for each host
that the file states, and to a search that gives every one of them its own. -/
theorem main_numbers_hosts {qsort : List Subnet → List Subnet} {localtm : Tm} {g : Globals}
    (hqsort : Qsorts rcvNetListCmp qsort) (hentries : OnePrefixEntries (entriesRead host jsonRoot) p)
    (hmain : mainGlobals host qsort localtm (some jsonRoot) = some g) :
    Set.BijOn (getIPIdx g.myNet g.nets) (statedHosts (entriesRead host jsonRoot) p)
        { k | 0 ≤ k ∧ k < g.ipTable.length } ∧
      ∀ a, a ∉ statedHosts (entriesRead host jsonRoot) p → getIPIdx g.myNet g.nets a < 0 := by
  obtain ⟨hprefixed,hhosts,-,-,htable⟩ := hentries.mainGlobals hqsort hmain
  rw [htable,List.length_replicate,← hhosts]
  exact ⟨hprefixed.bijOn g.myNet,fun a ha => getIPIdx_neg_of_not_mem g.myNet ha⟩

/-- The shipped configuration. -/
theorem main_numbers_hosts_shipped :
    ∃ qsort g, Qsorts rcvNetListCmp qsort ∧
      mainGlobals plainHost qsort ⟨112,5,18,6⟩ (some (shippedConfig shippedNetworks)) = some g ∧
      Set.BijOn (getIPIdx g.myNet g.nets)
        (statedHosts (entriesRead plainHost (shippedConfig shippedNetworks)) 24)
        { k | 0 ≤ k ∧ k < g.ipTable.length } := by
  obtain ⟨qsort,hqsort⟩ := exists_qsorts rcvNetListCmp
  obtain ⟨g,hmain⟩ := exists_shippedGlobals qsort ⟨112,5,18,6⟩
  exact ⟨qsort,g,hqsort,hmain,(main_numbers_hosts hqsort shippedConfig_onePrefix hmain).1⟩

/-- The order of the stated networks in the file, and what `qsort` does with it, make no difference
for networks with different addresses that can be compared. -/
theorem mainGlobals_reordered {qsort qsort' : List Subnet → List Subnet} (localtm : Tm)
    (hqsort : Qsorts rcvNetListCmp qsort) (hqsort' : Qsorts rcvNetListCmp qsort')
    (hreordered : Reordered r r') (hfit : DifferencesFit (storedNetworks host r))
    (hdiffer : ∀ m ∈ storedNetworks host r, ∀ n ∈ storedNetworks host r, m.net = n.net → m = n) :
    mainGlobals host qsort localtm (some r) = mainGlobals host qsort' localtm (some r') := by
  have hperm := hreordered.storedNetworks_perm host
  have hmyNet : storedMyNet host r = storedMyNet host r' := by
    rw [storedMyNet,storedMyNet,hreordered.others "dataDir" (by decide),
      hreordered.others "myNetwork" (by decide)]
  have hsorted : qsort (storedNetworks host r) = qsort' (storedNetworks host r') := by
    apply hqsort.eq_of_perm hqsort' (compares_of_differencesFit hfit) ?_ hperm
    intro m hm n hn hequal
    rw [(hfit m hm n hn).rcvNetListCmp_eq] at hequal
    exact hdiffer m hm n hn (BitVec.eq_of_toNat_eq (by omega))
  have hsum := (hperm.map Subnet.ipCount).sum_eq
  have hempty : storedNetworks host r = [] ↔ storedNetworks host r' = [] := by
    rw [← List.length_eq_zero_iff,← List.length_eq_zero_iff,hperm.length_eq]
  simp only [mainGlobals_eq,hempty,hmyNet,hsorted,hsum,hperm.length_eq]

private theorem shippedConfig_reordered {networks networks' : List String}
    (h : networks.Perm networks') (hfew : networks.length ≤ maxSubnet) :
    Reordered (shippedConfig networks) (shippedConfig networks') where
  others key hkey := by
    simp only [shippedConfig,Json.member?,List.find?_cons,hkey.symm,decide_false,List.find?_nil]
  networks := ⟨_,_,rfl,rfl,h.map _,by rwa [List.length_map]⟩

/-- The shipped networks in the opposite order. -/
theorem mainGlobals_reordered_shipped :
    ∃ qsort, Qsorts rcvNetListCmp qsort ∧
      mainGlobals plainHost qsort ⟨112,5,18,6⟩ (some (shippedConfig shippedNetworks)) =
        mainGlobals plainHost qsort ⟨112,5,18,6⟩ (some (shippedConfig shippedNetworks.reverse)) := by
  obtain ⟨qsort,hqsort⟩ := exists_qsorts rcvNetListCmp
  have hentries := shippedConfig_onePrefix
  have hreordered := shippedConfig_reordered shippedNetworks.reverse_perm.symm (by decide)
  refine ⟨qsort,hqsort,mainGlobals_reordered ⟨112,5,18,6⟩ hqsort hqsort hreordered
    (hentries.fit plainHost) ?_⟩
  intro m hm n hn heq
  rw [(hentries.stored plainHost m hm).1,(hentries.stored plainHost n hn).1,heq]

end Main

end Flowstatd
