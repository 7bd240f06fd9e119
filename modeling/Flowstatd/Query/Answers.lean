import Flowstatd.Daemon.ExportedDay
import Flowstatd.Daemon.Startup
import Flowstatd.Query.Queries

/-!
# From the exporters to the answers

`main` reads its configuration file, collects a day of datagrams and is asked for a host. The
answer is what the exporters have said about that host.
-/

namespace Flowstatd

open Framework Classical

/-- Neither in a stated network nor in `myNetwork`. -/
def Outside (myNet : Subnet) (inside : Set InAddr) (a : InAddr) : Prop :=
  a ∉ inside ∧ ¬(myNet.net ≠ 0 ∧ myNet.Contains a)

/-- The flow is traffic of a host with the outside. -/
def Flow.IsTrafficOf (myNet : Subnet) (inside : Set InAddr) (a : InAddr) (f : Flow) :
    Direction → Prop
  | .upload => f.srcAddr = a ∧ Outside myNet inside f.dstAddr
  | .download => f.dstAddr = a ∧ Outside myNet inside f.srcAddr

section Report

variable (localtime : Int → Tm) (date : Int × Fin 12 × Nat) (myNet : Subnet) (inside : Set InAddr)
  (flows : List Flow)

/-- The bytes of a host in an hour of the day. -/
noncomputable def hostBytes (a : InAddr) (hour : Fin 24) (d : Direction) : Counter :=
  bytesOf flows fun f => f.OnDay localtime date ∧ (convertNfTime localtime f.info).tmHour = hour ∧
    f.IsTrafficOf myNet inside a d

noncomputable def hostTotal (a : InAddr) : Counter :=
  bytesOf flows fun f => f.OnDay localtime date ∧
    (f.IsTrafficOf myNet inside a .upload ∨ f.IsTrafficOf myNet inside a .download)

/-- The rows of a day with these bytes. -/
def dayRows (bytes : Fin 24 → Direction → Counter) : List HourRow :=
  (List.finRange 24).map fun h =>
    { hour := h
      upload := bytes h .upload
      download := bytes h .download
      total := bytes h .upload + bytes h .download
      incrementalTotal := (((List.finRange 24).take (h + 1)).map fun k =>
        bytes k .upload + bytes k .download).sum }

/-- What a host is to be told about a day. -/
noncomputable def dayReport (ip : String) : IpResponse where
  info := retInfo .ok
  ip := some ip
  total := some (hostTotal localtime date myNet inside flows (inetAddr ip))
  data := some (dayRows (hostBytes localtime date myNet inside flows (inetAddr ip)))

end Report

section Rows

theorem hourRows_getElem? (e : HostFlow) (totalFlow : Counter) (hours : List (Fin 24)) (k : Nat) :
    (hourRows e false totalFlow hours)[k]? = hours[k]?.map fun h =>
      { hour := h
        upload := e.hflow h .upload
        download := e.hflow h .download
        total := e.hflow h .upload + e.hflow h .download
        incrementalTotal := totalFlow + ((hours.take (k + 1)).map fun j =>
          e.hflow j .upload + e.hflow j .download).sum } := by
  induction hours generalizing totalFlow k with
  | nil => rfl
  | cons h hours ih =>
    rw [hourRows]
    cases k with
    | zero => simp
    | succ k =>
      rw [List.getElem?_cons_succ,ih,List.getElem?_cons_succ,List.take_succ_cons,List.map_cons,
        List.sum_cons]
      simp only [BitVec.add_assoc]

theorem hourRows_day (e : HostFlow) :
    hourRows e false 0 (List.finRange 24) = dayRows e.hflow := by
  apply List.ext_getElem?
  intro k
  rw [hourRows_getElem?,dayRows,List.getElem?_map]
  cases hk : (List.finRange 24)[k]? with
  | none => rfl
  | some h =>
    obtain ⟨hlt,rfl⟩ := List.getElem?_eq_some_iff.mp hk
    have hval : (List.finRange 24)[k].val = k := by simp
    simp only [Option.map_some,hval,zero_add]

end Rows

section Counted

variable {g : Globals} {p : Nat}

theorem bytesOf_congr {flows : List Flow} {q r : Flow → Prop} [DecidablePred q] [DecidablePred r]
    (h : ∀ f, q f ↔ r f) : bytesOf flows q = bytesOf flows r := by
  simp only [bytesOf,h]

theorem OnePrefix.outside_iff (h : OnePrefix g.nets p) (a : InAddr) :
    Flowstatd.getIPIdx g.myNet g.nets a = retNotInMyNet ↔ Outside g.myNet (hosts g.nets) a := by
  by_cases ha : a ∈ hosts g.nets
  · obtain ⟨hpos,-⟩ := (h.bijOn g.myNet).mapsTo ha
    simp only [Outside,ha,not_true_eq_false,false_and,iff_false,retNotInMyNet]
    omega
  · have hnot (m : Nat) : ¬Lands g.nets a m := by
      intro hlands
      have hcontains := hlands.2.1
      rw [subnetAt_eq hlands.1] at hcontains
      exact ha ⟨_,List.getElem_mem hlands.1,hcontains⟩
    have hnone : bisect (subnetProbe g.nets a) 0 g.nets.length = none := by
      cases hb : bisect (subnetProbe g.nets a) 0 g.nets.length with
      | none => rfl
      | some m => exact absurd ((search_eq_some_iff g.nets a m).mp hb) (hnot m)
    rw [Flowstatd.getIPIdx,hnone]
    simp only [Outside,ha,not_false_eq_true,true_and,Subnet.Contains,eq_comm (a := a &&& _)]
    split_ifs with hin
    · exact iff_of_false (by decide) (not_not.mpr hin)
    · exact iff_of_true rfl hin

theorem OnePrefix.countsFor_iff (h : OnePrefix g.nets p) {a : InAddr} (ha : a ∈ hosts g.nets)
    (f : Flow) (d : Direction) :
    f.CountsFor g (Flowstatd.getIPIdx g.myNet g.nets a).toNat d ↔
      f.IsTrafficOf g.myNet (hosts g.nets) a d := by
  have hbij := h.bijOn g.myNet
  obtain ⟨hpos,-⟩ := hbij.mapsTo ha
  have hslot (b : InAddr) : Flowstatd.getIPIdx g.myNet g.nets b =
      (Flowstatd.getIPIdx g.myNet g.nets a).toNat ↔ b = a := by
    rw [Int.toNat_of_nonneg hpos]
    constructor
    · intro heq
      have hb : b ∈ hosts g.nets := by
        by_contra hnot
        have hneg := getIPIdx_neg_of_not_mem g.myNet hnot
        omega
      exact hbij.injOn hb ha heq
    · rintro rfl
      rfl
  cases d with
  | upload => exact and_congr (hslot f.srcAddr) (h.outside_iff f.dstAddr)
  | download => exact and_congr (hslot f.dstAddr) (h.outside_iff f.srcAddr)

end Counted

section Day

variable {gz : Nat → Nat} {localtime : Int → Tm} {host : ConfigHost} {jsonRoot : Json} {p : Nat}

theorem GrownBy.entry {date : Int × Fin 12 × Nat} {g : Globals} {flows : List Flow}
    (h : OnePrefix g.nets p) {a : InAddr} (ha : a ∈ hosts g.nets) {e : HostFlow}
    (hgrown : GrownBy localtime date g flows (Flowstatd.getIPIdx g.myNet g.nets a).toNat
      HostFlow.zero e) :
    e.hflow = hostBytes localtime date g.myNet (hosts g.nets) flows a ∧
      e.sum = hostTotal localtime date g.myNet (hosts g.nets) flows a := by
  refine ⟨?_,?_⟩
  · funext hour d
    rw [hgrown.hflow,hostBytes,bytesOf_congr fun f => and_congr_right fun _ =>
      and_congr_right fun _ => h.countsFor_iff ha f d]
    exact BitVec.zero_add _
  · rw [hgrown.sum,hostTotal,bytesOf_congr fun f => and_congr_right fun _ =>
      or_congr (h.countsFor_iff ha f .upload) (h.countsFor_iff ha f .download)]
    exact BitVec.zero_add _

/-- A host is told what the exporters have said about it, and an address that is not stated gets no
data. -/
theorem getByIP_day {date : Int × Fin 12 × Nat} {g g' : Globals} {flows : List Flow}
    (h : OnePrefix g.nets p) (hg : g.ipTable = List.replicate (addressCount g.nets) HostFlow.zero)
    (hmyNet : g'.myNet = g.myNet) (hnets : g'.nets = g.nets)
    (hlength : g'.ipTable.length = g.ipTable.length)
    (hgrown : ∀ i < g.ipTable.length, GrownBy localtime date g flows i (entryAt g.ipTable i)
      (entryAt g'.ipTable i)) (whitelist : Whitelist) (ip : String) (isShowAll : Bool)
    (hshown : hiddenBy whitelist isShowAll (inetAddr ip) = false) :
    getByIP g' whitelist ip isShowAll = some
      (if inetAddr ip ∈ hosts g.nets then
        dayReport localtime date g.myNet (hosts g.nets) flows ip
      else ⟨retInfo .noData,none,none,none⟩) := by
  have hour : isOurNet g.nets (inetAddr ip) = true ↔ inetAddr ip ∈ hosts g.nets := by
    simp only [isOurNet,List.any_eq_true,beq_iff_eq]
    exact Iff.rfl
  rw [getByIP,hnets,hmyNet]
  by_cases hin : inetAddr ip ∈ hosts g.nets
  · obtain ⟨hpos,hlt⟩ := (h.bijOn g.myNet).mapsTo hin
    have hi : (Flowstatd.getIPIdx g.myNet g.nets (inetAddr ip)).toNat < g.ipTable.length := by
      rw [hg,List.length_replicate]
      omega
    have hentry := hgrown _ hi
    have hzero : entryAt g.ipTable (Flowstatd.getIPIdx g.myNet g.nets (inetAddr ip)).toNat =
        HostFlow.zero := hg ▸ entryAt_replicate_zero _ _
    rw [hzero] at hentry
    obtain ⟨hflow,hsum⟩ := hentry.entry h hin
    have hget : g'.ipTable[(Flowstatd.getIPIdx g.myNet g.nets (inetAddr ip)).toNat]? =
        some (entryAt g'.ipTable (Flowstatd.getIPIdx g.myNet g.nets (inetAddr ip)).toNat) := by
      rw [entryAt,List.getD_eq_getElem _ _ (hlength ▸ hi),List.getElem?_eq_getElem]
    simp only [hour.mpr hin,hin,hpos,hget,hshown,if_true,Option.map_some,hourRows_day,hflow,hsum,
      Bool.false_eq_true,if_false]
    rfl
  · rw [if_neg (mt hour.mp hin),if_neg hin]

/-- From the configuration file over a day of datagrams to the answer. -/
theorem day_answered {qsort : List Subnet → List Subnet} {localtm : Tm} {g : Globals} {now : Int}
    {stack : Nat → U32} {t : Session} {xs : List Export} {date : Int × Fin 12 × Nat}
    {exporters : Set Exporter} (hqsort : Qsorts rcvNetListCmp qsort)
    (hentries : OnePrefixEntries (entriesRead host jsonRoot) p)
    (hmain : mainGlobals host qsort localtm (some jsonRoot) = some g)
    (hforward : HoursForward localtime) (hday : ∀ x ∈ xs, (localtime x.now).date = date)
    (hapart : exporters.InjOn Exporter.block) (hfrom : ∀ e, sentBy e xs ≠ [] → e ∈ exporters)
    (hwell : ∀ e, WellAnnounced (fun _ => none) (sentBy e xs))
    (h : Collects gz localtime ⟨startup localtime now stack g,now,[],[],true⟩ xs t)
    (whitelist : Whitelist) (ip : String) (isShowAll : Bool)
    (hshown : hiddenBy whitelist isShowAll (inetAddr ip) = false) :
    getByIP t.daemon.globals whitelist ip isShowAll = some
      (if inetAddr ip ∈ statedHosts (entriesRead host jsonRoot) p then
        dayReport localtime date (storedMyNet host jsonRoot)
          (statedHosts (entriesRead host jsonRoot) p) (exportedFlows (fun _ _ => none) xs) ip
      else ⟨retInfo .noData,none,none,none⟩) := by
  obtain ⟨hprefixed,hhosts,hmyNet,hreset,htable⟩ := hentries.mainGlobals hqsort hmain
  have hempty : resetTable { g with localtm := localtime now } =
      { g with localtm := localtime now } :=
    congrArg (fun g => { g with localtm := localtime now }) hreset
  obtain ⟨tm,htm,hglobals⟩ := h.booked hforward ⟨rfl,rfl⟩ hday (.inr hempty)
    (Announced.held_none _) hapart hfrom hwell
  obtain ⟨hframe,hlength⟩ := insertFlows_eq localtime { g with localtm := tm }
    (exportedFlows (fun _ _ => none) xs)
  have hsame : t.daemon.globals.myNet = g.myNet ∧ t.daemon.globals.nets = g.nets := by
    rw [hglobals]
    change (insertFlows localtime { g with localtm := tm } _).myNet = g.myNet ∧
      (insertFlows localtime { g with localtm := tm } _).nets = g.nets
    rw [hframe]
    exact ⟨rfl,rfl⟩
  have hend := congrArg Globals.ipTable hglobals
  rw [← hhosts,← hmyNet]
  apply getByIP_day hprefixed htable hsame.1 hsame.2 (hend ▸ hlength) ?_ whitelist ip isShowAll hshown
  intro i hi
  rw [hend]
  exact insertFlows_grownBy localtime htm _ hi

end Day

/-- A version 5 datagram of two records, 3000000 bytes from 140.123.211.1 to 8.8.8.8. -/
def shippedV5 (unixSecs : U32) (now : Int) : Export :=
  ⟨now,0x08080808,.v5 (.twice unixSecs 0x01d37b8c 0x08080808 3000000),NfV5Datagram.encode_fits _⟩

theorem shipped_hostTotal {localtime : Int → Tm} {date : Int × Fin 12 × Nat} {flows : List Flow}
    (h : ∀ f ∈ flows, f.srcAddr = inetAddr "140.123.211.1" ∧ f.dstAddr = 0x08080808 ∧
      f.OnDay localtime date) :
    hostTotal localtime date (storedMyNet plainHost (shippedConfig shippedNetworks))
        (statedHosts (entriesRead plainHost (shippedConfig shippedNetworks)) 24) flows
        (inetAddr "140.123.211.1") = (flows.map fun f => f.flowBytes.setWidth 64).sum := by
  have hall : flows.filter (fun f => decide (f.OnDay localtime date ∧
      (f.IsTrafficOf (storedMyNet plainHost (shippedConfig shippedNetworks))
        (statedHosts (entriesRead plainHost (shippedConfig shippedNetworks)) 24)
        (inetAddr "140.123.211.1") .upload ∨
      f.IsTrafficOf (storedMyNet plainHost (shippedConfig shippedNetworks))
        (statedHosts (entriesRead plainHost (shippedConfig shippedNetworks)) 24)
        (inetAddr "140.123.211.1") .download))) = flows := by
    refine List.filter_eq_self.mpr fun f hf => decide_eq_true ?_
    obtain ⟨hsrc,hdst,hday⟩ := h f hf
    exact ⟨hday,.inl ⟨hsrc,hdst ▸ shippedConfig_outside⟩⟩
  rw [hostTotal,bytesOf,hall]

/-- The shipped configuration, a version 5 datagram, and a question about 140.123.211.1. -/
theorem day_answered_shipped :
    ∃ qsort g t, Qsorts rcvNetListCmp qsort ∧
      mainGlobals plainHost qsort ⟨112,5,18,6⟩ (some (shippedConfig shippedNetworks)) = some g ∧
      Collects zlibLength juneClock
        ⟨startup juneClock 1340000000 (fun _ => 0) g,1340000000,[],[],true⟩
        [shippedV5 1340000000 1340000100] t ∧
      getByIP t.daemon.globals (fun _ => 0) "140.123.211.1" false = some
        (dayReport juneClock (112,5,18) (storedMyNet plainHost (shippedConfig shippedNetworks))
          (statedHosts (entriesRead plainHost (shippedConfig shippedNetworks)) 24)
          (exportedFlows (fun _ _ => none) [shippedV5 1340000000 1340000100]) "140.123.211.1") ∧
      hostTotal juneClock (112,5,18) (storedMyNet plainHost (shippedConfig shippedNetworks))
        (statedHosts (entriesRead plainHost (shippedConfig shippedNetworks)) 24)
        (exportedFlows (fun _ _ => none) [shippedV5 1340000000 1340000100])
        (inetAddr "140.123.211.1") = 3000000 := by
  obtain ⟨qsort,hqsort⟩ := exists_qsorts rcvNetListCmp
  obtain ⟨g,hmain⟩ := exists_shippedGlobals qsort ⟨112,5,18,6⟩
  have hfrom (e : Exporter) (he : sentBy e [shippedV5 1340000000 1340000100] ≠ []) :
      e ∈ (∅ : Set Exporter) := absurd rfl he
  have hwell (e : Exporter) : WellAnnounced (fun _ => none)
      (sentBy e [shippedV5 1340000000 1340000100]) := trivial
  obtain ⟨t,ht⟩ := exists_collects zlibLength juneClock
    (s := ⟨startup juneClock 1340000000 (fun _ => 0) g,1340000000,[],[],true⟩) rfl
    (Announced.held_none _) (Set.injOn_empty _) hfrom hwell (by simp [shippedV5]) (by simp)
  have hday : ∀ x ∈ [shippedV5 1340000000 1340000100], (juneClock x.now).date = (112,5,18) := by
    rw [List.forall_mem_singleton]
    decide +kernel
  have hanswer := day_answered hqsort shippedConfig_onePrefix hmain juneClock_forward hday
    (Set.injOn_empty _) hfrom hwell ht (fun _ => 0) "140.123.211.1" false (by decide +kernel)
  rw [if_pos shippedConfig_states] at hanswer
  refine ⟨qsort,g,t,hqsort,hmain,ht,hanswer,?_⟩
  have hall : ∀ f ∈ exportedFlows (fun _ _ => none) [shippedV5 1340000000 1340000100],
      f.srcAddr = inetAddr "140.123.211.1" ∧ f.dstAddr = 0x08080808 ∧
        f.OnDay juneClock (112,5,18) := by decide +kernel
  rw [shipped_hostTotal hall]
  decide +kernel

end Flowstatd
