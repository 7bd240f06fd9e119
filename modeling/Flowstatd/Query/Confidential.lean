import Flowstatd.Daemon.Days
import Flowstatd.Daemon.Labels
import Flowstatd.Framework.StableSort
import Flowstatd.Query.Queries

/-!
# What the whitelist hides

Without a valid key no answer depends on the counters of whitelisted hosts. These counters do take
part in the sort and in the conditions of the loops; what is left of the table once the hidden
entries are taken out does not depend on them.
-/

namespace Flowstatd

open Framework

section Qsort

/-- `qsort` with `HostFlowCmp`, as a stable sort. -/
structure StableQsort (qsort : List HostFlow → List HostFlow) : Prop where
  perm : ∀ es, (qsort es).Perm es
  sorted : ∀ es, (qsort es).Pairwise fun recA recB => hostFlowCmp recA recB ≤ 0
  stable : ∀ es e, ((qsort es).filter fun x => hostFlowCmp e x = 0) =
    es.filter fun x => hostFlowCmp e x = 0

theorem hostFlowCmp_le_iff (recA recB : HostFlow) :
    hostFlowCmp recA recB ≤ 0 ↔ recB.sum.toFin ≤ recA.sum.toFin := by
  rw [hostFlowCmp,Fin.le_def]
  simp only [gt_iff_lt,← BitVec.toNat_inj,BitVec.lt_def,BitVec.val_toFin]
  split_ifs <;> simp <;> omega

theorem hostFlowCmp_eq_iff (recA recB : HostFlow) :
    hostFlowCmp recA recB = 0 ↔ recB.sum.toFin = recA.sum.toFin := by
  rw [hostFlowCmp,Fin.ext_iff]
  simp only [gt_iff_lt,← BitVec.toNat_inj,BitVec.lt_def,BitVec.val_toFin]
  split_ifs <;> simp <;> omega

theorem StableQsort.stableSort {qsort : List HostFlow → List HostFlow} (h : StableQsort qsort)
    (es : List HostFlow) : StableSort (fun e => e.sum.toFin) es (qsort es) where
  perm := h.perm es
  descending := (h.sorted es).imp fun hcmp => (hostFlowCmp_le_iff _ _).mp hcmp
  stable k := by
    have hk := h.stable es { HostFlow.zero with sum := BitVec.ofFin k }
    simpa only [hostFlowCmp_eq_iff] using hk

/-- Insertion sort by `HostFlowCmp`. -/
def insertionQsort (es : List HostFlow) : List HostFlow :=
  es.insertionSort fun recA recB => hostFlowCmp recA recB ≤ 0

theorem stableQsort_insertionQsort : StableQsort insertionQsort := by
  have hsort (es : List HostFlow) :
      StableSort (fun e => e.sum.toFin) es (insertionQsort es) := by
    have hinsertion := stableSort_insertionSort (fun e : HostFlow => e.sum.toFin) es
    simpa only [insertionQsort,hostFlowCmp_le_iff] using hinsertion
  refine ⟨fun es => (hsort es).perm,fun es => ?_,fun es e => ?_⟩
  · exact (hsort es).descending.imp fun hle => (hostFlowCmp_le_iff _ _).mpr hle
  · simpa only [hostFlowCmp_eq_iff] using (hsort es).stable e.sum.toFin

end Qsort

/-- Two tables with the same labels, of which only hidden entries differ. -/
def SameButHidden (whitelist : Whitelist) (table table' : List HostFlow) : Prop :=
  List.Forall₂ (fun e e' => e.sinAddr = e'.sinAddr ∧
    (whitelistScan whitelist e.sinAddr = false → e = e')) table table'

/-- The answers on two states of the daemon are the same. -/
structure AnswersAlike (whitelist : Whitelist) (g g' : Globals) : Prop where
  byIP : ∀ ipaddr, getByIP g whitelist ipaddr false = getByIP g' whitelist ipaddr false
  byFlow : ∀ qsort, StableQsort qsort → ∀ overMB r r',
    getByFlow qsort g whitelist overMB false = some r →
      getByFlow qsort g' whitelist overMB false = some r' → r = r'
  byTopN : ∀ qsort, StableQsort qsort → ∀ topN r r',
    getByTopN qsort g whitelist topN false = some r →
      getByTopN qsort g' whitelist topN false = some r' → r = r'

section Lists

variable {whitelist : Whitelist} {table table' : List HostFlow}
  {qsort : List HostFlow → List HostFlow}

private theorem SameButHidden.visible (h : SameButHidden whitelist table table') :
    (table.filter fun e => !whitelistScan whitelist e.sinAddr) =
      table'.filter fun e => !whitelistScan whitelist e.sinAddr := by
  induction h with
  | nil => rfl
  | @cons e e' _ _ he _ ih =>
    obtain ⟨hlabel,hsame⟩ := he
    cases hscan : whitelistScan whitelist e.sinAddr with
    | false =>
      obtain rfl := hsame hscan
      rw [List.filter_cons_of_pos (by simp [hscan]),List.filter_cons_of_pos (by simp [hscan]),ih]
    | true =>
      rw [List.filter_cons_of_neg (by simp [hscan]),
        List.filter_cons_of_neg (by simp [← hlabel,hscan]),ih]

/-- The visible entries come out of the sort alike: taken out before it they are the same list,
and the sort does not look at the others to arrange them. -/
private theorem SameButHidden.sorted_visible (h : SameButHidden whitelist table table')
    (hq : StableQsort qsort) :
    ((qsort table).filter fun e => !whitelistScan whitelist e.sinAddr) =
      (qsort table').filter fun e => !whitelistScan whitelist e.sinAddr := by
  have hsort := (hq.stableSort table).filter fun e => !whitelistScan whitelist e.sinAddr
  have hsort' := (hq.stableSort table').filter fun e => !whitelistScan whitelist e.sinAddr
  rw [← h.visible] at hsort'
  exact hsort.unique hsort'

private theorem hiddenBy_false (whitelist : Whitelist) (addr : InAddr) :
    hiddenBy whitelist false addr = whitelistScan whitelist addr := rfl

private theorem overRows_alike (h : SameButHidden whitelist table table')
    (hq : StableQsort qsort) {overMB : U32} {rows rows' : List HostRow}
    (hrows : overRows (hiddenBy whitelist false) overMB 0 (qsort table) = some rows)
    (hrows' : overRows (hiddenBy whitelist false) overMB 0 (qsort table') = some rows') :
    rows = rows' := by
  have hup (e e' : HostFlow) (hle : e'.sum.toFin ≤ e.sum.toFin)
      (hover : decide (e'.sum.toNat / mBytes ≥ overMB.toNat) = true) :
      decide (e.sum.toNat / mBytes ≥ overMB.toNat) = true := by
    simp only [decide_eq_true_eq] at hover ⊢
    exact Nat.le_trans hover (Nat.div_le_div_right hle)
  have hscanned (es : List HostFlow) :
      (((qsort es).takeWhile fun e => e.sum.toNat / mBytes ≥ overMB.toNat).filter
          fun e => !hiddenBy whitelist false e.sinAddr) =
        ((qsort es).filter fun e => !whitelistScan whitelist e.sinAddr).filter
          fun e => e.sum.toNat / mBytes ≥ overMB.toNat := by
    rw [(hq.stableSort es).descending.takeWhile_eq_filter _ hup]
    exact List.filter_comm _ _ _
  rw [overRows_eq hrows,overRows_eq hrows',hscanned,hscanned,h.sorted_visible hq]

private theorem topRows_alike (h : SameButHidden whitelist table table')
    (hq : StableQsort qsort) {topN : U32} {rows rows' : List HostRow}
    (hrows : topRows (hiddenBy whitelist false) topN 0 (qsort table) = some rows)
    (hrows' : topRows (hiddenBy whitelist false) topN 0 (qsort table') = some rows') :
    rows = rows' := by
  have hzero : (0 : U32) ≤ topN := BitVec.le_def.mpr (Nat.zero_le _)
  rw [topRows_eq hzero hrows,topRows_eq hzero hrows']
  simp only [hiddenBy_false,h.sorted_visible hq]

end Lists

section Slots

variable {whitelist : Whitelist} {g g' : Globals}

theorem whitelistScanFrom_zero (whitelist : Whitelist) (rounds j : Nat) :
    whitelistScanFrom whitelist 0 rounds j = false := by
  induction rounds generalizing j with
  | zero => rfl
  | succ rounds ih =>
    rw [whitelistScanFrom]
    split_ifs with hzero hfound
    · rfl
    · exact absurd hfound.symm hzero
    · exact ih (j + 1)

private theorem hourRows_hidden (e e' : HostFlow) (totalFlow totalFlow' : Counter)
    (hours : List (Fin 24)) :
    hourRows e true totalFlow hours = hourRows e' true totalFlow' hours := by
  induction hours generalizing totalFlow totalFlow' with
  | nil => rfl
  | cons i hours ih =>
    rw [hourRows,hourRows]
    exact congrArg _ (ih _ _)

/-- The slot of an address that is not hidden holds no hidden counters. -/
private theorem entry_visible (hlabelled : g.Labelled) (hnets : g.ByteNets) {a : InAddr}
    (ha : 0 ≤ getIPIdx g.myNet g.nets a) (hscan : whitelistScan whitelist a = false)
    {e : HostFlow} (he : g.ipTable[(getIPIdx g.myNet g.nets a).toNat]? = some e) :
    whitelistScan whitelist e.sinAddr = false := by
  rcases hlabelled.label _ e he with rfl | hlabel
  · exact whitelistScanFrom_zero whitelist _ _
  · rw [Int.toNat_of_nonneg ha] at hlabel
    have hsame := hnets.index_injective ha hlabel.symm
    rwa [← hsame]

private theorem getByIP_alike (hlabelled : g.Labelled) (hbytes : g.ByteNets)
    (hnets : g'.nets = g.nets) (hsame : SameButHidden whitelist g.ipTable g'.ipTable)
    (ipaddr : String) :
    getByIP g whitelist ipaddr false = getByIP g' whitelist ipaddr false := by
  rw [getByIP,getByIP,hnets]
  by_cases hin : isOurNet g.nets (inetAddr ipaddr) = true
  · rw [if_pos hin,if_pos hin]
    by_cases hidx : 0 ≤ getIPIdx g.myNet g.nets (inetAddr ipaddr)
    · have hidx' : getIPIdx g'.myNet g.nets (inetAddr ipaddr) =
          getIPIdx g.myNet g.nets (inetAddr ipaddr) := getIPIdx_myNet hidx
      simp only [hidx',hidx,ite_true]
      cases he : g.ipTable[(getIPIdx g.myNet g.nets (inetAddr ipaddr)).toNat]? with
      | none =>
        have hnone : g'.ipTable[(getIPIdx g.myNet g.nets (inetAddr ipaddr)).toNat]? = none := by
          rw [List.getElem?_eq_none_iff,← hsame.length_eq]
          exact List.getElem?_eq_none_iff.mp he
        rw [hnone]
      | some e =>
        obtain ⟨hi,rfl⟩ := List.getElem?_eq_some_iff.mp he
        have hi' := hsame.length_eq ▸ hi
        rw [List.getElem?_eq_getElem hi']
        obtain ⟨_,hequal⟩ := hsame.get hi hi'
        cases hscan : whitelistScan whitelist (inetAddr ipaddr) with
        | false =>
          have heq := hequal (entry_visible hlabelled hbytes hidx hscan he)
          simp only [List.get_eq_getElem] at heq
          rw [heq]
        | true =>
          simp only [hiddenBy_false,hscan,Option.map_some,ite_true]
          rw [hourRows_hidden]
    · have hidx' : ¬0 ≤ getIPIdx g'.myNet g.nets (inetAddr ipaddr) :=
        fun hpos => hidx (getIPIdx_myNet hpos ▸ hpos)
      simp only [hidx,hidx',ite_false]
  · rw [if_neg hin,if_neg hin]

end Slots

/-- No answer given without a valid key depends on the counters of whitelisted hosts. -/
theorem whitelist_confidential {localtime : Int → Tm} {d d' : Daemon}
    (h : Reachable WholeBytes localtime d) (h' : Reachable WholeBytes localtime d')
    (hnets : d'.globals.nets = d.globals.nets) {whitelist : Whitelist}
    (hsame : SameButHidden whitelist d.globals.ipTable d'.globals.ipTable) :
    AnswersAlike whitelist d.globals d'.globals where
  byIP := getByIP_alike h.labelled h.byteNets hnets hsame
  byFlow qsort hq overMB r r' hr hr' := by
    rw [getByFlow,sortTable_eq h.labelled.sizes] at hr
    rw [getByFlow,sortTable_eq h'.labelled.sizes] at hr'
    split_ifs at hr hr' with hparam
    · exact Option.some.inj (hr.symm.trans hr')
    · obtain ⟨rows,hrows,rfl⟩ := Option.map_eq_some_iff.mp hr
      obtain ⟨rows',hrows',rfl⟩ := Option.map_eq_some_iff.mp hr'
      rw [overRows_alike hsame hq hrows hrows']
  byTopN qsort hq topN r r' hr hr' := by
    have hcount : d'.globals.sumIpCount = d.globals.sumIpCount := by
      rw [← BitVec.toNat_inj,← h.labelled.sizes.ipTable,← h'.labelled.sizes.ipTable,
        hsame.length_eq]
    rw [getByTopN,sortTable_eq h.labelled.sizes] at hr
    rw [getByTopN,sortTable_eq h'.labelled.sizes,hcount] at hr'
    split_ifs at hr hr' with hparam
    · exact Option.some.inj (hr.symm.trans hr')
    · obtain ⟨rows,hrows,rfl⟩ := Option.map_eq_some_iff.mp hr
      obtain ⟨rows',hrows',rfl⟩ := Option.map_eq_some_iff.mp hr'
      rw [topRows_alike hsame hq hrows hrows']

/-- The configuration with the one network 10.0.0.0/24. -/
def oneBlock : Globals := resetTable (loadConfig juneMorning Subnet.zero [⟨0x0000000a,24⟩])

private theorem oneBlock_booted : Booted [⟨0x0000000a,24⟩] oneBlock where
  count := by decide
  globals := ⟨juneMorning,Subnet.zero,_,.refl _,by
    rw [Globals.nets,List.take_append_drop]
    rfl⟩

/-- The table when 10.0.0.1 has uploaded 1000 bytes, and when it has done so twice. -/
theorem whitelist_confidential_oneHost :
    let arrive (d : Daemon) : Outcome Daemon :=
      handleDatagram utcJune 1340056800 (fun _ => 0) borrowedTemplatePacket 0x08080808 5 d
    let once := (arrive (startup utcJune 1340000000 (fun _ => 0) oneBlock)).state
    let twice := (arrive once).state
    let whitelist : Whitelist := fun i => if i = 0 then 0x0100000a else 0
    once.globals.ipTable ≠ twice.globals.ipTable ∧
      AnswersAlike whitelist once.globals twice.globals := by
  intro arrive once twice whitelist
  have hstart : Reachable WholeBytes utcJune (startup utcJune 1340000000 (fun _ => 0) oneBlock) :=
    .start 1340000000 (fun _ => 0) (by simp [WholeBytes]) oneBlock_booted
  have honce : Reachable WholeBytes utcJune once :=
    .datagram 1340056800 (fun _ => 0) borrowedTemplatePacket 0x08080808 hstart
      ⟨5,Outcome.eq_finished_state (by decide +kernel)⟩
  have htwice : Reachable WholeBytes utcJune twice :=
    .datagram 1340056800 (fun _ => 0) borrowedTemplatePacket 0x08080808 honce
      ⟨5,Outcome.eq_finished_state (by decide +kernel)⟩
  have hsame : SameButHidden whitelist once.globals.ipTable twice.globals.ipTable := by
    have hpairs : ∀ pair ∈ once.globals.ipTable.zip twice.globals.ipTable,
        pair.1.sinAddr = pair.2.sinAddr ∧
          (whitelistScan whitelist pair.1.sinAddr = false → pair.1 = pair.2) := by
      decide +kernel
    exact List.forall₂_iff_zip.mpr ⟨by decide +kernel,fun hmem => hpairs _ hmem⟩
  exact ⟨by decide +kernel,whitelist_confidential honce htwice (by decide +kernel) hsame⟩

end Flowstatd
