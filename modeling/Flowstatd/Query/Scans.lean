import Flowstatd.Query.Confidential

/-!
# The scans of the host lists

`GetByFlow` goes down the sorted table to the first host under the quota, `GetByTopN` until it has
listed enough hosts. Neither compares its index with the length of the table.
-/

namespace Flowstatd

open Framework

variable {qsort : List HostFlow → List HostFlow} {isHidden : InAddr → Bool}

/-- `qsort` with `HostFlowCmp`; equal entries may come in any order. -/
structure SortingQsort (qsort : List HostFlow → List HostFlow) : Prop where
  perm : ∀ es, (qsort es).Perm es
  sorted : ∀ es, (qsort es).Pairwise fun recA recB => hostFlowCmp recA recB ≤ 0

theorem StableQsort.sorting (h : StableQsort qsort) : SortingQsort qsort := ⟨h.perm,h.sorted⟩

theorem SortingQsort.descending (h : SortingQsort qsort) (es : List HostFlow) :
    Descending (fun e => e.sum.toNat) (qsort es) :=
  (h.sorted es).imp fun hcmp => (hostFlowCmp_le_iff _ _).mp hcmp

section Inside

/-- The loop of `GetByFlow` ends inside the table if it meets a host under the quota there. -/
theorem overRows_isSome_iff {overMB rank : U32} {table : List HostFlow} :
    (overRows isHidden overMB rank table).isSome ↔
      ∃ e ∈ table, e.sum.toNat / mBytes < overMB.toNat := by
  induction table generalizing rank with
  | nil => simp [overRows]
  | cons e table ih =>
    rw [overRows]
    split_ifs with hover hhid
    · rw [ih]
      simp [Nat.not_lt.mpr hover]
    · rw [Option.isSome_map,ih]
      simp [Nat.not_lt.mpr hover]
    · exact iff_of_true rfl ⟨e,List.mem_cons_self,Nat.not_le.mp hover⟩

/-- The loop of `GetByTopN` ends inside the table if enough hosts are not hidden. -/
theorem topRows_isSome_iff {topN rank : U32} (hrank : rank ≤ topN) {table : List HostFlow} :
    (topRows isHidden topN rank table).isSome ↔
      topN.toNat - rank.toNat ≤ (table.filter fun e => !isHidden e.sinAddr).length := by
  have hle : rank.toNat ≤ topN.toNat := hrank
  induction table generalizing rank with
  | nil =>
    rw [topRows]
    split_ifs with hlt
    · have hlt' : rank.toNat < topN.toNat := hlt
      simp
      omega
    · have hge : ¬rank.toNat < topN.toNat := hlt
      simp
      omega
  | cons e table ih =>
    rw [topRows]
    split_ifs with hlt hhid
    · rw [List.filter_cons_of_neg (by simp [hhid])]
      exact ih hrank hle
    · have hlt' : rank.toNat < topN.toNat := hlt
      obtain ⟨hnext,hle'⟩ := rank_succ hlt
      rw [Option.isSome_map,List.filter_cons_of_pos (by simp [hhid]),List.length_cons]
      refine (ih hle' (by omega)).trans ?_
      omega
    · have hge : ¬rank.toNat < topN.toNat := hlt
      exact iff_of_true rfl (by omega)

/-- Both loops end inside a table of `sumIpCount` entries exactly when it has a host under the
quota, or as many hosts to show as are asked for. -/
theorem list_scans_inside_iff (hperm : ∀ es, (qsort es).Perm es) {g : Globals}
    (hlength : g.ipTable.length = g.sumIpCount.toNat) (whitelist : Whitelist) (isShowAll : Bool) :
    (∀ overMB > 0, (getByFlow qsort g whitelist overMB isShowAll).isSome ↔
      ∃ e ∈ g.ipTable, e.sum.toNat / mBytes < overMB.toNat) ∧
    ∀ topN > 0, topN < g.sumIpCount → ((getByTopN qsort g whitelist topN isShowAll).isSome ↔
      topN.toNat ≤ (g.ipTable.filter fun e => !hiddenBy whitelist isShowAll e.sinAddr).length) := by
  constructor
  · intro overMB hover
    rw [getByFlow,if_neg (BitVec.not_le.mpr hover),Option.isSome_map,overRows_isSome_iff,
      sortTable_of_length hlength]
    simp only [(hperm g.ipTable).mem_iff]
  · intro topN hpos hlt
    have haccepted : ¬(topN ≤ 0 ∨ topN ≥ g.sumIpCount) :=
      not_or.mpr ⟨BitVec.not_le.mpr hpos,BitVec.not_le.mpr hlt⟩
    rw [getByTopN,if_neg haccepted,Option.isSome_map,
      topRows_isSome_iff (BitVec.le_def.mpr (Nat.zero_le _)),sortTable_of_length hlength,
      ((hperm g.ipTable).filter _).length_eq]
    rfl

/-- All four hosts of 10.0.0.0/30 have sent a megabyte. -/
def busyGlobals : Globals :=
  { oneSubnetMachine.globals with
    ipTable := [0x0000000a,0x0100000a,0x0200000a,0x0300000a].map fun addr =>
      HostFlow.zero.book addr juneMorning.tmHour .upload 1000000 }

/-- 10.0.0.1 and 10.0.0.2 are hidden. -/
def twoHidden : Whitelist := fun i => if i = 0 then 0x0100000a else if i = 1 then 0x0200000a else 0

theorem list_scans_inside_iff_busy :
    ((getByFlow insertionQsort busyGlobals twoHidden 1 false).isSome ↔
      ∃ e ∈ busyGlobals.ipTable, e.sum.toNat / mBytes < (1 : U32).toNat) ∧
    ((getByTopN insertionQsort busyGlobals twoHidden 3 false).isSome ↔
      (3 : U32).toNat ≤
        (busyGlobals.ipTable.filter fun e => !hiddenBy twoHidden false e.sinAddr).length) := by
  have hscans := list_scans_inside_iff stableQsort_insertionQsort.perm
    (show busyGlobals.ipTable.length = _ by decide) twoHidden false
  exact ⟨hscans.1 1 (by decide),hscans.2 3 (by decide) (by decide)⟩

/-- Every host is over a quota of one megabyte, and only two hosts are left for a list of three:
both scans run out of the table. -/
theorem list_scans_leave_table :
    0 < busyGlobals.sumIpCount ∧ busyGlobals.ipTable.length = busyGlobals.sumIpCount.toNat ∧
      getByFlow insertionQsort busyGlobals twoHidden 1 true = none ∧
      (0 < (3 : U32) ∧ (3 : U32) < busyGlobals.sumIpCount ∧
        getByTopN insertionQsort busyGlobals twoHidden 3 false = none) := by
  refine ⟨by decide,by decide,by decide +kernel,by decide,by decide,by decide +kernel⟩

end Inside

section Listed

variable {g : Globals}

/-- The rows are those of the entries, numbered from 1, with no more bytes than the row before. -/
structure RankedListing (es : List HostFlow) (rows : List HostRow) : Prop where
  length : rows.length = es.length
  row : ∀ i e, es[i]? = some e → ∃ rank, rows[i]? = some (hostRow rank e) ∧ rank.toNat = i + 1
  descending : Descending (fun e => e.sum.toNat) es

theorem rankedRows_length (rank : U32) (es : List HostFlow) :
    (rankedRows rank es).length = es.length := by
  induction es generalizing rank with
  | nil => rfl
  | cons e es ih => rw [rankedRows,List.length_cons,List.length_cons,ih]

theorem rankedRows_getElem? (rank : U32) {es : List HostFlow}
    (hfits : rank.toNat + es.length < 2 ^ 32) {i : Nat} {e : HostFlow} (h : es[i]? = some e) :
    ∃ k, (rankedRows rank es)[i]? = some (hostRow k e) ∧ k.toNat = rank.toNat + i + 1 := by
  induction es generalizing rank i with
  | nil => simp at h
  | cons e' es ih =>
    rw [List.length_cons] at hfits
    have hnext : (rank + 1).toNat = rank.toNat + 1 := by
      rw [BitVec.toNat_add]
      exact Nat.mod_eq_of_lt (by simp; omega)
    cases i with
    | zero =>
      obtain rfl := Option.some.inj h
      exact ⟨rank + 1,rfl,hnext⟩
    | succ i =>
      obtain ⟨k,hrow,hk⟩ := ih (rank + 1) (by omega) h
      exact ⟨k,hrow,by omega⟩

private theorem rankedListing {es : List HostFlow} (hfits : es.length < 2 ^ 32)
    (hdescending : Descending (fun e => e.sum.toNat) es) :
    RankedListing es (rankedRows 0 es) where
  length := rankedRows_length 0 es
  row i e h := by
    obtain ⟨k,hrow,hk⟩ := rankedRows_getElem? 0 (by simpa using hfits) h
    exact ⟨k,hrow,by simpa using hk⟩
  descending := hdescending

private theorem over_iff (bytes overMB : Nat) :
    bytes / mBytes ≥ overMB ↔ overMB * 1000000 ≤ bytes :=
  Nat.le_div_iff_mul_le (by decide)

theorem getByFlow_lists (hq : SortingQsort qsort)
    (hlength : g.ipTable.length = g.sumIpCount.toNat) {whitelist : Whitelist} {isShowAll : Bool}
    {overMB : U32} (hover : overMB > 0) {r : ListResponse}
    (h : getByFlow qsort g whitelist overMB isShowAll = some r) :
    ∃ rows es, r = ⟨retInfo .ok,some overMB,some rows⟩ ∧
      es.Perm (g.ipTable.filter fun e =>
        !hiddenBy whitelist isShowAll e.sinAddr && overMB.toNat * 1000000 ≤ e.sum.toNat) ∧
      RankedListing es rows := by
  rw [getByFlow,if_neg (BitVec.not_le.mpr hover),sortTable_of_length hlength] at h
  obtain ⟨rows,hrows,rfl⟩ := Option.map_eq_some_iff.mp h
  have hsorted := hq.descending g.ipTable
  have hup (e e' : HostFlow) (hle : e'.sum.toNat ≤ e.sum.toNat)
      (hmb : decide (e'.sum.toNat / mBytes ≥ overMB.toNat) = true) :
      decide (e.sum.toNat / mBytes ≥ overMB.toNat) = true := by
    simp only [decide_eq_true_eq] at hmb ⊢
    exact Nat.le_trans hmb (Nat.div_le_div_right hle)
  have hlisted := overRows_eq hrows
  rw [hsorted.takeWhile_eq_filter _ hup,List.filter_filter] at hlisted
  refine ⟨rows,_,rfl,?_,hlisted ▸ rankedListing ?_ (hsorted.filter _)⟩
  · simp only [over_iff]
    exact (hq.perm g.ipTable).filter _
  · have hle := List.length_filter_le (fun e : HostFlow => !hiddenBy whitelist isShowAll e.sinAddr &&
      decide (e.sum.toNat / mBytes ≥ overMB.toNat)) (qsort g.ipTable)
    rw [(hq.perm g.ipTable).length_eq,hlength] at hle
    exact Nat.lt_of_le_of_lt hle g.sumIpCount.isLt

theorem getByTopN_lists (hq : SortingQsort qsort)
    (hlength : g.ipTable.length = g.sumIpCount.toNat) {whitelist : Whitelist} {isShowAll : Bool}
    {topN : U32} (hpos : topN > 0) (hlt : topN < g.sumIpCount) {r : ListResponse}
    (h : getByTopN qsort g whitelist topN isShowAll = some r) :
    ∃ rows es omitted, r = ⟨retInfo .ok,some topN,some rows⟩ ∧
      (es ++ omitted).Perm (g.ipTable.filter fun e => !hiddenBy whitelist isShowAll e.sinAddr) ∧
      es.length = topN.toNat ∧ (∀ e ∈ es, ∀ e' ∈ omitted, e'.sum.toNat ≤ e.sum.toNat) ∧
      RankedListing es rows := by
  have haccepted : ¬(topN ≤ 0 ∨ topN ≥ g.sumIpCount) :=
    not_or.mpr ⟨BitVec.not_le.mpr hpos,BitVec.not_le.mpr hlt⟩
  rw [getByTopN,if_neg haccepted,sortTable_of_length hlength] at h
  obtain ⟨rows,hrows,rfl⟩ := Option.map_eq_some_iff.mp h
  have hzero : (0 : U32) ≤ topN := BitVec.le_def.mpr (Nat.zero_le _)
  have henough := (topRows_isSome_iff hzero).mp (Option.isSome_of_mem hrows)
  have hvisible := (hq.descending g.ipTable).filter
    fun e => !hiddenBy whitelist isShowAll e.sinAddr
  have hlisted := topRows_eq hzero hrows
  have hcount : topN.toNat - (0 : U32).toNat = topN.toNat := Nat.sub_zero _
  rw [hcount] at henough hlisted
  have hlen := List.length_take_of_le henough
  refine ⟨rows,_,_,rfl,?_,hlen,hvisible.drop_le_take topN.toNat,?_⟩
  · rw [List.take_append_drop]
    exact (hq.perm g.ipTable).filter _
  · rw [hlisted]
    exact rankedListing (by rw [hlen]; exact topN.isLt) (hvisible.take _)

/-- What the two host lists show, where their scans stay inside the table. -/
theorem host_lists_exact (hq : SortingQsort qsort)
    (hlength : g.ipTable.length = g.sumIpCount.toNat) (whitelist : Whitelist) (isShowAll : Bool) :
    (∀ overMB > 0, ∀ r, getByFlow qsort g whitelist overMB isShowAll = some r →
      ∃ rows es, r = ⟨retInfo .ok,some overMB,some rows⟩ ∧
        es.Perm (g.ipTable.filter fun e =>
          !hiddenBy whitelist isShowAll e.sinAddr && overMB.toNat * 1000000 ≤ e.sum.toNat) ∧
        RankedListing es rows) ∧
    ∀ topN > 0, topN < g.sumIpCount → ∀ r,
      getByTopN qsort g whitelist topN isShowAll = some r →
      ∃ rows es omitted, r = ⟨retInfo .ok,some topN,some rows⟩ ∧
        (es ++ omitted).Perm
          (g.ipTable.filter fun e => !hiddenBy whitelist isShowAll e.sinAddr) ∧
        es.length = topN.toNat ∧ (∀ e ∈ es, ∀ e' ∈ omitted, e'.sum.toNat ≤ e.sum.toNat) ∧
        RankedListing es rows :=
  ⟨fun _ hover _ h => getByFlow_lists hq hlength hover h,
    fun _ hpos hlt _ h => getByTopN_lists hq hlength hpos hlt h⟩

theorem host_lists_exact_busy :
    (∃ rows es omitted,
      getByTopN insertionQsort busyGlobals twoHidden 2 false = some ⟨retInfo .ok,some 2,some rows⟩ ∧
        (es ++ omitted).Perm
          (busyGlobals.ipTable.filter fun e => !hiddenBy twoHidden false e.sinAddr) ∧
        es.length = (2 : U32).toNat ∧
        (∀ e ∈ es, ∀ e' ∈ omitted, e'.sum.toNat ≤ e.sum.toNat) ∧ RankedListing es rows) ∧
    ∃ rows es,
      getByFlow insertionQsort busyGlobals twoHidden 2 false = some ⟨retInfo .ok,some 2,some rows⟩ ∧
        es.Perm (busyGlobals.ipTable.filter fun e =>
          !hiddenBy twoHidden false e.sinAddr && (2 : U32).toNat * 1000000 ≤ e.sum.toNat) ∧
        RankedListing es rows := by
  have hlists := host_lists_exact stableQsort_insertionQsort.sorting
    (show busyGlobals.ipTable.length = _ by decide) twoHidden false
  have htop : (getByTopN insertionQsort busyGlobals twoHidden 2 false).isSome := by decide +kernel
  have hover : (getByFlow insertionQsort busyGlobals twoHidden 2 false).isSome := by decide +kernel
  obtain ⟨r,hr⟩ := Option.isSome_iff_exists.mp htop
  obtain ⟨r',hr'⟩ := Option.isSome_iff_exists.mp hover
  obtain ⟨rows,es,omitted,rfl,hrest⟩ := hlists.2 2 (by decide) (by decide) r hr
  obtain ⟨rows',es',rfl,hrest'⟩ := hlists.1 2 (by decide) r' hr'
  exact ⟨⟨rows,es,omitted,hr,hrest⟩,rows',es',hr',hrest'⟩

end Listed

end Flowstatd
