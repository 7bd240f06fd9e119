import Flowstatd.Query.Agreement
import Flowstatd.Query.PastReports
import Flowstatd.Query.Scans
import Mathlib.Data.Int.Interval
import Mathlib.Data.Set.Card

/-!
# Lists of a day

The hosts over a quota, and the hosts with the most traffic, from what the exporters have said about
a day. A label is written with the first flow of a host, so an entry without flows is shown as
0.0.0.0.
-/

namespace Flowstatd

open Framework Classical

section Ranking

variable (localtime : Int → Tm) (date : Int × Fin 12 × Nat) (myNet : Subnet) (inside : Set InAddr)
  (flows : List Flow)

/-- The bytes of a host on the day. -/
noncomputable def hostFlow (a : InAddr) (d : Direction) : Counter :=
  bytesOf flows fun f => f.OnDay localtime date ∧ f.IsTrafficOf myNet inside a d

/-- The row of a host in a list about the day. -/
noncomputable def dayRow (rank : U32) (a : InAddr) : HostRow where
  rank := rank
  ip := inetNtop a
  upload := hostFlow localtime date myNet inside flows a .upload
  download := hostFlow localtime date myNet inside flows a .download
  total := hostTotal localtime date myNet inside flows a

/-- The rows of these hosts, numbered from 1, the largest totals first. -/
structure RanksHosts (as : List InAddr) (rows : List HostRow) : Prop where
  length : rows.length = as.length
  row : ∀ i a, as[i]? = some a → ∃ rank,
    rows[i]? = some (dayRow localtime date myNet inside flows rank a) ∧ rank.toNat = i + 1
  nodup : as.Nodup
  descending : Descending (fun a => (hostTotal localtime date myNet inside flows a).toNat) as

/-- The rows of the `limit` hosts with the largest totals among those to show. Where not so many
have traffic, the rows behind them have none. -/
structure RanksTop (shown : InAddr → Prop) (limit : Nat) (as : List InAddr) (rows : List HostRow) :
    Prop where
  length : rows.length = limit
  ranks : RanksHosts localtime date myNet inside flows as (rows.take as.length)
  idle : ∀ row ∈ rows.drop as.length, row.total = 0
  hosts : ∀ a ∈ as, a ∈ inside ∧ shown a ∧ hostTotal localtime date myNet inside flows a ≠ 0
  others : ∀ a ∈ inside, shown a → hostTotal localtime date myNet inside flows a ≠ 0 → a ∉ as →
    as.length = limit ∧ ∀ b ∈ as, (hostTotal localtime date myNet inside flows a).toNat ≤
      (hostTotal localtime date myNet inside flows b).toNat

end Ranking

section Listings

variable {es es' : List HostFlow} {rows : List HostRow}

theorem RankedListing.front (h : RankedListing (es ++ es') rows) :
    RankedListing es (rows.take es.length) where
  length := by
    rw [List.length_take,h.length,List.length_append]
    exact Nat.min_eq_left (Nat.le_add_right _ _)
  row i e he := by
    have hlt := (List.getElem?_eq_some_iff.mp he).1
    rw [List.getElem?_take_of_lt hlt]
    exact h.row i e (List.getElem?_append_left hlt ▸ he)
  descending := h.descending.sublist (List.sublist_append_left es es')

theorem RankedListing.behind (h : RankedListing (es ++ es') rows) {row : HostRow}
    (hrow : row ∈ rows.drop es.length) : ∃ e ∈ es', ∃ rank, row = hostRow rank e := by
  obtain ⟨i,hi⟩ := List.mem_iff_getElem?.mp hrow
  rw [List.getElem?_drop] at hi
  have hlt := (List.getElem?_eq_some_iff.mp hi).1
  rw [h.length,List.length_append] at hlt
  have hget : (es ++ es')[es.length + i]? = some es'[i] := by
    rw [List.getElem?_append_right (Nat.le_add_right _ _),Nat.add_sub_cancel_left,
      List.getElem?_eq_getElem]
  obtain ⟨rank,hrank,-⟩ := h.row _ _ hget
  rw [hi] at hrank
  exact ⟨_,List.getElem_mem _,rank,Option.some.inj hrank⟩

theorem RankedListing.used_first (h : RankedListing es rows) :
    ∃ busy idle, es = busy ++ idle ∧ (∀ e ∈ busy, e.sum ≠ 0) ∧ ∀ e ∈ idle, e.sum = 0 := by
  have hup (e e' : HostFlow) (hle : e'.sum.toNat ≤ e.sum.toNat)
      (hused : decide (e'.sum ≠ 0) = true) : decide (e.sum ≠ 0) = true := by
    rw [decide_eq_true_iff] at hused ⊢
    intro hzero
    rw [hzero] at hle
    exact hused (BitVec.eq_of_toNat_eq (Nat.le_zero.mp hle))
  refine ⟨_,_,(h.descending.filter_append _ hup).symm,fun e he => ?_,fun e he => ?_⟩
  · simpa using (List.mem_filter.mp he).2
  · simpa using (List.mem_filter.mp he).2

theorem length_filter_eq_card (table : List HostFlow) (q : HostFlow → Bool) :
    (table.filter q).length =
      ((Finset.range table.length).filter fun i => q (entryAt table i) = true).card := by
  have htable : table = (List.range table.length).map (entryAt table) := by
    apply List.ext_getElem
    · simp
    · intro i hi _
      simp [entryAt,List.getElem?_eq_getElem hi]
  conv_lhs => rw [htable,List.filter_map,List.length_map,
    ← List.toFinset_card_of_nodup (List.nodup_range.filter _)]
  congr 1
  ext i
  simp

end Listings

theorem OnePrefix.ncard_hosts {nets : List Subnet} {p : Nat} (h : OnePrefix nets p)
    (myNet : Subnet) : (hosts nets).ncard = Flowstatd.addressCount nets := by
  have hbij := h.bijOn myNet
  have hslots : { k : Int | 0 ≤ k ∧ k < Flowstatd.addressCount nets } =
      (Finset.Ico (0 : Int) (Flowstatd.addressCount nets) : Set Int) := by
    ext k
    simp
  rw [← hbij.injOn.ncard_image,hbij.image_eq,hslots,Set.ncard_coe_finset,Int.card_Ico]
  simp

theorem mem_hosts_of_getIPIdx {myNet : Subnet} {nets : List Subnet} {a : InAddr}
    (h : 0 ≤ getIPIdx myNet nets a) : a ∈ hosts nets := by
  by_contra hnot
  have hneg := getIPIdx_neg_of_not_mem myNet hnot
  omega

section Entries

variable {localtime : Int → Tm} {base g : Globals} {day : (Int × Fin 12 × Nat) × List Flow} {p : Nat}

private theorem Globals.Reports.labels_apart (h : g.Reports localtime base day) :
    g.ipTable.Pairwise fun e e' => e.sum ≠ 0 → e'.sum ≠ 0 → e.sinAddr ≠ e'.sinAddr := by
  rw [List.pairwise_iff_getElem]
  intro i j hi hj hlt hsum hsum' heq
  have hindex := label_index h.labelled (List.getElem?_eq_getElem hi) hsum
  have hindex' := label_index h.labelled (List.getElem?_eq_getElem hj) hsum'
  rw [heq,hindex'] at hindex
  omega

variable (hprefixed : OnePrefix base.nets p)
  (hempty : base.ipTable = List.replicate (addressCount base.nets) HostFlow.zero)

include hprefixed hempty

private theorem Globals.Reports.slot (h : g.Reports localtime base day) {a : InAddr}
    (ha : a ∈ hosts base.nets) :
    ∃ e, g.ipTable[(getIPIdx base.myNet base.nets a).toNat]? = some e ∧
      e.sum = hostTotal localtime day.1 base.myNet (hosts base.nets) day.2 a ∧
      e.nflow = hostFlow localtime day.1 base.myNet (hosts base.nets) day.2 a ∧
      (e = HostFlow.zero ∨ e.sinAddr = a) := by
  have hbij := hprefixed.bijOn base.myNet
  obtain ⟨hmyNet,hnets,-,-⟩ := h.networks
  obtain ⟨hpos,hlt⟩ := hbij.mapsTo ha
  have hi : (getIPIdx base.myNet base.nets a).toNat < base.ipTable.length := by
    rw [hempty,List.length_replicate]
    omega
  have hgrown := h.grown _ hi
  have hzero : entryAt base.ipTable (getIPIdx base.myNet base.nets a).toNat = HostFlow.zero := by
    rw [hempty,entryAt_replicate_zero]
  rw [hzero] at hgrown
  have hget : g.ipTable[(getIPIdx base.myNet base.nets a).toNat]? =
      some (entryAt g.ipTable (getIPIdx base.myNet base.nets a).toNat) := by
    rw [entryAt,List.getD_eq_getElem _ _ (h.length ▸ hi),List.getElem?_eq_getElem]
  refine ⟨_,hget,(hgrown.entry hprefixed ha).2,?_,?_⟩
  · funext d
    rw [hgrown.nflow,hostFlow,
      bytesOf_congr fun f => and_congr_right fun _ => hprefixed.countsFor_iff ha f d]
    exact BitVec.zero_add _
  · refine (h.labelled.label _ _ hget).imp_right fun hlabel => ?_
    rw [hmyNet,hnets,Int.toNat_of_nonneg hpos] at hlabel
    exact hbij.injOn (mem_hosts_of_getIPIdx (hlabel ▸ hpos)) ha hlabel

private theorem Globals.Reports.labelled_host (h : g.Reports localtime base day) {e : HostFlow}
    (he : e ∈ g.ipTable) (hsum : e.sum ≠ 0) :
    e.sinAddr ∈ hosts base.nets ∧
      e.sum = hostTotal localtime day.1 base.myNet (hosts base.nets) day.2 e.sinAddr ∧
      ∀ rank, hostRow rank e =
        dayRow localtime day.1 base.myNet (hosts base.nets) day.2 rank e.sinAddr := by
  obtain ⟨hmyNet,hnets,-,-⟩ := h.networks
  obtain ⟨i,hi⟩ := List.mem_iff_getElem?.mp he
  have hindex := label_index h.labelled hi hsum
  rw [hmyNet,hnets] at hindex
  have hin : e.sinAddr ∈ hosts base.nets :=
    mem_hosts_of_getIPIdx (hindex ▸ Int.natCast_nonneg i)
  obtain ⟨e',he',htotal,hflow,-⟩ := h.slot hprefixed hempty hin
  rw [hindex,Int.toNat_natCast,hi] at he'
  obtain rfl := Option.some.inj he'
  refine ⟨hin,htotal,fun rank => ?_⟩
  rw [hostRow,dayRow,← htotal,← hflow]

private theorem Globals.Reports.ranks (h : g.Reports localtime base day)
    {es : List HostFlow} {rows : List HostRow} (hes : ∀ e ∈ es, e ∈ g.ipTable ∧ e.sum ≠ 0)
    (hapart : es.Pairwise fun e e' => e.sum ≠ 0 → e'.sum ≠ 0 → e.sinAddr ≠ e'.sinAddr)
    (hlisting : RankedListing es rows) :
    RanksHosts localtime day.1 base.myNet (hosts base.nets) day.2 (es.map HostFlow.sinAddr) rows := by
  have hhost (e : HostFlow) (he : e ∈ es) :=
    (h.labelled_host hprefixed hempty (hes e he).1 (hes e he).2).2
  refine ⟨hlisting.length.trans (List.length_map _).symm,?_,?_,?_⟩
  · intro i a ha
    rw [List.getElem?_map] at ha
    obtain ⟨e,he,rfl⟩ := Option.map_eq_some_iff.mp ha
    obtain ⟨rank,hrank,hnumber⟩ := hlisting.row i e he
    exact ⟨rank,(hhost e (List.mem_of_getElem? he)).2 rank ▸ hrank,hnumber⟩
  · rw [List.nodup_iff_pairwise_ne,List.pairwise_map]
    exact hapart.imp_of_mem fun he he' hne => hne (hes _ he).2 (hes _ he').2
  · rw [Descending,List.pairwise_map]
    refine hlisting.descending.imp_of_mem fun he he' hle => ?_
    rw [← (hhost _ he).1,← (hhost _ he').1]
    exact hle

variable {qsort : List HostFlow → List HostFlow} {whitelist : Whitelist} {isShowAll : Bool}

/-- The answer of `GetByFlow`, where a stated host is under the quota. -/
theorem Globals.Reports.over (h : g.Reports localtime base day)
    (hsort : SortingQsort qsort) {overMB : U32} (hover : overMB > 0)
    (hunder : ∃ a ∈ hosts base.nets,
      (hostTotal localtime day.1 base.myNet (hosts base.nets) day.2 a).toNat <
        overMB.toNat * mBytes) :
    ∃ as rows, getByFlow qsort g whitelist overMB isShowAll =
        some ⟨retInfo .ok,some overMB,some rows⟩ ∧
      RanksHosts localtime day.1 base.myNet (hosts base.nets) day.2 as rows ∧
      ∀ a, a ∈ as ↔ a ∈ hosts base.nets ∧ hiddenBy whitelist isShowAll a = false ∧
        overMB.toNat * mBytes ≤
          (hostTotal localtime day.1 base.myNet (hosts base.nets) day.2 a).toNat := by
  have hpos : 0 < overMB.toNat := hover
  have hsizes := h.labelled.sizes.ipTable
  have hinside : (getByFlow qsort g whitelist overMB isShowAll).isSome := by
    obtain ⟨a,ha,hless⟩ := hunder
    obtain ⟨e,he,htotal,-⟩ := h.slot hprefixed hempty ha
    rw [getByFlow,if_neg (BitVec.not_le.mpr hover),Option.isSome_map,overRows_isSome_iff,
      sortTable_of_length hsizes]
    refine ⟨e,(hsort.perm _).mem_iff.mpr (List.mem_of_getElem? he),?_⟩
    rw [htotal]
    exact Nat.div_lt_of_lt_mul (Nat.mul_comm _ _ ▸ hless)
  obtain ⟨r,hr⟩ := Option.isSome_iff_exists.mp hinside
  obtain ⟨rows,es,rfl,hperm,hlisting⟩ := getByFlow_lists hsort hsizes hover hr
  have hmem (e : HostFlow) : e ∈ es ↔ e ∈ g.ipTable ∧
      hiddenBy whitelist isShowAll e.sinAddr = false ∧ overMB.toNat * mBytes ≤ e.sum.toNat := by
    rw [hperm.mem_iff,List.mem_filter,Bool.and_eq_true,Bool.not_eq_true',decide_eq_true_iff]
    exact Iff.rfl
  have hused (e : HostFlow) (hquota : overMB.toNat * mBytes ≤ e.sum.toNat) : e.sum ≠ 0 := by
    intro hzero
    rw [hzero,mBytes] at hquota
    simp at hquota
    omega
  have hapart := (h.labels_apart.filter fun e => !hiddenBy whitelist isShowAll e.sinAddr &&
    decide (overMB.toNat * 1000000 ≤ e.sum.toNat)).perm hperm.symm
      fun hne hsum hsum' => (hne hsum' hsum).symm
  refine ⟨es.map HostFlow.sinAddr,rows,hr,h.ranks hprefixed hempty
    (fun e he => ⟨((hmem e).mp he).1,hused e ((hmem e).mp he).2.2⟩) hapart hlisting,fun a => ?_⟩
  constructor
  · intro ha
    obtain ⟨e,he,rfl⟩ := List.mem_map.mp ha
    obtain ⟨htable,hvisible,hquota⟩ := (hmem e).mp he
    obtain ⟨hin,htotal,-⟩ := h.labelled_host hprefixed hempty htable (hused e hquota)
    exact ⟨hin,hvisible,htotal ▸ hquota⟩
  · rintro ⟨hin,hvisible,hquota⟩
    obtain ⟨e,he,htotal,-,hlabel⟩ := h.slot hprefixed hempty hin
    rw [← htotal] at hquota
    rcases hlabel with rfl | rfl
    · exact absurd rfl (hused _ hquota)
    · exact List.mem_map_of_mem ((hmem e).mpr ⟨List.mem_of_getElem? he,hvisible,hquota⟩)

private theorem Globals.Reports.shown_le (h : g.Reports localtime base day)
    (whitelist : Whitelist) (isShowAll : Bool) :
    { a ∈ hosts base.nets | hiddenBy whitelist isShowAll a = false }.ncard ≤
      (g.ipTable.filter fun e => !hiddenBy whitelist isShowAll e.sinAddr).length := by
  rw [length_filter_eq_card,← Set.ncard_coe_finset]
  apply Set.ncard_le_ncard_of_injOn (fun a => (getIPIdx base.myNet base.nets a).toNat)
  · rintro a ⟨ha,hvisible⟩
    obtain ⟨e,he,-,-,hlabel⟩ := h.slot hprefixed hempty ha
    have hlt := (List.getElem?_eq_some_iff.mp he).1
    have hentry : entryAt g.ipTable (getIPIdx base.myNet base.nets a).toNat = e := by
      rw [entryAt,List.getD_eq_getElem?_getD,he,Option.getD_some]
    refine Finset.mem_coe.mpr (Finset.mem_filter.mpr ⟨Finset.mem_range.mpr hlt,?_⟩)
    rw [hentry]
    rcases hlabel with rfl | rfl
    · rw [hiddenBy,whitelistScan]
      simp only [HostFlow.zero,whitelistScanFrom_zero,Bool.and_false,Bool.not_false]
    · rw [hvisible]
      rfl
  · rintro a ⟨ha,-⟩ b ⟨hb,-⟩ hsame
    have hbij := hprefixed.bijOn base.myNet
    have hpos := (hbij.mapsTo ha).1
    have hpos' := (hbij.mapsTo hb).1
    refine hbij.injOn ha hb ?_
    simp only at hsame
    omega

private theorem Globals.Reports.ranksTop (h : g.Reports localtime base day)
    {es omitted : List HostFlow} {rows : List HostRow} (hlisting : RankedListing es rows)
    (hperm : (es ++ omitted).Perm
      (g.ipTable.filter fun e => !hiddenBy whitelist isShowAll e.sinAddr))
    (homitted : ∀ e ∈ es, ∀ e' ∈ omitted, e'.sum.toNat ≤ e.sum.toNat) :
    ∃ as, RanksTop localtime day.1 base.myNet (hosts base.nets) day.2
      (fun a => hiddenBy whitelist isShowAll a = false) es.length as rows := by
  obtain ⟨busy,idle,rfl,hused,hidle⟩ := hlisting.used_first
  have hmem (e : HostFlow) : e ∈ (busy ++ idle) ++ omitted ↔
      e ∈ g.ipTable ∧ hiddenBy whitelist isShowAll e.sinAddr = false := by
    rw [hperm.mem_iff,List.mem_filter,Bool.not_eq_true']
  have hbusy : ∀ e ∈ busy, (e ∈ g.ipTable ∧ hiddenBy whitelist isShowAll e.sinAddr = false) ∧
      e.sinAddr ∈ hosts base.nets ∧
      e.sum = hostTotal localtime day.1 base.myNet (hosts base.nets) day.2 e.sinAddr := by
    intro e he
    have htable := (hmem e).mp (List.mem_append_left _ (List.mem_append_left _ he))
    obtain ⟨hin,htotal,-⟩ := h.labelled_host hprefixed hempty htable.1 (hused e he)
    exact ⟨htable,hin,htotal⟩
  have hapart := ((h.labels_apart.filter fun e => !hiddenBy whitelist isShowAll e.sinAddr).perm
    hperm.symm fun hne hsum hsum' => (hne hsum' hsum).symm).sublist
      ((List.sublist_append_left busy idle).trans (List.sublist_append_left _ omitted))
  refine ⟨busy.map HostFlow.sinAddr,hlisting.length,?_,?_,?_,?_⟩
  · rw [List.length_map]
    exact h.ranks hprefixed hempty (fun e he => ⟨(hbusy e he).1.1,hused e he⟩) hapart hlisting.front
  · rw [List.length_map]
    intro row hrow
    obtain ⟨e,he,rank,rfl⟩ := hlisting.behind hrow
    exact hidle e he
  · intro a ha
    obtain ⟨e,he,rfl⟩ := List.mem_map.mp ha
    obtain ⟨⟨-,hvisible⟩,hin,htotal⟩ := hbusy e he
    exact ⟨hin,hvisible,htotal ▸ hused e he⟩
  · intro a hin hvisible htraffic hnot
    obtain ⟨e,he,htotal,-,hlabel⟩ := h.slot hprefixed hempty hin
    rw [← htotal] at htraffic ⊢
    rcases hlabel with rfl | rfl
    · exact absurd rfl htraffic
    have homit : e ∈ omitted := by
      rcases List.mem_append.mp ((hmem e).mpr ⟨List.mem_of_getElem? he,hvisible⟩) with hes | homit
      · rcases List.mem_append.mp hes with hin | hin
        · exact absurd (List.mem_map_of_mem hin) hnot
        · exact absurd (hidle e hin) htraffic
      · exact homit
    have hnone : idle = [] := by
      refine List.eq_nil_iff_forall_not_mem.mpr fun e' he' => htraffic ?_
      have hle := homitted e' (List.mem_append_right _ he') e homit
      rw [hidle e' he'] at hle
      exact BitVec.eq_of_toNat_eq (Nat.le_zero.mp hle)
    refine ⟨by rw [hnone,List.append_nil,List.length_map],fun b hb => ?_⟩
    obtain ⟨e',he',rfl⟩ := List.mem_map.mp hb
    rw [← (hbusy e' he').2.2]
    exact homitted e' (List.mem_append_left _ he') e homit

/-- The answer of `GetByTopN`, where enough stated hosts are shown. -/
theorem Globals.Reports.top (h : g.Reports localtime base day)
    (hsort : SortingQsort qsort) {topN : U32} (hpos : topN > 0) (hlt : topN < base.sumIpCount)
    (henough : topN.toNat ≤
      { a ∈ hosts base.nets | hiddenBy whitelist isShowAll a = false }.ncard) :
    ∃ as rows, getByTopN qsort g whitelist topN isShowAll =
        some ⟨retInfo .ok,some topN,some rows⟩ ∧
      RanksTop localtime day.1 base.myNet (hosts base.nets) day.2
        (fun a => hiddenBy whitelist isShowAll a = false) topN.toNat as rows := by
  have hsizes := h.labelled.sizes.ipTable
  obtain ⟨-,-,-,hcount⟩ := h.networks
  rw [← hcount] at hlt
  have hinside : (getByTopN qsort g whitelist topN isShowAll).isSome := by
    have haccepted : ¬(topN ≤ 0 ∨ topN ≥ g.sumIpCount) :=
      not_or.mpr ⟨BitVec.not_le.mpr hpos,BitVec.not_le.mpr hlt⟩
    rw [getByTopN,if_neg haccepted,Option.isSome_map,
      topRows_isSome_iff (BitVec.le_def.mpr (Nat.zero_le _)),sortTable_of_length hsizes,
      ((hsort.perm g.ipTable).filter _).length_eq]
    exact henough.trans (h.shown_le hprefixed hempty whitelist isShowAll)
  obtain ⟨r,hr⟩ := Option.isSome_iff_exists.mp hinside
  obtain ⟨rows,es,omitted,rfl,hperm,hlength,homitted,hlisting⟩ :=
    getByTopN_lists hsort hsizes hpos hlt hr
  obtain ⟨as,has⟩ := h.ranksTop hprefixed hempty hlisting hperm homitted
  exact ⟨as,rows,hr,hlength ▸ has⟩

end Entries

section Commands

variable {qsort : List HostFlow → List HostFlow} {host : Surroundings} {g g' : Globals}
  {whitelist : Whitelist} {jsonRoot : Json} {cmd text : String} {isShowAll : Bool}
  {member : DateMember} {value : BitVec 64} {rows : List HostRow}

def overReply (cmd : String) (member : DateMember) (overMB : U32) (rows : List HostRow) : Reply :=
  ⟨true,⟨retInfo .ok,some cmd,some member,none,none,some overMB,none,some (.hosts rows)⟩⟩

def topReply (cmd : String) (member : DateMember) (topN : U32) (rows : List HostRow) : Reply :=
  ⟨true,⟨retInfo .ok,some cmd,some member,none,none,none,some topN,some (.hosts rows)⟩⟩

theorem Requests.showOverList (h : Requests host jsonRoot "showOverList" cmd text isShowAll)
    (hday : parseDate host g text = .ok (.globals g' member))
    (hvalue : jsonRoot.member? "overValue" = some (.integer value))
    (hanswer : getByFlow qsort g' whitelist (value.setWidth 32) isShowAll =
      some ⟨retInfo .ok,some (value.setWidth 32),some rows⟩) :
    Flowstatd.parseCmd qsort host g whitelist (some jsonRoot) =
      .ok (overReply cmd member (value.setWidth 32) rows) := by
  have hother : ¬sameIgnoringCase cmd "getFlow" = true :=
    fun hsame => absurd (sameIgnoringCase_trans h.name hsame) (by decide)
  have hint : jsonRoot.member? "overValue" >>= Json.integer? = some value := by simp [hvalue]
  rw [h.parseCmd hday,runCommand,if_neg hother,if_pos h.name]
  simp only [hint,hanswer]
  rfl

theorem Requests.showTopList (h : Requests host jsonRoot "showTopList" cmd text isShowAll)
    (hday : parseDate host g text = .ok (.globals g' member))
    (hvalue : jsonRoot.member? "limit" = some (.integer value))
    (hanswer : getByTopN qsort g' whitelist (value.setWidth 32) isShowAll =
      some ⟨retInfo .ok,some (value.setWidth 32),some rows⟩) :
    Flowstatd.parseCmd qsort host g whitelist (some jsonRoot) =
      .ok (topReply cmd member (value.setWidth 32) rows) := by
  have hother (name : String) (hname : sameIgnoringCase "showTopList" name = false) :
      ¬sameIgnoringCase cmd name = true :=
    fun hsame => absurd (sameIgnoringCase_trans h.name hsame) (by simp [hname])
  have hint : jsonRoot.member? "limit" >>= Json.integer? = some value := by simp [hvalue]
  rw [h.parseCmd hday,runCommand,if_neg (hother "getFlow" (by decide)),
    if_neg (hother "showOverList" (by decide)),if_pos h.name]
  simp only [hint,hanswer]
  rfl

end Commands

section Days

variable {localtime : Int → Tm} {config : ConfigHost} {jsonConfig : Json} {p : Nat}
  {host : Surroundings} {jsonRoot : Json} {cmd text : String} {isShowAll : Bool} {value : BitVec 64}
  {qsort : List Subnet → List Subnet} {localtm : Tm} {g : Globals} {t : Session} {days : List Day}
  {date : Int × Fin 12 × Nat} {flows : List Flow} {sortHosts : List HostFlow → List HostFlow}
  {savePrefix : List Char}

/-- A list of the hosts over a quota on any of the days shows exactly these hosts, where one of the
stated hosts is not over it. -/
theorem days_over_list (hqsort : Qsorts rcvNetListCmp qsort)
    (hentries : OnePrefixEntries (entriesRead config jsonConfig) p)
    (hmain : mainGlobals config qsort localtm (some jsonConfig) = some g)
    (hforward : HoursForward localtime) (h : CollectedDays zlibLength localtime g days t)
    (hday : (date,flows) ∈ dayFlows (fun _ _ => none) days) (hsort : SortingQsort sortHosts)
    (hfind : Findable savePrefix g days) (hreads : host.Reads savePrefix t)
    (hasks : Requests host jsonRoot "showOverList" cmd text isShowAll)
    (hvalue : jsonRoot.member? "overValue" = some (.integer value))
    (hnames : host.Names (localtime t.clock).date date text) (whitelist : Whitelist)
    (hover : 0 < value.setWidth 32)
    (hunder : ∃ a ∈ statedHosts (entriesRead config jsonConfig) p,
      (hostTotal localtime date (storedMyNet config jsonConfig)
        (statedHosts (entriesRead config jsonConfig) p) flows a).toNat <
          (value.setWidth 32).toNat * mBytes) :
    ∃ as rows, parseCmd sortHosts host t.daemon.globals whitelist (some jsonRoot) =
        .ok (overReply cmd (host.dateMember t.daemon.globals (localtime t.clock).date date)
          (value.setWidth 32) rows) ∧
      RanksHosts localtime date (storedMyNet config jsonConfig)
        (statedHosts (entriesRead config jsonConfig) p) flows as rows ∧
      ∀ a, a ∈ as ↔ a ∈ statedHosts (entriesRead config jsonConfig) p ∧
        hiddenBy whitelist isShowAll a = false ∧
        (value.setWidth 32).toNat * mBytes ≤
          (hostTotal localtime date (storedMyNet config jsonConfig)
            (statedHosts (entriesRead config jsonConfig) p) flows a).toNat := by
  obtain ⟨hprefixed,hhosts,hmyNet,hreset,htable⟩ := hentries.mainGlobals hqsort hmain
  obtain ⟨saved,g',hreports,hshows,hselected⟩ :=
    h.selected hforward (hentries.labelled hqsort hmain) hreset hday hfind hreads hnames
  rw [← hhosts,← hmyNet] at hunder ⊢
  obtain ⟨as,rows,hanswer,hlist⟩ := hreports.over hprefixed htable hsort hover hunder
  exact ⟨as,rows,hasks.showOverList hselected hvalue ((hshows.byFlow _ _ _ _).trans hanswer),hlist⟩

def overListRequest (value : BitVec 64) (text : String) : Json :=
  .object [("command",.string "showOverList"),("date",.string text),("overValue",.integer value)]

private theorem hostTotal_stranger {localtime : Int → Tm} {date : Int × Fin 12 × Nat}
    {myNet : Subnet} {inside : Set InAddr} {flows : List Flow} {a : InAddr}
    (h : ∀ f ∈ flows, f.srcAddr ≠ a ∧ f.dstAddr ≠ a) :
    hostTotal localtime date myNet inside flows a = 0 := by
  have hnone : flows.filter (fun f => decide (f.OnDay localtime date ∧
      (f.IsTrafficOf myNet inside a .upload ∨ f.IsTrafficOf myNet inside a .download))) = [] := by
    refine List.filter_eq_nil_iff.mpr fun f hf htraffic => ?_
    obtain ⟨-,hup | hdown⟩ := of_decide_eq_true htraffic
    · exact (h f hf).1 hup.1
    · exact (h f hf).2 hdown.1
  rw [hostTotal,bytesOf,hnone]
  rfl

private theorem juneEighteenth_stranger {a : InAddr} (ha : a ≠ inetAddr "140.123.211.1")
    (hstated : a ∈ statedHosts (entriesRead plainHost (shippedConfig shippedNetworks)) 24) :
    hostTotal juneClock (112,5,18) (storedMyNet plainHost (shippedConfig shippedNetworks))
      (statedHosts (entriesRead plainHost (shippedConfig shippedNetworks)) 24)
      (exportedFlows (fun _ _ => none) juneEighteenth) a = 0 := by
  apply hostTotal_stranger
  intro f hf
  obtain ⟨hsrc,hdst,-⟩ := juneEighteenth_flows f hf
  rw [hsrc,hdst]
  exact ⟨ha.symm,fun heq => shippedConfig_outside.1 (heq ▸ hstated)⟩

/-- The shipped configuration, and on the 19th a question about a quota of a megabyte on the
18th. -/
theorem days_over_list_shipped :
    ∃ qsort g t host, Qsorts rcvNetListCmp qsort ∧
      mainGlobals plainHost qsort ⟨112,5,18,6⟩ (some (shippedConfig shippedNetworks)) = some g ∧
      CollectedDays zlibLength juneClock g juneDays t ∧
      host = juneHost "/data/flowstatd/data".toList t ∧
      ∃ as rows, parseCmd insertionQsort host t.daemon.globals (fun _ => 0)
            (some (overListRequest 1 "2012-06-18")) =
          .ok (overReply "showOverList"
            (host.dateMember t.daemon.globals (112,5,19) (112,5,18)) 1 rows) ∧
        RanksHosts juneClock (112,5,18) (storedMyNet plainHost (shippedConfig shippedNetworks))
          (statedHosts (entriesRead plainHost (shippedConfig shippedNetworks)) 24)
          (exportedFlows (fun _ _ => none) juneEighteenth) as rows ∧
        inetAddr "140.123.211.1" ∈ as ∧ inetAddr "140.123.211.2" ∉ as := by
  obtain ⟨qsort,hqsort⟩ := exists_qsorts rcvNetListCmp
  obtain ⟨g,hmain⟩ := exists_shippedGlobals qsort ⟨112,5,18,6⟩
  obtain ⟨t,ht,htoday,hfind⟩ := juneDays_collected hmain
  have hasks : Requests (juneHost "/data/flowstatd/data".toList t)
      (overListRequest 1 "2012-06-18") "showOverList" "showOverList" "2012-06-18" false :=
    ⟨rfl,by decide,rfl,rfl⟩
  have hvalue : (overListRequest 1 "2012-06-18").member? "overValue" = some (.integer 1) := rfl
  have hunder := juneEighteenth_stranger (by decide +kernel) shippedConfig_states_second
  obtain ⟨as,rows,hreply,hranks,hlist⟩ := days_over_list hqsort shippedConfig_onePrefix hmain
    juneClock_forward ht juneEighteenth_day stableQsort_insertionQsort.sorting hfind (fun _ => rfl)
    hasks hvalue (juneHost_names htoday) (fun _ => 0) (by decide)
    ⟨_,shippedConfig_states_second,by rw [hunder]; decide⟩
  refine ⟨qsort,g,t,_,hqsort,hmain,ht,rfl,as,rows,htoday ▸ hreply,hranks,?_,fun hlisted => ?_⟩
  · exact (hlist _).mpr ⟨shippedConfig_states,by decide +kernel,
      by rw [juneEighteenth_hostTotal]; decide⟩
  · have hquota := ((hlist _).mp hlisted).2.2
    rw [hunder] at hquota
    exact absurd hquota (by decide)

/-- A list of the hosts with the most traffic on any of the days. -/
theorem days_top_list (hqsort : Qsorts rcvNetListCmp qsort)
    (hentries : OnePrefixEntries (entriesRead config jsonConfig) p)
    (hmain : mainGlobals config qsort localtm (some jsonConfig) = some g)
    (hforward : HoursForward localtime) (h : CollectedDays zlibLength localtime g days t)
    (hday : (date,flows) ∈ dayFlows (fun _ _ => none) days) (hsort : SortingQsort sortHosts)
    (hfind : Findable savePrefix g days) (hreads : host.Reads savePrefix t)
    (hasks : Requests host jsonRoot "showTopList" cmd text isShowAll)
    (hvalue : jsonRoot.member? "limit" = some (.integer value))
    (hnames : host.Names (localtime t.clock).date date text) (whitelist : Whitelist)
    (hpos : 0 < value.setWidth 32)
    (hfew : (value.setWidth 32).toNat < (statedHosts (entriesRead config jsonConfig) p).ncard)
    (hshown : (value.setWidth 32).toNat ≤
      { a ∈ statedHosts (entriesRead config jsonConfig) p |
        hiddenBy whitelist isShowAll a = false }.ncard) :
    ∃ as rows, parseCmd sortHosts host t.daemon.globals whitelist (some jsonRoot) =
        .ok (topReply cmd (host.dateMember t.daemon.globals (localtime t.clock).date date)
          (value.setWidth 32) rows) ∧
      RanksTop localtime date (storedMyNet config jsonConfig)
        (statedHosts (entriesRead config jsonConfig) p) flows
        (fun a => hiddenBy whitelist isShowAll a = false) (value.setWidth 32).toNat as rows := by
  obtain ⟨hprefixed,hhosts,hmyNet,hreset,htable⟩ := hentries.mainGlobals hqsort hmain
  have hlabelled := hentries.labelled hqsort hmain
  obtain ⟨saved,g',hreports,hshows,hselected⟩ :=
    h.selected hforward hlabelled hreset hday hfind hreads hnames
  rw [← hhosts] at hfew hshown
  rw [← hhosts,← hmyNet]
  have hlt : value.setWidth 32 < g.sumIpCount := by
    have hlength := congrArg List.length htable
    rw [List.length_replicate,hlabelled.sizes.ipTable] at hlength
    rw [hprefixed.ncard_hosts g.myNet,← hlength] at hfew
    exact hfew
  obtain ⟨as,rows,hanswer,hlist⟩ := hreports.top hprefixed htable hsort hpos hlt hshown
  exact ⟨as,rows,hasks.showTopList hselected hvalue ((hshows.byTopN _ _ _ _).trans hanswer),hlist⟩

/-- The shipped configuration, and on the 19th a question about the busiest host of the 18th. -/
theorem days_top_list_shipped :
    ∃ qsort g t host, Qsorts rcvNetListCmp qsort ∧
      mainGlobals plainHost qsort ⟨112,5,18,6⟩ (some (shippedConfig shippedNetworks)) = some g ∧
      CollectedDays zlibLength juneClock g juneDays t ∧
      host = juneHost "/data/flowstatd/data".toList t ∧
      ∃ as rows, parseCmd insertionQsort host t.daemon.globals (fun _ => 0)
            (some (topRequest "2012-06-18")) =
          .ok (topReply "showTopList"
            (host.dateMember t.daemon.globals (112,5,19) (112,5,18)) 1 rows) ∧
        RanksTop juneClock (112,5,18) (storedMyNet plainHost (shippedConfig shippedNetworks))
          (statedHosts (entriesRead plainHost (shippedConfig shippedNetworks)) 24)
          (exportedFlows (fun _ _ => none) juneEighteenth)
          (fun a => hiddenBy (fun _ => 0) false a = false) 1 as rows ∧
        inetAddr "140.123.211.1" ∈ as := by
  obtain ⟨qsort,hqsort⟩ := exists_qsorts rcvNetListCmp
  obtain ⟨g,hmain⟩ := exists_shippedGlobals qsort ⟨112,5,18,6⟩
  obtain ⟨t,ht,htoday,hfind⟩ := juneDays_collected hmain
  have hasks : Requests (juneHost "/data/flowstatd/data".toList t) (topRequest "2012-06-18")
      "showTopList" "showTopList" "2012-06-18" false := ⟨rfl,by decide,rfl,rfl⟩
  have hlimit : (topRequest "2012-06-18").member? "limit" = some (.integer 1) := rfl
  have hfinite : Finite InAddr :=
    Finite.of_injective BitVec.toFin fun _ _ heq => BitVec.eq_of_toFin_eq heq
  have hfew : 1 < (statedHosts (entriesRead plainHost (shippedConfig shippedNetworks)) 24).ncard :=
    (Set.one_lt_ncard_iff (Set.toFinite _)).mpr
      ⟨_,_,shippedConfig_states,shippedConfig_states_second,by decide +kernel⟩
  have hshown : 1 ≤ { a ∈ statedHosts (entriesRead plainHost (shippedConfig shippedNetworks)) 24 |
      hiddenBy (fun _ => 0) false a = false }.ncard :=
    (Set.ncard_pos (Set.toFinite _)).mpr ⟨_,shippedConfig_states,by decide +kernel⟩
  obtain ⟨as,rows,hreply,hranks⟩ := days_top_list hqsort shippedConfig_onePrefix hmain
    juneClock_forward ht juneEighteenth_day stableQsort_insertionQsort.sorting hfind (fun _ => rfl)
    hasks hlimit (juneHost_names htoday) (fun _ => 0) (by decide) hfew hshown
  refine ⟨qsort,g,t,_,hqsort,hmain,ht,rfl,as,rows,htoday ▸ hreply,hranks,?_⟩
  -- with another host in its place the list would have one without traffic
  by_contra hnot
  have htraffic := juneEighteenth_hostTotal
  obtain ⟨hlength,-⟩ := hranks.others _ shippedConfig_states (by decide +kernel)
    (by rw [htraffic]; decide) hnot
  obtain ⟨b,rfl⟩ := List.length_eq_one_iff.mp hlength
  obtain ⟨hstated,-,hbusy⟩ := hranks.hosts b List.mem_cons_self
  have hother : b ≠ inetAddr "140.123.211.1" := fun heq => hnot (heq ▸ List.mem_cons_self)
  exact hbusy (juneEighteenth_stranger hother hstated)

end Days

end Flowstatd
