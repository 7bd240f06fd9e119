import Flowstatd.Daemon.Labels
import Flowstatd.Query.Confidential

/-!
# Requests for a past date

The child that serves such a request imports the file of the day over its copy of today's globals.
The import sets `sumIpCount` only where it makes the table longer.
-/

namespace Flowstatd

open Framework

/-- The values that the queries read. -/
structure QueriedValues where
  nSubnet : U32
  nets : List Subnet
  sumIpCount : U32
  entries : List HostFlow
deriving DecidableEq

def Globals.queried (g : Globals) : QueriedValues :=
  ⟨g.nSubnet,g.nets,g.sumIpCount,g.ipTable.take g.sumIpCount.toNat⟩

/-- The queries see the saved state `s` when they look at `g`. -/
structure ShowsSaved (s g : Globals) : Prop where
  values : g.queried = s.queried
  byIP : ∀ whitelist ipaddr isShowAll,
    getByIP g whitelist ipaddr isShowAll = getByIP s whitelist ipaddr isShowAll
  byFlow : ∀ qsort whitelist overMB isShowAll,
    getByFlow qsort g whitelist overMB isShowAll = getByFlow qsort s whitelist overMB isShowAll
  byTopN : ∀ qsort whitelist topN isShowAll,
    getByTopN qsort g whitelist topN isShowAll = getByTopN qsort s whitelist topN isShowAll

theorem ShowsSaved.refl (g : Globals) : ShowsSaved g g :=
  ⟨rfl,fun _ _ _ => rfl,fun _ _ _ _ => rfl,fun _ _ _ _ => rfl⟩

theorem showsSaved_of_queried {s g : Globals} (hg : g.WellSized) (hs : s.WellSized)
    (h : g.queried = s.queried) : ShowsSaved s g := by
  obtain ⟨hsub,hnets,hcount,hentries⟩ := QueriedValues.mk.inj h
  have htable : g.ipTable = s.ipTable := by
    rwa [List.take_of_length_le hg.ipTable.le,List.take_of_length_le hs.ipTable.le] at hentries
  have hsorted (qsort : List HostFlow → List HostFlow) : sortTable qsort g = sortTable qsort s := by
    rw [sortTable_eq hg,sortTable_eq hs,htable]
  refine ⟨h,?_,?_,?_⟩
  · intro whitelist ipaddr isShowAll
    rw [getByIP,getByIP,hnets,htable]
    by_cases hidx : 0 ≤ getIPIdx g.myNet s.nets (inetAddr ipaddr)
    · have hidx' : getIPIdx s.myNet s.nets (inetAddr ipaddr) =
          getIPIdx g.myNet s.nets (inetAddr ipaddr) := getIPIdx_myNet hidx
      simp only [hidx']
    · have hidx' : ¬0 ≤ getIPIdx s.myNet s.nets (inetAddr ipaddr) :=
        fun hpos => hidx (getIPIdx_myNet hpos ▸ hpos)
      simp only [hidx,hidx',ite_false]
  · intro qsort whitelist overMB isShowAll
    rw [getByFlow,getByFlow,hsorted]
  · intro qsort whitelist topN isShowAll
    rw [getByTopN,getByTopN,hsorted,hcount]

theorem importRecordBy_showsSaved {gz : Nat → Nat} {live s : Globals} (hlive : live.WellSized)
    (hs : s.WellSized) (hgz : MovesUpTo gz (hostflowSize * s.sumIpCount.toNat)) (heap : Nat → Byte)
    (tmpVal : U32) (hle : live.sumIpCount ≤ s.sumIpCount) :
    ∃ g, importRecordBy gz heap tmpVal live (exportRecordBy gz s) = some g ∧ ShowsSaved s g := by
  have hle : live.sumIpCount.toNat ≤ s.sumIpCount.toNat := BitVec.le_def.mp hle
  have himport := importRecordBy_whole heap tmpVal hlive hs (Nat.max_eq_left hle ▸ hgz)
  refine ⟨_,himport,showsSaved_of_queried (hlive.imported hs himport) hs ?_⟩
  have hnets := hlive.imported_nets hs himport
  have hcount : (if s.sumIpCount.toNat > live.sumIpCount.toNat then s.sumIpCount
      else live.sumIpCount) = s.sumIpCount := by
    split_ifs with hlonger
    · rfl
    · exact BitVec.eq_of_toNat_eq (by omega)
  have htail : live.ipTable.drop s.sumIpCount.toNat = [] :=
    List.drop_of_length_le (hlive.ipTable ▸ hle)
  simp only [Globals.queried,hcount,htail,List.append_nil] at hnets ⊢
  rw [hnets]

/-- The import shows the saved state exactly when the live table is not longer than the saved
one. -/
theorem import_showsSaved_iff {live s : Globals} (hlive : live.WellSized) (hs : s.WellSized)
    (heap : Nat → Byte) (tmpVal : U32) :
    ∃ g, importRecord heap tmpVal live (exportRecord s) = some g ∧
      (ShowsSaved s g ↔ live.sumIpCount ≤ s.sumIpCount) := by
  have himport := importRecord_exportRecord heap tmpVal hlive hs
  refine ⟨_,himport,?_⟩
  constructor
  · intro h
    have hcount := congrArg QueriedValues.sumIpCount h.values
    simp only [Globals.queried] at hcount
    rw [BitVec.le_def]
    split_ifs at hcount with hlonger
    · exact Nat.le_of_lt hlonger
    · exact hcount ▸ le_rfl
  · intro hle
    obtain ⟨g,himport',hshows⟩ :=
      importRecordBy_showsSaved hlive hs (gzAll_movesUpTo _) heap tmpVal hle
    exact Option.some.inj (himport'.symm.trans himport) ▸ hshows

/-- A table of four entries takes the file of a larger one, with 1000 bytes in it. -/
theorem import_showsSaved_twoSubnet :
    ∃ g, importRecord (fun _ => 0) 0 oneSubnetMachine.globals (exportRecord twoSubnetGlobals) =
        some g ∧
      ShowsSaved twoSubnetGlobals g ∧ ∃ e ∈ g.ipTable, e.nflow .upload = 1000 := by
  obtain ⟨g,himport,hiff⟩ :=
    import_showsSaved_iff oneSubnet_booted.wellSized twoSubnetGlobals_wellSized (fun _ => 0) 0
  have hshows := hiff.mpr (by decide)
  have hbooked : ∃ e ∈ twoSubnetGlobals.queried.entries, e.nflow .upload = 1000 := by decide
  rw [← hshows.values] at hbooked
  obtain ⟨e,he,hbytes⟩ := hbooked
  exact ⟨g,himport,hshows,e,List.mem_of_mem_take he,hbytes⟩

/-- The file of a day on which nothing was counted, imported into that daemon: the top list of the
day shows today's bytes. -/
theorem todays_row_in_past_list :
    ∃ g, importRecord (fun _ => 0) 0 twoSubnetGlobals (exportRecord oneSubnetMachine.globals) =
        some g ∧
      getByTopN insertionQsort g (fun _ => 0) 1 true =
        some ⟨retInfo .ok,some 1,some [⟨1,"10.0.1.1",1000,0,1000⟩]⟩ ∧
      ¬ShowsSaved oneSubnetMachine.globals g := by
  have himport := importRecord_exportRecord (fun _ => 0) 0 twoSubnetGlobals_wellSized
    oneSubnet_booted.wellSized
  refine ⟨_,himport,by decide +kernel,fun h => ?_⟩
  have hcount := congrArg QueriedValues.sumIpCount h.values
  exact absurd hcount (by decide +kernel)

end Flowstatd
