import Flowstatd.Daemon.Invariants
import Flowstatd.Netflow.Announced

/-!
# Tables that the gz library moves in part

`ExportRecord` and `ImportRecord` pass the size of the table to calls with 32-bit lengths and do not
look at the result, so a table of 2^31 bytes or more comes back in part. The counters of an entry
agree as long as no entry is cut.
-/

namespace Flowstatd

open Framework

section Moved

variable {g s g' : Globals}

theorem zlibLength_le (n : Nat) : zlibLength n ≤ n := by
  rw [zlibLength]
  split_ifs
  · exact Nat.mod_le _ _
  · exact Nat.zero_le _

/-- An import with the 32-bit lengths of the gz library. -/
def ImportsMoved (g s g' : Globals) : Prop :=
  ∃ heap tmpVal, importRecordBy zlibLength heap tmpVal g (exportRecordBy zlibLength s) = some g'

/-- No entry comes back in part, and those that `realloc` has added come back at all. -/
structure WholeEntries (g s : Globals) : Prop where
  entries : hostflowSize ∣ movedBytes zlibLength g s
  added : s.sumIpCount.toNat ≤ g.sumIpCount.toNat ∨
    movedBytes zlibLength g s = hostflowSize * s.sumIpCount.toNat

/-- Without a cut the saved entries come back from the front, as far as they come. -/
theorem table_moved (heap : Nat → Byte) (hg : g.WellSized) (hs : s.WellSized)
    (h : WholeEntries g s) :
    decodeMany hostflowSize HostFlow.decode (max s.sumIpCount.toNat g.sumIpCount.toNat)
        (overlay (tableRoom heap g s) (s.tableBytes.take (movedBytes zlibLength g s))) =
      s.ipTable.take (movedBytes zlibLength g s / hostflowSize) ++
        g.ipTable.drop (movedBytes zlibLength g s / hostflowSize) := by
  obtain ⟨k,hk⟩ := h.entries
  have hle : hostflowSize * k ≤ hostflowSize * s.sumIpCount.toNat :=
    hk ▸ (Nat.min_le_right _ _).trans (zlibLength_le _)
  have hcount : k ≤ s.sumIpCount.toNat := Nat.le_of_mul_le_mul_left hle (by decide)
  have hgrown : s.sumIpCount.toNat ≤ g.sumIpCount.toNat ∨ k = s.sumIpCount.toNat :=
    h.added.imp_right fun hall => Nat.eq_of_mul_eq_mul_left (by decide) (hk.symm.trans hall)
  have htaken : (s.ipTable.take k).length = k := by
    rw [List.length_take,hs.ipTable]
    omega
  have htable := table_restored g.ipTable (s.ipTable.take k) heap
  rw [htaken,hg.ipTable] at htable
  have hmax : max s.sumIpCount.toNat g.sumIpCount.toNat = max k g.sumIpCount.toNat := by omega
  have hroom : s.sumIpCount.toNat - g.sumIpCount.toNat = k - g.sumIpCount.toNat := by omega
  rw [hk,Nat.mul_div_cancel_left k (by decide),hs.tableBytes_eq,
    flatMap_take HostFlow.encode_length,tableRoom,hmax,hroom,htable]

private theorem moved_balanced (hg : g.Balanced) (hs : s.Balanced) (h : ImportsMoved g s g')
    (hwhole : WholeEntries g s) : g'.Balanced := by
  obtain ⟨heap,tmpVal,himport⟩ := h
  refine ⟨hg.sizes.imported hs.sizes himport,?_⟩
  rw [importRecordBy_exportRecordBy zlibLength heap tmpVal hg.sizes hs.sizes,Option.some.injEq,
    table_moved heap hg.sizes hs.sizes hwhole] at himport
  subst himport
  intro e he
  rcases List.mem_append.mp he with he | he
  · exact hs.entries e (List.mem_of_mem_take he)
  · exact hg.entries e (List.mem_of_mem_drop he)

/-- In every run whose imports cut no entry, the hourly counters of an entry add up to its totals,
and these to its sum. -/
theorem table_balanced {localtime : Int → Tm} {d : Daemon}
    (h : ReachableBy (fun g s g' => ImportsMoved g s g' ∧ WholeEntries g s) (fun _ => True)
      localtime d) : ∀ e ∈ d.globals.ipTable, e.Balanced :=
  (keptByDaemon_balanced.toBookings.reachableBy (fun _ _ _ hg => hg.balanced)
    (fun _ _ _ _ _ hg hs himports => moved_balanced hg hs himports.1 himports.2) h).entries

end Moved

section Runs

/-- A version 5 datagram is handled in one go. -/
theorem handleDatagram_v5 (localtime : Int → Tm) (now : Int) (stack : Nat → U32)
    (x : NfV5Datagram) (sourceIp : InAddr) (d : Daemon) :
    ∃ d', Ends (handleDatagram localtime now stack (x.packet fun _ => 0) sourceIp) d d' ∧
      d'.globals = insertFlows localtime (arrivalGlobals localtime now d) x.passedOn ∧
      d'.preHour = (localtime now).tmHour := by
  have hheld : Announced.Held (fun _ _ => none) ∅ (arrival localtime now stack d).templateTable :=
    Announced.held_none _
  have hfrom : ∀ e, (FlowExport.v5 x).sentBy e sourceIp ≠ none → e ∈ (∅ : Set Exporter) :=
    fun e h => absurd rfl h
  obtain ⟨m,⟨n,hends⟩,hglobals,-⟩ := FlowExport.handled (x := .v5 x) localtime x.encode_fits
    (fun _ => 0) hheld (Set.injOn_empty _) hfrom trivial
  refine ⟨⟨m,(localtime now).tmHour⟩,⟨n,?_⟩,hglobals,rfl⟩
  exact congrArg (Outcome.map fun m => Daemon.mk m (localtime now).tmHour) hends

theorem booted_unsorted (localtm : Tm) (myNet : Subnet) {networks : List StatedEntry}
    (h : networks.length ≤ maxSubnet) :
    Booted networks (resetTable (loadConfig localtm myNet networks)) := by
  refine ⟨h,localtm,myNet,_,.refl _,?_⟩
  rw [Globals.nets,List.take_append_drop]

/-- A datagram without records. -/
def emptyV5 : NfV5Datagram :=
  ⟨⟨1000,1339978400,0,0,0,0,0⟩,[],by simp [bufSize,nfV5HeaderSize]⟩

/-- 1000 bytes from 10.0.0.1 to 8.8.8.8, on 18 June 2012 at 06:13. -/
def morningV5 : NfV5Datagram := .twice 1340000000 0x0100000a 0x08080808 1000

theorem table_balanced_imported :
    ∃ d, ReachableBy (fun g s g' => ImportsMoved g s g' ∧ WholeEntries g s) (fun _ => True) utc d ∧
      ∃ e ∈ d.globals.ipTable, e.nflow .upload = 1000 ∧ e.Balanced := by
  have hstart : ReachableBy (fun g s g' => ImportsMoved g s g' ∧ WholeEntries g s) (fun _ => True)
      utc (startup utc 1340000000 (fun _ => 0) oneSubnetMachine.globals) :=
    .start 1340000000 (fun _ => 0) trivial oneSubnet_booted
  obtain ⟨d,hend,hglobals,-⟩ := handleDatagram_v5 utc 1340000100 (fun _ => 0) morningV5 0x08080808
    (startup utc 1340000000 (fun _ => 0) oneSubnetMachine.globals)
  have hsizes : d.globals.WellSized :=
    hglobals ▸ ⟨by decide +kernel,by decide +kernel,by decide +kernel⟩
  have hwhole : WholeEntries oneSubnetMachine.globals d.globals :=
    hglobals ▸ ⟨by decide +kernel,by decide +kernel⟩
  have himport :=
    importRecordBy_exportRecordBy zlibLength (fun _ => 0) 0 oneSubnet_booted.wellSized hsizes
  have hsaved := hstart.datagram _ _ _ _ hend
  have hagain := hsaved.restart 1340000200 (fun _ => 0) trivial oneSubnet_booted
    ⟨⟨fun _ => 0,0,himport⟩,hwhole⟩
  obtain ⟨e,hmem,hbytes⟩ : ∃ e ∈ d.globals.ipTable.take
      (movedBytes zlibLength oneSubnetMachine.globals d.globals / hostflowSize),
      e.nflow .upload = 1000 :=
    hglobals ▸ by decide +kernel
  have hrestored := List.mem_append_left (oneSubnetMachine.globals.ipTable.drop
    (movedBytes zlibLength oneSubnetMachine.globals d.globals / hostflowSize)) hmem
  rw [← table_moved (fun _ => 0) oneSubnet_booted.wellSized hsizes hwhole] at hrestored
  exact ⟨_,hagain,e,hrestored,hbytes,table_balanced hagain e hrestored⟩

/-- 1000 bytes from 10.118.98.39 to 8.8.8.8, on 18 June 2012 at 00:13. -/
def nightV5 : NfV5Datagram := .twice 1339978400 0x2762760a 0x08080808 1000

/-- 10.0.0.0/8 and 11.0.0.0/8, in the first network. -/
def twoEights : Globals :=
  resetTable (loadConfig juneMorning (statedNetwork 0x0000000a 8) [⟨0x0000000a,8⟩,⟨0x0000000b,8⟩])

private theorem twoEights_booted : Booted [⟨0x0000000a,8⟩,⟨0x0000000b,8⟩] twoEights :=
  booted_unsorted _ _ (by decide)

private theorem twoEights_length : twoEights.ipTable.length = 33554432 := by
  rw [twoEights_booted.wellSized.ipTable]
  decide +kernel

/-- The entry of 10.118.98.39 after that datagram. -/
def nightEntry : HostFlow :=
  HostFlow.zero.book 0x2762760a (utc 1339978400).tmHour .upload 1000

private theorem nightEntry_cut :
    ¬(HostFlow.decode (overlay HostFlow.zero.encode (nightEntry.encode.take 64))).Balanced := by
  intro h
  exact absurd (h.nflow .upload) (by decide +kernel)

/-- The flow that the daemon takes from it. -/
private def nightFlow : Flow := ⟨0x2762760a,0x08080808,1000,⟨1000,1339978400,0,1000⟩⟩

private theorem twoEights_booked :
    (insertFlow utc { twoEights with localtm := utc 1339978500 } nightFlow).ipTable[2581110]? =
      some nightEntry := by
  have hlt : 2581110 < twoEights.ipTable.length := by
    rw [twoEights_length]
    decide
  have hlt' : 2581110 <
      (insertFlow utc { twoEights with localtm := utc 1339978500 } nightFlow).ipTable.length := by
    rw [insertFlow_length]
    exact hlt
  have hold : entryAt twoEights.ipTable 2581110 = HostFlow.zero := by
    rw [twoEights_booted.ipTable,entryAt_replicate_zero]
  have hcounts : nightFlow.CountsFor { twoEights with localtm := utc 1339978500 } 2581110 .upload := by
    decide +kernel
  have hday : nightFlow.PassesDay utc { twoEights with localtm := utc 1339978500 } := by
    decide +kernel
  have hhour : (convertNfTime utc nightFlow.info).tmHour = (utc 1339978400).tmHour := by
    decide +kernel
  have hentry : entryAt
      (insertFlow utc { twoEights with localtm := utc 1339978500 } nightFlow).ipTable 2581110 =
        nightEntry := by
    rcases insertFlow_entry (g := { twoEights with localtm := utc 1339978500 }) utc nightFlow hlt
      with ⟨d,-,hd,heq⟩ | ⟨hnone,-⟩
    · obtain rfl := (hd.unique hcounts).2
      rw [heq,hold,hhour]
      rfl
    · exact absurd ⟨hday,hcounts⟩ (hnone .upload)
  rw [← hentry,entryAt,List.getD_eq_getElem _ _ hlt',List.getElem?_eq_getElem]

/-- With two networks of prefix length 8 the table has 13 · 2^30 bytes, of which a file has the first
2^30. They end in the fourth hour of 10.118.98.39, whose totals do not come back. -/
theorem cut_entry_unbalanced :
    ∃ d, ReachableBy ImportsMoved (fun _ => True) utc d ∧ ∃ e ∈ d.globals.ipTable, ¬e.Balanced := by
  have hstart : ReachableBy ImportsMoved (fun _ => True) utc
      (startup utc 1339978400 (fun _ => 0) twoEights) :=
    .start 1339978400 (fun _ => 0) trivial twoEights_booted
  obtain ⟨d,hend,hglobals,-⟩ := handleDatagram_v5 utc 1339978500 (fun _ => 0) nightV5 0x08080808
    (startup utc 1339978400 (fun _ => 0) twoEights)
  have hbooked : d.globals =
      insertFlow utc { twoEights with localtm := utc 1339978500 } nightFlow := by
    rw [hglobals,arrivalGlobals,if_neg (by decide +kernel)]
    rfl
  have hsaved := hstart.datagram _ _ _ _ hend
  have hsizes : d.globals.WellSized := by
    refine keptByDaemon_wellSized.toBookings.reachableBy (fun _ _ _ hg => hg.wellSized) ?_ hsaved
    intro _ _ _ _ _ hbooted hpast hmoved
    obtain ⟨_,_,himport⟩ := hmoved
    exact hbooted.imported hpast himport
  have hcount : d.globals.sumIpCount = twoEights.sumIpCount := by
    rw [hbooked,insertFlow_eq]
  obtain ⟨g',hg'⟩ : ∃ g', importRecordBy zlibLength (fun _ => 0) 0 twoEights
      (exportRecordBy zlibLength d.globals) = some g' :=
    ⟨_,importRecordBy_exportRecordBy zlibLength (fun _ => 0) 0 twoEights_booted.wellSized hsizes⟩
  have hagain := hsaved.restart 1339978600 (fun _ => 0) trivial twoEights_booted ⟨fun _ => 0,0,hg'⟩
  have hentry : g'.ipTable[2581110]? =
      some (HostFlow.decode (overlay HostFlow.zero.encode (nightEntry.encode.take 64))) := by
    have hzero : twoEights.ipTable[2581110]? = some HostFlow.zero := by
      rw [twoEights_booted.ipTable,List.getElem?_replicate,if_pos (by decide +kernel)]
    have hnight : d.globals.ipTable[2581110]? = some nightEntry := hbooked ▸ twoEights_booked
    have hmoved : movedBytes zlibLength twoEights d.globals = hostflowSize * 2581110 + 64 := by
      rw [movedBytes,hcount]
      decide +kernel
    have hroom : tableRoom (fun _ => 0) twoEights d.globals =
        twoEights.ipTable.flatMap HostFlow.encode := by
      rw [tableRoom,hcount,Nat.sub_self]
      exact List.append_nil _
    rw [importRecordBy_exportRecordBy zlibLength (fun _ => 0) 0 twoEights_booted.wellSized hsizes,
      Option.some.injEq] at hg'
    rw [← hg',decodeMany_getElem? (by rw [hcount]; decide +kernel),hroom,hsizes.tableBytes_eq,hmoved,
      overlay_cut HostFlow.encode_length hzero hnight (by decide)]
  obtain ⟨d',hend',hglobals',-⟩ := handleDatagram_v5 utc 1339978700 (fun _ => 0) emptyV5 0x08080808
    (startup utc 1339978600 (fun _ => 0) g')
  refine ⟨d',hagain.datagram _ _ _ _ hend',_,?_,nightEntry_cut⟩
  have htable : d'.globals.ipTable = g'.ipTable := by
    have hhour : ¬(utc 1339978600).tmHour.val = 23 := by decide +kernel
    rw [hglobals',arrivalGlobals,if_neg fun hroll => hhour hroll.1]
    rfl
  exact htable ▸ List.mem_of_getElem? hentry

end Runs

end Flowstatd
