import Flowstatd.Daemon.Days
import Flowstatd.Daemon.Handling

/-!
# Restarts

A day of version 5 datagrams, with and without a restart in between. What the daemon has when it
is started again is what it had when it was terminated, and from there on both runs do the same.
-/

namespace Flowstatd

open Framework

/-- A version 5 datagram, and when it comes. -/
structure Delivery where
  now : Int
  sourceIp : InAddr
  body : List Byte
  fits : (beBytes 2 5 ++ body).length ≤ bufSize

def Delivery.datagram (a : Delivery) : Datagram := ⟨a.now,a.sourceIp,beBytes 2 5 ++ a.body,a.fits⟩

/-- `main` is started with the globals that `LoadConfig` and `qsort` give, finds the files of an
earlier session and imports the one of the day. -/
inductive Starts (localtime : Int → Tm) (g : Globals) (now : Int) : Session → Session → Prop
  | intro {s : Session} {g' : Globals} {ledger : List LedgerLine} (stack : Nat → U32) :
    s.Imports gzAll (localtime now).date g g' ledger →
      Starts localtime g now s ⟨startup localtime now stack g',now,ledger,s.files,true⟩

/-- The session handles the first `k` datagrams, is terminated, started again with the same
configuration on the day `date`, and handles the others. -/
inductive Interrupted (localtime : Int → Tm) (g : Globals) (date : Int × Fin 12 × Nat)
    (as : List Delivery) (k : Nat) : Session → Session → Prop
  | intro {s before stopped restarted t : Session} {stop now : Int} :
    Handles gzAll localtime s ((as.take k).map Delivery.datagram) before →
    Step gzAll localtime before (.terminate stop) stopped →
    (localtime now).date = date → Starts localtime g now stopped restarted →
    Handles gzAll localtime restarted ((as.drop k).map Delivery.datagram) t →
      Interrupted localtime g date as k s t

section Alike

variable {localtime : Int → Tm}

private theorem Delivery.version (a : Delivery) (beyond : Nat → Byte) :
    ((a.datagram.packet beyond).ntohs 0).toNat = 5 := by
  have hholds := Packet.received_holds (beBytes 2 5 ++ a.body) a.fits beyond
  exact Packet.ntohs_encoded (holds_append.mp hholds).1 (by decide)

theorem handleDatagram_delivery (a : Delivery) (beyond : Nat → Byte) (stack : Nat → U32)
    (fuel : Nat) (d : Daemon) :
    handleDatagram localtime a.now stack (a.datagram.packet beyond) a.sourceIp fuel d =
      .finished ⟨addFlowDataV5Impl localtime (a.datagram.packet beyond)
        ((arrival localtime a.now stack d).read 0 2),(localtime a.now).tmHour⟩ := by
  have hversion := a.version beyond
  rw [handleDatagram,addFlowData]
  simp only [hversion,show ¬(5 : Nat) = 9 by decide,ite_false,ite_true]
  rfl

private theorem deliver_alike {a : Delivery} {beyond beyond' : Nat → Byte}
    {stack stack' : Nat → U32} {d d' e e' : Daemon}
    (h : Ends (handleDatagram localtime a.now stack (a.datagram.packet beyond) a.sourceIp) d e)
    (h' : Ends (handleDatagram localtime a.now stack' (a.datagram.packet beyond') a.sourceIp) d' e')
    (hstart : arrivalGlobals localtime a.now d = arrivalGlobals localtime a.now d') :
    e.globals = e'.globals ∧ e.preHour = e'.preHour := by
  obtain ⟨n,hn⟩ := h
  obtain ⟨n',hn'⟩ := h'
  rw [handleDatagram_delivery,Outcome.finished.injEq] at hn hn'
  subst hn hn'
  exact ⟨addFlowDataV5Impl_received hstart,rfl⟩

private theorem arrivalGlobals_congr {d d' : Daemon} (now : Int) (hglobals : d.globals = d'.globals)
    (hhour : d.preHour = d'.preHour) :
    arrivalGlobals localtime now d = arrivalGlobals localtime now d' := by
  have hroll : d.RollsOver localtime now ↔ d'.RollsOver localtime now := by
    rw [Daemon.RollsOver,Daemon.RollsOver,hhour]
  simp only [arrivalGlobals,hroll,hglobals]

private theorem Handles.alike {as : List Delivery} {s s' t t' : Session}
    (h : Handles gzAll localtime s (as.map Delivery.datagram) t)
    (h' : Handles gzAll localtime s' (as.map Delivery.datagram) t')
    (hglobals : s.daemon.globals = s'.daemon.globals)
    (hhour : s.daemon.preHour = s'.daemon.preHour) : t.daemon.globals = t'.daemon.globals := by
  induction as generalizing s s' with
  | nil =>
    cases h
    cases h'
    exact hglobals
  | cons a as ih =>
    obtain ⟨stack,beyond,mid,hstep,hrest⟩ := h.uncons
    obtain ⟨stack',beyond',mid',hstep',hrest'⟩ := h'.uncons
    obtain ⟨hglobals',hhour'⟩ := deliver_alike hstep.handled.2.2 hstep'.handled.2.2
      (arrivalGlobals_congr a.now hglobals hhour)
    exact ih hrest hrest' hglobals' hhour'

end Alike

/-- The globals keep the network slots behind those in use, and have at least the table, that they
were booted with. -/
structure ImportedOver (booted g : Globals) : Prop where
  sizes : g.WellSized
  myNet : g.myNet = booted.myNet
  rcvNetList : g.rcvNetList = g.nets ++ booted.rcvNetList.drop g.nSubnet.toNat
  sumIpCount : booted.sumIpCount.toNat ≤ g.sumIpCount.toNat

section Imported

variable {localtime : Int → Tm} {booted : Globals}

private theorem keptByDaemon_importedOver : KeptByDaemon (ImportedOver booted) where
  clock _ tm h := ⟨keptByDaemon_wellSized.clock _ tm h.sizes,h.myNet,h.rcvNetList,h.sumIpCount⟩
  reset _ h := ⟨keptByDaemon_wellSized.reset _ h.sizes,h.myNet,h.rcvNetList,h.sumIpCount⟩
  book _ cs h := ⟨keptByDaemon_wellSized.book _ cs h.sizes,h.myNet,h.rcvNetList,h.sumIpCount⟩

private theorem importedOver_self (hbooted : booted.WellSized) : ImportedOver booted booted :=
  ⟨hbooted,rfl,(List.take_append_drop _ _).symm,le_rfl⟩

private theorem importedOver_import {saved g : Globals} {heap : Nat → Byte} {tmpVal : U32}
    (hbooted : booted.WellSized) (hsaved : saved.WellSized)
    (h : importRecordBy gzAll heap tmpVal booted (exportRecordBy gzAll saved) = some g) :
    ImportedOver booted g := by
  have hsizes := hbooted.imported hsaved h
  have hnets := hbooted.imported_nets hsaved h
  rw [importRecordBy_exportRecordBy gzAll heap tmpVal hbooted hsaved,Option.some.injEq] at h
  refine ⟨hsizes,?_,?_,?_⟩
  · rw [← h]
  · rw [hnets,← h]
  · rw [← h]
    dsimp only
    split_ifs <;> omega

/-- What was saved comes back whole, clock apart. -/
private theorem ImportedOver.restored {g : Globals} (h : ImportedOver booted g)
    (hbooted : booted.WellSized) (heap : Nat → Byte) (tmpVal : U32) :
    importRecordBy gzAll heap tmpVal booted (exportRecordBy gzAll g) =
      some { g with localtm := booted.localtm } := by
  have hcount : (if g.sumIpCount.toNat > booted.sumIpCount.toNat then g.sumIpCount
      else booted.sumIpCount) = g.sumIpCount := by
    have hle := h.sumIpCount
    split_ifs with hlonger
    · rfl
    · exact BitVec.eq_of_toNat_eq (by omega)
  have htable : booted.ipTable.drop g.sumIpCount.toNat = [] :=
    List.drop_of_length_le (hbooted.ipTable ▸ h.sumIpCount)
  rw [importRecordBy_whole heap tmpVal hbooted h.sizes (gzAll_movesUpTo _),hcount,htable,
    List.append_nil,← h.rcvNetList,h.myNet]

private theorem Handles.importedOver {xs : List Datagram} {s t : Session}
    (h : Handles gzAll localtime s xs t) (hs : ImportedOver booted s.daemon.globals) :
    ImportedOver booted t.daemon.globals := by
  induction h with
  | nil s => exact hs
  | @cons s _ _ x _ stack beyond hstep _ ih =>
    obtain ⟨n,hn⟩ := hstep.handled.2.2
    have hstate := keptByDaemon_importedOver.datagram localtime x.now stack (x.packet beyond)
      x.sourceIp hs n
    rw [hn] at hstate
    exact ih hstate

end Imported

section Restarted

variable {localtime : Int → Tm} {g : Globals}

private theorem Starts.timed {now : Int} {s s' : Session} (h : Starts localtime g now s s') :
    s'.Timed localtime := by
  cases h with
  | intro => exact ⟨rfl,rfl⟩

private theorem Starts.importedOver {now : Int} {s s' : Session} (h : Starts localtime g now s s')
    (hg : g.WellSized) (hfiles : s.FilesExported gzAll) : ImportedOver g s'.daemon.globals := by
  cases h with
  | intro stack himports =>
    refine keptByDaemon_importedOver.clock _ _ ?_
    rw [Session.Imports] at himports
    split at himports
    next =>
      rw [himports.1]
      exact importedOver_self hg
    next f hfind =>
      obtain ⟨_,heap,tmpVal,himport⟩ := himports
      obtain ⟨saved,hsaved,hcontents⟩ := hfiles f (List.mem_of_find?_eq_some hfind)
      exact importedOver_import hg hsaved (hcontents ▸ himport)

private theorem Starts.without_files {now : Int} {s s' : Session} (h : Starts localtime g now s s')
    (hfiles : s.files.find? (·.date = (localtime now).date) = none) :
    s'.daemon.globals = { g with localtm := localtime now } := by
  cases h with
  | intro stack himports =>
    rw [Session.Imports,hfiles] at himports
    rw [himports.1]
    rfl

/-- A start on the day of the last export brings the table of that export. -/
private theorem Starts.after_export {now : Int} {before s s' : Session}
    (h : Starts localtime g now s s') (hg : g.WellSized)
    (hbefore : ImportedOver g before.daemon.globals)
    (hfiles : ∃ older, s.files = before.saved gzAll (localtime now).date :: older) :
    s'.daemon.globals = { before.daemon.globals with localtm := localtime now } := by
  obtain ⟨older,hfiles⟩ := hfiles
  cases h with
  | intro stack himports =>
    rw [Session.Imports,hfiles,List.find?_cons_of_pos (by simp [Session.saved])] at himports
    obtain ⟨_,heap,tmpVal,himport⟩ := himports
    rw [Session.saved,hbefore.restored hg,Option.some.injEq] at himport
    rw [← himport]
    rfl

/-- From the same globals, clock apart, a day goes on in the same way. -/
private theorem Handles.resumed {as : List Delivery} {s s' t t' : Session}
    (h : Handles gzAll localtime s (as.map Delivery.datagram) t)
    (h' : Handles gzAll localtime s' (as.map Delivery.datagram) t')
    (hsame : { s.daemon.globals with localtm := s'.daemon.globals.localtm } = s'.daemon.globals)
    (hquiet : ∀ a ∈ as, s.clock ≤ a.now → s'.clock ≤ a.now →
      arrivalGlobals localtime a.now s.daemon = arrivalGlobals localtime a.now s'.daemon) :
    { t.daemon.globals with localtm := t'.daemon.globals.localtm } = t'.daemon.globals := by
  cases as with
  | nil =>
    cases h
    cases h'
    exact hsame
  | cons a as =>
    obtain ⟨stack,beyond,mid,hstep,hrest⟩ := h.uncons
    obtain ⟨stack',beyond',mid',hstep',hrest'⟩ := h'.uncons
    have hstart := hquiet a List.mem_cons_self hstep.handled.1 hstep'.handled.1
    obtain ⟨hglobals,hhour⟩ := deliver_alike hstep.handled.2.2 hstep'.handled.2.2 hstart
    rw [hrest.alike hrest' hglobals hhour]

end Restarted

/-- The networks and the table, with their sizes. -/
structure SameTables (g g' : Globals) : Prop where
  nSubnet : g.nSubnet = g'.nSubnet
  rcvNetList : g.rcvNetList = g'.rcvNetList
  sumIpCount : g.sumIpCount = g'.sumIpCount
  ipTable : g.ipTable = g'.ipTable

private theorem sameTables_of_clock {g g' : Globals}
    (h : { g with localtm := g'.localtm } = g') : SameTables g g' := by
  obtain ⟨_,htable,_,hnets,hsub,hcount⟩ := Globals.mk.inj h
  exact ⟨hsub,hnets,hcount,htable⟩

section Transparent

variable {localtime : Int → Tm} {g : Globals} {date : Int × Fin 12 × Nat}

/-- After datagrams of a day it is that day; before the first one it is the day of the start, and
where that is another day, there was nothing to import. -/
private theorem Handles.today_or_empty {start : Int} {s started t : Session} {xs : List Datagram}
    (h : Handles gzAll localtime started xs t) (hstarts : Starts localtime g start s started)
    (hxs : ∀ x ∈ xs, (localtime x.now).date = date)
    (hday : (localtime start).date = date ∨ s.files = [] ∨ xs ≠ []) :
    t.today = date ∨ t.daemon.globals = { g with localtm := localtime start } ∧ t.files = [] := by
  rcases h.today hxs with htoday | ⟨hnone,rfl⟩
  · exact .inl htoday
  · rcases hday with hday | hempty | hsome
    · left
      cases hstarts with
      | intro => exact hday
    · right
      refine ⟨hstarts.without_files (by rw [hempty]; rfl),?_⟩
      cases hstarts with
      | intro => exact hempty
    · exact absurd hnone hsome

/-- What the daemon has after the restart: all that it had when it was terminated. -/
private theorem restarted_globals {start stop now : Int} {before stopped restarted : Session}
    (hg : g.WellSized) (himported : ImportedOver g before.daemon.globals)
    (hday : before.today = (localtime now).date ∨
      before.daemon.globals = { g with localtm := localtime start } ∧ before.files = [])
    (hstop : Step gzAll localtime before (.terminate stop) stopped)
    (hrestarts : Starts localtime g now stopped restarted) :
    restarted.daemon.globals = { before.daemon.globals with localtm := localtime now } := by
  cases hstop with
  | terminate =>
    by_cases htoday : before.today = (localtime now).date
    · exact hrestarts.after_export hg himported ⟨before.files,by rw [← htoday]⟩
    · obtain ⟨hglobals,hnone⟩ := hday.resolve_left htoday
      have hother : [before.saved gzAll before.today].find? (·.date = (localtime now).date) = none := by
        simp [Session.saved,htoday]
      rw [hrestarts.without_files (by rw [hnone]; exact hother),hglobals]

/-- A termination and a restart on the day of the datagrams change nothing about what the daemon
has at the end of them. The first start is on that day too, unless it finds no files or a datagram
comes before the termination. -/
theorem restart_transparent {networks : List StatedEntry} {start : Int} {s started t t' : Session}
    {as : List Delivery} {k : Nat} (hforward : HoursForward localtime) (hg : Booted networks g)
    (hfiles : s.FilesExported gzAll)
    (hday : (localtime start).date = date ∨ s.files = [] ∨ as.take k ≠ [])
    (hstarts : Starts localtime g start s started)
    (has : ∀ a ∈ as, (localtime a.now).date = date)
    (h : Handles gzAll localtime started (as.map Delivery.datagram) t)
    (h' : Interrupted localtime g date as k started t') :
    SameTables t.daemon.globals t'.daemon.globals := by
  rw [← List.take_append_drop k as,List.map_append] at h
  obtain ⟨mid,hfirst,hlast⟩ := h.split
  cases h' with
  | @intro before stopped restarted _ stop now hbefore hstop hnow hrestarts hafter =>
    subst hnow
    have hfirstday : ∀ x ∈ (as.take k).map Delivery.datagram,
        (localtime x.now).date = (localtime now).date :=
      List.forall_mem_map.mpr fun a ha => has a (List.mem_of_mem_take ha)
    have hday : (localtime start).date = (localtime now).date ∨ s.files = [] ∨
        (as.take k).map Delivery.datagram ≠ [] := by rwa [ne_eq,List.map_eq_nil_iff]
    have hmid : mid.daemon.globals = before.daemon.globals := hfirst.alike hbefore rfl rfl
    have hrestarted := restarted_globals hg.wellSized
      (hbefore.importedOver (hstarts.importedOver hg.wellSized hfiles))
      (hbefore.today_or_empty hstarts hfirstday hday) hstop hrestarts
    have hmidday : mid.today = (localtime now).date ∨
        resetTable mid.daemon.globals = mid.daemon.globals := by
      rcases hfirst.today_or_empty hstarts hfirstday hday with htoday | ⟨hglobals,_⟩
      · exact .inl htoday
      · right
        rw [hglobals,resetTable,← hg.ipTable]
    have hsame : { mid.daemon.globals with localtm := restarted.daemon.globals.localtm } =
        restarted.daemon.globals := by
      rw [hrestarted,hmid]
    have hend := hlast.resumed hafter hsame fun a ha hclock hclock' => by
      have hdate := has a (List.mem_of_mem_drop ha)
      rw [arrivalGlobals_quiet hforward (hfirst.timed hstarts.timed) hclock (hdate ▸ hmidday),
        arrivalGlobals_quiet hforward hrestarts.timed hclock' (.inl ?_),hrestarted,hmid]
      rw [hdate,Session.today,hrestarted]
    exact sameTables_of_clock hend

end Transparent

section Progress

variable {localtime : Int → Tm} {g : Globals}

theorem exists_handles (localtime : Int → Tm) {s : Session} (hrun : s.running)
    (as : List Delivery) (hclock : ∀ a ∈ as, s.clock ≤ a.now)
    (hsorted : as.Pairwise fun a b => a.now ≤ b.now) :
    ∃ t, Handles gzAll localtime s (as.map Delivery.datagram) t ∧ t.running ∧
      (t.clock = s.clock ∨ ∃ a ∈ as, t.clock = a.now) := by
  induction as generalizing s with
  | nil => exact ⟨s,.nil s,hrun,.inl rfl⟩
  | cons a as ih =>
    obtain ⟨hfirst,hsorted⟩ := List.pairwise_cons.mp hsorted
    obtain ⟨s',hstep,hrun'⟩ : ∃ s', Step gzAll localtime s
        (.datagram a.now (fun _ => 0) (a.datagram.packet fun _ => 0) a.sourceIp) s' ∧ s'.running :=
      ⟨_,.datagram hrun (hclock a List.mem_cons_self)
        ⟨0,handleDatagram_delivery a (fun _ => 0) (fun _ => 0) 0 s.daemon⟩,hrun⟩
    have hclock' := hstep.handled.2.1
    obtain ⟨t,ht,hrunt,hlast⟩ := ih hrun' (fun b hb => hclock' ▸ hfirst b hb) hsorted
    refine ⟨t,.cons _ _ hstep ht,hrunt,.inr ?_⟩
    rcases hlast with hlast | ⟨b,hb,hlast⟩
    · exact ⟨a,List.mem_cons_self,hlast.trans hclock'⟩
    · exact ⟨b,List.mem_cons_of_mem a hb,hlast⟩

private theorem exists_starts (localtime : Int → Tm) (hg : g.WellSized) {s : Session}
    (hfiles : s.FilesExported gzAll) (now : Int) : ∃ started, Starts localtime g now s started := by
  cases hfind : s.files.find? (·.date = (localtime now).date) with
  | none =>
    have himports : s.Imports gzAll (localtime now).date g g [] := by
      rw [Session.Imports,hfind]
      exact ⟨rfl,rfl⟩
    exact ⟨_,.intro (fun _ => 0) himports⟩
  | some f =>
    obtain ⟨saved,hsaved,hcontents⟩ := hfiles f (List.mem_of_find?_eq_some hfind)
    obtain ⟨g',himport⟩ : ∃ g', importRecordBy gzAll (fun _ => 0) 0 g f.contents = some g' :=
      ⟨_,hcontents ▸ importRecordBy_exportRecordBy gzAll (fun _ => 0) 0 hg hsaved⟩
    have himports : s.Imports gzAll (localtime now).date g g' f.ledger := by
      rw [Session.Imports,hfind]
      exact ⟨rfl,fun _ => 0,0,himport⟩
    exact ⟨_,.intro (fun _ => 0) himports⟩

/-- There is such a run for all datagrams in the order of time, and for all times of the
termination and the restart that fit in between. -/
theorem exists_interrupted (hg : g.WellSized) {start : Int} {s started : Session}
    {as : List Delivery} (k : Nat) (stop now : Int) (hfiles : s.FilesExported gzAll)
    (hstarts : Starts localtime g start s started)
    (hsorted : as.Pairwise fun a b => a.now ≤ b.now) (hstart : ∀ a ∈ as, start ≤ a.now)
    (hstop : start ≤ stop ∧ ∀ a ∈ as.take k, a.now ≤ stop) (hnow : ∀ a ∈ as.drop k, now ≤ a.now) :
    ∃ t', Interrupted localtime g (localtime now).date as k started t' := by
  have himported := hstarts.importedOver hg hfiles
  have hstarted : started.running ∧ started.clock = start ∧ started.FilesExported gzAll := by
    cases hstarts with
    | intro => exact ⟨rfl,rfl,hfiles⟩
  obtain ⟨hrun,hclock,hexported⟩ := hstarted
  obtain ⟨before,hbefore,hrunbefore,hlast⟩ := exists_handles localtime hrun (as.take k)
    (fun a ha => hclock ▸ hstart a (List.mem_of_mem_take ha)) (hsorted.sublist (List.take_sublist k as))
  have hbeforestop : before.clock ≤ stop := by
    rcases hlast with hlast | ⟨a,ha,hlast⟩
    · exact hlast ▸ hclock ▸ hstop.1
    · exact hlast ▸ hstop.2 a ha
  have hstopped : Session.FilesExported gzAll { before with
      clock := stop, files := before.saved gzAll before.today :: before.files, running := false } :=
    List.forall_mem_cons.mpr ⟨⟨before.daemon.globals,(hbefore.importedOver himported).sizes,rfl⟩,
      (hbefore.sized himported.sizes hexported).2⟩
  obtain ⟨restarted,hrestarts⟩ := exists_starts localtime hg hstopped now
  have hrestarted : restarted.running ∧ restarted.clock = now := by
    cases hrestarts with
    | intro => exact ⟨rfl,rfl⟩
  obtain ⟨t',hafter,_⟩ := exists_handles localtime hrestarted.1
    (as.drop k) (fun a ha => hrestarted.2 ▸ hnow a ha) (hsorted.sublist (List.drop_sublist k as))
  exact ⟨t',.intro hbefore (.terminate hrunbefore hbeforestop) rfl hrestarts hafter⟩

end Progress

/-- Universal time in June 2012; before and after it, every year has that one month. -/
def juneClock (t : Int) : Tm :=
  { utcJune t with
    tmYear := 112 + (t / 86400 - 15492) / 30
    tmMday := ((t / 86400 - 15492) % 30 + 1).toNat }

theorem juneClock_forward : HoursForward juneClock := by
  intro t t' hle hdate hlate hearly
  simp only [juneClock,utcJune,Tm.date,Prod.mk.injEq,true_and] at hdate hlate hearly
  omega

/-- Two records, 10.0.0.1 to 8.8.8.8, 1000 bytes each. -/
def twoRecordsV5 (now : Int) : Delivery where
  now := now
  sourceIp := 0x08080808
  body :=
    let record := beBytes 4 0x0a000001 ++ beBytes 4 0x08080808 ++ beBytes 12 0 ++ beBytes 4 1000 ++
      beBytes 4 1000 ++ beBytes 20 0
    beBytes 2 2 ++ beBytes 4 1000 ++ beBytes 4 1340000000 ++ beBytes 4 0 ++ beBytes 8 0 ++ record ++
      record
  fits := by simp [bufSize]

theorem restart_transparent_oneSubnet :
    ∃ started t t', Starts juneClock oneSubnetMachine.globals 1340000000 juneSession started ∧
      Handles gzAll juneClock started
        ([twoRecordsV5 1340000100,twoRecordsV5 1340000400].map Delivery.datagram) t ∧
      Interrupted juneClock oneSubnetMachine.globals (112,5,18)
        [twoRecordsV5 1340000100,twoRecordsV5 1340000400] 1 started t' ∧
      SameTables t.daemon.globals t'.daemon.globals := by
  have hfiles : juneSession.FilesExported gzAll := by simp [Session.FilesExported,juneSession]
  have hsorted : [twoRecordsV5 1340000100,twoRecordsV5 1340000400].Pairwise
      fun a b => a.now ≤ b.now := by simp [twoRecordsV5]
  have himports : juneSession.Imports gzAll (juneClock 1340000000).date oneSubnetMachine.globals
      oneSubnetMachine.globals [] := ⟨rfl,rfl⟩
  let started : Session :=
    ⟨startup juneClock 1340000000 (fun _ => 0) oneSubnetMachine.globals,1340000000,[],[],true⟩
  have hstarts : Starts juneClock oneSubnetMachine.globals 1340000000 juneSession started :=
    .intro (fun _ => 0) himports
  have hrun : started.running := rfl
  obtain ⟨t,ht,_⟩ := exists_handles juneClock hrun
    [twoRecordsV5 1340000100,twoRecordsV5 1340000400] (by simp [twoRecordsV5,started]) hsorted
  obtain ⟨t',ht'⟩ := exists_interrupted oneSubnet_booted.wellSized 1 1340000200 1340000300 hfiles
    hstarts hsorted (by simp [twoRecordsV5]) (by simp [twoRecordsV5]) (by simp [twoRecordsV5])
  exact ⟨_,t,t',hstarts,ht,ht',restart_transparent juneClock_forward oneSubnet_booted hfiles
    (.inl rfl) hstarts (by decide +kernel) ht ht'⟩

end Flowstatd
