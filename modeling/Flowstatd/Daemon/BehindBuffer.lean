import Flowstatd.Daemon.Run
import Flowstatd.Netflow.Buffer
import Flowstatd.Netflow.Locality

/-!
# Behind the receive buffer

Runs over datagrams whose handling stays inside the buffer of `main`. What lies behind the buffer
may be different at every datagram: the daemon ends the same way.
-/

namespace Flowstatd

open Framework

section Version5

variable {p p' : Packet}

theorem insertRecordV5_extends (localtime : Int → Tm) (p : Packet) (record : Nat) (m : Machine) :
    m.Extends (insertRecordV5 localtime p record m) := by
  simp only [Machine.Extends,insertRecordV5,Machine.insert_trace,Machine.read_trace]
  exact List.suffix_append [_,_,_,_,_,_,_,_] _

theorem insertFlowEntryLoop_extends (localtime : Int → Tm) (p : Packet) (n ptr : Nat)
    (m : Machine) : m.Extends (insertFlowEntryLoop localtime p n ptr m) := by
  induction n generalizing ptr m with
  | zero => exact .refl m
  | succ n ih => exact (insertRecordV5_extends localtime p _ m).trans (ih _ _)

theorem insertRecordV5_same (localtime : Int → Tm) (record : Nat) {m m' : Machine}
    (hm : m.Same m') (h : p.AgreesOn p' (insertRecordV5 localtime p record m).trace) :
    (insertRecordV5 localtime p record m).Same (insertRecordV5 localtime p' record m') := by
  simp only [insertRecordV5,Machine.insert_trace,Machine.read_trace] at h
  have hntohl (off : Nat) (hoff : off ∈ [4,8,12,record + 24,record + 20]) :
      p.ntohl off = p'.ntohl off := by
    apply h.ntohl
    simp only [List.mem_cons,List.not_mem_nil,or_false] at hoff
    rcases hoff with rfl | rfl | rfl | rfl | rfl <;> simp
  have hload (off : Nat) (hoff : off = record ∨ off = record + 4) : p.load32 off = p'.load32 off := by
    apply h.load32
    rcases hoff with rfl | rfl <;> simp
  rw [insertRecordV5,insertRecordV5,hload record (.inl rfl),hload (record + 4) (.inr rfl),
    hntohl (record + 20) (by simp),nfTimeInfoV5,hntohl 4 (by simp),hntohl 8 (by simp),
    hntohl 12 (by simp),hntohl (record + 24) (by simp),← nfTimeInfoV5]
  exact (((((((hm.read _ _).read _ _).read _ _).read _ _).read _ _).read _ _).read _ _).insert
    _ _ _ _ _

theorem insertFlowEntryLoop_same (localtime : Int → Tm) (n ptr : Nat) {m m' : Machine}
    (hm : m.Same m') (h : p.AgreesOn p' (insertFlowEntryLoop localtime p n ptr m).trace) :
    (insertFlowEntryLoop localtime p n ptr m).Same (insertFlowEntryLoop localtime p' n ptr m') := by
  induction n generalizing ptr m m' with
  | zero => exact hm
  | succ n ih =>
    rw [insertFlowEntryLoop] at h
    have hfirst := insertRecordV5_same localtime _ hm
      (h.subset (insertFlowEntryLoop_extends localtime p n _ _).subset)
    exact ih _ hfirst h

/-- The version 5 handler, on packets that it accepts alike. -/
theorem addFlowDataV5Impl_same (localtime : Int → Tm) (hvalid : isValidPacket p = isValidPacket p')
    {m m' : Machine} (hm : m.Same m') (h : p.AgreesOn p' (addFlowDataV5Impl localtime p m).trace) :
    (addFlowDataV5Impl localtime p m).Same (addFlowDataV5Impl localtime p' m') := by
  simp only [addFlowDataV5Impl] at h ⊢
  rw [← hvalid]
  split_ifs at h ⊢
  · exact insertFlowEntryLoop_same localtime _ _ hm h
  · exact hm

end Version5

/-- A datagram that fits the buffer, and when and from where it comes. -/
structure Arrival where
  now : Int
  stack : Nat → U32
  sourceIp : InAddr
  datagram : List Byte
  fits : datagram.length ≤ bufSize

/-- The daemon handles the datagrams, each with its own memory behind the buffer. -/
inductive Receives (localtime : Int → Tm) : Daemon → List (Arrival × (Nat → Byte)) → Daemon → Prop
  | nil (d : Daemon) : Receives localtime d [] d
  | cons {d d' e : Daemon} {a : Arrival} {beyond : Nat → Byte}
      {as : List (Arrival × (Nat → Byte))} :
    Ends (handleDatagram localtime a.now a.stack (Packet.received a.datagram a.fits beyond)
        a.sourceIp) d d' →
      Receives localtime d' as e → Receives localtime d ((a,beyond) :: as) e

/-- Daemons between which the memory behind the buffer makes no difference. -/
structure Daemon.Same (d d' : Daemon) : Prop where
  machine : d.machine.Same d'.machine
  preHour : d.preHour = d'.preHour

section Runs

variable {localtime : Int → Tm} {d d' : Daemon}

theorem Daemon.Same.refl (d : Daemon) : d.Same d := ⟨.refl _,rfl⟩

theorem agreesOn_received {datagram : List Byte} (h : datagram.length ≤ bufSize)
    (beyond beyond' : Nat → Byte) {trace : List Event} (hreads : ReadsIn bufSize trace) :
    (Packet.received datagram h beyond).AgreesOn (Packet.received datagram h beyond') trace :=
  ⟨rfl,fun off size hr => received_bytesAt (hreads off size hr)⟩

theorem Daemon.Same.arrival (h : d.Same d') (localtime : Int → Tm) (now : Int) (stack : Nat → U32) :
    (arrival localtime now stack d).Same (arrival localtime now stack d') := by
  have hroll : d.RollsOver localtime now ↔ d'.RollsOver localtime now := by
    rw [Daemon.RollsOver,h.preHour,Daemon.RollsOver]
  have hglobals : d.globals = d'.globals := h.machine.globals
  refine ⟨?_,h.machine.templateTable,h.machine.sourceTable,rfl,h.machine.trace⟩
  simp only [Flowstatd.arrival,arrivalGlobals,hroll,hglobals]

/-- One datagram, as far as its handling has got. -/
theorem handleDatagram_same (h : d.Same d') (a : Arrival) (beyond beyond' : Nat → Byte) (fuel : Nat)
    (hreads : (handleDatagram localtime a.now a.stack (Packet.received a.datagram a.fits beyond)
      a.sourceIp fuel d).state.machine.ReadsWithin bufSize) :
    (handleDatagram localtime a.now a.stack (Packet.received a.datagram a.fits beyond) a.sourceIp
        fuel d).Related Daemon.Same
      (handleDatagram localtime a.now a.stack (Packet.received a.datagram a.fits beyond')
        a.sourceIp fuel d') := by
  have hstart := (h.arrival localtime a.now a.stack).read 0 2
  have hversion : (Packet.received a.datagram a.fits beyond).ntohs 0 =
      (Packet.received a.datagram a.fits beyond').ntohs 0 := by
    rw [Packet.ntohs,received_bytesAt (by decide),Packet.ntohs]
  rw [handleDatagram,Outcome.state_map] at hreads
  have hagrees := agreesOn_received a.fits beyond beyond' hreads
  rw [handleDatagram,handleDatagram]
  refine Outcome.Related.map (R := Machine.Same) ?_ fun _ _ hm => ⟨hm,rfl⟩
  rw [addFlowData] at hagrees ⊢
  rw [addFlowData,← hversion]
  split_ifs at hagrees ⊢
  · exact addFlowDataV9Impl_local localtime a.sourceIp fuel hstart hagrees
  · exact .finished (addFlowDataV5Impl_same localtime (isValidPacket_received _ _ _) hstart hagrees)
  · exact .finished hstart

private theorem handleDatagram_extends {now : Int} {stack : Nat → U32} {p : Packet}
    {sourceIp : InAddr} (h : Ends (handleDatagram localtime now stack p sourceIp) d d') :
    d.machine.Extends d'.machine := by
  obtain ⟨n,hn⟩ := h
  obtain ⟨evs,htrace,-⟩ := handleDatagram_replays localtime now stack p sourceIp n d
  rw [hn] at htrace
  exact ⟨evs,htrace.symm⟩

private theorem Receives.extends {as : List (Arrival × (Nat → Byte))} {e : Daemon}
    (h : Receives localtime d as e) : d.machine.Extends e.machine := by
  induction h with
  | nil d => exact .refl _
  | cons hstep _ ih => exact (handleDatagram_extends hstep).trans ih

/-- A run that never reads behind the buffer ends the same way whatever is there. -/
theorem behind_buffer_irrelevant {as as' : List (Arrival × (Nat → Byte))} {e : Daemon}
    (h : Receives localtime d as e) (hreads : e.machine.ReadsWithin bufSize)
    (hsame : as'.map Prod.fst = as.map Prod.fst) :
    ∃ e', Receives localtime d as' e' ∧ e.Same e' := by
  suffices hrun : ∀ d', d.Same d' → ∃ e', Receives localtime d' as' e' ∧ e.Same e' from
    hrun d (.refl d)
  induction h generalizing as' with
  | nil d =>
    rw [List.map_nil,List.map_eq_nil_iff] at hsame
    subst hsame
    exact fun d' hd => ⟨d',.nil d',hd⟩
  | @cons d t e a beyond as hstep hrest ih =>
    intro d' hd
    obtain ⟨⟨a',beyond'⟩,as',rfl,ha,htail⟩ := List.map_eq_cons_iff.mp hsame
    obtain rfl : a = a' := ha.symm
    have hread : t.machine.ReadsWithin bufSize := hrest.extends.readsWithin hreads
    obtain ⟨n,hn⟩ := hstep
    have hrelated := handleDatagram_same hd a beyond beyond' n (by rw [hn]; exact hread)
    rw [hn] at hrelated
    generalize hother : handleDatagram localtime a.now a.stack
      (Packet.received a.datagram a.fits beyond') a.sourceIp n d' = o at hrelated
    cases hrelated with
    | finished ht =>
      obtain ⟨e',hrest',he⟩ := ih hreads htail _ ht
      exact ⟨e',.cons ⟨n,hother⟩ hrest',he⟩

end Runs

private theorem oneRecordV5_fits : oneRecordV5.length ≤ bufSize := by decide

/-- The datagram with one record. -/
def oneRecordArrival : Arrival :=
  ⟨1340000000,fun _ => 0,0x08080808,oneRecordV5,oneRecordV5_fits⟩

/-- The record of that datagram is read from behind it, but from the buffer. -/
theorem behind_buffer_irrelevant_oneRecord :
    let localtime : Int → Tm := fun _ => juneMorning
    let d := startup localtime 1340000000 (fun _ => 0) oneSubnetMachine.globals
    let e := (handleDatagram localtime 1340000000 (fun _ => 0) oneRecordPacketV5 0x08080808 1 d).state
    ∃ e', Receives localtime d [(oneRecordArrival,fun _ => 255)] e' ∧ e.Same e' := by
  intro localtime d e
  have hends : Ends (handleDatagram localtime 1340000000 (fun _ => 0) oneRecordPacketV5 0x08080808)
      d e := ⟨1,Outcome.eq_finished_state (by decide +kernel)⟩
  have hrun : Receives localtime d [(oneRecordArrival,fun _ => 0)] e := .cons hends (.nil e)
  have htrace : e.machine.trace = [.insert 0 0 0 ⟨1000,1340000000,0,0⟩,.read 76 4,.read 72 4,
      .read 92 4,.read 96 4,.read 12 4,.read 8 4,.read 4 4,.read 0 2] := by
    decide +kernel
  refine behind_buffer_irrelevant hrun ?_ rfl
  rw [Machine.ReadsWithin,htrace,readsIn_cons (by simp)]
  simp [bufSize,readsIn_nil]

end Flowstatd
