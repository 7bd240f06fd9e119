import Flowstatd.Netflow.TemplateSlots
import Flowstatd.Netflow.V9Refinement
import Flowstatd.Netflow.WireV5

/-!
# What exporters announce

Datagrams of both versions from any number of exporters, and the flows they stand for. A version 9
exporter announces layouts, and they stay known until it announces others. Exporters whose
templates have different blocks of the table do not disturb each other.
-/

namespace Flowstatd

open Framework

/-- For each exporter the layouts that it has announced. -/
abbrev Announced := Exporter → Layouts

/-- The block of the template table that the exporter's templates go to. -/
def Exporter.block (e : Exporter) : Int := hashingSourceInfo e.sourceIp e.sourceId

/-- What an exporter puts into a datagram. -/
inductive FlowExport where
  | v5 (x : NfV5Datagram)
  | v9 (h : HeaderV9) (flowsets : List Flowset)

def FlowExport.encode : FlowExport → List Byte
  | .v5 x => x.encode
  | .v9 h flowsets => encodeDatagram h flowsets

/-- The header and the flowsets, if the exporter has sent it. -/
def FlowExport.sentBy (e : Exporter) (sourceIp : InAddr) :
    FlowExport → Option (HeaderV9 × List Flowset)
  | .v5 _ => none
  | .v9 h flowsets => if ⟨sourceIp,h.sourceId⟩ = e then some (h,flowsets) else none

def FlowExport.v5? : FlowExport → Option NfV5Datagram
  | .v5 x => some x
  | .v9 _ _ => none

section Flows

/-- The flow of a record, with the header's clock. -/
def RecordVars.flow (h : HeaderV9) (v : RecordVars) : Flow :=
  ⟨v.srcAddr,v.dstAddr,v.flowBytes,⟨h.sysUptime,h.unixSecs,0,v.firstPacketTime⟩⟩

/-- The flows of records in one layout; those with a value of zero are left out. -/
def recordFlows (h : HeaderV9) (fields : List FlowsetRecord) (records : List (List (List Byte))) :
    List Flow :=
  ((records.map (recordValues fields)).filter fun v => v.complete).map (RecordVars.flow h)

def Flowset.flows (h : HeaderV9) (layouts : Layouts) : Flowset → List Flow
  | .templates _ => []
  | .other _ _ => []
  | .data flowSetId records _ =>
    match layouts flowSetId with
    | some fields => recordFlows h fields records
    | none => []

/-- The flows of a version 9 datagram; its own templates count from where they stand. -/
def flowsetsFlows (h : HeaderV9) : Layouts → List Flowset → List Flow
  | _, [] => []
  | layouts, f :: fs => f.flows h layouts ++ flowsetsFlows h (layouts.after f) fs

def FlowExport.flows (known : Announced) (sourceIp : InAddr) : FlowExport → List Flow
  | .v5 x => x.passedOn
  | .v9 h flowsets => flowsetsFlows h (known ⟨sourceIp,h.sourceId⟩) flowsets

/-- What is known after a datagram. -/
def Announced.after (known : Announced) (sourceIp : InAddr) : FlowExport → Announced
  | .v5 _ => known
  | .v9 h flowsets =>
    let e : Exporter := ⟨sourceIp,h.sourceId⟩
    Function.update known e (flowsets.foldl Layouts.after (known e))

end Flows

section Reference

variable {localtime : Int → Tm} {h : HeaderV9} {e : Exporter}

theorem foldl_book (localtime : Int → Tm) (h : HeaderV9) (fields : List FlowsetRecord)
    (records : List (List (List Byte))) (g : Globals) :
    records.foldl (Reference.book localtime h fields) g =
      insertFlows localtime g (recordFlows h fields records) := by
  induction records generalizing g with
  | nil => rfl
  | cons values records ih =>
    rw [List.foldl_cons,ih,Reference.book]
    by_cases hcomplete : (recordValues fields values).complete
    · simp only [recordFlows,List.map_cons,hcomplete,if_true,decide_true,List.filter_cons_of_pos,
        insertFlows,List.foldl_cons]
      rfl
    · simp only [recordFlows,List.map_cons,hcomplete,if_false,decide_false,Bool.false_eq_true,
        not_false_eq_true,List.filter_cons_of_neg]

theorem Reference.step_globals (r : Reference) (f : Flowset) :
    (r.step localtime h e f).globals = insertFlows localtime r.globals (f.flows h r.layouts) := by
  cases f with
  | templates records =>
    rw [Reference.step,Reference.foldl_store]
    rfl
  | other flowSetId body => rfl
  | data id records padding =>
    cases hlayout : r.layouts id with
    | none =>
      simp only [Reference.step,Flowset.flows,hlayout]
      rfl
    | some fields =>
      simp only [Reference.step,Flowset.flows,hlayout]
      exact foldl_book localtime h fields records r.globals

theorem Reference.steps_globals (r : Reference) (flowsets : List Flowset) :
    (flowsets.foldl (Reference.step localtime h e) r).globals =
      insertFlows localtime r.globals (flowsetsFlows h r.layouts flowsets) := by
  induction flowsets generalizing r with
  | nil => rfl
  | cons f flowsets ih =>
    rw [List.foldl_cons,ih,Reference.step_globals,Reference.step_layouts,flowsetsFlows]
    exact List.foldl_append.symm

theorem Reference.steps_layouts (r : Reference) (flowsets : List Flowset) :
    (flowsets.foldl (Reference.step localtime h e) r).layouts =
      flowsets.foldl Layouts.after r.layouts := by
  induction flowsets generalizing r with
  | nil => rfl
  | cons f flowsets ih => rw [List.foldl_cons,ih,Reference.step_layouts,List.foldl_cons]

theorem TemplateRecord.WellFormed.slot {t : TemplateRecord} (ht : t.WellFormed) (e : Exporter) :
    OwnBlock e (templateSlot e t.templateId) :=
  (ownBlock_templateSlot_iff e t.templateId).mpr (.inl ht.id_ge)

theorem Reference.step_frame {r : Reference} {f : Flowset} (hf : f.WellFormed r.layouts)
    {slot : Int} (hslot : ¬OwnBlock e slot) :
    (r.step localtime h e f).templateTable slot = r.templateTable slot := by
  cases f with
  | templates records =>
    simp only [Reference.step]
    induction records generalizing r with
    | nil => rfl
    | cons t records ih =>
      have hwell : ∀ u ∈ t :: records, u.WellFormed := hf
      obtain ⟨ht,hrecords⟩ := List.forall_mem_cons.mp hwell
      have hne : slot ≠ templateSlot e t.templateId := fun heq => hslot (heq ▸ ht.slot e)
      rw [List.foldl_cons,ih (r := Reference.store e r t) hrecords]
      exact Function.update_of_ne hne _ _
  | other flowSetId body => rfl
  | data id records padding =>
    cases hlayout : r.layouts id <;> simp only [Reference.step,hlayout]

theorem Reference.steps_frame {r : Reference} {flowsets : List Flowset}
    (henc : Encodable r.layouts flowsets) {slot : Int} (hslot : ¬OwnBlock e slot) :
    (flowsets.foldl (Reference.step localtime h e) r).templateTable slot =
      r.templateTable slot := by
  induction flowsets generalizing r with
  | nil => rfl
  | cons f flowsets ih =>
    obtain ⟨hf,-,hrest⟩ := henc
    rw [List.foldl_cons,ih (by rw [Reference.step_layouts]; exact hrest),
      Reference.step_frame hf hslot]

end Reference

section Held

variable {known : Announced} {exporters : Set Exporter}

/-- The table has the announced layouts of the exporters. -/
def Announced.Held (known : Announced) (exporters : Set Exporter) (table : TemplateTable) : Prop :=
  ∀ e ∈ exporters, ∀ id fields, known e id = some fields →
    (TemplateRecord.mk id fields).WellFormed ∧ table (templateSlot e id) = .ofFields fields

theorem Announced.held_none (table : TemplateTable) :
    Announced.Held (fun _ _ => none) exporters table :=
  fun _ _ _ _ h => absurd h.symm (Option.some_ne_none _)

/-- The datagram is well formed after what its exporter has announced. -/
def FlowExport.WellFormed (known : Announced) (sourceIp : InAddr) : FlowExport → Prop
  | .v5 _ => True
  | .v9 h flowsets => Encodable (known ⟨sourceIp,h.sourceId⟩) flowsets

theorem insertFlowEntryLoop_templateTable (localtime : Int → Tm) (p : Packet) (n ptr : Nat)
    (m : Machine) : (insertFlowEntryLoop localtime p n ptr m).templateTable = m.templateTable := by
  induction n generalizing ptr m with
  | zero => rfl
  | succ n ih => exact ih _ _

/-- Blocks are disjoint. -/
theorem OwnBlock.unique {e e' : Exporter} {slot : Int} (h : OwnBlock e slot)
    (h' : OwnBlock e' slot) : e.block = e'.block := by
  simp only [OwnBlock,nfV9TemplatesPerSource] at h h'
  simp only [Exporter.block]
  omega

/-- Another exporter's datagram leaves the layouts of an exporter in the table. -/
theorem Announced.Held.after {localtime : Int → Tm} {h : HeaderV9} {flowsets : List Flowset}
    {sourceIp : InAddr} {m m' : Machine} (hheld : known.Held exporters m.templateTable)
    (hapart : exporters.InjOn Exporter.block)
    (hmem : ⟨sourceIp,h.sourceId⟩ ∈ exporters)
    (henc : Encodable (known ⟨sourceIp,h.sourceId⟩) flowsets)
    (hrefines : Refines ⟨sourceIp,h.sourceId⟩ m'
      (flowsets.foldl (Reference.step localtime h ⟨sourceIp,h.sourceId⟩)
        ⟨known ⟨sourceIp,h.sourceId⟩,m.templateTable,m.globals⟩)) :
    (known.after sourceIp (.v9 h flowsets)).Held exporters m'.templateTable := by
  intro e he id fields hknown
  simp only [Announced.after] at hknown
  by_cases hown : e = ⟨sourceIp,h.sourceId⟩
  · rw [hown,Function.update_self] at hknown
    have hagrees := hrefines.agrees id fields (by rw [Reference.steps_layouts]; exact hknown)
    rw [hown,hrefines.templateTable]
    exact hagrees
  · rw [Function.update_of_ne hown] at hknown
    obtain ⟨hwell,hslot⟩ := hheld e he id fields hknown
    refine ⟨hwell,?_⟩
    have hother : ¬OwnBlock ⟨sourceIp,h.sourceId⟩ (templateSlot e id) := fun hblock =>
      hown (hapart he hmem ((hwell.slot e).unique hblock))
    rw [hrefines.templateTable,Reference.steps_frame henc hother]
    exact hslot

/-- A datagram is handled as its exporter means it, whatever the others have sent. -/
theorem FlowExport.handled (localtime : Int → Tm) {x : FlowExport}
    (hfits : x.encode.length ≤ bufSize) (beyond : Nat → Byte) {sourceIp : InAddr} {m : Machine}
    (hheld : known.Held exporters m.templateTable) (hapart : exporters.InjOn Exporter.block)
    (hfrom : ∀ e, x.sentBy e sourceIp ≠ none → e ∈ exporters) (hwell : x.WellFormed known sourceIp) :
    ∃ m', Ends (addFlowData localtime (Packet.received x.encode hfits beyond) sourceIp) m m' ∧
      m'.globals = insertFlows localtime m.globals (x.flows known sourceIp) ∧
      (known.after sourceIp x).Held exporters m'.templateTable := by
  cases x with
  | v5 x =>
    have hversion : ((x.packet beyond).ntohs 0).toNat = 5 := by
      have hholds := Packet.received_holds x.encode x.encode_fits beyond
      exact Packet.ntohs_encoded (holds_append.mp hholds).1 (by decide)
    refine ⟨addFlowDataV5Impl localtime (x.packet beyond) (m.read 0 2),⟨0,?_⟩,
      addFlowDataV5Impl_encoded localtime x beyond (m.read 0 2),?_⟩
    · rw [addFlowData,if_neg (by rw [FlowExport.encode] at *; exact hversion ▸ by decide)]
      exact if_pos hversion
    · rw [addFlowDataV5Impl]
      split_ifs
      · rw [insertFlowEntryV5,insertFlowEntryLoop_templateTable]
        exact hheld
      · exact hheld
  | v9 h flowsets =>
    have hmem : ⟨sourceIp,h.sourceId⟩ ∈ exporters := hfrom _ (by simp [FlowExport.sentBy])
    obtain ⟨m',hends,hrefines⟩ := addFlowData_refines localtime
      (Packet.received_holds (encodeDatagram h flowsets) hfits beyond) rfl
      (r := ⟨known ⟨sourceIp,h.sourceId⟩,m.templateTable,m.globals⟩)
      ⟨rfl,rfl,hheld ⟨sourceIp,h.sourceId⟩ hmem⟩ hwell
    refine ⟨m',hends,?_,hheld.after hapart hmem hwell hrefines⟩
    rw [hrefines.globals,Reference.steps_globals]
    rfl

end Held

end Flowstatd
