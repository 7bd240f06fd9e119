import Flowstatd.Netflow.TemplateOwnership
import Flowstatd.Netflow.V9Refinement
import Mathlib.Algebra.Order.BigOperators.Group.List
import Mathlib.Data.List.Find

/-!
# Template flowsets with templates of any length

`_SaveTemplate` cuts a template to the capacity of its table entry and returns the size of what it
has stored; the template loop skips that many bytes. Seen from the trace: which templates the loop
meets in a flowset that lists templates of any field counts.
-/

namespace Flowstatd

open Framework

section Sent

variable (p : Packet) (e : Exporter) (flowset : Nat)

/-- The template as its exporter has sent it. -/
def TemplateRecord.sentBy (e : Exporter) (t : TemplateRecord) : SentTemplate :=
  ⟨e,t.templateId,t.fields⟩

/-- What receiving a template does to the table. -/
def SentTemplate.store (table : TemplateTable) (t : SentTemplate) : TemplateTable :=
  Function.update table (templateSlot t.exporter t.templateId) (entryOf (some t))

theorem storeTemplate_eq_store (table : TemplateTable) (template : Nat) :
    storeTemplate p e table template = ((templateRecordAt p template).sentBy e).store table :=
  storeTemplate_record p e table template

theorem saveAt_sent (m : Machine) (o : Nat) :
    sentTemplates (saveAt p e flowset m o).trace =
      (templateRecordAt p (flowset + 4 + o)).sentBy e :: sentTemplates m.trace := by
  have hsource : sentTemplates (checkSource e
      (templateSlot e (p.ntohs (flowset + 4 + o)).toNat)
      (((m.read 16 4).read (flowset + 4 + o) 2).read (flowset + 4 + o + 2) 2)).trace =
        sentTemplates m.trace := by
    rcases checkSource_trace e (templateSlot e (p.ntohs (flowset + 4 + o)).toNat)
      (((m.read 16 4).read (flowset + 4 + o) 2).read (flowset + 4 + o + 2) 2) with h | h <;>
      rw [h] <;> rfl
  rw [saveAt,saveTemplate_eq,sentTemplates_quiet (specifierReads_quiet _ _),← hsource]
  rfl

theorem foldl_saveAt_sent (os : List Nat) (m : Machine) :
    sentTemplates (os.foldl (saveAt p e flowset) m).trace =
      (os.map fun o => (templateRecordAt p (flowset + 4 + o)).sentBy e).reverse ++
        sentTemplates m.trace := by
  induction os generalizing m with
  | nil => rfl
  | cons o os ih =>
    rw [List.foldl_cons,ih,saveAt_sent,List.map_cons,List.reverse_cons,List.append_assoc,
      List.singleton_append]

theorem foldl_store_apply (sent : List SentTemplate) (table : TemplateTable) (slot : Int) :
    sent.foldl SentTemplate.store table slot =
      match lastInSlot sent.reverse slot with
      | some t => entryOf (some t)
      | none => table slot := by
  induction sent generalizing table with
  | nil => rfl
  | cons t sent ih =>
    rw [List.foldl_cons,ih,lastInSlot,lastInSlot,List.reverse_cons,List.find?_append]
    cases sent.reverse.find? fun t => templateSlot t.exporter t.templateId = slot with
    | some later => rfl
    | none =>
      by_cases hslot : templateSlot t.exporter t.templateId = slot
      · simp [hslot,SentTemplate.store]
      · simp [hslot,SentTemplate.store,Function.update_of_ne (Ne.symm hslot)]

end Sent

section Coverage

variable (p : Packet) (e : Exporter) (flowset : Nat)

/-- The templates that the loop meets take it to the end of the flowset. -/
theorem templateOffsets_cover (o : Nat) :
    flowSetLength p flowset ≤
      o + 4 + ((templateOffsets p flowset o).map fun o => templateSize p (flowset + 4 + o)).sum := by
  induction o using templateOffsets.induct p flowset with
  | case1 o hlt ih =>
    rw [templateOffsets,if_pos hlt,List.map_cons,List.sum_cons]
    omega
  | case2 o hge =>
    rw [templateOffsets,if_neg hge]
    simp only [List.map_nil,List.sum_nil]
    omega

theorem encode_size (records : List TemplateRecord) :
    (records.flatMap TemplateRecord.encode).length =
      (records.map fun t => 4 + 4 * t.fields.length).sum := by
  rw [List.length_flatMap]
  simp only [TemplateRecord.encode_length]

/-- Sizes cut to the capacity add up to the whole only when nothing is cut. -/
theorem count_le_of_sizes {records : List TemplateRecord}
    (h : (records.map fun t => 4 + 4 * t.fields.length).sum ≤
      (records.map fun t => 4 + 4 * min t.fields.length nfV9MaxFieldsInTemplate).sum) :
    ∀ t ∈ records, t.fields.length ≤ nfV9MaxFieldsInTemplate := by
  induction records with
  | nil => simp
  | cons t records ih =>
    have htail : (records.map fun t => 4 + 4 * min t.fields.length nfV9MaxFieldsInTemplate).sum ≤
        (records.map fun t => 4 + 4 * t.fields.length).sum := by
      apply List.sum_le_sum
      intro t _
      have hmin := Nat.min_le_left t.fields.length nfV9MaxFieldsInTemplate
      omega
    simp only [List.map_cons,List.sum_cons] at h
    have hhead := Nat.min_le_left t.fields.length nfV9MaxFieldsInTemplate
    have hcut := Nat.min_le_right t.fields.length nfV9MaxFieldsInTemplate
    exact List.forall_mem_cons.mpr ⟨by omega,ih (by omega)⟩

end Coverage

section Listed

/-- The templates of a flowset are stored as listed: the loop has seen these and no others, the slot
of each id holds the last of them with that id, and the other slots are as before. -/
structure TemplatesStored (e : Exporter) (records : List TemplateRecord) (m m' : Machine) :
    Prop where
  visited : sentTemplates m'.trace =
    (records.map fun t => ⟨e,t.templateId,t.fields⟩).reverse ++ sentTemplates m.trace
  stored : ∀ id t, records.reverse.find? (fun t => t.templateId = id) = some t →
    m'.templateTable (templateSlot e id) = .ofFields (t.fields.take nfV9MaxFieldsInTemplate)
  kept : ∀ slot, (∀ t ∈ records, slot ≠ templateSlot e t.templateId) →
    m'.templateTable slot = m.templateTable slot

variable {p : Packet} {e : Exporter} {records : List TemplateRecord}

theorem TemplatesStored.of_table {m m' : Machine}
    (hids : ∀ t ∈ records, 256 ≤ t.templateId ∧ t.templateId ≤ 319)
    (hsent : sentTemplates m'.trace =
      (records.map fun t => ⟨e,t.templateId,t.fields⟩).reverse ++ sentTemplates m.trace)
    (htable : m'.templateTable =
      (records.map fun t => ⟨e,t.templateId,t.fields⟩).foldl SentTemplate.store m.templateTable) :
    TemplatesStored e records m m' := by
  have hlast (slot : Int) :
      lastInSlot (records.map fun t => ⟨e,t.templateId,t.fields⟩).reverse slot =
        (records.reverse.find? fun t => templateSlot e t.templateId = slot).map
          fun t => ⟨e,t.templateId,t.fields⟩ := by
    rw [lastInSlot,← List.map_reverse,List.find?_map]
    rfl
  refine ⟨hsent,fun id t ht => ?_,fun slot hslot => ?_⟩
  · have hmem := List.mem_reverse.mp (List.mem_of_find?_eq_some ht)
    have hid : t.templateId = id := by simpa using List.find?_some ht
    have hsame : (records.reverse.find? fun t => templateSlot e t.templateId = templateSlot e id) =
        some t := by
      rw [← ht]
      apply List.find?_congr
      intro t' ht'
      simp only [decide_eq_decide]
      exact ⟨templateSlot_injective e (hids t' (List.mem_reverse.mp ht')) (hid ▸ hids t hmem),
        fun heq => by rw [heq]⟩
    rw [htable,foldl_store_apply,hlast,hsame]
    rfl
  · have hnone : (records.reverse.find? fun t => templateSlot e t.templateId = slot) = none := by
      apply List.find?_eq_none.mpr
      intro t ht
      simpa using (hslot t (List.mem_reverse.mp ht)).symm
    rw [htable,foldl_store_apply,hlast,hnone]
    rfl

theorem handleFlowset_template_ends (localtime : Int → Tm) (flowset : Nat)
    (hzero : flowSetId p flowset = 0) (m : Machine) :
    ∃ m', Ends (handleFlowset localtime p e flowset) m m' ∧
      let met := (templateOffsets p flowset 0).map fun o =>
        (templateRecordAt p (flowset + 4 + o)).sentBy e
      sentTemplates m'.trace = met.reverse ++ sentTemplates m.trace ∧
        m'.templateTable = met.foldl SentTemplate.store m.templateTable := by
  obtain ⟨m',hend⟩ := (handleFlowset_terminates_iff localtime p e flowset m).mpr
    fun h => absurd h.1 (by omega)
  refine ⟨m',hend,?_⟩
  rw [handleFlowset_ends_template localtime p e flowset hzero hend]
  constructor
  · rw [foldl_saveAt_sent]
    rfl
  · rw [foldl_saveAt_templateTable,List.foldl_map]
    simp only [storeTemplate_eq_store]
    rfl

private theorem template_flowset_read {flowset : Nat}
    (h : Holds p.mem flowset (Flowset.templates records).encode)
    (hlen : (Flowset.templates records).encode.length < 2 ^ 16) :
    flowSetId p flowset = 0 ∧
      (records.flatMap TemplateRecord.encode).length + 4 = flowSetLength p flowset ∧
      Holds p.mem (flowset + 4) (records.flatMap TemplateRecord.encode) := by
  simp only [Flowset.encode,Flowset.body,Flowset.id,List.length_append,beBytes_length] at hlen
  rw [Flowset.encode,holds_append,holds_append] at h
  obtain ⟨⟨hid,hlength⟩,hbody⟩ := h
  simp only [List.length_append,beBytes_length] at hlength hbody
  refine ⟨Packet.ntohs_encoded hid (by decide),?_,hbody⟩
  rw [flowSetLength,Packet.ntohs_encoded hlength (by rw [Flowset.body]; omega),Flowset.body]
  omega

/-- The template loop stores a flowset of templates as listed exactly when none of them has more
fields than a table entry. -/
theorem templates_stored_iff (localtime : Int → Tm) (p : Packet) (e : Exporter) (flowset : Nat)
    (records : List TemplateRecord) (h : Holds p.mem flowset (Flowset.templates records).encode)
    (hlen : (Flowset.templates records).encode.length < 2 ^ 16)
    (hids : ∀ t ∈ records, 256 ≤ t.templateId ∧ t.templateId ≤ 319) (m : Machine) :
    ∃ m', Ends (handleFlowset localtime p e flowset) m m' ∧
      (TemplatesStored e records m m' ↔
        ∀ t ∈ records, t.fields.length ≤ nfV9MaxFieldsInTemplate) := by
  obtain ⟨hzero,hlength,hbody⟩ := template_flowset_read h hlen
  obtain ⟨m',hend,hsent,htable⟩ := handleFlowset_template_ends localtime flowset hzero m
  refine ⟨m',hend,?_,?_⟩
  · intro hstored
    -- what the loop has met are the listed templates, so their cut sizes reach the end
    have hmet := List.append_cancel_right (hsent.symm.trans hstored.visited)
    have hmet := List.reverse_injective hmet
    have hcover := templateOffsets_cover p flowset 0
    have hsizes : (templateOffsets p flowset 0).map (fun o => templateSize p (flowset + 4 + o)) =
        records.map fun t => 4 + 4 * min t.fields.length nfV9MaxFieldsInTemplate := by
      have hcut := congrArg (List.map fun t : SentTemplate =>
        4 + 4 * min t.fields.length nfV9MaxFieldsInTemplate) hmet
      simp only [List.map_map,Function.comp_def] at hcut
      simp only [templateSize_eq]
      exact hcut
    rw [hsizes] at hcover
    rw [encode_size] at hlength
    apply count_le_of_sizes
    omega
  · intro hcount
    have hlisted := templateOffsets_listed flowset 0
      (fun t ht => Nat.lt_of_le_of_lt (hids t ht).2 (by decide)) hcount hbody (by omega)
    have hmet : (templateOffsets p flowset 0).map
        (fun o => (templateRecordAt p (flowset + 4 + o)).sentBy e) =
        records.map fun t => ⟨e,t.templateId,t.fields⟩ := by
      conv_rhs => rw [← hlisted]
      rw [List.map_map]
      rfl
    rw [hmet] at hsent htable
    exact .of_table hids hsent htable

theorem templates_stored_iff_borrowed :
    ∃ m', Ends (handleFlowset (fun _ => juneMorning) borrowedTemplatePacket ⟨0x08080808,0⟩ 20)
        oneSubnetMachine m' ∧
      (TemplatesStored ⟨0x08080808,0⟩ [⟨256,[⟨8,4⟩,⟨12,4⟩,⟨1,4⟩,⟨22,4⟩]⟩] oneSubnetMachine m' ↔
        ∀ t ∈ [TemplateRecord.mk 256 [⟨8,4⟩,⟨12,4⟩,⟨1,4⟩,⟨22,4⟩]],
          t.fields.length ≤ nfV9MaxFieldsInTemplate) :=
  templates_stored_iff _ _ _ _ _ (by rw [Holds]; decide +kernel) (by decide +kernel) (by decide) _

/-- A template 256 with one field more than a table entry holds. -/
def longTemplate : TemplateRecord := ⟨256,List.replicate 129 ⟨8,4⟩⟩

def longTemplatePacket : Packet :=
  Packet.received (bootHeader.encode ++ (Flowset.templates [longTemplate]).encode)
    (by decide +kernel) fun _ => 0

/-- Its last field specifier is taken for a template 8, and stored. -/
theorem long_template_misread :
    Holds longTemplatePacket.mem 20 (Flowset.templates [longTemplate]).encode ∧
      (Flowset.templates [longTemplate]).encode.length < 2 ^ 16 ∧
      (∀ t ∈ [longTemplate], 256 ≤ t.templateId ∧ t.templateId ≤ 319) ∧
      ∃ m', Ends (handleFlowset (fun _ => juneMorning) longTemplatePacket ⟨0x08080808,0⟩ 20)
          oneSubnetMachine m' ∧
        ¬TemplatesStored ⟨0x08080808,0⟩ [longTemplate] oneSubnetMachine m' := by
  refine ⟨(holds_append.mp (Packet.received_holds _ _ _)).2,by decide +kernel,by decide +kernel,_,
    ⟨3,Outcome.eq_finished_state (by decide +kernel)⟩,fun h => ?_⟩
  have hkept := h.kept (templateSlot ⟨0x08080808,0⟩ 8) (by decide +kernel)
  exact absurd hkept (by decide +kernel)

end Listed

end Flowstatd
