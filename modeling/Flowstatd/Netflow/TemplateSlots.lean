import Flowstatd.Netflow.HandlerV5
import Flowstatd.Netflow.TemplateOwnership

/-!
# Slots and record lengths of stored templates

Two hashes choose the slot of a template, and the lengths of its fields are added up in 16 bits.
Both go wrong for what an exporter may send: a reserved template id moves the slot in front of
the exporter's block, and long fields overflow the sum.
-/

namespace Flowstatd

open Framework

section Slots

def OwnBlock (e : Exporter) (slot : Int) : Prop :=
  hashingSourceInfo e.sourceIp e.sourceId * nfV9TemplatesPerSource ≤ slot ∧
    slot < hashingSourceInfo e.sourceIp e.sourceId * nfV9TemplatesPerSource +
      nfV9TemplatesPerSource

instance (e : Exporter) (slot : Int) : Decidable (OwnBlock e slot) :=
  inferInstanceAs (Decidable (_ ∧ _))

/-- The ids that `_HashingTemplateId` is meant for, and those below that divide evenly. -/
def RegularTemplateId (templateId : Nat) : Prop := 256 ≤ templateId ∨ templateId % 64 = 0

instance (templateId : Nat) : Decidable (RegularTemplateId templateId) :=
  inferInstanceAs (Decidable (_ ∨ _))

private theorem sourceKey_lt (key : BitVec 64) :
    (key % BitVec.ofNat 64 nfV9MaxSourceEntries).toNat < nfV9MaxSourceEntries := by
  rw [BitVec.toNat_umod]
  exact Nat.mod_lt _ (by decide)

theorem hashingSourceInfo_range (sourceIp : InAddr) (sourceId : U32) :
    0 ≤ hashingSourceInfo sourceIp sourceId ∧
      hashingSourceInfo sourceIp sourceId < nfV9MaxSourceEntries :=
  ⟨Int.natCast_nonneg _,Int.ofNat_lt.mpr (sourceKey_lt _)⟩

theorem hashingTemplateId_lt (templateId : Nat) :
    hashingTemplateId templateId < nfV9TemplatesPerSource :=
  Int.tmod_lt_of_pos _ (by decide)

/-- The remainder has the sign of the difference: below 256 it is zero or negative. -/
theorem hashingTemplateId_nonneg_iff (templateId : Nat) :
    0 ≤ hashingTemplateId templateId ↔ RegularTemplateId templateId := by
  rw [hashingTemplateId,RegularTemplateId]
  by_cases hid : 256 ≤ templateId
  · have := Int.tmod_nonneg (a := (templateId : Int) - 256) nfV9TemplatesPerSource (by omega)
    simp [hid,this]
  · have hneg : ((templateId : Int) - 256).tmod nfV9TemplatesPerSource =
        -((256 - templateId : Int) % 64) := by
      rw [← Int.neg_sub,Int.neg_tmod,Int.tmod_eq_emod_of_nonneg (by omega)]
      rfl
    omega

theorem ownBlock_templateSlot_iff (e : Exporter) (templateId : Nat) :
    OwnBlock e (templateSlot e templateId) ↔ RegularTemplateId templateId := by
  have := hashingTemplateId_lt templateId
  rw [← hashingTemplateId_nonneg_iff,OwnBlock,templateSlot]
  omega

theorem saveTemplate_templateTable (p : Packet) (e : Exporter) (template : Nat) (m : Machine) :
    (saveTemplate p e template m).1.templateTable = storeTemplate p e m.templateTable template := by
  rw [saveTemplate_eq,storeTemplate]

/-- Storing the template at offset `template` changes the exporter's own block only, and that is
one of the 64 blocks of the table. -/
structure StoredInOwnBlock (p : Packet) (e : Exporter) (template : Nat) : Prop where
  offset : 0 ≤ hashingSourceInfo e.sourceIp e.sourceId ∧
    hashingSourceInfo e.sourceIp e.sourceId < nfV9MaxSourceEntries
  writes : ∀ (m : Machine) (slot : Int),
    (saveTemplate p e template m).1.templateTable slot ≠ m.templateTable slot → OwnBlock e slot

private theorem saveTemplate_changes_own (p : Packet) (e : Exporter) (template : Nat)
    (m : Machine) {slot : Int}
    (h : (saveTemplate p e template m).1.templateTable slot ≠ m.templateTable slot) :
    slot = templateSlot e (p.ntohs template).toNat := by
  by_contra hne
  apply h
  rw [saveTemplate_templateTable,storeTemplate,Function.update_of_ne hne]

private theorem saveTemplate_fills (p : Packet) (e : Exporter) (template : Nat) :
    (saveTemplate p e template oneSubnetMachine).1.templateTable
        (templateSlot e (p.ntohs template).toNat) ≠
      oneSubnetMachine.templateTable (templateSlot e (p.ntohs template).toNat) := by
  rw [saveTemplate_templateTable,storeTemplate,Function.update_self]
  exact fun h => TemplateType.noConfusion (congrArg TemplateTableEntry.templateType h)

theorem storedInOwnBlock_iff (p : Packet) (e : Exporter) (template : Nat) :
    StoredInOwnBlock p e template ↔ RegularTemplateId (p.ntohs template).toNat := by
  rw [← ownBlock_templateSlot_iff e]
  constructor
  · intro h
    exact h.writes _ _ (saveTemplate_fills p e template)
  · intro hslot
    refine ⟨hashingSourceInfo_range _ _,fun m slot hchange => ?_⟩
    rwa [saveTemplate_changes_own p e template m hchange]

/-- A template of one field under the reserved id 255. -/
def reservedTemplatePacket : Packet :=
  Packet.received (bootHeader.encode ++ beBytes 2 0 ++ beBytes 2 12 ++ beBytes 2 255 ++
    beBytes 2 1 ++ beBytes 2 8 ++ beBytes 2 4) (by decide) fun _ => 0

/-- From 192.168.1.3 it is stored in front of the table. -/
theorem reserved_template_misplaced :
    (∃ m, addFlowDataV9Impl (fun _ => juneMorning) reservedTemplatePacket 0x0301a8c0 2
        oneSubnetMachine = .finished m ∧
      oneSubnetMachine.templateTable (-1) = .zero ∧
      m.templateTable (-1) = ⟨.template,4,[⟨8,4⟩]⟩) ∧
      ¬StoredInOwnBlock reservedTemplatePacket (exporterOf 0x0301a8c0 reservedTemplatePacket)
        24 := by
  constructor
  · have hrun : (addFlowDataV9Impl (fun _ => juneMorning) reservedTemplatePacket 0x0301a8c0 2
        oneSubnetMachine).map (fun m => m.templateTable (-1)) =
          .finished ⟨.template,4,[⟨8,4⟩]⟩ := by decide +kernel
    obtain ⟨m,hm,hslot⟩ := Outcome.map_eq_finished.mp hrun
    exact ⟨m,hm,rfl,hslot⟩
  · intro h
    have hown := h.writes oneSubnetMachine (-1) (by decide +kernel)
    exact absurd hown (by decide +kernel)

/-- In every state between datagrams that were sent regular ids only, a filled slot lies in the
block of an exporter that sent a template into it, and so within the table. -/
theorem Collecting.filled_slot_owned {localtime : Int → Tm} {m : Machine}
    (h : Collecting localtime m)
    (hids : ∀ t ∈ sentTemplates m.trace, RegularTemplateId t.templateId) {slot : Int}
    (hslot : m.templateTable slot ≠ .zero) :
    (∃ t ∈ sentTemplates m.trace, OwnBlock t.exporter slot) ∧
      0 ≤ slot ∧ slot < nfV9MaxSourceEntries * nfV9TemplatesPerSource := by
  rw [h.traced.table slot] at hslot
  cases hlast : lastInSlot (sentTemplates m.trace) slot with
  | none => exact absurd (by rw [hlast]; rfl) hslot
  | some t =>
    have hmem := List.mem_of_find?_eq_some hlast
    have hat : templateSlot t.exporter t.templateId = slot := by
      simpa using List.find?_some hlast
    have hown : OwnBlock t.exporter slot := by
      rw [← hat]
      exact (ownBlock_templateSlot_iff _ _).mpr (hids t hmem)
    have hrange := hashingSourceInfo_range t.exporter.sourceIp t.exporter.sourceId
    refine ⟨⟨t,hmem,hown⟩,?_⟩
    simp only [OwnBlock,nfV9TemplatesPerSource,nfV9MaxSourceEntries] at hown hrange ⊢
    omega

end Slots

section RecordLengths

/-- The table entry of the template at offset `template` once it is stored. -/
def storedEntry (p : Packet) (e : Exporter) (template : Nat) (m : Machine) : TemplateTableEntry :=
  (saveTemplate p e template m).1.templateTable (templateSlot e (p.ntohs template).toNat)

/-- The stored length is the sum of the stored lengths, and what a record iteration advances by. -/
structure RecordLengthExact (p : Packet) (e : Exporter) (template : Nat) (m : Machine) : Prop where
  sum : (storedEntry p e template m).recordLength.toNat =
    fieldsLength (storedEntry p e template m).fields
  advance : ∀ (localtime : Int → Tm) (q : Packet) (dataBegin : Nat) (s : Nat × Machine),
    (decodeRecord localtime q dataBegin (storedEntry p e template m).fields s).1 =
      s.1 + (storedEntry p e template m).recordLength.toNat

theorem storedEntry_eq (p : Packet) (e : Exporter) (template : Nat) (m : Machine) :
    storedEntry p e template m =
      .ofFields ((fieldsAt p (template + 4) (p.ntohs (template + 2)).toNat).take
        nfV9MaxFieldsInTemplate) := by
  rw [storedEntry,saveTemplate_templateTable,storeTemplate,Function.update_self,fieldsAt_stored]

theorem ofFields_recordLength_exact_iff (fields : List FlowsetRecord) :
    (TemplateTableEntry.ofFields fields).recordLength.toNat = fieldsLength fields ↔
      fieldsLength fields < 2 ^ 16 := by
  rw [ofFields_recordLength]
  omega

theorem recordLengthExact_iff (p : Packet) (e : Exporter) (template : Nat) (m : Machine) :
    RecordLengthExact p e template m ↔
      fieldsLength ((fieldsAt p (template + 4) (p.ntohs (template + 2)).toNat).take
        nfV9MaxFieldsInTemplate) < 2 ^ 16 := by
  rw [← ofFields_recordLength_exact_iff,← storedEntry_eq p e template m]
  constructor
  · intro h
    have hsum := h.sum
    rwa [storedEntry_eq] at hsum ⊢
  · intro h
    have hsum : (storedEntry p e template m).recordLength.toNat =
        fieldsLength (storedEntry p e template m).fields := by
      rwa [storedEntry_eq] at h ⊢
    refine ⟨hsum,fun localtime q dataBegin s => ?_⟩
    rw [decodeRecord_pos,hsum]

def halvesTemplatePacket : Packet :=
  Packet.received (bootHeader.encode ++ beBytes 2 0 ++ beBytes 2 16 ++ beBytes 2 256 ++
    beBytes 2 2 ++ beBytes 2 95 ++ beBytes 2 0x8000 ++ beBytes 2 96 ++ beBytes 2 0x8000)
    (by decide) fun _ => 0

/-- A record of 65536 bytes is taken for one of length 0. -/
theorem halves_template_length_zero :
    (storedEntry halvesTemplatePacket ⟨0x0301a8c0,0⟩ 24 oneSubnetMachine).recordLength = 0 ∧
      (decodeRecord (fun _ => juneMorning) halvesTemplatePacket 40
        (storedEntry halvesTemplatePacket ⟨0x0301a8c0,0⟩ 24 oneSubnetMachine).fields
        (0,oneSubnetMachine)).1 = 65536 ∧
      ¬RecordLengthExact halvesTemplatePacket ⟨0x0301a8c0,0⟩ 24 oneSubnetMachine := by
  have hlength : (storedEntry halvesTemplatePacket ⟨0x0301a8c0,0⟩ 24
      oneSubnetMachine).recordLength = 0 := by decide +kernel
  have hadvance : (decodeRecord (fun _ => juneMorning) halvesTemplatePacket 40
      (storedEntry halvesTemplatePacket ⟨0x0301a8c0,0⟩ 24 oneSubnetMachine).fields
      (0,oneSubnetMachine)).1 = 65536 := by decide +kernel
  refine ⟨hlength,hadvance,fun h => ?_⟩
  have hexact := h.advance (fun _ => juneMorning) halvesTemplatePacket 40 (0,oneSubnetMachine)
  rw [hadvance,hlength] at hexact
  exact absurd hexact (by decide)

/-- In every state between datagrams an entry of the table has its exact length unless the last
template sent into the slot overflows 16 bits. -/
theorem Collecting.recordLength_exact_iff {localtime : Int → Tm} {m : Machine}
    (h : Collecting localtime m) (slot : Int) :
    (m.templateTable slot).recordLength.toNat = fieldsLength (m.templateTable slot).fields ↔
      ∀ t, lastInSlot (sentTemplates m.trace) slot = some t →
        fieldsLength (t.fields.take nfV9MaxFieldsInTemplate) < 2 ^ 16 := by
  rw [h.traced.table slot]
  cases hlast : lastInSlot (sentTemplates m.trace) slot with
  | none => simp [entryOf,TemplateTableEntry.zero]
  | some t =>
    simp only [Option.some.injEq,forall_eq']
    exact ofFields_recordLength_exact_iff _

end RecordLengths

end Flowstatd
