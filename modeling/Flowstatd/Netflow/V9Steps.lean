import Flowstatd.Netflow.HandlerV9

/-!
# What one round of each version 9 loop does

Closed forms of `_SaveTemplate`, of the field loops and of one record iteration. Everything
proved later about templates, reads and bookings starts from these equations.
-/

namespace Flowstatd

open Framework

/-- The table entry that a list of stored fields amounts to. -/
def TemplateTableEntry.ofFields (fields : List FlowsetRecord) : TemplateTableEntry :=
  ⟨.template,(fields.map fun f => f.length).sum,fields⟩

/-- Bytes that the field loop of `_HandleData` advances by, not cut to 16 bits. -/
def fieldsLength (fields : List FlowsetRecord) : Nat :=
  (fields.map fun f => f.length.toNat).sum

@[simp] theorem fieldsLength_nil : fieldsLength [] = 0 := rfl
@[simp] theorem fieldsLength_cons (f : FlowsetRecord) (fs : List FlowsetRecord) :
    fieldsLength (f :: fs) = f.length.toNat + fieldsLength fs := rfl

theorem ofFields_recordLength (fields : List FlowsetRecord) :
    (TemplateTableEntry.ofFields fields).recordLength.toNat = fieldsLength fields % 2 ^ 16 := by
  induction fields with
  | nil => rfl
  | cons f fs ih =>
    change (f.length + (TemplateTableEntry.ofFields fs).recordLength).toNat = _
    rw [BitVec.toNat_add,ih,fieldsLength_cons,Nat.add_mod_mod]

theorem fieldsAt_succ (p : Packet) (pos n : Nat) :
    fieldsAt p pos (n + 1) =
      fieldsAt p pos n ++ [⟨p.ntohs (pos + 4 * n),p.ntohs (pos + 4 * n + 2)⟩] := by
  simp [fieldsAt,List.range_succ]

@[simp] theorem fieldsAt_length (p : Packet) (pos n : Nat) : (fieldsAt p pos n).length = n := by
  simp [fieldsAt]

theorem fieldsAt_take (p : Packet) (pos : Nat) {n k : Nat} (h : n ≤ k) :
    (fieldsAt p pos k).take n = fieldsAt p pos n := by
  simp [fieldsAt,← List.map_take,List.take_range,Nat.min_eq_left h]

/-- The specifiers that are stored are the first of those sent. -/
theorem fieldsAt_stored (p : Packet) (template : Nat) :
    fieldsAt p (template + 4) (storedFieldCount p template) =
      (fieldsAt p (template + 4) (p.ntohs (template + 2)).toNat).take
        nfV9MaxFieldsInTemplate := by
  by_cases h : (p.ntohs (template + 2)).toNat > nfV9MaxFieldsInTemplate
  · rw [fieldsAt_take _ _ (Nat.le_of_lt h),storedFieldCount,if_pos h]
  · rw [List.take_of_length_le (by rw [fieldsAt_length]; omega),storedFieldCount,if_neg h]

section Templates

/-- Reads of the first `n` field specifiers behind the template header at `template`. -/
def specifierReads (template n : Nat) : List Event :=
  (List.range n).flatMap fun i =>
    [.read (template + 4 + 4 * i) 2,.read (template + 4 + 4 * i + 2) 2]

theorem mem_specifierReads {template n : Nat} {ev : Event} (h : ev ∈ specifierReads template n) :
    ∃ off size, ev = .read off size := by
  simp only [specifierReads,List.mem_flatMap,List.mem_cons,List.not_mem_nil,or_false] at h
  obtain ⟨i,_,rfl | rfl⟩ := h
  · exact ⟨_,_,rfl⟩
  · exact ⟨_,_,rfl⟩

private theorem saveFields_eq (p : Packet) (template : Nat) (slot : Int) (m : Machine)
    (n : Nat) :
    (List.range n).foldl (saveField p template slot) m =
      { m with
        templateTable := Function.update m.templateTable slot
          { m.templateTable slot with
            recordLength := (m.templateTable slot).recordLength +
              ((fieldsAt p (template + 4) n).map fun f => f.length).sum
            fields := (m.templateTable slot).fields ++ fieldsAt p (template + 4) n }
        trace := (specifierReads template n).reverse ++ m.trace } := by
  induction n with
  | zero => simp [fieldsAt,specifierReads]
  | succ n ih =>
    rw [List.range_succ,List.foldl_append,ih,List.foldl_cons,List.foldl_nil,saveField]
    simp [fieldsAt_succ,specifierReads,List.range_succ,Machine.read,Machine.log,add_assoc]

private theorem checkSource_cases (e : Exporter) (slot : Int) (m : Machine) :
    checkSource e slot m = m.log (.sourceCollision (hashingSourceInfo e.sourceIp e.sourceId)) ∨
      checkSource e slot m = m ∨
      checkSource e slot m =
        { m with
          sourceTable := Function.update m.sourceTable (hashingSourceInfo e.sourceIp e.sourceId)
            ⟨e.sourceIp,e.sourceId,some slot⟩ } := by
  cases hptr : (m.sourceTable (hashingSourceInfo e.sourceIp e.sourceId)).templatePtr with
  | none => exact .inr (.inr (by simp only [checkSource,hptr]))
  | some ptr =>
    by_cases h : (m.sourceTable (hashingSourceInfo e.sourceIp e.sourceId)).sourceIp ≠ e.sourceIp ∨
        (m.sourceTable (hashingSourceInfo e.sourceIp e.sourceId)).sourceId ≠ e.sourceId
    · exact .inl (by simp only [checkSource,hptr,h,ite_true])
    · exact .inr (.inl (by simp only [checkSource,hptr,h,ite_false]))

private theorem checkSource_frame (e : Exporter) (slot : Int) (m : Machine) :
    checkSource e slot m =
      { m with
        sourceTable := (checkSource e slot m).sourceTable
        trace := (checkSource e slot m).trace } := by
  rcases checkSource_cases e slot m with h | h | h <;> rw [h]
  rfl

theorem checkSource_trace (e : Exporter) (slot : Int) (m : Machine) :
    (checkSource e slot m).trace = m.trace ∨
      (checkSource e slot m).trace =
        .sourceCollision (hashingSourceInfo e.sourceIp e.sourceId) :: m.trace := by
  rcases checkSource_cases e slot m with h | h | h <;> rw [h]
  · exact .inr rfl
  · exact .inl rfl
  · exact .inl rfl

theorem saveTemplate_eq (p : Packet) (e : Exporter) (template : Nat) (m : Machine) :
    (saveTemplate p e template m).1 =
      { m with
        templateTable := Function.update m.templateTable
          (templateSlot e (p.ntohs template).toNat)
          (.ofFields (fieldsAt p (template + 4) (storedFieldCount p template)))
        sourceTable := (checkSource e (templateSlot e (p.ntohs template).toNat)
          ((m.read template 2).read (template + 2) 2)).sourceTable
        trace := (specifierReads template (storedFieldCount p template)).reverse ++
          .template e (p.ntohs template).toNat
            (fieldsAt p (template + 4) (p.ntohs (template + 2)).toNat) ::
          (checkSource e (templateSlot e (p.ntohs template).toNat)
            ((m.read template 2).read (template + 2) 2)).trace } := by
  simp only [saveTemplate,saveFields_eq]
  rw [checkSource_frame e _ ((m.read template 2).read (template + 2) 2)]
  simp [TemplateTableEntry.ofFields,Machine.log,Machine.read]

@[simp] theorem saveTemplate_size (p : Packet) (e : Exporter) (template : Nat) (m : Machine) :
    (saveTemplate p e template m).2 = 4 + 4 * storedFieldCount p template := rfl

end Templates

section Records

/-- Bytes that the field loop reads for a field, whatever the field's length is. -/
def FlowsetRecord.readSize (f : FlowsetRecord) : Nat :=
  match f.kind with
  | .srcAddr => 4
  | .dstAddr => 4
  | .inBytes => if f.length = 4 then 4 else if f.length = 2 then 2 else 0
  | .firstSwitched => 4
  | .other => 0

/-- The variables after the field at offset `pos`. -/
def readVar (p : Packet) (pos : Nat) (v : RecordVars) (f : FlowsetRecord) : RecordVars :=
  match f.kind with
  | .srcAddr => { v with srcAddr := p.load32 pos }
  | .dstAddr => { v with dstAddr := p.load32 pos }
  | .inBytes =>
    if f.length = 4 then { v with flowBytes := p.ntohl pos }
    else if f.length = 2 then { v with flowBytes := (p.ntohs pos).setWidth 32 }
    else v
  | .firstSwitched => { v with firstPacketTime := p.ntohl pos }
  | .other => v

/-- The variables after the fields that stand back to back from `pos` on. -/
def readVars (p : Packet) : Nat → RecordVars → List FlowsetRecord → RecordVars
  | _, v, [] => v
  | pos, v, f :: fs => readVars p (pos + f.length.toNat) (readVar p pos v f) fs

/-- The reads of the field loop over the fields from `pos` on. -/
def fieldReads : Nat → List FlowsetRecord → List Event
  | _, [] => []
  | pos, f :: fs =>
    (if f.readSize = 0 then [] else [.read pos f.readSize]) ++
      fieldReads (pos + f.length.toNat) fs

theorem mem_fieldReads {pos : Nat} {fields : List FlowsetRecord} {ev : Event}
    (h : ev ∈ fieldReads pos fields) : ∃ off size, ev = .read off size := by
  induction fields generalizing pos with
  | nil => exact absurd h List.not_mem_nil
  | cons f fs ih =>
    rw [fieldReads,List.mem_append] at h
    rcases h with h | h
    · by_cases hsize : f.readSize = 0
      · simp [hsize] at h
      · simp only [hsize,ite_false,List.mem_singleton] at h
        exact ⟨_,_,h⟩
    · exact ih h

private theorem decodeField_eq (p : Packet) (dataBegin : Nat) (c : Cursor) (f : FlowsetRecord) :
    decodeField p dataBegin c f =
      { currPos := c.currPos + f.length.toNat
        vars := readVar p (dataBegin + c.currPos) c.vars f
        machine :=
          { c.machine with
            trace := (if f.readSize = 0 then [] else [.read (dataBegin + c.currPos) f.readSize]) ++
              c.machine.trace } } := by
  cases hk : f.kind with
  | inBytes =>
    by_cases h4 : f.length = 4
    · simp [decodeField,readVar,FlowsetRecord.readSize,hk,h4,Machine.read,Machine.log]
    · by_cases h2 : f.length = 2
      · simp [decodeField,readVar,FlowsetRecord.readSize,hk,h2,Machine.read,Machine.log]
      · simp only [decodeField,readVar,FlowsetRecord.readSize,hk,h4,h2,ite_false,ite_true]
        rfl
  | _ => simp [decodeField,readVar,FlowsetRecord.readSize,hk,Machine.read,Machine.log]

private theorem decodeFields_eq (p : Packet) (dataBegin : Nat) (fields : List FlowsetRecord)
    (c : Cursor) :
    fields.foldl (decodeField p dataBegin) c =
      { currPos := c.currPos + fieldsLength fields
        vars := readVars p (dataBegin + c.currPos) c.vars fields
        machine :=
          { c.machine with
            trace := (fieldReads (dataBegin + c.currPos) fields).reverse ++ c.machine.trace } } := by
  induction fields generalizing c with
  | nil => rfl
  | cons f fs ih =>
    rw [List.foldl_cons,ih,decodeField_eq]
    have hrev : (if f.readSize = 0 then ([] : List Event)
        else [.read (dataBegin + c.currPos) f.readSize]).reverse =
        if f.readSize = 0 then [] else [.read (dataBegin + c.currPos) f.readSize] := by
      split_ifs <;> rfl
    simp [readVars,fieldReads,Nat.add_assoc,hrev]

/-- The variables of a record at offset `pos` of the packet. -/
def recordVars (p : Packet) (pos : Nat) (junk : U32) (fields : List FlowsetRecord) :
    RecordVars :=
  readVars p pos ⟨0,0,0,junk⟩ fields

/-- What a complete record makes `_HandleData` pass on. -/
def bookVars (localtime : Int → Tm) (p : Packet) (v : RecordVars) (g : Globals) : Globals :=
  if v.complete then
    insertNfInfoToIpTable localtime g v.srcAddr v.dstAddr v.flowBytes
      ⟨p.ntohl 4,p.ntohl 8,0,v.firstPacketTime⟩
  else g

theorem decodeRecord_pos (localtime : Int → Tm) (p : Packet) (dataBegin : Nat)
    (fields : List FlowsetRecord) (s : Nat × Machine) :
    (decodeRecord localtime p dataBegin fields s).1 = s.1 + fieldsLength fields := by
  simp [decodeRecord,decodeFields_eq]

/-- A record iteration in one piece: the field loop, then the booking of a complete record. -/
theorem decodeRecord_eq (localtime : Int → Tm) (p : Packet) (dataBegin : Nat)
    (fields : List FlowsetRecord) (s : Nat × Machine) :
    (decodeRecord localtime p dataBegin fields s).2 =
      let v := recordVars p (dataBegin + s.1) (s.2.stack 0) fields
      let m : Machine :=
        { s.2 with
          stack := fun n => s.2.stack (n + 1)
          trace := (fieldReads (dataBegin + s.1) fields).reverse ++
            .read 8 4 :: .read 4 4 :: s.2.trace }
      if v.complete then
        m.insert localtime v.srcAddr v.dstAddr v.flowBytes
          ⟨p.ntohl 4,p.ntohl 8,0,v.firstPacketTime⟩
      else m := by
  simp only [decodeRecord,decodeFields_eq,recordVars,Machine.read_stack]
  rfl

theorem decodeRecord_globals (localtime : Int → Tm) (p : Packet) (dataBegin : Nat)
    (fields : List FlowsetRecord) (s : Nat × Machine) :
    (decodeRecord localtime p dataBegin fields s).2.globals =
      bookVars localtime p (recordVars p (dataBegin + s.1) (s.2.stack 0) fields)
        s.2.globals := by
  rw [decodeRecord_eq,bookVars]
  by_cases h : (recordVars p (dataBegin + s.1) (s.2.stack 0) fields).complete <;> simp [h]

theorem decodeRecord_templateTable (localtime : Int → Tm) (p : Packet) (dataBegin : Nat)
    (fields : List FlowsetRecord) (s : Nat × Machine) :
    (decodeRecord localtime p dataBegin fields s).2.templateTable = s.2.templateTable := by
  rw [decodeRecord_eq]
  by_cases h : (recordVars p (dataBegin + s.1) (s.2.stack 0) fields).complete <;> simp [h]

theorem decodeRecord_stack (localtime : Int → Tm) (p : Packet) (dataBegin : Nat)
    (fields : List FlowsetRecord) (s : Nat × Machine) (n : Nat) :
    (decodeRecord localtime p dataBegin fields s).2.stack n = s.2.stack (n + 1) := by
  rw [decodeRecord_eq]
  by_cases h : (recordVars p (dataBegin + s.1) (s.2.stack 0) fields).complete <;> simp [h]

/-- The trace of a record iteration: two header reads, the field reads and at most a booking. -/
theorem decodeRecord_trace (localtime : Int → Tm) (p : Packet) (dataBegin : Nat)
    (fields : List FlowsetRecord) (s : Nat × Machine) :
    ∃ tail : List Event, (∀ ev ∈ tail, ∃ src dst bytes info, ev = .insert src dst bytes info) ∧
      (decodeRecord localtime p dataBegin fields s).2.trace =
        tail ++ ((fieldReads (dataBegin + s.1) fields).reverse ++
          .read 8 4 :: .read 4 4 :: s.2.trace) := by
  rw [decodeRecord_eq]
  by_cases h : (recordVars p (dataBegin + s.1) (s.2.stack 0) fields).complete
  · exact ⟨[_],fun ev hev => ⟨_,_,_,_,List.mem_singleton.mp hev⟩,by simp only [h,ite_true]; rfl⟩
  · exact ⟨[],by simp,by simp only [h,ite_false]; rfl⟩

end Records

end Flowstatd
