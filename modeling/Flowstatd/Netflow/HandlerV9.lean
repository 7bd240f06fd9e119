import Flowstatd.Framework.Loop
import Flowstatd.Netflow.Machine

/-!
# Version 9 datagrams

The template and data paths of `netflow_handler_v9.c`. All three loops advance by amounts taken
from the wire, so they are run on fuel. Offsets are naturals: none of the `int` and `unsigned`
positions can wrap for a packet length that is an `int`.
-/

namespace Flowstatd

open Framework

def nfV9HeaderSize : Nat := 20
def nfV9MaxFieldsInTemplate : Nat := 128
def nfV9MaxSourceEntries : Nat := 64
def nfV9TemplatesPerSource : Nat := 64

/-- `struct NF_V9_header`, without the version. -/
structure HeaderV9 where
  count : BitVec 16
  sysUptime : U32
  unixSecs : U32
  flowSequence : U32
  sourceId : U32

/-- The 20 bytes of a header on the wire. -/
def HeaderV9.encode (h : HeaderV9) : List Byte :=
  beBytes 2 9 ++ beBytes 2 h.count.toNat ++ beBytes 4 h.sysUptime.toNat ++
    beBytes 4 h.unixSecs.toNat ++ beBytes 4 h.flowSequence.toNat ++ beBytes 4 h.sourceId.toNat

/-- `(templateId - 256) % NF_V9_TEMPLATES_PER_SOURCE` in `int`: negative below 256. -/
def hashingTemplateId (templateId : Nat) : Int :=
  ((templateId : Int) - 256).tmod nfV9TemplatesPerSource

/-- The first line is 32-bit arithmetic, widened when it is stored in `key`. -/
def hashingSourceInfo (sourceIp : InAddr) (sourceId : U32) : Int :=
  let sum := sourceIp + sourceId
  let key : BitVec 64 := (sum * (sum + 1) / 2 + sourceId).setWidth 64
  let key := key + (key <<< 12)
  let key := key ^^^ (key >>> 22)
  let key := key + (key <<< 4)
  let key := key ^^^ (key >>> 9)
  let key := key + (key <<< 10)
  let key := key ^^^ (key >>> 2)
  let key := key + (key <<< 7)
  let key := key ^^^ (key >>> 12)
  let key := (key >>> 3) * 2654435761
  (key % BitVec.ofNat 64 nfV9MaxSourceEntries).toNat

/-- `ntohs(flowSetHeader->flowset_id)`. -/
def flowSetId (p : Packet) (flowset : Nat) : Nat := (p.ntohs flowset).toNat

/-- `ntohs(flowSetHeader->length)`, the 4 header bytes included. -/
def flowSetLength (p : Packet) (flowset : Nat) : Nat := (p.ntohs (flowset + 2)).toNat

/-- The index of `g_templateTable` formed for an exporter and a template id. -/
def templateSlot (e : Exporter) (templateId : Nat) : Int :=
  hashingSourceInfo e.sourceIp e.sourceId * nfV9TemplatesPerSource + hashingTemplateId templateId

/-- `ntohs(templateHeader->field_count)`, cut to the capacity of a table entry. -/
def storedFieldCount (p : Packet) (template : Nat) : Nat :=
  let fieldsCount := (p.ntohs (template + 2)).toNat
  if fieldsCount > nfV9MaxFieldsInTemplate then nfV9MaxFieldsInTemplate else fieldsCount

/-- `n` field specifiers from offset `pos` on. -/
def fieldsAt (p : Packet) (pos n : Nat) : List FlowsetRecord :=
  (List.range n).map fun i => ⟨p.ntohs (pos + 4 * i),p.ntohs (pos + 4 * i + 2)⟩

/-- One round of the field loop of `_SaveTemplate`. -/
def saveField (p : Packet) (template : Nat) (slot : Int) (m : Machine) (currField : Nat) :
    Machine :=
  let flowSetRecord := template + 4 + 4 * currField
  let m := (m.read flowSetRecord 2).read (flowSetRecord + 2) 2
  let field : FlowsetRecord := ⟨p.ntohs flowSetRecord,p.ntohs (flowSetRecord + 2)⟩
  let entry := m.templateTable slot
  { m with
    templateTable := Function.update m.templateTable slot
      { entry with
        recordLength := entry.recordLength + field.length
        fields := entry.fields ++ [field] } }

/-- The collision check: a taken source slot is only complained about. -/
def checkSource (e : Exporter) (slot : Int) (m : Machine) : Machine :=
  let sourceOffset := hashingSourceInfo e.sourceIp e.sourceId
  let source := m.sourceTable sourceOffset
  match source.templatePtr with
  | some _ =>
    if source.sourceIp ≠ e.sourceIp ∨ source.sourceId ≠ e.sourceId then
      m.log (.sourceCollision sourceOffset)
    else m
  | none =>
    { m with
      sourceTable := Function.update m.sourceTable sourceOffset
        ⟨e.sourceIp,e.sourceId,some slot⟩ }

/-- Stores the template whose header is at offset `template`; the second component is the size
that the caller skips. -/
def saveTemplate (p : Packet) (e : Exporter) (template : Nat) (m : Machine) : Machine × Nat :=
  let m := (m.read template 2).read (template + 2) 2
  let templateId := (p.ntohs template).toNat
  let slot := templateSlot e templateId
  let fieldCount := storedFieldCount p template
  let m := checkSource e slot m
  let m := m.log (.template e templateId
    (fieldsAt p (template + 4) (p.ntohs (template + 2)).toNat))
  let m := { m with
    templateTable := Function.update m.templateTable slot ⟨.template,0,[]⟩ }
  let m := (List.range fieldCount).foldl (saveField p template slot) m
  (m,4 + 4 * fieldCount)

/-- The template loop of `_InsertFlowEntry` over the flowset at `flowset`, started at an offset
into its body. `offset < ntohs(length) - 4` is a comparison of `int`s. -/
def templateLoop (p : Packet) (e : Exporter) (flowset : Nat) :
    Nat → Nat × Machine → Outcome (Nat × Machine) :=
  whileLoop (fun s => s.1 + 4 < flowSetLength p flowset) fun _ s =>
    let saved := saveTemplate p e (flowset + 4 + s.1) (s.2.read 16 4)
    .finished (s.1 + saved.2,saved.1)

/-- The cases of the `switch` on a field's type. -/
inductive FieldKind where
  | srcAddr
  | dstAddr
  | inBytes
  | firstSwitched
  | other
deriving DecidableEq

def FlowsetRecord.kind (f : FlowsetRecord) : FieldKind :=
  if f.type = 8 then .srcAddr
  else if f.type = 12 then .dstAddr
  else if f.type = 1 then .inBytes
  else if f.type = 22 then .firstSwitched
  else .other

/-- The local variables that the field loop fills in. -/
@[ext] structure RecordVars where
  srcAddr : InAddr
  dstAddr : InAddr
  flowBytes : U32
  firstPacketTime : U32
deriving DecidableEq

/-- `currPos`, the variables and the machine inside the field loop. -/
structure Cursor where
  currPos : Nat
  vars : RecordVars
  machine : Machine

/-- One round of the field loop of `_HandleData`. -/
def decodeField (p : Packet) (dataBegin : Nat) (c : Cursor) (f : FlowsetRecord) : Cursor :=
  let pos := dataBegin + c.currPos
  let c : Cursor := match f.kind with
    | .srcAddr =>
      { c with
        vars := { c.vars with srcAddr := p.load32 pos }
        machine := c.machine.read pos 4 }
    | .dstAddr =>
      { c with
        vars := { c.vars with dstAddr := p.load32 pos }
        machine := c.machine.read pos 4 }
    | .inBytes =>
      if f.length = 4 then
        { c with
          vars := { c.vars with flowBytes := p.ntohl pos }
          machine := c.machine.read pos 4 }
      else if f.length = 2 then
        { c with
          vars := { c.vars with flowBytes := (p.ntohs pos).setWidth 32 }
          machine := c.machine.read pos 2 }
      else c
    | .firstSwitched =>
      { c with
        vars := { c.vars with firstPacketTime := p.ntohl pos }
        machine := c.machine.read pos 4 }
    | .other => c
  { c with currPos := c.currPos + f.length.toNat }

/-- The test before `InsertNfInfoToIpTable`. -/
def RecordVars.complete (v : RecordVars) : Prop :=
  v.srcAddr ≠ 0 ∧ v.dstAddr ≠ 0 ∧ v.flowBytes ≠ 0 ∧ v.firstPacketTime ≠ 0

instance (v : RecordVars) : Decidable v.complete :=
  inferInstanceAs (Decidable (_ ∧ _ ∧ _ ∧ _))

/-- One round of the record loop. `nfTimeInfo` is not initialised: without a `FIRST_SWITCHED`
field its `FirstPacketTime` is whatever the stack holds. -/
def decodeRecord (localtime : Int → Tm) (p : Packet) (dataBegin : Nat)
    (fields : List FlowsetRecord) (s : Nat × Machine) : Nat × Machine :=
  let m := (s.2.read 4 4).read 8 4
  let start : Cursor :=
    ⟨s.1,⟨0,0,0,m.stack 0⟩,{ m with stack := fun n => m.stack (n + 1) }⟩
  let c := fields.foldl (decodeField p dataBegin) start
  let v := c.vars
  (c.currPos,
    if v.complete then
      c.machine.insert localtime v.srcAddr v.dstAddr v.flowBytes
        ⟨p.ntohl 4,p.ntohl 8,0,v.firstPacketTime⟩
    else c.machine)

/-- The record loop of `_HandleData`. `dataLen` is the flowset length, header included. -/
def recordLoop (localtime : Int → Tm) (p : Packet) (dataBegin dataLen : Nat)
    (entry : TemplateTableEntry) : Nat → Nat × Machine → Outcome (Nat × Machine) :=
  whileLoop (fun s => s.1 + entry.recordLength.toNat < dataLen) fun _ s =>
    .finished (decodeRecord localtime p dataBegin entry.fields s)

def handleData (localtime : Int → Tm) (p : Packet) (e : Exporter) (flowset fuel : Nat)
    (m : Machine) : Outcome Machine :=
  let m := (m.read (flowset + 2) 2).read flowset 2
  let dataLen := flowSetLength p flowset
  let templateId := flowSetId p flowset
  let entry := m.templateTable (templateSlot e templateId)
  if entry.templateType = .none then .finished m
  else
    let m := m.log (.decode e templateId entry.fields)
    (recordLoop localtime p (flowset + 4) dataLen entry fuel (0,m)).map Prod.snd

/-- The `if` cascade on the flowset id in the loop of `_InsertFlowEntry`. -/
def handleFlowset (localtime : Int → Tm) (p : Packet) (e : Exporter) (flowset fuel : Nat)
    (m : Machine) : Outcome Machine :=
  if flowSetId p flowset = 0 then
    (templateLoop p e flowset fuel (0,m.read (flowset + 2) 2)).map Prod.snd
  else if flowSetId p flowset > 255 then
    handleData localtime p e flowset fuel (m.read 16 4)
  else
    -- options templates (1) and the reserved ids are skipped
    .finished m

/-- One round of the flowset loop: `flowSetPos` and the machine. -/
def flowsetRound (localtime : Int → Tm) (p : Packet) (e : Exporter) (fuel : Nat)
    (s : Nat × Machine) : Outcome (Nat × Machine) :=
  ((handleFlowset localtime p e s.1 fuel (s.2.read s.1 2)).map (Prod.mk s.1)).bind fun s =>
    .finished (s.1 + flowSetLength p s.1,s.2.read (s.1 + 2) 2)

/-- The flowset loop of `_InsertFlowEntry`. -/
def flowsetLoop (localtime : Int → Tm) (p : Packet) (e : Exporter) :
    Nat → Nat × Machine → Outcome (Nat × Machine) :=
  whileLoop (fun s => s.1 < p.len) (flowsetRound localtime p e)

/-- The exporter of a packet: the sender's address and `flowHeader->source_id`. -/
def exporterOf (sourceIp : InAddr) (p : Packet) : Exporter := ⟨sourceIp,p.ntohl 16⟩

def addFlowDataV9Impl (localtime : Int → Tm) (p : Packet) (sourceIp : InAddr) (fuel : Nat)
    (m : Machine) : Outcome Machine :=
  (flowsetLoop localtime p (exporterOf sourceIp p) fuel (nfV9HeaderSize,m)).map Prod.snd

end Flowstatd
