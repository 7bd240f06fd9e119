import Flowstatd.Netflow.AddFlowData

/-!
# Well-formed version 9 datagrams and what they say

Flowsets as data, their bytes on the wire, and a decoder that knows the templates by their id and
takes the values of a record by their field. It states what a datagram means; nothing in it is
taken from the loops of the handler.
-/

namespace Flowstatd

open Framework

/-- A template as an exporter sends it. -/
structure TemplateRecord where
  templateId : Nat
  fields : List FlowsetRecord

/-- A flowset. A record of a data flowset is the list of the values of its fields. -/
inductive Flowset where
  | templates (records : List TemplateRecord)
  | other (flowSetId : Nat) (body : List Byte)
  | data (flowSetId : Nat) (records : List (List (List Byte))) (padding : List Byte)

section Encoding

def FlowsetRecord.encode (f : FlowsetRecord) : List Byte :=
  beBytes 2 f.type.toNat ++ beBytes 2 f.length.toNat

def TemplateRecord.encode (t : TemplateRecord) : List Byte :=
  beBytes 2 t.templateId ++ beBytes 2 t.fields.length ++ t.fields.flatMap FlowsetRecord.encode

def Flowset.id : Flowset → Nat
  | .templates _ => 0
  | .other flowSetId _ => flowSetId
  | .data flowSetId _ _ => flowSetId

def Flowset.body : Flowset → List Byte
  | .templates records => records.flatMap TemplateRecord.encode
  | .other _ body => body
  | .data _ records padding => records.flatMap List.flatten ++ padding

def Flowset.encode (f : Flowset) : List Byte :=
  beBytes 2 f.id ++ beBytes 2 (4 + f.body.length) ++ f.body

def encodeDatagram (h : HeaderV9) (flowsets : List Flowset) : List Byte :=
  h.encode ++ flowsets.flatMap Flowset.encode

end Encoding

section WellFormed

/-- `IN_BYTES` in one of the two widths that are counted. -/
def FlowsetRecord.isCounter (f : FlowsetRecord) : Bool :=
  f.kind = .inBytes ∧ (f.length = 4 ∨ f.length = 2)

/-- The last field of a kind; in a template that names a kind once, the field of that kind. -/
def fieldOfKind (k : FieldKind) (fields : List FlowsetRecord) : Option FlowsetRecord :=
  fields.reverse.find? fun f => f.kind = k

structure TemplateRecord.WellFormed (t : TemplateRecord) : Prop where
  id_ge : 256 ≤ t.templateId
  id_le : t.templateId ≤ 319
  count : t.fields.length ≤ nfV9MaxFieldsInTemplate
  size : fieldsLength t.fields ≤ 65535
  srcAddr : ∃ f, fieldOfKind .srcAddr t.fields = some f ∧ f.length = 4
  dstAddr : ∃ f, fieldOfKind .dstAddr t.fields = some f ∧ f.length = 4
  firstSwitched : ∃ f, fieldOfKind .firstSwitched t.fields = some f ∧ f.length = 4
  inBytes : ∃ f ∈ t.fields, f.isCounter

/-- The layouts an exporter has announced, by template id. -/
abbrev Layouts := Nat → Option (List FlowsetRecord)

def Layouts.store (layouts : Layouts) (t : TemplateRecord) : Layouts :=
  Function.update layouts t.templateId (some t.fields)

/-- The layouts known after a flowset. -/
def Layouts.after (layouts : Layouts) : Flowset → Layouts
  | .templates records => records.foldl Layouts.store layouts
  | _ => layouts

/-- One value of the right width for every field. -/
def FitsLayout (fields : List FlowsetRecord) (values : List (List Byte)) : Prop :=
  values.map List.length = fields.map fun f => f.length.toNat

instance (fields : List FlowsetRecord) (values : List (List Byte)) :
    Decidable (FitsLayout fields values) :=
  inferInstanceAs (Decidable (_ = _))

def Flowset.WellFormed (layouts : Layouts) : Flowset → Prop
  | .templates records => ∀ t ∈ records, t.WellFormed
  | .other flowSetId _ => 1 ≤ flowSetId ∧ flowSetId ≤ 255
  | .data flowSetId records padding =>
    ∃ fields, layouts flowSetId = some fields ∧ (∀ values ∈ records, FitsLayout fields values) ∧
      padding.length ≤ 3

/-- Each flowset is well formed after the ones before it, and its size fits the length field. -/
def Encodable : Layouts → List Flowset → Prop
  | _, [] => True
  | layouts, f :: fs =>
    f.WellFormed layouts ∧ 4 + f.body.length < 2 ^ 16 ∧ Encodable (layouts.after f) fs

end WellFormed

section Reference

/-- What the reference decoder keeps. -/
structure Reference where
  layouts : Layouts
  templateTable : TemplateTable
  globals : Globals

/-- The value of the last field that `sel` selects. -/
def valueOf (sel : FlowsetRecord → Bool) (fields : List FlowsetRecord)
    (values : List (List Byte)) : List Byte :=
  match (fields.zip values).reverse.find? fun fv => sel fv.1 with
  | some fv => fv.2
  | none => []

/-- The four values of a record that matter. Addresses stay in network byte order. -/
def recordValues (fields : List FlowsetRecord) (values : List (List Byte)) : RecordVars where
  srcAddr := BitVec.ofNat 32 (leNat (valueOf (fun f => f.kind = .srcAddr) fields values))
  dstAddr := BitVec.ofNat 32 (leNat (valueOf (fun f => f.kind = .dstAddr) fields values))
  flowBytes := BitVec.ofNat 32 (beNat (valueOf FlowsetRecord.isCounter fields values))
  firstPacketTime :=
    BitVec.ofNat 32 (beNat (valueOf (fun f => f.kind = .firstSwitched) fields values))

/-- One `InsertNfInfoToIpTable` for a record whose four values are nonzero. -/
def Reference.book (localtime : Int → Tm) (h : HeaderV9) (fields : List FlowsetRecord)
    (g : Globals) (values : List (List Byte)) : Globals :=
  let v := recordValues fields values
  if v.complete then
    insertNfInfoToIpTable localtime g v.srcAddr v.dstAddr v.flowBytes
      ⟨h.sysUptime,h.unixSecs,0,v.firstPacketTime⟩
  else g

def Reference.store (e : Exporter) (r : Reference) (t : TemplateRecord) : Reference :=
  { r with
    layouts := r.layouts.store t
    templateTable := Function.update r.templateTable (templateSlot e t.templateId)
      (.ofFields t.fields) }

def Reference.step (localtime : Int → Tm) (h : HeaderV9) (e : Exporter) (r : Reference) :
    Flowset → Reference
  | .templates records => records.foldl (Reference.store e) r
  | .other _ _ => r
  | .data flowSetId records _ =>
    match r.layouts flowSetId with
    | some fields => { r with globals := records.foldl (Reference.book localtime h fields) r.globals }
    | none => r

/-- The layouts are those of well-formed templates that the table holds for the exporter. -/
def Reference.Agrees (e : Exporter) (r : Reference) : Prop :=
  ∀ id fields, r.layouts id = some fields →
    (TemplateRecord.mk id fields).WellFormed ∧
      r.templateTable (templateSlot e id) = .ofFields fields

end Reference

end Flowstatd
