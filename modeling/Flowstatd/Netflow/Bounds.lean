import Flowstatd.Netflow.Termination

/-!
# Which version 9 datagrams are read within their bounds

The handler compares no length from the wire with `packetLen` except the position of the next
flowset. What it reads is compared here with the end of the packet, flowset by flowset.
-/

namespace Flowstatd

open Framework

/-- The fields that are read end within the first `len` bytes, the first one being at `pos`. -/
def FieldsWithin (len : Nat) : Nat → List FlowsetRecord → Prop
  | _, [] => True
  | pos, f :: fs =>
    (f.readSize ≠ 0 → pos + f.readSize ≤ len) ∧ FieldsWithin len (pos + f.length.toNat) fs

/-- The header of the flowset, its templates, or the records that its length leaves room for,
lie within the packet. -/
structure FlowsetWithin (p : Packet) (e : Exporter) (table : TemplateTable) (flowset : Nat) :
    Prop where
  header : flowset + 4 ≤ p.len
  templates : flowSetId p flowset = 0 → ∀ o ∈ templateOffsets p flowset 0,
    flowset + 4 + o + templateSize p (flowset + 4 + o) ≤ p.len
  records : 255 < flowSetId p flowset →
    (table (templateSlot e (flowSetId p flowset))).templateType ≠ .none →
    ∀ r, r * fieldsLength (table (templateSlot e (flowSetId p flowset))).fields +
        (table (templateSlot e (flowSetId p flowset))).recordLength.toNat <
          flowSetLength p flowset →
      FieldsWithin p.len
        (flowset + 4 + r * fieldsLength (table (templateSlot e (flowSetId p flowset))).fields)
        (table (templateSlot e (flowSetId p flowset))).fields

section Reads

private theorem specifierReads_in {len template n : Nat} :
    ReadsIn len (specifierReads template n) ↔ (0 < n → template + 4 + 4 * n ≤ len) := by
  induction n with
  | zero => exact iff_of_true (readsIn_nil len) (by omega)
  | succ n ih =>
    have hsplit : specifierReads template (n + 1) = specifierReads template n ++
        [.read (template + 4 + 4 * n) 2,.read (template + 4 + 4 * n + 2) 2] := by
      simp [specifierReads,List.range_succ]
    simp only [hsplit,readsIn_append,readsIn_read_cons,ih]
    constructor
    · rintro ⟨_,_,h,_⟩ _
      omega
    · intro h
      have hlast := h (by omega)
      exact ⟨by omega,by omega,by omega,readsIn_nil len⟩

private theorem saveAt_readsWithin {p : Packet} {e : Exporter} {flowset : Nat} {m : Machine}
    {o len : Nat} :
    (saveAt p e flowset m o).ReadsWithin len ↔
      flowset + 4 + o + templateSize p (flowset + 4 + o) ≤ len ∧ 20 ≤ len ∧
        m.ReadsWithin len := by
  have hcheck (slot : Int) (m : Machine) :
      ReadsIn len (checkSource e slot m).trace ↔ ReadsIn len m.trace := by
    rcases checkSource_trace e slot m with h | h <;> rw [h]
    exact readsIn_cons fun _ _ => Event.noConfusion
  rw [saveAt,saveTemplate_eq,Machine.ReadsWithin]
  rw [readsIn_append,readsIn_reverse,specifierReads_in,readsIn_cons fun _ _ => Event.noConfusion,
    hcheck]
  simp only [Machine.read_trace,readsIn_read_cons,templateSize,Machine.ReadsWithin]
  constructor
  · rintro ⟨hspec,hcount,_,hid,hm⟩
    exact ⟨by omega,by omega,hm⟩
  · rintro ⟨hsize,hid,hm⟩
    exact ⟨by omega,by omega,by omega,by omega,hm⟩

private theorem foldl_saveAt_readsWithin {p : Packet} {e : Exporter} {flowset : Nat}
    {os : List Nat} {m : Machine} {len : Nat} (hlen : 20 ≤ len) :
    (os.foldl (saveAt p e flowset) m).ReadsWithin len ↔
      (∀ o ∈ os, flowset + 4 + o + templateSize p (flowset + 4 + o) ≤ len) ∧
        m.ReadsWithin len := by
  induction os generalizing m with
  | nil => simp
  | cons o os ih =>
    rw [List.foldl_cons,ih,saveAt_readsWithin,List.forall_mem_cons]
    tauto

private theorem fieldReads_in {len pos : Nat} {fields : List FlowsetRecord} :
    ReadsIn len (fieldReads pos fields) ↔ FieldsWithin len pos fields := by
  induction fields generalizing pos with
  | nil => exact iff_of_true (readsIn_nil len) trivial
  | cons f fs ih =>
    rw [fieldReads,FieldsWithin,readsIn_append,ih]
    by_cases h : f.readSize = 0
    · simp [h,readsIn_nil]
    · simp [h,readsIn_nil]

private theorem decodeRecord_readsWithin {localtime : Int → Tm} {p : Packet} {dataBegin : Nat}
    {fields : List FlowsetRecord} {s : Nat × Machine} {len : Nat} (hlen : 20 ≤ len) :
    (decodeRecord localtime p dataBegin fields s).2.ReadsWithin len ↔
      FieldsWithin len (dataBegin + s.1) fields ∧ s.2.ReadsWithin len := by
  obtain ⟨tail,htail,htrace⟩ := decodeRecord_trace localtime p dataBegin fields s
  have hin : ReadsIn len tail := by
    refine readsIn_of_forall fun ev hev off size => ?_
    obtain ⟨_,_,_,_,rfl⟩ := htail ev hev
    exact Event.noConfusion
  rw [Machine.ReadsWithin,htrace]
  simp only [readsIn_append,readsIn_reverse,readsIn_read_cons,fieldReads_in,Machine.ReadsWithin]
  constructor
  · rintro ⟨_,hfields,_,_,hs⟩
    exact ⟨hfields,hs⟩
  · rintro ⟨hfields,hs⟩
    exact ⟨hin,hfields,by omega,by omega,hs⟩

end Reads

section Loops

variable (localtime : Int → Tm) (p : Packet) (e : Exporter)

private theorem templateLoop_readsWithin (flowset : Nat) (m : Machine) (hlen : 20 ≤ p.len) :
    Always (templateLoop p e flowset) (fun s => s.2.ReadsWithin p.len) (0,m) ↔
      (∀ o ∈ templateOffsets p flowset 0,
        flowset + 4 + o + templateSize p (flowset + 4 + o) ≤ p.len) ∧ m.ReadsWithin p.len := by
  obtain ⟨o',hend⟩ := templateLoop_ends p e flowset 0 m
  rw [always_iff_of_ends (templateLoop_steady p e flowset) (templateLoop_grows p e flowset)
    (fun _ _ h hb => h.readsWithin hb) hend]
  exact foldl_saveAt_readsWithin hlen

private theorem recordLoop_readsWithin (dataBegin dataLen : Nat) (entry : TemplateTableEntry)
    (m : Machine) (hlen : 20 ≤ p.len) :
    Always (recordLoop localtime p dataBegin dataLen entry) (fun s => s.2.ReadsWithin p.len)
        (0,m) ↔
      m.ReadsWithin p.len ∧ ∀ r,
        r * fieldsLength entry.fields + entry.recordLength.toNat < dataLen →
          FieldsWithin p.len (dataBegin + r * fieldsLength entry.fields) entry.fields := by
  have hbody (s : Nat × Machine) :
      Always (fun _ s => .finished (decodeRecord localtime p dataBegin entry.fields s))
          (fun s => s.2.ReadsWithin p.len) s ↔
        FieldsWithin p.len (dataBegin + s.1) entry.fields ∧ s.2.ReadsWithin p.len :=
    (forall_const Nat).trans (decodeRecord_readsWithin hlen)
  have hgrows : Grows (fun a b => a.2.Extends b.2) fun _ s =>
      .finished (decodeRecord localtime p dataBegin entry.fields s) :=
    grows_finished (fun _ => .refl _) fun s => decodeRecord_extends localtime p dataBegin _ s
  rw [recordLoop,always_whileLoop_iff (fun _ => .refl _) (fun _ _ _ => .trans) (steady_finished _)
    hgrows (fun _ _ h hb => h.readsWithin hb) fun s _ _ => hbody s]
  refine and_congr_right fun _ => ⟨?_,?_⟩
  · intro h r hr
    obtain ⟨s,hs,hhead⟩ := recordLoop_reaches localtime p dataBegin dataLen entry m r hr
    rw [← hs] at hr ⊢
    exact h s hhead hr
  · intro h s hhead hlt
    obtain ⟨_,r,hr⟩ := recordLoop_atHead localtime p dataBegin dataLen entry hhead
    rw [hr] at hlt ⊢
    exact h r hlt

private theorem handleData_readsWithin (flowset : Nat) (m : Machine) (hlen : 20 ≤ p.len) :
    Always (handleData localtime p e flowset) (Machine.ReadsWithin p.len) m ↔
      flowset + 4 ≤ p.len ∧
      ((m.templateTable (templateSlot e (flowSetId p flowset))).templateType ≠ .none →
        ∀ r, r * fieldsLength (m.templateTable (templateSlot e (flowSetId p flowset))).fields +
            (m.templateTable (templateSlot e (flowSetId p flowset))).recordLength.toNat <
              flowSetLength p flowset →
          FieldsWithin p.len (flowset + 4 +
            r * fieldsLength (m.templateTable (templateSlot e (flowSetId p flowset))).fields)
            (m.templateTable (templateSlot e (flowSetId p flowset))).fields) ∧
      m.ReadsWithin p.len := by
  have hstart : (dataStart p e flowset m).ReadsWithin p.len ↔
      flowset + 4 ≤ p.len ∧ m.ReadsWithin p.len := by
    rw [dataStart,Machine.readsWithin_log fun _ _ => Event.noConfusion]
    simp only [Machine.readsWithin_read]
    constructor
    · exact fun ⟨_,h,hm⟩ => ⟨h,hm⟩
    · exact fun ⟨h,hm⟩ => ⟨by omega,h,hm⟩
  by_cases hnone : (m.templateTable (templateSlot e (flowSetId p flowset))).templateType = .none
  · have halways : Always (handleData localtime p e flowset) (Machine.ReadsWithin p.len) m ↔
        (dataStart p e flowset m).ReadsWithin p.len := by
      rw [dataStart,Machine.readsWithin_log fun _ _ => Event.noConfusion]
      simp only [Always,handleData_none localtime p e flowset _ hnone,Outcome.state_finished,
        forall_const]
    rw [halways,hstart]
    tauto
  · have halways : Always (handleData localtime p e flowset) (Machine.ReadsWithin p.len) m ↔
        Always (recordLoop localtime p (flowset + 4) (flowSetLength p flowset)
          (m.templateTable (templateSlot e (flowSetId p flowset))))
          (fun s => s.2.ReadsWithin p.len) (0,dataStart p e flowset m) := by
      simp only [Always,handleData_some localtime p e flowset _ hnone,Outcome.state_map]
    rw [halways,recordLoop_readsWithin localtime p _ _ _ _ hlen,hstart]
    tauto

private theorem handleFlowset_readsWithin (flowset : Nat) (m : Machine) (hlen : 20 ≤ p.len)
    (hpos : flowset + 4 ≤ p.len) :
    Always (handleFlowset localtime p e flowset) (Machine.ReadsWithin p.len) m ↔
      FlowsetWithin p e m.templateTable flowset ∧ m.ReadsWithin p.len := by
  by_cases h0 : flowSetId p flowset = 0
  · have hloop := templateLoop_readsWithin p e flowset (m.read (flowset + 2) 2) hlen
    rw [handleFlowset_template localtime p e flowset h0]
    simp only [Always,Outcome.state_map] at hloop ⊢
    rw [hloop,Machine.readsWithin_read]
    constructor
    · exact fun ⟨ho,_,hm⟩ => ⟨⟨hpos,fun _ => ho,fun h => absurd h (by omega)⟩,hm⟩
    · exact fun ⟨hw,hm⟩ => ⟨hw.templates h0,by omega,hm⟩
  · by_cases h255 : 255 < flowSetId p flowset
    · have hdata := handleData_readsWithin localtime p e flowset (m.read 16 4) hlen
      rw [handleFlowset_data localtime p e flowset h255]
      simp only [Always] at hdata ⊢
      rw [hdata,Machine.readsWithin_read,Machine.read_templateTable]
      constructor
      · exact fun ⟨_,hr,_,hm⟩ => ⟨⟨hpos,fun h => absurd h h0,fun _ => hr⟩,hm⟩
      · exact fun ⟨hw,hm⟩ => ⟨hpos,hw.records h255,hlen,hm⟩
    · rw [handleFlowset_other localtime p e flowset h0 (by omega)]
      simp only [Always,Outcome.state_finished,forall_const]
      exact ⟨fun hm => ⟨⟨hpos,fun h => absurd h h0,fun h => absurd h h255⟩,hm⟩,fun h => h.2⟩

/-- Both ways out of a flowset read its length: the loop for the next position, and
`_HandleData` before it spins. -/
private theorem header_of_always (s : Nat × Machine) (hlen : 20 ≤ p.len)
    (h : Always (flowsetRound localtime p e) (fun s => s.2.ReadsWithin p.len) s)
    (hdata : Always (handleFlowset localtime p e s.1) (Machine.ReadsWithin p.len)
      (s.2.read s.1 2)) : s.1 + 4 ≤ p.len := by
  by_cases hzero : ZeroWidthData p e s.2.templateTable s.1
  · rw [handleFlowset_data localtime p e s.1 hzero.1] at hdata
    exact ((handleData_readsWithin localtime p e s.1 _ hlen).mp hdata).1
  · obtain ⟨s',n,hn⟩ := (flowsetRound_terminates_iff localtime p e s).mpr hzero
    obtain ⟨m,_,hm⟩ := (flowsetRound_ends_iff localtime p e).mp ⟨n,hn⟩
    have hlast := h n
    rw [hn,Outcome.state_finished,← hm,Machine.readsWithin_read] at hlast
    omega

private theorem flowsetRound_readsWithin (s : Nat × Machine) (hlen : 20 ≤ p.len) :
    Always (flowsetRound localtime p e) (fun s => s.2.ReadsWithin p.len) s ↔
      FlowsetWithin p e s.2.templateTable s.1 ∧ s.2.ReadsWithin p.len := by
  have hbind := always_bind_iff (R := fun a b : Nat × Machine => a.2.Extends b.2)
    (c := fun fuel s => (handleFlowset localtime p e s.1 fuel (s.2.read s.1 2)).map (Prod.mk s.1))
    (f := fun s => (s.1 + flowSetLength p s.1,s.2.read (s.1 + 2) 2))
    (fun s => s.2.extends_read _ _) (P := fun s => s.2.ReadsWithin p.len)
    (fun _ _ h hb => h.readsWithin hb) (s := s)
  have hdispatch : Always (fun fuel (s : Nat × Machine) =>
      (handleFlowset localtime p e s.1 fuel (s.2.read s.1 2)).map (Prod.mk s.1))
        (fun s => s.2.ReadsWithin p.len) s ↔
      Always (handleFlowset localtime p e s.1) (Machine.ReadsWithin p.len) (s.2.read s.1 2) := by
    simp only [Always,Outcome.state_map]
  rw [hdispatch] at hbind
  constructor
  · intro h
    have hflowset := (hbind.mp h).1
    have hpos := header_of_always localtime p e s hlen h hflowset
    rw [handleFlowset_readsWithin localtime p e s.1 _ hlen hpos,Machine.readsWithin_read]
      at hflowset
    exact ⟨hflowset.1,hflowset.2.2⟩
  · rintro ⟨hw,hs⟩
    have hpos := hw.header
    have hflowset := (handleFlowset_readsWithin localtime p e s.1 (s.2.read s.1 2) hlen hpos).mpr
      ⟨hw,Machine.readsWithin_read.mpr ⟨by omega,hs⟩⟩
    refine hbind.mpr ⟨hflowset,?_⟩
    rintro t ⟨n,hn⟩
    obtain ⟨m,hm,rfl⟩ := Outcome.map_eq_finished.mp hn
    have hmn := hflowset n
    rw [hm] at hmn
    exact Machine.readsWithin_read.mpr ⟨by dsimp only; omega,hmn⟩

/-- Every flowset that the walk gets to lies within the packet. -/
def WalkWithin (table : TemplateTable) : Prop :=
  ∀ k, (flowsetWalk p e table k).1 < p.len →
    (∀ j < k, ¬ZeroWidthData p e (flowsetWalk p e table j).2 (flowsetWalk p e table j).1) →
      FlowsetWithin p e (flowsetWalk p e table k).2 (flowsetWalk p e table k).1

private theorem flowsetLoop_readsWithin (m : Machine) (hm : m.ReadsWithin p.len) :
    Always (flowsetLoop localtime p e) (fun s => s.2.ReadsWithin p.len) (nfV9HeaderSize,m) ↔
      WalkWithin p e m.templateTable := by
  have hlen {s : Nat × Machine} (hhead : AtHead (fun s => s.1 < p.len)
      (flowsetRound localtime p e) (nfV9HeaderSize,m) s) (hlt : s.1 < p.len) : 20 ≤ p.len := by
    obtain ⟨k,hk,_⟩ := flowsetLoop_atHead localtime p e hhead
    have hge := flowsetWalk_ge p e m.templateTable k
    rw [hk] at hge
    dsimp only at hge
    omega
  rw [flowsetLoop,always_whileLoop_iff (fun _ => .refl _) (fun _ _ _ => .trans)
    (flowsetRound_steady localtime p e) (flowsetRound_grows localtime p e)
    (fun _ _ h hb => h.readsWithin hb)
    fun s hhead hlt => flowsetRound_readsWithin localtime p e s (hlen hhead hlt)]
  constructor
  · rintro ⟨_,h⟩ k hk hclear
    obtain ⟨s,hhead,hs⟩ := flowsetLoop_reaches localtime p e m k (fun j hj =>
      Nat.lt_of_le_of_lt (flowsetWalk_mono p e _ (Nat.le_of_lt hj)) hk) hclear
    rw [hs] at hk ⊢
    exact h s hhead hk
  · intro h
    refine ⟨hm,fun s hhead hlt => ?_⟩
    obtain ⟨k,hk,hclear⟩ := flowsetLoop_atHead localtime p e hhead
    have hwithin := h k
    rw [hk] at hwithin
    exact hwithin hlt hclear

end Loops

/-- All reads stay within the packet exactly when every flowset the walk gets to does. -/
theorem addFlowDataV9Impl_readsWithin_iff (localtime : Int → Tm) (p : Packet)
    (sourceIp : InAddr) (m : Machine) :
    Always (addFlowDataV9Impl localtime p sourceIp) (Machine.ReadsWithin p.len)
        { m with trace := [] } ↔
      WalkWithin p (exporterOf sourceIp p) m.templateTable := by
  have hloop := flowsetLoop_readsWithin localtime p (exporterOf sourceIp p)
    { m with trace := [] } (readsIn_nil _)
  rw [← hloop]
  simp only [Always,addFlowDataV9Impl,Outcome.state_map]

/-- A template flowset that announces 128 fields and ends after its 8 header bytes. -/
def truncatedTemplatePacket : Packet :=
  Packet.received (bootHeader.encode ++ beBytes 2 0 ++ beBytes 2 8 ++ beBytes 2 256 ++ beBytes 2 128)
    (by decide) fun _ => 0

/-- The 128 field specifiers are read from behind the 28 bytes of the packet. -/
theorem truncated_template_overread :
    truncatedTemplatePacket.ntohs 0 = 9 ∧
      ¬Always (addFlowDataV9Impl (fun _ => juneMorning) truncatedTemplatePacket 0x08080808)
        (Machine.ReadsWithin truncatedTemplatePacket.len) oneSubnetMachine := by
  refine ⟨by decide +kernel,fun h => ?_⟩
  have hread : .read 28 2 ∈ (addFlowDataV9Impl (fun _ => juneMorning) truncatedTemplatePacket
      0x08080808 5 oneSubnetMachine).state.trace := by decide +kernel
  exact absurd (h 5 28 2 hread) (by decide)

end Flowstatd
