import Flowstatd.Framework.SideBySide
import Flowstatd.Netflow.V9Walk

/-!
# What the version 9 handler depends on

Two packets that agree on the bytes the handler reads of the first one are handled alike. The
fields of a template beyond the capacity of a table entry are logged, but not read: the traces are
compared without them.
-/

namespace Flowstatd

open Framework

/-- An event as the handler knows it. -/
def Event.seen : Event → Event
  | .template e templateId fields => .template e templateId (fields.take nfV9MaxFieldsInTemplate)
  | ev => ev

/-- Machines that differ at most in fields that were never read. -/
structure Machine.Same (m m' : Machine) : Prop where
  globals : m.globals = m'.globals
  templateTable : m.templateTable = m'.templateTable
  sourceTable : m.sourceTable = m'.sourceTable
  stack : m.stack = m'.stack
  trace : m.trace.map Event.seen = m'.trace.map Event.seen

/-- Packets of one length that agree on the bytes of the recorded reads. -/
structure Packet.AgreesOn (p p' : Packet) (trace : List Event) : Prop where
  len : p.len = p'.len
  bytes : ∀ off size, .read off size ∈ trace → bytesAt p.mem off size = bytesAt p'.mem off size

section Agreement

variable {p p' : Packet} {trace : List Event} {off : Nat}

theorem Packet.AgreesOn.subset {trace' : List Event} (h : p.AgreesOn p' trace)
    (hsub : trace' ⊆ trace) : p.AgreesOn p' trace' :=
  ⟨h.len,fun off size hr => h.bytes off size (hsub hr)⟩

theorem Packet.AgreesOn.ntohs (h : p.AgreesOn p' trace) (hr : .read off 2 ∈ trace) :
    p.ntohs off = p'.ntohs off := by
  rw [Packet.ntohs,h.bytes off 2 hr,Packet.ntohs]

theorem Packet.AgreesOn.ntohl (h : p.AgreesOn p' trace) (hr : .read off 4 ∈ trace) :
    p.ntohl off = p'.ntohl off := by
  rw [Packet.ntohl,h.bytes off 4 hr,Packet.ntohl]

theorem Packet.AgreesOn.load32 (h : p.AgreesOn p' trace) (hr : .read off 4 ∈ trace) :
    p.load32 off = p'.load32 off := by
  rw [Packet.load32,h.bytes off 4 hr,Packet.load32]

end Agreement

section Same

theorem Machine.Same.refl (m : Machine) : m.Same m := ⟨rfl,rfl,rfl,rfl,rfl⟩

variable {m m' : Machine}

theorem Machine.Same.log (h : m.Same m') {ev ev' : Event} (hev : ev.seen = ev'.seen) :
    (m.log ev).Same (m'.log ev') where
  globals := h.globals
  templateTable := h.templateTable
  sourceTable := h.sourceTable
  stack := h.stack
  trace := by
    simp only [Machine.log_trace,List.map_cons,hev,h.trace]

theorem Machine.Same.read (h : m.Same m') (off size : Nat) :
    (m.read off size).Same (m'.read off size) := h.log rfl

theorem Machine.Same.insert (h : m.Same m') (localtime : Int → Tm) (src dst : InAddr) (bytes : U32)
    (info : NfTimeInfo) :
    (m.insert localtime src dst bytes info).Same (m'.insert localtime src dst bytes info) where
  globals := by rw [Machine.insert_globals,h.globals,Machine.insert_globals]
  templateTable := h.templateTable
  sourceTable := h.sourceTable
  stack := h.stack
  trace := by simp only [Machine.insert_trace,List.map_cons,h.trace]

theorem Machine.Same.checkSource (h : m.Same m') (e : Exporter) (slot : Int) :
    (checkSource e slot m).Same (checkSource e slot m') := by
  rw [Flowstatd.checkSource,Flowstatd.checkSource,h.sourceTable]
  split
  · split_ifs
    · exact h.log rfl
    · exact h
  · exact ⟨h.globals,h.templateTable,rfl,h.stack,h.trace⟩

end Same

section Templates

variable {p p' : Packet} {trace : List Event} {template n : Nat}

theorem fieldsAt_agree (h : p.AgreesOn p' trace) (hreads : specifierReads template n ⊆ trace) :
    fieldsAt p (template + 4) n = fieldsAt p' (template + 4) n := by
  apply List.map_congr_left
  intro i hi
  have hmem {ev : Event} (hev : ev ∈ [.read (template + 4 + 4 * i) 2,
      .read (template + 4 + 4 * i + 2) 2]) : ev ∈ trace :=
    hreads (List.mem_flatMap.mpr ⟨i,hi,hev⟩)
  rw [h.ntohs (hmem (by simp)),h.ntohs (hmem (by simp))]

private theorem subset_checkSource (e : Exporter) (slot : Int) (m : Machine) :
    m.trace ⊆ (checkSource e slot m).trace := by
  rcases checkSource_trace e slot m with h | h <;> rw [h]
  · exact List.Subset.refl _
  · exact List.subset_cons_self _ _

theorem subset_saveTemplate (p : Packet) (e : Exporter) (template : Nat) (m : Machine) :
    m.trace ⊆ (saveTemplate p e template m).1.trace := by
  rw [saveTemplate_eq]
  intro ev hev
  apply List.mem_append_right
  apply List.mem_cons_of_mem
  apply subset_checkSource
  exact List.mem_cons_of_mem _ (List.mem_cons_of_mem _ hev)

/-- Storing a template depends on its header and on the specifiers that fit the entry. -/
theorem saveTemplate_same {m m' : Machine} (hm : m.Same m') (e : Exporter) (template : Nat)
    (h : p.AgreesOn p' (saveTemplate p e template m).1.trace) :
    (saveTemplate p e template m).1.Same (saveTemplate p' e template m').1 ∧
      (saveTemplate p e template m).2 = (saveTemplate p' e template m').2 := by
  rw [saveTemplate_eq] at h
  have hheader {ev : Event} (hev : ev = .read template 2 ∨ ev = .read (template + 2) 2) :
      ev ∈ (checkSource e (templateSlot e (p.ntohs template).toNat)
        ((m.read template 2).read (template + 2) 2)).trace := by
    apply subset_checkSource
    rcases hev with rfl | rfl <;> simp
  have hid : p.ntohs template = p'.ntohs template :=
    h.ntohs (List.mem_append_right _ (List.mem_cons_of_mem _ (hheader (.inl rfl))))
  have hcount : p.ntohs (template + 2) = p'.ntohs (template + 2) :=
    h.ntohs (List.mem_append_right _ (List.mem_cons_of_mem _ (hheader (.inr rfl))))
  have hstored : storedFieldCount p template = storedFieldCount p' template := by
    rw [storedFieldCount,hcount,storedFieldCount]
  have hfields := fieldsAt_agree h (fun ev hev =>
    List.mem_append_left _ (List.mem_reverse.mpr hev))
  have hsent := fieldsAt_stored p template
  rw [hfields,hstored,fieldsAt_stored p' template] at hsent
  have hsource := ((hm.read template 2).read (template + 2) 2).checkSource e
    (templateSlot e (p'.ntohs template).toNat)
  refine ⟨?_,by rw [saveTemplate_size,saveTemplate_size,hstored]⟩
  rw [saveTemplate_eq,saveTemplate_eq,hid,hfields,hstored]
  refine ⟨hm.globals,?_,hsource.sourceTable,hm.stack,?_⟩
  · rw [hm.templateTable]
  · simp only [List.map_append,List.map_cons,hsource.trace,Event.seen,← hsent]

end Templates

/-- The position of a loop and the machine, alike on both sides. -/
def Alike (s s' : Nat × Machine) : Prop := s.1 = s'.1 ∧ s.2.Same s'.2

section Records

variable {p p' : Packet} {trace : List Event}

private theorem readVar_agree {f : FlowsetRecord} {pos : Nat} (h : p.AgreesOn p' trace)
    (hread : f.readSize ≠ 0 → .read pos f.readSize ∈ trace) (v : RecordVars) :
    readVar p pos v f = readVar p' pos v f := by
  rw [FlowsetRecord.readSize] at hread
  rw [readVar,readVar]
  cases hkind : f.kind with
  | srcAddr =>
    simp only [hkind] at hread ⊢
    rw [h.load32 (hread (by decide))]
  | dstAddr =>
    simp only [hkind] at hread ⊢
    rw [h.load32 (hread (by decide))]
  | inBytes =>
    simp only [hkind] at hread ⊢
    split_ifs at hread ⊢ with h4 h2
    · rw [h.ntohl (hread (by decide))]
    · rw [h.ntohs (hread (by decide))]
    · rfl
  | firstSwitched =>
    simp only [hkind] at hread ⊢
    rw [h.ntohl (hread (by decide))]
  | other => rfl

theorem readVars_agree {fields : List FlowsetRecord} {pos : Nat} (h : p.AgreesOn p' trace)
    (hreads : fieldReads pos fields ⊆ trace) (v : RecordVars) :
    readVars p pos v fields = readVars p' pos v fields := by
  induction fields generalizing pos v with
  | nil => rfl
  | cons f fs ih =>
    rw [fieldReads] at hreads
    obtain ⟨hfirst,hrest⟩ := List.append_subset.mp hreads
    rw [readVars,readVars,readVar_agree h ?_ v,ih hrest]
    intro hsize
    apply hfirst
    rw [if_neg hsize]
    exact List.mem_singleton_self _

/-- A record is decoded from the header times and its own fields. -/
theorem decodeRecord_same (localtime : Int → Tm) (dataBegin : Nat) (fields : List FlowsetRecord)
    {s s' : Nat × Machine} (hs : Alike s s')
    (h : p.AgreesOn p' (decodeRecord localtime p dataBegin fields s).2.trace) :
    Alike (decodeRecord localtime p dataBegin fields s)
      (decodeRecord localtime p' dataBegin fields s') := by
  obtain ⟨hpos,hm⟩ := hs
  obtain ⟨tail,-,htrace⟩ := decodeRecord_trace localtime p dataBegin fields s
  rw [htrace] at h
  have hbehind {ev : Event} (hev : ev ∈ (fieldReads (dataBegin + s.1) fields).reverse ++
      .read 8 4 :: .read 4 4 :: s.2.trace) := List.mem_append_right tail hev
  have huptime : p.ntohl 4 = p'.ntohl 4 := h.ntohl (hbehind (by simp))
  have hsecs : p.ntohl 8 = p'.ntohl 8 := h.ntohl (hbehind (by simp))
  have hvars : recordVars p (dataBegin + s.1) (s.2.stack 0) fields =
      recordVars p' (dataBegin + s'.1) (s'.2.stack 0) fields := by
    rw [recordVars,readVars_agree h (fun ev hev => hbehind (by simp [hev])),hpos,hm.stack,recordVars]
  refine ⟨by rw [decodeRecord_pos,decodeRecord_pos,hpos],?_⟩
  rw [decodeRecord_eq,decodeRecord_eq]
  simp only [hvars,huptime,hsecs]
  have hread : Machine.Same
      { s.2 with
        stack := fun n => s.2.stack (n + 1)
        trace := (fieldReads (dataBegin + s.1) fields).reverse ++
          .read 8 4 :: .read 4 4 :: s.2.trace }
      { s'.2 with
        stack := fun n => s'.2.stack (n + 1)
        trace := (fieldReads (dataBegin + s'.1) fields).reverse ++
          .read 8 4 :: .read 4 4 :: s'.2.trace } := by
    refine ⟨hm.globals,hm.templateTable,hm.sourceTable,?_,?_⟩
    · rw [hm.stack]
    · simp only [List.map_append,List.map_cons,hm.trace,hpos]
  split_ifs
  · exact hread.insert _ _ _ _ _
  · exact hread

end Records

section Loops

variable {p p' : Packet}

/-- The packets agree on what has been read in a loop. -/
def AgreeSoFar (p p' : Packet) (s : Nat × Machine) : Prop := p.AgreesOn p' s.2.trace

private theorem agrees_before {m m' : Machine} (h : m.Extends m') (hm : p.AgreesOn p' m'.trace) :
    p.AgreesOn p' m.trace := hm.subset h.subset

private theorem agreeSoFar_before (s t : Nat × Machine) (h : s.2.Extends t.2)
    (ht : AgreeSoFar p p' t) : AgreeSoFar p p' s := agrees_before h ht

theorem templateLoop_tracks (sourceIp : InAddr) {flowset : Nat}
    (hlen : flowSetLength p flowset = flowSetLength p' flowset) :
    Tracks (AgreeSoFar p p') Alike
      (templateLoop p (exporterOf sourceIp p) flowset)
      (templateLoop p' (exporterOf sourceIp p') flowset) := by
  apply tracks_whileLoop agreeSoFar_before (templateLoop_grows p _ flowset)
  · rintro s s' ⟨hpos,-⟩ -
    rw [hpos,hlen]
  · apply tracks_finished
    rintro s s' ⟨hpos,hm⟩ h
    have hsource : p.ntohl 16 = p'.ntohl 16 :=
      h.ntohl (subset_saveTemplate _ _ _ _ (List.mem_cons_self))
    have hexporter : exporterOf sourceIp p = exporterOf sourceIp p' := by
      rw [exporterOf,hsource,exporterOf]
    obtain ⟨hsame,hsize⟩ := saveTemplate_same (hm.read 16 4) _ _ h
    rw [hexporter,hpos] at hsame hsize
    exact ⟨by rw [hexporter,hpos,hsize],by rw [hexporter,hpos]; exact hsame⟩

theorem recordLoop_tracks (localtime : Int → Tm) (dataBegin dataLen : Nat)
    (entry : TemplateTableEntry) :
    Tracks (AgreeSoFar p p') Alike
      (recordLoop localtime p dataBegin dataLen entry)
      (recordLoop localtime p' dataBegin dataLen entry) := by
  apply tracks_whileLoop agreeSoFar_before (recordLoop_grows localtime p _ _ _)
  · rintro s s' ⟨hpos,-⟩ -
    rw [hpos]
  · exact tracks_finished fun s s' hs h => decodeRecord_same localtime dataBegin entry.fields hs h

private theorem handleData_extends (localtime : Int → Tm) (p : Packet) (e : Exporter)
    (flowset n : Nat) (m : Machine) : m.Extends (handleData localtime p e flowset n m).state := by
  have hreads : m.Extends ((m.read (flowset + 2) 2).read flowset 2) :=
    (m.extends_read _ _).trans (Machine.extends_read _ _ _)
  by_cases hnone : (m.templateTable (templateSlot e (flowSetId p flowset))).templateType = .none
  · rw [handleData_none localtime p e flowset n hnone]
    exact hreads
  · rw [handleData_some localtime p e flowset n hnone,Outcome.state_map]
    exact (hreads.trans (Machine.extends_log _ _)).trans
      ((recordLoop_grows localtime p (flowset + 4) (flowSetLength p flowset)
        (m.templateTable (templateSlot e (flowSetId p flowset)))).start n (0,_))

/-- A data flowset, once its id is known. -/
theorem handleData_tracks (localtime : Int → Tm) (e : Exporter) {flowset : Nat}
    (hid : flowSetId p flowset = flowSetId p' flowset) :
    Tracks (fun m => p.AgreesOn p' m.trace) Machine.Same (handleData localtime p e flowset)
      (handleData localtime p' e flowset) := by
  intro n m m' hm h
  have htable := hm.templateTable
  by_cases hnone : (m.templateTable (templateSlot e (flowSetId p flowset))).templateType = .none
  · have hnone' := hnone
    rw [htable,hid] at hnone'
    rw [handleData_none localtime p e flowset n hnone,handleData_none localtime p' e flowset n hnone']
    exact .finished ((hm.read _ _).read _ _)
  · have hsome := hnone
    rw [htable,hid] at hsome
    rw [handleData_some localtime p e flowset n hnone] at h ⊢
    rw [handleData_some localtime p' e flowset n hsome]
    rw [Outcome.state_map] at h
    have hstart : p.AgreesOn p' (dataStart p e flowset m).trace :=
      agrees_before ((recordLoop_grows localtime p (flowset + 4) (flowSetLength p flowset)
        (m.templateTable (templateSlot e (flowSetId p flowset)))).start n (0,_)) h
    have hlen : flowSetLength p flowset = flowSetLength p' flowset := by
      rw [flowSetLength,hstart.ntohs (by simp [dataStart]),flowSetLength]
    have hentered : (dataStart p e flowset m).Same (dataStart p' e flowset m') := by
      rw [dataStart,dataStart,hid,htable]
      exact ((hm.read _ _).read _ _).log rfl
    have hloop : Tracks (AgreeSoFar p p') Alike
        (recordLoop localtime p (flowset + 4) (flowSetLength p flowset)
          (m.templateTable (templateSlot e (flowSetId p flowset))))
        (recordLoop localtime p' (flowset + 4) (flowSetLength p flowset)
          (m.templateTable (templateSlot e (flowSetId p flowset)))) :=
      recordLoop_tracks localtime _ _ _
    rw [← htable,← hid,← hlen]
    exact (hloop n (0,dataStart p e flowset m) (0,dataStart p' e flowset m') ⟨rfl,hentered⟩ h).map
      fun _ _ hs => hs.2

theorem handleFlowset_tracks (localtime : Int → Tm) (sourceIp : InAddr) {flowset : Nat}
    (hid : flowSetId p flowset = flowSetId p' flowset) :
    Tracks (fun m => p.AgreesOn p' m.trace) Machine.Same
      (handleFlowset localtime p (exporterOf sourceIp p) flowset)
      (handleFlowset localtime p' (exporterOf sourceIp p') flowset) := by
  intro n m m' hm h
  by_cases h0 : flowSetId p flowset = 0
  · have h0' := hid ▸ h0
    rw [handleFlowset_template localtime p _ flowset h0] at h ⊢
    rw [handleFlowset_template localtime p' _ flowset h0']
    rw [Outcome.state_map] at h
    have hstart : p.AgreesOn p' (m.read (flowset + 2) 2).trace :=
      agrees_before ((templateLoop_grows p (exporterOf sourceIp p) flowset).start n (0,_)) h
    have hlen : flowSetLength p flowset = flowSetLength p' flowset := by
      rw [flowSetLength,hstart.ntohs (by simp),flowSetLength]
    exact (templateLoop_tracks sourceIp hlen n (0,m.read (flowset + 2) 2)
      (0,m'.read (flowset + 2) 2) ⟨rfl,hm.read _ _⟩ h).map fun _ _ hs => hs.2
  · by_cases h255 : 255 < flowSetId p flowset
    · have h255' := hid ▸ h255
      rw [handleFlowset_data localtime p _ flowset h255] at h ⊢
      rw [handleFlowset_data localtime p' _ flowset h255']
      have hstart := agrees_before (handleData_extends localtime p _ flowset n (m.read 16 4)) h
      have hexporter : exporterOf sourceIp p = exporterOf sourceIp p' := by
        rw [exporterOf,hstart.ntohl (by simp),exporterOf]
      rw [← hexporter]
      exact handleData_tracks localtime _ hid n _ _ (hm.read 16 4) h
    · have h0' := hid ▸ h0
      have h255' := hid ▸ h255
      rw [handleFlowset_other localtime p _ flowset h0 (by omega),
        handleFlowset_other localtime p' _ flowset h0' (by omega)]
      exact .finished hm

theorem flowsetRound_tracks (localtime : Int → Tm) (sourceIp : InAddr) :
    Tracks (AgreeSoFar p p') Alike (flowsetRound localtime p (exporterOf sourceIp p))
      (flowsetRound localtime p' (exporterOf sourceIp p')) := by
  refine Tracks.bind (E := fun a b => a.2.Extends b.2) ?_ agreeSoFar_before
    (fun s => s.2.extends_read _ _) ?_
  · intro n s s' hs h
    obtain ⟨hpos,hm⟩ := hs
    simp only [AgreeSoFar,Outcome.state_map] at h
    have hstart := agrees_before
      ((handleFlowset_grows localtime p (exporterOf sourceIp p) s.1).start n _) h
    have hid : flowSetId p s.1 = flowSetId p' s.1 := by
      rw [flowSetId,hstart.ntohs (by simp),flowSetId]
    have hflowset := handleFlowset_tracks localtime sourceIp hid n _ _ (hm.read s.1 2) h
    dsimp only
    rw [← hpos]
    exact hflowset.map fun _ _ ht => ⟨rfl,ht⟩
  · intro s s' hs h
    obtain ⟨hpos,hm⟩ := hs
    have hlen : flowSetLength p s.1 = flowSetLength p' s.1 := by
      rw [flowSetLength,h.ntohs List.mem_cons_self,flowSetLength]
    rw [← hpos]
    exact ⟨by rw [hlen],hm.read _ _⟩

theorem flowsetLoop_tracks (localtime : Int → Tm) (sourceIp : InAddr) :
    Tracks (AgreeSoFar p p') Alike (flowsetLoop localtime p (exporterOf sourceIp p))
      (flowsetLoop localtime p' (exporterOf sourceIp p')) := by
  refine tracks_whileLoop (E := fun a b => a.2.Extends b.2) agreeSoFar_before
    (whileLoop_grows (fun _ => .refl _) (fun _ _ _ => .trans) (flowsetRound_steady localtime p _)
      (flowsetRound_grows localtime p _)) ?_ (flowsetRound_tracks localtime sourceIp)
  intro s s' hs h
  rw [hs.1,h.len]

/-- The handler does with two packets the same if they agree on what it reads of the first. -/
theorem addFlowDataV9Impl_local (localtime : Int → Tm) (sourceIp : InAddr) (fuel : Nat)
    {m m' : Machine} (hm : m.Same m')
    (h : p.AgreesOn p' (addFlowDataV9Impl localtime p sourceIp fuel m).state.trace) :
    (addFlowDataV9Impl localtime p sourceIp fuel m).Related Machine.Same
      (addFlowDataV9Impl localtime p' sourceIp fuel m') := by
  rw [addFlowDataV9Impl,Outcome.state_map] at h
  exact (flowsetLoop_tracks localtime sourceIp fuel (nfV9HeaderSize,m) (nfV9HeaderSize,m')
    ⟨rfl,hm⟩ h).map fun _ _ hs => hs.2

end Loops

end Flowstatd
