import Flowstatd.Netflow.ReferenceDecoder
import Flowstatd.Netflow.Termination

/-!
# The version 9 handler decodes well-formed datagrams

Level by level, from field specifiers and field values up to the flowset loop: on the bytes of a
well-formed datagram the handler does what the reference decoder says.
-/

namespace Flowstatd

open Framework

section Templates

variable {p : Packet} {e : Exporter}

@[simp] theorem FlowsetRecord.encode_length (f : FlowsetRecord) : f.encode.length = 4 := by
  simp [FlowsetRecord.encode]

theorem TemplateRecord.encode_length (t : TemplateRecord) :
    t.encode.length = 4 + 4 * t.fields.length := by
  simp only [TemplateRecord.encode,List.length_append,beBytes_length,
    flatMap_length FlowsetRecord.encode_length]

private theorem fieldsAt_cons (p : Packet) (pos n : Nat) :
    fieldsAt p pos (n + 1) = ⟨p.ntohs pos,p.ntohs (pos + 2)⟩ :: fieldsAt p (pos + 4) n := by
  simp only [fieldsAt,List.range_succ_eq_map,List.map_cons,List.map_map,Nat.mul_zero,Nat.add_zero,
    List.cons.injEq,true_and]
  apply List.map_congr_left
  intro i _
  simp only [Function.comp_apply,Nat.mul_succ,FlowsetRecord.mk.injEq]
  constructor <;> congr 1 <;> omega

theorem fieldsAt_encoded {pos : Nat} {fields : List FlowsetRecord}
    (h : Holds p.mem pos (fields.flatMap FlowsetRecord.encode)) :
    fieldsAt p pos fields.length = fields := by
  induction fields generalizing pos with
  | nil => rfl
  | cons f fs ih =>
    rw [List.flatMap_cons,holds_append,FlowsetRecord.encode_length] at h
    obtain ⟨hf,hfs⟩ := h
    rw [FlowsetRecord.encode,holds_append,beBytes_length] at hf
    rw [List.length_cons,fieldsAt_cons,ih hfs,Packet.ntohs_word hf.1,Packet.ntohs_word hf.2]

/-- The template that the header at offset `template` announces. -/
def templateRecordAt (p : Packet) (template : Nat) : TemplateRecord :=
  ⟨(p.ntohs template).toNat,fieldsAt p (template + 4) (p.ntohs (template + 2)).toNat⟩

theorem templateRecordAt_encoded {pos : Nat} {t : TemplateRecord} (hid : t.templateId < 2 ^ 16)
    (hcount : t.fields.length < 2 ^ 16) (h : Holds p.mem pos t.encode) :
    templateRecordAt p pos = t := by
  rw [TemplateRecord.encode,holds_append,holds_append] at h
  obtain ⟨⟨hidMem,hcountMem⟩,hfields⟩ := h
  simp only [List.length_append,beBytes_length] at hcountMem hfields
  rw [templateRecordAt,Packet.ntohs_encoded hidMem hid,Packet.ntohs_encoded hcountMem hcount,
    fieldsAt_encoded hfields]

theorem storeTemplate_record (p : Packet) (e : Exporter) (table : TemplateTable) (template : Nat) :
    storeTemplate p e table template =
      Function.update table (templateSlot e (templateRecordAt p template).templateId)
        (.ofFields ((templateRecordAt p template).fields.take nfV9MaxFieldsInTemplate)) := by
  rw [storeTemplate,fieldsAt_stored]
  rfl

/-- The template loop skips what is stored of a template. -/
theorem templateSize_eq (p : Packet) (template : Nat) :
    templateSize p template =
      4 + 4 * min (templateRecordAt p template).fields.length nfV9MaxFieldsInTemplate := by
  rw [templateSize,storedFieldCount,templateRecordAt,fieldsAt_length]
  split_ifs <;> omega

/-- Where every template fits a table entry, the template loop meets those of the flowset one after
another. -/
theorem templateOffsets_listed (flowset o : Nat) {records : List TemplateRecord}
    (hids : ∀ t ∈ records, t.templateId < 2 ^ 16)
    (hcount : ∀ t ∈ records, t.fields.length ≤ nfV9MaxFieldsInTemplate)
    (h : Holds p.mem (flowset + 4 + o) (records.flatMap TemplateRecord.encode))
    (hlen : o + (records.flatMap TemplateRecord.encode).length + 4 = flowSetLength p flowset) :
    (templateOffsets p flowset o).map (fun o => templateRecordAt p (flowset + 4 + o)) =
      records := by
  induction records generalizing o with
  | nil =>
    rw [templateOffsets,if_neg (by simp at hlen; omega)]
    rfl
  | cons t records ih =>
    rw [List.flatMap_cons,holds_append,TemplateRecord.encode_length] at h
    rw [List.flatMap_cons,List.length_append,TemplateRecord.encode_length] at hlen
    obtain ⟨hid,hids⟩ := List.forall_mem_cons.mp hids
    obtain ⟨hle,hcount⟩ := List.forall_mem_cons.mp hcount
    have hle' : t.fields.length ≤ 128 := hle
    have hrecord := templateRecordAt_encoded hid (by omega) h.1
    have hsize : templateSize p (flowset + 4 + o) = 4 + 4 * t.fields.length := by
      rw [templateSize_eq,hrecord,Nat.min_eq_left hle]
    have hnext : flowset + 4 + o + (4 + 4 * t.fields.length) =
        flowset + 4 + (o + (4 + 4 * t.fields.length)) := by omega
    rw [templateOffsets,if_pos (by omega),List.map_cons,hrecord,hsize,
      ih _ hids hcount (hnext ▸ h.2) (by omega)]

/-- The template loop stores each template of a flowset once, in order. -/
private theorem templateOffsets_encoded (flowset : Nat) {records : List TemplateRecord}
    (table : TemplateTable) (hwf : ∀ t ∈ records, t.WellFormed)
    (h : Holds p.mem (flowset + 4) (records.flatMap TemplateRecord.encode))
    (hlen : (records.flatMap TemplateRecord.encode).length + 4 = flowSetLength p flowset) :
    (templateOffsets p flowset 0).foldl
        (fun table o => storeTemplate p e table (flowset + 4 + o)) table =
      records.foldl (fun table t =>
        Function.update table (templateSlot e t.templateId) (.ofFields t.fields)) table := by
  have hmet := templateOffsets_listed flowset 0
    (fun t ht => Nat.lt_of_le_of_lt (hwf t ht).id_le (by decide)) (fun t ht => (hwf t ht).count) h
    (by omega)
  calc (templateOffsets p flowset 0).foldl
        (fun table o => storeTemplate p e table (flowset + 4 + o)) table
      = ((templateOffsets p flowset 0).map fun o => templateRecordAt p (flowset + 4 + o)).foldl
          (fun table t => Function.update table (templateSlot e t.templateId)
            (.ofFields (t.fields.take nfV9MaxFieldsInTemplate))) table := by
        rw [List.foldl_map]
        simp only [storeTemplate_record]
    _ = records.foldl (fun table t => Function.update table (templateSlot e t.templateId)
          (.ofFields (t.fields.take nfV9MaxFieldsInTemplate))) table := by rw [hmet]
    _ = records.foldl (fun table t =>
          Function.update table (templateSlot e t.templateId) (.ofFields t.fields)) table := by
        apply List.foldl_ext
        intro table t ht
        rw [List.take_of_length_le (hwf t ht).count]

end Templates

section Slots

/-- Within 256..319 the templates of one exporter do not collide. -/
theorem templateSlot_injective (e : Exporter) {id id' : Nat} (h : 256 ≤ id ∧ id ≤ 319)
    (h' : 256 ≤ id' ∧ id' ≤ 319) (heq : templateSlot e id = templateSlot e id') : id = id' := by
  have hhash (n : Nat) (hn : 256 ≤ n ∧ n ≤ 319) : hashingTemplateId n = (n : Int) - 256 :=
    Int.tmod_eq_of_lt (by omega) (by simp only [nfV9TemplatesPerSource]; omega)
  rw [templateSlot,templateSlot,hhash id h,hhash id' h'] at heq
  omega

theorem Reference.Agrees.store {e : Exporter} {r : Reference} (h : r.Agrees e)
    {t : TemplateRecord} (ht : t.WellFormed) : (r.store e t).Agrees e := by
  intro id fields hid
  by_cases heq : id = t.templateId
  · subst heq
    simp only [Reference.store,Layouts.store,Function.update_self,Option.some.injEq] at hid ⊢
    subst hid
    exact ⟨ht,rfl⟩
  · simp only [Reference.store,Layouts.store,ne_eq,heq,not_false_eq_true,
      Function.update_of_ne] at hid ⊢
    obtain ⟨hwf,htable⟩ := h id fields hid
    have hslot : templateSlot e id ≠ templateSlot e t.templateId := fun hs =>
      heq (templateSlot_injective e ⟨hwf.id_ge,hwf.id_le⟩ ⟨ht.id_ge,ht.id_le⟩ hs)
    rw [Function.update_of_ne hslot]
    exact ⟨hwf,htable⟩

theorem Reference.foldl_store (e : Exporter) (r : Reference) (records : List TemplateRecord) :
    records.foldl (Reference.store e) r =
      { r with
        layouts := records.foldl Layouts.store r.layouts
        templateTable := records.foldl (fun table t =>
          Function.update table (templateSlot e t.templateId) (.ofFields t.fields))
          r.templateTable } := by
  induction records generalizing r with
  | nil => rfl
  | cons t records ih => rw [List.foldl_cons,ih]; rfl

theorem Reference.Agrees.foldl_store {e : Exporter} {r : Reference} (h : r.Agrees e)
    {records : List TemplateRecord} (hwf : ∀ t ∈ records, t.WellFormed) :
    (records.foldl (Reference.store e) r).Agrees e := by
  induction records generalizing r with
  | nil => exact h
  | cons t records ih =>
    exact ih (h.store (hwf t List.mem_cons_self)) fun t ht => hwf t (List.mem_cons_of_mem _ ht)

end Slots

section Records

variable {p : Packet}

/-- A variable that only the fields selected by `sel` write holds what the last of them loaded. -/
private theorem readVars_last {get : RecordVars → U32} {sel : FlowsetRecord → Bool}
    {load : Nat → FlowsetRecord → U32}
    (hread : ∀ pos v f, get (readVar p pos v f) = if sel f then load pos f else get v)
    (record : List (FlowsetRecord × List Byte)) (pos : Nat) (v : RecordVars)
    (hmem : Holds p.mem pos (record.flatMap Prod.snd))
    (hlen : ∀ fv ∈ record, fv.2.length = fv.1.length.toNat) :
    match record.reverse.find? fun fv => sel fv.1 with
    | none => get (readVars p pos v (record.map Prod.fst)) = get v
    | some fv => ∃ off, Holds p.mem off fv.2 ∧
        get (readVars p pos v (record.map Prod.fst)) = load off fv.1 := by
  induction record generalizing pos v with
  | nil => rfl
  | cons fv record ih =>
    rw [List.flatMap_cons,holds_append,hlen fv List.mem_cons_self] at hmem
    have htail := ih (pos + fv.1.length.toNat) (readVar p pos v fv.1) hmem.2
      fun fv hfv => hlen fv (List.mem_cons_of_mem _ hfv)
    rw [List.reverse_cons,List.find?_append,List.map_cons,readVars]
    cases hfind : record.reverse.find? fun fv => sel fv.1 with
    | some later =>
      rw [hfind] at htail
      exact htail
    | none =>
      rw [hfind] at htail
      dsimp only at htail
      rw [htail,hread]
      by_cases hsel : sel fv.1
      · simpa [hsel] using ⟨pos,hmem.1,rfl⟩
      · simp [hsel]

theorem FitsLayout.zip {fields : List FlowsetRecord} {values : List (List Byte)}
    (h : FitsLayout fields values) :
    ∀ fv ∈ fields.zip values, fv.2.length = fv.1.length.toNat := by
  induction fields generalizing values with
  | nil => simp
  | cons f fs ih =>
    cases values with
    | nil => simp
    | cons value values =>
      obtain ⟨hhead,htail⟩ := List.cons.inj h
      rw [List.zip_cons_cons]
      exact List.forall_mem_cons.mpr ⟨hhead,ih htail⟩

theorem FitsLayout.length_eq {fields : List FlowsetRecord} {values : List (List Byte)}
    (h : FitsLayout fields values) : fields.length = values.length := by
  simpa using (congrArg List.length h).symm

theorem FitsLayout.flatten_length {fields : List FlowsetRecord} {values : List (List Byte)}
    (h : FitsLayout fields values) : values.flatten.length = fieldsLength fields := by
  rw [List.length_flatten,h,fieldsLength]

/-- What a variable written by selected fields only amounts to in an encoded record. -/
private theorem recordVars_component (get : RecordVars → U32) {sel : FlowsetRecord → Bool}
    (load : Nat → FlowsetRecord → U32) (value : List Byte → U32) {fields : List FlowsetRecord}
    {values : List (List Byte)}
    (hread : ∀ pos v f, get (readVar p pos v f) = if sel f then load pos f else get v)
    (hload : ∀ off f bs, f ∈ fields.reverse.find? sel → Holds p.mem off bs →
      bs.length = f.length.toNat → load off f = value bs)
    (hfits : FitsLayout fields values) (hsel : ∃ f ∈ fields, sel f) {pos : Nat}
    (hmem : Holds p.mem pos values.flatten) (v : RecordVars) :
    get (readVars p pos v fields) = value (valueOf sel fields values) := by
  have hfst : (fields.zip values).map Prod.fst = fields :=
    List.map_fst_zip (Nat.le_of_eq hfits.length_eq)
  have hsnd : (fields.zip values).flatMap Prod.snd = values.flatten := by
    rw [List.flatMap_def,List.map_snd_zip (Nat.le_of_eq hfits.length_eq.symm)]
  have hlast := readVars_last hread (fields.zip values) pos v (hsnd ▸ hmem) hfits.zip
  have hfind : fields.reverse.find? sel =
      ((fields.zip values).reverse.find? fun fv => sel fv.1).map Prod.fst := by
    rw [← hfst,← List.map_reverse,List.find?_map]
    simp only [hfst,Function.comp_def]
  cases hfound : (fields.zip values).reverse.find? fun fv => sel fv.1 with
  | none =>
    obtain ⟨f,hf,hsel⟩ := hsel
    rw [hfound,Option.map_none,List.find?_eq_none] at hfind
    exact absurd hsel (hfind f (List.mem_reverse.mpr hf))
  | some fv =>
    rw [hfound,hfst] at hlast
    obtain ⟨off,hoff,hget⟩ := hlast
    have hin : fv ∈ fields.zip values := List.mem_reverse.mp (List.mem_of_find?_eq_some hfound)
    rw [hfound,Option.map_some] at hfind
    rw [hget,hload off fv.1 fv.2 (by rw [hfind]; rfl) hoff (hfits.zip fv hin),valueOf,hfound]

private theorem setWidth_ntohs {off : Nat} {bs : List Byte} (h : Holds p.mem off bs)
    (hlen : bs.length = 2) : (p.ntohs off).setWidth 32 = BitVec.ofNat 32 (beNat bs) := by
  have hlt := beNat_lt bs
  rw [hlen] at hlt
  rw [Packet.ntohs_of_holds h hlen]
  apply BitVec.eq_of_toNat_eq
  simp only [BitVec.toNat_setWidth,BitVec.toNat_ofNat]
  omega

theorem readVar_eq (pos : Nat) (v : RecordVars) (f : FlowsetRecord) :
    readVar p pos v f =
      { srcAddr := if f.kind = .srcAddr then p.load32 pos else v.srcAddr
        dstAddr := if f.kind = .dstAddr then p.load32 pos else v.dstAddr
        flowBytes :=
          if f.isCounter then
            if f.length = 4 then p.ntohl pos else (p.ntohs pos).setWidth 32
          else v.flowBytes
        firstPacketTime := if f.kind = .firstSwitched then p.ntohl pos else v.firstPacketTime } := by
  unfold readVar FlowsetRecord.isCounter
  cases f.kind with
  | inBytes =>
    simp only [reduceCtorEq,ite_false,true_and,decide_eq_true_eq]
    split_ifs <;> simp_all
  | _ => simp

private theorem fieldOfKind_spec {k : FieldKind} {fields : List FlowsetRecord}
    (h : ∃ f, fieldOfKind k fields = some f ∧ f.length = 4) :
    (∃ f ∈ fields, decide (f.kind = k) = true) ∧
      ∀ f ∈ fields.reverse.find? fun f => f.kind = k, f.length = 4 := by
  obtain ⟨f,hf,hlen⟩ := h
  have hsel := List.find?_some (p := fun f : FlowsetRecord => decide (f.kind = k)) hf
  refine ⟨⟨f,List.mem_reverse.mp (List.mem_of_find?_eq_some hf),hsel⟩,?_⟩
  intro f' hf'
  rw [← Option.some.inj (hf.symm.trans hf')]
  exact hlen

/-- The field loop collects the values of a record whose template is well formed. -/
theorem recordVars_encoded {t : TemplateRecord} (ht : t.WellFormed) {values : List (List Byte)}
    (hfits : FitsLayout t.fields values) {pos : Nat} (hmem : Holds p.mem pos values.flatten)
    (junk : U32) : recordVars p pos junk t.fields = recordValues t.fields values := by
  obtain ⟨hsrc,hsrc4⟩ := fieldOfKind_spec ht.srcAddr
  obtain ⟨hdst,hdst4⟩ := fieldOfKind_spec ht.dstAddr
  obtain ⟨hfirst,hfirst4⟩ := fieldOfKind_spec ht.firstSwitched
  ext1
  · refine recordVars_component RecordVars.srcAddr (fun off _ => p.load32 off)
      (fun bs => BitVec.ofNat 32 (leNat bs)) (fun pos v f => by simp [readVar_eq]) ?_ hfits hsrc
      hmem _
    intro off f bs hf hoff hlen
    exact Packet.load32_of_holds hoff (by rw [hlen,hsrc4 f hf]; rfl)
  · refine recordVars_component RecordVars.dstAddr (fun off _ => p.load32 off)
      (fun bs => BitVec.ofNat 32 (leNat bs)) (fun pos v f => by simp [readVar_eq]) ?_ hfits hdst
      hmem _
    intro off f bs hf hoff hlen
    exact Packet.load32_of_holds hoff (by rw [hlen,hdst4 f hf]; rfl)
  · refine recordVars_component RecordVars.flowBytes
      (fun off f => if f.length = 4 then p.ntohl off else (p.ntohs off).setWidth 32)
      (fun bs => BitVec.ofNat 32 (beNat bs)) (fun pos v f => by simp [readVar_eq]) ?_ hfits
      ht.inBytes hmem _
    intro off f bs hf hoff hlen
    have hcounter : f.kind = .inBytes ∧ (f.length = 4 ∨ f.length = 2) :=
      of_decide_eq_true (List.find?_some (p := FlowsetRecord.isCounter) hf)
    rcases hcounter.2 with h4 | h2
    · rw [if_pos h4]
      exact Packet.ntohl_of_holds hoff (by rw [hlen,h4]; rfl)
    · rw [if_neg (by rw [h2]; decide)]
      exact setWidth_ntohs hoff (by rw [hlen,h2]; rfl)
  · refine recordVars_component RecordVars.firstPacketTime (fun off _ => p.ntohl off)
      (fun bs => BitVec.ofNat 32 (beNat bs)) (fun pos v f => by simp [readVar_eq]) ?_ hfits hfirst
      hmem _
    intro off f bs hf hoff hlen
    exact Packet.ntohl_of_holds hoff (by rw [hlen,hfirst4 f hf]; rfl)

end Records

section Data

variable (localtime : Int → Tm) {p : Packet} {h : HeaderV9}

/-- The two header words that the record loop reads are the sender's clock. -/
structure HeaderTimes (p : Packet) (h : HeaderV9) : Prop where
  sysUptime : p.ntohl 4 = h.sysUptime
  unixSecs : p.ntohl 8 = h.unixSecs

private theorem length_le_fieldsLength {f : FlowsetRecord} {fields : List FlowsetRecord}
    (hf : f ∈ fields) : f.length.toNat ≤ fieldsLength fields := by
  induction hf with
  | head => exact Nat.le_add_right _ _
  | tail _ _ ih => exact Nat.le_add_left_of_le ih

private theorem add_length_le_fieldsLength {f g : FlowsetRecord} {fields : List FlowsetRecord}
    (hf : f ∈ fields) (hg : g ∈ fields) (hne : f ≠ g) :
    f.length.toNat + g.length.toNat ≤ fieldsLength fields := by
  induction hf with
  | head fields =>
    have htail := (List.mem_cons.mp hg).resolve_left (Ne.symm hne)
    exact Nat.add_le_add_left (length_le_fieldsLength htail) _
  | @tail x fields hmem ih =>
    rcases List.mem_cons.mp hg with rfl | htail
    · have hle := length_le_fieldsLength hmem
      rw [fieldsLength_cons]
      omega
    · exact Nat.le_add_left_of_le (ih htail)

/-- A record is longer than the flowset header and the padding together, so the loop cannot mistake
these for another record. -/
theorem TemplateRecord.WellFormed.eight_le {t : TemplateRecord} (ht : t.WellFormed) :
    8 ≤ fieldsLength t.fields := by
  obtain ⟨f,hf,hflen⟩ := ht.srcAddr
  obtain ⟨g,hg,hglen⟩ := ht.dstAddr
  have hfk := List.find?_some (p := fun f : FlowsetRecord => decide (f.kind = .srcAddr)) hf
  have hgk := List.find?_some (p := fun f : FlowsetRecord => decide (f.kind = .dstAddr)) hg
  have hne : f ≠ g := by
    rintro rfl
    simp only [decide_eq_true_eq] at hfk hgk
    rw [hfk] at hgk
    exact FieldKind.noConfusion hgk
  have hle := add_length_le_fieldsLength
    (List.mem_reverse.mp (List.mem_of_find?_eq_some hf))
    (List.mem_reverse.mp (List.mem_of_find?_eq_some hg)) hne
  rw [hflen,hglen] at hle
  exact hle

private theorem decodeRecord_encoded {t : TemplateRecord} (ht : t.WellFormed)
    (hh : HeaderTimes p h) {values : List (List Byte)} (hfits : FitsLayout t.fields values)
    {dataBegin : Nat} {s : Nat × Machine} (hmem : Holds p.mem (dataBegin + s.1) values.flatten) :
    (decodeRecord localtime p dataBegin t.fields s).2.globals =
      Reference.book localtime h t.fields s.2.globals values := by
  rw [decodeRecord_globals,recordVars_encoded ht hfits hmem,bookVars,Reference.book,hh.sysUptime,
    hh.unixSecs]

/-- The record loop books each record of the flowset once, in order, and stops at the padding. -/
private theorem recordLoop_encoded {t : TemplateRecord} (ht : t.WellFormed)
    (hh : HeaderTimes p h) {dataBegin : Nat} (dataLen : Nat) {padding : List Byte}
    (hpad : padding.length ≤ 3) (records : List (List (List Byte))) (s : Nat × Machine)
    (hfits : ∀ values ∈ records, FitsLayout t.fields values)
    (hmem : Holds p.mem (dataBegin + s.1) (records.flatMap List.flatten))
    (hlen : s.1 + (records.flatMap List.flatten).length + 4 + padding.length = dataLen) :
    ∃ s', Ends (recordLoop localtime p dataBegin dataLen (.ofFields t.fields)) s s' ∧
      s'.2.globals = records.foldl (Reference.book localtime h t.fields) s.2.globals := by
  have hlong := ht.eight_le
  have hrecord : (TemplateTableEntry.ofFields t.fields).recordLength.toNat =
      fieldsLength t.fields := by
    have hsize := ht.size
    rw [ofFields_recordLength]
    omega
  induction records generalizing s with
  | nil =>
    refine ⟨s,ends_exit ?_,rfl⟩
    simp only [List.flatMap_nil,List.length_nil] at hlen
    omega
  | cons values records ih =>
    have hvalues := hfits values List.mem_cons_self
    have hflat := hvalues.flatten_length
    rw [List.flatMap_cons,holds_append,hflat] at hmem
    rw [List.flatMap_cons,List.length_append,hflat] at hlen
    have hnext := ih (decodeRecord localtime p dataBegin t.fields s)
      (fun values hv => hfits values (List.mem_cons_of_mem _ hv))
      (by rw [decodeRecord_pos,← Nat.add_assoc]; exact hmem.2)
      (by rw [decodeRecord_pos]; omega)
    obtain ⟨s',hend,hglobals⟩ := hnext
    refine ⟨s',ends_step (steady_finished _) ?_ (ends_finished.mpr rfl) hend,?_⟩
    · omega
    · rw [hglobals,decodeRecord_encoded localtime ht hh hvalues hmem.1,List.foldl_cons]

end Data

section Walk

variable (localtime : Int → Tm) {p : Packet} {h : HeaderV9} {e : Exporter}

/-- The handler's state shows what the reference decoder knows. -/
structure Refines (e : Exporter) (m : Machine) (r : Reference) : Prop where
  templateTable : m.templateTable = r.templateTable
  globals : m.globals = r.globals
  agrees : r.Agrees e

private theorem templates_refines {m : Machine} {r : Reference} (hr : Refines e m r)
    {flowset : Nat} {records : List TemplateRecord} (hf : ∀ t ∈ records, t.WellFormed)
    (hid : flowSetId p flowset = 0)
    (hlen : flowSetLength p flowset = 4 + (Flowset.templates records).body.length)
    (hmem : Holds p.mem (flowset + 4) (Flowset.templates records).body) :
    ∃ m', Ends (handleFlowset localtime p e flowset) m m' ∧
      Refines e m' (r.step localtime h e (.templates records)) := by
  obtain ⟨m',hend⟩ := (handleFlowset_terminates_iff localtime p e flowset m).mpr
    fun hz => absurd hz.1 (by rw [hid]; exact Nat.not_lt_zero _)
  refine ⟨m',hend,?_,?_,hr.agrees.foldl_store hf⟩
  · rw [handleFlowset_ends_templateTable localtime p e flowset hend,storeFlowset,if_pos hid,
      templateOffsets_encoded flowset _ hf hmem (by rw [hlen,Flowset.body]; omega),
      Reference.step,Reference.foldl_store,hr.templateTable]
  · rw [handleFlowset_ends_template localtime p e flowset hid hend,foldl_saveAt_globals,
      Machine.read_globals,hr.globals,Reference.step,Reference.foldl_store]

private theorem data_refines (hh : HeaderTimes p h) {m : Machine} {r : Reference}
    (hr : Refines e m r) {flowset id : Nat} {records : List (List (List Byte))}
    {padding : List Byte} (hf : (Flowset.data id records padding).WellFormed r.layouts)
    (hid : flowSetId p flowset = id)
    (hlen : flowSetLength p flowset = 4 + (Flowset.data id records padding).body.length)
    (hmem : Holds p.mem (flowset + 4) (Flowset.data id records padding).body) :
    ∃ m', Ends (handleFlowset localtime p e flowset) m m' ∧
      Refines e m' (r.step localtime h e (.data id records padding)) := by
  obtain ⟨fields,hlayout,hfits,hpad⟩ := hf
  obtain ⟨ht,htable⟩ := hr.agrees id fields hlayout
  have hid255 : 255 < flowSetId p flowset := by rw [hid]; exact ht.id_ge
  have hslot : m.templateTable (templateSlot e (flowSetId p flowset)) = .ofFields fields := by
    rw [hid,hr.templateTable]
    exact htable
  rw [Flowset.body,holds_append] at hmem
  rw [Flowset.body,List.length_append] at hlen
  obtain ⟨s',hend,hglobals⟩ := recordLoop_encoded localtime ht hh (flowSetLength p flowset) hpad
    records (0,dataStart p e flowset (m.read 16 4)) hfits hmem.1 (by rw [hlen]; omega)
  have hnone : ((m.read 16 4).templateTable
      (templateSlot e (flowSetId p flowset))).templateType ≠ .none := by
    rw [Machine.read_templateTable,hslot]
    exact TemplateType.noConfusion
  have hends : Ends (handleFlowset localtime p e flowset) m s'.2 := by
    rw [handleFlowset_data localtime p e flowset hid255]
    refine (handleData_ends_iff localtime p e flowset (m := m.read 16 4) hnone).mpr ⟨s',?_,rfl⟩
    rw [Machine.read_templateTable,hslot]
    exact hend
  have hstep : r.step localtime h e (.data id records padding) =
      { r with globals := records.foldl (Reference.book localtime h fields) r.globals } := by
    simp only [Reference.step,hlayout]
  rw [hstep]
  refine ⟨s'.2,hends,?_,?_,hr.agrees⟩
  · rw [handleFlowset_ends_templateTable localtime p e flowset hends,storeFlowset,
      if_neg (by omega),hr.templateTable]
  · rw [hglobals,← hr.globals]
    rfl

/-- Handling one well-formed flowset keeps handler and reference decoder together. -/
private theorem handleFlowset_refines (hh : HeaderTimes p h) {m : Machine} {r : Reference}
    (hr : Refines e m r) {flowset : Nat} {f : Flowset} (hf : f.WellFormed r.layouts)
    (hid : flowSetId p flowset = f.id) (hlen : flowSetLength p flowset = 4 + f.body.length)
    (hmem : Holds p.mem (flowset + 4) f.body) :
    ∃ m', Ends (handleFlowset localtime p e flowset) m m' ∧
      Refines e m' (r.step localtime h e f) := by
  cases f with
  | templates records => exact templates_refines localtime hr hf hid hlen hmem
  | data id records padding => exact data_refines localtime hh hr hf hid hlen hmem
  | other flowSetId body =>
    obtain ⟨hge,hle⟩ := hf
    have hskip := handleFlowset_other localtime p e flowset (by rw [hid]; exact Nat.ne_of_gt hge)
      (by rw [hid]; exact hle)
    exact ⟨m,⟨0,by rw [hskip]⟩,hr⟩

theorem Reference.step_layouts (r : Reference) (f : Flowset) :
    (r.step localtime h e f).layouts = r.layouts.after f := by
  cases f with
  | templates records => rw [Reference.step,Reference.foldl_store]; rfl
  | other flowSetId body => rfl
  | data id records padding =>
    cases hl : r.layouts id <;> simp only [Reference.step,Layouts.after,hl]

private theorem flowset_id_lt {r : Reference} (hr : r.Agrees e) {f : Flowset}
    (hf : f.WellFormed r.layouts) : f.id < 2 ^ 16 := by
  cases f with
  | templates records => exact Nat.two_pow_pos 16
  | other flowSetId body => exact Nat.lt_of_le_of_lt hf.2 (by decide)
  | data id records padding =>
    obtain ⟨fields,hlayout,_⟩ := hf
    exact Nat.lt_of_le_of_lt (hr id fields hlayout).1.id_le (by decide)

/-- The flowset loop takes well-formed flowsets one by one and stops at the end of the packet. -/
private theorem flowsetLoop_refines (hh : HeaderTimes p h) (flowsets : List Flowset) (pos : Nat)
    (m : Machine) (r : Reference) (hr : Refines e m r) (henc : Encodable r.layouts flowsets)
    (hmem : Holds p.mem pos (flowsets.flatMap Flowset.encode))
    (hlen : pos + (flowsets.flatMap Flowset.encode).length = p.len) :
    ∃ m', Ends (flowsetLoop localtime p e) (pos,m) (p.len,m') ∧
      Refines e m' (flowsets.foldl (Reference.step localtime h e) r) := by
  induction flowsets generalizing pos m r with
  | nil =>
    refine ⟨m,?_,hr⟩
    rw [← hlen]
    exact ends_exit (Nat.not_lt.mpr (Nat.le_of_eq hlen.symm))
  | cons f flowsets ih =>
    obtain ⟨hwf,hsize,henc⟩ := henc
    have hflen : f.encode.length = 4 + f.body.length := by simp [Flowset.encode]; omega
    rw [List.flatMap_cons,holds_append,hflen] at hmem
    rw [List.flatMap_cons,List.length_append,hflen] at hlen
    obtain ⟨hf,hrest⟩ := hmem
    simp only [Flowset.encode,holds_append,List.length_append,beBytes_length] at hf
    obtain ⟨⟨hfid,hflength⟩,hbody⟩ := hf
    have hid : flowSetId p pos = f.id := Packet.ntohs_encoded hfid (flowset_id_lt hr.agrees hwf)
    have hlength : flowSetLength p pos = 4 + f.body.length := Packet.ntohs_encoded hflength hsize
    have hread : Refines e (m.read pos 2) r := ⟨hr.templateTable,hr.globals,hr.agrees⟩
    obtain ⟨m',hend,hr'⟩ := handleFlowset_refines localtime hh hread hwf hid hlength hbody
    have hround : Ends (flowsetRound localtime p e) (pos,m)
        (pos + (4 + f.body.length),m'.read (pos + 2) 2) :=
      (flowsetRound_ends_iff localtime p e).mpr ⟨m',hend,by rw [hlength]⟩
    obtain ⟨m'',hloop,hr''⟩ := ih (pos + (4 + f.body.length)) (m'.read (pos + 2) 2)
      (r.step localtime h e f) ⟨hr'.templateTable,hr'.globals,hr'.agrees⟩
      (by rw [Reference.step_layouts]; exact henc) hrest (by omega)
    refine ⟨m'',ends_step (flowsetRound_steady localtime p e) ?_ hround hloop,hr''⟩
    dsimp only
    omega

end Walk

/-- What the reference decoder makes of a datagram, from the templates known before it. -/
def reference (localtime : Int → Tm) (h : HeaderV9) (sourceIp : InAddr) (layouts : Layouts)
    (m : Machine) (flowsets : List Flowset) : Reference :=
  flowsets.foldl (Reference.step localtime h ⟨sourceIp,h.sourceId⟩)
    ⟨layouts,m.templateTable,m.globals⟩

private theorem header_encoded {p : Packet} {h : HeaderV9} (hmem : Holds p.mem 0 h.encode) :
    (p.ntohs 0).toNat = 9 ∧ HeaderTimes p h ∧ p.ntohl 16 = h.sourceId := by
  simp only [HeaderV9.encode,holds_append,List.length_append,beBytes_length] at hmem
  obtain ⟨⟨⟨⟨⟨hversion,_⟩,hup⟩,hsecs⟩,_⟩,hsource⟩ := hmem
  exact ⟨Packet.ntohs_encoded hversion (by decide),
    ⟨Packet.ntohl_word hup,Packet.ntohl_word hsecs⟩,Packet.ntohl_word hsource⟩

/-- Behind a well-formed datagram handler and reference decoder are still together. -/
theorem addFlowData_refines (localtime : Int → Tm) {h : HeaderV9} {flowsets : List Flowset}
    {p : Packet} {sourceIp : InAddr} {m : Machine} {r : Reference}
    (hmem : Holds p.mem 0 (encodeDatagram h flowsets))
    (hlen : p.len = (encodeDatagram h flowsets).length)
    (hr : Refines ⟨sourceIp,h.sourceId⟩ m r) (henc : Encodable r.layouts flowsets) :
    ∃ m', Ends (addFlowData localtime p sourceIp) m m' ∧ Refines ⟨sourceIp,h.sourceId⟩ m'
      (flowsets.foldl (Reference.step localtime h ⟨sourceIp,h.sourceId⟩) r) := by
  have hheader : h.encode.length = nfV9HeaderSize := by
    simp only [HeaderV9.encode,List.length_append,beBytes_length,nfV9HeaderSize]
  rw [encodeDatagram,holds_append,hheader,Nat.zero_add] at hmem
  rw [encodeDatagram,List.length_append,hheader] at hlen
  obtain ⟨hversion,htimes,hsource⟩ := header_encoded hmem.1
  obtain ⟨m',⟨n,hn⟩,hr'⟩ := flowsetLoop_refines localtime htimes flowsets nfV9HeaderSize
    (m.read 0 2) r ⟨hr.templateTable,hr.globals,hr.agrees⟩ henc hmem.2 hlen.symm
  refine ⟨m',⟨n,?_⟩,hr'⟩
  rw [addFlowData,if_pos hversion,addFlowDataV9Impl,exporterOf,hsource,hn,Outcome.map_finished]

/-- A well-formed datagram is handled as the reference decoder handles it. -/
theorem addFlowData_decodes (localtime : Int → Tm) (h : HeaderV9) (flowsets : List Flowset)
    (p : Packet) (sourceIp : InAddr) (m : Machine) (layouts : Layouts)
    (hmem : Holds p.mem 0 (encodeDatagram h flowsets))
    (hlen : p.len = (encodeDatagram h flowsets).length)
    (hknown : Reference.Agrees ⟨sourceIp,h.sourceId⟩ ⟨layouts,m.templateTable,m.globals⟩)
    (henc : Encodable layouts flowsets) :
    ∃ m', Ends (addFlowData localtime p sourceIp) m m' ∧
      m'.templateTable = (reference localtime h sourceIp layouts m flowsets).templateTable ∧
      m'.globals = (reference localtime h sourceIp layouts m flowsets).globals := by
  obtain ⟨m',hends,hrefines⟩ := addFlowData_refines localtime hmem hlen
    (r := ⟨layouts,m.templateTable,m.globals⟩) ⟨rfl,rfl,hknown⟩ henc
  exact ⟨m',hends,hrefines.templateTable,hrefines.globals⟩

/-- The four fields that a booking needs, and nothing else. -/
def plainTemplate : TemplateRecord := ⟨256,[⟨8,4⟩,⟨12,4⟩,⟨1,4⟩,⟨22,4⟩]⟩

/-- The template, a record of it with three bytes of padding, and an options template. -/
def plainFlowsets : List Flowset :=
  [.templates [plainTemplate],
    .data 256 [[beBytes 4 0x0a000001,beBytes 4 0x08080808,beBytes 4 1000,beBytes 4 1000]] [0,0,0],
    .other 1 [0,0,0,0]]

theorem plainTemplate_wellFormed : plainTemplate.WellFormed where
  id_ge := by decide
  id_le := by decide
  count := by decide
  size := by decide
  srcAddr := ⟨⟨8,4⟩,by decide,rfl⟩
  dstAddr := ⟨⟨12,4⟩,by decide,rfl⟩
  firstSwitched := ⟨⟨22,4⟩,by decide,rfl⟩
  inBytes := ⟨⟨1,4⟩,by decide,by decide⟩

theorem addFlowData_decodes_plain :
    ∃ m', Ends (addFlowData (fun _ => juneMorning)
        (Packet.received (encodeDatagram bootHeader plainFlowsets) (by decide) fun _ => 0)
        0x08080808) oneSubnetMachine m' ∧
      m'.templateTable = (reference (fun _ => juneMorning) bootHeader 0x08080808 (fun _ => none)
        oneSubnetMachine plainFlowsets).templateTable ∧
      m'.globals = (reference (fun _ => juneMorning) bootHeader 0x08080808 (fun _ => none)
        oneSubnetMachine plainFlowsets).globals := by
  refine addFlowData_decodes (fun _ => juneMorning) bootHeader plainFlowsets _ 0x08080808
    oneSubnetMachine (fun _ => none) (Packet.received_holds _ _ _) rfl ?_ ?_
  · exact fun id fields hid => absurd hid (by simp)
  · refine ⟨?_,by decide,⟨plainTemplate.fields,rfl,by decide,by decide⟩,by decide,
      ⟨by decide,by decide⟩,by decide,trivial⟩
    exact fun t ht => List.mem_singleton.mp ht ▸ plainTemplate_wellFormed

end Flowstatd
