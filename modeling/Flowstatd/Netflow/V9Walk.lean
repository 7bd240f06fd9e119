import Flowstatd.Netflow.V9Steps

/-!
# The walk over a version 9 datagram

How far the loops of `_InsertFlowEntry` get, and with which template table, is a matter of the
packet and of the table before it. The walk computes both from the bytes alone; the loops of the
handler are then compared with it.
-/

namespace Flowstatd

open Framework

/-- The size of the template at offset `template` as `_SaveTemplate` returns it. -/
def templateSize (p : Packet) (template : Nat) : Nat := 4 + 4 * storedFieldCount p template

/-- The offsets, from `o` on, at which the template loop finds a template. -/
def templateOffsets (p : Packet) (flowset o : Nat) : List Nat :=
  if o + 4 < flowSetLength p flowset then
    o :: templateOffsets p flowset (o + templateSize p (flowset + 4 + o))
  else []
termination_by flowSetLength p flowset - o
decreasing_by simp only [templateSize]; omega

/-- What the template at offset `template` does to the table. -/
def storeTemplate (p : Packet) (e : Exporter) (table : TemplateTable) (template : Nat) :
    TemplateTable :=
  Function.update table (templateSlot e (p.ntohs template).toNat)
    (.ofFields (fieldsAt p (template + 4) (storedFieldCount p template)))

/-- What the flowset at offset `flowset` does to the table. -/
def storeFlowset (p : Packet) (e : Exporter) (table : TemplateTable) (flowset : Nat) :
    TemplateTable :=
  if flowSetId p flowset = 0 then
    (templateOffsets p flowset 0).foldl
      (fun table o => storeTemplate p e table (flowset + 4 + o)) table
  else table

/-- Position and template table before the `k`-th flowset. -/
def flowsetWalk (p : Packet) (e : Exporter) (table : TemplateTable) : Nat → Nat × TemplateTable
  | 0 => (nfV9HeaderSize,table)
  | k + 1 =>
    let w := flowsetWalk p e table k
    (w.1 + flowSetLength p w.1,storeFlowset p e w.2 w.1)

/-- The record loop of the flowset is entered with a layout that takes no bytes. -/
def ZeroWidthData (p : Packet) (e : Exporter) (table : TemplateTable) (flowset : Nat) : Prop :=
  255 < flowSetId p flowset ∧
    (table (templateSlot e (flowSetId p flowset))).templateType ≠ .none ∧
    fieldsLength (table (templateSlot e (flowSetId p flowset))).fields = 0 ∧
    (table (templateSlot e (flowSetId p flowset))).recordLength.toNat < flowSetLength p flowset

theorem flowsetWalk_mono (p : Packet) (e : Exporter) (table : TemplateTable) {j k : Nat}
    (h : j ≤ k) : (flowsetWalk p e table j).1 ≤ (flowsetWalk p e table k).1 := by
  induction k, h using Nat.le_induction with
  | base => exact le_rfl
  | succ k _ ih => exact Nat.le_trans ih (Nat.le_add_right _ _)

theorem flowsetWalk_ge (p : Packet) (e : Exporter) (table : TemplateTable) (k : Nat) :
    20 ≤ (flowsetWalk p e table k).1 :=
  flowsetWalk_mono p e table (Nat.zero_le k)

section TemplateLoop

/-- One round of the template loop. -/
def saveAt (p : Packet) (e : Exporter) (flowset : Nat) (m : Machine) (o : Nat) : Machine :=
  (saveTemplate p e (flowset + 4 + o) (m.read 16 4)).1

theorem saveAt_templateTable (p : Packet) (e : Exporter) (flowset : Nat) (m : Machine) (o : Nat) :
    (saveAt p e flowset m o).templateTable =
      storeTemplate p e m.templateTable (flowset + 4 + o) := by
  rw [saveAt,saveTemplate_eq,storeTemplate,Machine.read_templateTable]

theorem saveAt_globals (p : Packet) (e : Exporter) (flowset : Nat) (m : Machine) (o : Nat) :
    (saveAt p e flowset m o).globals = m.globals := by
  rw [saveAt,saveTemplate_eq,Machine.read_globals]

private theorem checkSource_extends (e : Exporter) (slot : Int) (m : Machine) :
    m.Extends (checkSource e slot m) := by
  unfold Machine.Extends
  rcases checkSource_trace e slot m with h | h <;> rw [h]
  exact List.suffix_cons _ _

private theorem saveAt_extends (p : Packet) (e : Exporter) (flowset : Nat) (m : Machine) (o : Nat) :
    m.Extends (saveAt p e flowset m o) := by
  have hreads : m.Extends (((m.read 16 4).read (flowset + 4 + o) 2).read (flowset + 4 + o + 2) 2) :=
    ((m.extends_read _ _).trans (Machine.extends_read _ _ _)).trans (Machine.extends_read _ _ _)
  refine (hreads.trans (checkSource_extends e
    (templateSlot e (p.ntohs (flowset + 4 + o)).toNat) _)).trans ?_
  rw [saveAt,saveTemplate_eq]
  exact (List.suffix_cons _ _).trans (List.suffix_append _ _)

theorem templateLoop_steady (p : Packet) (e : Exporter) (flowset : Nat) :
    Steady (templateLoop p e flowset) :=
  whileLoop_steady (steady_finished _)

theorem templateLoop_grows (p : Packet) (e : Exporter) (flowset : Nat) :
    Grows (fun a b => a.2.Extends b.2) (templateLoop p e flowset) :=
  whileLoop_grows (fun _ => .refl _) (fun _ _ _ => .trans) (steady_finished _)
    (grows_finished (fun _ => .refl _) fun s => saveAt_extends p e flowset s.2 s.1)

/-- Each round takes at least the 4 header bytes, so the template loop always ends. -/
theorem templateLoop_ends (p : Packet) (e : Exporter) (flowset o : Nat) (m : Machine) :
    ∃ o', Ends (templateLoop p e flowset) (o,m)
      (o',(templateOffsets p flowset o).foldl (saveAt p e flowset) m) := by
  induction o using templateOffsets.induct p flowset generalizing m with
  | case1 o hlt ih =>
    rw [templateOffsets,if_pos hlt,List.foldl_cons]
    obtain ⟨o',hend⟩ := ih (saveAt p e flowset m o)
    exact ⟨o',ends_step (steady_finished _) hlt (ends_finished.mpr rfl) hend⟩
  | case2 o hge =>
    rw [templateOffsets,if_neg hge]
    exact ⟨o,ends_exit hge⟩

theorem foldl_saveAt_templateTable (p : Packet) (e : Exporter) (flowset : Nat) (os : List Nat)
    (m : Machine) :
    (os.foldl (saveAt p e flowset) m).templateTable =
      os.foldl (fun table o => storeTemplate p e table (flowset + 4 + o)) m.templateTable := by
  induction os generalizing m with
  | nil => rfl
  | cons o os ih => rw [List.foldl_cons,ih,saveAt_templateTable,List.foldl_cons]

theorem foldl_saveAt_globals (p : Packet) (e : Exporter) (flowset : Nat) (os : List Nat)
    (m : Machine) : (os.foldl (saveAt p e flowset) m).globals = m.globals := by
  induction os generalizing m with
  | nil => rfl
  | cons o os ih => rw [List.foldl_cons,ih,saveAt_globals]

end TemplateLoop

section RecordLoop

variable (localtime : Int → Tm) (p : Packet) (dataBegin dataLen : Nat)
  (entry : TemplateTableEntry)

theorem decodeRecord_extends (fields : List FlowsetRecord) (s : Nat × Machine) :
    s.2.Extends (decodeRecord localtime p dataBegin fields s).2 := by
  obtain ⟨tail,_,htrace⟩ := decodeRecord_trace localtime p dataBegin fields s
  rw [Machine.Extends,htrace]
  exact (((List.suffix_cons _ _).trans (List.suffix_cons _ _)).trans
    (List.suffix_append _ _)).trans (List.suffix_append _ _)

theorem recordLoop_steady : Steady (recordLoop localtime p dataBegin dataLen entry) :=
  whileLoop_steady (steady_finished _)

theorem recordLoop_grows :
    Grows (fun a b => a.2.Extends b.2) (recordLoop localtime p dataBegin dataLen entry) :=
  whileLoop_grows (fun _ => .refl _) (fun _ _ _ => .trans) (steady_finished _)
    (grows_finished (fun _ => .refl _) fun s => decodeRecord_extends localtime p dataBegin _ s)

theorem recordLoop_terminates_iff (m : Machine) :
    Terminates (recordLoop localtime p dataBegin dataLen entry) (0,m) ↔
      ¬(fieldsLength entry.fields = 0 ∧ entry.recordLength.toNat < dataLen) := by
  constructor
  · rintro hterm ⟨hzero,hlt⟩
    refine not_terminates_of_trap (fun s => s.1 = 0) ?_ ?_ (s := (0,m)) rfl hterm
    · intro s hs
      omega
    · intro s s' hs hend
      rw [← ends_finished.mp hend,decodeRecord_pos]
      omega
  · intro h
    by_cases hlt : entry.recordLength.toNat < dataLen
    · refine terminates_of_measure (steady_finished _) (fun s => dataLen - s.1) ?_
      intro s _ hs
      refine ⟨_,ends_finished.mpr rfl,?_⟩
      have hpos : fieldsLength entry.fields ≠ 0 := fun hzero => h ⟨hzero,hlt⟩
      rw [decodeRecord_pos]
      omega
    · exact ⟨_,ends_exit (by simpa using hlt)⟩

theorem recordLoop_atHead {m : Machine} {s : Nat × Machine}
    (h : AtHead (fun s => s.1 + entry.recordLength.toNat < dataLen)
      (fun _ s => .finished (decodeRecord localtime p dataBegin entry.fields s)) (0,m) s) :
    s.2.templateTable = m.templateTable ∧ ∃ r, s.1 = r * fieldsLength entry.fields := by
  induction h with
  | start => exact ⟨rfl,0,(Nat.zero_mul _).symm⟩
  | @next s s' _ _ hend ih =>
    obtain ⟨htable,r,hr⟩ := ih
    rw [← ends_finished.mp hend,decodeRecord_templateTable,decodeRecord_pos]
    exact ⟨htable,r + 1,by rw [hr,Nat.succ_mul]⟩

theorem recordLoop_reaches (m : Machine) (r : Nat)
    (h : r * fieldsLength entry.fields + entry.recordLength.toNat < dataLen) :
    ∃ s : Nat × Machine, s.1 = r * fieldsLength entry.fields ∧
      AtHead (fun s => s.1 + entry.recordLength.toNat < dataLen)
        (fun _ s => .finished (decodeRecord localtime p dataBegin entry.fields s)) (0,m) s := by
  induction r with
  | zero => exact ⟨(0,m),(Nat.zero_mul _).symm,.start⟩
  | succ r ih =>
    rw [Nat.succ_mul] at h
    obtain ⟨s,hs,hhead⟩ := ih (by omega)
    refine ⟨_,?_,.next hhead ?_ (ends_finished.mpr rfl)⟩
    · rw [decodeRecord_pos,hs,Nat.succ_mul]
    · omega

theorem recordLoop_ends_templateTable {m : Machine} {s : Nat × Machine}
    (h : Ends (recordLoop localtime p dataBegin dataLen entry) (0,m) s) :
    s.2.templateTable = m.templateTable :=
  (recordLoop_atHead localtime p dataBegin dataLen entry (ends_atHead h).1).1

end RecordLoop

section Flowset

variable (localtime : Int → Tm) (p : Packet) (e : Exporter) (flowset : Nat)

theorem handleFlowset_template (h : flowSetId p flowset = 0) :
    handleFlowset localtime p e flowset = fun fuel m =>
      (templateLoop p e flowset fuel (0,m.read (flowset + 2) 2)).map Prod.snd := by
  funext fuel m
  rw [handleFlowset,if_pos h]

theorem handleFlowset_data (h : 255 < flowSetId p flowset) :
    handleFlowset localtime p e flowset = fun fuel m =>
      handleData localtime p e flowset fuel (m.read 16 4) := by
  funext fuel m
  rw [handleFlowset,if_neg (by omega),if_pos h]

theorem handleFlowset_other (h0 : flowSetId p flowset ≠ 0) (h : flowSetId p flowset ≤ 255) :
    handleFlowset localtime p e flowset = fun _ m => .finished m := by
  funext fuel m
  rw [handleFlowset,if_neg h0,if_neg (by omega)]

/-- The machine with which `_HandleData` enters the record loop. -/
def dataStart (m : Machine) : Machine :=
  ((m.read (flowset + 2) 2).read flowset 2).log (.decode e (flowSetId p flowset)
    (m.templateTable (templateSlot e (flowSetId p flowset))).fields)

theorem handleData_none {m : Machine} (fuel : Nat)
    (h : (m.templateTable (templateSlot e (flowSetId p flowset))).templateType = .none) :
    handleData localtime p e flowset fuel m =
      .finished ((m.read (flowset + 2) 2).read flowset 2) := by
  simp only [handleData,Machine.read_templateTable,h,ite_true]

theorem handleData_some {m : Machine} (fuel : Nat)
    (h : (m.templateTable (templateSlot e (flowSetId p flowset))).templateType ≠ .none) :
    handleData localtime p e flowset fuel m =
      (recordLoop localtime p (flowset + 4) (flowSetLength p flowset)
        (m.templateTable (templateSlot e (flowSetId p flowset))) fuel
        (0,dataStart p e flowset m)).map Prod.snd := by
  simp only [handleData,Machine.read_templateTable,h,ite_false,dataStart]

private theorem dataStart_extends (m : Machine) : m.Extends (dataStart p e flowset m) :=
  ((m.extends_read _ _).trans (Machine.extends_read _ _ _)).trans (Machine.extends_log _ _)

private theorem handleData_steady : Steady (handleData localtime p e flowset) := by
  intro n k m m' hnk h
  by_cases hnone : (m.templateTable (templateSlot e (flowSetId p flowset))).templateType = .none
  · rw [handleData_none localtime p e flowset _ hnone] at h ⊢
    exact h
  · rw [handleData_some localtime p e flowset _ hnone] at h ⊢
    exact (recordLoop_steady localtime p _ _ _).map Prod.snd n k _ m' hnk h

private theorem handleData_grows : Grows Machine.Extends (handleData localtime p e flowset) := by
  have hloop (entry : TemplateTableEntry) :
      Grows Machine.Extends fun n m => (recordLoop localtime p (flowset + 4)
        (flowSetLength p flowset) entry n (0,m)).map Prod.snd :=
    (recordLoop_grows localtime p _ _ entry).snd 0
  constructor
  · intro n m
    by_cases hnone : (m.templateTable (templateSlot e (flowSetId p flowset))).templateType = .none
    · rw [handleData_none localtime p e flowset _ hnone]
      exact (m.extends_read _ _).trans (Machine.extends_read _ _ _)
    · rw [handleData_some localtime p e flowset _ hnone]
      exact (dataStart_extends p e flowset m).trans ((hloop _).start n _)
  · intro n k m hnk
    by_cases hnone : (m.templateTable (templateSlot e (flowSetId p flowset))).templateType = .none
    · rw [handleData_none localtime p e flowset _ hnone,handleData_none localtime p e flowset _ hnone]
      exact .refl _
    · rw [handleData_some localtime p e flowset _ hnone,handleData_some localtime p e flowset _ hnone]
      exact (hloop _).fuel n k _ hnk

theorem handleFlowset_steady : Steady (handleFlowset localtime p e flowset) := by
  by_cases h0 : flowSetId p flowset = 0
  · rw [handleFlowset_template localtime p e flowset h0]
    exact ((templateLoop_steady p e flowset).map Prod.snd).comp
      fun m : Machine => (0,m.read (flowset + 2) 2)
  · by_cases h255 : 255 < flowSetId p flowset
    · rw [handleFlowset_data localtime p e flowset h255]
      exact (handleData_steady localtime p e flowset).comp fun m : Machine => m.read 16 4
    · rw [handleFlowset_other localtime p e flowset h0 (by omega)]
      exact steady_finished _

theorem handleFlowset_grows : Grows Machine.Extends (handleFlowset localtime p e flowset) := by
  by_cases h0 : flowSetId p flowset = 0
  · rw [handleFlowset_template localtime p e flowset h0]
    exact ((templateLoop_grows p e flowset).snd 0).comp (fun _ _ _ => .trans)
      (f := fun m => m.read (flowset + 2) 2) fun m => m.extends_read _ _
  · by_cases h255 : 255 < flowSetId p flowset
    · rw [handleFlowset_data localtime p e flowset h255]
      exact (handleData_grows localtime p e flowset).comp (fun _ _ _ => .trans)
        (f := fun m => m.read 16 4) fun m => m.extends_read _ _
    · rw [handleFlowset_other localtime p e flowset h0 (by omega)]
      exact grows_finished .refl .refl

theorem handleData_ends_iff {m m' : Machine}
    (h : (m.templateTable (templateSlot e (flowSetId p flowset))).templateType ≠ .none) :
    Ends (handleData localtime p e flowset) m m' ↔
      ∃ s, Ends (recordLoop localtime p (flowset + 4) (flowSetLength p flowset)
        (m.templateTable (templateSlot e (flowSetId p flowset)))) (0,dataStart p e flowset m) s ∧
        s.2 = m' := by
  rw [← ends_map]
  exact exists_congr fun n => by rw [handleData_some localtime p e flowset n h]

private theorem handleData_terminates_iff (m : Machine) (h255 : 255 < flowSetId p flowset) :
    Terminates (handleData localtime p e flowset) m ↔ ¬ZeroWidthData p e m.templateTable flowset := by
  by_cases hnone : (m.templateTable (templateSlot e (flowSetId p flowset))).templateType = .none
  · refine iff_of_true ⟨_,0,handleData_none localtime p e flowset 0 hnone⟩ ?_
    exact fun h => h.2.1 hnone
  · have hiff := recordLoop_terminates_iff localtime p (flowset + 4) (flowSetLength p flowset)
      (m.templateTable (templateSlot e (flowSetId p flowset))) (dataStart p e flowset m)
    calc Terminates (handleData localtime p e flowset) m
        ↔ Terminates (recordLoop localtime p (flowset + 4) (flowSetLength p flowset)
            (m.templateTable (templateSlot e (flowSetId p flowset))))
            (0,dataStart p e flowset m) := by
          simp only [Terminates,handleData_ends_iff localtime p e flowset hnone]
          exact ⟨fun ⟨_,s,hs,_⟩ => ⟨s,hs⟩,fun ⟨s,hs⟩ => ⟨s.2,s,hs,rfl⟩⟩
      _ ↔ ¬ZeroWidthData p e m.templateTable flowset := by
          rw [hiff,ZeroWidthData]
          exact not_congr ⟨fun h => ⟨h255,hnone,h⟩,fun h => h.2.2⟩

theorem handleFlowset_terminates_iff (m : Machine) :
    Terminates (handleFlowset localtime p e flowset) m ↔ ¬ZeroWidthData p e m.templateTable flowset := by
  by_cases h0 : flowSetId p flowset = 0
  · refine iff_of_true ?_ fun h => absurd h.1 (by omega)
    obtain ⟨o',hend⟩ := templateLoop_ends p e flowset 0 (m.read (flowset + 2) 2)
    rw [handleFlowset_template localtime p e flowset h0]
    obtain ⟨n,hn⟩ := hend
    exact ⟨_,n,Outcome.map_eq_finished.mpr ⟨_,hn,rfl⟩⟩
  · by_cases h255 : 255 < flowSetId p flowset
    · rw [handleFlowset_data localtime p e flowset h255]
      exact handleData_terminates_iff localtime p e flowset (m.read 16 4) h255
    · rw [handleFlowset_other localtime p e flowset h0 (by omega)]
      exact iff_of_true ⟨_,0,rfl⟩ fun h => h255 h.1

theorem handleFlowset_ends_template (h0 : flowSetId p flowset = 0) {m m' : Machine}
    (h : Ends (handleFlowset localtime p e flowset) m m') :
    m' = (templateOffsets p flowset 0).foldl (saveAt p e flowset) (m.read (flowset + 2) 2) := by
  rw [handleFlowset_template localtime p e flowset h0] at h
  obtain ⟨n,hn⟩ := h
  obtain ⟨s,hs,rfl⟩ := Outcome.map_eq_finished.mp hn
  obtain ⟨o',hend⟩ := templateLoop_ends p e flowset 0 (m.read (flowset + 2) 2)
  rw [hend.unique (templateLoop_steady p e flowset) ⟨n,hs⟩ |>.symm]

theorem handleFlowset_ends_templateTable {m m' : Machine}
    (h : Ends (handleFlowset localtime p e flowset) m m') :
    m'.templateTable = storeFlowset p e m.templateTable flowset := by
  by_cases h0 : flowSetId p flowset = 0
  · rw [handleFlowset_ends_template localtime p e flowset h0 h,storeFlowset,if_pos h0]
    exact foldl_saveAt_templateTable p e flowset _ _
  · rw [storeFlowset,if_neg h0]
    by_cases h255 : 255 < flowSetId p flowset
    · rw [handleFlowset_data localtime p e flowset h255] at h
      by_cases hnone : (m.templateTable (templateSlot e (flowSetId p flowset))).templateType = .none
      · obtain ⟨n,hn⟩ := h
        simp only [handleData_none localtime p e flowset n (m := m.read 16 4) hnone] at hn
        rw [← Outcome.finished.inj hn]
        rfl
      · obtain ⟨s,hs,rfl⟩ :=
          (handleData_ends_iff localtime p e flowset (m := m.read 16 4) hnone).mp h
        have htable := recordLoop_ends_templateTable localtime p _ _ _ hs
        exact htable
    · rw [handleFlowset_other localtime p e flowset h0 (by omega)] at h
      rw [← ends_finished.mp h]

end Flowset

section FlowsetLoop

variable (localtime : Int → Tm) (p : Packet) (e : Exporter)

private theorem dispatch_steady : Steady fun fuel (s : Nat × Machine) =>
    (handleFlowset localtime p e s.1 fuel (s.2.read s.1 2)).map (Prod.mk s.1) :=
  fun n k s t hnk h => (handleFlowset_steady localtime p e s.1).map (Prod.mk s.1)
    n k (s.2.read s.1 2) t hnk h

private theorem dispatch_grows :
    Grows (fun a b => a.2.Extends b.2) fun fuel (s : Nat × Machine) =>
      (handleFlowset localtime p e s.1 fuel (s.2.read s.1 2)).map (Prod.mk s.1) := by
  have hindexed := Grows.indexed fun pos => handleFlowset_grows localtime p e pos
  exact hindexed.comp (fun _ _ _ => .trans) (f := fun s => (s.1,s.2.read s.1 2))
    fun s => s.2.extends_read _ _

theorem flowsetRound_steady : Steady (flowsetRound localtime p e) :=
  (dispatch_steady localtime p e).bind _

theorem flowsetRound_grows :
    Grows (fun a b => a.2.Extends b.2) (flowsetRound localtime p e) :=
  (dispatch_grows localtime p e).bind (fun _ => .refl _) (fun _ _ _ => .trans)
    (dispatch_steady localtime p e) fun s => s.2.extends_read _ _

theorem flowsetRound_ends_iff {s s' : Nat × Machine} :
    Ends (flowsetRound localtime p e) s s' ↔
      ∃ m, Ends (handleFlowset localtime p e s.1) (s.2.read s.1 2) m ∧
        (s.1 + flowSetLength p s.1,m.read (s.1 + 2) 2) = s' := by
  constructor
  · intro h
    obtain ⟨t,⟨n,hn⟩,rfl⟩ := ends_bind.mp h
    obtain ⟨m,hm,rfl⟩ := Outcome.map_eq_finished.mp hn
    exact ⟨m,⟨n,hm⟩,rfl⟩
  · rintro ⟨m,⟨n,hn⟩,rfl⟩
    exact ends_bind.mpr ⟨(s.1,m),⟨n,Outcome.map_eq_finished.mpr ⟨m,hn,rfl⟩⟩,rfl⟩

theorem flowsetRound_terminates_iff (s : Nat × Machine) :
    Terminates (flowsetRound localtime p e) s ↔ ¬ZeroWidthData p e s.2.templateTable s.1 := by
  have hiff := handleFlowset_terminates_iff localtime p e s.1 (s.2.read s.1 2)
  rw [Machine.read_templateTable] at hiff
  rw [← hiff]
  simp only [Terminates,flowsetRound_ends_iff]
  exact ⟨fun ⟨_,m,hm,_⟩ => ⟨m,hm⟩,fun ⟨m,hm⟩ => ⟨_,m,hm,rfl⟩⟩

theorem flowsetRound_ends {s s' : Nat × Machine} (h : Ends (flowsetRound localtime p e) s s') :
    s'.1 = s.1 + flowSetLength p s.1 ∧
      s'.2.templateTable = storeFlowset p e s.2.templateTable s.1 := by
  obtain ⟨m,hm,rfl⟩ := (flowsetRound_ends_iff localtime p e).mp h
  have htable := handleFlowset_ends_templateTable localtime p e s.1 hm
  exact ⟨rfl,htable⟩

/-- The loop stands where the walk stands, and the walk has met nothing that hangs. -/
theorem flowsetLoop_atHead {m : Machine} {s : Nat × Machine}
    (h : AtHead (fun s => s.1 < p.len) (flowsetRound localtime p e) (nfV9HeaderSize,m) s) :
    ∃ k, flowsetWalk p e m.templateTable k = (s.1,s.2.templateTable) ∧
      ∀ j < k, ¬ZeroWidthData p e (flowsetWalk p e m.templateTable j).2
        (flowsetWalk p e m.templateTable j).1 := by
  induction h with
  | start => exact ⟨0,rfl,fun j hj => absurd hj (Nat.not_lt_zero j)⟩
  | @next s s' _ _ hend ih =>
    obtain ⟨k,hk,hclear⟩ := ih
    obtain ⟨hpos,htable⟩ := flowsetRound_ends localtime p e hend
    refine ⟨k + 1,by rw [flowsetWalk,hk,hpos,htable],?_⟩
    intro j hj
    rcases Nat.lt_succ_iff_lt_or_eq.mp hj with hlt | rfl
    · exact hclear j hlt
    · rw [hk]
      exact (flowsetRound_terminates_iff localtime p e s).mp ⟨s',hend⟩

/-- The loop follows the walk as long as nothing hangs. -/
theorem flowsetLoop_reaches (m : Machine) (k : Nat)
    (hlt : ∀ j < k, (flowsetWalk p e m.templateTable j).1 < p.len)
    (hclear : ∀ j < k, ¬ZeroWidthData p e (flowsetWalk p e m.templateTable j).2
      (flowsetWalk p e m.templateTable j).1) :
    ∃ s, AtHead (fun s => s.1 < p.len) (flowsetRound localtime p e) (nfV9HeaderSize,m) s ∧
      flowsetWalk p e m.templateTable k = (s.1,s.2.templateTable) := by
  induction k with
  | zero => exact ⟨_,.start,rfl⟩
  | succ k ih =>
    obtain ⟨s,hhead,hk⟩ := ih (fun j hj => hlt j (by omega)) fun j hj => hclear j (by omega)
    have hclear := hclear k (Nat.lt_succ_self k)
    have hlt := hlt k (Nat.lt_succ_self k)
    rw [hk] at hclear hlt
    obtain ⟨s',hend⟩ := (flowsetRound_terminates_iff localtime p e s).mpr hclear
    obtain ⟨hpos,htable⟩ := flowsetRound_ends localtime p e hend
    exact ⟨s',hhead.next hlt hend,by rw [flowsetWalk,hk,hpos,htable]⟩

end FlowsetLoop

end Flowstatd
