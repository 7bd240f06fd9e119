import Flowstatd.Netflow.FlowStart
import Flowstatd.Netflow.V9Refinement

/-!
# The uninitialised start of a flow

`_HandleData` fills in `FirstPacketTime` only when the template has the field. Two runs over one
flowset are compared that find different values in the local variable.
-/

namespace Flowstatd

open Framework

section Fields

/-- The fields of the record at `pos`, with their offsets. -/
def fieldOffsets : Nat → List FlowsetRecord → List (Nat × FlowsetRecord)
  | _, [] => []
  | pos, f :: fs => (pos,f) :: fieldOffsets (pos + f.length.toNat) fs

/-- What `load` takes from the last field that `sel` selects. -/
def lastLoad (sel : FlowsetRecord → Bool) (load : Nat → FlowsetRecord → U32) (pos : Nat)
    (fields : List FlowsetRecord) : Option U32 :=
  ((fieldOffsets pos fields).reverse.find? fun x => sel x.2).map fun x => load x.1 x.2

/-- The flow that the record at `pos` tells of when it starts at `t`. -/
def recordFlow (p : Packet) (pos : Nat) (fields : List FlowsetRecord) (t : U32) : Flow where
  srcAddr := (lastLoad (fun f => f.kind = .srcAddr) (fun off _ => p.load32 off) pos fields).getD 0
  dstAddr := (lastLoad (fun f => f.kind = .dstAddr) (fun off _ => p.load32 off) pos fields).getD 0
  flowBytes := (lastLoad FlowsetRecord.isCounter
    (fun off f => if f.length = 4 then p.ntohl off else (p.ntohs off).setWidth 32) pos fields).getD 0
  info := ⟨p.ntohl 4,p.ntohl 8,0,t⟩

/-- The start of the flow, for a record whose template has the field. -/
def recordStart (p : Packet) (pos : Nat) (fields : List FlowsetRecord) : Option U32 :=
  lastLoad (fun f => f.kind = .firstSwitched) (fun off _ => p.ntohl off) pos fields

theorem fieldOffsets_fields (pos : Nat) (fields : List FlowsetRecord) :
    (fieldOffsets pos fields).map Prod.snd = fields := by
  induction fields generalizing pos with
  | nil => rfl
  | cons f fs ih => rw [fieldOffsets,List.map_cons,ih]

theorem lastLoad_isSome_iff {sel : FlowsetRecord → Bool} {load : Nat → FlowsetRecord → U32}
    {pos : Nat} {fields : List FlowsetRecord} :
    (lastLoad sel load pos fields).isSome ↔ ∃ f ∈ fields, sel f := by
  rw [lastLoad,Option.isSome_map,List.find?_isSome]
  simp only [List.mem_reverse]
  constructor
  · rintro ⟨x,hx,hsel⟩
    exact ⟨x.2,fieldOffsets_fields pos fields ▸ List.mem_map_of_mem hx,hsel⟩
  · rintro ⟨f,hf,hsel⟩
    rw [← fieldOffsets_fields pos fields] at hf
    obtain ⟨x,hx,rfl⟩ := List.mem_map.mp hf
    exact ⟨x,hx,hsel⟩

private theorem readVars_lastLoad {p : Packet} {get : RecordVars → U32}
    {sel : FlowsetRecord → Bool} {load : Nat → FlowsetRecord → U32}
    (hread : ∀ pos v f, get (readVar p pos v f) = if sel f then load pos f else get v)
    (pos : Nat) (v : RecordVars) (fields : List FlowsetRecord) :
    get (readVars p pos v fields) = (lastLoad sel load pos fields).getD (get v) := by
  induction fields generalizing pos v with
  | nil => rfl
  | cons f fs ih =>
    rw [readVars,ih,hread]
    simp only [lastLoad,fieldOffsets,List.reverse_cons,List.find?_append]
    cases (fieldOffsets (pos + f.length.toNat) fs).reverse.find? fun x => sel x.2 with
    | some later => rfl
    | none => cases hsel : sel f <;> simp [hsel]

/-- The variables after the field loop; without the field, the junk is the start of the flow. -/
theorem recordVars_eq (p : Packet) (pos : Nat) (junk : U32) (fields : List FlowsetRecord) :
    recordVars p pos junk fields =
      let t := (recordStart p pos fields).getD junk
      let f := recordFlow p pos fields t
      ⟨f.srcAddr,f.dstAddr,f.flowBytes,t⟩ := by
  ext1
  · exact readVars_lastLoad (fun pos v f => by simp [readVar_eq]) pos _ fields
  · exact readVars_lastLoad (fun pos v f => by simp [readVar_eq]) pos _ fields
  · exact readVars_lastLoad (fun pos v f => by simp [readVar_eq]) pos _ fields
  · exact readVars_lastLoad (fun pos v f => by simp [readVar_eq]) pos _ fields

end Fields

section Booking

variable {localtime : Int → Tm} {p : Packet} {g : Globals}

/-- A flow that `_HandleData` passes on and that is booked: it has its four values, passes the day
test and belongs to a slot of the table. -/
def Flow.Counts (localtime : Int → Tm) (g : Globals) (f : Flow) : Prop :=
  f.srcAddr ≠ 0 ∧ f.dstAddr ≠ 0 ∧ f.flowBytes ≠ 0 ∧ f.info.firstPacketTime ≠ 0 ∧
    f.PassesDay localtime g ∧ ∃ i < g.ipTable.length, ∃ d, f.CountsFor g i d

theorem Flow.Counts.changes {f : Flow} (h : f.Counts localtime g) :
    (insertFlow localtime g f).ipTable ≠ g.ipTable := by
  obtain ⟨-,-,hbytes,-,hday,hslot⟩ := h
  obtain ⟨i,-,hchange⟩ := changesCounter_iff.mpr ⟨hbytes,hday,hslot⟩
  intro hsame
  simp [hsame] at hchange

/-- What the record at `pos` does to the globals, with the junk of its iteration. -/
def bookRecord (localtime : Int → Tm) (p : Packet) (pos : Nat) (fields : List FlowsetRecord)
    (junk : U32) (g : Globals) : Globals :=
  bookVars localtime p (recordVars p pos junk fields) g

private theorem bookRecord_eq (pos : Nat) (fields : List FlowsetRecord) (junk : U32) :
    bookRecord localtime p pos fields junk g =
      let f := recordFlow p pos fields ((recordStart p pos fields).getD junk)
      if f.srcAddr ≠ 0 ∧ f.dstAddr ≠ 0 ∧ f.flowBytes ≠ 0 ∧ f.info.firstPacketTime ≠ 0 then
        insertFlow localtime g f
      else g := by
  rw [bookRecord,recordVars_eq]
  rfl

theorem bookRecord_of_counts {pos : Nat} {fields : List FlowsetRecord} {junk : U32}
    (h : (recordFlow p pos fields ((recordStart p pos fields).getD junk)).Counts localtime g) :
    bookRecord localtime p pos fields junk g =
      insertFlow localtime g (recordFlow p pos fields ((recordStart p pos fields).getD junk)) := by
  obtain ⟨hsrc,hdst,hbytes,htime,-⟩ := h
  rw [bookRecord_eq]
  exact if_pos ⟨hsrc,hdst,hbytes,htime⟩

theorem bookRecord_of_not_counts {pos : Nat} {fields : List FlowsetRecord} {junk : U32}
    (h : ¬(recordFlow p pos fields ((recordStart p pos fields).getD junk)).Counts localtime g) :
    bookRecord localtime p pos fields junk g = g := by
  rw [bookRecord_eq]
  dsimp only
  split_ifs with hcomplete
  · obtain ⟨hsrc,hdst,hbytes,htime⟩ := hcomplete
    apply insertFlow_unseen
    intro i hi d hcounts
    exact h ⟨hsrc,hdst,hbytes,htime,hcounts.1,i,hi,d,hcounts.2⟩
  · rfl

/-- The globals after the first `n` records from `pos` on. -/
def bookRecords (localtime : Int → Tm) (p : Packet) (pos : Nat) (fields : List FlowsetRecord)
    (stack : Nat → U32) (g : Globals) : Nat → Globals
  | 0 => g
  | n + 1 => bookRecord localtime p (pos + n * fieldsLength fields) fields (stack n)
      (bookRecords localtime p pos fields stack g n)

theorem bookRecords_of_start {pos : Nat} {fields : List FlowsetRecord}
    (h : ∃ f ∈ fields, f.kind = .firstSwitched) (stack stack' : Nat → U32) (n : Nat) :
    bookRecords localtime p pos fields stack g n = bookRecords localtime p pos fields stack' g n := by
  induction n with
  | zero => rfl
  | succ n ih =>
    have hstart : (recordStart p (pos + n * fieldsLength fields) fields).isSome :=
      lastLoad_isSome_iff.mpr (by simpa using h)
    obtain ⟨t,ht⟩ := Option.isSome_iff_exists.mp hstart
    simp only [bookRecords,bookRecord_eq,ih,ht,Option.getD_some]

theorem bookRecords_of_not_counts {pos : Nat} {fields : List FlowsetRecord} {stack : Nat → U32}
    {n : Nat} (h : ∀ r < n, ∀ t, ¬(recordFlow p (pos + r * fieldsLength fields) fields t).Counts
      localtime g) : bookRecords localtime p pos fields stack g n = g := by
  induction n with
  | zero => rfl
  | succ n ih =>
    rw [bookRecords,ih fun r hr => h r (by omega)]
    exact bookRecord_of_not_counts (h n (by omega) _)

/-- Without the field, a record whose junk is zero is not passed on. -/
theorem bookRecord_no_junk {pos : Nat} {fields : List FlowsetRecord}
    (h : recordStart p pos fields = none) : bookRecord localtime p pos fields 0 g = g := by
  apply bookRecord_of_not_counts
  rw [h]
  rintro ⟨-,-,-,htime,-⟩
  exact htime rfl

/-- Junk in front of one record only: the others are not passed on. -/
theorem bookRecords_one_junk {pos : Nat} {fields : List FlowsetRecord}
    (h : ∀ pos, recordStart p pos fields = none) (r : Nat) (t : U32) (n : Nat) :
    bookRecords localtime p pos fields (Function.update (fun _ => 0) r t) g n =
      if r < n then bookRecord localtime p (pos + r * fieldsLength fields) fields t g else g := by
  induction n with
  | zero => rfl
  | succ n ih =>
    rw [bookRecords,ih]
    by_cases hr : r = n
    · subst hr
      simp
    · rw [Function.update_of_ne (Ne.symm hr),bookRecord_no_junk (h _)]
      exact if_congr (by omega) rfl rfl

end Booking

section Loop

variable (localtime : Int → Tm) (p : Packet) (e : Exporter) (flowset : Nat)

/-- The table entry that `_HandleData` decodes the flowset with. -/
def dataEntry (p : Packet) (e : Exporter) (flowset : Nat) (m : Machine) : TemplateTableEntry :=
  m.templateTable (templateSlot e (flowSetId p flowset))

/-- The record loop enters round `r`, if it gets that far. -/
def EntersRecord (p : Packet) (flowset : Nat) (entry : TemplateTableEntry) (r : Nat) : Prop :=
  r * fieldsLength entry.fields + entry.recordLength.toNat < flowSetLength p flowset

theorem EntersRecord.mono {entry : TemplateTableEntry} {r n : Nat} (hle : n ≤ r)
    (h : EntersRecord p flowset entry r) : EntersRecord p flowset entry n := by
  have hmul := Nat.mul_le_mul_right (fieldsLength entry.fields) hle
  simp only [EntersRecord] at h ⊢
  omega

private theorem recordLoop_atHead_globals (entry : TemplateTableEntry) {m : Machine}
    {s : Nat × Machine}
    (h : AtHead (fun s => s.1 + entry.recordLength.toNat < flowSetLength p flowset)
      (fun _ s => .finished (decodeRecord localtime p (flowset + 4) entry.fields s)) (0,m) s) :
    ∃ n, s.1 = n * fieldsLength entry.fields ∧ (∀ k, s.2.stack k = m.stack (k + n)) ∧
      s.2.globals =
        bookRecords localtime p (flowset + 4) entry.fields m.stack m.globals n ∧
      ∀ r < n, EntersRecord p flowset entry r := by
  induction h with
  | start => exact ⟨0,(Nat.zero_mul _).symm,fun _ => rfl,rfl,fun r hr => absurd hr (Nat.not_lt_zero r)⟩
  | @next s s' _ hguard hend ih =>
    obtain ⟨n,hpos,hstack,hglobals,henter⟩ := ih
    rw [← ends_finished.mp hend]
    refine ⟨n + 1,?_,?_,?_,?_⟩
    · rw [decodeRecord_pos,hpos,Nat.succ_mul]
    · intro k
      rw [decodeRecord_stack,hstack]
      congr 1
      omega
    · rw [decodeRecord_globals,hpos,hstack,hglobals,Nat.zero_add]
      rfl
    · intro r hr
      rcases Nat.lt_succ_iff_lt_or_eq.mp hr with hlt | rfl
      · exact henter r hlt
      · rwa [EntersRecord,← hpos]

/-- What a data flowset with a template leaves behind: as many records are booked as the loop
enters rounds. -/
theorem handleData_ends_globals {m m' : Machine} {stack : Nat → U32}
    (hsome : (dataEntry p e flowset m).templateType ≠ .none)
    (h : Ends (handleData localtime p e flowset) { m with stack := stack } m') :
    ∃ n, (∀ r, r < n ↔ EntersRecord p flowset (dataEntry p e flowset m) r) ∧
      m'.globals = bookRecords localtime p (flowset + 4) (dataEntry p e flowset m).fields stack
        m.globals n := by
  obtain ⟨s,hloop,rfl⟩ :=
    (handleData_ends_iff localtime p e flowset (m := { m with stack := stack }) hsome).mp h
  obtain ⟨hhead,hexit⟩ := ends_atHead hloop
  obtain ⟨n,hpos,-,hglobals,henter⟩ := recordLoop_atHead_globals localtime p flowset _ hhead
  refine ⟨n,fun r => ⟨henter r,fun hr => ?_⟩,hglobals⟩
  by_contra hge
  apply hexit
  rw [hpos]
  exact hr.mono p flowset (Nat.le_of_not_lt hge)

theorem handleData_none_globals {m m' : Machine} {stack : Nat → U32}
    (hnone : (dataEntry p e flowset m).templateType = .none)
    (h : Ends (handleData localtime p e flowset) { m with stack := stack } m') :
    m'.globals = m.globals := by
  obtain ⟨n,hn⟩ := h
  rw [handleData_none localtime p e flowset n (m := { m with stack := stack }) hnone] at hn
  rw [← Outcome.finished.inj hn]
  rfl

theorem handleData_ends {m : Machine} (stack : Nat → U32)
    (hsome : (dataEntry p e flowset m).templateType ≠ .none)
    (h : ¬(fieldsLength (dataEntry p e flowset m).fields = 0 ∧
      (dataEntry p e flowset m).recordLength.toNat < flowSetLength p flowset)) :
    ∃ m', Ends (handleData localtime p e flowset) { m with stack := stack } m' := by
  obtain ⟨s,hs⟩ := (recordLoop_terminates_iff localtime p (flowset + 4) (flowSetLength p flowset)
    (dataEntry p e flowset m) (dataStart p e flowset { m with stack := stack })).mpr h
  refine ⟨s.2,?_⟩
  apply (handleData_ends_iff localtime p e flowset (m := { m with stack := stack }) hsome).mpr
  exact ⟨s,hs,rfl⟩

end Loop

section Independence

variable (localtime : Int → Tm) (p : Packet) (e : Exporter) (flowset : Nat) (m : Machine)

/-- The table that a data flowset leaves behind is the same for any two contents of the
uninitialised local variable. -/
def StackIndependent (localtime : Int → Tm) (p : Packet) (e : Exporter) (flowset : Nat)
    (m : Machine) : Prop :=
  ∀ stack stack' m₁ m₂, Ends (handleData localtime p e flowset) { m with stack := stack } m₁ →
    Ends (handleData localtime p e flowset) { m with stack := stack' } m₂ →
      m₁.globals.ipTable = m₂.globals.ipTable

/-- A record that can count tells two stacks apart: zeros, and one start in front of it. -/
private theorem not_independent_of_counts {r : Nat} {t : U32}
    (hsome : (dataEntry p e flowset m).templateType ≠ .none)
    (hno : ∀ pos, recordStart p pos (dataEntry p e flowset m).fields = none)
    (hends : ¬(fieldsLength (dataEntry p e flowset m).fields = 0 ∧
      (dataEntry p e flowset m).recordLength.toNat < flowSetLength p flowset))
    (henter : EntersRecord p flowset (dataEntry p e flowset m) r)
    (hcounts : (recordFlow p (flowset + 4 + r * fieldsLength (dataEntry p e flowset m).fields)
      (dataEntry p e flowset m).fields t).Counts localtime m.globals) :
    ¬StackIndependent localtime p e flowset m := by
  have hrun (t' : U32) : ∃ m' n, Ends (handleData localtime p e flowset)
        { m with stack := Function.update (fun _ => 0) r t' } m' ∧ r < n ∧
      m'.globals = bookRecords localtime p (flowset + 4) (dataEntry p e flowset m).fields
        (Function.update (fun _ => 0) r t') m.globals n := by
    obtain ⟨m',hm'⟩ := handleData_ends localtime p e flowset _ hsome hends
    obtain ⟨n,hn,hglobals⟩ := handleData_ends_globals localtime p e flowset hsome hm'
    exact ⟨m',n,hm',(hn r).mpr henter,hglobals⟩
  obtain ⟨m₁,n₁,hend₁,hr₁,hglobals₁⟩ := hrun t
  obtain ⟨m₂,n₂,hend₂,hr₂,hglobals₂⟩ := hrun 0
  intro hindep
  have hsame := hindep _ _ _ _ hend₁ hend₂
  rw [hglobals₁,hglobals₂,bookRecords_one_junk hno,bookRecords_one_junk hno,if_pos hr₁,if_pos hr₂,
    bookRecord_no_junk (hno _),bookRecord_of_counts (by rw [hno]; exact hcounts),hno] at hsame
  exact hcounts.changes hsame

/-- The table does not depend on what is on the stack exactly when there is no template, the
template says when a flow started, the record loop never ends, or no record can count whenever its
flow started. -/
theorem stack_independent_iff (localtime : Int → Tm) (p : Packet) (e : Exporter) (flowset : Nat)
    (m : Machine) :
    StackIndependent localtime p e flowset m ↔
      (dataEntry p e flowset m).templateType = .none ∨
        (∃ f ∈ (dataEntry p e flowset m).fields, f.kind = .firstSwitched) ∨
        (fieldsLength (dataEntry p e flowset m).fields = 0 ∧
          (dataEntry p e flowset m).recordLength.toNat < flowSetLength p flowset) ∨
        ∀ r, EntersRecord p flowset (dataEntry p e flowset m) r → ∀ t,
          ¬(recordFlow p (flowset + 4 + r * fieldsLength (dataEntry p e flowset m).fields)
            (dataEntry p e flowset m).fields t).Counts localtime m.globals := by
  by_cases hnone : (dataEntry p e flowset m).templateType = .none
  · refine iff_of_true ?_ (.inl hnone)
    intro stack stack' m₁ m₂ h₁ h₂
    rw [handleData_none_globals localtime p e flowset hnone h₁,
      handleData_none_globals localtime p e flowset hnone h₂]
  constructor
  · intro hindep
    by_contra hcond
    simp only [not_or] at hcond
    obtain ⟨-,hno,hends,hcounts⟩ := hcond
    simp only [not_forall,not_not] at hcounts
    obtain ⟨r,henter,t,hcounts⟩ := hcounts
    have hstart (pos : Nat) : recordStart p pos (dataEntry p e flowset m).fields = none := by
      rw [← Option.not_isSome_iff_eq_none,recordStart,lastLoad_isSome_iff]
      simpa using hno
    exact not_independent_of_counts localtime p e flowset m hnone hstart hends henter hcounts hindep
  · intro hcond stack stack' m₁ m₂ h₁ h₂
    obtain ⟨n₁,hn₁,hglobals₁⟩ := handleData_ends_globals localtime p e flowset hnone h₁
    obtain ⟨n₂,hn₂,hglobals₂⟩ := handleData_ends_globals localtime p e flowset hnone h₂
    -- both runs have the same rounds
    have hrounds : n₁ = n₂ := eq_of_forall_lt_iff fun r => (hn₁ r).trans (hn₂ r).symm
    subst hrounds
    rw [hglobals₁,hglobals₂]
    rcases hcond with h | hstart | ⟨hzero,henter⟩ | hcounts
    · exact absurd h hnone
    · exact congrArg Globals.ipTable (bookRecords_of_start hstart stack stack' n₁)
    · -- the rounds would never stop
      have hlast := (hn₁ n₁).mpr (by rwa [EntersRecord,hzero,Nat.mul_zero,Nat.zero_add])
      exact absurd hlast (Nat.lt_irrefl _)
    · have hnothing (r : Nat) (hr : r < n₁) := hcounts r ((hn₁ r).mp hr)
      rw [bookRecords_of_not_counts hnothing,bookRecords_of_not_counts hnothing]

/-- One record, of 1000 bytes from 10.0.0.1 to 8.8.8.8, of a template without the field. -/
def startlessPacket : Packet :=
  Packet.received (bootHeader.encode ++ beBytes 2 256 ++ beBytes 2 16 ++
    beBytes 4 0x0a000001 ++ beBytes 4 0x08080808 ++ beBytes 4 1000) (by decide) fun _ => 0

def startlessMachine : Machine :=
  { oneSubnetMachine with
    templateTable := Function.update oneSubnetMachine.templateTable (templateSlot ⟨0x08080808,0⟩ 256)
      (.ofFields [⟨8,4⟩,⟨12,4⟩,⟨1,4⟩]) }

/-- With a stack of zeros the record is dropped. With a thousand it starts when the packet was sent,
on 18 June 2012, and is booked. -/
theorem startless_record_depends :
    255 < flowSetId startlessPacket 20 ∧
      startlessMachine.globals.localtm = utc 1340000000 ∧
      ¬StackIndependent utc startlessPacket ⟨0x08080808,0⟩ 20 startlessMachine := by
  refine ⟨by decide +kernel,by decide +kernel,fun h => ?_⟩
  have hsame := h (fun _ => 0) (fun _ => 1000) _ _
    ⟨2,Outcome.eq_finished_state (by decide +kernel)⟩
    ⟨2,Outcome.eq_finished_state (by decide +kernel)⟩
  exact absurd hsame (by decide +kernel)

end Independence

end Flowstatd
