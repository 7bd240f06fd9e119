import Flowstatd.Netflow.Termination
import Flowstatd.Netflow.V9Invariant

/-!
# Whose template a data flowset is decoded with

A slot of the template table holds the last template sent into it, whoever sent it. The trace of
the handler is read as the history of the templates sent, and the table as a function of it.
-/

namespace Flowstatd

open Framework

structure SentTemplate where
  exporter : Exporter
  templateId : Nat
  fields : List FlowsetRecord
deriving DecidableEq

/-- The templates seen so far, latest first. -/
def sentTemplates (trace : List Event) : List SentTemplate :=
  trace.filterMap fun
    | .template e id fields => some ⟨e,id,fields⟩
    | _ => none

/-- The template most recently sent into a slot of the table. -/
def lastInSlot (sent : List SentTemplate) (slot : Int) : Option SentTemplate :=
  sent.find? fun t => templateSlot t.exporter t.templateId = slot

/-- The template most recently sent by `e` under `templateId`. -/
def lastFrom (sent : List SentTemplate) (e : Exporter) (templateId : Nat) :
    Option SentTemplate :=
  sent.find? fun t => t.exporter = e ∧ t.templateId = templateId

/-- A table entry after `t` was stored in it. -/
def entryOf : Option SentTemplate → TemplateTableEntry
  | none => .zero
  | some t => .ofFields (t.fields.take nfV9MaxFieldsInTemplate)

/-- The states between datagrams: the tables start empty, and everything else the daemon does
leaves them and the trace alone. -/
inductive Collecting (localtime : Int → Tm) : Machine → Prop
  | boot {m : Machine} : m.templateTable = (fun _ => .zero) → m.trace = [] → Collecting localtime m
  | elsewhere {m : Machine} (g : Globals) (stack : Nat → U32) :
    Collecting localtime m → Collecting localtime { m with globals := g, stack := stack }
  | datagram {m m' : Machine} (p : Packet) (sourceIp : InAddr) :
    Collecting localtime m → Ends (addFlowDataV9Impl localtime p sourceIp) m m' →
      Collecting localtime m'

/-- Each data flowset was decoded with what its slot had received last. -/
def DecodesLast (trace : List Event) : Prop :=
  ∀ e id layout earlier, .decode e id layout :: earlier <:+ trace →
    ∃ last, lastInSlot (sentTemplates earlier) (templateSlot e id) = some last ∧
      layout = last.fields.take nfV9MaxFieldsInTemplate

/-- The table is what the templates seen amount to, and every decode so far agrees with it. -/
structure TableTraced (m : Machine) : Prop where
  table : ∀ slot, m.templateTable slot = entryOf (lastInSlot (sentTemplates m.trace) slot)
  decodes : DecodesLast m.trace

theorem lastFrom_of_lastInSlot {sent : List SentTemplate} {e : Exporter} {id : Nat}
    {t : SentTemplate} (h : lastInSlot sent (templateSlot e id) = some t)
    (he : t.exporter = e) (hid : t.templateId = id) : lastFrom sent e id = some t := by
  induction sent with
  | nil => exact absurd h (by simp [lastInSlot])
  | cons u sent ih =>
    rw [lastInSlot,List.find?_cons] at h
    rw [lastFrom,List.find?_cons]
    by_cases hslot : templateSlot u.exporter u.templateId = templateSlot e id
    · simp only [hslot,decide_true,Option.some.injEq] at h
      subst h
      simp [he,hid]
    · have hne : ¬(u.exporter = e ∧ u.templateId = id) := by
        rintro ⟨rfl,rfl⟩
        exact hslot rfl
      simp only [hslot,decide_false] at h
      simp only [hne,decide_false]
      exact ih h

section Quiet

/-- Events that neither store a template nor decode with one. -/
def Event.Quiet : Event → Prop
  | .template .. => False
  | .decode .. => False
  | _ => True

theorem sentTemplates_quiet {evs trace : List Event} (h : ∀ ev ∈ evs, ev.Quiet) :
    sentTemplates (evs ++ trace) = sentTemplates trace := by
  induction evs with
  | nil => rfl
  | cons ev evs ih =>
    have hev := h ev List.mem_cons_self
    have htail := ih fun ev hev => h ev (List.mem_cons_of_mem _ hev)
    cases ev <;> first | exact htail | exact hev.elim

theorem DecodesLast.quiet {evs trace : List Event} (h : DecodesLast trace)
    (hq : ∀ ev ∈ evs, ev.Quiet) : DecodesLast (evs ++ trace) := by
  induction evs with
  | nil => exact h
  | cons ev evs ih =>
    intro e id layout earlier hsuffix
    rcases List.suffix_cons_iff.mp hsuffix with heq | hsuffix
    · have hev := hq ev List.mem_cons_self
      rw [← (List.cons.inj heq).1] at hev
      exact hev.elim
    · exact ih (fun ev hev => hq ev (List.mem_cons_of_mem _ hev)) e id layout earlier hsuffix

/-- Reads, bookings and complaints do not disturb the reading of the table. -/
theorem TableTraced.quiet {m m' : Machine} (h : TableTraced m) (evs : List Event)
    (hq : ∀ ev ∈ evs, ev.Quiet) (htable : m'.templateTable = m.templateTable)
    (htrace : m'.trace = evs ++ m.trace) : TableTraced m' := by
  constructor
  · intro slot
    rw [htable,htrace,sentTemplates_quiet hq]
    exact h.table slot
  · rw [htrace]
    exact h.decodes.quiet hq

theorem TableTraced.read {m : Machine} (h : TableTraced m) (off size : Nat) :
    TableTraced (m.read off size) :=
  h.quiet [.read off size] (by simp [Event.Quiet]) rfl rfl

end Quiet

section Steps

theorem TableTraced.store {m : Machine} (h : TableTraced m) (e : Exporter) (id : Nat)
    (fields : List FlowsetRecord) :
    TableTraced { m with
      templateTable := Function.update m.templateTable (templateSlot e id)
        (.ofFields (fields.take nfV9MaxFieldsInTemplate))
      trace := .template e id fields :: m.trace } := by
  constructor
  · intro slot
    have hsent : sentTemplates (.template e id fields :: m.trace) =
        ⟨e,id,fields⟩ :: sentTemplates m.trace := rfl
    by_cases hslot : slot = templateSlot e id
    · simp [hsent,lastInSlot,hslot,entryOf]
    · have hne : ¬templateSlot e id = slot := fun heq => hslot heq.symm
      simpa [hsent,lastInSlot,hslot,hne] using h.table slot
  · intro e' id' layout earlier hsuffix
    rcases List.suffix_cons_iff.mp hsuffix with heq | hsuffix
    · exact Event.noConfusion (List.cons.inj heq).1
    · exact h.decodes e' id' layout earlier hsuffix

theorem TableTraced.decode {m : Machine} (h : TableTraced m) (e : Exporter) (id : Nat)
    (hsome : (m.templateTable (templateSlot e id)).templateType ≠ .none) :
    TableTraced (m.log (.decode e id (m.templateTable (templateSlot e id)).fields)) := by
  refine ⟨h.table,?_⟩
  intro e' id' layout earlier hsuffix
  rcases List.suffix_cons_iff.mp hsuffix with heq | hsuffix
  · obtain ⟨hev,rfl⟩ := List.cons.inj heq
    obtain ⟨rfl,rfl,rfl⟩ := Event.decode.inj hev
    have hentry := h.table (templateSlot e' id')
    cases hlast : lastInSlot (sentTemplates m.trace) (templateSlot e' id') with
    | none =>
      rw [hentry,hlast] at hsome
      exact absurd rfl hsome
    | some last =>
      rw [hlast] at hentry
      exact ⟨last,rfl,by rw [hentry]; rfl⟩
  · exact h.decodes e' id' layout earlier hsuffix

variable (localtime : Int → Tm) (p : Packet) (e : Exporter) (flowset : Nat)

private theorem checkSource_traced {m : Machine} (h : TableTraced m) (slot : Int) :
    TableTraced { m with trace := (checkSource e slot m).trace } := by
  rcases checkSource_trace e slot m with htrace | htrace <;> rw [htrace]
  · exact h
  · exact h.quiet [.sourceCollision _] (by simp [Event.Quiet]) rfl rfl

theorem specifierReads_quiet (template n : Nat) :
    ∀ ev ∈ (specifierReads template n).reverse, ev.Quiet := by
  intro ev hev
  obtain ⟨off,size,rfl⟩ := mem_specifierReads (List.mem_reverse.mp hev)
  trivial

theorem saveAt_traced {m : Machine} (h : TableTraced m) (o : Nat) :
    TableTraced (saveAt p e flowset m o) := by
  have hreads := ((h.read 16 4).read (flowset + 4 + o) 2).read (flowset + 4 + o + 2) 2
  have hstore := (checkSource_traced e hreads
    (templateSlot e (p.ntohs (flowset + 4 + o)).toNat)).store e (p.ntohs (flowset + 4 + o)).toNat
    (fieldsAt p (flowset + 4 + o + 4) (p.ntohs (flowset + 4 + o + 2)).toNat)
  refine hstore.quiet _ (specifierReads_quiet _ _) ?_ (by rw [saveAt,saveTemplate_eq])
  rw [saveAt_templateTable,storeTemplate,fieldsAt_stored]
  rfl

theorem decodeRecord_traced {s : Nat × Machine} (h : TableTraced s.2) (dataBegin : Nat)
    (fields : List FlowsetRecord) :
    TableTraced (decodeRecord localtime p dataBegin fields s).2 := by
  obtain ⟨tail,htail,htrace⟩ := decodeRecord_trace localtime p dataBegin fields s
  refine ((h.read 4 4).read 8 4).quiet
    (tail ++ (fieldReads (dataBegin + s.1) fields).reverse) ?_
    (decodeRecord_templateTable localtime p dataBegin fields s) (by simp [htrace])
  intro ev hev
  rcases List.mem_append.mp hev with hev | hev
  · obtain ⟨_,_,_,_,rfl⟩ := htail ev hev
    trivial
  · obtain ⟨_,_,rfl⟩ := mem_fieldReads (List.mem_reverse.mp hev)
    trivial

theorem keptByV9_traced : KeptByV9 localtime p e TableTraced where
  read off size h := h.read off size
  save flowset o h := saveAt_traced p e flowset h o
  start flowset hsome h := ((h.read (flowset + 2) 2).read flowset 2).decode e _ hsome
  record dataBegin fields h := decodeRecord_traced localtime p h dataBegin fields

end Steps

theorem Collecting.traced {localtime : Int → Tm} {m : Machine} (h : Collecting localtime m) :
    TableTraced m := by
  induction h with
  | @boot m htable htrace =>
    constructor
    · intro slot
      rw [htable,htrace]
      rfl
    · rw [htrace]
      exact fun e id layout earlier hsuffix => absurd (List.suffix_nil.mp hsuffix) (by simp)
  | elsewhere g stack _ ih => exact ⟨ih.table,ih.decodes⟩
  | @datagram m m' p sourceIp _ hend ih =>
    obtain ⟨n,hn⟩ := hend
    have hstate := (keptByV9_traced localtime p (exporterOf sourceIp p)).always ih n
    rwa [hn] at hstate

/-- What an exporter's data is decoded with is what its slot received last; that is its own
template whenever the last one sent into the slot was. -/
theorem decode_uses_last_in_slot (localtime : Int → Tm) {m : Machine}
    (h : Collecting localtime m) (p : Packet) (sourceIp : InAddr) :
    (∀ fuel s t layout earlier,
      .decode s t layout :: earlier <:+ (addFlowDataV9Impl localtime p sourceIp fuel m).state.trace →
        ∃ last, lastInSlot (sentTemplates earlier) (templateSlot s t) = some last ∧
          layout = last.fields.take nfV9MaxFieldsInTemplate ∧
          (last.exporter = s → last.templateId = t →
            lastFrom (sentTemplates earlier) s t = some last)) ∧
      ∀ pos m', AtHead (fun s => s.1 < p.len) (flowsetRound localtime p (exporterOf sourceIp p))
          (nfV9HeaderSize,m) (pos,m') →
        255 < flowSetId p pos →
        lastInSlot (sentTemplates m'.trace)
          (templateSlot (exporterOf sourceIp p) (flowSetId p pos)) = none →
        ∀ fuel, (handleFlowset localtime p (exporterOf sourceIp p) pos fuel m').state.globals =
          m'.globals := by
  have hkept := keptByV9_traced localtime p (exporterOf sourceIp p)
  constructor
  · intro fuel s t layout earlier hsuffix
    have hdecodes := (hkept.always h.traced fuel).decodes
    obtain ⟨last,hlast,hlayout⟩ := hdecodes s t layout earlier hsuffix
    exact ⟨last,hlast,hlayout,lastFrom_of_lastInSlot hlast⟩
  · intro pos m' hhead h255 hnone fuel
    have hslot := (hkept.atHead h.traced hhead).table
      (templateSlot (exporterOf sourceIp p) (flowSetId p pos))
    rw [hnone] at hslot
    rw [handleFlowset_data localtime p _ pos h255]
    have hdata := handleData_none localtime p (exporterOf sourceIp p) pos (m := m'.read 16 4) fuel
      (by rw [Machine.read_templateTable,hslot]; rfl)
    simp only [hdata]
    rfl

/-- A template 256 with source, destination, bytes and start of the flow, and one record of the
never announced template 320. -/
def borrowedTemplatePacket : Packet :=
  Packet.received (bootHeader.encode ++
    beBytes 2 0 ++ beBytes 2 24 ++ beBytes 2 256 ++ beBytes 2 4 ++
      beBytes 2 8 ++ beBytes 2 4 ++ beBytes 2 12 ++ beBytes 2 4 ++
      beBytes 2 1 ++ beBytes 2 4 ++ beBytes 2 22 ++ beBytes 2 4 ++
    beBytes 2 320 ++ beBytes 2 20 ++
      beBytes 4 0x0a000001 ++ beBytes 4 0x08080808 ++ beBytes 4 1000 ++ beBytes 4 1000)
    (by decide) fun _ => 0

/-- The trace of that packet; its ninth event is the decoding. -/
def borrowedTrace : List Event :=
  (addFlowDataV9Impl (fun _ => juneMorning) borrowedTemplatePacket 0x08080808 5
    oneSubnetMachine).state.trace

theorem decode_uses_last_in_slot_borrowed :
    ∃ last, lastInSlot (sentTemplates (borrowedTrace.drop 9)) (templateSlot ⟨0x08080808,0⟩ 320) =
        some last ∧
      [⟨8,4⟩,⟨12,4⟩,⟨1,4⟩,⟨22,4⟩] = last.fields.take nfV9MaxFieldsInTemplate ∧
      (last.exporter = ⟨0x08080808,0⟩ → last.templateId = 320 →
        lastFrom (sentTemplates (borrowedTrace.drop 9)) ⟨0x08080808,0⟩ 320 = some last) := by
  have hdecode : borrowedTrace.drop 8 =
      .decode ⟨0x08080808,0⟩ 320 [⟨8,4⟩,⟨12,4⟩,⟨1,4⟩,⟨22,4⟩] :: borrowedTrace.drop 9 := by
    decide +kernel
  have hboot : Collecting (fun _ => juneMorning) oneSubnetMachine := .boot rfl rfl
  refine (decode_uses_last_in_slot (fun _ => juneMorning) hboot borrowedTemplatePacket
    0x08080808).1 5 ⟨0x08080808,0⟩ 320 _ _ ?_
  exact hdecode ▸ List.drop_suffix 8 borrowedTrace

/-- A data flowset of a template that its exporter never sent changes the table. -/
theorem borrowed_template_books :
    Collecting (fun _ => juneMorning) oneSubnetMachine ∧
      ∃ m, addFlowDataV9Impl (fun _ => juneMorning) borrowedTemplatePacket 0x08080808 5
          oneSubnetMachine = .finished m ∧
        lastFrom (sentTemplates m.trace) ⟨0x08080808,0⟩ 320 = none ∧
        m.globals.ipTable ≠ oneSubnetMachine.globals.ipTable := by
  refine ⟨.boot rfl rfl,?_⟩
  have hrun : ((addFlowDataV9Impl (fun _ => juneMorning) borrowedTemplatePacket 0x08080808 5
      oneSubnetMachine).map fun m => (decide (m.globals.ipTable = oneSubnetMachine.globals.ipTable),
        lastFrom (sentTemplates m.trace) ⟨0x08080808,0⟩ 320)) = .finished (false,none) := by
    decide +kernel
  obtain ⟨m,hm,hpair⟩ := Outcome.map_eq_finished.mp hrun
  obtain ⟨htable,hlast⟩ := Prod.mk.inj hpair
  exact ⟨m,hm,hlast,of_decide_eq_false htable⟩

end Flowstatd
