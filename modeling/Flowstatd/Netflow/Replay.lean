import Flowstatd.Netflow.AddFlowData
import Flowstatd.Netflow.V9Invariant

/-!
# What a datagram does to the table

Whatever a datagram contains, and however far its handling has got, the globals are those before
it with the credits of the flows passed on so far applied to the table.
-/

namespace Flowstatd

open Framework

/-- The bookings that an event leads to under the networks and the day of `g`. -/
def Event.credits (localtime : Int → Tm) (g : Globals) : Event → List Credit
  | .insert src dst bytes info => (creditOf localtime g src dst bytes info).toList
  | _ => []

/-- The bookings of a trace, in the order in which they were made. -/
def traceCredits (localtime : Int → Tm) (g : Globals) (trace : List Event) : List Credit :=
  trace.reverse.flatMap (Event.credits localtime g)

theorem traceCredits_lawful (localtime : Int → Tm) (g : Globals) (trace : List Event) :
    ∀ c ∈ traceCredits localtime g trace, c.Lawful g := by
  intro c hc
  obtain ⟨ev,_,hev⟩ := List.mem_flatMap.mp hc
  cases ev with
  | insert src dst bytes info => exact creditOf_lawful (Option.mem_toList.mp hev)
  | _ => exact absurd hev List.not_mem_nil

/-- `m'` is `m` with the credits of the events in between applied. -/
def Replays (localtime : Int → Tm) (m m' : Machine) : Prop :=
  ∃ evs, m'.trace = evs ++ m.trace ∧
    m'.globals = { m.globals with
      ipTable := (traceCredits localtime m.globals evs).foldl Credit.apply m.globals.ipTable }

section Replays

variable {localtime : Int → Tm}

theorem Replays.refl (m : Machine) : Replays localtime m m := ⟨[],rfl,rfl⟩

theorem Replays.trans {a b c : Machine} (h : Replays localtime a b)
    (h' : Replays localtime b c) : Replays localtime a c := by
  obtain ⟨evs,htrace,hglobals⟩ := h
  obtain ⟨evs',htrace',hglobals'⟩ := h'
  refine ⟨evs' ++ evs,by rw [htrace',htrace,List.append_assoc],?_⟩
  have hcredits : traceCredits localtime b.globals evs' = traceCredits localtime a.globals evs' := by
    rw [hglobals]
    rfl
  rw [hglobals',hcredits,hglobals]
  simp only [traceCredits,List.reverse_append,List.flatMap_append,List.foldl_append]

theorem Replays.of_quiet {m m' : Machine} (evs : List Event)
    (hq : ∀ ev ∈ evs, ∀ src dst bytes info, ev ≠ .insert src dst bytes info)
    (htrace : m'.trace = evs ++ m.trace) (hglobals : m'.globals = m.globals) :
    Replays localtime m m' := by
  have hnone : traceCredits localtime m.globals evs = [] := by
    refine List.flatMap_eq_nil_iff.mpr fun ev hev => ?_
    have hne := hq ev (List.mem_reverse.mp hev)
    cases ev with
    | insert src dst bytes info => exact absurd rfl (hne src dst bytes info)
    | _ => rfl
  exact ⟨evs,htrace,by rw [hnone,hglobals]; rfl⟩

theorem replays_log (m : Machine) {ev : Event}
    (h : ∀ src dst bytes info, ev ≠ .insert src dst bytes info) :
    Replays localtime m (m.log ev) :=
  .of_quiet [ev] (by simpa using h) rfl rfl

theorem replays_read (m : Machine) (off size : Nat) : Replays localtime m (m.read off size) :=
  replays_log m fun _ _ _ _ => Event.noConfusion

theorem replays_insert (m : Machine) (src dst : InAddr) (bytes : U32) (info : NfTimeInfo) :
    Replays localtime m (m.insert localtime src dst bytes info) := by
  refine ⟨[.insert src dst bytes info],rfl,?_⟩
  rw [Machine.insert_globals,insertNfInfoToIpTable_eq]
  simp [traceCredits,Event.credits]

end Replays

section Handlers

variable (localtime : Int → Tm) (p : Packet) (e : Exporter)

private theorem insertFlowEntryLoop_replays (n ptr : Nat) (m : Machine) :
    Replays localtime m (insertFlowEntryLoop localtime p n ptr m) := by
  induction n generalizing ptr m with
  | zero => exact .refl m
  | succ n ih =>
    refine Replays.trans ?_ (ih _ _)
    exact ((((((((replays_read m _ _).trans (replays_read _ _ _)).trans (replays_read _ _ _)).trans
      (replays_read _ _ _)).trans (replays_read _ _ _)).trans (replays_read _ _ _)).trans
      (replays_read _ _ _)).trans (replays_insert _ _ _ _ _))

theorem addFlowDataV5Impl_replays (m : Machine) :
    Replays localtime m (addFlowDataV5Impl localtime p m) := by
  rw [addFlowDataV5Impl]
  split_ifs
  · exact insertFlowEntryLoop_replays localtime p _ _ m
  · exact .refl m

private theorem saveAt_replays (flowset : Nat) (m : Machine) (o : Nat) :
    Replays localtime m (saveAt p e flowset m o) := by
  let reads := ((m.read 16 4).read (flowset + 4 + o) 2).read (flowset + 4 + o + 2) 2
  let slot := templateSlot e (p.ntohs (flowset + 4 + o)).toNat
  have hreads : Replays localtime m reads :=
    ((replays_read m _ _).trans (replays_read _ _ _)).trans (replays_read _ _ _)
  have hcheck : Replays localtime reads { reads with trace := (checkSource e slot reads).trace } := by
    rcases checkSource_trace e slot reads with h | h <;> rw [h]
    · exact .refl reads
    · exact replays_log reads fun _ _ _ _ => Event.noConfusion
  refine (hreads.trans hcheck).trans (.of_quiet
    ((specifierReads (flowset + 4 + o) (storedFieldCount p (flowset + 4 + o))).reverse ++
      [.template e (p.ntohs (flowset + 4 + o)).toNat
        (fieldsAt p (flowset + 4 + o + 4) (p.ntohs (flowset + 4 + o + 2)).toNat)]) ?_ ?_
    (saveAt_globals p e flowset m o))
  · intro ev hev
    rcases List.mem_append.mp hev with hev | hev
    · obtain ⟨_,_,rfl⟩ := mem_specifierReads (List.mem_reverse.mp hev)
      exact fun _ _ _ _ => Event.noConfusion
    · rw [List.mem_singleton.mp hev]
      exact fun _ _ _ _ => Event.noConfusion
  · rw [saveAt,saveTemplate_eq]
    simp [reads,slot]

private theorem decodeRecord_replays (dataBegin : Nat) (fields : List FlowsetRecord)
    (s : Nat × Machine) :
    Replays localtime s.2 (decodeRecord localtime p dataBegin fields s).2 := by
  rw [decodeRecord_eq]
  have hreads : Replays localtime s.2
      { s.2 with
        stack := fun n => s.2.stack (n + 1)
        trace := (fieldReads (dataBegin + s.1) fields).reverse ++
          .read 8 4 :: .read 4 4 :: s.2.trace } := by
    refine .of_quiet ((fieldReads (dataBegin + s.1) fields).reverse ++ [.read 8 4,.read 4 4]) ?_
      (by simp) rfl
    intro ev hev
    rcases List.mem_append.mp hev with hev | hev
    · obtain ⟨_,_,rfl⟩ := mem_fieldReads (List.mem_reverse.mp hev)
      exact fun _ _ _ _ => Event.noConfusion
    · simp only [List.mem_cons,List.not_mem_nil,or_false] at hev
      rcases hev with rfl | rfl <;> exact fun _ _ _ _ => Event.noConfusion
  by_cases h : (recordVars p (dataBegin + s.1) (s.2.stack 0) fields).complete
  · simp only [h,ite_true]
    exact hreads.trans (replays_insert _ _ _ _ _)
  · simp only [h,ite_false]
    exact hreads

theorem keptByV9_replays (m : Machine) : KeptByV9 localtime p e (Replays localtime m) where
  read off size h := h.trans (replays_read _ off size)
  save flowset o h := h.trans (saveAt_replays localtime p e flowset _ o)
  start flowset _ h :=
    ((h.trans (replays_read _ (flowset + 2) 2)).trans (replays_read _ flowset 2)).trans
      (replays_log _ fun _ _ _ _ => Event.noConfusion)
  record dataBegin fields h := h.trans (decodeRecord_replays localtime p dataBegin fields _)

theorem addFlowData_replays (sourceIp : InAddr) (m : Machine) :
    Always (addFlowData localtime p sourceIp) (Replays localtime m) m := by
  intro fuel
  refine (replays_read m 0 2).trans ?_
  rw [addFlowData]
  split_ifs
  · exact (keptByV9_replays localtime p (exporterOf sourceIp p) _).always (.refl _) fuel
  · exact addFlowDataV5Impl_replays localtime p _
  · exact .refl _

end Handlers

end Flowstatd
