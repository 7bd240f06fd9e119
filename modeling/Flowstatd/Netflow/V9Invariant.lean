import Flowstatd.Netflow.V9Walk

/-!
# The invariant rule of the version 9 handler

The handler reads, saves templates, starts on the data of a flowset and decodes records. What
each of these keeps, every state of a run has.
-/

namespace Flowstatd

open Framework

/-- A property of the machine that every step of the handler keeps. -/
structure KeptByV9 (localtime : Int → Tm) (p : Packet) (e : Exporter) (P : Machine → Prop) :
    Prop where
  read : ∀ {m} off size, P m → P (m.read off size)
  save : ∀ {m} flowset o, P m → P (saveAt p e flowset m o)
  start : ∀ {m} flowset,
    (m.templateTable (templateSlot e (flowSetId p flowset))).templateType ≠ .none →
      P m → P (dataStart p e flowset m)
  record : ∀ {s : Nat × Machine} dataBegin fields, P s.2 →
    P (decodeRecord localtime p dataBegin fields s).2

namespace KeptByV9

variable {localtime : Int → Tm} {p : Packet} {e : Exporter} {P : Machine → Prop}

private theorem data (h : KeptByV9 localtime p e P) (flowset : Nat) {m : Machine} (hm : P m) :
    Always (handleData localtime p e flowset) P m := by
  intro fuel
  by_cases hnone : (m.templateTable (templateSlot e (flowSetId p flowset))).templateType = .none
  · rw [handleData_none localtime p e flowset fuel hnone]
    exact h.read flowset 2 (h.read (flowset + 2) 2 hm)
  · have hloop (entry : TemplateTableEntry) : Always (recordLoop localtime p (flowset + 4)
        (flowSetLength p flowset) entry) (fun s => P s.2) (0,dataStart p e flowset m) :=
      always_whileLoop (h.start flowset hnone hm) fun _ _ _ hs _ => h.record _ _ hs
    rw [handleData_some localtime p e flowset fuel hnone,Outcome.state_map]
    exact hloop _ fuel

theorem flowset (h : KeptByV9 localtime p e P) (flowset : Nat) {m : Machine} (hm : P m) :
    Always (handleFlowset localtime p e flowset) P m := by
  intro fuel
  by_cases h0 : flowSetId p flowset = 0
  · have hloop : Always (templateLoop p e flowset) (fun s => P s.2)
        (0,m.read (flowset + 2) 2) :=
      always_whileLoop (h.read (flowset + 2) 2 hm) fun s _ _ hs _ => h.save flowset s.1 hs
    rw [handleFlowset_template localtime p e flowset h0]
    simp only [Outcome.state_map]
    exact hloop fuel
  · by_cases h255 : 255 < flowSetId p flowset
    · rw [handleFlowset_data localtime p e flowset h255]
      exact h.data flowset (h.read 16 4 hm) fuel
    · rw [handleFlowset_other localtime p e flowset h0 (by omega)]
      exact hm

private theorem round (h : KeptByV9 localtime p e P) {s : Nat × Machine} (hs : P s.2) :
    Always (flowsetRound localtime p e) (fun s => P s.2) s := by
  intro fuel
  have hflowset := h.flowset s.1 (h.read s.1 2 hs) fuel
  rw [flowsetRound]
  cases hrun : handleFlowset localtime p e s.1 fuel (s.2.read s.1 2) with
  | cut m =>
    rw [hrun] at hflowset
    exact hflowset
  | finished m =>
    rw [hrun] at hflowset
    exact h.read (s.1 + 2) 2 hflowset

theorem atHead (h : KeptByV9 localtime p e P) {m : Machine} (hm : P m) {s : Nat × Machine}
    (hhead : AtHead (fun s => s.1 < p.len) (flowsetRound localtime p e) (nfV9HeaderSize,m) s) :
    P s.2 := by
  induction hhead with
  | start => exact hm
  | @next s s' _ _ hend ih =>
    obtain ⟨n,hn⟩ := hend
    have hround := h.round ih n
    rwa [hn] at hround

/-- The invariant holds in every state that a run of the handler passes through. -/
theorem always {sourceIp : InAddr} (h : KeptByV9 localtime p (exporterOf sourceIp p) P)
    {m : Machine} (hm : P m) : Always (addFlowDataV9Impl localtime p sourceIp) P m := by
  intro fuel
  rw [addFlowDataV9Impl,Outcome.state_map]
  exact always_whileLoop (P := fun s : Nat × Machine => P s.2) hm
    (fun _ _ _ hs => h.round hs) fuel

end KeptByV9

end Flowstatd
