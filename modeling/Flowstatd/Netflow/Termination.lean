import Flowstatd.Netflow.HandlerV5
import Flowstatd.Netflow.V9Walk

/-!
# When a version 9 datagram is handled in finitely many steps

The template loop always ends. The flowset loop is trapped by a length field that is zero, and
the record loop by a stored layout that takes no bytes; nothing else keeps them going.
-/

namespace Flowstatd

open Framework

/-- Every flowset header that the lengths lead to has a nonzero length, and no data flowset is
decoded with a layout that takes no bytes. -/
def AlwaysAdvances (p : Packet) (e : Exporter) (table : TemplateTable) : Prop :=
  ∀ k, (flowsetWalk p e table k).1 < p.len →
    flowSetLength p (flowsetWalk p e table k).1 ≠ 0 ∧
      ¬ZeroWidthData p e (flowsetWalk p e table k).2 (flowsetWalk p e table k).1

private theorem not_terminates_of_zero_length (localtime : Int → Tm) (p : Packet) (e : Exporter)
    {s : Nat × Machine} (hlt : s.1 < p.len) (hzero : flowSetLength p s.1 = 0) :
    ¬Terminates (flowsetLoop localtime p e) s := by
  refine not_terminates_of_trap (fun t => t.1 = s.1) ?_ ?_ rfl
  · rintro t ht
    rwa [ht]
  · intro t t' ht hend
    rw [(flowsetRound_ends localtime p e hend).1,ht,hzero,Nat.add_zero]

/-- In a loop that ends, the walk meets nothing that stops it from advancing. -/
private theorem advances_of_terminates (localtime : Int → Tm) (p : Packet) (e : Exporter)
    (m : Machine) (h : Terminates (flowsetLoop localtime p e) (nfV9HeaderSize,m)) :
    AlwaysAdvances p e m.templateTable := by
  intro k
  induction k using Nat.strong_induction_on with
  | _ k ih =>
    intro hk
    have hbelow (j : Nat) (hj : j < k) : (flowsetWalk p e m.templateTable j).1 < p.len :=
      Nat.lt_of_le_of_lt (flowsetWalk_mono p e _ (Nat.le_of_lt hj)) hk
    obtain ⟨s,hhead,hs⟩ := flowsetLoop_reaches localtime p e m k hbelow
      fun j hj => (ih j hj (hbelow j hj)).2
    rw [hs] at hk ⊢
    have hsteady := flowsetRound_steady localtime p e
    constructor
    · intro hzero
      exact not_terminates_of_zero_length localtime p e hk hzero
        (terminates_atHead hsteady h hhead)
    · exact (flowsetRound_terminates_iff localtime p e s).mp
        (terminates_body hsteady h hhead hk)

private theorem terminates_of_advances (localtime : Int → Tm) (p : Packet) (e : Exporter)
    (m : Machine) (h : AlwaysAdvances p e m.templateTable) :
    Terminates (flowsetLoop localtime p e) (nfV9HeaderSize,m) := by
  refine terminates_of_measure (flowsetRound_steady localtime p e) (fun s => p.len - s.1) ?_
  intro s hhead hlt
  obtain ⟨k,hk,_⟩ := flowsetLoop_atHead localtime p e hhead
  have hadvance := h k
  rw [hk] at hadvance
  obtain ⟨hpos,hclear⟩ := hadvance hlt
  dsimp only at hpos
  obtain ⟨s',hend⟩ := (flowsetRound_terminates_iff localtime p e s).mpr hclear
  refine ⟨s',hend,?_⟩
  have hnext := (flowsetRound_ends localtime p e hend).1
  omega

private theorem addFlowDataV9Impl_terminates (localtime : Int → Tm) (p : Packet)
    (sourceIp : InAddr) (m : Machine) :
    Terminates (addFlowDataV9Impl localtime p sourceIp) m ↔
      Terminates (flowsetLoop localtime p (exporterOf sourceIp p)) (nfV9HeaderSize,m) := by
  constructor
  · rintro ⟨m',n,hn⟩
    obtain ⟨s,hs,_⟩ := Outcome.map_eq_finished.mp hn
    exact ⟨s,n,hs⟩
  · rintro ⟨s,n,hn⟩
    exact ⟨s.2,n,Outcome.map_eq_finished.mpr ⟨s,hn,rfl⟩⟩

/-- The handler ends exactly on the packets whose walk always advances. -/
theorem addFlowDataV9Impl_terminates_iff (localtime : Int → Tm) (p : Packet)
    (sourceIp : InAddr) (m : Machine) :
    Terminates (addFlowDataV9Impl localtime p sourceIp) m ↔
      AlwaysAdvances p (exporterOf sourceIp p) m.templateTable := by
  rw [addFlowDataV9Impl_terminates]
  exact ⟨advances_of_terminates localtime p _ m,terminates_of_advances localtime p _ m⟩

/-- The header of a datagram sent one second after boot. -/
def bootHeader : HeaderV9 := ⟨1,1000,1340000000,0,0⟩

/-- A header and a flowset with id 1 whose length field is zero. -/
def zeroLengthPacket : Packet :=
  Packet.received (bootHeader.encode ++ beBytes 2 1 ++ beBytes 2 0) (by decide) fun _ => 0

/-- The handler never returns from a datagram of 24 bytes, with no template stored at all. -/
theorem zero_length_flowset_never_ends :
    zeroLengthPacket.ntohs 0 = 9 ∧
      ¬Terminates (addFlowDataV9Impl (fun _ => juneMorning) zeroLengthPacket 0x08080808)
        oneSubnetMachine := by
  refine ⟨by decide +kernel,?_⟩
  rw [addFlowDataV9Impl_terminates]
  exact not_terminates_of_zero_length _ _ _ (by decide) (by decide +kernel)

end Flowstatd
