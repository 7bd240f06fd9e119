import Flowstatd.Netflow.HandlerV5
import Flowstatd.Netflow.V9Walk

/-!
# Dispatch on the version of a datagram
-/

namespace Flowstatd

open Framework

/-- `AddFlowData`: other versions are dropped. -/
def addFlowData (localtime : Int → Tm) (p : Packet) (sourceIp : InAddr) (fuel : Nat)
    (m : Machine) : Outcome Machine :=
  let m := m.read 0 2
  if (p.ntohs 0).toNat = 9 then addFlowDataV9Impl localtime p sourceIp fuel m
  else if (p.ntohs 0).toNat = 5 then .finished (addFlowDataV5Impl localtime p m)
  else .finished m

theorem addFlowDataV9Impl_steady (localtime : Int → Tm) (p : Packet) (sourceIp : InAddr) :
    Steady (addFlowDataV9Impl localtime p sourceIp) :=
  ((whileLoop_steady (flowsetRound_steady localtime p (exporterOf sourceIp p))).map
    Prod.snd).comp fun m => (nfV9HeaderSize,m)

theorem addFlowData_steady (localtime : Int → Tm) (p : Packet) (sourceIp : InAddr) :
    Steady (addFlowData localtime p sourceIp) := by
  intro n k m m' hnk h
  unfold addFlowData at h ⊢
  split_ifs at h ⊢
  · exact addFlowDataV9Impl_steady localtime p sourceIp n k _ m' hnk h
  · exact h
  · exact h

end Flowstatd
