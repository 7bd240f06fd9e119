import Flowstatd.Netflow.Counting
import Flowstatd.Netflow.HandlerV5

/-!
# Behind a datagram

`main` clears its buffer before it receives a datagram, and what lies behind the buffer does not
matter to the version 5 handler, although it takes its last record from behind the datagram.
-/

namespace Flowstatd

open Framework

section Beyond

variable {localtime : Int → Tm} {datagram : List Byte} {h : datagram.length ≤ bufSize}
  {beyond beyond' : Nat → Byte}

theorem received_bytesAt {off n : Nat} (hoff : off + n ≤ bufSize) :
    bytesAt (Packet.received datagram h beyond).mem off n =
      bytesAt (Packet.received datagram h beyond').mem off n := by
  refine List.map_congr_left fun i hi => ?_
  have hlt : off + i < bufSize := by
    have := List.mem_range.mp hi
    omega
  simp only [Packet.received,hlt,ite_true]

theorem isValidPacket_received (h : datagram.length ≤ bufSize)
    (beyond beyond' : Nat → Byte) :
    isValidPacket (Packet.received datagram h beyond) =
      isValidPacket (Packet.received datagram h beyond') := by
  have hcount : (Packet.received datagram h beyond).ntohs 2 =
      (Packet.received datagram h beyond').ntohs 2 := by
    rw [Packet.ntohs,Packet.ntohs,received_bytesAt (by decide)]
  rw [isValidPacket,isValidPacket,hcount]
  rfl

theorem bookRecordV5_received {record : Nat} (hrecord : record + 28 ≤ bufSize)
    (g : Globals) :
    bookRecordV5 localtime (Packet.received datagram h beyond) g record =
      bookRecordV5 localtime (Packet.received datagram h beyond') g record := by
  simp only [bufSize] at hrecord
  have hload (off : Nat) (hoff : off + 4 ≤ bufSize) :
      (Packet.received datagram h beyond).load32 off =
        (Packet.received datagram h beyond').load32 off := by
    rw [Packet.load32,Packet.load32,received_bytesAt hoff]
  have hntohl (off : Nat) (hoff : off + 4 ≤ bufSize) :
      (Packet.received datagram h beyond).ntohl off =
        (Packet.received datagram h beyond').ntohl off := by
    rw [Packet.ntohl,Packet.ntohl,received_bytesAt hoff]
  simp only [bufSize] at hload hntohl
  simp only [bookRecordV5,nfTimeInfoV5]
  rw [hload record (by omega),hload (record + 4) (by omega),hntohl (record + 20) (by omega),
    hntohl (record + 24) (by omega),hntohl 4 (by decide),hntohl 8 (by decide),
    hntohl 12 (by decide)]

/-- Behind the datagram the buffer is zero, and a record from there names no outside address. -/
theorem bookRecordV5_behind {record : Nat} (hlen : datagram.length ≤ record)
    (hrecord : record + 8 ≤ bufSize) (g : Globals) :
    bookRecordV5 localtime (Packet.received datagram h beyond) g record = g := by
  have hzero (off : Nat) (hoff : record ≤ off) (hend : off + 4 ≤ bufSize) :
      (Packet.received datagram h beyond).load32 off = 0 := by
    have hbytes : bytesAt (Packet.received datagram h beyond).mem off 4 = [0,0,0,0] := by
      have hbyte (i : Nat) (hi : i < 4) : (Packet.received datagram h beyond).mem (off + i) = 0 := by
        have hlt : off + i < bufSize := by omega
        simp only [Packet.received,hlt,ite_true]
        exact List.getD_eq_default _ _ (by omega)
      simp only [bytesAt,List.range_succ,List.range_zero,List.nil_append,List.cons_append,
        List.map_cons,List.map_nil,hbyte 0 (by decide),hbyte 1 (by decide),hbyte 2 (by decide),
        hbyte 3 (by decide)]
    rw [Packet.load32,hbytes]
    rfl
  rw [bookRecordV5,hzero record le_rfl (by omega),hzero (record + 4) (by omega) (by omega)]
  exact insertFlow_oneSided (f := ⟨0,0,_,_⟩) localtime g Iff.rfl

theorem bookRecordV5_alike
    (hvalid : 0 < isValidPacket (Packet.received datagram h beyond)) {record : Nat}
    (hrecord : record ∈ recordOffsets (nfV5HeaderSize + nfV5RecordSize)
      (isValidPacket (Packet.received datagram h beyond)).toNat) (g : Globals) :
    bookRecordV5 localtime (Packet.received datagram h beyond) g record =
      bookRecordV5 localtime (Packet.received datagram h beyond') g record := by
  have hlen : datagram.length = 24 + 48 * (isValidPacket (Packet.received datagram h beyond)).toNat :=
    (isValidPacket_pos hvalid).1
  have hfits : datagram.length ≤ 8192 := h
  obtain ⟨i,hi,rfl⟩ := List.mem_map.mp hrecord
  rw [List.mem_range] at hi
  simp only [nfV5HeaderSize,nfV5RecordSize]
  by_cases hlast : i + 1 < (isValidPacket (Packet.received datagram h beyond)).toNat
  · exact bookRecordV5_received (show 24 + 48 + 48 * i + 28 ≤ 8192 by omega) g
  · have hroom : 24 + 48 + 48 * i + 8 ≤ 8192 := by omega
    rw [bookRecordV5_behind (by omega) hroom,bookRecordV5_behind (by omega) hroom]

/-- Handling a version 5 datagram does not depend on what lies behind the buffer. -/
theorem addFlowDataV5Impl_received {m m' : Machine} (hm : m.globals = m'.globals) :
    (addFlowDataV5Impl localtime (Packet.received datagram h beyond) m).globals =
      (addFlowDataV5Impl localtime (Packet.received datagram h beyond') m').globals := by
  have hcount := isValidPacket_received h beyond beyond'
  by_cases hvalid : 0 < isValidPacket (Packet.received datagram h beyond)
  · rw [addFlowDataV5Impl_globals localtime _ _ hvalid,
      addFlowDataV5Impl_globals localtime _ _ (hcount ▸ hvalid),← hcount,hm]
    exact List.foldl_ext _ _ _ fun g record hrecord => bookRecordV5_alike hvalid hrecord g
  · rw [addFlowDataV5Impl,addFlowDataV5Impl,if_neg hvalid,if_neg (hcount ▸ hvalid),hm]

end Beyond

end Flowstatd
