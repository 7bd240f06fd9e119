import Flowstatd.Netflow.Buffer

/-!
# Version 5 datagrams on the wire

The structures of `netflow_handler_v5.h` as data, the bytes that an exporter sends for them, and
what the handler makes of those bytes.
-/

namespace Flowstatd

open Framework

/-- `struct NF_V5_header`, without version and count. -/
structure NfV5Header where
  sysUptime : U32
  unixSecs : U32
  unixNsecs : U32
  flowSequence : U32
  engineType : Byte
  engineId : Byte
  reserved : BitVec 16

/-- `struct NF_V5_record`; the addresses are kept as the handler loads them. -/
structure NfV5Record where
  srcaddr : InAddr
  dstaddr : InAddr
  nexthop : InAddr
  input : BitVec 16
  output : BitVec 16
  dPkts : U32
  dOctets : U32
  first : U32
  last : U32
  srcport : BitVec 16
  dstport : BitVec 16
  pad1 : Byte
  tcpFlags : Byte
  prot : Byte
  tos : Byte
  srcAs : BitVec 16
  dstAs : BitVec 16
  srcMask : Byte
  dstMask : Byte
  pad2 : BitVec 16

/-- The header behind the version. -/
def NfV5Header.encode (h : NfV5Header) (count : Nat) : List Byte :=
  beBytes 2 count ++ beBytes 4 h.sysUptime.toNat ++ beBytes 4 h.unixSecs.toNat ++
    beBytes 4 h.unixNsecs.toNat ++ beBytes 4 h.flowSequence.toNat ++ [h.engineType,h.engineId] ++
    beBytes 2 h.reserved.toNat

def NfV5Record.encode (r : NfV5Record) : List Byte :=
  leBytes 4 r.srcaddr.toNat ++ leBytes 4 r.dstaddr.toNat ++ leBytes 4 r.nexthop.toNat ++
    beBytes 2 r.input.toNat ++ beBytes 2 r.output.toNat ++ beBytes 4 r.dPkts.toNat ++
    beBytes 4 r.dOctets.toNat ++ beBytes 4 r.first.toNat ++ beBytes 4 r.last.toNat ++
    beBytes 2 r.srcport.toNat ++ beBytes 2 r.dstport.toNat ++
    [r.pad1,r.tcpFlags,r.prot,r.tos] ++ beBytes 2 r.srcAs.toNat ++ beBytes 2 r.dstAs.toNat ++
    [r.srcMask,r.dstMask] ++ beBytes 2 r.pad2.toNat

/-- A datagram that the buffer of `main` takes whole. -/
structure NfV5Datagram where
  header : NfV5Header
  records : List NfV5Record
  fits : nfV5HeaderSize + nfV5RecordSize * records.length ≤ bufSize

namespace NfV5Datagram

/-- The bytes behind the version. -/
def body (x : NfV5Datagram) : List Byte :=
  x.header.encode x.records.length ++ x.records.flatMap NfV5Record.encode

def encode (x : NfV5Datagram) : List Byte := beBytes 2 5 ++ x.body

end NfV5Datagram

/-- The flow that a record says. -/
def NfV5Record.flow (h : NfV5Header) (r : NfV5Record) : Flow :=
  ⟨r.srcaddr,r.dstaddr,r.dOctets,⟨h.sysUptime,h.unixSecs,h.unixNsecs,r.first⟩⟩

/-- The flows that the handler passes on: those of all records but the first. -/
def NfV5Datagram.passedOn (x : NfV5Datagram) : List Flow :=
  x.records.tail.map (NfV5Record.flow x.header)

section Encoding

theorem NfV5Header.encode_length (h : NfV5Header) (count : Nat) : (h.encode count).length = 22 := by
  simp [NfV5Header.encode]

theorem NfV5Record.encode_length (r : NfV5Record) : r.encode.length = nfV5RecordSize := by
  simp [NfV5Record.encode,nfV5RecordSize]

theorem NfV5Datagram.encode_length (x : NfV5Datagram) :
    x.encode.length = nfV5HeaderSize + nfV5RecordSize * x.records.length := by
  simp [encode,body,NfV5Header.encode_length,flatMap_length NfV5Record.encode_length,
    nfV5HeaderSize]
  omega

theorem NfV5Datagram.encode_fits (x : NfV5Datagram) : x.encode.length ≤ bufSize :=
  x.encode_length ▸ x.fits

end Encoding

section Decoding

variable {p : Packet} {h : NfV5Header}

theorem Packet.load32_word {off : Nat} {x : U32} (hx : Holds p.mem off (leBytes 4 x.toNat)) :
    p.load32 off = x := by
  rw [load32_of_holds hx (by simp),ofNat_leNat_leBytes 4 (by decide)]

theorem nfTimeInfoV5_encoded {count off : Nat} {r : NfV5Record}
    (hh : Holds p.mem 2 (h.encode count)) (hr : Holds p.mem off r.encode) :
    nfTimeInfoV5 p off = (r.flow h).info := by
  simp only [NfV5Header.encode,holds_append,List.length_append,beBytes_length,Nat.reduceAdd,
    and_assoc] at hh
  obtain ⟨-,hsysUptime,hunixSecs,hunixNsecs,-⟩ := hh
  simp only [NfV5Record.encode,holds_append,List.length_append,leBytes_length,beBytes_length,
    Nat.reduceAdd,and_assoc] at hr
  obtain ⟨-,-,-,-,-,-,-,hfirst,-⟩ := hr
  simp only [nfTimeInfoV5,NfV5Record.flow]
  rw [Packet.ntohl_word hsysUptime,Packet.ntohl_word hunixSecs,Packet.ntohl_word hunixNsecs,
    Packet.ntohl_word hfirst]

/-- A record on the wire is booked as the flow that it says. -/
theorem bookRecordV5_encoded (localtime : Int → Tm) {count off : Nat} {r : NfV5Record}
    (hh : Holds p.mem 2 (h.encode count)) (hr : Holds p.mem off r.encode) (g : Globals) :
    bookRecordV5 localtime p g off = insertFlow localtime g (r.flow h) := by
  have hinfo := nfTimeInfoV5_encoded hh hr
  simp only [NfV5Record.encode,holds_append,List.length_append,leBytes_length,beBytes_length,
    Nat.reduceAdd,and_assoc] at hr
  obtain ⟨hsrcaddr,hdstaddr,-,-,-,-,hdOctets,-⟩ := hr
  rw [bookRecordV5,hinfo,Packet.load32_word hsrcaddr,Packet.load32_word hdstaddr,
    Packet.ntohl_word hdOctets]
  rfl

theorem bookRecordsV5_encoded (localtime : Int → Tm) {count : Nat}
    (hh : Holds p.mem 2 (h.encode count)) (rs : List NfV5Record) {start : Nat}
    (hrs : Holds p.mem start (rs.flatMap NfV5Record.encode)) (g : Globals) :
    (recordOffsets start rs.length).foldl (bookRecordV5 localtime p) g =
      insertFlows localtime g (rs.map (NfV5Record.flow h)) := by
  induction rs generalizing start g with
  | nil => rfl
  | cons r rs ih =>
    rw [List.flatMap_cons,holds_append,NfV5Record.encode_length] at hrs
    rw [List.length_cons,recordOffsets_succ,List.foldl_cons,bookRecordV5_encoded localtime hh hrs.1,
      ih hrs.2]
    rfl

theorem recordOffsets_concat (start n : Nat) :
    recordOffsets start (n + 1) = recordOffsets start n ++ [start + nfV5RecordSize * n] := by
  simp [recordOffsets,List.range_succ]

end Decoding

private theorem twice_fits (r : NfV5Record) :
    nfV5HeaderSize + nfV5RecordSize * [r,r].length ≤ bufSize := by
  simp [bufSize,nfV5HeaderSize,nfV5RecordSize]

/-- A flow that begins at `unixSecs`, in two records: the first one is left out. -/
def NfV5Datagram.twice (unixSecs : U32) (srcaddr dstaddr : InAddr) (dOctets : U32) : NfV5Datagram :=
  let record : NfV5Record :=
    ⟨srcaddr,dstaddr,0,0,0,1,dOctets,1000,1000,0,0,0,0,0,0,0,0,0,0,0⟩
  ⟨⟨1000,unixSecs,0,0,0,0,0⟩,[record,record],twice_fits record⟩

section Handling

variable (localtime : Int → Tm) (x : NfV5Datagram) (beyond : Nat → Byte)

/-- The buffer of `main` with the datagram, and with anything behind it. -/
def NfV5Datagram.packet : Packet := Packet.received x.encode x.encode_fits beyond

theorem NfV5Datagram.packet_holds :
    Holds (x.packet beyond).mem 2 (x.header.encode x.records.length) ∧
      Holds (x.packet beyond).mem nfV5HeaderSize (x.records.flatMap NfV5Record.encode) := by
  have hall : Holds (x.packet beyond).mem 0 (beBytes 2 5 ++ x.body) :=
    Packet.received_holds x.encode x.encode_fits beyond
  rw [body,holds_append,holds_append] at hall
  simp only [beBytes_length,NfV5Header.encode_length] at hall
  exact hall.2

theorem NfV5Datagram.packet_valid : isValidPacket (x.packet beyond) = x.records.length := by
  have hfits := x.fits
  have hcount := (x.packet_holds beyond).1
  simp only [NfV5Header.encode,holds_append,and_assoc] at hcount
  simp only [nfV5HeaderSize,nfV5RecordSize,bufSize] at hfits
  apply isValidPacket_of_records
  · exact x.encode_length
  · exact Packet.ntohs_encoded hcount.1 (by omega)

/-- All records of an encoded datagram but the first are booked. -/
theorem addFlowDataV5Impl_encoded (m : Machine) :
    (addFlowDataV5Impl localtime (x.packet beyond) m).globals =
      insertFlows localtime m.globals x.passedOn := by
  have hvalid := x.packet_valid beyond
  cases hrs : x.records with
  | nil =>
    have hnone : ¬0 < isValidPacket (x.packet beyond) := by simp [hvalid,hrs]
    rw [addFlowDataV5Impl,if_neg hnone,NfV5Datagram.passedOn,hrs]
    rfl
  | cons r rs =>
    obtain ⟨hheader,hrecords⟩ := x.packet_holds beyond
    have hpos : 0 < isValidPacket (x.packet beyond) := by
      rw [hvalid,hrs,List.length_cons]
      omega
    have hfits := x.fits
    rw [hrs,List.flatMap_cons,holds_append,NfV5Record.encode_length] at hrecords
    have hlen := x.encode_length
    simp only [hrs,List.length_cons,nfV5HeaderSize,nfV5RecordSize,bufSize] at hfits hlen
    rw [addFlowDataV5Impl_globals localtime _ m hpos,hvalid,hrs,Int.toNat_natCast,List.length_cons,
      recordOffsets_concat,List.foldl_append,
      bookRecordsV5_encoded localtime hheader rs hrecords.2,NfV5Datagram.passedOn,hrs]
    -- the last record is taken from behind the datagram
    apply bookRecordV5_behind
    · simp only [nfV5HeaderSize,nfV5RecordSize]
      omega
    · simp only [nfV5HeaderSize,nfV5RecordSize,bufSize]
      omega

/-- A datagram as an exporter sends it is accepted, and all its records but the first are booked,
once and in order, whatever lies behind the buffer. -/
theorem encoded_datagram_booked (m : Machine) :
    isValidPacket (x.packet beyond) = x.records.length ∧
      (addFlowDataV5Impl localtime (x.packet beyond) m).globals =
        insertFlows localtime m.globals x.passedOn :=
  ⟨x.packet_valid beyond,addFlowDataV5Impl_encoded localtime x beyond m⟩

end Handling

end Flowstatd
