import Flowstatd.Netflow.Machine

/-!
# Version 5 datagrams

A 24-byte header and 48-byte records. The record loop advances its pointer before it takes a
record, so it walks the records one place too far.
-/

namespace Flowstatd

open Framework

def nfV5HeaderSize : Nat := 24
def nfV5RecordSize : Nat := 48

/-- The subtraction is done in `size_t` and the quotient is stored in an `int`. -/
def isValidPacket (p : Packet) : Int :=
  let rest : BitVec 64 := BitVec.ofNat 64 p.len - BitVec.ofNat 64 nfV5HeaderSize
  if rest % BitVec.ofNat 64 nfV5RecordSize ≠ 0 then 0
  else
    let recCount := ((rest / BitVec.ofNat 64 nfV5RecordSize).setWidth 32).toInt
    if ((p.ntohs 2).toNat : Int) ≠ recCount then 0 else recCount

/-- Header times and the record's own `First`. -/
def nfTimeInfoV5 (p : Packet) (record : Nat) : NfTimeInfo :=
  ⟨p.ntohl 4,p.ntohl 8,p.ntohl 12,p.ntohl (record + 24)⟩

/-- The body of the record loop, with the record at offset `record`. -/
def insertRecordV5 (localtime : Int → Tm) (p : Packet) (record : Nat) (m : Machine) : Machine :=
  let m := ((m.read 4 4).read 8 4).read 12 4
  let m := (m.read (record + 24) 4).read (record + 20) 4
  let m := (m.read record 4).read (record + 4) 4
  m.insert localtime (p.load32 record) (p.load32 (record + 4)) (p.ntohl (record + 20))
    (nfTimeInfoV5 p record)

def insertFlowEntryLoop (localtime : Int → Tm) (p : Packet) : Nat → Nat → Machine → Machine
  | 0, _, m => m
  | n+1, ptr, m =>
    -- `ptr += NF_V5_RECORD_SIZE` comes first
    let ptr := ptr + nfV5RecordSize
    insertFlowEntryLoop localtime p n ptr (insertRecordV5 localtime p ptr m)

def insertFlowEntryV5 (localtime : Int → Tm) (p : Packet) (recCount : Nat) (m : Machine) :
    Machine :=
  insertFlowEntryLoop localtime p recCount nfV5HeaderSize m

def addFlowDataV5Impl (localtime : Int → Tm) (p : Packet) (m : Machine) : Machine :=
  let recCount := isValidPacket p
  if 0 < recCount then insertFlowEntryV5 localtime p recCount.toNat m else m

theorem isValidPacket_pos {p : Packet} (h : 0 < isValidPacket p) :
    p.len = 24 + 48 * (isValidPacket p).toNat ∧
      ((p.ntohs 2).toNat : Int) = isValidPacket p := by
  have hlen := p.len_lt
  have hcount := (p.ntohs 2).isLt
  unfold isValidPacket at h ⊢
  dsimp only at h ⊢
  split_ifs at h ⊢ with hr hc
  · omega
  · omega
  · rw [not_not] at hr hc
    refine ⟨?_,hc⟩
    have hrest := congrArg BitVec.toNat hr
    rw [BitVec.toInt_eq_toNat_cond] at hc h ⊢
    simp only [nfV5HeaderSize,nfV5RecordSize,BitVec.toNat_setWidth,BitVec.toNat_udiv,
      BitVec.toNat_umod,BitVec.toNat_sub,BitVec.toNat_ofNat,BitVec.ofNat_eq_ofNat,Nat.reducePow,
      Nat.reduceMod,Nat.reduceSub] at hrest hc h ⊢
    -- a packet of 8 bytes passes the remainder test, but its quotient exceeds any count
    omega

private theorem isValidPacket_nonneg (p : Packet) : 0 ≤ isValidPacket p := by
  unfold isValidPacket
  dsimp only
  split_ifs with hr hc
  · exact le_rfl
  · exact le_rfl
  · rw [not_not] at hc
    omega

theorem isValidPacket_of_records {p : Packet} {c : Nat} (hlen : p.len = 24 + 48 * c)
    (hcount : (p.ntohs 2).toNat = c) : isValidPacket p = c := by
  have hcount' := (p.ntohs 2).isLt
  have hsmall : 48 * c % 2 ^ 64 = 48 * c := Nat.mod_eq_of_lt (by omega)
  have hsize : 48 % 2 ^ 64 = 48 := rfl
  have hrest : BitVec.ofNat 64 p.len - BitVec.ofNat 64 nfV5HeaderSize =
      BitVec.ofNat 64 (48 * c) := by
    rw [hlen]
    apply BitVec.eq_of_toNat_eq
    simp only [nfV5HeaderSize,BitVec.toNat_sub,BitVec.toNat_ofNat,Nat.reducePow]
    omega
  have hmod : BitVec.ofNat 64 (48 * c) % BitVec.ofNat 64 nfV5RecordSize = 0 := by
    apply BitVec.eq_of_toNat_eq
    simp only [nfV5RecordSize,BitVec.toNat_umod,BitVec.toNat_ofNat,BitVec.ofNat_eq_ofNat,hsmall,
      hsize]
    omega
  have hdiv : (BitVec.ofNat 64 (48 * c) / BitVec.ofNat 64 nfV5RecordSize).setWidth 32 =
      BitVec.ofNat 32 c := by
    apply BitVec.eq_of_toNat_eq
    simp only [nfV5RecordSize,BitVec.toNat_setWidth,BitVec.toNat_udiv,BitVec.toNat_ofNat,hsmall,
      hsize]
    omega
  have hint : (BitVec.ofNat 32 c).toInt = c := by
    rw [BitVec.toInt_eq_toNat_cond]
    simp only [BitVec.toNat_ofNat,Nat.reducePow]
    omega
  simp [isValidPacket,hrest,hmod,hdiv,hint,hcount]

/-- Acceptance is exact, for packets shorter than a header too. -/
theorem isValidPacket_exact (p : Packet) :
    (∀ c : Int, 0 < c →
      (isValidPacket p = c ↔ (p.len : Int) = 24 + 48 * c ∧ ((p.ntohs 2).toNat : Int) = c)) ∧
    ((¬∃ c : Int, 0 < c ∧ (p.len : Int) = 24 + 48 * c ∧ ((p.ntohs 2).toNat : Int) = c) →
      isValidPacket p = 0) ∧
    (p.len < nfV5HeaderSize → isValidPacket p = 0) := by
  have hexact : ∀ c : Int, 0 < c → isValidPacket p = c →
      (p.len : Int) = 24 + 48 * c ∧ ((p.ntohs 2).toNat : Int) = c := by
    intro c hc hvalid
    obtain ⟨hlen,hcount⟩ := isValidPacket_pos (hvalid ▸ hc)
    rw [hvalid] at hlen hcount
    exact ⟨by omega,hcount⟩
  have hzero : ¬0 < isValidPacket p → isValidPacket p = 0 := by
    have := isValidPacket_nonneg p
    omega
  refine ⟨fun c hc => ⟨hexact c hc,fun h => ?_⟩,fun hnone => ?_,fun hshort => ?_⟩
  · have hvalid : isValidPacket p = (c.toNat : Int) :=
      isValidPacket_of_records (by omega) (by omega)
    omega
  · exact hzero fun hpos => hnone ⟨_,hpos,hexact _ hpos rfl⟩
  · apply hzero
    intro hpos
    have hlen := (hexact _ hpos rfl).1
    simp only [nfV5HeaderSize] at hshort
    omega

def bookRecordV5 (localtime : Int → Tm) (p : Packet) (g : Globals) (record : Nat) : Globals :=
  insertNfInfoToIpTable localtime g (p.load32 record) (p.load32 (record + 4))
    (p.ntohl (record + 20)) (nfTimeInfoV5 p record)

def recordOffsets (start n : Nat) : List Nat :=
  (List.range n).map fun i => start + nfV5RecordSize * i

theorem recordOffsets_succ (start n : Nat) :
    recordOffsets start (n + 1) = start :: recordOffsets (start + nfV5RecordSize) n := by
  simp only [recordOffsets,List.range_succ_eq_map,List.map_cons,List.map_map,Nat.mul_zero,
    Nat.add_zero,List.cons.injEq,true_and]
  apply List.map_congr_left
  intro i _
  simp only [Function.comp_apply,Nat.mul_succ]
  omega

private theorem insertFlowEntryLoop_globals (localtime : Int → Tm) (p : Packet) (n ptr : Nat)
    (m : Machine) :
    (insertFlowEntryLoop localtime p n ptr m).globals =
      (recordOffsets (ptr + nfV5RecordSize) n).foldl (bookRecordV5 localtime p) m.globals := by
  induction n generalizing ptr m with
  | zero => rfl
  | succ n ih =>
    rw [insertFlowEntryLoop,ih,recordOffsets_succ,List.foldl_cons]
    rfl

/-- The records booked start one record late: the first is skipped, and the last is taken from
behind the packet. -/
theorem addFlowDataV5Impl_globals (localtime : Int → Tm) (p : Packet) (m : Machine)
    (h : 0 < isValidPacket p) :
    (addFlowDataV5Impl localtime p m).globals =
      (recordOffsets (nfV5HeaderSize + nfV5RecordSize) (isValidPacket p).toNat).foldl
        (bookRecordV5 localtime p) m.globals := by
  rw [addFlowDataV5Impl,if_pos h]
  exact insertFlowEntryLoop_globals localtime p _ _ m

private theorem insertFlowEntryLoop_reads (localtime : Int → Tm) (p : Packet) (n ptr : Nat)
    (m : Machine) {len : Nat} (h : (insertFlowEntryLoop localtime p n ptr m).ReadsWithin len) :
    m.ReadsWithin len ∧ (0 < n → ptr + nfV5RecordSize * n + 28 ≤ len) := by
  induction n generalizing ptr m with
  | zero => exact ⟨h,by omega⟩
  | succ n ih =>
    obtain ⟨hm,hlast⟩ := ih _ _ h
    simp only [insertRecordV5,Machine.readsWithin_insert,Machine.readsWithin_read] at hm
    refine ⟨hm.2.2.2.2.2.2.2,fun _ => ?_⟩
    have hfirst := hm.2.2.2.1
    simp only [nfV5RecordSize] at hlast hfirst ⊢
    by_cases hn : 0 < n
    · have := hlast hn
      omega
    · omega

/-- What handling a v5 packet should amount to: each of the records behind the header booked
once, in order, and nothing read beyond the packet. -/
structure RecordsFaithful (localtime : Int → Tm) (p : Packet) (m : Machine) : Prop where
  globals : (addFlowDataV5Impl localtime p m).globals =
    (recordOffsets nfV5HeaderSize (isValidPacket p).toNat).foldl (bookRecordV5 localtime p)
      m.globals
  reads : (addFlowDataV5Impl localtime p { m with trace := [] }).ReadsWithin p.len

/-- No accepted packet is handled that way. -/
theorem records_never_faithful (localtime : Int → Tm) (p : Packet) (m : Machine)
    (h : 0 < isValidPacket p) : ¬RecordsFaithful localtime p m := by
  intro hf
  have hr := hf.reads
  rw [addFlowDataV5Impl,if_pos h] at hr
  have hlast := (insertFlowEntryLoop_reads localtime p _ _ _ hr).2 (by omega)
  have hlen := (isValidPacket_pos h).1
  simp only [nfV5HeaderSize,nfV5RecordSize] at hlast
  omega

/-- One record, 10.0.0.1 to 8.8.8.8, 1000 bytes, started when the datagram was sent. -/
def oneRecordV5 : List Byte :=
  -- version, count, SysUptime, unix_secs, unix_nsecs, rest of the header
  beBytes 2 5 ++ beBytes 2 1 ++ beBytes 4 1000 ++ beBytes 4 1340000000 ++ beBytes 4 0 ++
    beBytes 8 0 ++
  -- srcaddr, dstaddr, nexthop to dPkts, dOctets, First, rest of the record
    beBytes 4 0x0a000001 ++ beBytes 4 0x08080808 ++ beBytes 12 0 ++ beBytes 4 1000 ++
    beBytes 4 1000 ++ beBytes 20 0

def oneRecordPacketV5 : Packet := Packet.received oneRecordV5 (by decide) fun _ => 0

/-- 2012-06-18, 06:13. -/
def juneMorning : Tm := ⟨112,5,18,6⟩

/-- The daemon with the network 10.0.0.0/30 and an empty table. -/
def oneSubnetMachine : Machine where
  globals :=
    { localtm := juneMorning
      ipTable := List.replicate 4 HostFlow.zero
      myNet := Subnet.zero
      rcvNetList := statedNetwork 0x0000000a 30 :: List.replicate 49 Subnet.zero
      nSubnet := 1
      sumIpCount := 4 }
  templateTable := fun _ => TemplateTableEntry.zero
  sourceTable := fun _ => SourceTableEntry.zero
  stack := fun _ => 0
  trace := []

theorem records_never_faithful_oneRecord :
    ¬RecordsFaithful (fun _ => juneMorning) oneRecordPacketV5 oneSubnetMachine :=
  records_never_faithful _ oneRecordPacketV5 oneSubnetMachine (by decide +kernel)

/-- The one record of an accepted datagram is not booked: the table stays empty. -/
theorem only_record_lost :
    0 < isValidPacket oneRecordPacketV5 ∧
      (addFlowDataV5Impl (fun _ => juneMorning) oneRecordPacketV5 oneSubnetMachine).globals.ipTable =
        List.replicate 4 HostFlow.zero ∧
      ¬RecordsFaithful (fun _ => juneMorning) oneRecordPacketV5 oneSubnetMachine := by
  refine ⟨by decide +kernel,by decide +kernel,fun h => ?_⟩
  exact absurd (congrArg Globals.ipTable h.globals) (by decide +kernel)

end Flowstatd
