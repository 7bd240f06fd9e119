import Flowstatd.Daemon.Invariants
import Flowstatd.Framework.Inet
import Flowstatd.Netflow.HandlerV5

/-!
# The reader of saved files

`dumpFlowData.pl` takes the file apart with `unpack`, whose templates know no padding. The
counters of a host start eight bytes into its record, and the script reads them from the fourth.
-/

namespace Flowstatd

open Framework

/-- A line of the subnets list. -/
structure SubnetLine where
  net : String
  maskBits : Int
deriving DecidableEq

/-- A line of the flow list. -/
structure HostLine where
  ip : String
  flows : List Nat
deriving DecidableEq

structure Dump where
  subnets : List SubnetLine
  hosts : List HostLine
deriving DecidableEq

/-- The template letter `i`, a signed word. -/
def unpackInt (buf : List Byte) (off : Nat) : Int := (word32 buf off).toInt

/-- `unpack('a4a4i2', $buf)`; the mask and the number of addresses are not printed. -/
def dumpSubnet (buf : List Byte) : SubnetLine := ⟨inetNtop (word32 buf 0),unpackInt buf 8⟩

/-- `unpack('a4Q48Q3', $buf)`. -/
def dumpHost (buf : List Byte) : HostLine :=
  ⟨inetNtop (word32 buf 0),decodeMany 8 leNat (48 + 3) (buf.drop 4)⟩

/-- What the script prints of a file. A loop `1..$n` has no rounds when `$n` is negative. -/
def dumpFlowData (file : List Byte) : Dump :=
  let buf := file.take 16
  let rcvNetListSize := (unpackInt buf 0).toNat
  let nSubnet := (unpackInt buf 4).toNat
  let hostflowSize := (unpackInt buf 8).toNat
  let sumIpCount := (unpackInt buf 12).toNat
  let file := file.drop 16
  ⟨decodeMany rcvNetListSize dumpSubnet nSubnet file,
    decodeMany hostflowSize dumpHost sumIpCount (file.drop (rcvNetListSize * nSubnet))⟩

/-- The hourly counters in order and the three totals. -/
def HostFlow.counters (e : HostFlow) : List Counter :=
  ((List.finRange 24).flatMap fun hour => [e.hflow hour .upload,e.hflow hour .download]) ++
    [e.nflow .upload,e.nflow .download,e.sum]

/-- The data of a state that the script is to print. -/
def Globals.data (g : Globals) : Dump :=
  ⟨g.nets.map fun s => ⟨inetNtop s.net,s.maskBits.toNat⟩,
    g.ipTable.map fun e => ⟨inetNtop e.sinAddr,e.counters.map BitVec.toNat⟩⟩

section Shift

/-- Words read four bytes too early: each is the high half of one counter under the low half of
the next. -/
def shiftedWords : Nat → List Counter → List Nat
  | _, [] => []
  | high, c :: cs => (high + 2 ^ 32 * (c.toNat % 2 ^ 32)) :: shiftedWords (c.toNat / 2 ^ 32) cs

theorem decode_shiftedWords {high : Nat} (hhigh : high < 2 ^ 32) (cs : List Counter) :
    decodeMany 8 leNat cs.length
        (leBytes 4 high ++ cs.flatMap fun c => leBytes 8 c.toNat) = shiftedWords high cs := by
  induction cs generalizing high with
  | nil => rfl
  | cons c cs ih =>
    have hnext : c.toNat / 2 ^ 32 < 2 ^ 32 := by
      have := c.isLt
      omega
    have hsplit : leBytes 4 high ++ (c :: cs).flatMap (fun c => leBytes 8 c.toNat) =
        (leBytes 4 high ++ leBytes 4 c.toNat) ++
          (leBytes 4 (c.toNat / 2 ^ 32) ++ cs.flatMap fun c => leBytes 8 c.toNat) := by
      rw [List.flatMap_cons,show leBytes 8 c.toNat = _ from leBytes_add 4 4 c.toNat]
      simp only [List.append_assoc]
      rfl
    have hlen : (leBytes 4 high ++ leBytes 4 c.toNat).length = 8 := by simp
    rw [hsplit,List.length_cons,decodeMany,List.take_left' hlen,List.drop_left' hlen,ih hnext,
      shiftedWords,leNat_append,leNat_leBytes,leNat_leBytes,leBytes_length]
    norm_num
    omega

/-- Such words are right only where there is nothing to be read. -/
theorem shiftedWords_eq_iff (cs : List Counter) :
    shiftedWords 0 cs = cs.map BitVec.toNat ↔ ∀ c ∈ cs, c = 0 := by
  induction cs with
  | nil => simp [shiftedWords]
  | cons c cs ih =>
    rw [shiftedWords,List.map_cons,List.cons.injEq,List.forall_mem_cons,← ih]
    constructor
    · rintro ⟨hc,hrest⟩
      have hzero : c.toNat = 0 := by omega
      rw [hzero] at hrest
      exact ⟨BitVec.eq_of_toNat_eq hzero,hrest⟩
    · rintro ⟨rfl,hrest⟩
      exact ⟨rfl,hrest⟩

end Shift

section Lines

private theorem toInt_of_lt {x : U32} (h : x.toNat < 2 ^ 31) : x.toInt = x.toNat := by
  rw [BitVec.toInt_eq_toNat_cond,if_pos (by omega)]

theorem dumpSubnet_encode (s : Subnet) :
    dumpSubnet s.encode = ⟨inetNtop s.net,s.maskBits.toNat⟩ := by
  have hnet : word32 s.encode 0 = s.net := congrArg Subnet.net s.decode_encode
  have hsmall := s.maskBits.isLt
  have hwidth : (s.maskBits.setWidth 32).toNat = s.maskBits.toNat := by
    rw [BitVec.toNat_setWidth]
    exact Nat.mod_eq_of_lt (by omega)
  -- the byte and the padding behind it make up the word
  have hbits : word32 s.encode 8 = s.maskBits.setWidth 32 := by
    refine word32_eq ?_
    have hword : leBytes 4 (s.maskBits.setWidth 32).toNat =
        leBytes 1 s.maskBits.toNat ++ [0,0,0] := by
      rw [hwidth,leBytes_add 1 3,Nat.div_eq_of_lt (by omega)]
      rfl
    have h := holds_memOf s.encode
    generalize memOf s.encode = mem at h ⊢
    rw [Subnet.encode] at h
    simp only [holds_append,List.length_append,leBytes_length,List.length_cons,
      List.length_nil] at h
    rw [hword,holds_append]
    exact ⟨h.1.1.2,h.1.2⟩
  rw [dumpSubnet,unpackInt,hnet,hbits,toInt_of_lt (by omega),hwidth]

private theorem encode_eq_counters (e : HostFlow) :
    e.encode = leBytes 4 e.sinAddr.toNat ++ (leBytes 4 0 ++
      e.counters.flatMap fun c => leBytes 8 c.toNat) := by
  have hhours : ((List.finRange 24).flatMap fun hour =>
      [e.hflow hour .upload,e.hflow hour .download]).flatMap (fun c => leBytes 8 c.toNat) =
        (List.finRange 24).flatMap (encodeHour e) := by
    rw [List.flatMap_assoc]
    simp only [List.flatMap_cons,List.flatMap_nil,List.append_nil]
    rfl
  rw [HostFlow.encode,HostFlow.counters,List.flatMap_append,hhours]
  simp [leBytes]

private theorem counters_length (e : HostFlow) : e.counters.length = 51 := by
  simp [HostFlow.counters]

theorem dumpHost_encode (e : HostFlow) :
    dumpHost e.encode = ⟨inetNtop e.sinAddr,shiftedWords 0 e.counters⟩ := by
  have hip : word32 e.encode 0 = e.sinAddr := congrArg HostFlow.sinAddr e.decode_encode
  have hwords := decode_shiftedWords (show 0 < 2 ^ 32 by decide) e.counters
  rw [counters_length] at hwords
  rw [dumpHost,hip,encode_eq_counters,List.drop_left' (leBytes_length 4 _),hwords]

end Lines

section File

variable {s : Globals}

/-- The four words in front of the records. -/
private def fourWords (s : Globals) : List Byte :=
  leBytes 4 subnetSize ++ leBytes 4 s.nSubnet.toNat ++ leBytes 4 hostflowSize ++
    leBytes 4 s.sumIpCount.toNat

private theorem header_words (hs : s.WellSized) :
    unpackInt (fourWords s) 0 = subnetSize ∧ unpackInt (fourWords s) 4 = s.nSubnet.toNat ∧
      unpackInt (fourWords s) 8 = hostflowSize ∧
      unpackInt (fourWords s) 12 = s.sumIpCount.toInt := by
  have hsub := hs.nSubnet
  simp only [maxSubnet] at hsub
  have h := holds_memOf (fourWords s)
  generalize hmem : memOf (fourWords s) = mem at h
  rw [fourWords] at h
  simp only [holds_append,List.length_append,leBytes_length] at h
  obtain ⟨⟨⟨hsize,hnets⟩,hhost⟩,hcount⟩ := h
  rw [← hmem] at hsize hnets hhost hcount
  have hsize' : word32 (fourWords s) 0 = BitVec.ofNat 32 subnetSize := word32_eq hsize
  have hhost' : word32 (fourWords s) 8 = BitVec.ofNat 32 hostflowSize := word32_eq hhost
  refine ⟨?_,?_,?_,?_⟩
  · rw [unpackInt,hsize']
    rfl
  · rw [unpackInt,word32_eq hnets,toInt_of_lt (by omega)]
  · rw [unpackInt,hhost']
    rfl
  · rw [unpackInt,word32_eq hcount]

/-- What the script prints of an exported file. -/
theorem dumpFlowData_exportRecord (hs : s.WellSized) :
    dumpFlowData (exportRecord s) =
      ⟨s.nets.map fun n => ⟨inetNtop n.net,n.maskBits.toNat⟩,
        (s.ipTable.take s.sumIpCount.toInt.toNat).map fun e =>
          ⟨inetNtop e.sinAddr,shiftedWords 0 e.counters⟩⟩ := by
  have hlen : (fourWords s).length = 16 := by simp [fourWords]
  have hfile : exportRecord s = fourWords s ++ (s.nets.flatMap Subnet.encode ++
      s.ipTable.flatMap HostFlow.encode) := by
    rw [exportRecord_eq,Globals.headerBytes,hs.tableBytes_eq,fourWords,← Globals.nets]
    simp only [List.append_assoc]
  obtain ⟨hsize,hsub,hhost,hcount⟩ := header_words hs
  have hread : s.sumIpCount.toInt.toNat ≤ s.ipTable.length := by
    rw [hs.ipTable,BitVec.toInt_eq_toNat_cond]
    split_ifs <;> omega
  have hnets := decodeMany_encoded Subnet.encode_length dumpSubnet s.nets
    (s.ipTable.flatMap HostFlow.encode)
  have hdrop : (s.nets.flatMap Subnet.encode ++ s.ipTable.flatMap HostFlow.encode).drop
      (subnetSize * s.nets.length) = s.ipTable.flatMap HostFlow.encode :=
    List.drop_left' (flatMap_length Subnet.encode_length s.nets)
  have hhosts := decodeMany_encoded HostFlow.encode_length dumpHost
    (s.ipTable.take s.sumIpCount.toInt.toNat)
    ((s.ipTable.drop s.sumIpCount.toInt.toNat).flatMap HostFlow.encode)
  rw [hs.nets_length] at hnets hdrop
  rw [← List.flatMap_append,List.take_append_drop,List.length_take,Nat.min_eq_left hread] at hhosts
  simp only [dumpFlowData]
  rw [hfile,List.take_left' hlen,List.drop_left' hlen,hsize,hsub,hhost,hcount]
  simp only [Int.toNat_natCast,hnets,hdrop,hhosts,dumpSubnet_encode,dumpHost_encode]

/-- The script prints the data of a state exactly when there is nothing counted in it, and its
signed count does not overflow. -/
theorem dumpFlowData_faithful_iff (hs : s.WellSized) :
    dumpFlowData (exportRecord s) = s.data ↔
      s.sumIpCount.toNat < 2 ^ 31 ∧ ∀ e ∈ s.ipTable, ∀ c ∈ e.counters, c = 0 := by
  have hline (e : HostFlow) :
      (⟨inetNtop e.sinAddr,shiftedWords 0 e.counters⟩ : HostLine) =
          ⟨inetNtop e.sinAddr,e.counters.map BitVec.toNat⟩ ↔ ∀ c ∈ e.counters, c = 0 := by
    rw [HostLine.mk.injEq,← shiftedWords_eq_iff]
    exact and_iff_right rfl
  rw [dumpFlowData_exportRecord hs,Globals.data,Dump.mk.injEq,eq_self_iff_true,true_and]
  constructor
  · intro h
    have hlength := congrArg List.length h
    simp only [List.length_map,List.length_take,hs.ipTable,BitVec.toInt_eq_toNat_cond] at hlength
    have hsmall : s.sumIpCount.toNat < 2 ^ 31 := by
      split_ifs at hlength <;> omega
    rw [toInt_of_lt hsmall,Int.toNat_natCast,List.take_of_length_le hs.ipTable.le] at h
    exact ⟨hsmall,fun e he => (hline e).mp (List.map_inj_left.mp h e he)⟩
  · rintro ⟨hsmall,hzero⟩
    rw [toInt_of_lt hsmall,Int.toNat_natCast,List.take_of_length_le hs.ipTable.le]
    exact List.map_congr_left fun e he => (hline e).mpr (hzero e he)

end File

/-- Two networks, and in each a host with a flow of no bytes. -/
def idleGlobals : Globals :=
  { twoSubnetGlobals with
    ipTable := [0x0000000a,0x0001000a].flatMap fun addr =>
      HostFlow.zero.book addr juneMorning.tmHour .upload 0 :: List.replicate 3 HostFlow.zero }

theorem dumpFlowData_faithful_idle :
    dumpFlowData (exportRecord idleGlobals) = idleGlobals.data ∧
      idleGlobals.data.hosts.map HostLine.ip = ["10.0.0.0","0.0.0.0","0.0.0.0","0.0.0.0",
        "10.0.1.0","0.0.0.0","0.0.0.0","0.0.0.0"] := by
  have hsizes : idleGlobals.WellSized := ⟨by decide,by decide,by decide⟩
  have hzero : idleGlobals.ipTable.all (fun e => e.counters.all (· = 0)) = true := by
    decide +kernel
  exact ⟨(dumpFlowData_faithful_iff hsizes).mpr ⟨by decide,fun e he c hc =>
    of_decide_eq_true (List.all_eq_true.mp (List.all_eq_true.mp hzero e he) c hc)⟩,
    by decide +kernel⟩

/-- A host of 1000 bytes is printed with totals `2^32` times as large. -/
theorem totals_misread :
    let busy := { oneSubnetMachine.globals with
      ipTable := HostFlow.zero.book 0x0100000a juneMorning.tmHour .upload 1000 ::
        List.replicate 3 HostFlow.zero }
    busy.WellSized ∧
      (dumpFlowData (exportRecord busy)).hosts.head?.map (fun line => line.flows.getLast?) =
        some (some (1000 * 2 ^ 32)) ∧
      dumpFlowData (exportRecord busy) ≠ busy.data :=
  ⟨⟨by decide,by decide,by decide⟩,by decide +kernel,by decide +kernel⟩

end Flowstatd
