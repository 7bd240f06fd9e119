import Flowstatd.Framework.Bytes
import Flowstatd.Netflow.Globals
import Mathlib.Data.List.FinRange

/-!
# Saving and restoring the table

`ExportRecord` writes four words and the raw memory of two arrays; `ImportRecord` reads them back
into the live globals. A file is its uncompressed contents. How much of `n` bytes one call of the gz
library moves is a parameter `gz`: all of them for `exportRecord` and `importRecord`, `zlibLength n`
for the library as it is. Layouts are those of LP64, padding included.
-/

namespace Flowstatd

open Framework

def subnetSize : Nat := 16
def hostflowSize : Nat := 416

section Layout

/-- A 32-bit word of a record. -/
def word32 (bs : List Byte) (off : Nat) : U32 :=
  BitVec.ofNat 32 (leNat (bytesAt (memOf bs) off 4))

def word64 (bs : List Byte) (off : Nat) : Counter :=
  BitVec.ofNat 64 (leNat (bytesAt (memOf bs) off 8))

/-- `struct subnet` in memory. The globals start zeroed, so the padding is zero. -/
def Subnet.encode (s : Subnet) : List Byte :=
  leBytes 4 s.net.toNat ++ leBytes 4 s.mask.toNat ++ leBytes 1 s.maskBits.toNat ++ [0,0,0] ++
    leBytes 4 s.ipCount.toNat

def Subnet.decode (bs : List Byte) : Subnet :=
  ⟨word32 bs 0,word32 bs 4,memOf bs 8,word32 bs 12⟩

/-- The counters of one hour. -/
def encodeHour (e : HostFlow) (hour : Fin 24) : List Byte :=
  leBytes 8 (e.hflow hour .upload).toNat ++ leBytes 8 (e.hflow hour .download).toNat

/-- `struct hostflow` in memory, with its four bytes of padding. -/
def HostFlow.encode (e : HostFlow) : List Byte :=
  leBytes 4 e.sinAddr.toNat ++ [0,0,0,0] ++ (List.finRange 24).flatMap (encodeHour e) ++
    leBytes 8 (e.nflow .upload).toNat ++ leBytes 8 (e.nflow .download).toNat ++
    leBytes 8 e.sum.toNat

/-- Offset of a direction's word behind the one of `UPLOAD`. -/
def Direction.offset : Direction → Nat
  | .upload => 0
  | .download => 8

def HostFlow.decode (bs : List Byte) : HostFlow where
  sinAddr := word32 bs 0
  hflow hour d := word64 bs (8 + 16 * hour + d.offset)
  nflow d := word64 bs (392 + d.offset)
  sum := word64 bs 408

theorem Subnet.encode_length (s : Subnet) : s.encode.length = subnetSize := by
  simp [Subnet.encode,subnetSize]

theorem encodeHour_length (e : HostFlow) (hour : Fin 24) : (encodeHour e hour).length = 16 := by
  simp [encodeHour]

theorem HostFlow.encode_length (e : HostFlow) : e.encode.length = hostflowSize := by
  simp [HostFlow.encode,hostflowSize,flatMap_length (encodeHour_length e)]

theorem word32_eq {bs : List Byte} {off : Nat} {x : U32}
    (h : Holds (memOf bs) off (leBytes 4 x.toNat)) : word32 bs off = x := by
  rw [word32,h.bytesAt (by simp),ofNat_leNat_leBytes 4 (by decide)]

private theorem word64_eq {bs : List Byte} {off : Nat} {x : Counter}
    (h : Holds (memOf bs) off (leBytes 8 x.toNat)) : word64 bs off = x := by
  rw [word64,h.bytesAt (by simp),ofNat_leNat_leBytes 8 (by decide)]

theorem Subnet.decode_encode (s : Subnet) : Subnet.decode s.encode = s := by
  have h := holds_memOf s.encode
  generalize hm : memOf s.encode = mem at h
  rw [Subnet.encode] at h
  simp only [holds_append,List.length_append,leBytes_length,List.length_cons,List.length_nil] at h
  obtain ⟨⟨⟨⟨hnet,hmask⟩,hbits⟩,_⟩,hcount⟩ := h
  rw [← hm] at hnet hmask hbits hcount
  have hbyte : memOf s.encode 8 = s.maskBits := by simpa [leBytes] using (holds_cons.mp hbits).1
  rw [Subnet.decode,word32_eq hnet,word32_eq hmask,word32_eq hcount,hbyte]

theorem HostFlow.decode_encode (e : HostFlow) : HostFlow.decode e.encode = e := by
  have h := holds_memOf e.encode
  generalize hm : memOf e.encode = mem at h
  rw [HostFlow.encode] at h
  simp only [holds_append,List.length_append,leBytes_length,List.length_cons,List.length_nil,
    flatMap_length (encodeHour_length e),List.length_finRange] at h
  obtain ⟨⟨⟨⟨⟨haddr,_⟩,hhours⟩,hup⟩,hdown⟩,hsum⟩ := h
  rw [← hm] at haddr hhours hup hdown hsum
  have hhour (hour : Fin 24) (d : Direction) :
      word64 e.encode (8 + 16 * hour + d.offset) = e.hflow hour d := by
    have hcounters := holds_flatMap (encodeHour_length e) hhours hour (by simp)
    rw [List.getElem_finRange,encodeHour,holds_append,leBytes_length] at hcounters
    cases d with
    | upload => exact word64_eq hcounters.1
    | download => exact word64_eq hcounters.2
  have htotal (d : Direction) : word64 e.encode (392 + d.offset) = e.nflow d := by
    cases d with
    | upload => exact word64_eq hup
    | download => exact word64_eq hdown
  simp only [HostFlow.decode,word32_eq haddr,hhour,htotal,word64_eq hsum]

end Layout

section Files

/-- `gzread`: the bytes available go over the front of the destination. -/
def gzread (file dst : List Byte) : List Byte × List Byte :=
  (overlay dst (file.take dst.length),file.drop dst.length)

/-- `gzread` into `tmpVal`. -/
def gzreadWord (file : List Byte) (tmpVal : U32) : U32 × List Byte :=
  let r := gzread file (leBytes 4 tmpVal.toNat)
  (BitVec.ofNat 32 (leNat r.1),r.2)

/-- How much a call of the gz library for `n` bytes moves: it takes an `unsigned` length, and refuses
one that no `int` holds. -/
def zlibLength (n : Nat) : Nat := if n % 2 ^ 32 < 2 ^ 31 then n % 2 ^ 32 else 0

/-- A library that moves all that it is asked for. -/
def gzAll (n : Nat) : Nat := n

/-- What `ExportRecord` writes before the table. -/
def Globals.headerBytes (g : Globals) : List Byte :=
  leBytes 4 subnetSize ++ leBytes 4 g.nSubnet.toNat ++ leBytes 4 hostflowSize ++
    leBytes 4 g.sumIpCount.toNat ++ (g.rcvNetList.take g.nSubnet.toNat).flatMap Subnet.encode

/-- The memory of the table. -/
def Globals.tableBytes (g : Globals) : List Byte :=
  (g.ipTable.take g.sumIpCount.toNat).flatMap HostFlow.encode

/-- The contents that `ExportRecord` gives its file, where a call of the library for `n` bytes moves
`gz n` of them. -/
def exportRecordBy (gz : Nat → Nat) (g : Globals) : List Byte :=
  g.headerBytes ++ g.tableBytes.take (gz g.tableBytes.length)

/-- The contents that `ExportRecord` gives its file, where the library takes what it is given. -/
def exportRecord (g : Globals) : List Byte := exportRecordBy gzAll g

/-- `ImportRecord` on an existing file; `none` is the exit on too many subnets. `tmpVal` is what
the uninitialised local holds, `heap` what `realloc` finds behind the old table. -/
def importRecordBy (gz : Nat → Nat) (heap : Nat → Byte) (tmpVal : U32) (g : Globals)
    (file : List Byte) : Option Globals :=
  let (tmpVal,file) := gzreadWord file tmpVal
  let (tmpVal,file) := gzreadWord file tmpVal
  if tmpVal.toNat > maxSubnet then none
  else
    let g := { g with nSubnet := tmpVal }
    let (tmpVal,file) := gzreadWord file tmpVal
    let (tmpVal,file) := gzreadWord file tmpVal
    let table := g.ipTable.flatMap HostFlow.encode
    let grown := tmpVal.toNat > g.sumIpCount.toNat
    let table := if grown then
        table ++ bytesAt heap 0 (hostflowSize * (tmpVal.toNat - g.sumIpCount.toNat))
      else table
    let g := if grown then { g with sumIpCount := tmpVal } else g
    let nets := (g.rcvNetList.take g.nSubnet.toNat).flatMap Subnet.encode
    let (nets,file) := gzread file nets
    let table := overlay table (file.take (gz table.length))
    some { g with
      rcvNetList := decodeMany subnetSize Subnet.decode g.nSubnet.toNat nets ++
        g.rcvNetList.drop g.nSubnet.toNat
      ipTable := decodeMany hostflowSize HostFlow.decode g.sumIpCount.toNat table }

/-- `ImportRecord` where the library gives what it is asked for. -/
def importRecord (heap : Nat → Byte) (tmpVal : U32) (g : Globals) (file : List Byte) :
    Option Globals := importRecordBy gzAll heap tmpVal g file

theorem exportRecord_eq (g : Globals) : exportRecord g = g.headerBytes ++ g.tableBytes := by
  rw [exportRecord,exportRecordBy,gzAll,List.take_length]

private theorem gzread_append {bs dst : List Byte} (h : bs.length = dst.length)
    (rest : List Byte) : gzread (bs ++ rest) dst = (bs,rest) := by
  rw [gzread,List.take_left' h,List.drop_left' h,overlay,List.drop_of_length_le (Nat.le_of_eq h.symm),
    List.append_nil]

theorem gzreadWord_append (w tmpVal : U32) (rest : List Byte) :
    gzreadWord (leBytes 4 w.toNat ++ rest) tmpVal = (w,rest) := by
  rw [gzreadWord,gzread_append (by simp),ofNat_leNat_leBytes 4 (by decide)]

/-- The saved entries replace the front of the table and the rest of it stays. -/
theorem table_restored (old saved : List HostFlow) (heap : Nat → Byte) :
    decodeMany hostflowSize HostFlow.decode (max saved.length old.length)
        (overlay (old.flatMap HostFlow.encode ++
            bytesAt heap 0 (hostflowSize * (saved.length - old.length)))
          (saved.flatMap HostFlow.encode)) =
      saved ++ old.drop saved.length := by
  have hlen := flatMap_length HostFlow.encode_length saved
  have hold := flatMap_length HostFlow.encode_length old
  have hmany := decodeMany_flatMap HostFlow.encode_length HostFlow.decode_encode
  rw [overlay,hlen,show max saved.length old.length = saved.length + (old.length - saved.length) by
    omega,decodeMany_append saved.length _ hlen]
  congr 1
  · simpa using hmany saved []
  · rcases Nat.le_total old.length saved.length with hle | hle
    · rw [Nat.sub_eq_zero_of_le hle,List.drop_of_length_le hle]
      rfl
    · have hdrop : hostflowSize * saved.length ≤ (old.flatMap HostFlow.encode).length := by
        rw [hold]
        exact Nat.mul_le_mul_left _ hle
      rw [List.drop_append_of_le_length hdrop,flatMap_drop HostFlow.encode_length,
        ← List.length_drop,hmany]

/-- The memory that the table of a file is read into: the old table, and what `realloc` has added. -/
def tableRoom (heap : Nat → Byte) (g s : Globals) : List Byte :=
  g.ipTable.flatMap HostFlow.encode ++
    bytesAt heap 0 (hostflowSize * (s.sumIpCount.toNat - g.sumIpCount.toNat))

theorem tableRoom_length (heap : Nat → Byte) {g s : Globals} (hg : g.WellSized) :
    (tableRoom heap g s).length = hostflowSize * max s.sumIpCount.toNat g.sumIpCount.toNat := by
  rw [tableRoom,List.length_append,flatMap_length HostFlow.encode_length,bytesAt_length,hg.ipTable,
    ← Nat.mul_add]
  congr 1
  omega

theorem Globals.WellSized.tableBytes_eq {s : Globals} (hs : s.WellSized) :
    s.tableBytes = s.ipTable.flatMap HostFlow.encode := by
  rw [Globals.tableBytes,List.take_of_length_le (Nat.le_of_eq hs.ipTable)]

/-- `ImportRecord` takes the networks and the sizes from the header, and as much of the table as the
library moves. -/
theorem importRecordBy_header (gz : Nat → Nat) (heap : Nat → Byte) (tmpVal : U32) {g s : Globals}
    (hg : g.WellSized) (hs : s.WellSized) (bytes : List Byte) :
    importRecordBy gz heap tmpVal g (s.headerBytes ++ bytes) =
      some { g with
        nSubnet := s.nSubnet
        rcvNetList := s.nets ++ g.rcvNetList.drop s.nSubnet.toNat
        sumIpCount := if s.sumIpCount.toNat > g.sumIpCount.toNat then s.sumIpCount
          else g.sumIpCount
        ipTable := decodeMany hostflowSize HostFlow.decode
          (max s.sumIpCount.toNat g.sumIpCount.toNat)
          (overlay (tableRoom heap g s) (bytes.take (gz (tableRoom heap g s).length))) } := by
  have hword (n : Nat) (hn : n < 2 ^ 32) : leBytes 4 n = leBytes 4 (BitVec.ofNat 32 n).toNat := by
    rw [BitVec.toNat_ofNat,Nat.mod_eq_of_lt hn]
  have hsub := hs.nSubnet
  have hnets : (s.nets.flatMap Subnet.encode).length =
      ((g.rcvNetList.take s.nSubnet.toNat).flatMap Subnet.encode).length := by
    rw [flatMap_length Subnet.encode_length,flatMap_length Subnet.encode_length,hs.nets_length,
      List.length_take,hg.rcvNetList,Nat.min_eq_left hsub]
  have hdecode : decodeMany subnetSize Subnet.decode s.nSubnet.toNat
      (s.nets.flatMap Subnet.encode) = s.nets := by
    have hmany := decodeMany_flatMap Subnet.encode_length Subnet.decode_encode s.nets []
    rwa [List.append_nil,hs.nets_length] at hmany
  simp only [importRecordBy,Globals.headerBytes,List.append_assoc]
  rw [hword subnetSize (by decide),hword hostflowSize (by decide),← Globals.nets]
  simp only [gzreadWord_append,Nat.not_lt.mpr hsub,ite_false]
  by_cases hgrown : s.sumIpCount.toNat > g.sumIpCount.toNat
  · simp only [hgrown,ite_true,gzread_append hnets,hdecode,tableRoom,
      Nat.max_eq_left (Nat.le_of_lt hgrown)]
  · have hnone : bytesAt heap 0 (hostflowSize * (s.sumIpCount.toNat - g.sumIpCount.toNat)) = [] := by
      rw [Nat.sub_eq_zero_of_le (Nat.not_lt.mp hgrown)]
      rfl
    simp only [hgrown,ite_false,gzread_append hnets,hdecode,tableRoom,hnone,List.append_nil,
      Nat.max_eq_right (Nat.not_lt.mp hgrown)]

/-- How much of the table of `s` an import into `g` brings back. -/
def movedBytes (gz : Nat → Nat) (g s : Globals) : Nat :=
  min (gz (hostflowSize * max s.sumIpCount.toNat g.sumIpCount.toNat))
    (gz (hostflowSize * s.sumIpCount.toNat))

/-- Importing a file that the daemon exported: the saved networks, and the bytes of the table as far
as they come, replace the first ones of the live arrays, and the table never shrinks. -/
theorem importRecordBy_exportRecordBy (gz : Nat → Nat) (heap : Nat → Byte) (tmpVal : U32)
    {g s : Globals} (hg : g.WellSized) (hs : s.WellSized) :
    importRecordBy gz heap tmpVal g (exportRecordBy gz s) =
      some { g with
        nSubnet := s.nSubnet
        rcvNetList := s.nets ++ g.rcvNetList.drop s.nSubnet.toNat
        sumIpCount := if s.sumIpCount.toNat > g.sumIpCount.toNat then s.sumIpCount
          else g.sumIpCount
        ipTable := decodeMany hostflowSize HostFlow.decode
          (max s.sumIpCount.toNat g.sumIpCount.toNat)
          (overlay (tableRoom heap g s) (s.tableBytes.take (movedBytes gz g s))) } := by
  have hlength : s.tableBytes.length = hostflowSize * s.sumIpCount.toNat := by
    rw [hs.tableBytes_eq,flatMap_length HostFlow.encode_length,hs.ipTable]
  rw [exportRecordBy,importRecordBy_header _ heap tmpVal hg hs,List.take_take,
    tableRoom_length heap hg,hlength,movedBytes]

/-- One call moves this many bytes, or fewer. -/
def MovesUpTo (gz : Nat → Nat) (n : Nat) : Prop := ∀ k ≤ n, gz k = k

theorem gzAll_movesUpTo (n : Nat) : MovesUpTo gzAll n := fun _ _ => rfl

theorem zlibLength_movesUpTo {n : Nat} (h : n < 2 ^ 31) : MovesUpTo zlibLength n := by
  intro k hk
  have hmod : k % 2 ^ 32 = k := Nat.mod_eq_of_lt (by omega)
  rw [zlibLength,hmod,if_pos (Nat.lt_of_le_of_lt hk h)]

/-- Where one call moves the longer table, the saved entries come back whole. -/
theorem importRecordBy_whole {gz : Nat → Nat} (heap : Nat → Byte) (tmpVal : U32) {g s : Globals}
    (hg : g.WellSized) (hs : s.WellSized)
    (hgz : MovesUpTo gz (hostflowSize * max s.sumIpCount.toNat g.sumIpCount.toNat)) :
    importRecordBy gz heap tmpVal g (exportRecordBy gz s) =
      some { g with
        nSubnet := s.nSubnet
        rcvNetList := s.nets ++ g.rcvNetList.drop s.nSubnet.toNat
        sumIpCount := if s.sumIpCount.toNat > g.sumIpCount.toNat then s.sumIpCount
          else g.sumIpCount
        ipTable := s.ipTable ++ g.ipTable.drop s.sumIpCount.toNat } := by
  have hle : hostflowSize * s.sumIpCount.toNat ≤
      hostflowSize * max s.sumIpCount.toNat g.sumIpCount.toNat :=
    Nat.mul_le_mul_left _ (Nat.le_max_left _ _)
  have hmoved : movedBytes gz g s = s.tableBytes.length := by
    rw [movedBytes,hgz _ le_rfl,hgz _ hle,hs.tableBytes_eq,flatMap_length HostFlow.encode_length,
      hs.ipTable]
    exact Nat.min_eq_right hle
  have htable := table_restored g.ipTable s.ipTable heap
  rw [hs.ipTable,hg.ipTable] at htable
  rw [importRecordBy_exportRecordBy gz heap tmpVal hg hs,hmoved,List.take_length,hs.tableBytes_eq,
    tableRoom,htable]

theorem importRecord_exportRecord (heap : Nat → Byte) (tmpVal : U32) {g s : Globals}
    (hg : g.WellSized) (hs : s.WellSized) :
    importRecord heap tmpVal g (exportRecord s) =
      some { g with
        nSubnet := s.nSubnet
        rcvNetList := s.nets ++ g.rcvNetList.drop s.nSubnet.toNat
        sumIpCount := if s.sumIpCount.toNat > g.sumIpCount.toNat then s.sumIpCount
          else g.sumIpCount
        ipTable := s.ipTable ++ g.ipTable.drop s.sumIpCount.toNat } :=
  importRecordBy_whole heap tmpVal hg hs (gzAll_movesUpTo _)

end Files

end Flowstatd
