import Flowstatd.Netflow.Accounting
import Flowstatd.Query.Whitelist

/-!
# Queries

`GetByIP`, `GetByFlow` and `GetByTopN`, down to the members of the response they build. The
`json_real` members are counters divided by `MBYTES`; they are kept undivided. A query has no
response where it reads outside of `ipTable`.
-/

namespace Flowstatd

open Framework

def mBytes : Nat := 1000000

inductive ErrorCode where
  | ok
  | failed
  | noData
  | invalidParam
  | invalidCommand
deriving DecidableEq

def ErrorCode.retCode : ErrorCode → Nat
  | .ok => 0
  | .failed => 1
  | .noData => 2
  | .invalidParam => 3
  | .invalidCommand => 4

def errMsgList : ErrorCode → String
  | .ok => "Success"
  | .failed => "Generic error"
  | .noData => "No data"
  | .invalidParam => "Invalid parameters"
  | .invalidCommand => "Invalid command"

/-- The members that `SET_JSON_RET_INFO` sets. -/
structure RetInfo where
  retCode : Nat
  retMsg : String
deriving DecidableEq

def retInfo (errorCode : ErrorCode) : RetInfo := ⟨errorCode.retCode,errMsgList errorCode⟩

/-- A member of `data` in the answer for one address. -/
structure HourRow where
  hour : Fin 24
  upload : Counter
  download : Counter
  total : Counter
  incrementalTotal : Counter
deriving DecidableEq

structure IpResponse where
  info : RetInfo
  ip : Option String
  total : Option Counter
  data : Option (List HourRow)
deriving DecidableEq

/-- A member of `data` in a list of hosts. -/
structure HostRow where
  rank : U32
  ip : String
  upload : Counter
  download : Counter
  total : Counter
deriving DecidableEq

/-- `limit` is `overValue` in the answer of `GetByFlow`. -/
structure ListResponse where
  info : RetInfo
  limit : Option U32
  data : Option (List HostRow)
deriving DecidableEq

/-- Whether the queries leave a host out. -/
def hiddenBy (whitelist : Whitelist) (isShowAll : Bool) (addr : InAddr) : Bool :=
  !isShowAll && whitelistScan whitelist addr

section Ip

/-- The loop over the hours, with the `totalFlow` it has summed up. -/
def hourRows (e : HostFlow) (isWhitelist : Bool) : Counter → List (Fin 24) → List HourRow
  | _, [] => []
  | totalFlow, i :: hours =>
    let upload := e.hflow i .upload
    let download := e.hflow i .download
    let totalFlow := totalFlow + (upload + download)
    (if isWhitelist then ⟨i,0,0,0,0⟩ else ⟨i,upload,download,upload + download,totalFlow⟩) ::
      hourRows e isWhitelist totalFlow hours

def getByIP (g : Globals) (whitelist : Whitelist) (ipaddr : String) (isShowAll : Bool) :
    Option IpResponse :=
  let ipaddrIn := inetAddr ipaddr
  if isOurNet g.nets ipaddrIn then
    let ipIdx := getIPIdx g.myNet g.nets ipaddrIn
    let isWhitelist := hiddenBy whitelist isShowAll ipaddrIn
    if 0 ≤ ipIdx then
      g.ipTable[ipIdx.toNat]?.map fun e =>
        { info := retInfo .ok
          ip := some ipaddr
          total := some (if isWhitelist then 0 else e.sum)
          data := some (hourRows e isWhitelist 0 (List.finRange 24)) }
    else none
  else some ⟨retInfo .noData,none,none,none⟩

end Ip

section Lists

def hostFlowCmp (recA recB : HostFlow) : Int :=
  if recB.sum > recA.sum then 1 else if recB.sum = recA.sum then 0 else -1

/-- The table when `qsort` has rearranged its first `sumIpCount` entries. -/
def sortTable (qsort : List HostFlow → List HostFlow) (g : Globals) : List HostFlow :=
  qsort (g.ipTable.take g.sumIpCount.toNat) ++ g.ipTable.drop g.sumIpCount.toNat

def hostRow (rank : U32) (e : HostFlow) : HostRow :=
  ⟨rank,inetNtop e.sinAddr,e.nflow .upload,e.nflow .download,e.sum⟩

/-- The loop of `GetByFlow` on what is left of the table. -/
def overRows (isHidden : InAddr → Bool) (overMB : U32) : U32 → List HostFlow →
    Option (List HostRow)
  | _, [] => none
  | rank, e :: table =>
    if e.sum.toNat / mBytes ≥ overMB.toNat then
      if isHidden e.sinAddr then overRows isHidden overMB rank table
      else (overRows isHidden overMB (rank + 1) table).map (hostRow (rank + 1) e :: ·)
    else some []

/-- The loop of `GetByTopN` on what is left of the table. -/
def topRows (isHidden : InAddr → Bool) (topN : U32) : U32 → List HostFlow →
    Option (List HostRow)
  | rank, [] => if rank < topN then none else some []
  | rank, e :: table =>
    if rank < topN then
      if isHidden e.sinAddr then topRows isHidden topN rank table
      else (topRows isHidden topN (rank + 1) table).map (hostRow (rank + 1) e :: ·)
    else some []

def getByFlow (qsort : List HostFlow → List HostFlow) (g : Globals) (whitelist : Whitelist)
    (overMB : U32) (isShowAll : Bool) : Option ListResponse :=
  if overMB ≤ 0 then some ⟨retInfo .invalidParam,none,none⟩
  else
    (overRows (hiddenBy whitelist isShowAll) overMB 0 (sortTable qsort g)).map fun rows =>
      ⟨retInfo .ok,some overMB,some rows⟩

def getByTopN (qsort : List HostFlow → List HostFlow) (g : Globals) (whitelist : Whitelist)
    (topN : U32) (isShowAll : Bool) : Option ListResponse :=
  if topN ≤ 0 ∨ topN ≥ g.sumIpCount then some ⟨retInfo .invalidParam,none,none⟩
  else
    (topRows (hiddenBy whitelist isShowAll) topN 0 (sortTable qsort g)).map fun rows =>
      ⟨retInfo .ok,some topN,some rows⟩

end Lists

section Rows

variable {qsort : List HostFlow → List HostFlow} {isHidden : InAddr → Bool}

/-- The rows of some entries, with the ranks behind `rank`. -/
def rankedRows : U32 → List HostFlow → List HostRow
  | _, [] => []
  | rank, e :: es => hostRow (rank + 1) e :: rankedRows (rank + 1) es

/-- What `GetByFlow` lists, where its scan stays inside the table. -/
theorem overRows_eq {overMB rank : U32} {table : List HostFlow} {rows : List HostRow}
    (h : overRows isHidden overMB rank table = some rows) :
    rows = rankedRows rank
      ((table.takeWhile fun e => e.sum.toNat / mBytes ≥ overMB.toNat).filter
        fun e => !isHidden e.sinAddr) := by
  induction table generalizing rank rows with
  | nil => exact absurd h.symm (Option.some_ne_none _)
  | cons e table ih =>
    rw [overRows] at h
    split_ifs at h with hover hhid
    · rw [List.takeWhile_cons_of_pos (by simpa using hover),List.filter_cons_of_neg (by simp [hhid])]
      exact ih h
    · obtain ⟨rows',hrows',rfl⟩ := Option.map_eq_some_iff.mp h
      rw [List.takeWhile_cons_of_pos (by simpa using hover),List.filter_cons_of_pos (by simp [hhid]),
        rankedRows,← ih hrows']
    · rw [List.takeWhile_cons_of_neg (by simpa using hover)]
      exact (Option.some.inj h).symm

theorem rank_succ {topN rank : U32} (h : rank < topN) :
    (rank + 1).toNat = rank.toNat + 1 ∧ rank + 1 ≤ topN := by
  have hlt : rank.toNat < topN.toNat := h
  have htop := topN.isLt
  have hsucc : (rank + 1).toNat = rank.toNat + 1 := by
    rw [BitVec.toNat_add]
    exact Nat.mod_eq_of_lt (by simp; omega)
  refine ⟨hsucc,?_⟩
  rw [BitVec.le_def]
  omega

/-- What `GetByTopN` lists, where its scan stays inside the table. -/
theorem topRows_eq {topN rank : U32} (hrank : rank ≤ topN) {table : List HostFlow}
    {rows : List HostRow} (h : topRows isHidden topN rank table = some rows) :
    rows = rankedRows rank
      ((table.filter fun e => !isHidden e.sinAddr).take (topN.toNat - rank.toNat)) := by
  have hle : rank.toNat ≤ topN.toNat := hrank
  induction table generalizing rank rows with
  | nil =>
    rw [topRows] at h
    split_ifs at h
    rw [List.filter_nil,List.take_nil]
    exact (Option.some.inj h).symm
  | cons e table ih =>
    rw [topRows] at h
    split_ifs at h with hlt hhid
    · rw [List.filter_cons_of_neg (by simp [hhid])]
      exact ih hrank h hle
    · have hlt' : rank.toNat < topN.toNat := hlt
      obtain ⟨hnext,hle'⟩ := rank_succ hlt
      obtain ⟨rows',hrows',rfl⟩ := Option.map_eq_some_iff.mp h
      have hrest := ih hle' hrows' (by omega)
      rw [List.filter_cons_of_pos (by simp [hhid]),
        show topN.toNat - rank.toNat = topN.toNat - (rank + 1).toNat + 1 by omega,
        List.take_succ_cons,rankedRows,← hrest]
    · have hdone : topN.toNat - rank.toNat = 0 := by
        have : ¬rank.toNat < topN.toNat := hlt
        omega
      rw [hdone,List.take_zero]
      exact (Option.some.inj h).symm

theorem sortTable_of_length {g : Globals} (h : g.ipTable.length = g.sumIpCount.toNat) :
    sortTable qsort g = qsort g.ipTable := by
  rw [sortTable,List.take_of_length_le h.le,List.drop_of_length_le h.le,List.append_nil]

theorem sortTable_eq {g : Globals} (h : g.WellSized) : sortTable qsort g = qsort g.ipTable :=
  sortTable_of_length h.ipTable

end Rows

end Flowstatd
