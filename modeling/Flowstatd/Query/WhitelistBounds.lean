import Flowstatd.Query.Confidential
import Mathlib.Logic.Relation

/-!
# The indexes used on the whitelist

`LoadWhitelist` tests its counter in the outer loop only, and the inner loop moves it too. The
scans of the queries look at an element before they test its index.
-/

namespace Flowstatd

open Framework

section Writes

/-- The networks that contain what a configured element says, if it is an address. -/
def matchCount (nets : List Subnet) : Option InAddr → Nat
  | none => 0
  | some addr => nets.countP fun net => net.Contains addr

/-- The indexes that the inner loop writes when the counter is `i`. -/
def storedAt (addr : InAddr) : List Subnet → Nat → List Nat
  | [], _ => []
  | net :: nets, i =>
    if net.Contains addr then i :: storedAt addr nets (i + 1) else storedAt addr nets i

def roundWrites (nets : List Subnet) (i : Nat) : Option InAddr → List Nat
  | none => []
  | some addr => storedAt addr nets i

/-- The indexes that the loop of `LoadWhitelist` writes from counter `i` on. -/
def loopWrites (nets : List Subnet) (elements : List Json) : Nat → Nat → List Nat
  | 0, _ => []
  | rounds+1, i =>
    if i < maxWhitelist ∧ i < elements.length then
      roundWrites nets i (elements[i]? >>= parsedAddress?) ++
        loopWrites nets elements rounds
          (i + matchCount nets (elements[i]? >>= parsedAddress?) + 1)
    else []

/-- The indexes that `LoadWhitelist` writes, the `memset` included. -/
def loadWrites (nets : List Subnet) (elements : List Json) : List Nat :=
  List.range maxWhitelist ++ loopWrites nets elements maxWhitelist 0

variable {nets : List Subnet} {elements : List Json}

theorem mem_storedAt {addr : InAddr} {i k : Nat} :
    k ∈ storedAt addr nets i ↔ i ≤ k ∧ k < i + matchCount nets (some addr) := by
  induction nets generalizing i with
  | nil => simp [storedAt,matchCount]
  | cons net nets ih =>
    simp only [matchCount] at ih
    by_cases h : net.Contains addr
    · simp [storedAt,matchCount,h,ih]
      omega
    · simp [storedAt,matchCount,h,ih]

theorem mem_roundWrites {entry : Option InAddr} {i k : Nat} :
    k ∈ roundWrites nets i entry ↔ i ≤ k ∧ k < i + matchCount nets entry := by
  cases entry with
  | none => simp [roundWrites,matchCount]
  | some addr => exact mem_storedAt

/-- The inner loop stores `addr` at these indexes and nowhere else. -/
theorem storeMatches_eq (addr : InAddr) (s : Nat × Whitelist) :
    storeMatches nets addr s =
      (s.1 + matchCount nets (some addr),
        fun k => if k ∈ storedAt addr nets s.1 then addr else s.2 k) := by
  induction nets generalizing s with
  | nil => simp [storeMatches,matchCount,storedAt]
  | cons net nets ih =>
    rw [storeMatches,List.foldl_cons,← storeMatches,ih,storeMatch]
    by_cases h : net.Contains addr
    · simp only [h,ite_true,matchCount,List.countP_cons,decide_true,storedAt,List.mem_cons,
        Prod.mk.injEq]
      refine ⟨by omega,funext fun k => ?_⟩
      by_cases hk : k = s.1
      · simp [hk]
      · simp [hk]
    · simp [h,matchCount,storedAt]

theorem whitelistRound_eq (nets : List Subnet) (elements : List Json) (s : Nat × Whitelist) :
    (whitelistRound nets elements s).1 =
        s.1 + matchCount nets (elements[s.1]? >>= parsedAddress?) + 1 ∧
      ∀ k ∉ roundWrites nets s.1 (elements[s.1]? >>= parsedAddress?),
        (whitelistRound nets elements s).2 k = s.2 k := by
  rw [whitelistRound]
  cases elements[s.1]? >>= parsedAddress? with
  | none => exact ⟨rfl,fun _ _ => rfl⟩
  | some addr =>
    simp only [storeMatches_eq,true_and]
    exact fun k hk => if_neg hk

theorem whitelistLoop_frame (rounds : Nat) (s : Nat × Whitelist) {k : Nat}
    (h : k ∉ loopWrites nets elements rounds s.1) :
    (whitelistLoop nets elements rounds s).2 k = s.2 k := by
  induction rounds generalizing s with
  | zero => rfl
  | succ rounds ih =>
    rw [whitelistLoop]
    rw [loopWrites] at h
    split_ifs at h ⊢
    · rw [List.mem_append,not_or] at h
      obtain ⟨hcount,hframe⟩ := whitelistRound_eq nets elements s
      rw [← hcount] at h
      rw [ih _ h.2,hframe k h.1]
    · rfl

/-- From one position of the configured list to the next that the loop looks at. -/
def LoadStep (nets : List Subnet) (elements : List Json) (i k : Nat) : Prop :=
  i < maxWhitelist ∧ i < elements.length ∧
    k = i + matchCount nets (elements[i]? >>= parsedAddress?) + 1

/-- At each position that the loop looks at, the networks of the address there fit. -/
def EntriesFit (nets : List Subnet) (elements : List Json) : Prop :=
  ∀ i, Relation.ReflTransGen (LoadStep nets elements) 0 i → i < maxWhitelist →
    i < elements.length →
      i + matchCount nets (elements[i]? >>= parsedAddress?) ≤ maxWhitelist

private theorem roundWrites_lt_iff {i : Nat} (h : i < maxWhitelist) (entry : Option InAddr) :
    (∀ k ∈ roundWrites nets i entry, k < maxWhitelist) ↔
      i + matchCount nets entry ≤ maxWhitelist := by
  simp only [mem_roundWrites]
  constructor
  · intro hall
    by_contra hover
    exact absurd (hall maxWhitelist ⟨h.le,by omega⟩) (Nat.lt_irrefl _)
  · intro hfit k hk
    omega

private theorem loopWrites_lt_iff (nets : List Subnet) (elements : List Json) (rounds i : Nat)
    (h : maxWhitelist ≤ i + rounds) :
    (∀ k ∈ loopWrites nets elements rounds i, k < maxWhitelist) ↔
      ∀ j, Relation.ReflTransGen (LoadStep nets elements) i j → j < maxWhitelist →
        j < elements.length →
          j + matchCount nets (elements[j]? >>= parsedAddress?) ≤ maxWhitelist := by
  -- without a further round the counter stays where it is
  have hstuck {i : Nat} (hguard : ¬(i < maxWhitelist ∧ i < elements.length)) {j : Nat}
      (hj : Relation.ReflTransGen (LoadStep nets elements) i j) : j = i := by
    rcases hj.cases_head with heq | ⟨k,hk,_⟩
    · exact heq.symm
    · exact absurd ⟨hk.1,hk.2.1⟩ hguard
  induction rounds generalizing i with
  | zero =>
    refine iff_of_true (by simp [loopWrites]) fun j hj hlt _ => ?_
    have heq := hstuck (by omega) hj
    omega
  | succ rounds ih =>
    rw [loopWrites]
    split_ifs with hguard
    · have hrest := ih (i + matchCount nets (elements[i]? >>= parsedAddress?) + 1) (by omega)
      simp only [List.mem_append,or_imp,forall_and]
      refine (and_congr (roundWrites_lt_iff hguard.1 _) hrest).trans ?_
      constructor
      · rintro ⟨hhere,hrest⟩ j hj
        rcases hj.cases_head with rfl | ⟨k,⟨_,_,rfl⟩,hkj⟩
        · exact fun _ _ => hhere
        · exact hrest j hkj
      · intro hall
        refine ⟨hall i .refl hguard.1 hguard.2,fun j hj => ?_⟩
        exact hall j (.head ⟨hguard.1,hguard.2,rfl⟩ hj)
    · refine iff_of_true (by simp) fun j hj hlt hlen => ?_
      exact absurd (hstuck hguard hj ▸ ⟨hlt,hlen⟩) hguard

theorem loadWrites_lt_iff (nets : List Subnet) (elements : List Json) :
    (∀ k ∈ loadWrites nets elements, k < maxWhitelist) ↔ EntriesFit nets elements := by
  have hloop := loopWrites_lt_iff nets elements maxWhitelist 0 (by simp)
  refine Iff.trans ?_ hloop
  simp [loadWrites,or_imp]

end Writes

section Reads

/-- The indexes that a scan reads from index `j` on; `rounds` is what `j < MAX_WHITELIST` leaves. -/
def scanReadsFrom (whitelist : Whitelist) (addr : InAddr) : Nat → Nat → List Nat
  -- `whitelist[j] != 0` comes before `j < MAX_WHITELIST`
  | 0, j => [j]
  | rounds+1, j =>
    j :: if whitelist j = 0 then []
      else if addr = whitelist j then []
      else scanReadsFrom whitelist addr rounds (j + 1)

def scanReads (whitelist : Whitelist) (addr : InAddr) : List Nat :=
  scanReadsFrom whitelist addr maxWhitelist 0

theorem whitelistScanFrom_congr {w w' : Whitelist} {addr : InAddr} {rounds j : Nat}
    (h : ∀ k ∈ scanReadsFrom w addr rounds j, w k = w' k) :
    whitelistScanFrom w addr rounds j = whitelistScanFrom w' addr rounds j := by
  induction rounds generalizing j with
  | zero => rfl
  | succ rounds ih =>
    rw [scanReadsFrom,List.forall_mem_cons] at h
    rw [whitelistScanFrom,whitelistScanFrom,← h.1]
    split_ifs with hzero haddr
    · rfl
    · rfl
    · apply ih
      have hrest := h.2
      rw [if_neg hzero,if_neg haddr] at hrest
      exact hrest

private theorem scanReadsFrom_lt_iff (whitelist : Whitelist) (addr : InAddr) (rounds j : Nat) :
    (∀ k ∈ scanReadsFrom whitelist addr rounds j, k < j + rounds) ↔
      ∃ k, j ≤ k ∧ k < j + rounds ∧ (whitelist k = 0 ∨ whitelist k = addr) := by
  induction rounds generalizing j with
  | zero =>
    refine iff_of_false (by simp [scanReadsFrom]) ?_
    rintro ⟨k,hk,hlt,_⟩
    omega
  | succ rounds ih =>
    have hsucc : j + (rounds + 1) = j + 1 + rounds := by omega
    by_cases hstop : whitelist j = 0 ∨ addr = whitelist j
    · have hreads : scanReadsFrom whitelist addr (rounds + 1) j = [j] := by
        rcases hstop with h | h <;> simp [scanReadsFrom,h]
      refine iff_of_true (by simp [hreads]) ⟨j,le_rfl,by omega,hstop.imp_right Eq.symm⟩
    · rw [not_or] at hstop
      simp only [scanReadsFrom,hstop,ite_false,List.forall_mem_cons,hsucc,ih]
      constructor
      · rintro ⟨_,k,hk,hlt,hend⟩
        exact ⟨k,by omega,hlt,hend⟩
      · rintro ⟨k,hk,hlt,hend⟩
        have hne : k ≠ j := by
          rintro rfl
          exact hend.elim hstop.1 fun h => hstop.2 h.symm
        exact ⟨by omega,k,by omega,hlt,hend⟩

theorem scanReads_lt_iff (whitelist : Whitelist) (addr : InAddr) :
    (∀ k ∈ scanReads whitelist addr, k < maxWhitelist) ↔
      ∃ k < maxWhitelist, whitelist k = 0 ∨ whitelist k = addr := by
  have hfrom := scanReadsFrom_lt_iff whitelist addr maxWhitelist 0
  simpa [scanReads] using hfrom

/-- The queries that leave out hosts, with the parameter that decides which they look at. -/
inductive ScanningQuery where
  | byIP (ipaddr : String)
  | byFlow (overMB : U32)
  | byTopN (topN : U32)

/-- The hosts that the loop of `GetByFlow` looks at in what is left of the table. -/
def overScanned (overMB : U32) : List HostFlow → List InAddr
  | [] => []
  | e :: table =>
    if e.sum.toNat / mBytes ≥ overMB.toNat then e.sinAddr :: overScanned overMB table else []

/-- The hosts that the loop of `GetByTopN` looks at in what is left of the table. -/
def topScanned (isHidden : InAddr → Bool) (topN : U32) : U32 → List HostFlow → List InAddr
  | _, [] => []
  | rank, e :: table =>
    if rank < topN then
      e.sinAddr ::
        if isHidden e.sinAddr then topScanned isHidden topN rank table
        else topScanned isHidden topN (rank + 1) table
    else []

/-- The hosts that a query looks up in the whitelist. -/
def scannedHosts (qsort : List HostFlow → List HostFlow) (g : Globals) (whitelist : Whitelist)
    (isShowAll : Bool) : ScanningQuery → List InAddr
  | .byIP ipaddr => if isOurNet g.nets (inetAddr ipaddr) then [inetAddr ipaddr] else []
  | .byFlow overMB => if overMB ≤ 0 then [] else overScanned overMB (sortTable qsort g)
  | .byTopN topN =>
    if topN ≤ 0 ∨ topN ≥ g.sumIpCount then []
    else topScanned (hiddenBy whitelist isShowAll) topN 0 (sortTable qsort g)

/-- The indexes of the whitelist that a query reads. -/
def whitelistReads (qsort : List HostFlow → List HostFlow) (g : Globals) (whitelist : Whitelist)
    (isShowAll : Bool) (q : ScanningQuery) : List Nat :=
  if isShowAll then []
  else (scannedHosts qsort g whitelist isShowAll q).flatMap (scanReads whitelist)

section Asked

variable {isHidden isHidden' : InAddr → Bool}

theorem overRows_congr {overMB rank : U32} {table : List HostFlow}
    (h : ∀ a ∈ overScanned overMB table, isHidden a = isHidden' a) :
    overRows isHidden overMB rank table = overRows isHidden' overMB rank table := by
  induction table generalizing rank with
  | nil => rfl
  | cons e table ih =>
    rw [overRows,overRows]
    rw [overScanned] at h
    split_ifs at h with hover
    · rw [List.forall_mem_cons] at h
      simp only [hover,ite_true,h.1,ih h.2]
    · simp only [hover,ite_false]

theorem topRows_congr {topN rank : U32} {table : List HostFlow}
    (h : ∀ a ∈ topScanned isHidden topN rank table, isHidden a = isHidden' a) :
    topRows isHidden topN rank table = topRows isHidden' topN rank table := by
  induction table generalizing rank with
  | nil => rfl
  | cons e table ih =>
    rw [topRows,topRows]
    rw [topScanned] at h
    split_ifs at h with hrank hhid
    · rw [List.forall_mem_cons,hhid] at h
      simp only [hrank,hhid,← h.1,ite_true,ih h.2]
    · rw [List.forall_mem_cons] at h
      simp only [hrank,hhid,← h.1,ite_true,Bool.false_eq_true,ite_false,ih h.2]
    · simp only [hrank,ite_false]

end Asked

section Agreeing

variable {qsort : List HostFlow → List HostFlow} {g : Globals} {w w' : Whitelist}
variable {isShowAll : Bool}

private theorem hiddenBy_congr {q : ScanningQuery}
    (h : ∀ k ∈ whitelistReads qsort g w isShowAll q, w k = w' k) :
    ∀ a ∈ scannedHosts qsort g w isShowAll q,
      hiddenBy w isShowAll a = hiddenBy w' isShowAll a := by
  intro a ha
  cases isShowAll with
  | true => rfl
  | false =>
    apply whitelistScanFrom_congr
    intro k hk
    apply h
    simp only [whitelistReads,Bool.false_eq_true,ite_false,List.mem_flatMap]
    exact ⟨a,ha,hk⟩

/-- A query gives the same response with any whitelist that has the same elements at the indexes
it reads. -/
theorem getByIP_congr {ipaddr : String}
    (h : ∀ k ∈ whitelistReads qsort g w isShowAll (.byIP ipaddr), w k = w' k) :
    getByIP g w ipaddr isShowAll = getByIP g w' ipaddr isShowAll := by
  have hhid := hiddenBy_congr h
  rw [getByIP,getByIP]
  rw [scannedHosts] at hhid
  split_ifs at hhid ⊢ with hour
  · rw [hhid _ List.mem_cons_self]
  · rfl

theorem getByFlow_congr {overMB : U32}
    (h : ∀ k ∈ whitelistReads qsort g w isShowAll (.byFlow overMB), w k = w' k) :
    getByFlow qsort g w overMB isShowAll = getByFlow qsort g w' overMB isShowAll := by
  have hhid := hiddenBy_congr h
  rw [getByFlow,getByFlow]
  rw [scannedHosts] at hhid
  split_ifs at hhid ⊢
  · rfl
  · rw [overRows_congr hhid]

theorem getByTopN_congr {topN : U32}
    (h : ∀ k ∈ whitelistReads qsort g w isShowAll (.byTopN topN), w k = w' k) :
    getByTopN qsort g w topN isShowAll = getByTopN qsort g w' topN isShowAll := by
  have hhid := hiddenBy_congr h
  rw [getByTopN,getByTopN]
  rw [scannedHosts] at hhid
  split_ifs at hhid ⊢
  · rfl
  · rw [topRows_congr hhid]

end Agreeing

end Reads

/-- `LoadWhitelist` writes inside the array exactly if the networks of each entry it looks at fit,
and a query reads inside it exactly if each of its scans stops there. -/
theorem whitelist_bounds_iff (nets : List Subnet) (elements : List Json)
    (qsort : List HostFlow → List HostFlow) (g : Globals) (whitelist : Whitelist)
    (isShowAll : Bool) (q : ScanningQuery) :
    ((∀ k ∈ loadWrites nets elements, k < maxWhitelist) ↔ EntriesFit nets elements) ∧
    ((∀ k ∈ whitelistReads qsort g whitelist isShowAll q, k < maxWhitelist) ↔
      isShowAll = true ∨ ∀ a ∈ scannedHosts qsort g whitelist isShowAll q,
        ∃ k < maxWhitelist, whitelist k = 0 ∨ whitelist k = a) := by
  refine ⟨loadWrites_lt_iff nets elements,?_⟩
  cases isShowAll with
  | true => simp [whitelistReads]
  | false =>
    simp only [whitelistReads,Bool.false_eq_true,ite_false,false_or,List.mem_flatMap,
      ← scanReads_lt_iff]
    exact ⟨fun h a ha k hk => h k ⟨a,ha,hk⟩,fun h k ⟨a,ha,hk⟩ => h a ha k hk⟩

/-- 10.0.0.0/24 stated fifty times. -/
def repeatedNetworkGlobals : Globals :=
  { oneSubnetMachine.globals with
    rcvNetList := List.replicate 50 (statedNetwork 0x0000000a 24)
    nSubnet := 50
    sumIpCount := 12800
    ipTable := List.replicate 12800 HostFlow.zero }

/-- With an address of two nested networks at the last position the second one is written behind
the array. With an address of fifty networks at the first position the array is full, and the scan
for another host reads the element behind it. -/
theorem whitelist_overrun :
    50 ∈ loadWrites [statedNetwork 0x0000000a 24,statedNetwork 0x0000000a 30]
        (List.replicate 49 .null ++ [.string "10.0.0.1"]) ∧
      ∃ ret w, loadWhitelist repeatedNetworkGlobals.nets (fun _ => 0)
          (some (.object [("whitelistIps",.array [.string "10.0.0.1"])])) = some (ret,w) ∧
        50 ∈ whitelistReads insertionQsort repeatedNetworkGlobals w false (.byIP "10.0.0.2") := by
  refine ⟨by decide +kernel,_,_,rfl,by decide +kernel⟩

end Flowstatd
