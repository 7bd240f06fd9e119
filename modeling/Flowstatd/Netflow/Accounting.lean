import Flowstatd.Netflow.SubnetTable
import Flowstatd.Netflow.Time
import Mathlib.Algebra.BigOperators.Fin

/-!
# Booking a flow

`InsertNfInfoToIpTable` adds one flow to at most one slot. What it adds is named by a credit, so
that the table can be read as a sum of credits.
-/

namespace Flowstatd

/-- The four statements of an update branch of `InsertNfInfoToIpTable`. -/
def HostFlow.book (e : HostFlow) (addr : InAddr) (hour : Fin 24) (d : Direction)
    (flowBytes : U32) : HostFlow :=
  { sinAddr := addr
    hflow := Function.update e.hflow hour
      (Function.update (e.hflow hour) d (e.hflow hour d + flowBytes.setWidth 64))
    nflow := Function.update e.nflow d (e.nflow d + flowBytes.setWidth 64)
    sum := e.sum + flowBytes.setWidth 64 }

def insertNfInfoToIpTable (localtime : Int → Tm) (g : Globals) (srcAddr dstAddr : InAddr)
    (flowBytes : U32) (info : NfTimeInfo) : Globals :=
  let srcIPIdx := getIPIdx g.myNet g.nets srcAddr
  let dstIPIdx := getIPIdx g.myNet g.nets dstAddr
  let tmTime := convertNfTime localtime info
  if 0 ≤ srcIPIdx ∧ dstIPIdx = retNotInMyNet then
    if tmTime.tmMday = g.localtm.tmMday then
      { g with ipTable := g.ipTable.modify srcIPIdx.toNat fun e =>
          e.book srcAddr tmTime.tmHour .upload flowBytes }
    else g
  else if 0 ≤ dstIPIdx ∧ srcIPIdx = retNotInMyNet then
    if tmTime.tmMday = g.localtm.tmMday then
      { g with ipTable := g.ipTable.modify dstIPIdx.toNat fun e =>
          e.book dstAddr tmTime.tmHour .download flowBytes }
    else g
  else g

/-- One booking: the slot, its new label, and where the bytes are added. -/
structure Credit where
  slot : Nat
  addr : InAddr
  hour : Fin 24
  direction : Direction
  flowBytes : U32
deriving DecidableEq

def Credit.apply (table : List HostFlow) (c : Credit) : List HostFlow :=
  table.modify c.slot fun e => e.book c.addr c.hour c.direction c.flowBytes

/-- The booking that a flow leads to, if any. -/
def creditOf (localtime : Int → Tm) (g : Globals) (srcAddr dstAddr : InAddr) (flowBytes : U32)
    (info : NfTimeInfo) : Option Credit :=
  let tmTime := convertNfTime localtime info
  if tmTime.tmMday = g.localtm.tmMday then
    if 0 ≤ getIPIdx g.myNet g.nets srcAddr ∧
        getIPIdx g.myNet g.nets dstAddr = retNotInMyNet then
      some ⟨(getIPIdx g.myNet g.nets srcAddr).toNat,srcAddr,tmTime.tmHour,.upload,flowBytes⟩
    else if 0 ≤ getIPIdx g.myNet g.nets dstAddr ∧
        getIPIdx g.myNet g.nets srcAddr = retNotInMyNet then
      some ⟨(getIPIdx g.myNet g.nets dstAddr).toNat,dstAddr,tmTime.tmHour,.download,flowBytes⟩
    else none
  else none

/-- The slot of a credit is the one that its address has. -/
def Credit.Lawful (g : Globals) (c : Credit) : Prop :=
  getIPIdx g.myNet g.nets c.addr = c.slot

theorem creditOf_lawful {localtime : Int → Tm} {g : Globals} {srcAddr dstAddr : InAddr}
    {flowBytes : U32} {info : NfTimeInfo} {c : Credit}
    (h : creditOf localtime g srcAddr dstAddr flowBytes info = some c) : c.Lawful g := by
  simp only [creditOf] at h
  split_ifs at h with _ hup hdown
  · obtain rfl := Option.some.inj h
    exact (Int.toNat_of_nonneg hup.1).symm
  · obtain rfl := Option.some.inj h
    exact (Int.toNat_of_nonneg hdown.1).symm

/-- All that a flow does to the globals is to apply its credit to the table. -/
theorem insertNfInfoToIpTable_eq (localtime : Int → Tm) (g : Globals) (srcAddr dstAddr : InAddr)
    (flowBytes : U32) (info : NfTimeInfo) :
    insertNfInfoToIpTable localtime g srcAddr dstAddr flowBytes info =
      { g with
        ipTable :=
          List.foldl Credit.apply g.ipTable
            (creditOf localtime g srcAddr dstAddr flowBytes info).toList } := by
  simp only [insertNfInfoToIpTable,creditOf]
  split_ifs <;> rfl

@[simp] theorem Credit.apply_length (table : List HostFlow) (c : Credit) :
    (c.apply table).length = table.length := by
  simp [Credit.apply]

@[simp] theorem foldl_apply_length (cs : List Credit) (table : List HostFlow) :
    (cs.foldl Credit.apply table).length = table.length := by
  induction cs generalizing table with
  | nil => rfl
  | cons c cs ih => rw [List.foldl_cons,ih,Credit.apply_length]

theorem foldl_apply_filter (cs : List Credit) (table : List HostFlow) :
    (cs.filter (·.slot < table.length)).foldl Credit.apply table = cs.foldl Credit.apply table := by
  induction cs generalizing table with
  | nil => rfl
  | cons c cs ih =>
    have hrest := ih (c.apply table)
    rw [Credit.apply_length] at hrest
    by_cases hslot : c.slot < table.length
    · rw [List.filter_cons_of_pos (by simpa using hslot),List.foldl_cons,List.foldl_cons,hrest]
    · have hnone : c.apply table = table :=
        List.modify_eq_self (Nat.not_lt.mp hslot)
      rw [List.filter_cons_of_neg (by simpa using hslot),List.foldl_cons,← hrest,hnone]

theorem foldl_apply_append {cs : List Credit} {table : List HostFlow}
    (h : ∀ c ∈ cs, c.slot < table.length) (rest : List HostFlow) :
    cs.foldl Credit.apply (table ++ rest) = cs.foldl Credit.apply table ++ rest := by
  induction cs generalizing table with
  | nil => rfl
  | cons c cs ih =>
    obtain ⟨hc,hcs⟩ := List.forall_mem_cons.mp h
    have hfirst : c.apply (table ++ rest) = c.apply table ++ rest := by
      refine List.ext_getElem? fun i => ?_
      simp only [Credit.apply,List.getElem?_modify,List.getElem?_append,List.length_modify]
      by_cases hi : i < table.length
      · simp only [hi,ite_true]
      · have hne : c.slot ≠ i := by omega
        simp only [hi,hne,ite_false,id_map']
    rw [List.foldl_cons,List.foldl_cons,hfirst]
    exact ih fun c' hc' => by rw [Credit.apply_length]; exact hcs c' hc'

/-- The three redundant sets of counters of an entry agree, modulo `2^64`. -/
structure HostFlow.Balanced (e : HostFlow) : Prop where
  nflow : ∀ d, e.nflow d = ∑ h, e.hflow h d
  sum : e.sum = e.nflow .upload + e.nflow .download

theorem HostFlow.zero_balanced : HostFlow.zero.Balanced :=
  ⟨fun _ => by simp [HostFlow.zero],by simp [HostFlow.zero]⟩

theorem HostFlow.book_hflow (e : HostFlow) (addr : InAddr) (hour : Fin 24) (d : Direction)
    (flowBytes : U32) (i : Fin 24) (d' : Direction) :
    (e.book addr hour d flowBytes).hflow i d' =
      e.hflow i d' + if i = hour then if d' = d then flowBytes.setWidth 64 else 0 else 0 := by
  by_cases hi : i = hour
  · subst i
    by_cases hd : d' = d
    · subst d'
      simp [HostFlow.book]
    · simp [HostFlow.book,hd]
  · simp [HostFlow.book,hi]

theorem HostFlow.book_nflow (e : HostFlow) (addr : InAddr) (hour : Fin 24) (d : Direction)
    (flowBytes : U32) (d' : Direction) :
    (e.book addr hour d flowBytes).nflow d' =
      e.nflow d' + if d' = d then flowBytes.setWidth 64 else 0 := by
  by_cases hd : d' = d
  · subst d'
    simp [HostFlow.book]
  · simp [HostFlow.book,hd]

theorem HostFlow.Balanced.book {e : HostFlow} (he : e.Balanced) (addr : InAddr) (hour : Fin 24)
    (d : Direction) (flowBytes : U32) : (e.book addr hour d flowBytes).Balanced := by
  constructor
  · intro d'
    simp only [book_hflow,book_nflow,he.nflow d',Finset.sum_add_distrib]
    rw [Finset.sum_ite_eq' Finset.univ hour,if_pos (Finset.mem_univ hour)]
  · change e.sum + flowBytes.setWidth 64 = _
    rw [book_nflow,book_nflow,he.sum]
    cases d
    · simp only [if_true,reduceCtorEq,if_false,add_zero]
      rw [add_right_comm]
    · simp only [if_true,reduceCtorEq,if_false,add_zero]
      rw [add_assoc]

theorem Credit.apply_balanced {table : List HostFlow} (h : ∀ e ∈ table, e.Balanced)
    (c : Credit) : ∀ e ∈ c.apply table, e.Balanced := by
  intro e he
  obtain ⟨i,hi,rfl⟩ := List.getElem_of_mem he
  have hi' : i < table.length := by simpa using hi
  have hb := h _ (List.getElem_mem hi')
  simp only [Credit.apply,List.getElem_modify]
  split_ifs
  · exact hb.book _ _ _ _
  · exact hb

theorem foldl_apply_balanced {table : List HostFlow} (h : ∀ e ∈ table, e.Balanced)
    (cs : List Credit) : ∀ e ∈ cs.foldl Credit.apply table, e.Balanced := by
  induction cs generalizing table with
  | nil => exact h
  | cons c cs ih => exact ih (Credit.apply_balanced h c)

end Flowstatd
