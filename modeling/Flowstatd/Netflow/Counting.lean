import Flowstatd.Netflow.Accounting

/-!
# What a list of flows adds up to

The counters of a slot after any list of flows, as sums over the flows that belong to the slot.
-/

namespace Flowstatd

/-- The arguments of one call of `InsertNfInfoToIpTable`. -/
structure Flow where
  srcAddr : InAddr
  dstAddr : InAddr
  flowBytes : U32
  info : NfTimeInfo

def insertFlow (localtime : Int → Tm) (g : Globals) (f : Flow) : Globals :=
  insertNfInfoToIpTable localtime g f.srcAddr f.dstAddr f.flowBytes f.info

def insertFlows (localtime : Int → Tm) (g : Globals) (flows : List Flow) : Globals :=
  flows.foldl (insertFlow localtime) g

/-- `ipTable[i]`. -/
def entryAt (table : List HostFlow) (i : Nat) : HostFlow := table.getD i HostFlow.zero

/-- A table of empty entries shows nothing else. -/
theorem entryAt_zeros_iff {table : List HostFlow} :
    (∀ i, entryAt table i = HostFlow.zero) ↔ ∀ e ∈ table, e = HostFlow.zero := by
  simp only [entryAt,List.getD_eq_getElem?_getD]
  constructor
  · intro h e he
    obtain ⟨i,hi⟩ := List.mem_iff_getElem?.mp he
    simpa [hi] using h i
  · intro h i
    cases hi : table[i]? with
    | none => rfl
    | some e => exact h e (List.mem_of_getElem? hi)

theorem entryAt_replicate_zero (n i : Nat) :
    entryAt (List.replicate n HostFlow.zero) i = HostFlow.zero :=
  entryAt_zeros_iff.mpr (fun _ he => List.eq_of_mem_replicate he) i

/-- Empty entries behind the table show nothing. -/
theorem entryAt_append_zeros (table : List HostFlow) (n i : Nat) :
    entryAt (table ++ List.replicate n HostFlow.zero) i = entryAt table i := by
  rcases Nat.lt_or_ge i table.length with hi | hi
  · rw [entryAt,entryAt,List.getD_append _ _ _ _ hi]
  · have hrest := entryAt_replicate_zero n (i - table.length)
    rw [entryAt] at hrest
    rw [entryAt,entryAt,List.getD_append_right _ _ _ _ hi,hrest,List.getD_eq_default _ _ hi]

/-- The flow is an upload or a download flow of slot `i`. -/
def Flow.CountsFor (f : Flow) (g : Globals) (i : Nat) : Direction → Prop
  | .upload =>
    getIPIdx g.myNet g.nets f.srcAddr = i ∧ getIPIdx g.myNet g.nets f.dstAddr = retNotInMyNet
  | .download =>
    getIPIdx g.myNet g.nets f.dstAddr = i ∧ getIPIdx g.myNet g.nets f.srcAddr = retNotInMyNet

instance (f : Flow) (g : Globals) (i : Nat) (d : Direction) : Decidable (f.CountsFor g i d) := by
  cases d
  · exact inferInstanceAs (Decidable (_ ∧ _))
  · exact inferInstanceAs (Decidable (_ ∧ _))

/-- The inside address of the flow. -/
def Flow.label (f : Flow) : Direction → InAddr
  | .upload => f.srcAddr
  | .download => f.dstAddr

/-- The day test of `InsertNfInfoToIpTable`. -/
def Flow.PassesDay (localtime : Int → Tm) (g : Globals) (f : Flow) : Prop :=
  (convertNfTime localtime f.info).tmMday = g.localtm.tmMday

instance (localtime : Int → Tm) (g : Globals) (f : Flow) : Decidable (f.PassesDay localtime g) :=
  inferInstanceAs (Decidable (_ = _))

/-- The bytes of the selected flows, modulo `2^64`. -/
def bytesOf (flows : List Flow) (p : Flow → Prop) [DecidablePred p] : Counter :=
  ((flows.filter p).map fun f => f.flowBytes.setWidth 64).sum

theorem bytesOf_cons (f : Flow) (flows : List Flow) (p : Flow → Prop) [DecidablePred p] :
    bytesOf (f :: flows) p = (if p f then f.flowBytes.setWidth 64 else 0) + bytesOf flows p := by
  by_cases h : p f
  · simp [bytesOf,h]
  · simp [bytesOf,h]

theorem bytesOf_perm {flows flows' : List Flow} (h : flows.Perm flows') (p : Flow → Prop)
    [DecidablePred p] : bytesOf flows p = bytesOf flows' p := by
  rw [bytesOf,bytesOf]
  exact ((h.filter _).map _).sum_eq

section Step

variable {localtime : Int → Tm} {g : Globals}

theorem Flow.CountsFor.unique {f : Flow} {i i' : Nat} {d d' : Direction}
    (h : f.CountsFor g i d) (h' : f.CountsFor g i' d') : i = i' ∧ d = d' := by
  cases d <;> cases d' <;> simp only [CountsFor,retNotInMyNet] at h h'
  · exact ⟨by omega,rfl⟩
  · omega
  · omega
  · exact ⟨by omega,rfl⟩

/-- The credit of a flow, by the slot and direction that the flow counts for. -/
theorem creditOf_eq_some_iff {f : Flow} {c : Credit} :
    creditOf localtime g f.srcAddr f.dstAddr f.flowBytes f.info = some c ↔
      f.PassesDay localtime g ∧ f.CountsFor g c.slot c.direction ∧
        c.addr = f.label c.direction ∧ c.hour = (convertNfTime localtime f.info).tmHour ∧
        c.flowBytes = f.flowBytes := by
  obtain ⟨slot,addr,hour,direction,flowBytes⟩ := c
  simp only [creditOf,Flow.PassesDay]
  constructor
  · intro h
    split_ifs at h with hday hup hdown
    · obtain ⟨rfl,rfl,rfl,rfl,rfl⟩ := Credit.mk.inj (Option.some.inj h)
      exact ⟨hday,⟨(Int.toNat_of_nonneg hup.1).symm,hup.2⟩,rfl,rfl,rfl⟩
    · obtain ⟨rfl,rfl,rfl,rfl,rfl⟩ := Credit.mk.inj (Option.some.inj h)
      exact ⟨hday,⟨(Int.toNat_of_nonneg hdown.1).symm,hdown.2⟩,rfl,rfl,rfl⟩
  · rintro ⟨hday,hcounts,haddr,rfl,rfl⟩
    cases direction with
    | upload =>
      obtain ⟨hsrc,hdst⟩ := hcounts
      simp only [hday,hsrc,hdst,ite_true,Int.natCast_nonneg,and_self,Int.toNat_natCast,haddr,Flow.label]
    | download =>
      obtain ⟨hdst,hsrc⟩ := hcounts
      have hneg : ¬(0 : Int) ≤ retNotInMyNet := by decide
      simp only [hday,hsrc,hdst,ite_true,Int.natCast_nonneg,hneg,false_and,ite_false,and_self,
        Int.toNat_natCast,haddr,Flow.label]

theorem entryAt_apply {table : List HostFlow} {i : Nat} (hi : i < table.length) (c : Credit) :
    entryAt (c.apply table) i =
      if c.slot = i then (entryAt table i).book c.addr c.hour c.direction c.flowBytes
      else entryAt table i := by
  have hi' : i < (c.apply table).length := by rw [Credit.apply_length]; exact hi
  rw [entryAt,entryAt,List.getD_eq_getElem _ _ hi,List.getD_eq_getElem _ _ hi']
  simp only [Credit.apply,List.getElem_modify]

theorem insertFlow_entry (localtime : Int → Tm) (f : Flow) {i : Nat} (hi : i < g.ipTable.length) :
    (∃ d, f.PassesDay localtime g ∧ f.CountsFor g i d ∧
      entryAt (insertFlow localtime g f).ipTable i = (entryAt g.ipTable i).book (f.label d)
        (convertNfTime localtime f.info).tmHour d f.flowBytes) ∨
      (∀ d, ¬(f.PassesDay localtime g ∧ f.CountsFor g i d)) ∧
        entryAt (insertFlow localtime g f).ipTable i = entryAt g.ipTable i := by
  rw [insertFlow,insertNfInfoToIpTable_eq]
  cases hc : creditOf localtime g f.srcAddr f.dstAddr f.flowBytes f.info with
  | none =>
    refine .inr ⟨fun d hcounts => ?_,rfl⟩
    have hsome := (creditOf_eq_some_iff (c := ⟨i,f.label d,_,d,_⟩)).mpr
      ⟨hcounts.1,hcounts.2,rfl,rfl,rfl⟩
    rw [hc] at hsome
    exact absurd hsome.symm (Option.some_ne_none _)
  | some c =>
    obtain ⟨hday,hcounts,haddr,hhour,hbytes⟩ := creditOf_eq_some_iff.mp hc
    simp only [Option.toList_some,List.foldl_cons,List.foldl_nil,entryAt_apply hi]
    by_cases hslot : c.slot = i
    · subst hslot
      exact .inl ⟨c.direction,hday,hcounts,by rw [if_pos rfl,haddr,hhour,hbytes]⟩
    · exact .inr ⟨fun d hd => hslot (hcounts.unique hd.2).1,if_neg hslot⟩

theorem insertFlow_eq (f : Flow) :
    insertFlow localtime g f = { g with ipTable := (insertFlow localtime g f).ipTable } := by
  rw [insertFlow,insertNfInfoToIpTable_eq]

@[simp] theorem insertFlow_length (f : Flow) :
    (insertFlow localtime g f).ipTable.length = g.ipTable.length := by
  rw [insertFlow,insertNfInfoToIpTable_eq,foldl_apply_length]

/-- A flow that belongs to no slot of the table changes nothing. -/
theorem insertFlow_unseen {f : Flow}
    (h : ∀ i < g.ipTable.length, ∀ d, ¬(f.PassesDay localtime g ∧ f.CountsFor g i d)) :
    insertFlow localtime g f = g := by
  have htable : (insertFlow localtime g f).ipTable = g.ipTable := by
    apply List.ext_getElem (insertFlow_length f)
    intro i hi' hi
    have hentry : entryAt (insertFlow localtime g f).ipTable i = entryAt g.ipTable i := by
      rcases insertFlow_entry localtime f hi with ⟨d,hday,hcounts,-⟩ | ⟨-,heq⟩
      · exact absurd ⟨hday,hcounts⟩ (h i hi d)
      · exact heq
    rwa [entryAt,entryAt,List.getD_eq_getElem _ _ hi',List.getD_eq_getElem _ _ hi] at hentry
  rw [insertFlow_eq,htable]

theorem insertFlow_hflow (f : Flow) {i : Nat} (hi : i < g.ipTable.length) (h : Fin 24)
    (d : Direction) :
    (entryAt (insertFlow localtime g f).ipTable i).hflow h d =
      (entryAt g.ipTable i).hflow h d +
        if f.PassesDay localtime g ∧ (convertNfTime localtime f.info).tmHour = h ∧
          f.CountsFor g i d then f.flowBytes.setWidth 64 else 0 := by
  rcases insertFlow_entry localtime f hi with ⟨d',hday,hcounts,heq⟩ | ⟨hnot,heq⟩
  · rw [heq,HostFlow.book_hflow]
    have hdir : f.CountsFor g i d ↔ d = d' :=
      ⟨fun hd => (hd.unique hcounts).2,fun hd => hd ▸ hcounts⟩
    congr 1
    by_cases hhour : h = (convertNfTime localtime f.info).tmHour
    · simp only [hhour,hday,hdir,true_and,ite_true]
    · simp only [hhour,Ne.symm hhour,false_and,and_false,ite_false]
  · rw [heq,if_neg fun hf => hnot d ⟨hf.1,hf.2.2⟩]
    exact (BitVec.add_zero _).symm

theorem insertFlow_nflow (f : Flow) {i : Nat} (hi : i < g.ipTable.length) (d : Direction) :
    (entryAt (insertFlow localtime g f).ipTable i).nflow d =
      (entryAt g.ipTable i).nflow d +
        if f.PassesDay localtime g ∧ f.CountsFor g i d then f.flowBytes.setWidth 64 else 0 := by
  rcases insertFlow_entry localtime f hi with ⟨d',hday,hcounts,heq⟩ | ⟨hnot,heq⟩
  · rw [heq,HostFlow.book_nflow]
    have hdir : f.CountsFor g i d ↔ d = d' :=
      ⟨fun hd => (hd.unique hcounts).2,fun hd => hd ▸ hcounts⟩
    simp only [hday,hdir,true_and]
  · rw [heq,if_neg (hnot d)]
    exact (BitVec.add_zero _).symm

theorem insertFlow_sum (f : Flow) {i : Nat} (hi : i < g.ipTable.length) :
    (entryAt (insertFlow localtime g f).ipTable i).sum =
      (entryAt g.ipTable i).sum +
        if f.PassesDay localtime g ∧ (f.CountsFor g i .upload ∨ f.CountsFor g i .download) then
          f.flowBytes.setWidth 64 else 0 := by
  rcases insertFlow_entry localtime f hi with ⟨d',hday,hcounts,heq⟩ | ⟨hnot,heq⟩
  · have hsome : f.CountsFor g i .upload ∨ f.CountsFor g i .download := by
      cases d' with
      | upload => exact .inl hcounts
      | download => exact .inr hcounts
    rw [heq,if_pos ⟨hday,hsome⟩]
    rfl
  · have hnone : ¬(f.PassesDay localtime g ∧
        (f.CountsFor g i .upload ∨ f.CountsFor g i .download)) := by
      rintro ⟨hday,hup | hdown⟩
      · exact hnot .upload ⟨hday,hup⟩
      · exact hnot .download ⟨hday,hdown⟩
    rw [heq,if_neg hnone]
    exact (BitVec.add_zero _).symm

end Step

section Run

variable (localtime : Int → Tm) (g : Globals)

/-- What a run over a list of flows adds to a counter, from what one flow adds to it. -/
theorem insertFlows_counter (counter : HostFlow → Counter) (p : Globals → Flow → Prop)
    [∀ g, DecidablePred (p g)] (hp : ∀ g table f, p { g with ipTable := table } f ↔ p g f)
    {i : Nat} (hi : i < g.ipTable.length)
    (hstep : ∀ (g : Globals) f, i < g.ipTable.length →
      counter (entryAt (insertFlow localtime g f).ipTable i) =
        counter (entryAt g.ipTable i) + if p g f then f.flowBytes.setWidth 64 else 0)
    (flows : List Flow) :
    counter (entryAt (insertFlows localtime g flows).ipTable i) =
      counter (entryAt g.ipTable i) + bytesOf flows (p g) := by
  induction flows generalizing g with
  | nil => exact (BitVec.add_zero _).symm
  | cons f flows ih =>
    have hsame : bytesOf flows (p (insertFlow localtime g f)) = bytesOf flows (p g) := by
      have hpred : p (insertFlow localtime g f) = p g := by
        funext f'
        rw [insertFlow_eq]
        exact propext (hp g _ f')
      simp only [bytesOf,hpred]
    rw [insertFlows,List.foldl_cons,← insertFlows,ih _ (by rwa [insertFlow_length]),hstep g f hi,
      hsame,bytesOf_cons,BitVec.add_assoc]

theorem insertFlows_eq (flows : List Flow) :
    insertFlows localtime g flows =
        { g with ipTable := (insertFlows localtime g flows).ipTable } ∧
      (insertFlows localtime g flows).ipTable.length = g.ipTable.length := by
  induction flows generalizing g with
  | nil => exact ⟨rfl,rfl⟩
  | cons f flows ih =>
    obtain ⟨hrest,hlength⟩ := ih (insertFlow localtime g f)
    rw [insertFlows,List.foldl_cons,← insertFlows]
    refine ⟨?_,by rw [hlength,insertFlow_length]⟩
    rw [hrest,insertFlow_eq]

/-- The two ends of the flow are both inside or both outside. -/
def Flow.OneSided (f : Flow) (g : Globals) : Prop :=
  getIPIdx g.myNet g.nets f.srcAddr = retNotInMyNet ↔
    getIPIdx g.myNet g.nets f.dstAddr = retNotInMyNet

theorem insertFlow_oneSided {f : Flow} (h : f.OneSided g) : insertFlow localtime g f = g := by
  have hnone : creditOf localtime g f.srcAddr f.dstAddr f.flowBytes f.info = none := by
    refine Option.eq_none_iff_forall_ne_some.mpr fun c hc => ?_
    obtain ⟨-,hcounts,-⟩ := creditOf_eq_some_iff.mp hc
    rw [Flow.OneSided] at h
    cases hd : c.direction <;> rw [hd] at hcounts <;>
      simp only [Flow.CountsFor,retNotInMyNet] at hcounts h <;> omega
  rw [insertFlow,insertNfInfoToIpTable_eq,hnone]
  rfl

/-- What passing the flows to `InsertNfInfoToIpTable` one after another amounts to. -/
structure FlowsCounted (flows : List Flow) : Prop where
  frame : insertFlows localtime g flows =
    { g with ipTable := (insertFlows localtime g flows).ipTable }
  length : (insertFlows localtime g flows).ipTable.length = g.ipTable.length
  hflow : ∀ i < g.ipTable.length, ∀ h d,
    (entryAt (insertFlows localtime g flows).ipTable i).hflow h d =
      (entryAt g.ipTable i).hflow h d + bytesOf flows fun f => f.PassesDay localtime g ∧
        (convertNfTime localtime f.info).tmHour = h ∧ f.CountsFor g i d
  nflow : ∀ i < g.ipTable.length, ∀ d,
    (entryAt (insertFlows localtime g flows).ipTable i).nflow d =
      (entryAt g.ipTable i).nflow d + bytesOf flows fun f => f.PassesDay localtime g ∧
        f.CountsFor g i d
  once : ∀ (f : Flow) i i' d d', f.CountsFor g i d → f.CountsFor g i' d' → i = i' ∧ d = d'
  oneSided : ∀ (f : Flow) table, f.OneSided g →
    insertFlow localtime { g with ipTable := table } f = { g with ipTable := table }
  reorder : ∀ flows', flows.Perm flows' → ∀ i < g.ipTable.length,
    let e := entryAt (insertFlows localtime g flows).ipTable i
    let e' := entryAt (insertFlows localtime g flows').ipTable i
    e.hflow = e'.hflow ∧ e.nflow = e'.nflow ∧ e.sum = e'.sum

theorem flows_counted (flows : List Flow) : FlowsCounted localtime g flows := by
  have hhour (flows : List Flow) (i : Nat) (hi : i < g.ipTable.length) (h : Fin 24)
      (d : Direction) := insertFlows_counter localtime g (fun e => e.hflow h d)
    (fun g f => f.PassesDay localtime g ∧ (convertNfTime localtime f.info).tmHour = h ∧
      f.CountsFor g i d) (fun _ _ _ => Iff.rfl) hi (fun g f hi => insertFlow_hflow f hi h d) flows
  have htotal (flows : List Flow) (i : Nat) (hi : i < g.ipTable.length) (d : Direction) :=
    insertFlows_counter localtime g (fun e => e.nflow d)
      (fun g f => f.PassesDay localtime g ∧ f.CountsFor g i d) (fun _ _ _ => Iff.rfl) hi
      (fun g f hi => insertFlow_nflow f hi d) flows
  have hsum (flows : List Flow) (i : Nat) (hi : i < g.ipTable.length) :=
    insertFlows_counter localtime g HostFlow.sum
      (fun g f => f.PassesDay localtime g ∧ (f.CountsFor g i .upload ∨ f.CountsFor g i .download))
      (fun _ _ _ => Iff.rfl) hi (fun g f hi => insertFlow_sum f hi) flows
  refine ⟨(insertFlows_eq localtime g flows).1,(insertFlows_eq localtime g flows).2,hhour flows,
    htotal flows,fun _ _ _ _ _ h h' => h.unique h',
    fun f table h => insertFlow_oneSided localtime { g with ipTable := table } h,?_⟩
  intro flows' hperm i hi
  refine ⟨?_,?_,?_⟩
  · funext h d
    rw [hhour flows i hi h d,hhour flows' i hi h d,bytesOf_perm hperm]
  · funext d
    rw [htotal flows i hi d,htotal flows' i hi d,bytesOf_perm hperm]
  · rw [hsum flows i hi,hsum flows' i hi,bytesOf_perm hperm]

end Run

end Flowstatd
