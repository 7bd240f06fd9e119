import Flowstatd.Daemon.Restart
import Flowstatd.Netflow.Announced

/-!
# A day of exports

The counters after a day of datagrams of both versions from any number of exporters, from what the
exporters put into them.
-/

namespace Flowstatd

open Framework

/-- A datagram that an exporter has sent, and when it comes. -/
structure Export where
  now : Int
  sourceIp : InAddr
  content : FlowExport
  fits : content.encode.length ≤ bufSize

def Export.datagram (x : Export) : Datagram := ⟨x.now,x.sourceIp,x.content.encode,x.fits⟩

/-- The session handles the datagrams and nothing else. -/
abbrev Collects (gz : Nat → Nat) (localtime : Int → Tm) (s : Session) (xs : List Export)
    (t : Session) : Prop := Handles gz localtime s (xs.map Export.datagram) t

/-- The flows of a list of datagrams, each read after what its exporter has announced. -/
def exportedFlows : Announced → List Export → List Flow
  | _, [] => []
  | known, x :: xs =>
    x.content.flows known x.sourceIp ++ exportedFlows (known.after x.sourceIp x.content) xs

/-- The version 9 datagrams of one exporter. -/
def sentBy (e : Exporter) (xs : List Export) : List (HeaderV9 × List Flowset) :=
  xs.filterMap fun x => x.content.sentBy e x.sourceIp

/-- The version 5 datagrams. -/
def sentV5 (xs : List Export) : List NfV5Datagram := xs.filterMap fun x => x.content.v5?

/-- The datagrams of an exporter are well formed one after another. -/
def WellAnnounced : Layouts → List (HeaderV9 × List Flowset) → Prop
  | _, [] => True
  | layouts, (_,flowsets) :: rest =>
    Encodable layouts flowsets ∧ WellAnnounced (flowsets.foldl Layouts.after layouts) rest

section Clock

variable {localtime : Int → Tm}

/-- All that a booking takes of the clock is the day. -/
theorem insertFlow_localtm (localtime : Int → Tm) {g : Globals} {tm : Tm}
    (htm : tm.tmMday = g.localtm.tmMday) (f : Flow) :
    insertFlow localtime { g with localtm := tm } f =
      { insertFlow localtime g f with localtm := tm } := by
  have hcredit : creditOf localtime { g with localtm := tm } f.srcAddr f.dstAddr f.flowBytes f.info =
      creditOf localtime g f.srcAddr f.dstAddr f.flowBytes f.info :=
    if_congr (by rw [htm]) rfl rfl
  rw [insertFlow,insertFlow,insertNfInfoToIpTable_eq,insertNfInfoToIpTable_eq,hcredit]

theorem insertFlows_localtm (localtime : Int → Tm) {g : Globals} {tm : Tm}
    (htm : tm.tmMday = g.localtm.tmMday) (flows : List Flow) :
    insertFlows localtime { g with localtm := tm } flows =
      { insertFlows localtime g flows with localtm := tm } := by
  induction flows generalizing g with
  | nil => rfl
  | cons f flows ih =>
    have hday : tm.tmMday = (insertFlow localtime g f).localtm.tmMday := by
      rw [insertFlow_eq]
      exact htm
    rw [insertFlows,List.foldl_cons,insertFlow_localtm localtime htm]
    exact ih hday

/-- Flows that come later on the same day are added to those before. -/
theorem insertFlows_resumed (localtime : Int → Tm) {g : Globals} {tm : Tm}
    (htm : tm.tmMday = g.localtm.tmMday) (flows later : List Flow) :
    insertFlows localtime { insertFlows localtime g flows with localtm := tm } later =
      insertFlows localtime { g with localtm := tm } (flows ++ later) := by
  rw [← insertFlows_localtm localtime htm]
  exact List.foldl_append.symm

end Clock

section Exporters

variable {known : Announced}

theorem sentBy_cons (e : Exporter) (x : Export) (xs : List Export) :
    sentBy e (x :: xs) = (x.content.sentBy e x.sourceIp).toList ++ sentBy e xs := by
  cases h : x.content.sentBy e x.sourceIp <;> simp [sentBy,h]

theorem sentBy_append (e : Exporter) (xs ys : List Export) :
    sentBy e (xs ++ ys) = sentBy e xs ++ sentBy e ys := List.filterMap_append

/-- A datagram is well formed, and so are those behind it after it. -/
theorem wellAnnounced_cons {x : Export} {xs : List Export}
    (h : ∀ e, WellAnnounced (known e) (sentBy e (x :: xs))) :
    x.content.WellFormed known x.sourceIp ∧
      ∀ e, WellAnnounced (known.after x.sourceIp x.content e) (sentBy e xs) := by
  obtain ⟨now,sourceIp,content,fits⟩ := x
  cases content with
  | v5 x => exact ⟨trivial,h⟩
  | v9 header flowsets =>
    have hown := h ⟨sourceIp,header.sourceId⟩
    simp only [sentBy_cons,FlowExport.sentBy,if_true,Option.toList_some,List.singleton_append,
      WellAnnounced] at hown
    refine ⟨hown.1,fun e => ?_⟩
    by_cases he : ⟨sourceIp,header.sourceId⟩ = e
    · subst he
      simpa only [Announced.after,Function.update_self] using hown.2
    · have hother := h e
      simp only [sentBy_cons,FlowExport.sentBy,if_neg he,Option.toList_none,List.nil_append]
        at hother
      simpa only [Announced.after,Function.update_of_ne (Ne.symm he)] using hother

theorem from_cons {exporters : Set Exporter} {x : Export} {xs : List Export}
    (h : ∀ e, sentBy e (x :: xs) ≠ [] → e ∈ exporters) :
    (∀ e, x.content.sentBy e x.sourceIp ≠ none → e ∈ exporters) ∧
      ∀ e, sentBy e xs ≠ [] → e ∈ exporters := by
  refine ⟨fun e he => h e ?_,fun e he => h e ?_⟩
  · obtain ⟨sent,hsent⟩ := Option.ne_none_iff_exists'.mp he
    simp [sentBy_cons,hsent]
  · simp [sentBy_cons,he]

end Exporters

section Day

variable {gz : Nat → Nat} {localtime : Int → Tm} {known : Announced} {exporters : Set Exporter}

/-- A datagram is booked to the table that it finds. -/
theorem Export.booked {x : Export} {s s' : Session} {stack : Nat → U32} {beyond : Nat → Byte}
    (hheld : known.Held exporters s.daemon.machine.templateTable)
    (hapart : exporters.InjOn Exporter.block)
    (hfrom : ∀ e, x.content.sentBy e x.sourceIp ≠ none → e ∈ exporters)
    (hwell : x.content.WellFormed known x.sourceIp)
    (hstep : Step gz localtime s (.datagram x.now stack (x.datagram.packet beyond) x.sourceIp) s') :
    s'.daemon.globals = insertFlows localtime (arrivalGlobals localtime x.now s.daemon)
        (x.content.flows known x.sourceIp) ∧
      (known.after x.sourceIp x.content).Held exporters s'.daemon.machine.templateTable := by
  obtain ⟨-,-,hend⟩ := hstep.handled
  obtain ⟨m',⟨n,hn⟩,hglobals,hheld'⟩ := FlowExport.handled localtime x.fits beyond
    (m := arrival localtime x.now stack s.daemon) hheld hapart hfrom hwell
  have hhandled : Ends (handleDatagram localtime x.now stack (x.datagram.packet beyond) x.sourceIp)
      s.daemon ⟨m',(localtime x.now).tmHour⟩ :=
    ⟨n,by rw [handleDatagram,Export.datagram,Datagram.packet,hn]; rfl⟩
  rw [handleDatagram_unique hend hhandled]
  exact ⟨hglobals,hheld'⟩

/-- One datagram of the day. -/
theorem Export.step {x : Export} {s s' : Session} {stack : Nat → U32} {beyond : Nat → Byte}
    (hforward : HoursForward localtime) (hs : s.Timed localtime)
    (hquiet : s.today = (localtime x.now).date ∨ resetTable s.daemon.globals = s.daemon.globals)
    (hheld : known.Held exporters s.daemon.machine.templateTable)
    (hapart : exporters.InjOn Exporter.block)
    (hfrom : ∀ e, x.content.sentBy e x.sourceIp ≠ none → e ∈ exporters)
    (hwell : x.content.WellFormed known x.sourceIp)
    (hstep : Step gz localtime s (.datagram x.now stack (x.datagram.packet beyond) x.sourceIp) s') :
    s'.daemon.globals = insertFlows localtime
        { s.daemon.globals with localtm := localtime x.now } (x.content.flows known x.sourceIp) ∧
      (known.after x.sourceIp x.content).Held exporters s'.daemon.machine.templateTable := by
  rw [← arrivalGlobals_quiet hforward hs hstep.handled.1 hquiet]
  exact Export.booked hheld hapart hfrom hwell hstep

theorem Collects.uncons {x : Export} {xs : List Export} {s t : Session}
    (h : Collects gz localtime s (x :: xs) t) :
    ∃ stack beyond s',
      Step gz localtime s (.datagram x.now stack (x.datagram.packet beyond) x.sourceIp) s' ∧
        Collects gz localtime s' xs t :=
  Handles.uncons h

/-- Over a day the table takes the flows of all datagrams, one after another. -/
theorem Collects.booked {xs : List Export} {s t : Session} {date : Int × Fin 12 × Nat}
    (h : Collects gz localtime s xs t) (hforward : HoursForward localtime) (hs : s.Timed localtime)
    (hday : ∀ x ∈ xs, (localtime x.now).date = date)
    (hquiet : s.today = date ∨ resetTable s.daemon.globals = s.daemon.globals)
    (hheld : known.Held exporters s.daemon.machine.templateTable)
    (hapart : exporters.InjOn Exporter.block) (hfrom : ∀ e, sentBy e xs ≠ [] → e ∈ exporters)
    (hwell : ∀ e, WellAnnounced (known e) (sentBy e xs)) :
    ∃ tm : Tm, tm.tmMday = date.2.2 ∧ t.daemon.globals =
      { insertFlows localtime { s.daemon.globals with localtm := tm } (exportedFlows known xs) with
        localtm := t.daemon.globals.localtm } := by
  induction xs generalizing s known with
  | nil =>
    cases h
    exact ⟨⟨0,0,date.2.2,0⟩,rfl,rfl⟩
  | cons x xs ih =>
    obtain ⟨hx,hxs⟩ := List.forall_mem_cons.mp hday
    obtain ⟨hwellx,hwellxs⟩ := wellAnnounced_cons hwell
    obtain ⟨hfromx,hfromxs⟩ := from_cons hfrom
    obtain ⟨stack,beyond,s',hstep,hrest⟩ := h.uncons
    obtain ⟨hbooked,hheld'⟩ :=
      Export.step hforward hs (hx ▸ hquiet) hheld hapart hfromx hwellx hstep
    have htimed : s'.Timed localtime := hstep.timed
    have htoday : s'.today = date := by
      rw [htimed.today,hstep.handled.2.1]
      exact hx
    obtain ⟨tm,htm,hglobals⟩ := ih hrest htimed hxs (.inl htoday) hheld' hfromxs hwellxs
    have hmday : tm.tmMday = (localtime x.now).tmMday := by
      rw [htm,← hx]
      rfl
    have hresumed := insertFlows_resumed localtime
      (g := { s.daemon.globals with localtm := localtime x.now }) hmday
      (x.content.flows known x.sourceIp) (exportedFlows (known.after x.sourceIp x.content) xs)
    refine ⟨tm,htm,hglobals.trans ?_⟩
    rw [hbooked,hresumed,exportedFlows]

/-- The start of the flow, as the code computes it, is on the day. -/
def Flow.OnDay (localtime : Int → Tm) (date : Int × Fin 12 × Nat) (f : Flow) : Prop :=
  (convertNfTime localtime f.info).tmMday = date.2.2

instance (localtime : Int → Tm) (date : Int × Fin 12 × Nat) (f : Flow) :
    Decidable (f.OnDay localtime date) :=
  inferInstanceAs (Decidable (_ = _))

/-- The counters of a slot have grown by the bytes of some flows. -/
structure GrownBy (localtime : Int → Tm) (date : Int × Fin 12 × Nat) (g : Globals)
    (flows : List Flow) (i : Nat) (before after : HostFlow) : Prop where
  hflow : ∀ hour d, after.hflow hour d = before.hflow hour d + bytesOf flows fun f =>
    f.OnDay localtime date ∧ (convertNfTime localtime f.info).tmHour = hour ∧ f.CountsFor g i d
  nflow : ∀ d, after.nflow d = before.nflow d + bytesOf flows fun f =>
    f.OnDay localtime date ∧ f.CountsFor g i d
  sum : after.sum = before.sum + bytesOf flows fun f =>
    f.OnDay localtime date ∧ (f.CountsFor g i .upload ∨ f.CountsFor g i .download)

theorem insertFlows_grownBy (localtime : Int → Tm) {g : Globals} {tm : Tm} {date : Int × Fin 12 × Nat}
    (htm : tm.tmMday = date.2.2) (flows : List Flow) {i : Nat} (hi : i < g.ipTable.length) :
    GrownBy localtime date g flows i (entryAt g.ipTable i)
      (entryAt (insertFlows localtime { g with localtm := tm } flows).ipTable i) := by
  have hpasses (f : Flow) : f.PassesDay localtime { g with localtm := tm } ↔
      f.OnDay localtime date := by
    rw [Flow.PassesDay,Flow.OnDay,htm]
  have hcounts (f : Flow) (d : Direction) :
      f.CountsFor { g with localtm := tm } i d ↔ f.CountsFor g i d := by cases d <;> exact Iff.rfl
  constructor
  · intro hour d
    have hgrown := insertFlows_counter localtime { g with localtm := tm } (fun e => e.hflow hour d)
      (fun g f => f.PassesDay localtime g ∧ (convertNfTime localtime f.info).tmHour = hour ∧
        f.CountsFor g i d) (fun _ _ _ => Iff.rfl) hi (fun g f hi => insertFlow_hflow f hi hour d) flows
    simpa only [hpasses,hcounts] using hgrown
  · intro d
    have hgrown := insertFlows_counter localtime { g with localtm := tm } (fun e => e.nflow d)
      (fun g f => f.PassesDay localtime g ∧ f.CountsFor g i d) (fun _ _ _ => Iff.rfl) hi
      (fun g f hi => insertFlow_nflow f hi d) flows
    simpa only [hpasses,hcounts] using hgrown
  · have hgrown := insertFlows_counter localtime { g with localtm := tm } HostFlow.sum
      (fun g f => f.PassesDay localtime g ∧ (f.CountsFor g i .upload ∨ f.CountsFor g i .download))
      (fun _ _ _ => Iff.rfl) hi (fun g f hi => insertFlow_sum f hi) flows
    simpa only [hpasses,hcounts] using hgrown

end Day

section Order

variable {known : Announced} {sourceIp sourceIp' : InAddr}

/-- No exporter has sent both. -/
def FlowExport.Apart (sourceIp sourceIp' : InAddr) (x y : FlowExport) : Prop :=
  ∀ e, x.sentBy e sourceIp = none ∨ y.sentBy e sourceIp' = none

private theorem FlowExport.Apart.exporter_ne {h h' : HeaderV9} {flowsets flowsets' : List Flowset}
    (hapart : FlowExport.Apart sourceIp sourceIp' (.v9 h flowsets) (.v9 h' flowsets')) :
    (⟨sourceIp',h'.sourceId⟩ : Exporter) ≠ ⟨sourceIp,h.sourceId⟩ := by
  intro heq
  have hboth := hapart ⟨sourceIp,h.sourceId⟩
  simp [FlowExport.sentBy,heq] at hboth

/-- What one of them announces does not touch the other. -/
private theorem FlowExport.Apart.flows {x y : FlowExport}
    (hapart : FlowExport.Apart sourceIp sourceIp' x y) :
    y.flows (known.after sourceIp x) sourceIp' = y.flows known sourceIp' := by
  cases x with
  | v5 x => rfl
  | v9 h flowsets =>
    cases y with
    | v5 y => rfl
    | v9 h' flowsets' =>
      simp only [FlowExport.flows,Announced.after,Function.update_of_ne hapart.exporter_ne]

private theorem FlowExport.Apart.after {x y : FlowExport}
    (hapart : FlowExport.Apart sourceIp sourceIp' x y) :
    (known.after sourceIp x).after sourceIp' y = (known.after sourceIp' y).after sourceIp x := by
  cases x with
  | v5 x => rfl
  | v9 h flowsets =>
    cases y with
    | v5 y => rfl
    | v9 h' flowsets' =>
      have hne := hapart.exporter_ne
      simp only [Announced.after,Function.update_of_ne hne,Function.update_of_ne hne.symm]
      exact Function.update_comm hne.symm _ _ _

private theorem FlowExport.Apart.symm {x y : FlowExport}
    (hapart : FlowExport.Apart sourceIp sourceIp' x y) :
    FlowExport.Apart sourceIp' sourceIp y x :=
  fun e => (hapart e).symm

/-- A datagram may come before others that its exporter has not sent. -/
private theorem exportedFlows_move {x : Export} {before behind : List Export}
    (h : ∀ y ∈ before, FlowExport.Apart x.sourceIp y.sourceIp x.content y.content) :
    (exportedFlows known (before ++ x :: behind)).Perm
      (exportedFlows known (x :: (before ++ behind))) := by
  induction before generalizing known with
  | nil => exact .refl _
  | cons y before ih =>
    obtain ⟨hy,hbefore⟩ := List.forall_mem_cons.mp h
    have hmoved : (exportedFlows (known.after y.sourceIp y.content) (before ++ x :: behind)).Perm
        (x.content.flows known x.sourceIp ++ exportedFlows
          ((known.after x.sourceIp x.content).after y.sourceIp y.content) (before ++ behind)) := by
      rw [hy.after,← hy.symm.flows]
      exact ih hbefore
    simp only [List.cons_append,exportedFlows]
    rw [hy.flows]
    exact (hmoved.append_left _).trans (List.perm_append_comm_assoc _ _ _)

private theorem sentBy_move (e : Exporter) {x : Export} {before behind : List Export}
    (h : ∀ y ∈ before, FlowExport.Apart x.sourceIp y.sourceIp x.content y.content) :
    sentBy e (before ++ x :: behind) = sentBy e (x :: (before ++ behind)) := by
  by_cases hx : x.content.sentBy e x.sourceIp = none
  · simp [sentBy_append,sentBy_cons,hx]
  · have hbefore : sentBy e before = [] :=
      List.filterMap_eq_nil_iff.mpr fun y hy => (h y hy e).resolve_left hx
    simp [sentBy_append,sentBy_cons,hbefore]

/-- The same datagram, for version 9 also from the same address. -/
private def Export.Alike (x y : Export) : Prop :=
  x.content = y.content ∧ (x.content.v5? = none → x.sourceIp = y.sourceIp)

private theorem Export.Alike.congr {α : Type} {x y : Export} (h : x.Alike y)
    (f : InAddr → FlowExport → α) (hf : ∀ a b d, f a (.v5 d) = f b (.v5 d)) :
    f x.sourceIp x.content = f y.sourceIp y.content := by
  rw [← h.1]
  cases hx : x.content with
  | v5 d => exact hf _ _ d
  | v9 header flowsets => rw [h.2 (by rw [hx]; rfl)]

/-- The first datagram of one list, found in the other. -/
private theorem exists_alike {x : Export} {xs xs' : List Export}
    (hv5 : (sentV5 (x :: xs)).Perm (sentV5 xs')) (hv9 : ∀ e, sentBy e (x :: xs) = sentBy e xs') :
    ∃ before y behind, xs' = before ++ y :: behind ∧ x.Alike y ∧
      ∀ z ∈ before, FlowExport.Apart y.sourceIp z.sourceIp y.content z.content := by
  cases hx : x.content with
  | v5 d =>
    have hmem : d ∈ sentV5 xs' := hv5.subset (by simp [sentV5,FlowExport.v5?,hx])
    obtain ⟨y,hy,hd⟩ := List.mem_filterMap.mp hmem
    have hcontent : y.content = .v5 d := by
      cases hy' : y.content <;> simp_all [FlowExport.v5?]
    obtain ⟨before,behind,rfl⟩ := List.append_of_mem hy
    refine ⟨before,y,behind,rfl,⟨hx.trans hcontent.symm,?_⟩,fun z _ e => .inl ?_⟩
    · simp [hx,FlowExport.v5?]
    · rw [hcontent]
      rfl
  | v9 h flowsets =>
    let e : Exporter := ⟨x.sourceIp,h.sourceId⟩
    have hsent : sentBy e xs' = (h,flowsets) :: sentBy e xs := by
      rw [← hv9,sentBy_cons,hx]
      simp [FlowExport.sentBy,e]
    obtain ⟨before,y,behind,rfl,hbefore,hy,-⟩ := List.filterMap_eq_cons_iff.mp hsent
    cases hy' : y.content with
    | v5 d => simp [hy',FlowExport.sentBy] at hy
    | v9 h' flowsets' =>
      simp only [hy',FlowExport.sentBy,e,Exporter.mk.injEq,Option.ite_none_right_eq_some,
        Option.some.injEq,Prod.mk.injEq] at hy
      obtain ⟨⟨hip,-⟩,rfl,rfl⟩ := hy
      refine ⟨before,y,behind,rfl,⟨by rw [hx,hy'],fun _ => hip.symm⟩,fun z hz e' => ?_⟩
      by_cases he : e = e'
      · exact .inr (he ▸ hbefore z hz)
      · left
        rw [hy',hip]
        exact if_neg he

/-- The flows depend on the order in which each exporter has sent its datagrams, and for version 5
not even on that. -/
theorem exportedFlows_perm {xs xs' : List Export} (hv5 : (sentV5 xs).Perm (sentV5 xs'))
    (hv9 : ∀ e, sentBy e xs = sentBy e xs') :
    (exportedFlows known xs).Perm (exportedFlows known xs') := by
  induction xs generalizing known xs' with
  | nil =>
    cases xs' with
    | nil => exact .refl _
    | cons y ys =>
      cases hy : y.content with
      | v5 d =>
        have hlength := hv5.length_eq
        simp [sentV5,FlowExport.v5?,hy] at hlength
      | v9 h flowsets =>
        have hnone := hv9 ⟨y.sourceIp,h.sourceId⟩
        simp [sentBy,FlowExport.sentBy,hy] at hnone
  | cons x xs ih =>
    obtain ⟨before,y,behind,rfl,halike,hapart⟩ := exists_alike hv5 hv9
    refine List.Perm.trans ?_ (exportedFlows_move hapart).symm
    have hflows := halike.congr (fun a x => x.flows known a) fun _ _ _ => rfl
    have hafter := halike.congr (fun a x => known.after a x) fun _ _ _ => rfl
    have hsent (e : Exporter) := halike.congr (fun a x => x.sentBy e a) fun _ _ _ => rfl
    rw [exportedFlows,exportedFlows,hflows,hafter]
    apply List.Perm.append_left
    apply ih
    · have hmiddle : (sentV5 (before ++ y :: behind)).Perm (sentV5 (y :: (before ++ behind))) :=
        List.perm_middle.filterMap _
      have hboth := hv5.trans hmiddle
      cases hv : x.content.v5? with
      | none => simpa [sentV5,hv,← halike.1] using hboth
      | some d => simpa [sentV5,hv,← halike.1] using hboth
    · intro e
      have hmoved := (hv9 e).trans (sentBy_move e hapart)
      rw [sentBy_cons,sentBy_cons,hsent] at hmoved
      exact List.append_cancel_left hmoved

end Order

/-- Well-formed datagrams of the exporters are handled whenever they come. -/
theorem exists_collects (gz : Nat → Nat) (localtime : Int → Tm) {known : Announced}
    {exporters : Set Exporter} {s : Session} (hrun : s.running)
    (hheld : known.Held exporters s.daemon.machine.templateTable)
    (hapart : exporters.InjOn Exporter.block) {xs : List Export}
    (hfrom : ∀ e, sentBy e xs ≠ [] → e ∈ exporters)
    (hwell : ∀ e, WellAnnounced (known e) (sentBy e xs)) (hclock : ∀ x ∈ xs, s.clock ≤ x.now)
    (hsorted : xs.Pairwise fun x y => x.now ≤ y.now) : ∃ t, Collects gz localtime s xs t := by
  induction xs generalizing s known with
  | nil => exact ⟨s,.nil s⟩
  | cons x xs ih =>
    obtain ⟨hwellx,hwellxs⟩ := wellAnnounced_cons hwell
    obtain ⟨hfromx,hfromxs⟩ := from_cons hfrom
    obtain ⟨hfirst,hsorted⟩ := List.pairwise_cons.mp hsorted
    obtain ⟨m,⟨n,hn⟩,-,hheld'⟩ := FlowExport.handled localtime x.fits (fun _ => 0)
      (m := arrival localtime x.now (fun _ => 0) s.daemon) hheld hapart hfromx hwellx
    have hends : Ends (handleDatagram localtime x.now (fun _ => 0)
        (x.datagram.packet fun _ => 0) x.sourceIp) s.daemon ⟨m,(localtime x.now).tmHour⟩ :=
      ⟨n,by rw [handleDatagram,Export.datagram,Datagram.packet,hn]; rfl⟩
    obtain ⟨t,ht⟩ := ih (s := s.afterDatagram gz localtime x.now ⟨m,(localtime x.now).tmHour⟩) hrun
      hheld' hfromxs hwellxs hfirst hsorted
    exact ⟨t,.cons _ _ (.datagram hrun (hclock x List.mem_cons_self) hends) ht⟩

/-- The daemon with one network, started in June. -/
def juneStarted : Session :=
  ⟨startup juneClock 1340000000 (fun _ => 0) oneSubnetMachine.globals,1340000000,[],[],true⟩

/-- Two exporters with templates in different blocks. -/
def juneExporters : Set Exporter := {⟨0x08080808,0⟩,⟨0x09090909,0⟩}

private theorem juneExporters_apart : juneExporters.InjOn Exporter.block := by
  have hblocks : Exporter.block ⟨0x08080808,0⟩ ≠ Exporter.block ⟨0x09090909,0⟩ := by decide +kernel
  rintro e (rfl | rfl) e' (rfl | rfl) h
  · rfl
  · exact absurd h hblocks
  · exact absurd h.symm hblocks
  · rfl

/-- A version 5 datagram of two records from 10.0.0.1 to 8.8.8.8. -/
def juneV5 (now : Int) : Export :=
  ⟨now,0x08080808,.v5 (.twice 1340000000 0x0100000a 0x08080808 1000),NfV5Datagram.encode_fits _⟩

/-- Another record of that template. -/
def laterFlowsets : List Flowset :=
  [.data 256 [[beBytes 4 0x0a000001,beBytes 4 0x08080808,beBytes 4 500,beBytes 4 1000]] []]

private theorem plainFlowsets_fits : (encodeDatagram bootHeader plainFlowsets).length ≤ bufSize := by
  decide

private theorem laterFlowsets_fits : (encodeDatagram bootHeader laterFlowsets).length ≤ bufSize := by
  decide

/-- A version 9 datagram with a template and a record of it. -/
def juneV9 (now : Int) (sourceIp : InAddr) : Export :=
  ⟨now,sourceIp,.v9 bootHeader plainFlowsets,plainFlowsets_fits⟩

/-- One that needs the template of an earlier one. -/
def juneV9Later (now : Int) (sourceIp : InAddr) : Export :=
  ⟨now,sourceIp,.v9 bootHeader laterFlowsets,laterFlowsets_fits⟩

/-- Both exporters announce the template, and one of them uses it again. -/
def juneExports : List Export :=
  [juneV9 1340000100 0x08080808,juneV9 1340000200 0x09090909,juneV5 1340000300,
    juneV9Later 1340000400 0x08080808]

/-- The same with the other exporter first. -/
def juneExportsMixed : List Export :=
  [juneV9 1340000100 0x09090909,juneV5 1340000150,juneV9 1340000250 0x08080808,
    juneV9Later 1340000500 0x08080808]

private theorem juneV9_sentBy (e : Exporter) (now : Int) (sourceIp : InAddr) :
    (juneV9 now sourceIp).content.sentBy e (juneV9 now sourceIp).sourceIp =
      if ⟨sourceIp,0⟩ = e then some (bootHeader,plainFlowsets) else none := rfl

private theorem juneV9Later_sentBy (e : Exporter) (now : Int) (sourceIp : InAddr) :
    (juneV9Later now sourceIp).content.sentBy e (juneV9Later now sourceIp).sourceIp =
      if ⟨sourceIp,0⟩ = e then some (bootHeader,laterFlowsets) else none := rfl

private theorem juneV5_sentBy (e : Exporter) (now : Int) :
    (juneV5 now).content.sentBy e (juneV5 now).sourceIp = none := rfl

private theorem sentBy_juneExports (e : Exporter) : sentBy e juneExports =
    if (⟨0x08080808,0⟩ : Exporter) = e then [(bootHeader,plainFlowsets),(bootHeader,laterFlowsets)]
    else if (⟨0x09090909,0⟩ : Exporter) = e then [(bootHeader,plainFlowsets)] else [] := by
  simp only [juneExports,sentBy_cons,juneV9_sentBy,juneV9Later_sentBy,juneV5_sentBy]
  by_cases h8 : (⟨0x08080808,0⟩ : Exporter) = e
  · subst h8
    rfl
  · simp only [h8,if_false]
    split_ifs <;> rfl

private theorem sentBy_juneExportsMixed (e : Exporter) :
    sentBy e juneExportsMixed = sentBy e juneExports := by
  rw [sentBy_juneExports]
  simp only [juneExportsMixed,sentBy_cons,juneV9_sentBy,juneV9Later_sentBy,juneV5_sentBy]
  by_cases h8 : (⟨0x08080808,0⟩ : Exporter) = e
  · subst h8
    rfl
  · simp only [h8,if_false]
    split_ifs <;> rfl

private theorem juneExports_from (e : Exporter) (h : sentBy e juneExports ≠ []) :
    e ∈ juneExporters := by
  rw [sentBy_juneExports] at h
  split_ifs at h with h8 h9
  · exact .inl h8.symm
  · exact .inr h9.symm
  · exact absurd rfl h

private theorem plainFlowsets_encodable : Encodable (fun _ => none) plainFlowsets := by
  refine ⟨?_,by decide,⟨plainTemplate.fields,rfl,by decide,by decide⟩,by decide,
    ⟨by decide,by decide⟩,by decide,trivial⟩
  exact fun t ht => List.mem_singleton.mp ht ▸ plainTemplate_wellFormed

private theorem juneExports_wellAnnounced (e : Exporter) :
    WellAnnounced (fun _ => none) (sentBy e juneExports) := by
  rw [sentBy_juneExports]
  split_ifs
  · exact ⟨plainFlowsets_encodable,⟨⟨plainTemplate.fields,rfl,by decide,by decide⟩,by decide,trivial⟩,
      trivial⟩
  · exact ⟨plainFlowsets_encodable,trivial⟩
  · trivial

/-- After a day of datagrams each counter of each slot has grown by exactly the bytes of the flows
that belong to it, if no two of the exporters have templates in one block of the table. -/
theorem exported_day_counted {gz : Nat → Nat} {localtime : Int → Tm} {s t : Session} {xs : List Export}
    {date : Int × Fin 12 × Nat} {known : Announced} {exporters : Set Exporter}
    (hforward : HoursForward localtime) (hs : s.Timed localtime)
    (hday : ∀ x ∈ xs, (localtime x.now).date = date)
    (hquiet : s.today = date ∨ resetTable s.daemon.globals = s.daemon.globals)
    (hheld : known.Held exporters s.daemon.machine.templateTable)
    (hapart : exporters.InjOn Exporter.block) (hfrom : ∀ e, sentBy e xs ≠ [] → e ∈ exporters)
    (hwell : ∀ e, WellAnnounced (known e) (sentBy e xs)) (h : Collects gz localtime s xs t) (i : Nat)
    (hi : i < s.daemon.globals.ipTable.length) :
    GrownBy localtime date s.daemon.globals (exportedFlows known xs) i
      (entryAt s.daemon.globals.ipTable i) (entryAt t.daemon.globals.ipTable i) := by
  obtain ⟨tm,htm,hglobals⟩ := h.booked hforward hs hday hquiet hheld hapart hfrom hwell
  rw [congrArg Globals.ipTable hglobals]
  exact insertFlows_grownBy localtime htm _ hi

theorem exported_day_counted_june :
    ∃ t, Collects zlibLength juneClock juneStarted juneExports t ∧
      GrownBy juneClock (112,5,18) juneStarted.daemon.globals
        (exportedFlows (fun _ _ => none) juneExports) 1
        (entryAt juneStarted.daemon.globals.ipTable 1) (entryAt t.daemon.globals.ipTable 1) := by
  obtain ⟨t,ht⟩ := exists_collects zlibLength juneClock (s := juneStarted) rfl (Announced.held_none _)
    juneExporters_apart juneExports_from juneExports_wellAnnounced
    (by simp [juneExports,juneV9,juneV9Later,juneV5,juneStarted])
    (by simp [juneExports,juneV9,juneV9Later,juneV5])
  exact ⟨t,ht,exported_day_counted juneClock_forward ⟨rfl,rfl⟩
    (by simp only [juneExports,List.forall_mem_cons]; decide +kernel) (.inl rfl)
    (Announced.held_none _) juneExporters_apart juneExports_from juneExports_wellAnnounced ht 1
    (by decide)⟩

/-- How the datagrams of the exporters mix on a day makes no difference to the counters. -/
theorem arrival_order_irrelevant {gz : Nat → Nat} {localtime : Int → Tm} {s t t' : Session}
    {xs xs' : List Export} {date : Int × Fin 12 × Nat} {known : Announced} {exporters : Set Exporter}
    (hforward : HoursForward localtime) (hs : s.Timed localtime)
    (hday : ∀ x ∈ xs ++ xs', (localtime x.now).date = date)
    (hquiet : s.today = date ∨ resetTable s.daemon.globals = s.daemon.globals)
    (hheld : known.Held exporters s.daemon.machine.templateTable)
    (hapart : exporters.InjOn Exporter.block) (hfrom : ∀ e, sentBy e xs ≠ [] → e ∈ exporters)
    (hwell : ∀ e, WellAnnounced (known e) (sentBy e xs))
    (hv5 : (sentV5 xs).Perm (sentV5 xs')) (hv9 : ∀ e, sentBy e xs = sentBy e xs')
    (h : Collects gz localtime s xs t) (h' : Collects gz localtime s xs' t') (i : Nat)
    (hi : i < s.daemon.globals.ipTable.length) :
    let e := entryAt t.daemon.globals.ipTable i
    let e' := entryAt t'.daemon.globals.ipTable i
    e.hflow = e'.hflow ∧ e.nflow = e'.nflow ∧ e.sum = e'.sum := by
  obtain ⟨hxs,hxs'⟩ := List.forall_mem_append.mp hday
  have hflows : (exportedFlows known xs).Perm (exportedFlows known xs') := exportedFlows_perm hv5 hv9
  obtain ⟨tm,htm,hglobals⟩ := h.booked hforward hs hxs hquiet hheld hapart hfrom hwell
  obtain ⟨tm',htm',hglobals'⟩ := h'.booked hforward hs hxs' hquiet hheld hapart
    (fun e he => hfrom e (by rw [hv9]; exact he)) fun e => hv9 e ▸ hwell e
  have hgrown := insertFlows_grownBy localtime htm (exportedFlows known xs) hi
  have hgrown' := insertFlows_grownBy localtime htm' (exportedFlows known xs') hi
  simp only [congrArg Globals.ipTable hglobals,congrArg Globals.ipTable hglobals']
  refine ⟨?_,?_,?_⟩
  · funext hour d
    rw [hgrown.hflow,hgrown'.hflow,bytesOf_perm hflows]
  · funext d
    rw [hgrown.nflow,hgrown'.nflow,bytesOf_perm hflows]
  · rw [hgrown.sum,hgrown'.sum,bytesOf_perm hflows]

theorem arrival_order_irrelevant_june :
    ∃ t t', Collects zlibLength juneClock juneStarted juneExports t ∧
      Collects zlibLength juneClock juneStarted juneExportsMixed t' ∧
      (entryAt t.daemon.globals.ipTable 1).sum = (entryAt t'.daemon.globals.ipTable 1).sum := by
  have hwell (e : Exporter) : WellAnnounced (fun _ => none) (sentBy e juneExportsMixed) :=
    sentBy_juneExportsMixed e ▸ juneExports_wellAnnounced e
  have hfrom (e : Exporter) (he : sentBy e juneExportsMixed ≠ []) : e ∈ juneExporters :=
    juneExports_from e (sentBy_juneExportsMixed e ▸ he)
  obtain ⟨t,ht⟩ := exists_collects zlibLength juneClock (s := juneStarted) rfl (Announced.held_none _)
    juneExporters_apart juneExports_from juneExports_wellAnnounced
    (by simp [juneExports,juneV9,juneV9Later,juneV5,juneStarted])
    (by simp [juneExports,juneV9,juneV9Later,juneV5])
  obtain ⟨t',ht'⟩ := exists_collects zlibLength juneClock (s := juneStarted) rfl (Announced.held_none _)
    juneExporters_apart hfrom hwell
    (by simp [juneExportsMixed,juneV9,juneV9Later,juneV5,juneStarted])
    (by simp [juneExportsMixed,juneV9,juneV9Later,juneV5])
  have hv5 : (sentV5 juneExports).Perm (sentV5 juneExportsMixed) := .refl _
  refine ⟨t,t',ht,ht',(arrival_order_irrelevant juneClock_forward ⟨rfl,rfl⟩ ?_ (.inl rfl)
    (Announced.held_none _) juneExporters_apart juneExports_from juneExports_wellAnnounced
    hv5 (fun e => (sentBy_juneExportsMixed e).symm) ht ht' 1 (by decide)).2.2⟩
  simp only [juneExports,juneExportsMixed,List.cons_append,List.nil_append,List.forall_mem_cons]
  decide +kernel

end Flowstatd
