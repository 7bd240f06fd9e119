import Flowstatd.Daemon.ExportedDay
import Flowstatd.Daemon.Labels

/-!
# The files of past days

What is in the files when every day but the last has ended with a rollover.
-/

namespace Flowstatd

open Framework

/-- The datagrams of a day. -/
structure Day where
  date : Int × Fin 12 × Nat
  exports : List Export

/-- What is known after some datagrams. -/
def Announced.afterAll (known : Announced) (xs : List Export) : Announced :=
  xs.foldl (fun known x => known.after x.sourceIp x.content) known

/-- For each day the flows of its datagrams, each read after what has been announced by then. -/
def dayFlows : Announced → List Day → List ((Int × Fin 12 × Nat) × List Flow)
  | _, [] => []
  | known, d :: days =>
    (d.date,exportedFlows known d.exports) :: dayFlows (known.afterAll d.exports) days

/-- The last datagram of a day comes in its last hour, and the first one of the next day in the
first. -/
def Day.Before (localtime : Int → Tm) (d e : Day) : Prop :=
  ∃ before x y behind, d.exports = before ++ [x] ∧ e.exports = y :: behind ∧
    (localtime x.now).tmHour.val = 23 ∧ (localtime y.now).tmHour.val = 0 ∧
    (localtime (y.now - 86400)).date = d.date

/-- The daemon has started on the first of some days and has handled their datagrams. -/
structure CollectedDays (gz : Nat → Nat) (localtime : Int → Tm) (g : Globals) (days : List Day)
    (t : Session) : Prop where
  started : ∃ now stack, days.head?.map Day.date = some (localtime now).date ∧
    Collects gz localtime ⟨startup localtime now stack g,now,[],[],true⟩ (days.flatMap Day.exports) t
  chain : days.IsChain (Day.Before localtime)
  dates : ∀ d ∈ days, ∀ x ∈ d.exports, (localtime x.now).date = d.date
  distinct : (days.map Day.date).Nodup
  apart : Set.InjOn Exporter.block { e | sentBy e (days.flatMap Day.exports) ≠ [] }
  announced : ∀ e, WellAnnounced (fun _ => none) (sentBy e (days.flatMap Day.exports))

section Datagrams

variable {gz : Nat → Nat} {localtime : Int → Tm} {known : Announced} {exporters : Set Exporter}
  {s t : Session}
  {xs ys : List Export} {date : Int × Fin 12 × Nat}

theorem Collects.split (h : Collects gz localtime s (xs ++ ys) t) :
    ∃ mid, Collects gz localtime s xs mid ∧ Collects gz localtime mid ys t := by
  rw [Collects,List.map_append] at h
  exact Handles.split h

theorem Collects.clock {x : Export} (h : Collects gz localtime s (xs ++ [x]) t) :
    t.clock = x.now := by
  rw [Collects,List.map_append] at h
  exact Handles.clock h

theorem wellAnnounced_append (h : ∀ e, WellAnnounced (known e) (sentBy e (xs ++ ys))) :
    (∀ e, WellAnnounced (known e) (sentBy e xs)) ∧
      ∀ e, WellAnnounced (known.afterAll xs e) (sentBy e ys) := by
  constructor
  · intro e
    have hprefixed (sent rest : List (HeaderV9 × List Flowset)) (layouts : Layouts)
        (hsent : WellAnnounced layouts (sent ++ rest)) : WellAnnounced layouts sent := by
      induction sent generalizing layouts with
      | nil => trivial
      | cons first sent ih => exact ⟨hsent.1,ih _ hsent.2⟩
    exact hprefixed _ _ _ (sentBy_append e xs ys ▸ h e)
  · induction xs generalizing known with
    | nil => exact h
    | cons x xs ih => exact ih (wellAnnounced_cons h).2

theorem from_append (h : ∀ e, sentBy e (xs ++ ys) ≠ [] → e ∈ exporters) :
    (∀ e, sentBy e xs ≠ [] → e ∈ exporters) ∧ ∀ e, sentBy e ys ≠ [] → e ∈ exporters := by
  simp only [sentBy_append,ne_eq,List.append_eq_nil_iff,not_and_or] at h
  exact ⟨fun e he => h e (.inl he),fun e he => h e (.inr he)⟩

theorem dayFlows_dates (known : Announced) (days : List Day) :
    (dayFlows known days).map Prod.fst = days.map Day.date := by
  induction days generalizing known with
  | nil => rfl
  | cons d days ih => exact congrArg _ (ih _)

theorem Collects.sameDay (h : Collects gz localtime s xs t) (hforward : HoursForward localtime)
    (hs : s.Timed localtime) (hday : ∀ x ∈ xs, (localtime x.now).date = date)
    (htoday : s.today = date) (hheld : known.Held exporters s.daemon.machine.templateTable)
    (hapart : exporters.InjOn Exporter.block) (hfrom : ∀ e, sentBy e xs ≠ [] → e ∈ exporters)
    (hwell : ∀ e, WellAnnounced (known e) (sentBy e xs)) :
    t.files = s.files ∧ t.Timed localtime ∧ t.today = date ∧
      (known.afterAll xs).Held exporters t.daemon.machine.templateTable := by
  induction xs generalizing s known with
  | nil =>
    cases h
    exact ⟨rfl,hs,htoday,hheld⟩
  | cons x xs ih =>
    obtain ⟨hx,hxs⟩ := List.forall_mem_cons.mp hday
    obtain ⟨hwellx,hwellxs⟩ := wellAnnounced_cons hwell
    obtain ⟨hfromx,hfromxs⟩ := from_cons hfrom
    obtain ⟨stack,beyond,s',hstep,hrest⟩ := h.uncons
    obtain ⟨hclock,hclock',-⟩ := hstep.handled
    have htimed : s'.Timed localtime := hstep.timed
    have htoday' : s'.today = date := by rw [htimed.today,hclock',hx]
    have hroll : ¬s.daemon.RollsOver localtime x.now := by
      rintro ⟨hlate,hearly⟩
      rw [hs.hour] at hlate
      have hdate : (localtime s.clock).date = (localtime x.now).date := by
        rw [← hs.today,htoday,hx]
      exact hforward s.clock x.now hclock hdate hlate hearly
    have hfiles := hstep.files_eq
    rw [exportDate,if_neg hroll] at hfiles
    obtain ⟨hfiles',hrest'⟩ := ih hrest htimed hxs htoday'
      (Export.booked hheld hapart hfromx hwellx hstep).2 hfromxs hwellxs
    exact ⟨hfiles'.trans hfiles,hrest'⟩

/-- The first datagram after midnight puts the table into the file of the day before, and the day
begins with an empty one. -/
theorem Collects.nextDay {y : Export} (h : Collects gz localtime s (y :: xs) t)
    (hforward : HoursForward localtime) (hs : s.Timed localtime)
    (hlate : (localtime s.clock).tmHour.val = 23) (hearly : (localtime y.now).tmHour.val = 0)
    (hday : ∀ x ∈ y :: xs, (localtime x.now).date = date)
    (hheld : known.Held exporters s.daemon.machine.templateTable)
    (hapart : exporters.InjOn Exporter.block)
    (hfrom : ∀ e, sentBy e (y :: xs) ≠ [] → e ∈ exporters)
    (hwell : ∀ e, WellAnnounced (known e) (sentBy e (y :: xs))) :
    (t.files = s.saved gz (localtime (y.now - 86400)).date :: s.files ∧ t.Timed localtime ∧
      t.today = date ∧ (known.afterAll (y :: xs)).Held exporters t.daemon.machine.templateTable) ∧
    ∃ tm : Tm, tm.tmMday = date.2.2 ∧ t.daemon.globals =
      { insertFlows localtime (resetTable { s.daemon.globals with localtm := tm })
          (exportedFlows known (y :: xs)) with localtm := t.daemon.globals.localtm } := by
  obtain ⟨hy,hxs⟩ := List.forall_mem_cons.mp hday
  obtain ⟨hwelly,hwellxs⟩ := wellAnnounced_cons hwell
  obtain ⟨hfromy,hfromxs⟩ := from_cons hfrom
  obtain ⟨stack,beyond,s',hstep,hrest⟩ := h.uncons
  have htimed : s'.Timed localtime := hstep.timed
  have htoday : s'.today = date := by rw [htimed.today,hstep.handled.2.1,hy]
  have hroll : s.daemon.RollsOver localtime y.now := ⟨hs.hour ▸ hlate,hearly⟩
  obtain ⟨hbooked,hheld'⟩ := Export.booked hheld hapart hfromy hwelly hstep
  rw [arrivalGlobals,if_pos hroll] at hbooked
  have hfiles := hstep.files_eq
  rw [exportDate,if_pos hroll] at hfiles
  obtain ⟨hfiles',hrest'⟩ :=
    hrest.sameDay hforward htimed hxs htoday hheld' hapart hfromxs hwellxs
  refine ⟨⟨hfiles'.trans hfiles,hrest'⟩,?_⟩
  obtain ⟨tm,htm,hglobals⟩ :=
    hrest.booked hforward htimed hxs (.inl htoday) hheld' hapart hfromxs hwellxs
  have hmday : tm.tmMday = (localtime y.now).tmMday := by
    rw [htm,← hy]
    rfl
  have hresumed := insertFlows_resumed localtime
    (g := resetTable { s.daemon.globals with localtm := localtime y.now }) hmday
    (y.content.flows known y.sourceIp) (exportedFlows (known.after y.sourceIp y.content) xs)
  refine ⟨tm,htm,hglobals.trans ?_⟩
  rw [hbooked,hresumed,exportedFlows]
  rfl

end Datagrams

/-- The table has begun the day as `base` and has taken the flows. -/
structure Globals.Reports (localtime : Int → Tm) (g base : Globals)
    (day : (Int × Fin 12 × Nat) × List Flow) : Prop where
  labelled : g.Labelled
  frame : resetTable { g with localtm := base.localtm } = base
  length : g.ipTable.length = base.ipTable.length
  grown : ∀ i < base.ipTable.length, GrownBy localtime day.1 base day.2 i (entryAt base.ipTable i)
    (entryAt g.ipTable i)

/-- The file of a day has what the datagrams of that day have reported. -/
def Archived (gz : Nat → Nat) (localtime : Int → Tm) (base : Globals) (f : SavedFile)
    (day : (Int × Fin 12 × Nat) × List Flow) : Prop :=
  f.date = day.1 ∧ ∃ g : Globals, f.contents = exportRecordBy gz g ∧ g.Reports localtime base day

section Days

variable {gz : Nat → Nat} {localtime : Int → Tm} {known : Announced} {exporters : Set Exporter}
  {s t : Session}
  {base : Globals}

theorem insertFlows_labelled (localtime : Int → Tm) {g : Globals} (h : g.Labelled)
    (flows : List Flow) : (insertFlows localtime g flows).Labelled := by
  induction flows generalizing g with
  | nil => exact h
  | cons f flows ih =>
    apply ih
    rw [insertFlow,insertNfInfoToIpTable_eq]
    apply keptByBookings_labelled.book g _ _ h
    intro c hc
    exact creditOf_lawful (Option.mem_toList.mp hc)

/-- The flows of a day, inserted into the empty table. -/
theorem reports_insertFlows (localtime : Int → Tm) (hlabelled : base.Labelled)
    (hbase : resetTable base = base) {date : Int × Fin 12 × Nat} {tm : Tm}
    (htm : tm.tmMday = date.2.2) (localtm : Tm) (flows : List Flow) :
    Globals.Reports localtime
      { insertFlows localtime { base with localtm := tm } flows with localtm := localtm } base
      (date,flows) := by
  obtain ⟨hframe,hlength⟩ := insertFlows_eq localtime { base with localtm := tm } flows
  refine ⟨?_,?_,hlength,fun i hi => insertFlows_grownBy localtime htm flows hi⟩
  · exact keptByBookings_labelled.clock _ localtm
      (insertFlows_labelled localtime (keptByBookings_labelled.clock base tm hlabelled) flows)
  · rw [hframe]
    exact hbase

theorem Globals.Reports.begun {g : Globals} {day : (Int × Fin 12 × Nat) × List Flow}
    (h : g.Reports localtime base day) (tm : Tm) :
    base.Labelled ∧ resetTable base = base ∧
      resetTable { g with localtm := tm } = { base with localtm := tm } := by
  refine ⟨?_,?_,?_⟩
  · rw [← h.frame]
    exact keptByBookings_labelled.reset _ (keptByBookings_labelled.clock _ _ h.labelled)
  · rw [← h.frame]
    rfl
  · have hframe := congrArg (fun b : Globals => { b with localtm := tm }) h.frame
    exact hframe

/-- From the end of a day over others: each of them but the last is put into a file. -/
private theorem Collects.shelved {d : Day} {days : List Day} {flows : List Flow}
    {rs : List ((Int × Fin 12 × Nat) × List Flow)}
    (h : Collects gz localtime s (days.flatMap Day.exports) t) (hforward : HoursForward localtime)
    (hchain : (d :: days).IsChain (Day.Before localtime))
    (hclock : ∀ before x, d.exports = before ++ [x] → s.clock = x.now)
    (hs : s.Timed localtime) (htoday : s.today = d.date)
    (hdays : ∀ e ∈ days, ∀ x ∈ e.exports, (localtime x.now).date = e.date)
    (hheld : known.Held exporters s.daemon.machine.templateTable)
    (hapart : exporters.InjOn Exporter.block)
    (hfrom : ∀ e, sentBy e (days.flatMap Day.exports) ≠ [] → e ∈ exporters)
    (hwell : ∀ e, WellAnnounced (known e) (sentBy e (days.flatMap Day.exports)))
    (hreports : s.daemon.globals.Reports localtime base (d.date,flows))
    (hfiles : List.Forall₂ (Archived gz localtime base) s.files rs) :
    ∃ last rs', t.Timed localtime ∧ t.today = last.1 ∧
      t.daemon.globals.Reports localtime base last ∧
      List.Forall₂ (Archived gz localtime base) t.files rs' ∧
      last :: rs' = (dayFlows known days).reverse ++ (d.date,flows) :: rs := by
  induction days generalizing d s known flows rs with
  | nil =>
    cases h
    exact ⟨_,rs,hs,htoday,hreports,hfiles,rfl⟩
  | cons e days ih =>
    obtain ⟨hbefore,hchain⟩ := List.isChain_cons_cons.mp hchain
    obtain ⟨before,x,y,behind,hd,he,hlate,hearly,hyesterday⟩ := hbefore
    obtain ⟨heday,hdays⟩ := List.forall_mem_cons.mp hdays
    rw [List.flatMap_cons] at h hfrom hwell
    obtain ⟨hfirst,hfromrest⟩ := from_append hfrom
    obtain ⟨hwellfirst,hwellrest⟩ := wellAnnounced_append hwell
    obtain ⟨mid,hmid,hrest⟩ := h.split
    have hnext := he ▸ hmid
    obtain ⟨⟨hmidfiles,htimed,hmidtoday,hheld'⟩,tm,htm,hglobals⟩ := hnext.nextDay hforward hs
      (hclock before x hd ▸ hlate) hearly (he ▸ heday) hheld hapart (he ▸ hfirst) (he ▸ hwellfirst)
    rw [← he] at hheld' hglobals
    obtain ⟨hlabelled,hbase,hempty⟩ := hreports.begun tm
    rw [hempty] at hglobals
    have hmidreports : mid.daemon.globals.Reports localtime base
        (e.date,exportedFlows known e.exports) := by
      rw [hglobals]
      exact reports_insertFlows localtime hlabelled hbase htm _ _
    have hshelf : List.Forall₂ (Archived gz localtime base) mid.files ((d.date,flows) :: rs) := by
      rw [hmidfiles,hyesterday]
      exact .cons ⟨rfl,s.daemon.globals,rfl,hreports⟩ hfiles
    obtain ⟨last,rs',htimed',htoday',hlast,hfiles',heq⟩ := ih hrest hchain
      (fun before' x' hx' => (hx' ▸ hmid).clock) htimed hmidtoday hdays hheld' hfromrest hwellrest
      hmidreports hshelf
    refine ⟨last,rs',htimed',htoday',hlast,hfiles',?_⟩
    rw [heq,dayFlows,List.reverse_cons,List.append_assoc]
    rfl

/-- After some days the table has the flows of the last one, and the files those of the others. -/
theorem CollectedDays.archived {days : List Day} (h : CollectedDays gz localtime base days t)
    (hforward : HoursForward localtime) (hlabelled : base.Labelled)
    (hbase : resetTable base = base) :
    ∃ last rs, (localtime t.clock).date = last.1 ∧
      t.daemon.globals.Reports localtime base last ∧
      List.Forall₂ (Archived gz localtime base) t.files rs ∧
      last :: rs = (dayFlows (fun _ _ => none) days).reverse := by
  obtain ⟨⟨now,stack,hstart,hcollects⟩,hchain,hdates,-,hapart,hwell⟩ := h
  cases days with
  | nil => cases hstart
  | cons first days =>
    have hstart := Option.some.inj hstart
    obtain ⟨hfirst,hdates⟩ := List.forall_mem_cons.mp hdates
    rw [List.flatMap_cons] at hcollects hapart
    have hknown (e : Exporter) : WellAnnounced ((fun _ _ => none : Announced) e)
        (sentBy e (first.exports ++ days.flatMap Day.exports)) := hwell e
    obtain ⟨hwellfirst,hwellrest⟩ := wellAnnounced_append hknown
    obtain ⟨hfromfirst,hfromrest⟩ := from_append fun e
      (he : sentBy e (first.exports ++ days.flatMap Day.exports) ≠ []) => he
    obtain ⟨mid,hmid,hrest⟩ := hcollects.split
    have hheld : Announced.Held (fun _ _ => none)
        { e | sentBy e (first.exports ++ days.flatMap Day.exports) ≠ [] }
        (startup localtime now stack base).machine.templateTable := Announced.held_none _
    obtain ⟨hmidfiles,htimed,hmidtoday,hheld'⟩ := hmid.sameDay hforward ⟨rfl,rfl⟩ hfirst
      hstart.symm hheld hapart hfromfirst hwellfirst
    obtain ⟨tm,htm,hglobals⟩ := hmid.booked hforward ⟨rfl,rfl⟩ hfirst (.inl hstart.symm) hheld
      hapart hfromfirst hwellfirst
    have hreports : mid.daemon.globals.Reports localtime base
        (first.date,exportedFlows (fun _ _ => none) first.exports) := by
      rw [hglobals]
      exact reports_insertFlows localtime hlabelled hbase htm _ _
    have hshelf : List.Forall₂ (Archived gz localtime base) mid.files [] := by
      rw [hmidfiles]
      exact .nil
    obtain ⟨last,rs,htimed',htoday,hlast,hfiles,heq⟩ := hrest.shelved hforward hchain
      (fun before x hx => (hx ▸ hmid).clock) htimed hmidtoday hdates hheld' hapart hfromrest
      hwellrest hreports hshelf
    refine ⟨last,rs,htimed'.today ▸ htoday,hlast,hfiles,?_⟩
    rw [heq,dayFlows,List.reverse_cons]

theorem archived_of_mem {files : List SavedFile} {rs : List ((Int × Fin 12 × Nat) × List Flow)}
    {f : SavedFile} (h : List.Forall₂ (Archived gz localtime base) files rs) (hf : f ∈ files) :
    ∃ r ∈ rs, Archived gz localtime base f r := by
  induction h with
  | nil => cases hf
  | @cons f' r' files rs hf' hrest ih =>
    rcases List.mem_cons.mp hf with rfl | hf
    · exact ⟨r',List.mem_cons_self,hf'⟩
    · obtain ⟨r,hr,hfr⟩ := ih hf
      exact ⟨r,List.mem_cons_of_mem _ hr,hfr⟩

theorem find_archived {files : List SavedFile} {rs : List ((Int × Fin 12 × Nat) × List Flow)}
    {r : (Int × Fin 12 × Nat) × List Flow}
    (h : List.Forall₂ (Archived gz localtime base) files rs) (hdistinct : (rs.map Prod.fst).Nodup)
    (hr : r ∈ rs) :
    ∃ f, files.find? (·.date = r.1) = some f ∧ Archived gz localtime base f r := by
  induction h with
  | nil => cases hr
  | @cons f r' files rs hf hrest ih =>
    obtain ⟨hnot,hdistinct⟩ := List.nodup_cons.mp hdistinct
    rcases List.mem_cons.mp hr with rfl | hr
    · exact ⟨f,List.find?_cons_of_pos (decide_eq_true hf.1),hf⟩
    · obtain ⟨f',hfind,hf'⟩ := ih hdistinct hr
      have hother : f.date ≠ r.1 := fun heq => hnot (hf.1 ▸ heq ▸ List.mem_map_of_mem hr)
      exact ⟨f',(List.find?_cons_of_neg (by simpa using hother)).trans hfind,hf'⟩

end Days

end Flowstatd
