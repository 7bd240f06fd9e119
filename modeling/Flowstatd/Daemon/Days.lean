import Flowstatd.Daemon.Session
import Flowstatd.Netflow.TemplateOwnership

/-!
# Which day the bytes in the table were received on

The rollover looks at one remembered hour and only when a datagram arrives. The ledger shows when
that is enough to keep the bytes of different days apart.
-/

namespace Flowstatd

open Framework

section Days

variable {gz : Nat → Nat} {localtime : Int → Tm}

/-- No datagram of another day has left bytes in the table or in a file: the ledgers account for
what is in them, and are of one day each. -/
structure Session.Clean (gz : Nat → Nat) (s : Session) : Prop where
  accounted : s.Accounted gz
  table : ∀ line ∈ s.ledger, line.credit.flowBytes ≠ 0 → line.received = s.today
  files : ∀ f ∈ s.files, ∀ line ∈ f.ledger, line.credit.flowBytes ≠ 0 → line.received = f.date

/-- Nothing has been counted since the table was cleared. -/
def Session.Idle (s : Session) : Prop := ∀ line ∈ s.ledger, line.credit.flowBytes = 0

/-- The event comes on a day that the rollover by hours gets right: with bytes in the table, a
datagram that does not roll over and a hangup come on the day of the last datagram, and one that
rolls over comes on the day after it. -/
def OnTime (localtime : Int → Tm) (s : Session) : Action → Prop
  | .datagram now _ _ _ =>
    s.Idle ∨
      if s.daemon.RollsOver localtime now then (localtime (now - 86400)).date = s.today
      else (localtime now).date = s.today
  | .hangup now => s.Idle ∨ (localtime now).date = s.today
  | .terminate _ | .restart _ => True

/-- The lines of a clean session are of one day; they are of the day `date` as well only if
there is nothing in them or the two days are the same. -/
private theorem lines_of_day_iff {s : Session} (hs : s.Clean gz) (date : Int × Fin 12 × Nat) :
    (∀ line ∈ s.ledger, line.credit.flowBytes ≠ 0 → line.received = date) ↔
      s.Idle ∨ date = s.today := by
  constructor
  · intro h
    by_cases hidle : s.Idle
    · exact .inl hidle
    · obtain ⟨line,hline⟩ := not_forall.mp hidle
      obtain ⟨hmem,hbytes⟩ := Classical.not_imp.mp hline
      exact .inr ((h line hmem hbytes).symm.trans (hs.table line hmem hbytes))
  · rintro (hidle | rfl) line hmem hbytes
    · exact absurd (hidle line hmem) hbytes
    · exact hs.table line hmem hbytes

private theorem files_cons_iff {s : Session} (hs : s.Clean gz) (date : Int × Fin 12 × Nat) :
    (∀ f ∈ s.saved gz date :: s.files, ∀ line ∈ f.ledger,
        line.credit.flowBytes ≠ 0 → line.received = f.date) ↔ s.Idle ∨ date = s.today := by
  rw [List.forall_mem_cons,← lines_of_day_iff hs date]
  exact ⟨fun h => h.1,fun h => ⟨h,hs.files⟩⟩

private theorem afterDatagram_clean_iff {s : Session} (hs : s.Clean gz) {d' : Daemon} {now : Int}
    {stack : Nat → U32} {p : Packet} {sourceIp : InAddr}
    (hend : Ends (handleDatagram localtime now stack p sourceIp) s.daemon d')
    (haccounted : (s.afterDatagram gz localtime now d').Accounted gz) :
    (s.afterDatagram gz localtime now d').Clean gz ↔
      OnTime localtime s (.datagram now stack p sourceIp) := by
  have htoday : (s.afterDatagram gz localtime now d').today = (localtime now).date := by
    rw [Session.today,Session.afterDatagram,receivedLines_globals hend]
    exact congrArg Tm.date (arrivalGlobals_localtm now s.daemon)
  have hnew := receivedLines_day localtime now s.daemon d'
  by_cases hroll : s.daemon.RollsOver localtime now
  · simp only [OnTime,hroll,ite_true]
    rw [← files_cons_iff hs]
    constructor
    · intro h
      simpa only [Session.afterDatagram,hroll,ite_true] using h.files
    · intro h
      refine ⟨haccounted,?_,by simpa only [Session.afterDatagram,hroll,ite_true] using h⟩
      intro line hline _
      rw [htoday]
      simp only [Session.afterDatagram,hroll,ite_true,List.nil_append] at hline
      exact hnew line hline
  · simp only [OnTime,hroll,ite_false]
    rw [← lines_of_day_iff hs]
    constructor
    · intro h line hline hbytes
      rw [← htoday]
      refine h.table line ?_ hbytes
      simp only [Session.afterDatagram,hroll,ite_false]
      exact List.mem_append_left _ hline
    · intro h
      refine ⟨haccounted,?_,by simpa only [Session.afterDatagram,hroll,ite_false] using hs.files⟩
      intro line hline hbytes
      rw [htoday]
      simp only [Session.afterDatagram,hroll,ite_false] at hline
      rcases List.mem_append.mp hline with hline | hline
      · exact h line hline hbytes
      · exact hnew line hline

theorem Step.clean_iff {s s' : Session} {a : Action} (h : Step gz localtime s a s')
    (hwhole : ∀ now, a = .restart now → s'.daemon.globals.OneCall gz) (hs : s.Clean gz) :
    s'.Clean gz ↔ OnTime localtime s a := by
  have haccounted := h.accounted hwhole hs.accounted
  cases h with
  | datagram _ _ hend => exact afterDatagram_clean_iff hs hend haccounted
  | hangup _ _ =>
    rw [OnTime,← files_cons_iff hs]
    exact ⟨fun h => h.files,fun h => ⟨haccounted,hs.table,h⟩⟩
  | terminate _ _ =>
    exact iff_of_true ⟨haccounted,hs.table,(files_cons_iff hs s.today).mpr (.inr rfl)⟩ trivial
  | @restart _ g g' now stack ledger _ _ _ himports =>
    refine iff_of_true ⟨haccounted,?_,hs.files⟩ trivial
    rw [Session.Imports] at himports
    split at himports
    next => simp [himports.2]
    next f hfind =>
      intro line hline hbytes
      rw [himports.1] at hline
      have hdate : f.date = (localtime now).date := by simpa using List.find?_some hfind
      rw [hs.files f (List.mem_of_find?_eq_some hfind) line hline hbytes,hdate]
      rfl

/-- Every table and every file of a run holds bytes of its own day only, exactly when every event
of the run was on time. Runs without restarts, and those whose imports bring back what was saved,
have `RestartsWhole`. -/
theorem days_kept_iff {past : List (Session × Action)} {s : Session} (h : Run gz localtime past s)
    (hwhole : RestartsWhole gz past s) :
    (s.Clean gz ∧ ∀ t ∈ past, t.1.Clean gz) ↔ ∀ t ∈ past, OnTime localtime t.1 t.2 := by
  induction h with
  | start hg =>
    exact iff_of_true ⟨⟨(Run.start hg).accounted hwhole,by simp,by simp⟩,by simp⟩ (by simp)
  | @step past s s' a _ hstep ih =>
    rw [List.forall_mem_cons,List.forall_mem_cons,← ih hwhole.cons.2]
    constructor
    · rintro ⟨hs',hs,hpast⟩
      exact ⟨(hstep.clean_iff hwhole.cons.1 hs).mp hs',hs,hpast⟩
    · rintro ⟨ha,hs,hpast⟩
      exact ⟨(hstep.clean_iff hwhole.cons.1 hs).mpr ha,hs,hpast⟩

end Days

/-- Universal time, as far as June 2012 goes. -/
def utcJune (t : Int) : Tm :=
  { juneMorning with
    tmMday := (t / 86400 - 15491).toNat
    tmHour := ⟨(t % 86400 / 3600).toNat,hourOfDay_lt t⟩ }

/-- Started on 18 June 2012, at 06:13. -/
def juneSession : Session :=
  ⟨startup utcJune 1340000000 (fun _ => 0) oneSubnetMachine.globals,1340000000,[],[],true⟩

/-- The datagram of the borrowed template, which books 1000 bytes on the 18th. -/
private def arrive (now : Int) (s : Session) : Outcome Daemon :=
  handleDatagram utcJune now (fun _ => 0) borrowedTemplatePacket 0x08080808 5 s.daemon

/-- The session after it has come at 22:00. -/
private def juneEvening : Session :=
  juneSession.afterDatagram zlibLength utcJune 1340056800 (arrive 1340056800 juneSession).state

private theorem juneEvening_run : ∃ a, Run zlibLength utcJune [(juneSession,a)] juneEvening ∧
    RestartsWhole zlibLength [(juneSession,a)] juneEvening ∧ OnTime utcJune juneSession a := by
  have hend : Ends (handleDatagram utcJune 1340056800 (fun _ => 0) borrowedTemplatePacket
      0x08080808) juneSession.daemon (arrive 1340056800 juneSession).state :=
    ⟨5,Outcome.eq_finished_state (by decide +kernel)⟩
  refine ⟨_,.step (.start oneSubnet_booted) (.datagram rfl (by decide) hend),trivial,.inl ?_⟩
  exact fun _ hline => absurd hline List.not_mem_nil

/-- A datagram at 22:00 on the 18th, and a hangup half an hour later. -/
theorem days_kept_iff_evening :
    ∃ past s, Run zlibLength utcJune past s ∧
      (∃ f ∈ s.files, ∃ line ∈ f.ledger, line.credit.flowBytes = 1000) ∧
      (∃ e ∈ s.daemon.globals.ipTable, e.nflow .upload = 1000) ∧
      s.Clean zlibLength ∧ ∀ t ∈ past, t.1.Clean zlibLength := by
  obtain ⟨a,hevening,hwhole,htime⟩ := juneEvening_run
  have hhangup : Step zlibLength utcJune juneEvening (.hangup 1340058600) _ := .hangup rfl (by decide)
  have hrun := hevening.step hhangup
  refine ⟨_,_,hrun,by decide +kernel,by decide +kernel,(days_kept_iff hrun hwhole).mpr ?_⟩
  refine List.forall_mem_cons.mpr ⟨.inr (by decide +kernel),?_⟩
  exact List.forall_mem_singleton.mpr htime

/-- A datagram at 22:00 on the 18th and the next one at 01:00 on the 19th: the hours go from 22 to
1, and the bytes of the 18th stay in the table. -/
theorem silent_midnight_missed :
    ∃ past s, Run zlibLength utcJune past s ∧ RestartsWhole zlibLength past s ∧
      s.today = (112,5,19) ∧
      (∃ line ∈ s.ledger, line.received = (112,5,18) ∧ line.credit.flowBytes = 1000) ∧
      (∃ e ∈ s.daemon.globals.ipTable, e.nflow .upload = 1000) ∧ ¬s.Clean zlibLength := by
  obtain ⟨_,hevening,hwhole,-⟩ := juneEvening_run
  let night := juneEvening.afterDatagram zlibLength utcJune 1340067600
    (arrive 1340067600 juneEvening).state
  have hnight : Ends (handleDatagram utcJune 1340067600 (fun _ => 0) borrowedTemplatePacket
      0x08080808) juneEvening.daemon (arrive 1340067600 juneEvening).state :=
    ⟨5,Outcome.eq_finished_state (by decide +kernel)⟩
  have htoday : night.today = (112,5,19) := by decide +kernel
  have hline : ∃ line ∈ night.ledger, line.received = (112,5,18) ∧
      line.credit.flowBytes = 1000 := by decide +kernel
  refine ⟨_,night,hevening.step (.datagram rfl (by decide) hnight),hwhole,htoday,hline,
    by decide +kernel,fun hclean => ?_⟩
  obtain ⟨line,hmem,hday,hbytes⟩ := hline
  have hsame := hclean.table line hmem (by rw [hbytes]; decide)
  rw [hday,htoday] at hsame
  exact absurd hsame (by decide)

end Flowstatd
