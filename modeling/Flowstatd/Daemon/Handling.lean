import Flowstatd.Daemon.Session
import Flowstatd.Netflow.Buffer

/-!
# Datagrams in a row

A session that handles a list of datagrams, with anything on the stack and behind the buffer, and
what its clock says of the day.
-/

namespace Flowstatd

open Framework

/-- A datagram, and when it comes. -/
structure Datagram where
  now : Int
  sourceIp : InAddr
  bytes : List Byte
  fits : bytes.length ≤ bufSize

/-- The buffer of `main`, with anything behind it. -/
def Datagram.packet (x : Datagram) (beyond : Nat → Byte) : Packet :=
  Packet.received x.bytes x.fits beyond

/-- The session handles the datagrams and nothing else. -/
inductive Handles (gz : Nat → Nat) (localtime : Int → Tm) :
    Session → List Datagram → Session → Prop
  | nil (s : Session) : Handles gz localtime s [] s
  | cons {s s' t : Session} {x : Datagram} {xs : List Datagram} (stack : Nat → U32)
      (beyond : Nat → Byte) :
    Step gz localtime s (.datagram x.now stack (x.packet beyond) x.sourceIp) s' →
      Handles gz localtime s' xs t → Handles gz localtime s (x :: xs) t

/-- Hour and date that the daemon remembers are those of its clock. -/
structure Session.Timed (localtime : Int → Tm) (s : Session) : Prop where
  hour : s.daemon.preHour = (localtime s.clock).tmHour
  localtm : s.daemon.globals.localtm = localtime s.clock

/-- Within one day of local time no hour 0 comes after an hour 23. -/
def HoursForward (localtime : Int → Tm) : Prop :=
  ∀ t t', t ≤ t' → (localtime t).date = (localtime t').date → (localtime t).tmHour.val = 23 →
    (localtime t').tmHour.val ≠ 0

section Steps

variable {gz : Nat → Nat} {localtime : Int → Tm} {s s' t : Session} {now : Int} {stack : Nat → U32}
  {p : Packet} {sourceIp : InAddr}

theorem Step.handled (h : Step gz localtime s (.datagram now stack p sourceIp) s') :
    s.clock ≤ now ∧ s'.clock = now ∧
      Ends (handleDatagram localtime now stack p sourceIp) s.daemon s'.daemon := by
  cases h with
  | datagram _ hclock hend => exact ⟨hclock,rfl,hend⟩

theorem Step.timed (h : Step gz localtime s (.datagram now stack p sourceIp) s') :
    s'.Timed localtime := by
  obtain ⟨-,hclock,hend⟩ := h.handled
  have hlocaltm := receivedLines_globals hend
  obtain ⟨n,hn⟩ := hend
  obtain ⟨m,-,hdaemon⟩ := Outcome.map_eq_finished.mp hn
  refine ⟨?_,?_⟩
  · rw [hclock,← hdaemon]
  · rw [hclock,hlocaltm]
    exact arrivalGlobals_localtm now s.daemon

theorem Session.Timed.today (h : s.Timed localtime) : s.today = (localtime s.clock).date :=
  congrArg Tm.date h.localtm

/-- On the day of the last datagram nothing is cleared, and before the first one there is nothing
to clear. -/
theorem arrivalGlobals_quiet (hforward : HoursForward localtime) (hs : s.Timed localtime)
    (hclock : s.clock ≤ now)
    (h : s.today = (localtime now).date ∨ resetTable s.daemon.globals = s.daemon.globals) :
    arrivalGlobals localtime now s.daemon = { s.daemon.globals with localtm := localtime now } := by
  rw [arrivalGlobals]
  split_ifs with hroll
  · rcases h with htoday | hempty
    · have hdate : (localtime s.clock).date = (localtime now).date := hs.today ▸ htoday
      obtain ⟨hlate,hearly⟩ := hroll
      rw [hs.hour] at hlate
      exact absurd hearly (hforward s.clock now hclock hdate hlate)
    · have htable := congrArg Globals.ipTable hempty
      simp only [resetTable] at htable ⊢
      rw [htable]
  · rfl

end Steps

namespace Handles

variable {gz : Nat → Nat} {localtime : Int → Tm} {s t : Session} {x : Datagram}
  {xs ys : List Datagram}

theorem uncons (h : Handles gz localtime s (x :: xs) t) :
    ∃ stack beyond s', Step gz localtime s (.datagram x.now stack (x.packet beyond) x.sourceIp) s' ∧
      Handles gz localtime s' xs t := by
  cases h with
  | cons stack beyond hstep hrest => exact ⟨stack,beyond,_,hstep,hrest⟩

theorem split (h : Handles gz localtime s (xs ++ ys) t) :
    ∃ mid, Handles gz localtime s xs mid ∧ Handles gz localtime mid ys t := by
  induction xs generalizing s with
  | nil => exact ⟨s,.nil s,h⟩
  | cons x xs ih =>
    obtain ⟨stack,beyond,s',hstep,hrest⟩ := h.uncons
    obtain ⟨mid,hfirst,hlast⟩ := ih hrest
    exact ⟨mid,.cons stack beyond hstep hfirst,hlast⟩

/-- The clock is that of the last datagram. -/
theorem clock (h : Handles gz localtime s (xs ++ [x]) t) : t.clock = x.now := by
  obtain ⟨mid,-,hlast⟩ := h.split
  obtain ⟨stack,beyond,s',hstep,hrest⟩ := hlast.uncons
  cases hrest
  exact hstep.handled.2.1

theorem sized (h : Handles gz localtime s xs t) (hs : s.daemon.globals.WellSized)
    (hfiles : s.FilesExported gz) : t.daemon.globals.WellSized ∧ t.FilesExported gz := by
  induction h with
  | nil s => exact ⟨hs,hfiles⟩
  | cons stack beyond hstep _ ih =>
    obtain ⟨hs',hfiles'⟩ := hstep.sized hs hfiles
    exact ih hs' hfiles'

theorem timed (h : Handles gz localtime s xs t) (hs : s.Timed localtime) : t.Timed localtime := by
  induction h with
  | nil s => exact hs
  | cons stack beyond hstep _ ih => exact ih hstep.timed

/-- After datagrams of one day it is that day, unless there were none. -/
theorem today {date : Int × Fin 12 × Nat} (h : Handles gz localtime s xs t)
    (hday : ∀ x ∈ xs, (localtime x.now).date = date) : t.today = date ∨ xs = [] ∧ t = s := by
  induction h with
  | nil s => exact .inr ⟨rfl,rfl⟩
  | @cons s s' t x xs stack beyond hstep _ ih =>
    obtain ⟨hx,hxs⟩ := List.forall_mem_cons.mp hday
    rcases ih hxs with htoday | ⟨_,rfl⟩
    · exact .inl htoday
    · left
      rw [hstep.timed.today,hstep.handled.2.1,hx]

end Handles

end Flowstatd
