import Flowstatd.Daemon.Config
import Flowstatd.Daemon.Records
import Flowstatd.Netflow.Replay

/-!
# The main loop

One round of `main` for a datagram: the clock is read, the table is cleared when the hour has gone
from 23 to 0, and the datagram is handed to `AddFlowData`.
-/

namespace Flowstatd

open Framework

/-- The daemon between two datagrams. -/
structure Daemon where
  machine : Machine
  preHour : Fin 24

def Daemon.globals (d : Daemon) : Globals := d.machine.globals

/-- `main` before its loop, with the globals as configuration and import have left them. -/
def startup (localtime : Int → Tm) (now : Int) (stack : Nat → U32) (g : Globals) : Daemon where
  machine :=
    { globals := { g with localtm := localtime now }
      templateTable := fun _ => TemplateTableEntry.zero
      sourceTable := fun _ => SourceTableEntry.zero
      stack := stack
      trace := [] }
  preHour := (localtime now).tmHour

/-- `preHour == 23 && localtm.tm_hour == 0`. -/
def Daemon.RollsOver (localtime : Int → Tm) (now : Int) (d : Daemon) : Prop :=
  d.preHour.val = 23 ∧ (localtime now).tmHour.val = 0

instance (localtime : Int → Tm) (now : Int) (d : Daemon) : Decidable (d.RollsOver localtime now) :=
  inferInstanceAs (Decidable (_ ∧ _))

/-- The globals that `AddFlowData` starts from. -/
def arrivalGlobals (localtime : Int → Tm) (now : Int) (d : Daemon) : Globals :=
  let g := { d.globals with localtm := localtime now }
  if d.RollsOver localtime now then resetTable g else g

/-- The state that `AddFlowData` starts from; the stack holds anything. -/
def arrival (localtime : Int → Tm) (now : Int) (stack : Nat → U32) (d : Daemon) : Machine :=
  { d.machine with
    globals := arrivalGlobals localtime now d
    stack := stack }

def handleDatagram (localtime : Int → Tm) (now : Int) (stack : Nat → U32) (p : Packet)
    (sourceIp : InAddr) (fuel : Nat) (d : Daemon) : Outcome Daemon :=
  (addFlowData localtime p sourceIp fuel (arrival localtime now stack d)).map fun m =>
    ⟨m,(localtime now).tmHour⟩

/-- The state after a datagram does not depend on the fuel that was enough for it. -/
theorem handleDatagram_unique {localtime : Int → Tm} {now : Int} {stack : Nat → U32} {p : Packet}
    {sourceIp : InAddr} {d d' d'' : Daemon}
    (h : Ends (handleDatagram localtime now stack p sourceIp) d d')
    (h' : Ends (handleDatagram localtime now stack p sourceIp) d d'') : d' = d'' := by
  have hsteady := ((addFlowData_steady localtime p sourceIp).map fun m =>
    Daemon.mk m (localtime now).tmHour).comp (arrival localtime now stack)
  exact Ends.unique hsteady h h'

/-- The states between datagrams of runs with configurations that meet `Cfg`. A run may import a
file that an earlier run exported: `Imports` says what an import may make of the booted globals and
of those that were exported. -/
inductive ReachableBy (Imports : Globals → Globals → Globals → Prop)
    (Cfg : List StatedEntry → Prop) (localtime : Int → Tm) : Daemon → Prop
  | start {networks : List StatedEntry} {g : Globals} (now : Int) (stack : Nat → U32) :
    Cfg networks → Booted networks g →
      ReachableBy Imports Cfg localtime (startup localtime now stack g)
  | restart {networks : List StatedEntry} {g g' : Globals} {old : Daemon} (now : Int)
      (stack : Nat → U32) : Cfg networks → Booted networks g →
      ReachableBy Imports Cfg localtime old → Imports g old.globals g' →
        ReachableBy Imports Cfg localtime (startup localtime now stack g')
  | datagram {d d' : Daemon} (now : Int) (stack : Nat → U32) (p : Packet) (sourceIp : InAddr) :
    ReachableBy Imports Cfg localtime d →
      Ends (handleDatagram localtime now stack p sourceIp) d d' →
        ReachableBy Imports Cfg localtime d'

/-- An import with a gz library that gives back what it was given. -/
def ImportsAll (g s g' : Globals) : Prop :=
  ∃ heap tmpVal, importRecord heap tmpVal g (exportRecord s) = some g'

abbrev Reachable (Cfg : List StatedEntry → Prop) (localtime : Int → Tm) : Daemon → Prop :=
  ReachableBy ImportsAll Cfg localtime

theorem handleDatagram_replays (localtime : Int → Tm) (now : Int) (stack : Nat → U32)
    (p : Packet) (sourceIp : InAddr) (fuel : Nat) (d : Daemon) :
    Replays localtime (arrival localtime now stack d)
      (handleDatagram localtime now stack p sourceIp fuel d).state.machine := by
  rw [handleDatagram,Outcome.state_map]
  exact addFlowData_replays localtime p sourceIp _ fuel

/-- A property of the globals that the clock, a reset and lawful bookings keep. -/
structure KeptByBookings (P : Globals → Prop) : Prop where
  clock : ∀ g tm, P g → P { g with localtm := tm }
  reset : ∀ g, P g → P (resetTable g)
  book : ∀ g cs, (∀ c ∈ cs, Credit.Lawful g c) → P g →
    P { g with ipTable := List.foldl Credit.apply g.ipTable cs }

section Bookings

variable {P : Globals → Prop} {Imports : Globals → Globals → Globals → Prop}
  {Cfg : List StatedEntry → Prop} {localtime : Int → Tm}

theorem KeptByBookings.arrival (h : KeptByBookings P) (localtime : Int → Tm) (now : Int)
    {d : Daemon} (hd : P d.globals) : P (arrivalGlobals localtime now d) := by
  rw [arrivalGlobals]
  split_ifs
  · exact h.reset _ (h.clock _ _ hd)
  · exact h.clock _ _ hd

theorem KeptByBookings.datagram (h : KeptByBookings P) (localtime : Int → Tm) (now : Int)
    (stack : Nat → U32) (p : Packet) (sourceIp : InAddr) {d : Daemon} (hd : P d.globals) :
    Always (handleDatagram localtime now stack p sourceIp) (fun d => P d.globals) d := by
  intro fuel
  obtain ⟨evs,_,hglobals⟩ := handleDatagram_replays localtime now stack p sourceIp fuel d
  rw [Daemon.globals,hglobals]
  exact h.book _ _ (traceCredits_lawful localtime _ evs) (h.arrival localtime now hd)

/-- The invariant rule: what holds of booted globals, survives an import into such and is kept by
the daemon holds of every reachable one. -/
theorem KeptByBookings.reachableBy (hkept : KeptByBookings P)
    (hboot : ∀ networks g, Cfg networks → Booted networks g → P g)
    (himport : ∀ networks g s g', Booted networks g → P g → P s → Imports g s g' → P g')
    {d : Daemon} (h : ReachableBy Imports Cfg localtime d) : P d.globals := by
  induction h with
  | start now stack hcfg hg => exact hkept.clock _ _ (hboot _ _ hcfg hg)
  | restart now stack hcfg hg _ himports ih =>
    exact hkept.clock _ _ (himport _ _ _ _ hg (hboot _ _ hcfg hg) ih himports)
  | datagram now stack p sourceIp _ hend ih =>
    obtain ⟨n,hn⟩ := hend
    have hstate := hkept.datagram localtime now stack p sourceIp ih n
    rwa [hn] at hstate

theorem KeptByBookings.reachable (hkept : KeptByBookings P)
    (hboot : ∀ networks g, Cfg networks → Booted networks g → P g)
    (himport : ∀ networks heap tmpVal g s g', Booted networks g → P g → P s →
      importRecord heap tmpVal g (exportRecord s) = some g' → P g')
    {d : Daemon} (h : Reachable Cfg localtime d) : P d.globals :=
  hkept.reachableBy hboot (fun networks g s g' hg hP hs ⟨heap,tmpVal,himports⟩ =>
    himport networks heap tmpVal g s g' hg hP hs himports) h

end Bookings

/-- A property of the globals that the clock, a reset and any bookings keep. -/
structure KeptByDaemon (P : Globals → Prop) : Prop where
  clock : ∀ g tm, P g → P { g with localtm := tm }
  reset : ∀ g, P g → P (resetTable g)
  book : ∀ g cs, P g → P { g with ipTable := List.foldl Credit.apply g.ipTable cs }

theorem KeptByDaemon.toBookings {P : Globals → Prop} (h : KeptByDaemon P) : KeptByBookings P :=
  ⟨h.clock,h.reset,fun g cs _ => h.book g cs⟩

theorem KeptByDaemon.arrival {P : Globals → Prop} (h : KeptByDaemon P) (localtime : Int → Tm)
    (now : Int) {d : Daemon} (hd : P d.globals) : P (arrivalGlobals localtime now d) :=
  h.toBookings.arrival localtime now hd

theorem KeptByDaemon.datagram {P : Globals → Prop} (h : KeptByDaemon P) (localtime : Int → Tm)
    (now : Int) (stack : Nat → U32) (p : Packet) (sourceIp : InAddr) {d : Daemon}
    (hd : P d.globals) :
    Always (handleDatagram localtime now stack p sourceIp) (fun d => P d.globals) d :=
  h.toBookings.datagram localtime now stack p sourceIp hd

/-- The invariant rule for such a property. -/
theorem KeptByDaemon.reachable {P : Globals → Prop} (hkept : KeptByDaemon P)
    {Cfg : List StatedEntry → Prop} {localtime : Int → Tm}
    (hboot : ∀ networks g, Cfg networks → Booted networks g → P g)
    (himport : ∀ heap tmpVal g s g', P g → P s →
      importRecord heap tmpVal g (exportRecord s) = some g' → P g')
    {d : Daemon} (h : Reachable Cfg localtime d) : P d.globals :=
  hkept.toBookings.reachable hboot (fun _ heap tmpVal g s g' _ => himport heap tmpVal g s g') h

end Flowstatd
