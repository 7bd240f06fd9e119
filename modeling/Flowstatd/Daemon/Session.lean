import Flowstatd.Daemon.Invariants

/-!
# Sessions

A session is the daemon with its files and a ledger: for every booking in the table, the local day
on which its datagram was received. Saved files carry the ledger of the table they were written
from. The ledger accounts for the table as long as what was saved comes back whole.
-/

namespace Flowstatd

open Framework

/-- The part of a local time that names a file. -/
def Tm.date (tm : Tm) : Int × Fin 12 × Nat := (tm.tmYear,tm.tmMon,tm.tmMday)

/-- A booking and the day on which its datagram was received. -/
structure LedgerLine where
  received : Int × Fin 12 × Nat
  credit : Credit
deriving DecidableEq

/-- `flowstatdata.<date>.gz`, with the ledger of the table written to it. -/
structure SavedFile where
  date : Int × Fin 12 × Nat
  contents : List Byte
  ledger : List LedgerLine

/-- The files are in the order of writing, the last one first. -/
structure Session where
  daemon : Daemon
  clock : Int
  ledger : List LedgerLine
  files : List SavedFile
  running : Bool

/-- The day of the last datagram, or of the start: the date in `localtm`. -/
def Session.today (s : Session) : Int × Fin 12 × Nat := s.daemon.globals.localtm.date

/-- What `main` and the signal handlers react to. -/
inductive Action where
  | datagram (now : Int) (stack : Nat → U32) (p : Packet) (sourceIp : InAddr)
  | hangup (now : Int)
  | terminate (now : Int)
  | restart (now : Int)

/-- `ExportRecord` to the file of a day. -/
def Session.saved (gz : Nat → Nat) (s : Session) (date : Int × Fin 12 × Nat) : SavedFile :=
  ⟨date,exportRecordBy gz s.daemon.globals,s.ledger⟩

/-- The ledger lines of a datagram: the bookings in the table that the new events of the trace
stand for. -/
def receivedLines (localtime : Int → Tm) (now : Int) (d d' : Daemon) : List LedgerLine :=
  let evs := d'.machine.trace.take (d'.machine.trace.length - d.machine.trace.length)
  let g := arrivalGlobals localtime now d
  ((traceCredits localtime g evs).filter (·.slot < g.ipTable.length)).map
    (LedgerLine.mk (localtime now).date)

/-- `main` imports the file of the day of the start if there is one. -/
def Session.Imports (gz : Nat → Nat) (s : Session) (date : Int × Fin 12 × Nat) (g g' : Globals)
    (ledger : List LedgerLine) : Prop :=
  match s.files.find? (·.date = date) with
  | none => g' = g ∧ ledger = []
  | some f => ledger = f.ledger ∧
    ∃ heap tmpVal, importRecordBy gz heap tmpVal g f.contents = some g'

/-- The session after a datagram that leaves the daemon in state `d'`. A rollover exports the old
table under the date of `time(NULL) - 86400`, read at the same second as `now`, and clears it. -/
def Session.afterDatagram (gz : Nat → Nat) (localtime : Int → Tm) (now : Int) (s : Session)
    (d' : Daemon) : Session :=
  let rolls := s.daemon.RollsOver localtime now
  { s with
    daemon := d'
    clock := now
    ledger := (if rolls then [] else s.ledger) ++ receivedLines localtime now s.daemon d'
    files := if rolls then s.saved gz (localtime (now - 86400)).date :: s.files else s.files }

theorem Session.afterDatagram_daemon (gz : Nat → Nat) (localtime : Int → Tm) (now : Int)
    (s : Session) (d' : Daemon) : (s.afterDatagram gz localtime now d').daemon = d' := rfl

/-- `gz` says how much a call of the gz library moves. -/
inductive Step (gz : Nat → Nat) (localtime : Int → Tm) : Session → Action → Session → Prop
  | datagram {s : Session} {d' : Daemon} {now : Int} {stack : Nat → U32} {p : Packet}
      {sourceIp : InAddr} : s.running → s.clock ≤ now →
    Ends (handleDatagram localtime now stack p sourceIp) s.daemon d' →
      Step gz localtime s (.datagram now stack p sourceIp) (s.afterDatagram gz localtime now d')
  /-- `Update`: the child reads the clock for itself and exports its copy of the table. -/
  | hangup {s : Session} {now : Int} : s.running → s.clock ≤ now →
    Step gz localtime s (.hangup now)
      { s with clock := now, files := s.saved gz (localtime now).date :: s.files }
  /-- `Exits` exports under the date that `localtm` still has. -/
  | terminate {s : Session} {now : Int} : s.running → s.clock ≤ now →
    Step gz localtime s (.terminate now)
      { s with clock := now, files := s.saved gz s.today :: s.files, running := false }
  | restart {s : Session} {networks : List StatedEntry} {g g' : Globals} {now : Int}
      {stack : Nat → U32} {ledger : List LedgerLine} : s.running = false → s.clock ≤ now →
    Booted networks g → s.Imports gz (localtime now).date g g' ledger →
      Step gz localtime s (.restart now) ⟨startup localtime now stack g',now,ledger,s.files,true⟩

/-- A run from a start without files, with the sessions it went through and what they reacted to. -/
inductive Run (gz : Nat → Nat) (localtime : Int → Tm) : List (Session × Action) → Session → Prop
  | start {networks : List StatedEntry} {g : Globals} {now : Int} {stack : Nat → U32} :
    Booted networks g → Run gz localtime [] ⟨startup localtime now stack g,now,[],[],true⟩
  | step {past : List (Session × Action)} {s s' : Session} {a : Action} :
    Run gz localtime past s → Step gz localtime s a s' → Run gz localtime ((s,a) :: past) s'

/-- One call of the library moves the table. -/
def Globals.OneCall (gz : Nat → Nat) (g : Globals) : Prop :=
  MovesUpTo gz (hostflowSize * g.sumIpCount.toNat)

/-- At the restarts of a run one call has moved the table. -/
def RestartsWhole (gz : Nat → Nat) : List (Session × Action) → Session → Prop
  | [],_ => True
  | (t,.restart _) :: past,s => s.daemon.globals.OneCall gz ∧ RestartsWhole gz past t
  | (t,_) :: past,_ => RestartsWhole gz past t

section Files

variable {gz : Nat → Nat} {localtime : Int → Tm}

/-- The date under which an event exports the table. -/
def exportDate (localtime : Int → Tm) (s : Session) : Action → Option (Int × Fin 12 × Nat)
  | .datagram now _ _ _ =>
    if s.daemon.RollsOver localtime now then some (localtime (now - 86400)).date else none
  | .hangup now => some (localtime now).date
  | .terminate _ => some s.today
  | .restart _ => none

theorem Step.files_eq {s s' : Session} {a : Action} (h : Step gz localtime s a s') :
    s'.files = ((exportDate localtime s a).map (s.saved gz)).toList ++ s.files := by
  cases h with
  | datagram _ _ _ =>
    rw [Session.afterDatagram,exportDate]
    split_ifs <;> rfl
  | hangup _ _ => rfl
  | terminate _ _ => rfl
  | restart _ _ _ _ => rfl

/-- A step keeps the file of every date that of the last event that exported it. -/
theorem find_file_cons {past : List (Session × Action)} {s s' : Session} {a : Action}
    {date : Int × Fin 12 × Nat}
    (hfiles : s'.files = ((exportDate localtime s a).map (s.saved gz)).toList ++ s.files)
    (h : s.files.find? (·.date = date) =
      (past.find? fun t => exportDate localtime t.1 t.2 = some date).map fun t => t.1.saved gz date) :
    s'.files.find? (·.date = date) =
      (((s,a) :: past).find? fun t => exportDate localtime t.1 t.2 = some date).map
        fun t => t.1.saved gz date := by
  rw [hfiles,List.find?_cons]
  cases hexport : exportDate localtime s a with
  | none => simpa using h
  | some written =>
    by_cases hdate : written = date
    · subst hdate
      simp [Session.saved]
    · simpa [Session.saved,hdate] using h

theorem Run.find_file {past : List (Session × Action)} {s : Session} (h : Run gz localtime past s)
    (date : Int × Fin 12 × Nat) :
    s.files.find? (·.date = date) =
      (past.find? fun t => exportDate localtime t.1 t.2 = some date).map
        fun t => t.1.saved gz date := by
  induction h with
  | start _ => rfl
  | step _ hstep ih => exact find_file_cons hstep.files_eq ih

/-- The files hold tables that the program has exported. -/
def Session.FilesExported (gz : Nat → Nat) (s : Session) : Prop :=
  ∀ f ∈ s.files, ∃ g : Globals, g.WellSized ∧ f.contents = exportRecordBy gz g

theorem Session.FilesExported.imported {s : Session} (h : s.FilesExported gz)
    {date : Int × Fin 12 × Nat} {g g' : Globals} {ledger : List LedgerLine} (hg : g.WellSized)
    (himports : s.Imports gz date g g' ledger) : g'.WellSized := by
  rw [Session.Imports] at himports
  split at himports
  next => exact himports.1 ▸ hg
  next f hfind =>
    obtain ⟨-,heap,tmpVal,himport⟩ := himports
    obtain ⟨saved,hsaved,hcontents⟩ := h f (List.mem_of_find?_eq_some hfind)
    exact hg.imported hsaved (hcontents ▸ himport)

/-- The arrays and the files of a run are of the sizes that they say. -/
theorem Step.sized {s s' : Session} {a : Action} (h : Step gz localtime s a s')
    (hs : s.daemon.globals.WellSized) (hfiles : s.FilesExported gz) :
    s'.daemon.globals.WellSized ∧ s'.FilesExported gz := by
  refine ⟨?_,?_⟩
  · cases h with
    | @datagram d' now stack p sourceIp _ _ hend =>
      obtain ⟨n,hn⟩ := hend
      have hstate := keptByDaemon_wellSized.datagram localtime now stack p sourceIp hs n
      rwa [hn] at hstate
    | hangup _ _ => exact hs
    | terminate _ _ => exact hs
    | restart _ _ hg himports =>
      exact keptByDaemon_wellSized.clock _ _ (hfiles.imported hg.wellSized himports)
  · rw [Session.FilesExported,h.files_eq]
    intro f hf
    rcases List.mem_append.mp hf with hf | hf
    · obtain ⟨date,-,rfl⟩ := Option.map_eq_some_iff.mp (Option.mem_toList.mp hf)
      exact ⟨s.daemon.globals,hs,rfl⟩
    · exact hfiles f hf

theorem Run.sized {past : List (Session × Action)} {s : Session} (h : Run gz localtime past s) :
    s.daemon.globals.WellSized ∧ s.FilesExported gz := by
  induction h with
  | start hg =>
    exact ⟨keptByDaemon_wellSized.clock _ _ hg.wellSized,fun _ hf => absurd hf List.not_mem_nil⟩
  | step _ hstep ih => exact hstep.sized ih.1 ih.2

end Files

section Accounts

variable {gz : Nat → Nat} {localtime : Int → Tm}

/-- The ledger accounts for a table: its bookings, applied to an empty one, give the table. -/
structure AccountsFor (ledger : List LedgerLine) (table : List HostFlow) : Prop where
  slots : ∀ line ∈ ledger, line.credit.slot < table.length
  table : table = (ledger.map LedgerLine.credit).foldl Credit.apply
    (List.replicate table.length HostFlow.zero)

theorem AccountsFor.empty (n : Nat) : AccountsFor [] (List.replicate n HostFlow.zero) :=
  ⟨by simp,by simp⟩

theorem AccountsFor.append {ledger new : List LedgerLine} {table : List HostFlow}
    (h : AccountsFor ledger table) (hnew : ∀ line ∈ new, line.credit.slot < table.length) :
    AccountsFor (ledger ++ new) ((new.map LedgerLine.credit).foldl Credit.apply table) := by
  refine ⟨?_,?_⟩
  · intro line hline
    rw [foldl_apply_length]
    rcases List.mem_append.mp hline with hline | hline
    · exact h.slots line hline
    · exact hnew line hline
  · rw [foldl_apply_length,List.map_append,List.foldl_append,← h.table]

/-- An import into a larger table leaves the slots behind the saved ones empty. -/
theorem AccountsFor.grow {ledger : List LedgerLine} {table : List HostFlow}
    (h : AccountsFor ledger table) (n : Nat) :
    AccountsFor ledger (table ++ List.replicate n HostFlow.zero) := by
  refine ⟨?_,?_⟩
  · intro line hline
    rw [List.length_append]
    exact Nat.lt_add_right _ (h.slots line hline)
  · have hslots : ∀ c ∈ ledger.map LedgerLine.credit,
        c.slot < (List.replicate table.length HostFlow.zero).length := by
      intro c hc
      obtain ⟨line,hline,rfl⟩ := List.mem_map.mp hc
      rw [List.length_replicate]
      exact h.slots line hline
    rw [List.length_append,List.length_replicate,List.replicate_add,foldl_apply_append hslots,
      ← h.table]

theorem arrivalGlobals_localtm (now : Int) (d : Daemon) :
    (arrivalGlobals localtime now d).localtm = localtime now := by
  rw [arrivalGlobals]
  split_ifs <;> rfl

theorem receivedLines_day (localtime : Int → Tm) (now : Int) (d d' : Daemon) :
    ∀ line ∈ receivedLines localtime now d d', line.received = (localtime now).date := by
  intro line hline
  obtain ⟨c,_,rfl⟩ := List.mem_map.mp hline
  rfl

private theorem receivedLines_slots (now : Int) (d d' : Daemon) :
    ∀ line ∈ receivedLines localtime now d d',
      line.credit.slot < (arrivalGlobals localtime now d).ipTable.length := by
  intro line hline
  obtain ⟨c,hc,rfl⟩ := List.mem_map.mp hline
  simpa using (List.mem_filter.mp hc).2

theorem receivedLines_globals {d d' : Daemon} {now : Int} {stack : Nat → U32} {p : Packet}
    {sourceIp : InAddr} (h : Ends (handleDatagram localtime now stack p sourceIp) d d') :
    d'.globals = { arrivalGlobals localtime now d with
      ipTable := ((receivedLines localtime now d d').map LedgerLine.credit).foldl Credit.apply
        (arrivalGlobals localtime now d).ipTable } := by
  obtain ⟨n,hn⟩ := h
  have hreplays := handleDatagram_replays localtime now stack p sourceIp n d
  rw [hn] at hreplays
  obtain ⟨evs,htrace,hglobals⟩ := hreplays
  have hnew : d'.machine.trace.take (d'.machine.trace.length - d.machine.trace.length) = evs := by
    have htrace' : d'.machine.trace = evs ++ d.machine.trace := htrace
    rw [htrace',List.length_append,Nat.add_sub_cancel,List.take_left]
  have hcredit : LedgerLine.credit ∘ LedgerLine.mk (localtime now).date = id := rfl
  rw [receivedLines,hnew,List.map_map,hcredit,List.map_id,foldl_apply_filter]
  exact hglobals

/-- The ledgers account for the table and for the files. -/
structure Session.Accounted (gz : Nat → Nat) (s : Session) : Prop where
  sizes : s.daemon.globals.WellSized
  table : AccountsFor s.ledger s.daemon.globals.ipTable
  files : ∀ f ∈ s.files, ∃ g : Globals, g.WellSized ∧ f.contents = exportRecordBy gz g ∧
    AccountsFor f.ledger g.ipTable

private theorem booted_accounted {networks : List StatedEntry} {g : Globals} (now : Int)
    (stack : Nat → U32) (hg : Booted networks g) :
    Session.Accounted gz ⟨startup localtime now stack g,now,[],[],true⟩ where
  sizes := keptByDaemon_wellSized.clock _ _ hg.wellSized
  table := by
    have hempty := AccountsFor.empty g.sumIpCount.toNat
    rwa [← hg.ipTable] at hempty
  files := by simp

private theorem Session.Accounted.saved {s : Session} (h : s.Accounted gz)
    (date : Int × Fin 12 × Nat) :
    ∀ f ∈ s.saved gz date :: s.files, ∃ g : Globals, g.WellSized ∧
      f.contents = exportRecordBy gz g ∧ AccountsFor f.ledger g.ipTable :=
  List.forall_mem_cons.mpr ⟨⟨s.daemon.globals,h.sizes,rfl,h.table⟩,h.files⟩

private theorem arrival_accounted (localtime : Int → Tm) (now : Int) {s : Session}
    (hs : s.Accounted gz) :
    (arrivalGlobals localtime now s.daemon).WellSized ∧
      AccountsFor (if s.daemon.RollsOver localtime now then [] else s.ledger)
        (arrivalGlobals localtime now s.daemon).ipTable := by
  refine ⟨keptByDaemon_wellSized.arrival localtime now hs.sizes,?_⟩
  rw [arrivalGlobals]
  split_ifs
  · exact .empty _
  · exact hs.table

private theorem afterDatagram_accounted {s : Session} (hs : s.Accounted gz) {d' : Daemon} {now : Int}
    {stack : Nat → U32} {p : Packet} {sourceIp : InAddr}
    (hend : Ends (handleDatagram localtime now stack p sourceIp) s.daemon d') :
    (s.afterDatagram gz localtime now d').Accounted gz := by
  have hglobals := receivedLines_globals hend
  obtain ⟨hsizes,htable⟩ := arrival_accounted localtime now hs
  refine ⟨?_,?_,?_⟩
  · exact hglobals ▸ keptByDaemon_wellSized.book _ _ hsizes
  · have happend := htable.append (receivedLines_slots now s.daemon d')
    simp only [Session.afterDatagram]
    rw [hglobals]
    exact happend
  · simp only [Session.afterDatagram]
    split_ifs
    · exact hs.saved _
    · exact hs.files

private theorem import_accounted {s : Session} (hs : s.Accounted gz) {networks : List StatedEntry}
    {g g' : Globals} {date : Int × Fin 12 × Nat} {ledger : List LedgerLine}
    (hg : Booted networks g) (h : s.Imports gz date g g' ledger) (hwhole : g'.OneCall gz) :
    g'.WellSized ∧ AccountsFor ledger g'.ipTable := by
  rw [Session.Imports] at h
  split at h
  next =>
    obtain ⟨rfl,rfl⟩ := h
    exact ⟨hg.wellSized,hg.ipTable ▸ .empty _⟩
  next f hfind =>
    obtain ⟨rfl,heap,tmpVal,himport⟩ := h
    obtain ⟨saved,hsaved,hcontents,haccounts⟩ := hs.files f (List.mem_of_find?_eq_some hfind)
    rw [hcontents] at himport
    refine ⟨hg.wellSized.imported hsaved himport,?_⟩
    have hcount := hg.wellSized.imported_sumIpCount hsaved himport
    rw [importRecordBy_whole heap tmpVal hg.wellSized hsaved (hcount ▸ hwhole),
      Option.some.injEq] at himport
    rw [← himport,hg.ipTable,List.drop_replicate]
    exact haccounts.grow _

theorem Step.accounted {s s' : Session} {a : Action} (h : Step gz localtime s a s')
    (hwhole : ∀ now, a = .restart now → s'.daemon.globals.OneCall gz) (hs : s.Accounted gz) :
    s'.Accounted gz := by
  cases h with
  | datagram _ _ hend => exact afterDatagram_accounted hs hend
  | hangup _ _ => exact ⟨hs.sizes,hs.table,hs.saved _⟩
  | terminate _ _ => exact ⟨hs.sizes,hs.table,hs.saved _⟩
  | restart _ _ hg himports =>
    obtain ⟨hsizes,htable⟩ := import_accounted hs hg himports (hwhole _ rfl)
    exact ⟨keptByDaemon_wellSized.clock _ _ hsizes,htable,hs.files⟩

theorem RestartsWhole.cons {past : List (Session × Action)} {s t : Session} {a : Action}
    (h : RestartsWhole gz ((t,a) :: past) s) :
    (∀ now, a = .restart now → s.daemon.globals.OneCall gz) ∧ RestartsWhole gz past t := by
  cases a with
  | restart now => exact ⟨fun _ _ => h.1,h.2⟩
  | datagram => exact ⟨nofun,h⟩
  | hangup => exact ⟨nofun,h⟩
  | terminate => exact ⟨nofun,h⟩

theorem Run.accounted {past : List (Session × Action)} {s : Session} (h : Run gz localtime past s)
    (hwhole : RestartsWhole gz past s) : s.Accounted gz := by
  induction h with
  | start hg => exact booted_accounted _ _ hg
  | step _ hstep ih => exact hstep.accounted hwhole.cons.1 (ih hwhole.cons.2)

end Accounts

end Flowstatd
