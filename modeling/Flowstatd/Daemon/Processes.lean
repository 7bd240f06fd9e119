import Flowstatd.Daemon.Session
import Flowstatd.Daemon.Truncated
import Flowstatd.Framework.History
import Flowstatd.Query.Queries

/-!
# The processes

`main` takes datagrams and forks a child for every connection, and a hangup makes a process fork a
child that exports. Children inherit the signal handlers and have a copy of the globals. A signal
comes between any two statements, so the booking of a flow is taken apart into its four, and an
export into the opening of the file and the rest: in between the file has no whole table.
-/

namespace Flowstatd

open Framework

/-- What `ExportRecord` writes of `ipTable`. -/
def Globals.savedTable (g : Globals) : List HostFlow := g.ipTable.take g.sumIpCount.toNat

/-- An assignment of `InsertNfInfoToIpTable` to the entry of a flow. -/
inductive Assignment where
  | sinAddr (addr : InAddr)
  | hflow (hour : Fin 24) (d : Direction) (flowBytes : U32)
  | nflow (d : Direction) (flowBytes : U32)
  | sum (flowBytes : U32)

def Assignment.apply (e : HostFlow) : Assignment → HostFlow
  | .sinAddr addr => { e with sinAddr := addr }
  | .hflow hour d flowBytes =>
    { e with
      hflow := Function.update e.hflow hour
        (Function.update (e.hflow hour) d (e.hflow hour d + flowBytes.setWidth 64)) }
  | .nflow d flowBytes =>
    { e with nflow := Function.update e.nflow d (e.nflow d + flowBytes.setWidth 64) }
  | .sum flowBytes => { e with sum := e.sum + flowBytes.setWidth 64 }

/-- The argument of `ExportRecord`; for `YESTERDAY` with the time that it reads. -/
inductive ExportMode where
  | today
  | yesterday (now : Int)

/-- The date in the name of the file. -/
def ExportMode.date (localtime : Int → Tm) (g : Globals) : ExportMode → Int × Fin 12 × Nat
  | .today => g.localtm.date
  | .yesterday now => (localtime (now - 86400)).date

/-- The statements between which a signal may come. -/
inductive Stmt where
  /-- `localtime_r(&now, &localtm)` -/
  | readClock (now : Int)
  /-- `ExportRecord` up to `gzopen` -/
  | exportRecord (mode : ExportMode)
  /-- The writes of `ExportRecord`, and `gzclose` -/
  | gzclose (date : Int × Fin 12 × Nat)
  /-- `memset` of the table -/
  | resetTable
  | assign (slot : Nat) (a : Assignment)
  /-- `main` comes back to its loop, with templates, stack and `preHour` as `d` has them. -/
  | returns (d : Daemon)
  /-- A datagram whose handling does not end. -/
  | loops
  /-- `ImportRecord`; where there is no file, a query child answers and exits. -/
  | importRecord (orExit : Bool)
  | qsort
  /-- The rest of a call that was interrupted, and the globals that it leaves. -/
  | completes (g : Globals)
  | exit

/-- How far the handler of a signal has got: `Exits` and `SockExit` free the table and exit, `Exits`
exports it before, `Update` reloads the whitelist and forks. -/
inductive Handler where
  | exits
  | gzclose (date : Int × Fin 12 × Nat)
  | frees
  | leaves
  | update
  | forks

/-- What a process gets from the system in one statement. -/
structure Answers where
  /-- `gzopen` opens the file. -/
  gzopen : Bool
  /-- What `json_load_file` makes of the configuration file. -/
  config : Option Json
  /-- The file that is imported, if it is there. -/
  file : Option (List Byte)
  heap : Nat → Byte
  tmpVal : U32
  /-- `fork` gives a child, which reads this time. -/
  child : Option Int
  /-- The call is not through yet and has left this so far. -/
  midway : Option Globals

/-- Answers of a system in which everything is granted, and there is nothing to read. -/
def Answers.granted : Answers := ⟨true,none,none,fun _ => 0,0,none,none⟩

/-- `ImportRecord` on the file, with its return value; `none` is `Diep`. -/
def Answers.importRecord (x : Answers) (g : Globals) : Option (Int × Globals) :=
  if x.file.isSome && !x.gzopen then none else importFile x.heap x.tmpVal g x.file

/-- A process with its own copy of the globals. -/
structure Process where
  live : Bool
  globals : Globals
  whitelist : Whitelist
  handlers : List Handler
  program : List Stmt
  /-- `alarm(30)` has been called. -/
  alarmed : Bool
  /-- `main` has been in its loop; until then `multiplexer` is a null pointer. -/
  inLoop : Bool
  /-- The table is one that `main` has had between two datagrams. -/
  settled : Bool
  /-- `ExportRecord` has written the table as it is. -/
  exported : Bool

/-- A table that went into the file of a day. -/
structure Written where
  date : Int × Fin 12 × Nat
  table : List HostFlow

/-- What a statement does outside of its process. -/
inductive Effect where
  | none
  | opens (date : Int × Fin 12 × Nat)
  | writes (file : Written)
  | forks (child : Process)
  | returns (d : Daemon) (table : List HostFlow)

namespace Process

def dies (p : Process) : Process := { p with live := false }

/-- The globals have been written to, and `rest` is to be done next. -/
def changed (p : Process) (g : Globals) (rest : List Stmt) : Process :=
  { p with globals := g, program := rest, settled := false, exported := false }

/-- A call that leaves `g` when it is through. -/
def works (p : Process) (midway : Option Globals) (g : Globals) (rest : List Stmt) : Process :=
  match midway with
  | none => p.changed g rest
  | some g' => p.changed g' (.completes g :: rest)

/-- `gzopen` in `ExportRecord`, which leads to `opened` or to `Diep`. -/
def gzopen (p : Process) (x : Answers) (date : Int × Fin 12 × Nat) (opened : Process) :
    Process × Effect :=
  if x.gzopen then (opened,.opens date) else (p.dies,.none)

/-- The rest of `ExportRecord`. -/
def gzclose (p : Process) (date : Int × Fin 12 × Nat) : Process × Effect :=
  ({ p with exported := true },.writes ⟨date,p.globals.savedTable⟩)

/-- The child that `Update` forks. -/
def updater (p : Process) (now : Int) : Process :=
  { p with
    handlers := []
    program := [.readClock now,.exportRecord .today,.exit]
    alarmed := false }

/-- The next statement of a handler, with those it has interrupted. -/
def execHandler (p : Process) (x : Answers) (interrupted : List Handler) :
    Handler → Process × Effect
  | .exits =>
    -- `FreeMultiplexer` goes through the pointer
    if p.inLoop then
      p.gzopen x p.globals.localtm.date
        { p with handlers := .gzclose p.globals.localtm.date :: interrupted }
    else (p.dies,.none)
  | .gzclose date => { p with handlers := .frees :: interrupted }.gzclose date
  | .frees =>
    ({ p with
        globals := { p.globals with ipTable := [] }
        handlers := .leaves :: interrupted
        settled := false },.none)
  | .leaves => (p.dies,.none)
  | .update =>
    match loadWhitelist p.globals.nets p.whitelist x.config with
    | none => (p.dies,.none)
    | some (_,whitelist) =>
      ({ p with whitelist := whitelist, handlers := .forks :: interrupted },.none)
  | .forks =>
    ({ p with handlers := interrupted },
      match x.child with
      | none => .none
      | some now => .forks (p.updater now))

def execStmt (p : Process) (localtime : Int → Tm) (qsort : List HostFlow → List HostFlow)
    (x : Answers) (rest : List Stmt) : Stmt → Process × Effect
  | .readClock now =>
    ({ p with globals := { p.globals with localtm := localtime now }, program := rest },.none)
  | .exportRecord mode =>
    p.gzopen x (mode.date localtime p.globals)
      { p with program := .gzclose (mode.date localtime p.globals) :: rest }
  | .gzclose date => { p with program := rest }.gzclose date
  | .resetTable => (p.changed (resetTable p.globals) rest,.none)
  | .assign slot a =>
    (p.changed
      { p.globals with ipTable := p.globals.ipTable.modify slot fun e => a.apply e } rest,.none)
  | .returns d => ({ p with program := rest, inLoop := true, settled := true },
      .returns d p.globals.savedTable)
  | .loops => (p,.none)
  | .importRecord orExit =>
    match x.importRecord p.globals with
    | none => (p.dies,.none)
    | some (ret,g) =>
      if ret = 0 then ({ p with program := if orExit then [.exit] else rest },.none)
      else (p.works x.midway g rest,.none)
  | .qsort =>
    (p.works x.midway { p.globals with ipTable := sortTable qsort p.globals } rest,.none)
  | .completes g => (p.works x.midway g rest,.none)
  | .exit => (p.dies,.none)

/-- One statement; a handler goes first. -/
def exec (p : Process) (localtime : Int → Tm) (qsort : List HostFlow → List HostFlow)
    (x : Answers) : Process × Effect :=
  match p.handlers, p.program with
  | h :: interrupted, _ => p.execHandler x interrupted h
  | [], st :: rest => p.execStmt localtime qsort x rest st
  | [], [] => (p,.none)

/-- Whether the next statement ends the process in a failure. -/
def failsIn (p : Process) (x : Answers) : Bool :=
  match p.handlers, p.program with
  | .exits :: _, _ => !x.gzopen
  | .update :: _, _ => x.config.isNone
  | [], .exportRecord _ :: _ => !x.gzopen
  | _, _ => false

/-- The day whose file the next statement opens. -/
def opening (p : Process) (localtime : Int → Tm) : Option (Int × Fin 12 × Nat) :=
  match p.handlers, p.program with
  | .exits :: _, _ => if p.inLoop then some p.globals.localtm.date else none
  | [], .exportRecord mode :: _ => some (mode.date localtime p.globals)
  | _, _ => none

/-- Whether `main` waits for a datagram or a connection. -/
def idle (p : Process) : Bool := p.live && p.handlers.isEmpty && p.program.isEmpty

end Process

def Stmt.opened : Stmt → List (Int × Fin 12 × Nat)
  | .gzclose date => [date]
  | _ => []

def Handler.opened : Handler → List (Int × Fin 12 × Nat)
  | .gzclose date => [date]
  | _ => []

/-- The days whose files have been opened and are not closed yet. -/
def openFiles (handlers : List Handler) (program : List Stmt) : List (Int × Fin 12 × Nat) :=
  handlers.flatMap Handler.opened ++ program.flatMap Stmt.opened

def Process.opened (p : Process) : List (Int × Fin 12 × Nat) := openFiles p.handlers p.program

/-- How often the process has the file of a day open; exiting closes all files. -/
def Process.openCount (p : Process) (date : Int × Fin 12 × Nat) : Nat :=
  if p.live then p.opened.count date else 0

/-- What the child for a connection has to do: `parseCmd` imports the file of a past date, and the
two lists sort the table. -/
structure Query where
  pastDate : Bool
  sorts : Bool

def Query.program (q : Query) : List Stmt :=
  (if q.pastDate then [.importRecord true] else []) ++ (if q.sorts then [.qsort] else []) ++ [.exit]

def Process.queryChild (p : Process) (q : Query) : Process :=
  { p with program := q.program, alarmed := true }

def Credit.statements (c : Credit) : List Stmt :=
  [.assign c.slot (.sinAddr c.addr),.assign c.slot (.hflow c.hour c.direction c.flowBytes),
    .assign c.slot (.nflow c.direction c.flowBytes),.assign c.slot (.sum c.flowBytes)]

/-- How a datagram ends, if it does. -/
def lastStmt : Outcome Daemon → Stmt
  | .finished d => .returns d
  | .cut _ => .loops

/-- A round of the loop of `main` for a datagram, as far as `fuel` goes. -/
def datagramProgram (localtime : Int → Tm) (now : Int) (stack : Nat → U32) (p : Packet)
    (sourceIp : InAddr) (fuel : Nat) (d : Daemon) : List Stmt :=
  let o := handleDatagram localtime now stack p sourceIp fuel d
  .readClock now ::
    ((if d.RollsOver localtime now then [.exportRecord (.yesterday now),.resetTable] else []) ++
      (((receivedLines localtime now d o.state).map LedgerLine.credit).flatMap Credit.statements ++
        [lastStmt o]))

/-- What the group has left in the file of a day. A file is torn between `gzopen` and `gzclose`, and
where the gz library has moved a part of the table only. -/
inductive Contents where
  | untouched
  | torn
  | table (t : List HostFlow)
deriving DecidableEq

/-- The file of a day. It is shared if another process had it open when it was opened; what two
processes write at once is mixed. -/
structure DayFile where
  contents : Contents
  shared : Bool

/-- `main`, the processes forked so far, and what it had in its table between datagrams. Templates,
stack and `preHour` are those of `decoder`, whose globals are not looked at. -/
structure Group where
  main : Process
  children : List Process
  decoder : Daemon
  between : List (List HostFlow)
  written : List Written
  disk : Int × Fin 12 × Nat → DayFile

/-- `none` is `main`. -/
abbrev Pid := Option Nat

inductive GroupEvent where
  | datagram (now : Int) (stack : Nat → U32) (p : Packet) (sourceIp : InAddr) (fuel : Nat)
  | connection (q : Query)
  /-- `accept` gives -1. -/
  | acceptError
  | exec (pid : Pid) (x : Answers)
  /-- SIGINT or SIGTERM -/
  | terminate (pid : Pid)
  /-- SIGHUP -/
  | hangup (pid : Pid)
  /-- SIGALRM -/
  | alarm (pid : Pid)

namespace Group

def process? (s : Group) : Pid → Option Process
  | none => some s.main
  | some k => s.children[k]?

def put (s : Group) (pid : Pid) (p : Process) : Group :=
  match pid with
  | none => { s with main := p }
  | some k => { s with children := s.children.set k p }

/-- The daemon as the main loop has it. -/
def daemon (s : Group) : Daemon :=
  ⟨{ s.decoder.machine with globals := s.main.globals },s.decoder.preHour⟩

/-- `main` with the handlers set up, about to import the file of the day. -/
def start (localtime : Int → Tm) (now : Int) (stack : Nat → U32) (whitelist : Whitelist)
    (g : Globals) : Group where
  main :=
    { live := true
      globals := { g with localtm := localtime now }
      whitelist := whitelist
      handlers := []
      program := [.importRecord false,.returns (startup localtime now stack g)]
      alarmed := false
      inLoop := false
      settled := false
      exported := false }
  children := []
  decoder := startup localtime now stack g
  between := []
  written := []
  disk := fun _ => ⟨.untouched,false⟩

/-- How many times the file of a day is open. -/
def writers (s : Group) (date : Int × Fin 12 × Nat) : Nat :=
  s.main.openCount date + (s.children.map fun p => p.openCount date).sum

def record (s : Group) : Effect → Group
  | .none => s
  | .opens date =>
    { s with disk := Function.update s.disk date ⟨.torn,decide (1 < s.writers date)⟩ }
  | .writes file =>
    let shared := (s.disk file.date).shared
    let size := hostflowSize * file.table.length
    { s with
      written := file :: s.written
      disk := Function.update s.disk file.date
        ⟨if shared ∨ zlibLength size ≠ size then .torn else .table file.table,shared⟩ }
  | .forks child => { s with children := s.children ++ [child] }
  | .returns d table => { s with decoder := d, between := table :: s.between }

/-- A signal is delivered to a process that can take it. -/
def signal (s : Group) (pid : Pid) (h : Handler) (takes : Process → Bool) : Option Group :=
  match s.process? pid with
  | none => none
  | some p => if takes p then some (s.put pid { p with handlers := h :: p.handlers }) else none

def step (localtime : Int → Tm) (qsort : List HostFlow → List HostFlow) (s : Group) :
    GroupEvent → Option Group
  | .datagram now stack p sourceIp fuel =>
    if s.main.idle then
      some { s with main :=
        { s.main with
          program := datagramProgram localtime now stack p sourceIp fuel s.daemon } }
    else none
  | .connection q =>
    if s.main.idle then some { s with children := s.children ++ [s.main.queryChild q] } else none
  | .acceptError => if s.main.idle then some { s with main := s.main.dies } else none
  | .exec pid x =>
    match s.process? pid with
    | none => none
    | some p =>
      if p.live then
        let r := p.exec localtime qsort x
        some ((s.put pid r.1).record r.2)
      else none
  | .terminate pid => s.signal pid .exits Process.live
  | .hangup pid => s.signal pid .update Process.live
  | .alarm pid => s.signal pid .frees fun p => p.live && p.alarmed

end Group

/-- What an event can do, case by case. -/
inductive Group.Steps (localtime : Int → Tm) (qsort : List HostFlow → List HostFlow) (s : Group) :
    GroupEvent → Group → Prop
  | datagram {now : Int} {stack : Nat → U32} {p : Packet} {sourceIp : InAddr} {fuel : Nat} :
    s.main.idle → Group.Steps localtime qsort s (.datagram now stack p sourceIp fuel)
      { s with main :=
        { s.main with program := datagramProgram localtime now stack p sourceIp fuel s.daemon } }
  | connection {q : Query} : s.main.idle → Group.Steps localtime qsort s (.connection q)
    { s with children := s.children ++ [s.main.queryChild q] }
  | acceptError : s.main.idle →
    Group.Steps localtime qsort s .acceptError { s with main := s.main.dies }
  | exec {pid : Pid} {p : Process} {x : Answers} : s.process? pid = some p → p.live →
    Group.Steps localtime qsort s (.exec pid x)
      ((s.put pid (p.exec localtime qsort x).1).record (p.exec localtime qsort x).2)
  | terminate {pid : Pid} {p : Process} : s.process? pid = some p → p.live →
    Group.Steps localtime qsort s (.terminate pid)
      (s.put pid { p with handlers := .exits :: p.handlers })
  | hangup {pid : Pid} {p : Process} : s.process? pid = some p → p.live →
    Group.Steps localtime qsort s (.hangup pid)
      (s.put pid { p with handlers := .update :: p.handlers })
  | alarm {pid : Pid} {p : Process} : s.process? pid = some p → p.live → p.alarmed →
    Group.Steps localtime qsort s (.alarm pid)
      (s.put pid { p with handlers := .frees :: p.handlers })

private theorem signal_cases {s s' : Group} {pid : Pid} {h : Handler} {takes : Process → Bool}
    (hs : s.signal pid h takes = some s') :
    ∃ p, s.process? pid = some p ∧ takes p ∧
      s' = s.put pid { p with handlers := h :: p.handlers } := by
  rw [Group.signal] at hs
  split at hs
  next => exact absurd hs (by simp)
  next p hp =>
    split_ifs at hs with htakes
    exact ⟨p,hp,htakes,(Option.some.inj hs).symm⟩

theorem Group.step_cases {localtime : Int → Tm} {qsort : List HostFlow → List HostFlow}
    {s s' : Group} {a : GroupEvent} (hs : s.step localtime qsort a = some s') :
    s.Steps localtime qsort a s' := by
  cases a with
  | datagram now stack p sourceIp fuel =>
    rw [Group.step] at hs
    split_ifs at hs with hidle
    exact Option.some.inj hs ▸ .datagram hidle
  | connection q =>
    rw [Group.step] at hs
    split_ifs at hs with hidle
    exact Option.some.inj hs ▸ .connection hidle
  | acceptError =>
    rw [Group.step] at hs
    split_ifs at hs with hidle
    exact Option.some.inj hs ▸ .acceptError hidle
  | exec pid x =>
    rw [Group.step] at hs
    split at hs
    next => exact absurd hs (by simp)
    next p hp =>
      split_ifs at hs with hlive
      exact Option.some.inj hs ▸ .exec hp hlive
  | terminate pid =>
    obtain ⟨p,hp,hlive,rfl⟩ := signal_cases hs
    exact .terminate hp hlive
  | hangup pid =>
    obtain ⟨p,hp,hlive,rfl⟩ := signal_cases hs
    exact .hangup hp hlive
  | alarm pid =>
    obtain ⟨p,hp,htakes,rfl⟩ := signal_cases hs
    obtain ⟨hlive,halarmed⟩ := (Bool.and_eq_true _ _).mp htakes
    exact .alarm hp hlive halarmed

theorem loadWhitelist_eq_none_iff {nets : List Subnet} {whitelist : Whitelist}
    {config : Option Json} : loadWhitelist nets whitelist config = none ↔ config = none := by
  cases config with
  | none => exact ⟨fun _ => rfl,fun _ => rfl⟩
  | some jsonRoot =>
    rw [loadWhitelist]
    split <;> simp

theorem Process.idle_cases {p : Process} (h : p.idle) :
    p.live ∧ p.handlers = [] ∧ p.program = [] := by
  simpa [Process.idle,and_assoc] using h

/-- The start of `main` with some configuration. -/
inductive Group.Starts (localtime : Int → Tm) : Group → Prop
  | intro {networks : List StatedEntry} {g : Globals} (now : Int) (stack : Nat → U32)
      (whitelist : Whitelist) :
    Booted networks g → Group.Starts localtime (Group.start localtime now stack whitelist g)

/-- The runs of the processes, in all orders. -/
abbrev GroupRun (localtime : Int → Tm) (qsort : List HostFlow → List HostFlow) :
    List (Group × GroupEvent) → Group → Prop :=
  History (Group.Starts localtime) fun s a s' => s.step localtime qsort a = some s'

theorem credit_apply_eq (c : Credit) (table : List HostFlow) :
    c.apply table =
      ((((table.modify c.slot fun e => (Assignment.sinAddr c.addr).apply e).modify c.slot
        fun e => (Assignment.hflow c.hour c.direction c.flowBytes).apply e).modify c.slot
        fun e => (Assignment.nflow c.direction c.flowBytes).apply e).modify c.slot
        fun e => (Assignment.sum c.flowBytes).apply e) := by
  simp only [List.modify_modify_eq]
  rfl

end Flowstatd
