import Flowstatd.Daemon.Endings

/-!
# The processes as one session

As long as nothing fails and signals reach `main` between two datagrams, the processes do together
what a session does alone. The session takes a step when `main` begins with a datagram, forks for a
hangup or exports at the end; what a process is still going to write is already in its files.
-/

namespace Flowstatd

open Framework

section Programs

variable (localtime : Int → Tm)

/-- What a statement of `main` leaves in its globals, where there is no file to import. -/
def Stmt.globals (g : Globals) : Stmt → Globals
  | .readClock now => { g with localtm := localtime now }
  | .resetTable => Flowstatd.resetTable g
  | .assign slot a => { g with ipTable := g.ipTable.modify slot fun e => a.apply e }
  | _ => g

def Stmt.writes (g : Globals) : Stmt → List Written
  | .exportRecord mode => [⟨mode.date localtime g,g.savedTable⟩]
  | .gzclose date => [⟨date,g.savedTable⟩]
  | _ => []

def Handler.writes (g : Globals) : Handler → List Written
  | .gzclose date => [⟨date,g.savedTable⟩]
  | _ => []

/-- What a program is going to write. -/
def programWrites : List Stmt → Globals → List Written
  | [], _ => []
  | st :: rest, g => st.writes localtime g ++ programWrites rest (st.globals localtime g)

/-- What the process is going to write. -/
def Process.pending (p : Process) : List Written :=
  p.handlers.flatMap (Handler.writes p.globals) ++ programWrites localtime p.program p.globals

/-- What all the processes are going to write. -/
def Group.pending (s : Group) : List Written :=
  s.main.pending localtime ++ s.children.flatMap (Process.pending localtime)

/-- The statements of `main` before it comes back to its loop. -/
def Stmt.onWay : Stmt → Bool
  | .readClock _ | .exportRecord _ | .gzclose _ | .resetTable | .assign _ _
  | .importRecord false => true
  | _ => false

/-- What is left of `Exits` when the file is open. -/
def Handler.ends : Handler → Bool
  | .gzclose _ | .frees | .leaves => true
  | _ => false

/-- The statements of a child that answers. -/
def Stmt.answers : Stmt → Bool
  | .importRecord _ | .qsort | .completes _ | .exit => true
  | _ => false

/-- With this program and these globals `main` comes back to its loop as the daemon `d`. -/
inductive Leads (d : Daemon) : List Stmt → Globals → Prop
  | returns {d' : Daemon} {g : Globals} :
    (⟨{ d'.machine with globals := g },d'.preHour⟩ : Daemon) = d → Leads d [.returns d'] g
  | next {st : Stmt} {rest : List Stmt} {g : Globals} : st.onWay →
    Leads d rest (st.globals localtime g) → Leads d (st :: rest) g

end Programs

section Datagrams

variable {localtime : Int → Tm}

theorem programWrites_append (localtime : Int → Tm) (program rest : List Stmt) (g : Globals) :
    programWrites localtime (program ++ rest) g = programWrites localtime program g ++
      programWrites localtime rest (program.foldl (fun g st => st.globals localtime g) g) := by
  induction program generalizing g with
  | nil => rfl
  | cons st program ih =>
    rw [List.cons_append,programWrites,programWrites,ih,List.foldl_cons,List.append_assoc]

private theorem programWrites_answers {program : List Stmt}
    (h : ∀ st ∈ program, st.answers = true) (g : Globals) :
    programWrites localtime program g = [] := by
  induction program generalizing g with
  | nil => rfl
  | cons st program ih =>
    obtain ⟨hst,hrest⟩ := List.forall_mem_cons.mp h
    rw [programWrites,ih hrest]
    cases st with
    | exportRecord mode => cases hst
    | gzclose date => cases hst
    | _ => rfl

private theorem statements_globals (c : Credit) (g : Globals) :
    c.statements.foldl (fun g st => st.globals localtime g) g =
      { g with ipTable := c.apply g.ipTable } := by
  rw [credit_apply_eq]
  rfl

private theorem credits_globals (cs : List Credit) (g : Globals) :
    (cs.flatMap Credit.statements).foldl (fun g st => st.globals localtime g) g =
      { g with ipTable := cs.foldl Credit.apply g.ipTable } := by
  induction cs generalizing g with
  | nil => rfl
  | cons c cs ih => rw [List.flatMap_cons,List.foldl_append,statements_globals,ih,List.foldl_cons]

private theorem credits_writes (cs : List Credit) (g : Globals) :
    programWrites localtime (cs.flatMap Credit.statements) g = [] := by
  induction cs generalizing g with
  | nil => rfl
  | cons c cs ih =>
    rw [List.flatMap_cons,programWrites_append,ih]
    rfl

private theorem leads_append {d : Daemon} {program rest : List Stmt}
    (h : ∀ st ∈ program, st.onWay = true) {g : Globals}
    (hrest : Leads localtime d rest (program.foldl (fun g st => st.globals localtime g) g)) :
    Leads localtime d (program ++ rest) g := by
  induction program generalizing g with
  | nil => exact hrest
  | cons st program ih =>
    obtain ⟨hst,hprogram⟩ := List.forall_mem_cons.mp h
    exact .next hst (ih hprogram hrest)

private theorem credits_onWay (cs : List Credit) :
    ∀ st ∈ cs.flatMap Credit.statements, st.onWay = true := by
  intro st hst
  obtain ⟨c,-,hst⟩ := List.mem_flatMap.mp hst
  simp only [Credit.statements,List.mem_cons,List.not_mem_nil,or_false] at hst
  rcases hst with rfl | rfl | rfl | rfl <;> rfl

variable {now : Int} {stack : Nat → U32} {p : Packet} {sourceIp : InAddr} {fuel : Nat}
  {d d' : Daemon}

/-- The beginning of a round, up to the bookings. -/
private def arrivalProgram (localtime : Int → Tm) (now : Int) (d : Daemon) : List Stmt :=
  .readClock now ::
    if d.RollsOver localtime now then [.exportRecord (.yesterday now),.resetTable] else []

private theorem arrivalProgram_globals (localtime : Int → Tm) (now : Int) (d : Daemon) :
    (arrivalProgram localtime now d).foldl (fun g st => st.globals localtime g) d.globals =
      arrivalGlobals localtime now d := by
  rw [arrivalProgram,arrivalGlobals]
  split_ifs <;> rfl

private theorem datagramProgram_eq
    (h : handleDatagram localtime now stack p sourceIp fuel d = .finished d') :
    datagramProgram localtime now stack p sourceIp fuel d = arrivalProgram localtime now d ++
      (((receivedLines localtime now d d').map LedgerLine.credit).flatMap Credit.statements ++
        [.returns d']) := by
  rw [datagramProgram,h]
  rfl

/-- The program of a datagram leads to the daemon that the main loop has after it. -/
private theorem leads_datagram
    (h : handleDatagram localtime now stack p sourceIp fuel d = .finished d') :
    Leads localtime d' (datagramProgram localtime now stack p sourceIp fuel d) d.globals := by
  rw [datagramProgram_eq h]
  apply leads_append
  · intro st hst
    rw [arrivalProgram] at hst
    split_ifs at hst <;> simp only [List.mem_cons,List.not_mem_nil,or_false] at hst
    · rcases hst with rfl | rfl | rfl <;> rfl
    · exact hst ▸ rfl
  · rw [arrivalProgram_globals]
    apply leads_append (credits_onWay _)
    rw [credits_globals,← receivedLines_globals ⟨fuel,h⟩]
    exact .returns rfl

private theorem datagram_writes
    (h : handleDatagram localtime now stack p sourceIp fuel d = .finished d') :
    programWrites localtime (datagramProgram localtime now stack p sourceIp fuel d) d.globals =
      if d.RollsOver localtime now then [⟨(localtime (now - 86400)).date,d.globals.savedTable⟩]
      else [] := by
  rw [datagramProgram_eq h,programWrites_append,programWrites_append,credits_writes,arrivalProgram]
  split_ifs <;> rfl

end Datagrams

section Statements

variable {localtime : Int → Tm} {qsort : List HostFlow → List HostFlow} {x : Answers} {p : Process}
  {rest : List Stmt}

/-- What an effect adds to the files. -/
def Effect.files : Effect → List Written
  | .writes file => [file]
  | _ => []

/-- The effect is on files only. -/
def Effect.Quiet : Effect → Prop
  | .none | .opens _ | .writes _ => True
  | _ => False

/-- A statement on the way does what it says. Where it opens a file, the writing is next. -/
private theorem exec_onWay (localtime : Int → Tm) (qsort : List HostFlow → List HostFlow)
    {st : Stmt} (hst : st.onWay) (hgzopen : x.gzopen) (hfile : x.file = none) (p : Process)
    {rest : List Stmt} {d : Daemon}
    (hrest : Leads localtime d rest (st.globals localtime p.globals)) :
    ∃ g program settled exported effect, p.execStmt localtime qsort x rest st =
        ({ p with globals := g, program := program, settled := settled, exported := exported },
          effect) ∧
      Leads localtime d program g ∧ effect.Quiet ∧
      effect.files ++ programWrites localtime program g =
        programWrites localtime (st :: rest) p.globals := by
  cases st with
  | readClock now => exact ⟨_,rest,p.settled,p.exported,.none,rfl,hrest,trivial,rfl⟩
  | exportRecord mode =>
    refine ⟨p.globals,.gzclose (mode.date localtime p.globals) :: rest,p.settled,p.exported,
      .opens (mode.date localtime p.globals),?_,.next rfl hrest,trivial,rfl⟩
    simp only [Process.execStmt,Process.gzopen,hgzopen,if_true]
  | gzclose date =>
    exact ⟨_,rest,p.settled,true,.writes ⟨date,p.globals.savedTable⟩,rfl,hrest,trivial,rfl⟩
  | resetTable => exact ⟨_,rest,false,false,.none,rfl,hrest,trivial,rfl⟩
  | assign slot a => exact ⟨_,rest,false,false,.none,rfl,hrest,trivial,rfl⟩
  | importRecord orExit =>
    cases orExit with
    | true => cases hst
    | false =>
      refine ⟨_,rest,p.settled,p.exported,.none,?_,hrest,trivial,rfl⟩
      simp [Process.execStmt,Answers.importRecord,hfile,importFile,Stmt.globals]
  | _ => cases hst

/-- A child that answers, has been told to leave, or is going to export. -/
structure Process.Harmless (p : Process) : Prop where
  handlers : ∀ h ∈ p.handlers, h = .frees ∨ h = .leaves
  program : (∀ st ∈ p.program, st.answers = true) ∨
    p.handlers = [] ∧ p.alarmed = false ∧
      ((∃ now, p.program = [.readClock now,.exportRecord .today,.exit]) ∨
        p.program = [.exportRecord .today,.exit] ∨ ∃ date, p.program = [.gzclose date,.exit])

theorem Effect.Quiet.record_eq {effect : Effect} (h : effect.Quiet) (s : Group) :
    ∃ disk, s.record effect = { s with written := effect.files ++ s.written, disk := disk } := by
  cases effect with
  | none => exact ⟨s.disk,rfl⟩
  | opens date | writes file => exact ⟨_,rfl⟩
  | forks child | returns d table => exact h.elim

/-- A child that has been told to leave does not write any more. -/
private theorem pending_of_answers (hleft : ∀ h ∈ p.handlers, h = .frees ∨ h = .leaves)
    (h : ∀ st ∈ p.program, st.answers = true) : p.pending localtime = [] := by
  have hhandlers : p.handlers.flatMap (Handler.writes p.globals) = [] := by
    refine List.flatMap_eq_nil_iff.mpr fun h hmem => ?_
    rcases hleft h hmem with rfl | rfl <;> rfl
  rw [Process.pending,hhandlers,programWrites_answers h p.globals]
  rfl

private theorem Process.Harmless.exec (localtime : Int → Tm)
    (qsort : List HostFlow → List HostFlow) (h : p.Harmless) (hgzopen : x.gzopen) :
    (p.exec localtime qsort x).1.Harmless ∧ (p.exec localtime qsort x).2.Quiet ∧
      (p.exec localtime qsort x).2.files ++ (p.exec localtime qsort x).1.pending localtime =
        p.pending localtime := by
  obtain ⟨hhandlers,hprogram⟩ := h
  have hanswers {p' : Process} {effect : Effect} (heffect : effect = .none)
      (hp : ∀ st ∈ p.program, st.answers = true) (hp' : ∀ st ∈ p'.program, st.answers = true)
      (hleft : ∀ h ∈ p'.handlers, h = .frees ∨ h = .leaves) :
      p'.Harmless ∧ effect.Quiet ∧ effect.files ++ p'.pending localtime = p.pending localtime := by
    subst heffect
    refine ⟨⟨hleft,.inl hp'⟩,trivial,?_⟩
    rw [pending_of_answers hhandlers hp,pending_of_answers hleft hp']
    rfl
  rw [Process.exec]
  split
  next handler interrupted hstack =>
    have hp := hprogram.resolve_right (by simp [hstack])
    obtain ⟨hfirst,hrest⟩ := List.forall_mem_cons.mp (hstack ▸ hhandlers)
    rcases hfirst with rfl | rfl
    · exact hanswers rfl hp hp (List.forall_mem_cons.mpr ⟨.inr rfl,hrest⟩)
    · exact hanswers rfl hp hp hhandlers
  next st rest hstack hstmts =>
    rcases hprogram with hp | ⟨-,halarmed,⟨now,hupdate⟩ | hupdate | ⟨date,hupdate⟩⟩
    · have hall := hp
      rw [hstmts] at hall
      obtain ⟨hst,hrest⟩ := List.forall_mem_cons.mp hall
      have hworks (midway : Option Globals) (g : Globals) :
          (∀ st ∈ (p.works midway g rest).program, st.answers = true) ∧
            (p.works midway g rest).handlers = p.handlers := by
        cases midway with
        | none => exact ⟨hrest,rfl⟩
        | some g' => exact ⟨List.forall_mem_cons.mpr ⟨rfl,hrest⟩,rfl⟩
      cases st with
      | importRecord orExit =>
        rw [Process.execStmt]
        split
        · exact hanswers rfl hp hp hhandlers
        · split_ifs
          · exact hanswers rfl hp (List.forall_mem_singleton.mpr rfl) hhandlers
          · exact hanswers rfl hp hrest hhandlers
          · exact hanswers rfl hp (hworks x.midway _).1 ((hworks x.midway _).2 ▸ hhandlers)
      | qsort => exact hanswers rfl hp (hworks x.midway _).1 ((hworks x.midway _).2 ▸ hhandlers)
      | completes g =>
        exact hanswers rfl hp (hworks x.midway g).1 ((hworks x.midway g).2 ▸ hhandlers)
      | exit => exact hanswers rfl hp hp hhandlers
      | _ => cases hst
    · obtain ⟨rfl,rfl⟩ := List.cons.inj (hstmts.symm.trans hupdate)
      refine ⟨⟨hhandlers,.inr ⟨hstack,halarmed,.inr (.inl rfl)⟩⟩,trivial,?_⟩
      simp only [Process.execStmt,Process.pending,hstack,hstmts]
      rfl
    · obtain ⟨rfl,rfl⟩ := List.cons.inj (hstmts.symm.trans hupdate)
      simp only [Process.execStmt,Process.gzopen,hgzopen,if_true]
      refine ⟨⟨hhandlers,.inr ⟨hstack,halarmed,.inr (.inr ⟨_,rfl⟩)⟩⟩,trivial,?_⟩
      simp only [Process.pending,hstack,hstmts]
      rfl
    · obtain ⟨rfl,rfl⟩ := List.cons.inj (hstmts.symm.trans hupdate)
      refine ⟨⟨hhandlers,.inl (List.forall_mem_singleton.mpr rfl)⟩,trivial,?_⟩
      simp only [Process.execStmt,Process.gzclose,Process.pending,hstack,hstmts]
      rfl
  next hstack hstmts => exact ⟨⟨hhandlers,hprogram⟩,trivial,rfl⟩

end Statements

section Simulation

variable {localtime : Int → Tm} {qsort : List HostFlow → List HostFlow} {start : Int}

def Action.time : Action → Int
  | .datagram now _ _ _ | .hangup now | .terminate now | .restart now => now

/-- The clock after the actions of a session, the last one first. -/
def lastTime (start : Int) (as : List Action) : Int := (as.head?.map Action.time).getD start

/-- What the session does when something happens to the processes. -/
def Group.action? (s : Group) (clock : Int) : GroupEvent → Option Action
  | .datagram now stack p sourceIp _ => some (.datagram now stack p sourceIp)
  | .exec none x =>
    match s.main.handlers with
    | .forks :: _ => x.child.map .hangup
    | .exits :: _ => some (.terminate clock)
    | _ => none
  | _ => none

/-- What the session does in a run of the processes, the last action first. -/
def sessionActions (start : Int) : List (Group × GroupEvent) → List Action
  | [] => []
  | (s,a) :: past =>
    (s.action? (lastTime start (sessionActions start past)) a).toList ++ sessionActions start past

/-- Nothing fails, there is no file at the start, a datagram is handled to an end, and signals come
to `main` only, while it waits. -/
def Group.undisturbed (localtime : Int → Tm) (s : Group) : GroupEvent → Bool
  | .datagram now stack p sourceIp fuel =>
    (handleDatagram localtime now stack p sourceIp fuel s.daemon).isFinished
  | .exec none x => x.gzopen && !s.main.failsIn x && x.file.isNone
  | .exec (some _) x => x.gzopen
  | .terminate none | .hangup none => s.main.idle
  | .acceptError | .terminate (some _) | .hangup (some _) => false
  | .connection _ | .alarm _ => true

/-- The table of the file, under its date. -/
def Written.IsOf (w : Written) (f : SavedFile) : Prop :=
  w.date = f.date ∧ ∃ g : Globals, f.contents = exportRecordBy zlibLength g ∧ w.table = g.savedTable

/-- Where `main` is, when the session is at `t`. -/
inductive Group.MainAt (localtime : Int → Tm) (s : Group) (t : Session) : Prop
  | between : s.main.live → s.main.alarmed = false → s.main.inLoop → s.main.program = [] →
    s.main.handlers ∈ [[],[.update],[.forks],[.exits]] → t.running → s.daemon = t.daemon →
      Group.MainAt localtime s t
  | onWay : s.main.live → s.main.alarmed = false → s.main.handlers = [] → t.running →
    Leads localtime t.daemon s.main.program s.main.globals → Group.MainAt localtime s t
  | ended {h : Handler} : s.main.alarmed = false → s.main.program = [] → s.main.handlers = [h] →
    h.ends → t.running = false → Group.MainAt localtime s t

/-- The processes have come as far as the session. -/
structure Group.Refines (localtime : Int → Tm) (start : Int) (past : List (Group × GroupEvent))
    (s : Group) (pastSession : List (Session × Action)) (t : Session) : Prop where
  run : Run zlibLength localtime pastSession t
  actions : pastSession.map Prod.snd = sessionActions start past
  clock : t.clock = lastTime start (sessionActions start past)
  main : s.MainAt localtime t
  children : ∀ p ∈ s.children, p.Harmless
  files : ∃ ws, List.Forall₂ Written.IsOf ws t.files ∧
    ws.Perm (s.pending localtime ++ s.written)
  asked : ∀ u q, (u,.connection q) ∈ past →
    ∃ v ∈ t :: pastSession.map Prod.fst, u.daemon = v.daemon

variable {past : List (Group × GroupEvent)} {s s' : Group} {pastSession : List (Session × Action)}
  {t t' : Session} {a : GroupEvent} {x : Answers} {p : Process}

/-- `main` waits only between two datagrams of the session. -/
private theorem Group.MainAt.idle (h : s.MainAt localtime t) (hidle : s.main.idle) :
    s.main.live ∧ s.main.alarmed = false ∧ s.main.inLoop ∧ s.main.program = [] ∧
      s.main.handlers = [] ∧ t.running ∧ s.daemon = t.daemon := by
  obtain ⟨hlive,hhandlers,hprogram⟩ := Process.idle_cases hidle
  cases h with
  | between _ halarmed hloop _ _ hrunning hdaemon =>
    exact ⟨hlive,halarmed,hloop,hprogram,hhandlers,hrunning,hdaemon⟩
  | onWay _ _ _ _ hleads =>
    rw [hprogram] at hleads
    cases hleads
  | ended _ _ hleft =>
    rw [hhandlers] at hleft
    cases hleft

private theorem Group.Refines.stutter (h : s.Refines localtime start past pastSession t)
    (hnone : s.action? t.clock a = none) (hmain : s'.MainAt localtime t)
    (hchildren : ∀ p ∈ s'.children, p.Harmless)
    (hfiles : (s'.pending localtime ++ s'.written).Perm (s.pending localtime ++ s.written))
    (hasked : ∀ q, a = .connection q → s.main.idle) :
    s'.Refines localtime start ((s,a) :: past) pastSession t := by
  have hactions : sessionActions start ((s,a) :: past) = sessionActions start past := by
    rw [sessionActions,← h.clock,hnone]
    rfl
  obtain ⟨ws,hws,hperm⟩ := h.files
  refine ⟨h.run,h.actions.trans hactions.symm,hactions ▸ h.clock,hmain,hchildren,
    ⟨ws,hws,hperm.trans hfiles.symm⟩,fun u q hu => ?_⟩
  rcases List.mem_cons.mp hu with hu | hu
  · obtain ⟨rfl,ha⟩ := Prod.mk.inj hu
    exact ⟨t,List.mem_cons_self,(h.main.idle (hasked q ha.symm)).2.2.2.2.2.2⟩
  · exact h.asked u q hu

private theorem Group.Refines.advance (h : s.Refines localtime start past pastSession t)
    {act : Action} (hact : s.action? t.clock a = some act) (hstep : Step zlibLength localtime t act t')
    (hclock : t'.clock = act.time) (hmain : s'.MainAt localtime t')
    (hchildren : ∀ p ∈ s'.children, p.Harmless) {new : List Written} {files : List SavedFile}
    (hnew : List.Forall₂ Written.IsOf new files) (htfiles : t'.files = files ++ t.files)
    (hfiles : (s'.pending localtime ++ s'.written).Perm
      (new ++ (s.pending localtime ++ s.written))) (hasked : ∀ q, a ≠ .connection q) :
    s'.Refines localtime start ((s,a) :: past) ((t,act) :: pastSession) t' := by
  have hactions : sessionActions start ((s,a) :: past) = act :: sessionActions start past := by
    rw [sessionActions,← h.clock,hact]
    rfl
  obtain ⟨ws,hws,hperm⟩ := h.files
  refine ⟨h.run.step hstep,?_,?_,hmain,hchildren,⟨new ++ ws,?_,?_⟩,fun u q hu => ?_⟩
  · rw [List.map_cons,h.actions,hactions]
  · rw [hactions,hclock]
    rfl
  · exact htfiles ▸ List.rel_append hnew hws
  · exact (hperm.append_left new).trans hfiles.symm
  · rcases List.mem_cons.mp hu with hu | hu
    · exact absurd (Prod.mk.inj hu).2.symm (hasked q)
    · obtain ⟨v,hv,hdaemon⟩ := h.asked u q hu
      exact ⟨v,List.mem_cons_of_mem t' hv,hdaemon⟩

private theorem Group.Refines.onMain (h : s.Refines localtime start past pastSession t)
    (hnone : s.action? t.clock (.exec none x) = none) {p : Process} {effect : Effect}
    (hquiet : effect.Quiet)
    (hpending : effect.files ++ p.pending localtime = s.main.pending localtime)
    (hmain : ((s.put none p).record effect).MainAt localtime t) :
    ((s.put none p).record effect).Refines localtime start ((s,.exec none x) :: past) pastSession
      t := by
  obtain ⟨disk,hrecord⟩ := hquiet.record_eq (s.put none p)
  have hchildren : ((s.put none p).record effect).children = s.children := by
    rw [hrecord]
    rfl
  refine h.stutter hnone hmain (hchildren ▸ h.children) ?_ nofun
  rw [hrecord]
  change ((p.pending localtime ++ s.children.flatMap (Process.pending localtime)) ++
    (effect.files ++ s.written)).Perm
      ((s.main.pending localtime ++ s.children.flatMap (Process.pending localtime)) ++ s.written)
  rw [← hpending,← List.append_assoc]
  apply List.Perm.append_right
  rw [List.append_assoc effect.files]
  exact List.perm_append_comm

/-- `main` forks for a hangup: the session has the file of the child at once. -/
private theorem Group.Refines.forks (h : s.Refines localtime start past pastSession t)
    (hlive : s.main.live) (halarmed : s.main.alarmed = false) (hloop : s.main.inLoop)
    (hprogram : s.main.program = []) (hhandlers : s.main.handlers = [.forks])
    (hrunning : t.running) (hdaemon : s.daemon = t.daemon) {now : Int}
    (hchild : x.child = some now) (htime : t.clock ≤ now) :
    ∃ t', ((s.put none { s.main with handlers := [] }).record
        (.forks (s.main.updater now))).Refines localtime start ((s,.exec none x) :: past)
          ((t,.hangup now) :: pastSession) t' := by
  have hact : s.action? t.clock (.exec none x) = some (.hangup now) := by
    simp [Group.action?,hhandlers,hchild]
  refine ⟨_,h.advance hact (.hangup hrunning htime) rfl
    (.between hlive halarmed hloop hprogram (by simp [Group.record,Group.put]) hrunning hdaemon) ?_
    (.cons (a := ⟨(localtime now).date,s.main.globals.savedTable⟩) ?_ .nil) rfl ?_ nofun⟩
  · intro p hp
    rcases List.mem_append.mp hp with hp | hp
    · exact h.children p hp
    · rw [List.mem_singleton.mp hp]
      exact ⟨fun _ hnone => absurd hnone List.not_mem_nil,.inr ⟨rfl,rfl,.inl ⟨now,rfl⟩⟩⟩
  · refine ⟨rfl,t.daemon.globals,rfl,?_⟩
    rw [← hdaemon]
    rfl
  · have hmain : Process.pending localtime { s.main with handlers := [] } =
        s.main.pending localtime := by
      rw [Process.pending,Process.pending,hhandlers]
      rfl
    change ((Process.pending localtime { s.main with handlers := [] } ++
        (s.children ++ [s.main.updater now]).flatMap (Process.pending localtime)) ++
          s.written).Perm
      ([⟨(localtime now).date,s.main.globals.savedTable⟩] ++ (s.pending localtime ++ s.written))
    rw [hmain,List.flatMap_append,← List.append_assoc,← List.append_assoc]
    exact List.perm_append_comm.append_right _

/-- `main` begins to export at its end. -/
private theorem Group.Refines.exits (h : s.Refines localtime start past pastSession t)
    (halarmed : s.main.alarmed = false) (hprogram : s.main.program = [])
    (hhandlers : s.main.handlers = [.exits]) (hrunning : t.running)
    (hdaemon : s.daemon = t.daemon) :
    ∃ t', ((s.put none { s.main with handlers := [.gzclose s.main.globals.localtm.date] }).record
        (.opens s.main.globals.localtm.date)).Refines localtime start
          ((s,.exec none x) :: past) ((t,.terminate t.clock) :: pastSession) t' := by
  have hact : s.action? t.clock (.exec none x) = some (.terminate t.clock) := by
    simp [Group.action?,hhandlers]
  refine ⟨_,h.advance hact (.terminate hrunning le_rfl) rfl
    (.ended (h := .gzclose s.main.globals.localtm.date) halarmed hprogram rfl rfl rfl) h.children
    (.cons (a := ⟨s.main.globals.localtm.date,s.main.globals.savedTable⟩) ⟨?_,t.daemon.globals,rfl,?_⟩
      .nil) rfl ?_ nofun⟩
  · change s.main.globals.localtm.date = t.daemon.globals.localtm.date
    rw [← hdaemon]
    rfl
  · rw [← hdaemon]
    rfl
  · have hnil : s.main.pending localtime = [] := by
      rw [Process.pending,hhandlers,hprogram]
      rfl
    rw [Group.pending,Group.pending,hnil]
    simp only [Group.record,Group.put,Process.pending,hprogram]
    exact .refl _

private theorem Group.Refines.execMain (h : s.Refines localtime start past pastSession t)
    (hgzopen : x.gzopen) (hfails : s.main.failsIn x = false)
    (hfile : x.file = none)
    (htime : ∀ act, s.action? t.clock (.exec none x) = some act → t.clock ≤ act.time) :
    ∃ pastSession' t', ((s.put none (s.main.exec localtime qsort x).1).record
      (s.main.exec localtime qsort x).2).Refines localtime start ((s,.exec none x) :: past)
        pastSession' t' := by
  -- a handler that has nothing open writes nothing
  have hsame {handlers handlers' : List Handler} {whitelist : Whitelist}
      (hhandlers : s.main.handlers = handlers)
      (hnone : handlers.flatMap (Handler.writes s.main.globals) =
        handlers'.flatMap (Handler.writes s.main.globals)) :
      Process.pending localtime { s.main with whitelist := whitelist, handlers := handlers' } =
        s.main.pending localtime := by
    rw [Process.pending,Process.pending,hhandlers,hnone]
  cases h.main with
  | between hlive halarmed hloop hprogram hhandlers hrunning hdaemon =>
    simp only [List.mem_cons,List.not_mem_nil,or_false] at hhandlers
    rcases hhandlers with hhandlers | hhandlers | hhandlers | hhandlers
    · have hexec : s.main.exec localtime qsort x = (s.main,.none) := by
        rw [Process.exec,hhandlers,hprogram]
      rw [hexec]
      exact ⟨pastSession,t,h.onMain (by simp [Group.action?,hhandlers]) trivial rfl h.main⟩
    · have hconfig : x.config ≠ none := by
        intro hnone
        simp [Process.failsIn,hhandlers,hnone] at hfails
      obtain ⟨⟨ret,whitelist⟩,hload⟩ := Option.ne_none_iff_exists'.mp
        (mt loadWhitelist_eq_none_iff.mp hconfig)
      have hexec : s.main.exec localtime qsort x =
          ({ s.main with whitelist := whitelist, handlers := [.forks] },.none) := by
        simp only [Process.exec,hhandlers,Process.execHandler]
        rw [hload]
      rw [hexec]
      exact ⟨pastSession,t,h.onMain (by simp [Group.action?,hhandlers]) trivial
        (hsame hhandlers rfl)
        (.between hlive halarmed hloop hprogram (by simp [Group.record,Group.put]) hrunning hdaemon)⟩
    · cases hchild : x.child with
      | none =>
        have hexec : s.main.exec localtime qsort x = ({ s.main with handlers := [] },.none) := by
          simp only [Process.exec,hhandlers,Process.execHandler,hchild]
        rw [hexec]
        exact ⟨pastSession,t,h.onMain (by simp [Group.action?,hhandlers,hchild]) trivial
          (hsame hhandlers rfl)
          (.between hlive halarmed hloop hprogram (by simp [Group.record,Group.put]) hrunning
            hdaemon)⟩
      | some now =>
        have hexec : s.main.exec localtime qsort x =
            ({ s.main with handlers := [] },.forks (s.main.updater now)) := by
          simp only [Process.exec,hhandlers,Process.execHandler,hchild]
        rw [hexec]
        exact ⟨_,h.forks hlive halarmed hloop hprogram hhandlers hrunning hdaemon hchild
          (htime (.hangup now) (by simp [Group.action?,hhandlers,hchild]))⟩
    · have hexec : s.main.exec localtime qsort x =
          ({ s.main with handlers := [.gzclose s.main.globals.localtm.date] },
            .opens s.main.globals.localtm.date) := by
        simp only [Process.exec,hhandlers,Process.execHandler,hloop,if_true,Process.gzopen,hgzopen]
      rw [hexec]
      exact ⟨_,h.exits halarmed hprogram hhandlers hrunning hdaemon⟩
  | onWay hlive halarmed hhandlers hrunning hleads =>
    have hnone : s.action? t.clock (.exec none x) = none := by simp [Group.action?,hhandlers]
    generalize hprogram : s.main.program = program at hleads
    cases hleads with
    | @returns d' _ hdaemon =>
      have hexec : s.main.exec localtime qsort x =
          ({ s.main with program := [], inLoop := true, settled := true },
            .returns d' s.main.globals.savedTable) := by
        rw [Process.exec,hhandlers,hprogram]
        rfl
      rw [hexec]
      refine ⟨pastSession,t,h.stutter hnone ?_ h.children ?_ (fun _ hasked => by cases hasked)⟩
      · exact .between hlive halarmed rfl rfl (by simp [Group.record,Group.put,hhandlers]) hrunning
          hdaemon
      · have hpending : s.main.pending localtime = [] := by
          rw [Process.pending,hhandlers,hprogram]
          rfl
        rw [Group.pending,Group.pending,hpending]
        simp only [Group.record,Group.put,Process.pending,hhandlers]
        exact .refl _
    | @next st rest _ hst hrest =>
      obtain ⟨g,program,settled,exported,effect,hexec,hleads,hquiet,hfiles⟩ :=
        exec_onWay localtime qsort hst hgzopen hfile s.main hrest
      obtain ⟨disk,hrecord⟩ := hquiet.record_eq (s.put none { s.main with
        globals := g, program := program, settled := settled, exported := exported })
      rw [Process.exec,hhandlers,hprogram]
      simp only [hexec]
      refine ⟨pastSession,t,h.onMain hnone hquiet ?_ ?_⟩
      · simp only [Process.pending,hhandlers,hprogram]
        exact hfiles
      · rw [hrecord]
        exact .onWay hlive halarmed hhandlers hrunning hleads
  | @ended handler halarmed hprogram hhandlers hends hrunning =>
    cases handler with
    | gzclose date =>
      have hexec : s.main.exec localtime qsort x = ({ s.main with
          handlers := [.frees]
          exported := true },.writes ⟨date,s.main.globals.savedTable⟩) := by
        simp only [Process.exec,hhandlers,Process.execHandler,Process.gzclose]
      rw [hexec]
      refine ⟨pastSession,t,h.onMain (by simp [Group.action?,hhandlers]) trivial ?_
        (.ended halarmed hprogram rfl rfl hrunning)⟩
      simp only [Process.pending,hhandlers]
      rfl
    | frees =>
      have hexec : s.main.exec localtime qsort x = ({ s.main with
          globals := { s.main.globals with ipTable := [] }
          handlers := [.leaves]
          settled := false },.none) := by
        simp only [Process.exec,hhandlers,Process.execHandler]
      rw [hexec]
      refine ⟨pastSession,t,h.onMain (by simp [Group.action?,hhandlers]) trivial ?_
        (.ended halarmed hprogram rfl rfl hrunning)⟩
      simp only [Process.pending,hhandlers,hprogram]
      rfl
    | leaves =>
      have hexec : s.main.exec localtime qsort x = (s.main.dies,.none) := by
        simp only [Process.exec,hhandlers,Process.execHandler]
      rw [hexec]
      exact ⟨pastSession,t,h.onMain (by simp [Group.action?,hhandlers]) trivial rfl
        (.ended halarmed hprogram hhandlers rfl hrunning)⟩
    | exits | update | forks => cases hends

private theorem pending_set {children : List Process} {k : Nat} {p p' : Process}
    (hk : children[k]? = some p) {new : List Written}
    (hp : new ++ p'.pending localtime = p.pending localtime) :
    (new ++ (children.set k p').flatMap (Process.pending localtime)).Perm
      (children.flatMap (Process.pending localtime)) := by
  induction children generalizing k with
  | nil => cases hk
  | cons q children ih =>
    cases k with
    | zero =>
      obtain rfl := Option.some.inj hk
      rw [List.set_cons_zero,List.flatMap_cons,List.flatMap_cons,← List.append_assoc,hp]
    | succ k =>
      rw [List.set_cons_succ,List.flatMap_cons,List.flatMap_cons]
      refine List.Perm.trans ?_ ((ih hk).append_left _)
      rw [← List.append_assoc,← List.append_assoc]
      exact List.perm_append_comm.append_right _

private theorem Group.MainAt.congr (h : s.MainAt localtime t) (hmain : s'.main = s.main)
    (hdecoder : s'.decoder = s.decoder) : s'.MainAt localtime t := by
  have hsame : s'.daemon = s.daemon := by rw [Group.daemon,Group.daemon,hmain,hdecoder]
  cases h with
  | between hlive halarmed hloop hprogram hhandlers hrunning hdaemon =>
    rw [← hmain] at hlive halarmed hloop hprogram hhandlers
    exact .between hlive halarmed hloop hprogram hhandlers hrunning (hsame.trans hdaemon)
  | onWay hlive halarmed hhandlers hrunning hleads =>
    rw [← hmain] at hlive halarmed hhandlers hleads
    exact .onWay hlive halarmed hhandlers hrunning hleads
  | ended halarmed hprogram hhandlers hends hrunning =>
    rw [← hmain] at halarmed hprogram hhandlers
    exact .ended halarmed hprogram hhandlers hends hrunning

private theorem Group.Refines.onChild (h : s.Refines localtime start past pastSession t) {k : Nat}
    (hp : s.children[k]? = some p) (hnone : s.action? t.clock a = none)
    (hasked : ∀ q, a ≠ .connection q) {p' : Process}
    {effect : Effect} (hharmless : p'.Harmless) (hquiet : effect.Quiet)
    (hpending : effect.files ++ p'.pending localtime = p.pending localtime) :
    ((s.put (some k) p').record effect).Refines localtime start ((s,a) :: past) pastSession t := by
  obtain ⟨disk,hrecord⟩ := hquiet.record_eq (s.put (some k) p')
  rw [hrecord]
  refine h.stutter hnone (h.main.congr rfl rfl) ?_ ?_ fun q hq => absurd hq (hasked q)
  · intro q hq
    rcases List.mem_or_eq_of_mem_set hq with hq | rfl
    · exact h.children q hq
    · exact hharmless
  · change ((s.main.pending localtime ++ (s.children.set k p').flatMap (Process.pending localtime)) ++
      (effect.files ++ s.written)).Perm
        ((s.main.pending localtime ++ s.children.flatMap (Process.pending localtime)) ++ s.written)
    rw [List.append_assoc,← List.append_assoc _ _ s.written,List.append_assoc (s.main.pending _)]
    apply List.Perm.append_left
    exact (List.perm_append_comm.trans (pending_set hp hpending)).append_right _

/-- The session has taken a datagram when `main` begins with it. -/
private theorem Group.Refines.datagram (h : s.Refines localtime start past pastSession t)
    (hidle : s.main.idle) {now : Int} {stack : Nat → U32} {q : Packet} {sourceIp : InAddr}
    {fuel : Nat} {d' : Daemon} (htime : t.clock ≤ now)
    (hend : handleDatagram localtime now stack q sourceIp fuel s.daemon = .finished d') :
    ∃ t', Group.Refines localtime start ((s,.datagram now stack q sourceIp fuel) :: past)
      { s with main :=
        { s.main with program := datagramProgram localtime now stack q sourceIp fuel s.daemon } }
      ((t,.datagram now stack q sourceIp) :: pastSession) t' := by
  obtain ⟨hlive,halarmed,-,hprogram,hhandlers,hrunning,hdaemon⟩ := h.main.idle hidle
  have hends : Ends (handleDatagram localtime now stack q sourceIp) t.daemon d' :=
    ⟨fuel,hdaemon ▸ hend⟩
  have hnew : List.Forall₂ Written.IsOf
      (if s.daemon.RollsOver localtime now then
        [⟨(localtime (now - 86400)).date,s.daemon.globals.savedTable⟩] else [])
      (if s.daemon.RollsOver localtime now then [t.saved zlibLength (localtime (now - 86400)).date]
        else []) := by
    split_ifs
    · exact .cons ⟨rfl,t.daemon.globals,rfl,hdaemon ▸ rfl⟩ .nil
    · exact .nil
  refine ⟨_,h.advance (a := .datagram now stack q sourceIp fuel) rfl
    (.datagram hrunning htime hends) rfl (.onWay hlive halarmed hhandlers hrunning
      (leads_datagram hend)) h.children hnew ?_ ?_ nofun⟩
  · rw [Session.afterDatagram,hdaemon]
    split_ifs <;> rfl
  · have hwrites := datagram_writes hend
    have hnil : s.main.pending localtime = [] := by
      rw [Process.pending,hhandlers,hprogram]
      rfl
    have hmain : Process.pending localtime { s.main with
        program := datagramProgram localtime now stack q sourceIp fuel s.daemon } =
          programWrites localtime (datagramProgram localtime now stack q sourceIp fuel s.daemon)
            s.daemon.globals := by
      simp only [Process.pending,hhandlers]
      rfl
    rw [Group.pending,Group.pending,hnil,hmain,hwrites,List.append_assoc]
    exact .refl _

private theorem Group.Refines.connection (h : s.Refines localtime start past pastSession t)
    (hidle : s.main.idle) (q : Query) :
    Group.Refines localtime start ((s,.connection q) :: past)
      { s with children := s.children ++ [s.main.queryChild q] } pastSession t := by
  obtain ⟨hlive,halarmed,hloop,hprogram,hhandlers,hrunning,hdaemon⟩ := h.main.idle hidle
  have hanswers : ∀ st ∈ (s.main.queryChild q).program, st.answers = true := by
    intro st hst
    simp only [Process.queryChild,Query.program,List.mem_append,List.mem_singleton] at hst
    rcases hst with (hst | hst) | rfl
    · split_ifs at hst
      · exact List.mem_singleton.mp hst ▸ rfl
      · cases hst
    · split_ifs at hst
      · exact List.mem_singleton.mp hst ▸ rfl
      · cases hst
    · rfl
  have hleft : ∀ h ∈ (s.main.queryChild q).handlers, h = .frees ∨ h = .leaves := by
    rw [Process.queryChild,hhandlers]
    exact fun _ hnone => absurd hnone List.not_mem_nil
  refine h.stutter rfl
    (.between hlive halarmed hloop hprogram (by simp [hhandlers]) hrunning hdaemon) ?_ ?_
    fun _ _ => hidle
  · intro p hp
    rcases List.mem_append.mp hp with hp | hp
    · exact h.children p hp
    · exact List.mem_singleton.mp hp ▸ ⟨hleft,.inl hanswers⟩
  · rw [Group.pending,List.flatMap_append,List.flatMap_singleton,
      pending_of_answers hleft hanswers,List.append_nil]
    exact .refl _

private theorem Group.Refines.signal (h : s.Refines localtime start past pastSession t)
    (hidle : s.main.idle) (hnone : s.action? t.clock a = none) {handler : Handler}
    (hhandler : [handler] ∈ [[],[.update],[.forks],[.exits]]) :
    (s.put none { s.main with handlers := handler :: s.main.handlers }).Refines localtime start
      ((s,a) :: past) pastSession t := by
  obtain ⟨hlive,halarmed,hloop,hprogram,hhandlers,hrunning,hdaemon⟩ := h.main.idle hidle
  refine h.stutter hnone ?_ h.children ?_ fun _ _ => hidle
  · exact .between hlive halarmed hloop hprogram
      (by simpa only [Group.put,hhandlers] using hhandler) hrunning hdaemon
  · have hwrites : handler.writes s.main.globals = [] := by
      simp only [List.mem_cons,List.cons.injEq,and_true,List.not_mem_nil,or_false] at hhandler
      rcases hhandler with hhandler | rfl | rfl | rfl
      · cases hhandler
      · rfl
      · rfl
      · rfl
    have hmain : Process.pending localtime
        { s.main with handlers := handler :: s.main.handlers } = s.main.pending localtime := by
      simp only [Process.pending,List.flatMap_cons,hwrites,List.nil_append]
    rw [Group.pending,Group.pending,Group.put,hmain]

private theorem Group.Refines.alarm (h : s.Refines localtime start past pastSession t) {pid : Pid}
    (hp : s.process? pid = some p) (halarmed : p.alarmed) :
    (s.put pid { p with handlers := .frees :: p.handlers }).Refines localtime start
      ((s,.alarm pid) :: past) pastSession t := by
  cases pid with
  | none =>
    obtain rfl := Option.some.inj hp
    have hnot : s.main.alarmed = false := by
      cases h.main with
      | between _ hnot | onWay _ hnot | ended hnot => exact hnot
    rw [hnot] at halarmed
    cases halarmed
  | some k =>
    have hharmless := h.children p (List.mem_of_getElem? hp)
    have hanswers : ∀ st ∈ p.program, st.answers = true := by
      refine hharmless.program.resolve_right fun hupdate => ?_
      rw [hupdate.2.1] at halarmed
      cases halarmed
    exact h.onChild (a := .alarm (some k)) hp rfl nofun
      (show Process.Harmless { p with handlers := .frees :: p.handlers } from
        ⟨List.forall_mem_cons.mpr ⟨.inl rfl,hharmless.handlers⟩,.inl hanswers⟩)
      (show Effect.Quiet .none from trivial) rfl

/-- Something happens to the processes, and the session keeps up. -/
private theorem Group.Refines.step (h : s.Refines localtime start past pastSession t)
    (hcond : s.undisturbed localtime a)
    (htime : ∀ act, s.action? t.clock a = some act → t.clock ≤ act.time)
    (hs : s.step localtime qsort a = some s') :
    ∃ pastSession' t', s'.Refines localtime start ((s,a) :: past) pastSession' t' := by
  cases Group.step_cases hs with
  | datagram hidle => exact ⟨_,h.datagram hidle (htime _ rfl) (Outcome.eq_finished_state hcond)⟩
  | @connection q hidle => exact ⟨pastSession,t,h.connection hidle q⟩
  | acceptError => cases hcond
  | @exec pid p x hp hlive =>
    cases pid with
    | none =>
      obtain rfl := Option.some.inj hp
      simp only [Group.undisturbed,Bool.and_eq_true,Bool.not_eq_true',Option.isNone_iff_eq_none]
        at hcond
      exact h.execMain hcond.1.1 hcond.1.2 hcond.2 htime
    | some k =>
      obtain ⟨hharmless,hquiet,hpending⟩ :=
        (h.children p (List.mem_of_getElem? hp)).exec localtime qsort hcond
      exact ⟨pastSession,t,h.onChild (a := .exec (some k) x) hp rfl nofun hharmless hquiet hpending⟩
  | @terminate pid p hp | @hangup pid p hp =>
    cases pid with
    | none =>
      obtain rfl := Option.some.inj hp
      exact ⟨pastSession,t,h.signal hcond rfl (by simp)⟩
    | some k => cases hcond
  | alarm hp _ halarmed => exact ⟨pastSession,t,h.alarm hp halarmed⟩

private theorem lastTime_mem (start : Int) (as : List Action) :
    lastTime start as ∈ as.map Action.time ++ [start] := by
  cases as with
  | nil => exact List.mem_singleton_self start
  | cons act as => exact List.mem_cons_self

private theorem times_tail
    (h : ((sessionActions start ((s,a) :: past)).map Action.time ++ [start]).Pairwise (· ≥ ·)) :
    (∀ act, s.action? (lastTime start (sessionActions start past)) a = some act →
      lastTime start (sessionActions start past) ≤ act.time) ∧
    ((sessionActions start past).map Action.time ++ [start]).Pairwise (· ≥ ·) := by
  rw [sessionActions] at h
  cases hact : s.action? (lastTime start (sessionActions start past)) a with
  | none =>
    rw [hact] at h
    exact ⟨nofun,h⟩
  | some act =>
    rw [hact] at h
    obtain ⟨hfirst,hrest⟩ := List.pairwise_cons.mp h
    refine ⟨fun act' heq => ?_,hrest⟩
    rw [← Option.some.inj heq]
    exact hfirst _ (lastTime_mem start _)

/-- In a run in which nothing fails and signals come to `main` only, while it waits, the processes
do what a session does: where `main` waits it has the daemon of the session, connections are
answered from states of the session, and the files that are written, or about to be, are those of
the session. -/
theorem processes_refine_session {networks : List StatedEntry} {g : Globals} {stack : Nat → U32}
    {whitelist : Whitelist} (hg : Booted networks g)
    (h : History (· = Group.start localtime start stack whitelist g)
      (fun s a s' => s.step localtime qsort a = some s') past s)
    (hcond : ∀ t ∈ past, t.1.undisturbed localtime t.2)
    (htimes : ((sessionActions start past).map Action.time ++ [start]).Pairwise (· ≥ ·)) :
    ∃ pastSession t, Run zlibLength localtime pastSession t ∧
      pastSession.map Prod.snd = sessionActions start past ∧
      (s.main.idle → t.running ∧ s.daemon = t.daemon) ∧
      (s.main.live = false → t.running = false) ∧
      (∀ u q, (u,.connection q) ∈ past →
        ∃ v ∈ t :: pastSession.map Prod.fst, u.daemon = v.daemon) ∧
      ∃ ws, List.Forall₂ Written.IsOf ws t.files ∧ ws.Perm (s.pending localtime ++ s.written) := by
  have hrefines : ∃ pastSession t, s.Refines localtime start past pastSession t := by
    induction h with
    | start hs =>
      subst hs
      let first : Session := ⟨startup localtime start stack g,start,[],[],true⟩
      have hmain : (Group.start localtime start stack whitelist g).MainAt localtime first :=
        .onWay rfl rfl rfl rfl (.next rfl (.returns rfl))
      exact ⟨[],first,.start hg,rfl,rfl,hmain,nofun,⟨[],.nil,.refl _⟩,nofun⟩
    | @step past s s' a _ hs ih =>
      obtain ⟨ha,hpast⟩ := List.forall_mem_cons.mp hcond
      obtain ⟨htime,hrest⟩ := times_tail htimes
      obtain ⟨pastSession,t,hrefines⟩ := ih hpast hrest
      exact hrefines.step ha (hrefines.clock ▸ htime) hs
  obtain ⟨pastSession,t,hrefines⟩ := hrefines
  refine ⟨pastSession,t,hrefines.run,hrefines.actions,?_,?_,hrefines.asked,hrefines.files⟩
  · intro hidle
    obtain ⟨-,-,-,-,-,hrunning,hdaemon⟩ := hrefines.main.idle hidle
    exact ⟨hrunning,hdaemon⟩
  · intro hdead
    cases hrefines.main with
    | between hlive | onWay hlive => exact absurd (hlive.symm.trans hdead) (by decide)
    | ended _ _ _ _ hrunning => exact hrunning

/-- A configuration without a list is reloaded, and a child reads the time. -/
def Answers.reloaded : Answers :=
  { Answers.granted with
    config := some (.object [])
    child := some 1340000300 }

/-- A datagram, a connection whose child sorts its table, a hangup and the end, in which `main`
exports before the child does. -/
def overtakenChild : List GroupEvent :=
  firstDatagram ++
    [.connection ⟨false,true⟩,.exec (some 0) .granted,.hangup none,.exec none .reloaded,
      .exec none .reloaded,.terminate none,.exec none .granted,.exec none .granted,
      .exec none .granted,.exec none .granted,.exec (some 0) .granted,.exec (some 1) .granted,
      .exec (some 1) .granted,.exec (some 1) .granted]

theorem processes_refine_session_overtaken :
    ∃ (past : List (Group × GroupEvent)) (s : Group) (pastSession : List (Session × Action))
      (t : Session), s.main.live = false ∧ s.written.length = 2 ∧ s.pending utcJune = [] ∧
      Run zlibLength utcJune pastSession t ∧
      pastSession.map Prod.snd = sessionActions 1340000000 past ∧ t.running = false ∧
      ∃ ws, List.Forall₂ Written.IsOf ws t.files ∧ ws.Perm s.written := by
  have hrun : History (· = twoSubnetStart)
      (fun s a s' => Group.step utcJune insertionQsort s a = some s')
      (trailFrom (Group.step utcJune insertionQsort) overtakenChild twoSubnetStart).1
      (trailFrom (Group.step utcJune insertionQsort) overtakenChild twoSubnetStart).2 :=
    @History.trailFrom _ _ (· = twoSubnetStart) _ twoSubnetStart rfl overtakenChild
  have hdead : (trailFrom (Group.step utcJune insertionQsort) overtakenChild
      twoSubnetStart).2.main.live = false := by decide +kernel
  have hpending : ((trailFrom (Group.step utcJune insertionQsort) overtakenChild
      twoSubnetStart).2.pending utcJune).length = 0 := by decide +kernel
  obtain ⟨pastSession,t,ht,hactions,-,hended,-,ws,hws,hperm⟩ := processes_refine_session
    twoSubnet_booted hrun (by decide +kernel) (by decide +kernel)
  rw [List.eq_nil_of_length_eq_zero hpending,List.nil_append] at hperm
  exact ⟨_,_,pastSession,t,hdead,by decide +kernel,List.eq_nil_of_length_eq_zero hpending,ht,
    hactions,hended hdead,ws,hws,hperm⟩

end Simulation

end Flowstatd
