import Flowstatd.Daemon.Days
import Flowstatd.Daemon.Processes
import Flowstatd.Query.PastDate

/-!
# What a signal may write to a file

The handlers export whatever table the process has at the moment. This is a table of `main` between
two datagrams as long as signals reach a process only where it has not begun to change its table.
The file has it as a whole as long as no process ends, and no other opens the file, in the middle of
the export, and one call of the gz library moves the table.
-/

namespace Flowstatd

open Framework

/-- The table is the settled one wherever the program exports it or `main` waits again. -/
def Orderly : Bool → List Stmt → Prop
  | settled, [] => settled
  | settled, st :: rest =>
    match st with
    | .readClock _ => Orderly settled rest
    | .exportRecord _ => settled ∧ Orderly settled rest
    | .gzclose _ => False
    | .returns _ => Orderly true rest
    | .loops | .exit => rest = []
    | .resetTable | .assign _ _ | .importRecord _ | .qsort | .completes _ => Orderly false rest

/-- The same of a program that may be in the middle of an export. -/
def OrderlyNow (settled : Bool) : List Stmt → Prop
  | .gzclose _ :: rest => settled ∧ Orderly settled rest
  | program => Orderly settled program

/-- A handler has interrupted the process on a settled table, unless the process is about to end.
Behind a handler that ends it there is no file open. -/
def OrderlyUnder (settled : Bool) (program : List Stmt) : List Handler → Prop
  | [] => OrderlyNow settled program
  | h :: interrupted =>
    match h with
    | .frees | .leaves => openFiles interrupted program = []
    | .exits | .gzclose _ => settled ∧ openFiles interrupted program = []
    | .update | .forks => settled ∧ OrderlyUnder settled program interrupted

/-- A signal that makes a process export reaches it with a settled table. Where a process ends it
has no file open, and it opens none that another has open. While it has one open, one call of the
gz library moves its table. -/
def Group.exportsWhole (localtime : Int → Tm) (s : Group) : GroupEvent → Bool
  | .terminate pid => (s.process? pid).all fun p => p.settled && p.opened.isEmpty
  | .hangup pid => (s.process? pid).all Process.settled
  | .alarm pid => (s.process? pid).all fun p => p.opened.isEmpty
  | .exec pid x => (s.process? pid).all fun p =>
      (p.opened.isEmpty || !p.failsIn x && hostflowSize * p.globals.savedTable.length < 2 ^ 31) &&
        (!x.gzopen || (p.opening localtime).all fun date => s.writers date == 0)
  | _ => true

section Programs

theorem Orderly.mono {program : List Stmt} (h : Orderly false program) (settled : Bool) :
    Orderly settled program := by
  induction program with
  | nil => exact absurd h (by simp [Orderly])
  | cons st rest ih =>
    cases st with
    | readClock now => exact ih h
    | exportRecord mode => exact absurd h.1 (by decide)
    | gzclose date => exact h.elim
    | _ => exact h

/-- An orderly program is not in the middle of an export. -/
theorem Orderly.closed {settled : Bool} {program : List Stmt} (h : Orderly settled program) :
    program.flatMap Stmt.opened = [] := by
  induction program generalizing settled with
  | nil => rfl
  | cons st rest ih =>
    rw [List.flatMap_cons,List.append_eq_nil_iff]
    cases st with
    | exportRecord mode => exact ⟨rfl,ih h.2⟩
    | gzclose date => exact h.elim
    | loops | exit =>
      obtain rfl : rest = [] := h
      exact ⟨rfl,rfl⟩
    | _ => exact ⟨rfl,ih h⟩

theorem Orderly.now {settled : Bool} {program : List Stmt} (h : Orderly settled program) :
    OrderlyNow settled program := by
  cases program with
  | nil => exact h
  | cons st rest =>
    cases st with
    | gzclose date => exact h.elim
    | _ => exact h

theorem orderly_query (settled : Bool) (q : Query) : Orderly settled q.program := by
  obtain ⟨pastDate,sorts⟩ := q
  cases pastDate <;> cases sorts <;> rfl

private theorem orderly_credits (cs : List Credit) {rest : List Stmt} (h : Orderly false rest) :
    Orderly false (cs.flatMap Credit.statements ++ rest) := by
  induction cs with
  | nil => exact h
  | cons c cs ih =>
    rw [List.flatMap_cons,List.append_assoc]
    exact ih

theorem orderly_datagram (localtime : Int → Tm) (now : Int) (stack : Nat → U32) (p : Packet)
    (sourceIp : InAddr) (fuel : Nat) (d : Daemon) :
    Orderly true (datagramProgram localtime now stack p sourceIp fuel d) := by
  have hlast (o : Outcome Daemon) : Orderly false [lastStmt o] := by
    cases o <;> rfl
  have hcredits := orderly_credits ((receivedLines localtime now d
    (handleDatagram localtime now stack p sourceIp fuel d).state).map LedgerLine.credit)
    (hlast (handleDatagram localtime now stack p sourceIp fuel d))
  simp only [datagramProgram,Orderly]
  split_ifs
  · exact ⟨rfl,hcredits⟩
  · exact hcredits.mono true

end Programs

/-- Where the table of a process is settled, it is one that `main` has had between datagrams. -/
structure Process.Sound (between : List (List HostFlow)) (p : Process) : Prop where
  table : p.settled → p.globals.savedTable ∈ between
  orderly : OrderlyUnder p.settled p.program p.handlers

/-- What an effect adds to the tables between datagrams. -/
def Effect.between (between : List (List HostFlow)) : Effect → List (List HostFlow)
  | .returns _ table => table :: between
  | _ => between

def Effect.Sound (between : List (List HostFlow)) : Effect → Prop
  | .writes file => file.table ∈ between
  | .forks child => child.Sound between
  | _ => True

section Statements

variable {between : List (List HostFlow)} {p : Process} {localtime : Int → Tm}
  {qsort : List HostFlow → List HostFlow} {x : Answers}

theorem Process.Sound.mono {between' : List (List HostFlow)} (h : p.Sound between)
    (hle : between ⊆ between') : p.Sound between' :=
  ⟨fun hsettled => hle (h.table hsettled),h.orderly⟩

/-- The outcome of a statement is sound, in its process and outside. -/
def SoundAfter (between : List (List HostFlow)) (r : Process × Effect) : Prop :=
  r.1.Sound (r.2.between between) ∧ r.2.Sound (r.2.between between)

private theorem sound_gzopen {date : Int × Fin 12 × Nat} {opened : Process} (h : p.Sound between)
    (hopened : opened.Sound between) : SoundAfter between (p.gzopen x date opened) := by
  rw [Process.gzopen]
  split_ifs
  · exact ⟨hopened,trivial⟩
  · exact ⟨⟨h.table,h.orderly⟩,trivial⟩

private theorem sound_gzclose (date : Int × Fin 12 × Nat) (h : p.Sound between)
    (hsettled : p.settled) : SoundAfter between (p.gzclose date) :=
  ⟨⟨h.table,h.orderly⟩,h.table hsettled⟩

private theorem sound_changed {rest : List Stmt} (hhandlers : p.handlers = [])
    (h : Orderly false rest) (g : Globals) : (p.changed g rest).Sound between := by
  refine ⟨fun hsettled => absurd hsettled (by simp [Process.changed]),?_⟩
  simp only [Process.changed,hhandlers]
  exact h.now

private theorem sound_works {rest : List Stmt} (hhandlers : p.handlers = [])
    (h : Orderly false rest) (midway : Option Globals) (g : Globals) :
    SoundAfter between (p.works midway g rest,.none) := by
  refine ⟨?_,trivial⟩
  cases midway with
  | none => exact sound_changed hhandlers h g
  | some g' => exact sound_changed hhandlers (show Orderly false (.completes g :: rest) from h) g'

private theorem sound_execHandler {h : Handler} {interrupted : List Handler} (hp : p.Sound between)
    (hhandlers : p.handlers = h :: interrupted) :
    SoundAfter between (p.execHandler x interrupted h) := by
  obtain ⟨htable,horderly⟩ := hp
  rw [hhandlers] at horderly
  have hdies : SoundAfter between (p.dies,.none) := ⟨⟨htable,hhandlers ▸ horderly⟩,trivial⟩
  cases h with
  | exits =>
    rw [Process.execHandler]
    split_ifs
    · exact sound_gzopen ⟨htable,hhandlers ▸ horderly⟩ ⟨htable,horderly⟩
    · exact hdies
  | gzclose date => exact sound_gzclose date ⟨htable,horderly.2⟩ horderly.1
  | frees =>
    exact ⟨⟨fun hsettled => absurd hsettled (by simp [Process.execHandler]),horderly⟩,trivial⟩
  | leaves => exact hdies
  | update =>
    rw [Process.execHandler]
    split
    · exact hdies
    · exact ⟨⟨htable,horderly⟩,trivial⟩
  | forks =>
    obtain ⟨hsettled,hrest⟩ := horderly
    rw [Process.execHandler]
    refine ⟨?_,?_⟩
    all_goals cases x.child
    · exact ⟨htable,hrest⟩
    · exact ⟨htable,hrest⟩
    · trivial
    · exact ⟨htable,hsettled,rfl⟩

private theorem sound_execStmt {st : Stmt} {rest : List Stmt} (hp : p.Sound between)
    (hhandlers : p.handlers = []) (hprogram : p.program = st :: rest) :
    SoundAfter between (p.execStmt localtime qsort x rest st) := by
  have hsound := hp
  obtain ⟨htable,horderly⟩ := hp
  rw [hhandlers,hprogram] at horderly
  have hdies : SoundAfter between (p.dies,.none) :=
    ⟨⟨hsound.table,hsound.orderly⟩,trivial⟩
  have hsame (rest' : List Stmt) (h : Orderly p.settled rest') (g : Globals)
      (hg : p.settled → g.savedTable ∈ between) :
      SoundAfter between ({ p with globals := g, program := rest' },.none) := by
    refine ⟨⟨hg,?_⟩,trivial⟩
    simp only [hhandlers]
    exact h.now
  cases st with
  | readClock now => exact hsame rest horderly _ htable
  | exportRecord mode =>
    refine sound_gzopen hsound ⟨htable,?_⟩
    simp only [hhandlers]
    exact horderly
  | gzclose date =>
    refine sound_gzclose date ⟨htable,?_⟩ horderly.1
    simp only [hhandlers]
    exact horderly.2.now
  | resetTable => exact ⟨sound_changed hhandlers horderly _,trivial⟩
  | assign slot a => exact ⟨sound_changed hhandlers horderly _,trivial⟩
  | returns d =>
    refine ⟨⟨fun _ => List.mem_cons_self,?_⟩,trivial⟩
    simp only [Process.execStmt,hhandlers]
    exact Orderly.now horderly
  | loops =>
    refine ⟨⟨htable,?_⟩,trivial⟩
    simp only [Process.execStmt,hhandlers,hprogram]
    exact horderly
  | importRecord orExit =>
    rw [Process.execStmt]
    split
    · exact hdies
    · split_ifs
      · exact hsame [.exit] rfl p.globals htable
      · exact hsame rest (Orderly.mono horderly p.settled) p.globals htable
      · exact sound_works hhandlers horderly x.midway _
  | qsort => exact sound_works hhandlers horderly x.midway _
  | completes g => exact sound_works hhandlers horderly x.midway g
  | exit => exact hdies

theorem Process.Sound.exec (h : p.Sound between) :
    SoundAfter between (p.exec localtime qsort x) := by
  rw [Process.exec]
  split
  next handler interrupted hhandlers => exact sound_execHandler h hhandlers
  next st rest hhandlers hprogram => exact sound_execStmt h hhandlers hprogram
  next => exact ⟨h,trivial⟩

end Statements

section OpenFiles

variable {between : List (List HostFlow)} {p : Process} {localtime : Int → Tm}
  {qsort : List HostFlow → List HostFlow} {x : Answers}

/-- How a statement changes which files its process has open. -/
def OpensAsSaid (localtime : Int → Tm) (x : Answers) (p : Process) (r : Process × Effect) : Prop :=
  match r.2 with
  | .opens date =>
    p.opening localtime = some date ∧ x.gzopen ∧ r.1.live = p.live ∧ r.1.opened = date :: p.opened
  | .writes file =>
    r.1.live = p.live ∧ p.opened = file.date :: r.1.opened ∧ file.table = p.globals.savedTable
  | _ => p.opened = [] ∨ r.1.live = p.live ∧ r.1.opened = p.opened

private theorem opens_gzopen {date : Int × Fin 12 × Nat} {opened : Process}
    (hopening : p.opening localtime = some date) (hlive : opened.live = p.live)
    (hopened : opened.opened = date :: p.opened) (hnone : p.opened = []) :
    OpensAsSaid localtime x p (p.gzopen x date opened) := by
  rw [Process.gzopen]
  split_ifs with hgzopen
  · exact ⟨hopening,hgzopen,hlive,hopened⟩
  · exact .inl hnone

private theorem opens_execHandler {h : Handler} {interrupted : List Handler} (hp : p.Sound between)
    (hhandlers : p.handlers = h :: interrupted) (hwhole : p.failsIn x = false ∨ p.opened = []) :
    OpensAsSaid localtime x p (p.execHandler x interrupted h) := by
  have horderly := hp.orderly
  rw [hhandlers] at horderly
  have hopened : p.opened = h.opened ++ openFiles interrupted p.program := by
    rw [Process.opened,openFiles,hhandlers,List.flatMap_cons,List.append_assoc]
    rfl
  cases h with
  | exits =>
    have hnone : p.opened = [] := hopened.trans horderly.2
    rw [Process.execHandler]
    split_ifs with hloop
    · refine opens_gzopen ?_ rfl ?_ hnone
      · simp [Process.opening,hhandlers,hloop]
      · rw [hnone]
        exact congrArg (List.cons _) horderly.2
    · exact .inl hnone
  | gzclose date => exact ⟨rfl,hopened,rfl⟩
  | frees => exact .inr ⟨rfl,hopened.symm⟩
  | leaves => exact .inl (hopened.trans horderly)
  | update =>
    rw [Process.execHandler]
    split
    next hnoJson =>
      refine .inl (hwhole.resolve_left fun hfails => ?_)
      rw [loadWhitelist_eq_none_iff] at hnoJson
      simp [Process.failsIn,hhandlers,hnoJson] at hfails
    next => exact .inr ⟨rfl,hopened.symm⟩
  | forks =>
    rw [Process.execHandler]
    cases x.child <;> exact .inr ⟨rfl,hopened.symm⟩

private theorem opens_works {rest : List Stmt} (h : openFiles p.handlers rest = p.opened)
    (midway : Option Globals) (g : Globals) :
    OpensAsSaid localtime x p (p.works midway g rest,.none) := by
  cases midway with
  | none => exact .inr ⟨rfl,h⟩
  | some g' => exact .inr ⟨rfl,h⟩

private theorem opens_execStmt {st : Stmt} {rest : List Stmt} (hp : p.Sound between)
    (hhandlers : p.handlers = []) (hprogram : p.program = st :: rest) :
    OpensAsSaid localtime x p (p.execStmt localtime qsort x rest st) := by
  have horderly := hp.orderly
  rw [hhandlers,hprogram] at horderly
  have hopened : p.opened = st.opened ++ openFiles p.handlers rest := by
    rw [Process.opened,openFiles,openFiles,hhandlers,hprogram]
    rfl
  have hnone (h : Orderly p.settled (st :: rest)) : p.opened = [] := by
    rw [Process.opened,openFiles,hhandlers,hprogram]
    exact h.closed
  cases st with
  | exportRecord mode =>
    refine opens_gzopen ?_ rfl ?_ (hnone horderly)
    · simp [Process.opening,hhandlers,hprogram]
    · rw [hopened,Process.opened,hhandlers]
      rfl
  | gzclose date => exact ⟨rfl,hopened,rfl⟩
  | importRecord orExit =>
    rw [Process.execStmt]
    split
    · exact .inl (hnone horderly)
    · split_ifs
      · exact .inl (hnone horderly)
      · exact .inr ⟨rfl,hopened.symm⟩
      · exact opens_works hopened.symm x.midway _
  | qsort => exact opens_works hopened.symm x.midway _
  | completes g => exact opens_works hopened.symm x.midway g
  | loops => exact .inl (hnone horderly)
  | exit => exact .inl (hnone horderly)
  | readClock | resetTable | assign | returns => exact .inr ⟨rfl,hopened.symm⟩

private theorem Process.Sound.opens (h : p.Sound between)
    (hwhole : p.failsIn x = false ∨ p.opened = []) :
    OpensAsSaid localtime x p (p.exec localtime qsort x) := by
  rw [Process.exec]
  split
  next handler interrupted hhandlers => exact opens_execHandler h hhandlers hwhole
  next st rest hhandlers hprogram => exact opens_execStmt h hhandlers hprogram
  next => exact .inr ⟨rfl,rfl⟩

end OpenFiles

/-- What holds of the processes and of what has been written. -/
structure Group.Sound (between : List (List HostFlow)) (s : Group) : Prop where
  main : s.main.Sound between
  children : ∀ p ∈ s.children, p.Sound between
  written : ∀ file ∈ s.written, file.table ∈ between

/-- A file that has not been written to, is being written, or has one of these tables. -/
def Contents.From (tables : List (List HostFlow)) (writers : Nat) : Contents → Prop
  | .untouched => True
  | .torn => 0 < writers
  | .table t => t ∈ tables

instance (tables : List (List HostFlow)) (writers : Nat) :
    (c : Contents) → Decidable (c.From tables writers)
  | .untouched => inferInstanceAs (Decidable True)
  | .torn => inferInstanceAs (Decidable (0 < writers))
  | .table t => inferInstanceAs (Decidable (t ∈ tables))

def Group.FileFrom (tables : List (List HostFlow)) (s : Group) (date : Int × Fin 12 × Nat) : Prop :=
  (s.disk date).contents.From tables (s.writers date)

instance (tables : List (List HostFlow)) (s : Group) (date : Int × Fin 12 × Nat) :
    Decidable (s.FileFrom tables date) :=
  inferInstanceAs (Decidable (Contents.From _ _ _))

/-- No two processes have written to one file at once. -/
structure Group.FilesSound (between : List (List HostFlow)) (s : Group) : Prop where
  files : ∀ date, s.FileFrom between date
  unshared : ∀ date, (s.disk date).shared = false

section Groups

variable {localtime : Int → Tm} {qsort : List HostFlow → List HostFlow}
  {between : List (List HostFlow)}

private theorem Group.Sound.process {s : Group} (h : s.Sound between) {pid : Pid} {p : Process}
    (hp : s.process? pid = some p) : p.Sound between := by
  cases pid with
  | none => exact Option.some.inj hp ▸ h.main
  | some k => exact h.children p (List.mem_of_getElem? hp)

private theorem Group.Sound.put {s : Group} (h : s.Sound between) (pid : Pid) {p : Process}
    (hp : p.Sound between) : (s.put pid p).Sound between := by
  cases pid with
  | none => exact ⟨hp,h.children,h.written⟩
  | some k =>
    refine ⟨h.main,fun p' hp' => ?_,h.written⟩
    rcases List.mem_or_eq_of_mem_set hp' with hp' | rfl
    · exact h.children p' hp'
    · exact hp

private theorem Group.Sound.record {s : Group} (h : s.Sound between) {effect : Effect}
    (heffect : effect.Sound between) : (s.record effect).Sound between := by
  obtain ⟨hmain,hchildren,hwritten⟩ := h
  cases effect with
  | none | opens date => exact ⟨hmain,hchildren,hwritten⟩
  | writes file => exact ⟨hmain,hchildren,List.forall_mem_cons.mpr ⟨heffect,hwritten⟩⟩
  | forks child =>
    refine ⟨hmain,fun p hp => ?_,hwritten⟩
    rcases List.mem_append.mp hp with hp | hp
    · exact hchildren p hp
    · exact List.mem_singleton.mp hp ▸ heffect
  | returns d table => exact ⟨hmain,hchildren,hwritten⟩

private theorem record_between (s : Group) (pid : Pid) (r : Process × Effect) :
    ((s.put pid r.1).record r.2).between = r.2.between s.between := by
  obtain ⟨p,effect⟩ := r
  cases effect <;> cases pid <;> rfl

private theorem Effect.between_subset (between : List (List HostFlow)) (effect : Effect) :
    between ⊆ effect.between between := by
  cases effect with
  | returns d table => exact List.subset_cons_self table between
  | _ => exact List.Subset.refl between

private theorem Group.Sound.exec {s : Group} (h : s.Sound s.between) (pid : Pid)
    {r : Process × Effect} (hr : SoundAfter s.between r) :
    ((s.put pid r.1).record r.2).Sound ((s.put pid r.1).record r.2).between := by
  have hle := r.2.between_subset s.between
  have hgrown : s.Sound (r.2.between s.between) :=
    ⟨h.main.mono hle,fun p hp => (h.children p hp).mono hle,
      fun file hfile => hle (h.written file hfile)⟩
  rw [record_between]
  exact (hgrown.put pid hr.1).record hr.2

private theorem Group.put_between (s : Group) (pid : Pid) (p : Process) :
    (s.put pid p).between = s.between := by
  cases pid <;> rfl

private theorem Group.put_disk (s : Group) (pid : Pid) (p : Process) :
    (s.put pid p).disk = s.disk := by
  cases pid <;> rfl

private theorem Group.Sound.signal {s : Group} {pid : Pid} {p : Process} {handler : Handler}
    (h : s.Sound s.between) (hp : s.process? pid = some p)
    (hunder : OrderlyUnder p.settled p.program (handler :: p.handlers)) :
    (s.put pid { p with handlers := handler :: p.handlers }).Sound
      (s.put pid { p with handlers := handler :: p.handlers }).between := by
  rw [Group.put_between]
  exact h.put pid ⟨(h.process hp).table,hunder⟩

private theorem idle_sound {p : Process} (h : p.Sound between)
    (hidle : p.idle) : p.handlers = [] ∧ p.settled ∧ p.opened = [] := by
  obtain ⟨_,hhandlers,hprogram⟩ := p.idle_cases hidle
  have horderly := h.orderly
  rw [hhandlers,hprogram] at horderly
  refine ⟨hhandlers,horderly,?_⟩
  rw [Process.opened,hhandlers,hprogram]
  rfl

private theorem Group.Sound.step {s s' : Group} {a : GroupEvent} (h : s.Sound s.between)
    (hwhole : s.exportsWhole localtime a) (hs : s.step localtime qsort a = some s') :
    s'.Sound s'.between := by
  cases Group.step_cases hs with
  | @datagram now stack p sourceIp fuel hidle =>
    obtain ⟨hhandlers,hmain,-⟩ := idle_sound h.main hidle
    refine ⟨⟨h.main.table,?_⟩,h.children,h.written⟩
    simp only [hhandlers,hmain]
    exact (orderly_datagram localtime now stack p sourceIp fuel s.daemon).now
  | @connection q hidle =>
    refine ⟨h.main,fun p hp => ?_,h.written⟩
    rcases List.mem_append.mp hp with hp | hp
    · exact h.children p hp
    · rw [List.mem_singleton.mp hp]
      refine ⟨h.main.table,?_⟩
      simp only [Process.queryChild,(idle_sound h.main hidle).1]
      exact (orderly_query _ q).now
  | acceptError => exact ⟨⟨h.main.table,h.main.orderly⟩,h.children,h.written⟩
  | @exec pid p x hp => exact h.exec pid (h.process hp).exec
  | terminate hp =>
    simp only [Group.exportsWhole,hp,Option.all_some,Bool.and_eq_true,List.isEmpty_iff] at hwhole
    exact h.signal hp hwhole
  | hangup hp =>
    simp only [Group.exportsWhole,hp,Option.all_some] at hwhole
    exact h.signal hp ⟨hwhole,(h.process hp).orderly⟩
  | alarm hp =>
    simp only [Group.exportsWhole,hp,Option.all_some,List.isEmpty_iff] at hwhole
    exact h.signal hp hwhole

private theorem sum_map_set {l : List Process} {k : Nat} {p : Process} (f : Process → Nat)
    (h : l[k]? = some p) (p' : Process) :
    ((l.set k p').map f).sum + f p = (l.map f).sum + f p' := by
  induction l generalizing k with
  | nil => simp at h
  | cons q l ih =>
    cases k with
    | zero =>
      obtain rfl := Option.some.inj h
      simp only [List.set_cons_zero,List.map_cons,List.sum_cons]
      omega
    | succ k =>
      have hrest := ih h
      simp only [List.set_cons_succ,List.map_cons,List.sum_cons]
      omega

private theorem Group.writers_put {s : Group} {pid : Pid} {p : Process}
    (hp : s.process? pid = some p) (p' : Process) (date : Int × Fin 12 × Nat) :
    (s.put pid p').writers date + p.openCount date = s.writers date + p'.openCount date := by
  cases pid with
  | none =>
    obtain rfl := Option.some.inj hp
    simp only [Group.writers,Group.put]
    omega
  | some k =>
    have hchildren := sum_map_set (fun p => p.openCount date) hp p'
    simp only [Group.writers,Group.put]
    omega

private theorem Group.FileFrom.mono {s s' : Group} {tables tables' : List (List HostFlow)}
    {date : Int × Fin 12 × Nat} (h : s.FileFrom tables date) (hdisk : s'.disk date = s.disk date)
    (hwriters : s.writers date ≤ s'.writers date) (htables : tables ⊆ tables') :
    s'.FileFrom tables' date := by
  rw [Group.FileFrom] at h ⊢
  rw [hdisk]
  cases hcontents : (s.disk date).contents with
  | untouched => trivial
  | torn => exact Nat.lt_of_lt_of_le (hcontents ▸ h : Contents.From _ _ .torn) hwriters
  | table t => exact htables (hcontents ▸ h : Contents.From _ _ (.table t))

private theorem Group.FilesSound.mono {s s' : Group} (h : s.FilesSound s.between)
    (hdisk : s'.disk = s.disk) (hwriters : ∀ date, s.writers date ≤ s'.writers date)
    (hbetween : s.between ⊆ s'.between) : s'.FilesSound s'.between :=
  ⟨fun date => (h.files date).mono (congrFun hdisk date) (hwriters date) hbetween,
    fun date => hdisk ▸ h.unshared date⟩

/-- A signal leaves open what is open. -/
private theorem Group.FilesSound.signal {s : Group} {pid : Pid} {p : Process} {handler : Handler}
    (h : s.FilesSound s.between) (hp : s.process? pid = some p) :
    (s.put pid { p with handlers := handler :: p.handlers }).FilesSound
      (s.put pid { p with handlers := handler :: p.handlers }).between := by
  refine h.mono (s.put_disk pid _) (fun date => ?_) (s.put_between pid _ ▸ List.Subset.refl _)
  have hput := Group.writers_put hp { p with handlers := handler :: p.handlers } date
  have hcount : p.openCount date ≤
      Process.openCount { p with handlers := handler :: p.handlers } date := by
    simp only [Process.openCount,Process.opened,openFiles,List.flatMap_cons,List.append_assoc,
      List.count_append]
    split_ifs <;> omega
  omega

private theorem Group.FilesSound.exec {s : Group} {pid : Pid} {p : Process} {x : Answers}
    {r : Process × Effect} (h : s.FilesSound s.between) (hp : s.process? pid = some p)
    (hlive : p.live) (hopens : OpensAsSaid localtime x p r)
    (hfile : r.2.Sound (r.2.between s.between))
    (hsize : p.opened = [] ∨ hostflowSize * p.globals.savedTable.length < 2 ^ 31)
    (halone : ∀ date, x.gzopen → p.opening localtime = some date → s.writers date = 0) :
    ((s.put pid r.1).record r.2).FilesSound ((s.put pid r.1).record r.2).between := by
  obtain ⟨p',effect⟩ := r
  have hput := Group.writers_put hp p'
  have hdisk := s.put_disk pid p'
  have hkept (hp' : p.opened = [] ∨ p'.live = p.live ∧ p'.opened = p.opened)
      (date : Int × Fin 12 × Nat) : s.writers date ≤ (s.put pid p').writers date := by
    have hcount : p.openCount date ≤ p'.openCount date := by
      rcases hp' with hnone | ⟨hsame,hopened⟩
      · simp [Process.openCount,hnone]
      · rw [Process.openCount,Process.openCount,hsame,hopened]
    have hdate := hput date
    omega
  cases effect with
  | none => exact h.mono hdisk (hkept hopens) (s.put_between pid p' ▸ List.Subset.refl _)
  | returns d table =>
    refine h.mono hdisk (hkept hopens) ?_
    simp only [Group.record,s.put_between]
    exact List.subset_cons_self _ _
  | forks child =>
    refine h.mono hdisk (fun date => (hkept hopens date).trans ?_)
      (s.put_between pid p' ▸ List.Subset.refl _)
    simp only [Group.writers,Group.record,List.map_append,List.sum_append]
    omega
  | opens day =>
    obtain ⟨hopening,hgzopen,hlive',hopened⟩ := hopens
    simp only at hlive' hopened
    have hcount (date : Int × Fin 12 × Nat) :
        p'.openCount date = p.openCount date + if day = date then 1 else 0 := by
      simp [Process.openCount,hlive',hlive,hopened,List.count_cons]
    have halone' : (s.put pid p').writers day = 1 := by
      have hday := hput day
      rw [hcount,if_pos rfl,halone day hgzopen hopening] at hday
      omega
    refine ⟨fun date => ?_,fun date => ?_⟩
    · by_cases hdate : date = day
      · simp only [Group.FileFrom,Group.record,hdate,Function.update_self]
        exact Nat.lt_of_lt_of_eq Nat.one_pos halone'.symm
      · refine (h.files date).mono ?_ ?_ (s.put_between pid p' ▸ List.Subset.refl _)
        · simp only [Group.record,Function.update_of_ne hdate,hdisk]
        · have hsame := hput date
          rw [hcount,if_neg (Ne.symm hdate),Nat.add_zero] at hsame
          exact Nat.le_of_eq (Nat.add_right_cancel hsame).symm
    · simp only [Group.record]
      by_cases hdate : date = day
      · rw [hdate,Function.update_self,halone']
        rfl
      · rw [Function.update_of_ne hdate,hdisk]
        exact h.unshared date
  | writes file =>
    obtain ⟨hlive',hopened,htable⟩ := hopens
    simp only at hlive' hopened
    have hshared : ((s.put pid p').disk file.date).shared = false := hdisk ▸ h.unshared file.date
    have hmoved : zlibLength (hostflowSize * file.table.length) =
        hostflowSize * file.table.length := by
      rw [htable]
      exact zlibLength_movesUpTo (hsize.resolve_left (by simp [hopened])) _ le_rfl
    refine ⟨fun date => ?_,fun date => ?_⟩
    · by_cases hdate : date = file.date
      · simp only [Group.FileFrom,Group.record,hdate,Function.update_self,hshared,hmoved,
          Bool.false_eq_true,ne_eq,not_true_eq_false,or_self,if_false,s.put_between]
        exact hfile
      · refine (h.files date).mono ?_ ?_ (s.put_between pid p' ▸ List.Subset.refl _)
        · simp only [Group.record,Function.update_of_ne hdate,hdisk]
        · have hsame := hput date
          have hcount : p.openCount date = p'.openCount date := by
            rw [Process.openCount,Process.openCount,hlive',hopened,
              List.count_cons_of_ne (Ne.symm hdate)]
          rw [hcount] at hsame
          exact Nat.le_of_eq (Nat.add_right_cancel hsame).symm
    · simp only [Group.record]
      by_cases hdate : date = file.date
      · rw [hdate,Function.update_self]
        exact hshared
      · rw [Function.update_of_ne hdate,hdisk]
        exact h.unshared date

private theorem Group.FilesSound.step {s s' : Group} {a : GroupEvent} (h : s.FilesSound s.between)
    (hsound : s.Sound s.between) (hwhole : s.exportsWhole localtime a)
    (hs : s.step localtime qsort a = some s') : s'.FilesSound s'.between := by
  have hidle {p : Process} (hp : p.Sound s.between) (hwaits : p.idle)
      (date : Int × Fin 12 × Nat) : p.openCount date = 0 := by
    rw [Process.openCount,(idle_sound hp hwaits).2.2]
    simp
  cases Group.step_cases hs with
  | datagram hwaits | acceptError hwaits =>
    refine h.mono rfl (fun date => ?_) (List.Subset.refl _)
    rw [Group.writers,hidle hsound.main hwaits date]
    simp only [Group.writers]
    omega
  | connection =>
    refine h.mono rfl (fun date => ?_) (List.Subset.refl _)
    simp only [Group.writers,List.map_append,List.sum_append]
    omega
  | @exec pid p x hp hlive =>
    simp only [Group.exportsWhole,hp,Option.all_some,Bool.and_eq_true,Bool.or_eq_true,
      Bool.not_eq_true',List.isEmpty_iff,decide_eq_true_eq] at hwhole
    obtain ⟨hopen,halone⟩ := hwhole
    refine h.exec hp hlive ((hsound.process hp).opens (hopen.symm.imp_left And.left))
      (hsound.process hp).exec.2 (hopen.imp_right And.right) fun date hgzopen hopening => ?_
    simpa [hgzopen,hopening] using halone
  | terminate hp | hangup hp | alarm hp => exact h.signal hp

private theorem Group.Starts.sound {s : Group} (h : Group.Starts localtime s) :
    s.Sound s.between ∧ s.FilesSound s.between := by
  cases h with
  | @intro _ g now stack whitelist _ =>
    have horderly : Orderly false [.importRecord false,.returns (startup localtime now stack g)] :=
      rfl
    exact ⟨⟨⟨fun hsettled => absurd hsettled (by simp [Group.start]),horderly.now⟩,
      fun _ hp => absurd hp List.not_mem_nil,fun _ hfile => absurd hfile List.not_mem_nil⟩,
      ⟨fun _ => trivial,fun _ => rfl⟩⟩

/-- In every run in which exports are of settled tables and go through alone, every table that is
written is one that `main` had between two datagrams, and no file is left torn. -/
theorem written_between {past : List (Group × GroupEvent)} {s : Group}
    (h : GroupRun localtime qsort past s)
    (hwhole : ∀ t ∈ past, t.1.exportsWhole localtime t.2) :
    (∀ file ∈ s.written, file.table ∈ s.between) ∧ ∀ date, s.FileFrom s.between date := by
  have hsound : s.Sound s.between ∧ s.FilesSound s.between :=
    h.invariant
      (fun s hs => Group.Starts.sound hs)
      (fun s a s' hs ha hstep => ⟨Group.Sound.step hs.1 ha hstep,hs.2.step hs.1 ha hstep⟩) hwhole
  exact ⟨hsound.1.written,hsound.2.files⟩

end Groups

/-- Two records, 10.0.1.1 to 8.8.8.8, 1000 bytes each. -/
def secondSubnetV5 : List Byte :=
  let record := beBytes 4 0x0a000101 ++ beBytes 4 0x08080808 ++ beBytes 12 0 ++ beBytes 4 1000 ++
    beBytes 4 1000 ++ beBytes 20 0
  beBytes 2 5 ++ beBytes 2 2 ++ beBytes 4 1000 ++ beBytes 4 1340000000 ++ beBytes 4 0 ++
    beBytes 8 0 ++ record ++ record

def secondSubnetPacketV5 : Packet :=
  Packet.received secondSubnetV5 (by simp [secondSubnetV5,bufSize]) fun _ => 0

def twoSubnetStart : Group :=
  Group.start utcJune 1340000000 (fun _ => 0) (fun _ => 0) (resetTable twoSubnetGlobals)

/-- `main` starts without a file and takes a datagram. -/
def firstDatagram : List GroupEvent :=
  .exec none .granted :: .exec none .granted ::
    .datagram 1340000100 (fun _ => 0) secondSubnetPacketV5 0x08080808 0 ::
      List.replicate 6 (.exec none .granted)

/-- The run on from there, with its history. -/
def twoSubnetAfter (as : List GroupEvent) : List (Group × GroupEvent) × Group :=
  (trail (Group.step utcJune insertionQsort) as ([],twoSubnetStart)).getD ([],twoSubnetStart)

theorem twoSubnet_run (as : List GroupEvent) :
    GroupRun utcJune insertionQsort (twoSubnetAfter as).1 (twoSubnetAfter as).2 := by
  have hstart : GroupRun utcJune insertionQsort [] twoSubnetStart :=
    .start (.intro 1340000000 (fun _ => 0) (fun _ => 0) twoSubnet_booted)
  rw [twoSubnetAfter]
  cases htrail : trail (Group.step utcJune insertionQsort) as ([],twoSubnetStart) with
  | none => exact hstart
  | some r => exact History.trail hstart htrail

theorem written_between_twoSubnet :
    let r := twoSubnetAfter (firstDatagram ++
      [.terminate none,.exec none .granted,.exec none .granted])
    r.2.written.length = 1 ∧
      (∀ file ∈ r.2.written, file.table ∈ r.2.between) ∧ ∀ date, r.2.FileFrom r.2.between date :=
  ⟨by decide +kernel,written_between (twoSubnet_run _) (by decide +kernel)⟩

/-- A child that has sorted its copy and a `main` in the middle of a booking are terminated: neither
table is one that `main` had between two datagrams, and the last one stays in the file of the day. -/
theorem foreign_tables_written :
    ∃ past s, GroupRun utcJune insertionQsort past s ∧ s.written.length = 2 ∧
      (∀ file ∈ s.written, file.table ∉ s.between) ∧ ¬s.FileFrom s.between (112,5,18) :=
  ⟨_,_,
    twoSubnet_run (firstDatagram ++
      [.connection ⟨false,true⟩,.exec (some 0) .granted,.terminate (some 0),
        .exec (some 0) .granted,.exec (some 0) .granted] ++
      [.datagram 1340000200 (fun _ => 0) secondSubnetPacketV5 0x08080808 0,
        .exec none .granted,.exec none .granted,.exec none .granted,.terminate none,
        .exec none .granted,.exec none .granted]),
    by decide +kernel,by decide +kernel,by decide +kernel⟩

end Flowstatd
