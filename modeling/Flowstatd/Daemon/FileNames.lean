import Flowstatd.Daemon.ConfigFile
import Flowstatd.Daemon.Days
import Flowstatd.Netflow.Counting
import Flowstatd.Query.Requests
import Mathlib.Data.List.Find

/-!
# Names of the saved files

`ExportRecord` formats the name of its file into 100 bytes and is told that there are 99; `main`
and `parseCmd` look for a file with a name out of `BUFSIZE` bytes. In a session files are found by
their date, here they are found by their names.
-/

namespace Flowstatd

open Framework

/-- What `snprintf` leaves of a text in a buffer of `size` bytes. -/
def snprintf (size : Nat) (text : List Char) : List Char := text.take (size - 1)

/-- `%s/flowstatdata.%04d-%02d-%02d.gz`. -/
def fileName (savePrefix : List Char) (date : Int × Fin 12 × Nat) : List Char :=
  savePrefix ++ "/flowstatdata.".toList ++ (dateText date).toList ++ ".gz".toList

def exportNameSize : Nat := 100

/-- The name that `ExportRecord` opens. -/
def exportName (savePrefix : List Char) (date : Int × Fin 12 × Nat) : List Char :=
  snprintf (exportNameSize - 1) (fileName savePrefix date)

/-- The name that `main` and `parseCmd` open. -/
def importName (savePrefix : List Char) (date : Int × Fin 12 × Nat) : List Char :=
  snprintf (bufSize - 1) (fileName savePrefix date)

/-- A date from year 0 to year 9999. -/
structure FourDigits (date : Int × Fin 12 × Nat) : Prop where
  year : 0 ≤ date.1 + 1900 ∧ date.1 + 1900 < 10000
  mday : date.2.2 < 100

section Names

theorem dateText_toList (date : Int × Fin 12 × Nat) :
    (dateText date).toList = (zeroPadded 4 (date.1 + 1900).toNat).toList ++
      ('-' :: ((zeroPadded 2 (date.2.1 + 1)).toList ++ ('-' :: (zeroPadded 2 date.2.2).toList))) := by
  have hdash : "-".toList = ['-'] := rfl
  simp only [dateText,String.toList_append,hdash,List.append_assoc,List.cons_append,List.nil_append]

theorem FourDigits.length_dateText {date : Int × Fin 12 × Nat} (h : FourDigits date) :
    (dateText date).toList.length = 10 := by
  have hyear : (zeroPadded 4 (date.1 + 1900).toNat).length = 4 := by
    apply length_zeroPadded (by decide)
    have := h.year
    omega
  have hmon : (zeroPadded 2 (date.2.1 + 1)).length = 2 := by
    apply length_zeroPadded (by decide)
    have := date.2.1.isLt
    omega
  have hday : (zeroPadded 2 date.2.2).length = 2 := length_zeroPadded (by decide) h.mday
  rw [dateText_toList]
  simp only [List.length_append,List.length_cons,String.length_toList,hyear,hmon,hday]

private theorem zeroPadded_inj {width n n' : Nat}
    (h : (zeroPadded width n).toList = (zeroPadded width n').toList) : n = n' := by
  rw [← ofDigitChars_zeroPadded width n,h,ofDigitChars_zeroPadded]

/-- A date is read back from its text, field after field. -/
theorem FourDigits.dateText_inj {date date' : Int × Fin 12 × Nat} (h : FourDigits date)
    (h' : FourDigits date') (heq : (dateText date).toList = (dateText date').toList) :
    date = date' := by
  have hlength {k n n' : Nat} (hk : 0 < k) (hn : n < 10 ^ k) (hn' : n' < 10 ^ k) :
      (zeroPadded k n).toList.length = (zeroPadded k n').toList.length := by
    rw [String.length_toList,String.length_toList,length_zeroPadded hk hn,length_zeroPadded hk hn']
  have hyear := h.year
  have hyear' := h'.year
  have hmonth := date.2.1.isLt
  have hmonth' := date'.2.1.isLt
  rw [dateText_toList,dateText_toList] at heq
  obtain ⟨hy,hrest⟩ := List.append_inj heq (hlength (by decide) (by omega) (by omega))
  obtain ⟨hm,hrest⟩ := List.append_inj (List.cons.inj hrest).2
    (hlength (by decide) (by omega) (by omega))
  have hd := zeroPadded_inj (List.cons.inj hrest).2
  have hy := zeroPadded_inj hy
  have hm := zeroPadded_inj hm
  refine Prod.ext ?_ (Prod.ext (Fin.ext ?_) hd) <;> omega

private theorem length_fileName (savePrefix : List Char) (date : Int × Fin 12 × Nat) :
    (fileName savePrefix date).length = savePrefix.length + (dateText date).toList.length + 17 := by
  simp only [fileName,List.length_append,show "/flowstatdata.".toList.length = 14 from rfl,
    show ".gz".toList.length = 3 from rfl]
  omega

variable {savePrefix : List Char} {date date' : Int × Fin 12 × Nat}

theorem exportName_short (hshort : savePrefix.length ≤ 71) (h : FourDigits date) :
    exportName savePrefix date = fileName savePrefix date := by
  apply List.take_of_length_le
  rw [length_fileName,h.length_dateText]
  simp only [exportNameSize]
  omega

theorem importName_eq (hsize : savePrefix.length < savePrefixSize) (h : FourDigits date) :
    importName savePrefix date = fileName savePrefix date := by
  apply List.take_of_length_le
  rw [length_fileName,h.length_dateText]
  simp only [savePrefixSize,bufSize] at hsize ⊢
  omega

private theorem fileName_inj (h : FourDigits date) (h' : FourDigits date')
    (heq : fileName savePrefix date = fileName savePrefix date') : date = date' :=
  h.dateText_inj h' (List.append_cancel_left (List.append_cancel_right heq))

/-- The name that is written is the one looked for, for this date and no other, exactly when the
prefix leaves room for the rest of it. -/
theorem exportName_eq_importName_iff (hsize : savePrefix.length < savePrefixSize)
    (h : FourDigits date) (h' : FourDigits date') :
    exportName savePrefix date = importName savePrefix date' ↔
      savePrefix.length ≤ 71 ∧ date = date' := by
  rw [importName_eq hsize h']
  constructor
  · intro heq
    have hlength := congrArg List.length heq
    rw [exportName,snprintf,List.length_take,length_fileName,length_fileName,h.length_dateText,
      h'.length_dateText] at hlength
    simp only [exportNameSize] at hlength
    have hshort : savePrefix.length ≤ 71 := by omega
    rw [exportName_short hshort h] at heq
    exact ⟨hshort,fileName_inj h h' heq⟩
  · rintro ⟨hshort,rfl⟩
    exact exportName_short hshort h

end Names

/-- The file that `main` or `parseCmd` finds for a date. -/
def Session.findNamed (savePrefix : List Char) (s : Session) (date : Int × Fin 12 × Nat) :
    Option SavedFile :=
  s.files.find? fun f => exportName savePrefix f.date = importName savePrefix date

/-- `main` imports the file with the name of the day of the start if there is one. -/
def Session.ImportsNamed (gz : Nat → Nat) (savePrefix : List Char) (s : Session)
    (date : Int × Fin 12 × Nat) (g g' : Globals) (ledger : List LedgerLine) : Prop :=
  match s.findNamed savePrefix date with
  | none => g' = g ∧ ledger = []
  | some f => ledger = f.ledger ∧
    ∃ heap tmpVal, importRecordBy gz heap tmpVal g f.contents = some g'

/-- A step of a session that finds its files by their names. -/
inductive NamedStep (gz : Nat → Nat) (localtime : Int → Tm) (savePrefix : List Char) :
    Session → Action → Session → Prop
  | running {s s' : Session} {a : Action} : s.running → Step gz localtime s a s' →
      NamedStep gz localtime savePrefix s a s'
  | restart {s : Session} {networks : List StatedEntry} {g g' : Globals} {now : Int}
      {stack : Nat → U32} {ledger : List LedgerLine} : s.running = false → s.clock ≤ now →
    Booted networks g → s.ImportsNamed gz savePrefix (localtime now).date g g' ledger →
      NamedStep gz localtime savePrefix s (.restart now)
        ⟨startup localtime now stack g',now,ledger,s.files,true⟩

/-- A run from a start without files, in a directory with this name. -/
inductive NamedRun (gz : Nat → Nat) (localtime : Int → Tm) (savePrefix : List Char) :
    List (Session × Action) → Session → Prop
  | start {networks : List StatedEntry} {g : Globals} {now : Int} {stack : Nat → U32} :
    Booted networks g →
      NamedRun gz localtime savePrefix [] ⟨startup localtime now stack g,now,[],[],true⟩
  | step {past : List (Session × Action)} {s s' : Session} {a : Action} :
    NamedRun gz localtime savePrefix past s → NamedStep gz localtime savePrefix s a s' →
      NamedRun gz localtime savePrefix ((s,a) :: past) s'

/-- The clock at the start of a run. -/
def startClock : List (Session × Action) → Session → Int
  | [],s => s.clock
  | (t,_) :: past,_ => startClock past t

section Dates

variable {gz : Nat → Nat} {localtime : Int → Tm} {savePrefix : List Char}

/-- Today and the days of the files are days between `first` and the clock. -/
structure Session.Dated (localtime : Int → Tm) (first : Int) (s : Session) : Prop where
  started : first + 86400 ≤ s.clock
  today : ∃ t, first ≤ t ∧ t ≤ s.clock ∧ s.today = (localtime t).date
  files : ∀ f ∈ s.files, ∃ t, first ≤ t ∧ t ≤ s.clock ∧ f.date = (localtime t).date

private theorem startup_dated {first now : Int} {stack : Nat → U32} {g : Globals}
    {ledger : List LedgerLine} {files : List SavedFile} (hstarted : first + 86400 ≤ now)
    (hfiles : ∀ f ∈ files, ∃ t, first ≤ t ∧ t ≤ now ∧ f.date = (localtime t).date) :
    Session.Dated localtime first ⟨startup localtime now stack g,now,ledger,files,true⟩ where
  started := hstarted
  today := ⟨now,by omega,le_rfl,rfl⟩
  files := hfiles

private theorem Session.Dated.later {first now : Int} {s : Session}
    (h : s.Dated localtime first) (hclock : s.clock ≤ now) :
    ∀ f ∈ s.files, ∃ t, first ≤ t ∧ t ≤ now ∧ f.date = (localtime t).date := by
  intro f hf
  obtain ⟨t,hfirst,hlast,hdate⟩ := h.files f hf
  exact ⟨t,hfirst,hlast.trans hclock,hdate⟩

theorem Step.dated {first : Int} {s s' : Session} {a : Action} (h : Step gz localtime s a s')
    (hs : s.Dated localtime first) : s.clock ≤ s'.clock ∧ s'.Dated localtime first := by
  have hstarted := hs.started
  cases h with
  | @datagram d' now _ _ _ _ hclock hend =>
    refine ⟨hclock,hstarted.trans hclock,⟨now,by omega,le_rfl,?_⟩,?_⟩
    · rw [Session.today,Session.afterDatagram,receivedLines_globals hend]
      exact congrArg Tm.date (arrivalGlobals_localtm now s.daemon)
    · simp only [Session.afterDatagram]
      split_ifs
      · exact List.forall_mem_cons.mpr ⟨⟨now - 86400,by omega,by omega,rfl⟩,hs.later hclock⟩
      · exact hs.later hclock
  | @hangup now _ hclock =>
    obtain ⟨t,hfirst,hlast,htoday⟩ := hs.today
    refine ⟨hclock,hstarted.trans hclock,⟨t,hfirst,hlast.trans hclock,htoday⟩,?_⟩
    exact List.forall_mem_cons.mpr ⟨⟨now,by omega,le_rfl,rfl⟩,hs.later hclock⟩
  | terminate _ hclock =>
    obtain ⟨t,hfirst,hlast,htoday⟩ := hs.today
    refine ⟨hclock,hstarted.trans hclock,⟨t,hfirst,hlast.trans hclock,htoday⟩,?_⟩
    exact List.forall_mem_cons.mpr ⟨⟨t,hfirst,hlast.trans hclock,htoday⟩,hs.later hclock⟩
  | restart _ hclock _ _ => exact ⟨hclock,startup_dated (hstarted.trans hclock) (hs.later hclock)⟩

theorem NamedStep.dated {first : Int} {s s' : Session} {a : Action}
    (h : NamedStep gz localtime savePrefix s a s') (hs : s.Dated localtime first) :
    s.clock ≤ s'.clock ∧ s'.Dated localtime first := by
  cases h with
  | running _ hstep => exact hstep.dated hs
  | restart _ hclock _ _ =>
    exact ⟨hclock,startup_dated (hs.started.trans hclock) (hs.later hclock)⟩

theorem Run.dated {past : List (Session × Action)} {s : Session} (h : Run gz localtime past s) :
    s.Dated localtime (startClock past s - 86400) := by
  induction h with
  | start _ => exact startup_dated (by simp [startClock]) (by simp)
  | step _ hstep ih => exact (hstep.dated ih).2

theorem NamedRun.dated {past : List (Session × Action)} {s : Session}
    (h : NamedRun gz localtime savePrefix past s) :
    s.Dated localtime (startClock past s - 86400) := by
  induction h with
  | start _ => exact startup_dated (by simp [startClock]) (by simp)
  | step _ hstep ih => exact (hstep.dated ih).2

/-- The dates between the day before the start and the clock have four-digit years. -/
def DatesPrintable (localtime : Int → Tm) (past : List (Session × Action)) (s : Session) : Prop :=
  ∀ t, startClock past s - 86400 ≤ t → t ≤ s.clock → FourDigits (localtime t).date

theorem Session.Dated.fourDigits {first : Int} {s : Session} {f : SavedFile}
    (hs : s.Dated localtime first) {now : Int} (hclock : s.clock ≤ now)
    (hyears : ∀ t, first ≤ t → t ≤ now → FourDigits (localtime t).date) (hf : f ∈ s.files) :
    FourDigits f.date := by
  obtain ⟨t,hfirst,hlast,hdate⟩ := hs.later hclock f hf
  exact hdate ▸ hyears t hfirst hlast

/-- With a short prefix a name is found where the date is, with a long one nothing is. -/
theorem findNamed_eq {s : Session} {date : Int × Fin 12 × Nat}
    (hsize : savePrefix.length < savePrefixSize) (hfiles : ∀ f ∈ s.files, FourDigits f.date)
    (hdate : FourDigits date) :
    s.findNamed savePrefix date =
      if savePrefix.length ≤ 71 then s.files.find? (·.date = date) else none := by
  rw [Session.findNamed]
  split_ifs with hshort
  · apply List.find?_congr
    intro f hf
    simp only [decide_eq_decide]
    rw [exportName_eq_importName_iff hsize (hfiles f hf) hdate]
    exact and_iff_right hshort
  · rw [List.find?_eq_none]
    intro f hf
    rw [decide_eq_true_eq,exportName_eq_importName_iff hsize (hfiles f hf) hdate]
    exact fun h => hshort h.1

private theorem importsNamed_iff {s : Session} {date : Int × Fin 12 × Nat} {g g' : Globals}
    {ledger : List LedgerLine} (hshort : savePrefix.length ≤ 71)
    (hfiles : ∀ f ∈ s.files, FourDigits f.date) (hdate : FourDigits date) :
    s.ImportsNamed gz savePrefix date g g' ledger ↔ s.Imports gz date g g' ledger := by
  have hsize : savePrefix.length < savePrefixSize := by
    rw [savePrefixSize]
    omega
  rw [Session.ImportsNamed,findNamed_eq hsize hfiles hdate,if_pos hshort]
  exact Iff.rfl

theorem NamedStep.restart_none {s : Session} {networks : List StatedEntry} {g : Globals}
    {now : Int} (stack : Nat → U32) (hstopped : s.running = false) (hclock : s.clock ≤ now)
    (hg : Booted networks g) (hnone : s.findNamed savePrefix (localtime now).date = none) :
    NamedStep gz localtime savePrefix s (.restart now)
      ⟨startup localtime now stack g,now,[],s.files,true⟩ := by
  refine .restart hstopped hclock hg ?_
  rw [Session.ImportsNamed,hnone]
  exact ⟨rfl,rfl⟩

private theorem namedStep_iff {first : Int} {s s' : Session} {a : Action}
    (hshort : savePrefix.length ≤ 71) (hs : s.Dated localtime first)
    (hyears : ∀ t, first ≤ t → t ≤ s'.clock → FourDigits (localtime t).date) :
    NamedStep gz localtime savePrefix s a s' ↔ Step gz localtime s a s' := by
  have hstarted := hs.started
  constructor
  · intro h
    cases h with
    | running _ hstep => exact hstep
    | restart hstopped hclock hg himports =>
      refine .restart hstopped hclock hg ?_
      rwa [← importsNamed_iff hshort (fun f hf => hs.fourDigits hclock hyears hf)
        (hyears _ (le_trans (by omega) hclock) le_rfl)]
  · intro h
    cases h with
    | datagram hrunning hclock hend => exact .running hrunning (.datagram hrunning hclock hend)
    | hangup hrunning hclock => exact .running hrunning (.hangup hrunning hclock)
    | terminate hrunning hclock => exact .running hrunning (.terminate hrunning hclock)
    | restart hstopped hclock hg himports =>
      refine .restart hstopped hclock hg ?_
      rwa [importsNamed_iff hshort (fun f hf => hs.fourDigits hclock hyears hf)
        (hyears _ (le_trans (by omega) hclock) le_rfl)]

private theorem DatesPrintable.before {past : List (Session × Action)} {s s' : Session}
    {a : Action} (h : DatesPrintable localtime ((s,a) :: past) s') (hclock : s.clock ≤ s'.clock) :
    DatesPrintable localtime past s :=
  fun t hfirst hlast => h t hfirst (hlast.trans hclock)

theorem utcJune_fourDigits {t : Int} (h : t < 1345000000) : FourDigits (utcJune t).date where
  year := by simp [Tm.date,utcJune,juneMorning]
  mday := by
    simp only [Tm.date,utcJune]
    omega

private theorem run_of_named {past : List (Session × Action)} {s : Session}
    (hshort : savePrefix.length ≤ 71) (hyears : DatesPrintable localtime past s) :
    NamedRun gz localtime savePrefix past s ↔ Run gz localtime past s := by
  constructor
  · intro h
    induction h with
    | start hg => exact .start hg
    | step hrun hstep ih =>
      have hclock := (hstep.dated hrun.dated).1
      exact .step (ih (hyears.before hclock)) ((namedStep_iff hshort hrun.dated hyears).mp hstep)
  · intro h
    induction h with
    | start hg => exact .start hg
    | step hrun hstep ih =>
      have hclock := (hstep.dated hrun.dated).1
      exact .step (ih (hyears.before hclock)) ((namedStep_iff hshort hrun.dated hyears).mpr hstep)

/-- With at most 71 bytes of directory the session that goes by names is the one that goes by
dates, and `parseCmd` finds in it the file of the date that it looks for. -/
theorem namedRun_iff {past : List (Session × Action)} {s : Session}
    (hshort : savePrefix.length ≤ 71) (hyears : DatesPrintable localtime past s) :
    (NamedRun gz localtime savePrefix past s ↔ Run gz localtime past s) ∧
      (NamedRun gz localtime savePrefix past s → ∀ date, FourDigits date →
        s.findNamed savePrefix date = s.files.find? (·.date = date)) := by
  refine ⟨run_of_named hshort hyears,fun h date hdate => ?_⟩
  have hsize : savePrefix.length < savePrefixSize := Nat.lt_of_le_of_lt hshort (by decide)
  rw [findNamed_eq hsize (fun f hf => h.dated.fourDigits le_rfl hyears hf) hdate,if_pos hshort]

theorem NamedStep.files_eq {s s' : Session} {a : Action}
    (h : NamedStep gz localtime savePrefix s a s') :
    s'.files = ((exportDate localtime s a).map (s.saved gz)).toList ++ s.files := by
  cases h with
  | running _ hstep => exact hstep.files_eq
  | restart => rfl

theorem NamedRun.find_file {past : List (Session × Action)} {s : Session}
    (h : NamedRun gz localtime savePrefix past s) (date : Int × Fin 12 × Nat) :
    s.files.find? (·.date = date) =
      (past.find? fun t => exportDate localtime t.1 t.2 = some date).map
        fun t => t.1.saved gz date := by
  induction h with
  | start _ => rfl
  | step _ hstep ih => exact find_file_cons hstep.files_eq ih

/-- The arrays of a run have their sizes, wherever its files are found. -/
theorem NamedStep.sized {s s' : Session} {a : Action} (h : NamedStep gz localtime savePrefix s a s')
    (hs : s.daemon.globals.WellSized) (hfiles : s.FilesExported gz) :
    s'.daemon.globals.WellSized ∧ s'.FilesExported gz := by
  cases h with
  | running _ hstep => exact hstep.sized hs hfiles
  | restart _ _ hg himports =>
    refine ⟨keptByDaemon_wellSized.clock _ _ ?_,hfiles⟩
    rw [Session.ImportsNamed] at himports
    split at himports
    next => exact himports.1 ▸ hg.wellSized
    next f hfind =>
      obtain ⟨-,heap,tmpVal,himport⟩ := himports
      obtain ⟨saved,hsaved,hcontents⟩ := hfiles f (List.mem_of_find?_eq_some hfind)
      exact hg.wellSized.imported hsaved (hcontents ▸ himport)

theorem NamedRun.sized {past : List (Session × Action)} {s : Session}
    (h : NamedRun gz localtime savePrefix past s) :
    (s.daemon.globals.WellSized ∧ s.FilesExported gz) ∧
      ∀ t ∈ past, t.1.daemon.globals.WellSized := by
  induction h with
  | start hg =>
    exact ⟨⟨keptByDaemon_wellSized.clock _ _ hg.wellSized,fun _ hf => absurd hf List.not_mem_nil⟩,
      by simp⟩
  | step _ hstep ih =>
    exact ⟨hstep.sized ih.1.1 ih.1.2,List.forall_mem_cons.mpr ⟨ih.1.1,ih.2⟩⟩

/-- A restart has the counters that were saved last for its day exactly when the directory has at
most 71 bytes, or there were none; with a longer one it starts from nothing. The directory leaves
room for a name in it, and one call of the gz library moves the table. -/
theorem restart_recovers_iff {past : List (Session × Action)} {s s' : Session} {now : Int}
    {t : Session × Action} (hsize : savePrefix.length ≤ 96)
    (hrun : NamedRun zlibLength localtime savePrefix past s)
    (hstep : NamedStep zlibLength localtime savePrefix s (.restart now) s')
    (hyears : DatesPrintable localtime ((s,.restart now) :: past) s')
    (hcall : hostflowSize * s'.daemon.globals.sumIpCount.toNat < 2 ^ 31)
    (ht : past.find? (fun t => exportDate localtime t.1 t.2 = some (localtime now).date) = some t) :
    ((∀ i, entryAt s'.daemon.globals.ipTable i = entryAt t.1.daemon.globals.ipTable i) ↔
        savePrefix.length ≤ 71 ∨ ∀ e ∈ t.1.daemon.globals.ipTable, e = HostFlow.zero) ∧
      (savePrefix.length ≤ 71 → s'.daemon.globals.nets = t.1.daemon.globals.nets) ∧
      (¬savePrefix.length ≤ 71 → ∀ e ∈ s'.daemon.globals.ipTable, e = HostFlow.zero) := by
  have hdated := hrun.dated
  have hstarted := hdated.started
  have hsaved : t.1.daemon.globals.WellSized :=
    hrun.sized.2 t (List.mem_of_find?_eq_some ht)
  cases hstep with
  | running hrunning hstep =>
    cases hstep with
    | restart hstopped _ _ _ => rw [hstopped] at hrunning; contradiction
  | @restart networks g g' _ stack _ _ hclock hg himports =>
    rw [Session.ImportsNamed,findNamed_eq (Nat.lt_of_le_of_lt hsize (by decide))
      (fun f hf => hdated.fourDigits hclock hyears hf)
      (hyears _ (le_trans (by simp only [startClock]; omega) hclock) le_rfl)] at himports
    split_ifs at himports with hshort
    · rw [hrun.find_file,ht] at himports
      obtain ⟨-,heap,tmpVal,himport⟩ := himports
      change importRecordBy _ _ _ _ (exportRecordBy zlibLength t.1.daemon.globals) = _ at himport
      have hcount := hg.wellSized.imported_sumIpCount hsaved himport
      have hnets := hg.wellSized.imported_nets hsaved himport
      rw [importRecordBy_whole heap tmpVal hg.wellSized hsaved
        (hcount ▸ zlibLength_movesUpTo hcall),Option.some.injEq] at himport
      refine ⟨iff_of_true (fun i => ?_) (.inl hshort),fun _ => hnets,fun h => absurd hshort h⟩
      rw [← himport]
      dsimp only [startup,Daemon.globals]
      rw [hg.ipTable,List.drop_replicate]
      exact entryAt_append_zeros _ _ i
    · obtain ⟨rfl,rfl⟩ := himports
      have hempty : ∀ e ∈ g'.ipTable, e = HostFlow.zero := by
        rw [hg.ipTable]
        exact fun e he => List.eq_of_mem_replicate he
      refine ⟨?_,fun h => absurd h hshort,fun _ => hempty⟩
      have hnothing := entryAt_zeros_iff.mpr hempty
      rw [or_iff_right hshort,← entryAt_zeros_iff]
      exact forall_congr' fun i =>
        ⟨fun h => h.symm.trans (hnothing i),fun h => (hnothing i).trans h.symm⟩

theorem utcJune_printable (past : List (Session × Action)) {s : Session}
    (h : s.clock < 1345000000) : DatesPrintable utcJune past s :=
  fun _ _ hlast => utcJune_fourDigits (lt_of_le_of_lt hlast h)

section June

/-- The session of the morning takes a datagram in the evening, which books 1000 bytes. -/
private theorem exists_june_evening :
    ∃ evening, Step zlibLength utcJune juneSession (.datagram 1340056800 (fun _ => 0)
        borrowedTemplatePacket 0x08080808) evening ∧ evening.running = true ∧
      evening.clock = 1340056800 ∧ evening.today = (112,5,18) ∧ evening.files = [] ∧
      evening.daemon.globals.WellSized ∧ evening.daemon.globals.sumIpCount = 4 ∧
      ∃ e ∈ evening.daemon.globals.ipTable, e.nflow .upload = 1000 := by
  let received := handleDatagram utcJune 1340056800 (fun _ => 0) borrowedTemplatePacket 0x08080808
    5 juneSession.daemon
  have hend : Ends (handleDatagram utcJune 1340056800 (fun _ => 0) borrowedTemplatePacket
      0x08080808) juneSession.daemon received.state :=
    ⟨5,Outcome.eq_finished_state (by decide +kernel)⟩
  have hstep : Step zlibLength utcJune juneSession (.datagram 1340056800 (fun _ => 0)
      borrowedTemplatePacket 0x08080808) _ := .datagram rfl (by decide) hend
  have hsizes : juneSession.daemon.globals.WellSized :=
    keptByDaemon_wellSized.clock _ _ oneSubnet_booted.wellSized
  exact ⟨_,hstep,rfl,rfl,by decide +kernel,by decide +kernel,
    (hstep.sized hsizes fun _ hf => absurd hf List.not_mem_nil).1,by decide +kernel,by decide +kernel⟩

/-- After that it is terminated. -/
private theorem exists_june_stop :
    ∃ evening stopped, Step zlibLength utcJune juneSession (.datagram 1340056800 (fun _ => 0)
        borrowedTemplatePacket 0x08080808) evening ∧ evening.running = true ∧
      evening.today = (112,5,18) ∧ evening.daemon.globals.WellSized ∧
      evening.daemon.globals.sumIpCount = 4 ∧
      (∃ e ∈ evening.daemon.globals.ipTable, e.nflow .upload = 1000) ∧
      Step zlibLength utcJune evening (.terminate 1340056800) stopped ∧ stopped.running = false ∧
      stopped.clock = 1340056800 ∧ stopped.files = [evening.saved zlibLength (112,5,18)] := by
  obtain ⟨evening,hdatagram,hrunning,hclock,htoday,hfiles,hsizes,hcount,hbooked⟩ :=
    exists_june_evening
  have hstop : Step zlibLength utcJune evening (.terminate 1340056800) _ :=
    .terminate hrunning hclock.le
  exact ⟨evening,_,hdatagram,hrunning,htoday,hsizes,hcount,hbooked,hstop,rfl,rfl,
    by rw [hfiles,htoday]⟩

/-- The restart looks for the file of the 18th and has its bytes. -/
theorem namedRun_iff_restarted :
    ∃ past s, NamedRun zlibLength utcJune "/usr/local/flowstatd/data".toList past s ∧
      (∃ e ∈ s.daemon.globals.ipTable, e.nflow .upload = 1000) ∧
      (s.findNamed "/usr/local/flowstatd/data".toList (112,5,18)).isSome := by
  obtain ⟨evening,stopped,hdatagram,-,-,hsizes,hcount,⟨e,he,hbytes⟩,hstop,hrunning,hclock,hfiles⟩ :=
    exists_june_stop
  have hday : (utcJune 1340056900).date = (112,5,18) := by decide +kernel
  have hfind : stopped.files.find? (·.date = (112,5,18)) =
      some (evening.saved zlibLength (112,5,18)) := by
    rw [hfiles]
    exact List.find?_cons_of_pos (decide_eq_true rfl)
  obtain ⟨g',himport,htable⟩ : ∃ g', importRecordBy zlibLength (fun _ => 0) 0
      oneSubnetMachine.globals (exportRecordBy zlibLength evening.daemon.globals) = some g' ∧
      e ∈ g'.ipTable :=
    ⟨_,importRecordBy_whole (fun _ => 0) 0 oneSubnet_booted.wellSized hsizes
      (zlibLength_movesUpTo (by rw [hcount]; decide +kernel)),List.mem_append_left _ he⟩
  have himports : stopped.Imports zlibLength (utcJune 1340056900).date oneSubnetMachine.globals g'
      evening.ledger := by
    rw [Session.Imports,hday,hfind]
    exact ⟨rfl,_,_,himport⟩
  let restarted : Session :=
    ⟨startup utcJune 1340056900 (fun _ => 0) g',1340056900,evening.ledger,stopped.files,true⟩
  have hrestart : Step zlibLength utcJune stopped (.restart 1340056900) restarted :=
    .restart hrunning (by rw [hclock]; decide) oneSubnet_booted himports
  have hrun := (((Run.start oneSubnet_booted).step hdatagram).step hstop).step hrestart
  have hshort : "/usr/local/flowstatd/data".toList.length ≤ 71 := by decide
  have hclock' : restarted.clock < 1345000000 := show (1340056900 : Int) < 1345000000 by decide
  obtain ⟨hnamed,hfinds⟩ := namedRun_iff hshort (utcJune_printable _ hclock')
  refine ⟨_,restarted,hnamed.mpr hrun,⟨e,htable,hbytes⟩,?_⟩
  rw [hfinds (hnamed.mpr hrun) _ ⟨by decide,by decide⟩,hfind]
  rfl

/-- A directory with a name of 72 bytes. -/
def longDir : List Char := '/' :: List.replicate 71 'd'

theorem restart_recovers_iff_long :
    ∃ past s s' t, NamedRun zlibLength utcJune longDir past s ∧
      NamedStep zlibLength utcJune longDir s (.restart 1340056900) s' ∧ t ∈ past ∧
      exportDate utcJune t.1 t.2 = some (utcJune 1340056900).date ∧
      (∃ e ∈ t.1.daemon.globals.ipTable, e.nflow .upload = 1000) ∧
      ∀ e ∈ s'.daemon.globals.ipTable, e = HostFlow.zero := by
  obtain ⟨evening,stopped,hdatagram,hrunning,htoday,-,-,hbooked,hstop,hstopped,hclock,hfiles⟩ :=
    exists_june_stop
  have hday : (utcJune 1340056900).date = (112,5,18) := by decide +kernel
  have hdate : FourDigits (112,5,18) := ⟨by decide,by decide⟩
  have hnamed : NamedRun zlibLength utcJune longDir _ stopped :=
    .step (.step (.start oneSubnet_booted) (.running rfl hdatagram)) (.running hrunning hstop)
  have hnone : stopped.findNamed longDir (utcJune 1340056900).date = none := by
    rw [hday,findNamed_eq (by decide) (by simpa [hfiles,Session.saved] using hdate) hdate]
    exact if_neg (by decide)
  let restarted : Session := ⟨startup utcJune 1340056900 (fun _ => 0) oneSubnetMachine.globals,
    1340056900,[],stopped.files,true⟩
  have hrestart : NamedStep zlibLength utcJune longDir stopped (.restart 1340056900) restarted :=
    .restart_none (fun _ => 0) hstopped (by rw [hclock]; decide) oneSubnet_booted hnone
  have hexport : exportDate utcJune evening (.terminate 1340056800) =
      some (utcJune 1340056900).date := by rw [exportDate,htoday,hday]
  have hclock' : restarted.clock < 1345000000 := show (1340056900 : Int) < 1345000000 by decide
  have hcall : hostflowSize * restarted.daemon.globals.sumIpCount.toNat < 2 ^ 31 :=
    show hostflowSize * oneSubnetMachine.globals.sumIpCount.toNat < 2 ^ 31 by decide +kernel
  have hforgets := restart_recovers_iff (by decide) hnamed hrestart (utcJune_printable _ hclock')
    hcall (List.find?_cons_of_pos (decide_eq_true hexport))
  exact ⟨_,stopped,restarted,_,hnamed,hrestart,List.mem_cons_self,hexport,hbooked,
    hforgets.2.2 (by decide)⟩

end June

end Dates

end Flowstatd
