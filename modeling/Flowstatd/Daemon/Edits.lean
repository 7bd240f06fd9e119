import Flowstatd.Daemon.FileNames
import Flowstatd.Daemon.Signals

/-!
# Edited configurations

`main` reads the stated networks at every start, and then imports the file of the day, which brings
its own. The networks in use are those of the last start that found no file.
-/

namespace Flowstatd

open Framework

/-- A session whose configuration may be edited before every start. `networks` are those stated when
there was no file for the day of the start, the last time this was so. -/
inductive ConfiguredRun (gz : Nat → Nat) (localtime : Int → Tm) :
    List StatedEntry → Session → Prop
  | start {networks : List StatedEntry} {g : Globals} {now : Int} {stack : Nat → U32} :
    Booted networks g →
      ConfiguredRun gz localtime networks ⟨startup localtime now stack g,now,[],[],true⟩
  | running {networks : List StatedEntry} {s s' : Session} {a : Action} :
    ConfiguredRun gz localtime networks s → s.running → Step gz localtime s a s' →
      ConfiguredRun gz localtime networks s'
  | restart {networks edited : List StatedEntry} {s : Session} {g g' : Globals} {now : Int}
      {stack : Nat → U32} {ledger : List LedgerLine} : ConfiguredRun gz localtime networks s →
    s.running = false → s.clock ≤ now → Booted edited g →
      s.Imports gz (localtime now).date g g' ledger →
        ConfiguredRun gz localtime
          (if (s.files.find? (·.date = (localtime now).date)).isSome then networks else edited)
          ⟨startup localtime now stack g',now,ledger,s.files,true⟩

section Edits

variable {gz : Nat → Nat} {localtime : Int → Tm} {networks edited : List StatedEntry}
  {s s' : Session} {a : Action}

/-- A date that is over does not come back. -/
def DatesForward (localtime : Int → Tm) : Prop :=
  ∀ t u v, t ≤ u → u ≤ v → (localtime t).date = (localtime v).date →
    (localtime u).date = (localtime t).date

theorem ConfiguredRun.run (h : ConfiguredRun gz localtime networks s) :
    ∃ past, Run gz localtime past s := by
  induction h with
  | start hg => exact ⟨[],.start hg⟩
  | running _ _ hstep ih =>
    obtain ⟨past,hrun⟩ := ih
    exact ⟨_,hrun.step hstep⟩
  | restart _ hstopped hclock hg himports ih =>
    obtain ⟨past,hrun⟩ := ih
    exact ⟨_,hrun.step (.restart hstopped hclock hg himports)⟩

/-- The networks in use, in a table of their size. -/
structure Globals.Uses (networks : List StatedEntry) (g : Globals) : Prop where
  sizes : g.WellSized
  nets : g.nets.Perm (networks.map StatedEntry.subnet)

/-- The networks are in use since `since`, and no older file is of a day that is still to come. -/
structure Session.InUse (gz : Nat → Nat) (localtime : Int → Tm) (networks : List StatedEntry)
    (since : Int) (s : Session) : Prop where
  globals : s.daemon.globals.Uses networks
  clock : since ≤ s.clock
  files : ∀ f ∈ s.files, ∃ g : Globals, g.WellSized ∧ f.contents = exportRecordBy gz g ∧
    (g.Uses networks ∨ ∀ t, since ≤ t → (localtime t).date ≠ f.date)

private theorem uses_keptByDaemon (networks : List StatedEntry) :
    KeptByDaemon (Globals.Uses networks) where
  clock g tm h := ⟨keptByDaemon_wellSized.clock g tm h.sizes,h.nets⟩
  reset g h := ⟨keptByDaemon_wellSized.reset g h.sizes,h.nets⟩
  book g cs h := ⟨keptByDaemon_wellSized.book g cs h.sizes,h.nets⟩

private theorem Session.InUse.saved {since : Int} (h : s.InUse gz localtime networks since)
    (date : Int × Fin 12 × Nat) :
    ∀ f ∈ s.saved gz date :: s.files, ∃ g : Globals, g.WellSized ∧ f.contents = exportRecordBy gz g ∧
      (g.Uses networks ∨ ∀ t, since ≤ t → (localtime t).date ≠ f.date) :=
  List.forall_mem_cons.mpr ⟨⟨s.daemon.globals,h.globals.sizes,rfl,.inl h.globals⟩,h.files⟩

private theorem Step.inUse {since : Int} (h : Step gz localtime s a s') (hrunning : s.running)
    (hs : s.InUse gz localtime networks since) : s'.InUse gz localtime networks since := by
  have hclock := hs.clock
  cases h with
  | @datagram d' now _ _ _ _ hlater hend =>
    refine ⟨?_,hclock.trans hlater,?_⟩
    · rw [Session.afterDatagram,receivedLines_globals hend]
      exact (uses_keptByDaemon networks).book _ _
        ((uses_keptByDaemon networks).arrival localtime now hs.globals)
    · simp only [Session.afterDatagram]
      split_ifs
      · exact hs.saved _
      · exact hs.files
  | hangup _ hlater => exact ⟨hs.globals,hclock.trans hlater,hs.saved _⟩
  | terminate _ hlater => exact ⟨hs.globals,hclock.trans hlater,hs.saved _⟩
  | restart hstopped => exact absurd (hrunning.symm.trans hstopped) (by decide)

private theorem restart_fresh {g : Globals} {now : Int} {stack : Nat → U32}
    (hdates : DatesForward localtime) (hclock : s.clock ≤ now) (hg : Booted edited g)
    (hfiles : ∀ f ∈ s.files, ∃ g : Globals, g.WellSized ∧ f.contents = exportRecordBy gz g)
    (hdated : ∀ f ∈ s.files, ∃ t, t ≤ s.clock ∧ f.date = (localtime t).date)
    (hnone : s.files.find? (·.date = (localtime now).date) = none) :
    Session.InUse gz localtime edited now ⟨startup localtime now stack g,now,[],s.files,true⟩ where
  globals := (uses_keptByDaemon edited).clock _ _ ⟨hg.wellSized,hg.nets_perm⟩
  clock := le_rfl
  files := by
    intro f hf
    obtain ⟨g',hsizes,hcontents⟩ := hfiles f hf
    obtain ⟨t,ht,hdate⟩ := hdated f hf
    refine ⟨g',hsizes,hcontents,.inr fun u hu hcomes => ?_⟩
    have hnow := hdates t now u (ht.trans hclock) hu (hdate.symm.trans hcomes.symm)
    exact List.find?_eq_none.mp hnone f hf (decide_eq_true (hdate.trans hnow.symm))

/-- A start with a file goes on with the networks in it. -/
private theorem restart_imported {since now : Int} {stack : Nat → U32} {g g' : Globals}
    {f : SavedFile} {heap : Nat → Byte} {tmpVal : U32} (hs : s.InUse gz localtime networks since)
    (hclock : s.clock ≤ now) (hg : Booted edited g)
    (hfind : s.files.find? (·.date = (localtime now).date) = some f)
    (himport : importRecordBy gz heap tmpVal g f.contents = some g') :
    Session.InUse gz localtime networks since
      ⟨startup localtime now stack g',now,f.ledger,s.files,true⟩ := by
  obtain ⟨saved,hsaved,hcontents,huses⟩ := hs.files f (List.mem_of_find?_eq_some hfind)
  have hdate : f.date = (localtime now).date := by simpa using List.find?_some hfind
  have huses := huses.resolve_right fun hover =>
    hover now (hs.clock.trans hclock) hdate.symm
  rw [hcontents] at himport
  refine ⟨(uses_keptByDaemon networks).clock _ _ ⟨hg.wellSized.imported hsaved himport,?_⟩,
    hs.clock.trans hclock,hs.files⟩
  rw [hg.wellSized.imported_nets hsaved himport]
  exact huses.nets

/-- In every run, whatever is stated at the starts, the networks in use are those stated at the last
start for whose day there was no file. -/
theorem networks_in_use (hdates : DatesForward localtime) (h : ConfiguredRun gz localtime networks s) :
    s.daemon.globals.nets.Perm (networks.map StatedEntry.subnet) := by
  have hinUse : ∃ since, s.InUse gz localtime networks since := by
    induction h with
    | @start networks g now stack hg =>
      exact ⟨now,(uses_keptByDaemon networks).clock _ _ ⟨hg.wellSized,hg.nets_perm⟩,le_rfl,by simp⟩
    | running _ hrunning hstep ih =>
      obtain ⟨since,hs⟩ := ih
      exact ⟨since,hstep.inUse hrunning hs⟩
    | @restart networks edited s g g' now stack ledger hconfigured hstopped hclock hg himports ih =>
      obtain ⟨since,hs⟩ := ih
      rw [Session.Imports] at himports
      split at himports
      next hnone =>
        obtain ⟨past,hrun⟩ := hconfigured.run
        obtain ⟨rfl,rfl⟩ := himports
        rw [hnone]
        refine ⟨now,restart_fresh hdates hclock hg ?_ ?_ hnone⟩
        · intro f hf
          obtain ⟨g',hsizes,hcontents,-⟩ := hs.files f hf
          exact ⟨g',hsizes,hcontents⟩
        · intro f hf
          obtain ⟨t,-,ht,hdate⟩ := hrun.dated.files f hf
          exact ⟨t,ht,hdate⟩
      next f hfind =>
        obtain ⟨rfl,heap,tmpVal,himport⟩ := himports
        rw [hfind]
        exact ⟨since,restart_imported hs hclock hg hfind himport⟩
  obtain ⟨since,hs⟩ := hinUse
  exact hs.globals.nets

theorem utcJune_datesForward : DatesForward utcJune := by
  intro t u v htu huv hdate
  simp only [Tm.date,utcJune,Prod.mk.injEq,true_and] at hdate ⊢
  omega

/-- A second network is stated before a restart on the same day: there is room for it in the table,
but it is not in use. -/
theorem networks_in_use_edited :
    ∃ s : Session, s.daemon.globals.sumIpCount = 8 ∧
      s.daemon.globals.nets.Perm ([⟨0x0000000a,30⟩].map StatedEntry.subnet) := by
  let stopped : Session :=
    { juneSession with files := [juneSession.saved zlibLength juneSession.today], running := false }
  have hrun : ConfiguredRun zlibLength utcJune [⟨0x0000000a,30⟩] stopped :=
    .running (.start oneSubnet_booted) rfl (.terminate rfl le_rfl)
  have hday : (utcJune 1340000000).date = juneSession.today := rfl
  have hfind : stopped.files.find? (·.date = (utcJune 1340000000).date) =
      some (juneSession.saved zlibLength juneSession.today) :=
    List.find?_cons_of_pos (decide_eq_true hday.symm)
  obtain ⟨g,himport,hcount⟩ : ∃ g, importRecordBy zlibLength (fun _ => 0) 0
      (resetTable twoSubnetGlobals) (exportRecordBy zlibLength juneSession.daemon.globals) = some g ∧
      g.sumIpCount = 8 :=
    ⟨_,importRecordBy_exportRecordBy zlibLength (fun _ => 0) 0 twoSubnet_booted.wellSized
      (keptByDaemon_wellSized.clock _ _ oneSubnet_booted.wellSized),rfl⟩
  have himports :
      stopped.Imports zlibLength (utcJune 1340000000).date (resetTable twoSubnetGlobals) g [] := by
    rw [Session.Imports,hfind]
    exact ⟨rfl,fun _ => 0,0,himport⟩
  have hrestart : ConfiguredRun zlibLength utcJune _
      ⟨startup utcJune 1340000000 (fun _ => 0) g,1340000000,[],stopped.files,true⟩ :=
    hrun.restart rfl le_rfl twoSubnet_booted himports
  have hinUse := networks_in_use utcJune_datesForward hrestart
  rw [hfind] at hinUse
  exact ⟨⟨startup utcJune 1340000000 (fun _ => 0) g,1340000000,[],stopped.files,true⟩,hcount,hinUse⟩

end Edits

end Flowstatd
