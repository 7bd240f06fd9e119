import Flowstatd.Framework.History
import Mathlib.Data.Finset.Card

/-!
# The kqueue multiplexer

`multiplex.c` keeps an array of changes for the kernel and an array of events from it, both with
one entry for each of its two sockets. All changes are handed over again at every wait.
-/

namespace Flowstatd

open Framework

/-- `MAX_MONITOR_FD_COUNT` -/
abbrev maxMonitorFdCount : Nat := 2

inductive KeventFlag where
  | add
  | enable
  | delete
  | disable
  | error
deriving DecidableEq

/-- `struct kevent`, as far as it is used. -/
structure Kevent where
  ident : Nat
  flags : List KeventFlag
deriving DecidableEq

/-- `kqueueMultiplexer_t`, without its methods and the descriptor of the queue. -/
structure KqueueMultiplexer where
  evlist : Fin maxMonitorFdCount → Kevent
  chlist : Fin maxMonitorFdCount → Kevent
  monitorFdCount : Nat

/-- The arrays stay as `malloc` gave them. -/
def kqueueInitImpl (heap : KqueueMultiplexer) : KqueueMultiplexer :=
  { heap with monitorFdCount := 0 }

def kqueueIsActiveImpl (m : KqueueMultiplexer) (fd : Nat) : Bool :=
  (List.finRange maxMonitorFdCount).any fun i =>
    i.val < m.monitorFdCount && (m.evlist i).ident == fd && KeventFlag.error ∉ (m.evlist i).flags

/-- `EV_SET` on the entry behind the last one; `none` where that is outside the array. -/
def KqueueMultiplexer.evSet (m : KqueueMultiplexer) (change : Kevent) : Option KqueueMultiplexer :=
  if h : m.monitorFdCount < maxMonitorFdCount then
    some { m with chlist := Function.update m.chlist ⟨m.monitorFdCount,h⟩ change }
  else none

def kqueueAddToListImpl (m : KqueueMultiplexer) (fd : Nat) : Option KqueueMultiplexer :=
  (m.evSet ⟨fd,[.add,.enable]⟩).map fun m => { m with monitorFdCount := m.monitorFdCount + 1 }

/-- The count is unsigned. -/
def kqueueRemoveFromListImpl (m : KqueueMultiplexer) (fd : Nat) : Option KqueueMultiplexer :=
  (m.evSet ⟨fd,[.delete,.disable]⟩).map fun m =>
    { m with monitorFdCount := (m.monitorFdCount + 0xffffffff) % 0x100000000 }

/-- `kevent` writes the events from the first entry on; `none` when it is interrupted. -/
def kqueueWaitImpl (m : KqueueMultiplexer) : Option (List Kevent) → KqueueMultiplexer × Int
  | none => (m,-1)
  | some events => ({ m with evlist := fun i => events.getD i (m.evlist i) },events.length)

/-- The changes that a wait hands over. -/
def KqueueMultiplexer.changes (m : KqueueMultiplexer) : List Kevent :=
  ((List.finRange maxMonitorFdCount).filter fun i => i.val < m.monitorFdCount).map m.chlist

/-- What the kernel does with a change that is for an open descriptor. -/
def Kevent.apply (watched : Finset Nat) (change : Kevent) : Finset Nat :=
  if .add ∈ change.flags then insert change.ident watched
  else if .delete ∈ change.flags then watched.erase change.ident
  else watched

inductive KqueueCall where
  | addToList (fd : Nat)
  | removeFromList (fd : Nat)
  /-- a wait with the events that the kernel finds, or interrupted -/
  | wait (events : Option (List Kevent))

/-- The multiplexer and the descriptors that the kernel watches for it. -/
structure Watching where
  multiplexer : KqueueMultiplexer
  watched : Finset Nat

/-- A call that stays inside the arrays. `kevent` takes the changes before it waits, and so also when
it is interrupted. -/
def KqueueCall.apply (s : Watching) : KqueueCall → Option Watching
  | .addToList fd => (kqueueAddToListImpl s.multiplexer fd).map fun m => { s with multiplexer := m }
  | .removeFromList fd =>
    (kqueueRemoveFromListImpl s.multiplexer fd).map fun m => { s with multiplexer := m }
  | .wait events =>
    if s.multiplexer.monitorFdCount ≤ maxMonitorFdCount ∧
        (events.getD []).length ≤ s.multiplexer.monitorFdCount then
      some {
        multiplexer := (kqueueWaitImpl s.multiplexer events).1
        watched := s.multiplexer.changes.foldl Kevent.apply s.watched }
    else none

abbrev KqueueHistory : List (Watching × KqueueCall) → Watching → Prop :=
  History (fun s => ∃ heap, s = ⟨kqueueInitImpl heap,∅⟩) fun s call s' => call.apply s = some s'

section Changes

variable {m m' : KqueueMultiplexer} {s s' : Watching}

/-- While the count is one of an array of two, its changes all add. -/
def OnlyAdds (m : KqueueMultiplexer) : Prop :=
  m.monitorFdCount ≤ maxMonitorFdCount → ∀ change ∈ m.changes, change.flags = [.add,.enable]

theorem mem_changes {change : Kevent} :
    change ∈ m.changes ↔ ∃ i : Fin maxMonitorFdCount, i < m.monitorFdCount ∧ m.chlist i = change := by
  simp [KqueueMultiplexer.changes,List.mem_finRange]

theorem evSet_some {change : Kevent} (h : m.evSet change = some m') :
    ∃ hlt : m.monitorFdCount < maxMonitorFdCount,
      m' = { m with chlist := Function.update m.chlist ⟨m.monitorFdCount,hlt⟩ change } := by
  simp only [KqueueMultiplexer.evSet] at h
  split_ifs at h with hlt
  exact ⟨hlt,(Option.some.inj h).symm⟩

theorem OnlyAdds.addToList {fd : Nat} (h : OnlyAdds m) (hm : kqueueAddToListImpl m fd = some m') :
    OnlyAdds m' := by
  obtain ⟨_,hset,rfl⟩ := Option.map_eq_some_iff.mp hm
  obtain ⟨hlt,rfl⟩ := evSet_some hset
  intro _ change hchange
  obtain ⟨i,hi,rfl⟩ := mem_changes.mp hchange
  by_cases hlast : i = ⟨m.monitorFdCount,hlt⟩
  · simp [hlast]
  · have hne : (i : Nat) ≠ m.monitorFdCount := fun heq => hlast (Fin.ext heq)
    simp only [Function.update_of_ne hlast]
    exact h hlt.le _ (mem_changes.mpr ⟨i,by simp only at hi; omega,rfl⟩)

/-- The change that removes is written behind the last one, and the count falls. -/
theorem OnlyAdds.removeFromList {fd : Nat} (h : OnlyAdds m)
    (hm : kqueueRemoveFromListImpl m fd = some m') : OnlyAdds m' := by
  obtain ⟨_,hset,rfl⟩ := Option.map_eq_some_iff.mp hm
  obtain ⟨hlt,rfl⟩ := evSet_some hset
  intro hcount change hchange
  obtain ⟨i,hi,rfl⟩ := mem_changes.mp hchange
  simp only [maxMonitorFdCount] at hcount hi hlt
  have hlast : i ≠ ⟨m.monitorFdCount,hlt⟩ := by
    intro heq
    have hval : (i : Nat) = m.monitorFdCount := congrArg Fin.val heq
    omega
  simp only [Function.update_of_ne hlast]
  exact h hlt.le _ (mem_changes.mpr ⟨i,by omega,rfl⟩)

theorem OnlyAdds.apply {call : KqueueCall} (h : OnlyAdds s.multiplexer)
    (hs : call.apply s = some s') : OnlyAdds s'.multiplexer := by
  cases call with
  | addToList fd =>
    obtain ⟨_,hm,rfl⟩ := Option.map_eq_some_iff.mp hs
    exact h.addToList hm
  | removeFromList fd =>
    obtain ⟨_,hm,rfl⟩ := Option.map_eq_some_iff.mp hs
    exact h.removeFromList hm
  | wait events =>
    simp only [KqueueCall.apply] at hs
    split_ifs at hs
    obtain rfl := Option.some.inj hs
    cases events <;> exact h

theorem onlyAdds_of_history {past : List (Watching × KqueueCall)} (h : KqueueHistory past s) :
    OnlyAdds s.multiplexer := by
  induction h with
  | start hs =>
    obtain ⟨heap,rfl⟩ := hs
    intro _ change hchange
    obtain ⟨i,hi,_⟩ := mem_changes.mp hchange
    exact absurd hi (Nat.not_lt_zero _)
  | step _ hs ih => exact ih.apply hs

theorem foldl_apply_adds {changes : List Kevent}
    (h : ∀ change ∈ changes, change.flags = [.add,.enable]) (watched : Finset Nat) :
    changes.foldl Kevent.apply watched = watched ∪ (changes.map Kevent.ident).toFinset := by
  induction changes generalizing watched with
  | nil => simp
  | cons change changes ih =>
    obtain ⟨hflags,hrest⟩ := List.forall_mem_cons.mp h
    have hadd : change.apply watched = insert change.ident watched := by
      simp [Kevent.apply,hflags]
    rw [List.foldl_cons,hadd,ih hrest]
    ext fd
    simp

/-- What a call makes the kernel watch. -/
def KqueueCall.registers (s : Watching) : KqueueCall → Finset Nat
  | .wait _ => (s.multiplexer.changes.map Kevent.ident).toFinset
  | _ => ∅

theorem watched_apply {call : KqueueCall} (h : OnlyAdds s.multiplexer)
    (hs : call.apply s = some s') : s'.watched = s.watched ∪ call.registers s := by
  cases call with
  | addToList fd =>
    obtain ⟨_,_,rfl⟩ := Option.map_eq_some_iff.mp hs
    simp [KqueueCall.registers]
  | removeFromList fd =>
    obtain ⟨_,_,rfl⟩ := Option.map_eq_some_iff.mp hs
    simp [KqueueCall.registers]
  | wait events =>
    simp only [KqueueCall.apply] at hs
    split_ifs at hs with hcount
    obtain rfl := Option.some.inj hs
    exact foldl_apply_adds (h hcount.1) s.watched

end Changes

/-- In every run of calls inside the arrays no wait hands over a removal: the kernel watches all
that any wait of the run registered, whatever was removed since. -/
theorem removal_never_reaches_kernel (past : List (Watching × KqueueCall)) (s : Watching)
    (h : KqueueHistory past s) :
    (∀ t ∈ past, ∀ events, t.2 = .wait events →
      ∀ change ∈ t.1.multiplexer.changes, change.flags = [.add,.enable]) ∧
    ∀ fd, fd ∈ s.watched ↔ ∃ t ∈ past, fd ∈ t.2.registers t.1 := by
  induction h with
  | start hs =>
    obtain ⟨heap,rfl⟩ := hs
    simp
  | @step past s s' call hpast hs ih =>
    have hadds := onlyAdds_of_history hpast
    constructor
    · rw [List.forall_mem_cons]
      refine ⟨?_,ih.1⟩
      rintro events rfl
      simp only [KqueueCall.apply] at hs
      split_ifs at hs with hcount
      exact hadds hcount.1
    · intro fd
      rw [watched_apply hadds hs,Finset.mem_union,ih.2]
      simp only [List.mem_cons,exists_eq_or_imp]
      exact or_comm

/-- What `malloc` gives, with nothing in it that matters. -/
def emptyHeap : KqueueMultiplexer := ⟨fun _ => ⟨0,[]⟩,fun _ => ⟨0,[]⟩,0⟩

/-- A descriptor is added, waited for, removed and waited for again. -/
def removalCalls : List KqueueCall :=
  [.addToList 5,.wait (some [⟨5,[]⟩]),.removeFromList 5,.wait none]

def removalRun : List (Watching × KqueueCall) × Watching :=
  trailFrom (fun s call => KqueueCall.apply s call) removalCalls ⟨kqueueInitImpl emptyHeap,∅⟩

theorem removal_never_reaches_kernel_once :
    removalRun.2.multiplexer.monitorFdCount = 0 ∧ removalRun.2.watched = {5} ∧
      (5 ∈ removalRun.2.watched ↔ ∃ t ∈ removalRun.1, 5 ∈ t.2.registers t.1) :=
  ⟨by decide,by decide,
    (removal_never_reaches_kernel _ _ (.trailFrom ⟨emptyHeap,rfl⟩ removalCalls)).2 5⟩

end Flowstatd
