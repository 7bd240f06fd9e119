import Flowstatd.Framework.History
import Mathlib.Data.Finset.Card

/-!
# The select multiplexer

`multiplex.c` keeps a set of descriptors and the largest of them for `select`. Removing a
descriptor looks for the next one below the largest, whichever was removed.
-/

namespace Flowstatd

open Framework

/-- `FD_SETSIZE` -/
def fdSetSize : Nat := 1024

/-- `struct _selectMultiplexer_t`, without its methods. -/
structure SelectMultiplexer where
  evlist : Finset Nat
  chlist : Finset Nat
  maxFd : Nat
deriving DecidableEq

def selectInitImpl : SelectMultiplexer := ⟨∅,∅,0⟩

def selectIsActiveImpl (m : SelectMultiplexer) (fd : Nat) : Bool := fd ∈ m.chlist

def selectAddToListImpl (m : SelectMultiplexer) (fd : Nat) : SelectMultiplexer :=
  { m with
    evlist := insert fd m.evlist
    maxFd := if m.maxFd < fd then fd else m.maxFd }

/-- The loop of `selectRemoveFromListImpl`: the first member on the way down from `n - 1`. -/
def firstSetBelow (evlist : Finset Nat) : Nat → Option Nat
  | 0 => none
  | i+1 => if i ∈ evlist then some i else firstSetBelow evlist i

def selectRemoveFromListImpl (m : SelectMultiplexer) (fd : Nat) : SelectMultiplexer :=
  let evlist := m.evlist.erase fd
  { m with
    evlist := evlist
    -- without a member below, `maxFd` stays
    maxFd := (firstSetBelow evlist m.maxFd).getD m.maxFd }

/-- `select` leaves those of the first `maxFd + 1` descriptors that are readable, and counts them.
When it is interrupted (`none`) the copied list stays and the result is -1. -/
def selectWaitImpl (m : SelectMultiplexer) : Option (Finset Nat) → SelectMultiplexer × Int
  | none => ({ m with chlist := m.evlist },-1)
  | some readable =>
    let chlist := m.evlist.filter fun fd => fd < m.maxFd + 1 ∧ fd ∈ readable
    ({ m with chlist := chlist },chlist.card)

inductive MultiplexerCall where
  | addToList (fd : Nat)
  | removeFromList (fd : Nat)
deriving DecidableEq

namespace MultiplexerCall

def fd : MultiplexerCall → Nat
  | addToList fd => fd
  | removeFromList fd => fd

def apply (m : SelectMultiplexer) : MultiplexerCall → SelectMultiplexer
  | addToList fd => selectAddToListImpl m fd
  | removeFromList fd => selectRemoveFromListImpl m fd

end MultiplexerCall

/-- Sequences of calls with descriptors that fit an `fd_set`, after `selectInitImpl`. -/
def MultiplexerHistory : List (SelectMultiplexer × MultiplexerCall) → SelectMultiplexer → Prop :=
  History (fun m => m = selectInitImpl) fun m call m' => call.fd < fdSetSize ∧ m' = call.apply m

/-- No registered descriptor is above `maxFd`, and a wait reports each one that is readable. -/
structure WatchesAll (m : SelectMultiplexer) : Prop where
  le_maxFd : ∀ fd ∈ m.evlist, fd ≤ m.maxFd
  reported : ∀ readable, ∀ fd ∈ m.evlist, fd ∈ readable →
    selectIsActiveImpl (selectWaitImpl m (some readable)).1 fd = true

theorem watchesAll_iff (m : SelectMultiplexer) :
    WatchesAll m ↔ ∀ fd ∈ m.evlist, fd ≤ m.maxFd := by
  constructor
  · exact fun h => h.le_maxFd
  · intro h
    refine ⟨h,fun readable fd hfd hready => ?_⟩
    have hlt := h fd hfd
    simp only [selectIsActiveImpl,selectWaitImpl,Finset.mem_filter,decide_eq_true_eq]
    exact ⟨hfd,by omega,hready⟩

theorem firstSetBelow_eq_none {evlist : Finset Nat} {n : Nat}
    (h : firstSetBelow evlist n = none) : ∀ fd ∈ evlist, n ≤ fd := by
  induction n with
  | zero => simp
  | succ n ih =>
    intro fd hfd
    by_cases hn : n ∈ evlist
    · simp [firstSetBelow,hn] at h
    · simp only [firstSetBelow,hn,ite_false] at h
      have hne : fd ≠ n := fun heq => hn (heq ▸ hfd)
      have hle := ih h fd hfd
      omega

theorem firstSetBelow_eq_some {evlist : Finset Nat} {n i : Nat}
    (h : firstSetBelow evlist n = some i) :
    i < n ∧ i ∈ evlist ∧ ∀ fd ∈ evlist, fd < n → fd ≤ i := by
  induction n with
  | zero => simp [firstSetBelow] at h
  | succ n ih =>
    by_cases hn : n ∈ evlist
    · simp only [firstSetBelow,hn,ite_true,Option.some.injEq] at h
      subst h
      exact ⟨by omega,hn,fun fd _ hlt => by omega⟩
    · simp only [firstSetBelow,hn,ite_false] at h
      have hi := ih h
      refine ⟨by omega,hi.2.1,fun fd hfd hlt => ?_⟩
      have hne : fd ≠ n := fun heq => hn (heq ▸ hfd)
      exact hi.2.2 fd hfd (by omega)

theorem watchesAll_selectInitImpl : WatchesAll selectInitImpl := by
  rw [watchesAll_iff]
  simp [selectInitImpl]

theorem WatchesAll.addToList {m : SelectMultiplexer} (h : WatchesAll m) (fd : Nat) :
    WatchesAll (selectAddToListImpl m fd) := by
  rw [watchesAll_iff]
  intro k hk
  simp only [selectAddToListImpl,Finset.mem_insert] at hk ⊢
  rcases hk with rfl | hk
  · split_ifs <;> omega
  · have hle := h.le_maxFd k hk
    split_ifs <;> omega

/-- The descriptors for which a removal leaves the largest right: `maxFd` itself, or any as long as
`maxFd` is not registered or is all that remains. -/
def RemovalKeeps (m : SelectMultiplexer) (fd : Nat) : Prop :=
  fd = m.maxFd ∨ m.maxFd ∉ m.evlist ∨ ∀ k ∈ m.evlist, k = fd ∨ k = m.maxFd

instance (m : SelectMultiplexer) (fd : Nat) : Decidable (RemovalKeeps m fd) :=
  inferInstanceAs (Decidable (_ ∨ _ ∨ _))

theorem WatchesAll.removeFromList_iff {m : SelectMultiplexer} (h : WatchesAll m) (fd : Nat) :
    WatchesAll (selectRemoveFromListImpl m fd) ↔ RemovalKeeps m fd := by
  rw [watchesAll_iff,RemovalKeeps,selectRemoveFromListImpl]
  cases hfirst : firstSetBelow (m.evlist.erase fd) m.maxFd with
  | none =>
    -- nothing is left below `maxFd`
    have hnone := firstSetBelow_eq_none hfirst
    simp only [Option.getD_none,Finset.mem_erase] at hnone ⊢
    refine ⟨fun _ => .inr (.inr fun k hk => ?_),fun _ k hk => h.le_maxFd k hk.2⟩
    by_cases hne : k = fd
    · exact .inl hne
    · exact .inr (le_antisymm (h.le_maxFd k hk) (hnone k ⟨hne,hk⟩))
  | some i =>
    -- `i` becomes the largest, so `maxFd` must not be left
    have hsome := firstSetBelow_eq_some hfirst
    simp only [Option.getD_some,Finset.mem_erase] at hsome ⊢
    constructor
    · intro hle
      by_contra hcond
      simp only [not_or,not_not] at hcond
      have hmax := hle m.maxFd ⟨Ne.symm hcond.1,hcond.2.1⟩
      omega
    · intro hcond k hk
      have hkle := h.le_maxFd k hk.2
      apply hsome.2.2 k hk
      rcases hcond with hcond | hcond | hcond
      · omega
      · have hne : k ≠ m.maxFd := fun heq => hcond (heq ▸ hk.2)
        omega
      · have hi := hcond i hsome.2.1.2
        have hne := hsome.2.1.1
        omega

def CallKeeps (m : SelectMultiplexer) : MultiplexerCall → Prop
  | .addToList _ => True
  | .removeFromList fd => RemovalKeeps m fd

/-- In a run of calls everything registered is watched throughout exactly if each removal is of
one of those descriptors. -/
theorem watches_all_iff (past : List (SelectMultiplexer × MultiplexerCall)) (m : SelectMultiplexer)
    (h : MultiplexerHistory past m) :
    (WatchesAll m ∧ ∀ t ∈ past, WatchesAll t.1) ↔ ∀ t ∈ past, CallKeeps t.1 t.2 := by
  refine h.states_iff (fun m hm => hm ▸ watchesAll_selectInitImpl) ?_
  rintro m call _ hm ⟨_,rfl⟩
  cases call with
  | addToList fd => exact ⟨fun _ => trivial,fun _ => hm.addToList fd⟩
  | removeFromList fd => exact hm.removeFromList_iff fd

/-- Every sequence of calls with such descriptors has a history. -/
theorem exists_multiplexerHistory (calls : List MultiplexerCall)
    (h : ∀ call ∈ calls, call.fd < fdSetSize) :
    ∃ past, MultiplexerHistory past (calls.foldl MultiplexerCall.apply selectInitImpl) ∧
      past.map Prod.snd = calls.reverse := by
  induction calls using List.reverseRecOn with
  | nil => exact ⟨[],.start rfl,rfl⟩
  | append_singleton calls call ih =>
    obtain ⟨past,hpast,hcalls⟩ := ih fun c hc => h c (by simp [hc])
    have hstep := hpast.step (a := call) ⟨h call (by simp),rfl⟩
    exact ⟨_,by simpa [MultiplexerHistory] using hstep,by simp [hcalls]⟩

theorem watches_all_iff_largest :
    ∃ (past : List (SelectMultiplexer × MultiplexerCall)) (m : SelectMultiplexer),
      past.map Prod.snd = [.removeFromList 5,.addToList 5,.addToList 3] ∧
      ((WatchesAll m ∧ ∀ t ∈ past, WatchesAll t.1) ↔ ∀ t ∈ past, CallKeeps t.1 t.2) := by
  obtain ⟨past,hpast,hcalls⟩ := exists_multiplexerHistory
    [.addToList 3,.addToList 5,.removeFromList 5] (by decide)
  exact ⟨past,_,hcalls,watches_all_iff past _ hpast⟩

/-- With 3, 4 and 5 registered, removing 3 makes 4 the largest, and 5 is not watched any more. -/
theorem removal_loses_largest :
    ∃ past m, MultiplexerHistory past m ∧
      past.map Prod.snd = [.removeFromList 3,.addToList 5,.addToList 4,.addToList 3] ∧
      5 ∈ m.evlist ∧ m.maxFd = 4 ∧ (selectWaitImpl m (some {5})).2 = 0 ∧ ¬WatchesAll m := by
  obtain ⟨past,hpast,hcalls⟩ := exists_multiplexerHistory
    [.addToList 3,.addToList 4,.addToList 5,.removeFromList 3] (by decide)
  refine ⟨past,_,hpast,hcalls,by decide,by decide,by decide,?_⟩
  rw [watchesAll_iff]
  decide

end Flowstatd
