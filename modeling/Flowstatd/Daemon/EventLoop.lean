import Flowstatd.Daemon.Multiplexer
import Flowstatd.Framework.Loop

/-!
# Rounds of the event loop

`main` waits for its two sockets and runs the loop body once for each one that is ready. The body
looks at the same ready set every time, and at the netflow socket first.
-/

namespace Flowstatd

open Framework

structure Listening where
  netflowSockFd : Nat
  flowstatdSockFd : Nat
  netflow_lt : netflowSockFd < fdSetSize
  flowstatd_lt : flowstatdSockFd < fdSetSize
  ne : netflowSockFd ≠ flowstatdSockFd

/-- What comes in on the two sockets over some time. -/
structure Arrivals where
  datagrams : Nat
  connections : Nat

/-- The multiplexer, what is queued on the sockets, and whether the program still runs. -/
structure LoopState where
  multiplexer : SelectMultiplexer
  datagrams : Nat
  connections : Nat
  live : Bool

/-- What the system does in a round. -/
structure RoundInput where
  /-- `select` returns -1, because of a signal. -/
  interrupted : Bool
  /-- What comes in until `select` returns. -/
  before : Arrivals
  /-- What comes in until the body has run for the `i`-th time. -/
  during : Nat → Arrivals
  /-- The call made in the `i`-th run of the body returns -1. -/
  fails : Nat → Bool

/-- `recvfrom` or `accept` on a socket, with the number of datagrams or connections queued there. -/
structure SocketCall where
  fd : Nat
  queued : Nat
deriving DecidableEq

namespace LoopState

def arrive (s : LoopState) (a : Arrivals) : LoopState :=
  { s with
    datagrams := s.datagrams + a.datagrams
    connections := s.connections + a.connections }

def readable (f : Listening) (s : LoopState) : Finset Nat :=
  (if 0 < s.datagrams then {f.netflowSockFd} else ∅) ∪
    if 0 < s.connections then {f.flowstatdSockFd} else ∅

end LoopState

def RoundInput.found (f : Listening) (x : RoundInput) (s : LoopState) : Option (Finset Nat) :=
  if x.interrupted then none else some ((s.arrive x.before).readable f)

/-- The loop body. A call on an empty queue blocks until something comes in and takes that, so the
queue is empty after it too. -/
def serveEvent (f : Listening) (x : RoundInput) (s : LoopState) (i : Nat) :
    LoopState × List SocketCall :=
  let s := s.arrive (x.during i)
  if selectIsActiveImpl s.multiplexer f.netflowSockFd then
    ({ s with datagrams := if x.fails i then s.datagrams else s.datagrams - 1 },
      [⟨f.netflowSockFd,s.datagrams⟩])
  else if selectIsActiveImpl s.multiplexer f.flowstatdSockFd then
    -- `Diep` ends the program
    ({ s with connections := s.connections - 1, live := !x.fails i },
      [⟨f.flowstatdSockFd,s.connections⟩])
  else (s,[])

/-- `for (i = 0; i < nev; i++)` -/
def serveEvents (f : Listening) (x : RoundInput) (nev : Int) (s : LoopState) :
    LoopState × List SocketCall :=
  (List.range nev.toNat).foldl
    (fun r i =>
      if r.1.live then
        let served := serveEvent f x r.1 i
        (served.1,r.2 ++ served.2)
      else r)
    (s,[])

def loopRound (f : Listening) (s : LoopState) (x : RoundInput) : LoopState × List SocketCall :=
  let waited := selectWaitImpl s.multiplexer (x.found f s)
  serveEvents f x waited.2 { s.arrive x.before with multiplexer := waited.1 }

/-- The descriptors that the wait of a round reports ready. -/
def reported (f : Listening) (s : LoopState) (x : RoundInput) : Finset Nat :=
  if x.interrupted then ∅ else (selectWaitImpl s.multiplexer (x.found f s)).1.chlist

/-- What `main` sets up, with anything queued already. -/
def LoopState.Start (f : Listening) (s : LoopState) : Prop :=
  s.multiplexer =
      selectAddToListImpl (selectAddToListImpl selectInitImpl f.netflowSockFd) f.flowstatdSockFd ∧
    s.live = true

/-- A round of a program that runs. `select` has no timeout, so something is ready or it is
interrupted. -/
def RoundStep (f : Listening) (s : LoopState) (x : RoundInput) (s' : LoopState) : Prop :=
  s.live = true ∧ (x.interrupted = true ∨ ((s.arrive x.before).readable f).Nonempty) ∧
    s' = (loopRound f s x).1

def LoopHistory (f : Listening) : List (LoopState × RoundInput) → LoopState → Prop :=
  History (LoopState.Start f) (RoundStep f)

/-- No call of the round blocks, and every socket reported ready is served. -/
structure RoundServes (f : Listening) (s : LoopState) (x : RoundInput) : Prop where
  available : ∀ call ∈ (loopRound f s x).2, 0 < call.queued
  served : ∀ fd ∈ reported f s x, ∃ call ∈ (loopRound f s x).2, call.fd = fd

def OneReady (s : LoopState) (x : RoundInput) : Prop :=
  x.interrupted = true ∨ s.datagrams + x.before.datagrams = 0 ∨
    s.connections + x.before.connections = 0

structure Registered (f : Listening) (s : LoopState) : Prop where
  evlist : s.multiplexer.evlist = {f.netflowSockFd,f.flowstatdSockFd}
  watched : WatchesAll s.multiplexer

section Rounds

variable {f : Listening} {s : LoopState} {x : RoundInput}

theorem serveEvent_multiplexer (i : Nat) :
    (serveEvent f x s i).1.multiplexer = s.multiplexer := by
  simp only [serveEvent]
  split_ifs <;> rfl

/-- The netflow socket comes first: while it is in the ready set no other call is made. -/
theorem serveEvent_netflow (h : f.netflowSockFd ∈ s.multiplexer.chlist) (i : Nat) :
    (serveEvent f x s i).2 = [⟨f.netflowSockFd,s.datagrams + (x.during i).datagrams⟩] := by
  simp [serveEvent,selectIsActiveImpl,h,LoopState.arrive]

theorem serveEvent_flowstatd (h : f.netflowSockFd ∉ s.multiplexer.chlist)
    (h' : f.flowstatdSockFd ∈ s.multiplexer.chlist) (i : Nat) :
    (serveEvent f x s i).2 = [⟨f.flowstatdSockFd,s.connections + (x.during i).connections⟩] := by
  simp [serveEvent,selectIsActiveImpl,h,h',LoopState.arrive]

theorem serveEvents_multiplexer (nev : Int) :
    (serveEvents f x nev s).1.multiplexer = s.multiplexer :=
  foldl_collecting LoopState.live (serveEvent f x)
    (P := fun r => r.1.multiplexer = s.multiplexer) rfl
    (fun _ i _ hr => (serveEvent_multiplexer i).trans hr) _

theorem serveEvents_netflow_only (h : f.netflowSockFd ∈ s.multiplexer.chlist) (nev : Int) :
    ∀ call ∈ (serveEvents f x nev s).2, call.fd = f.netflowSockFd := by
  have hboth := foldl_collecting LoopState.live (serveEvent f x) (s := s)
    (P := fun r => r.1.multiplexer = s.multiplexer ∧ ∀ call ∈ r.2, call.fd = f.netflowSockFd)
    ⟨rfl,by simp⟩ ?_ (List.range nev.toNat)
  · exact hboth.2
  · rintro r i - ⟨hm,hcalls⟩
    have hbody := serveEvent_netflow (x := x) (hm.symm ▸ h) i
    refine ⟨(serveEvent_multiplexer i).trans hm,?_⟩
    simpa [hbody,or_imp,forall_and] using hcalls

theorem serveEvents_one (h : s.live = true) :
    (serveEvents f x 1 s).2 = (serveEvent f x s 0).2 := by
  simp [serveEvents,h]

private theorem selectWaitImpl_frame (m : SelectMultiplexer) (readable : Option (Finset Nat)) :
    (selectWaitImpl m readable).1.evlist = m.evlist ∧
      (selectWaitImpl m readable).1.maxFd = m.maxFd := by
  cases readable <;> exact ⟨rfl,rfl⟩

theorem Registered.round (h : Registered f s) : Registered f (loopRound f s x).1 := by
  have hm : (loopRound f s x).1.multiplexer = (selectWaitImpl s.multiplexer (x.found f s)).1 :=
    serveEvents_multiplexer _
  have hframe := selectWaitImpl_frame s.multiplexer (x.found f s)
  refine ⟨by rw [hm,hframe.1,h.evlist],?_⟩
  rw [watchesAll_iff,hm,hframe.1,hframe.2]
  exact h.watched.le_maxFd

theorem Registered.start (h : s.Start f) : Registered f s := by
  have hwatched := (watchesAll_selectInitImpl.addToList f.netflowSockFd).addToList
    f.flowstatdSockFd
  rw [← h.1] at hwatched
  refine ⟨?_,hwatched⟩
  rw [h.1]
  simp [selectAddToListImpl,selectInitImpl,Finset.pair_comm]

theorem Registered.waited (h : Registered f s) (a : Arrivals) :
    selectWaitImpl s.multiplexer (some ((s.arrive a).readable f)) =
      ({ s.multiplexer with chlist := (s.arrive a).readable f },
        (((s.arrive a).readable f).card : Int)) := by
  have hsub : s.multiplexer.evlist.filter
      (fun fd => fd < s.multiplexer.maxFd + 1 ∧ fd ∈ (s.arrive a).readable f) =
        (s.arrive a).readable f := by
    ext fd
    simp only [Finset.mem_filter]
    constructor
    · exact fun hfd => hfd.2.2
    · intro hfd
      have hmem : fd ∈ s.multiplexer.evlist := by
        rw [h.evlist]
        simp only [LoopState.readable,Finset.mem_union] at hfd
        split_ifs at hfd <;> simp_all
      have hle := h.watched.le_maxFd fd hmem
      exact ⟨hmem,by omega,hfd⟩
  simp only [selectWaitImpl,hsub]

private theorem loopRound_uninterrupted (h : Registered f s) (hx : x.interrupted = false) :
    loopRound f s x = serveEvents f x ((s.arrive x.before).readable f).card
      { s.arrive x.before with
        multiplexer := { s.multiplexer with chlist := (s.arrive x.before).readable f } } ∧
      reported f s x = (s.arrive x.before).readable f := by
  have hfound : x.found f s = some ((s.arrive x.before).readable f) := by
    simp [RoundInput.found,hx]
  constructor
  · simp only [loopRound,hfound,h.waited]
  · simp only [reported,hx,hfound,h.waited]
    rfl

private theorem readable_eq (s : LoopState) (f : Listening) :
    (0 < s.datagrams ∧ 0 < s.connections ∧
      s.readable f = {f.netflowSockFd,f.flowstatdSockFd}) ∨
    (0 < s.datagrams ∧ s.connections = 0 ∧ s.readable f = {f.netflowSockFd}) ∨
    (s.datagrams = 0 ∧ 0 < s.connections ∧ s.readable f = {f.flowstatdSockFd}) ∨
    (s.datagrams = 0 ∧ s.connections = 0 ∧ s.readable f = ∅) := by
  rcases Nat.eq_zero_or_pos s.datagrams with hd | hd <;>
    rcases Nat.eq_zero_or_pos s.connections with hc | hc <;>
    simp [LoopState.readable,hd,hc]

private theorem RoundServes.single {call : SocketCall} (hcalls : (loopRound f s x).2 = [call])
    (hqueued : 0 < call.queued) (hreported : reported f s x = {call.fd}) : RoundServes f s x := by
  constructor
  · simpa [hcalls] using hqueued
  · simp [hcalls,hreported]

theorem roundServes_iff (h : Registered f s) (hlive : s.live = true) :
    RoundServes f s x ↔ OneReady s x := by
  cases hx : x.interrupted with
  | true =>
    have hcalls : (loopRound f s x).2 = [] := by
      simp [loopRound,RoundInput.found,hx,selectWaitImpl,serveEvents]
    have hnone : reported f s x = ∅ := by simp [reported,hx]
    refine ⟨fun _ => .inl hx,fun _ => ⟨by simp [hcalls],by simp [hnone]⟩⟩
  | false =>
    obtain ⟨hround,hreported⟩ := loopRound_uninterrupted h hx
    have hone : OneReady s x ↔ (s.arrive x.before).datagrams = 0 ∨
        (s.arrive x.before).connections = 0 := by
      simp [OneReady,hx,LoopState.arrive]
    rw [hone]
    rcases readable_eq (s.arrive x.before) f with
      ⟨hd,hc,hr⟩ | ⟨hd,hc,hr⟩ | ⟨hd,hc,hr⟩ | ⟨hd,hc,hr⟩
    · -- both are ready: the body calls `recvfrom` every time
      constructor
      · intro hserves
        have hflowstatd : f.flowstatdSockFd ∈ reported f s x := by simp [hreported,hr]
        obtain ⟨call,hcall,hfd⟩ := hserves.served _ hflowstatd
        rw [hround] at hcall
        have hnetflow := serveEvents_netflow_only (by simp [hr]) _ call hcall
        exact absurd (hnetflow.symm.trans hfd) f.ne
      · omega
    · have hcalls : (loopRound f s x).2 = [⟨f.netflowSockFd,
          (s.arrive x.before).datagrams + (x.during 0).datagrams⟩] := by
        rw [hround,hr,Finset.card_singleton,Int.natCast_one,serveEvents_one (by exact hlive)]
        exact serveEvent_netflow (by simp) 0
      have hserves := RoundServes.single hcalls (Nat.add_pos_left hd _) (hreported.trans hr)
      simp [hserves,hc]
    · have hcalls : (loopRound f s x).2 = [⟨f.flowstatdSockFd,
          (s.arrive x.before).connections + (x.during 0).connections⟩] := by
        rw [hround,hr,Finset.card_singleton,Int.natCast_one,serveEvents_one (by exact hlive)]
        exact serveEvent_flowstatd (by simp [f.ne]) (by simp) 0
      have hserves := RoundServes.single hcalls (Nat.add_pos_left hc _) (hreported.trans hr)
      simp [hserves,hd]
    · have hcalls : (loopRound f s x).2 = [] := by
        rw [hround,hr]
        simp [serveEvents]
      have hserves : RoundServes f s x := ⟨by simp [hcalls],by simp [hreported,hr]⟩
      simp [hserves,hd]

end Rounds

/-- In a run of the event loop no call blocks and every ready socket is served, in every round,
exactly if no wait of the run found both sockets ready. -/
theorem rounds_served_iff (f : Listening) (past : List (LoopState × RoundInput)) (s : LoopState)
    (h : LoopHistory f past s) :
    (∀ t ∈ past, RoundServes f t.1 t.2) ↔ ∀ t ∈ past, OneReady t.1 t.2 := by
  have hstart : ∀ s, LoopState.Start f s → Registered f s := fun s hs => .start hs
  refine h.forall_iff (RoundServes f) OneReady hstart ?_ ?_
  · rintro s x _ hs _ ⟨_,_,rfl⟩
    exact hs.round
  · rintro s x _ hs ⟨hlive,_,_⟩
    exact roundServes_iff hs hlive

def twoSockets : Listening := ⟨4,5,by decide,by decide,by decide⟩

/-- `main` in front of its loop, with datagrams and connections queued. -/
def queuedState (datagrams connections : Nat) : LoopState where
  multiplexer := selectAddToListImpl (selectAddToListImpl selectInitImpl 4) 5
  datagrams := datagrams
  connections := connections
  live := true

/-- A round in which nothing more comes in and nothing fails. -/
def quietRound : RoundInput := ⟨false,⟨0,0⟩,fun _ => ⟨0,0⟩,fun _ => false⟩

private theorem queuedState_history (datagrams connections : Nat)
    (h : ((queuedState datagrams connections).readable twoSockets).Nonempty) :
    LoopHistory twoSockets [(queuedState datagrams connections,quietRound)]
      (loopRound twoSockets (queuedState datagrams connections) quietRound).1 :=
  .step (.start ⟨rfl,rfl⟩) ⟨rfl,.inr h,rfl⟩

theorem rounds_served_iff_datagram :
    (∀ t ∈ [(queuedState 1 0,quietRound)], RoundServes twoSockets t.1 t.2) ↔
      ∀ t ∈ [(queuedState 1 0,quietRound)], OneReady t.1 t.2 :=
  rounds_served_iff twoSockets _ _ (queuedState_history 1 0 (by decide))

/-- With a datagram and a connection queued `recvfrom` is called twice, the second time on an empty
queue, and the connection is left waiting. -/
theorem second_recvfrom_blocks :
    LoopHistory twoSockets [(queuedState 1 1,quietRound)]
        (loopRound twoSockets (queuedState 1 1) quietRound).1 ∧
      (loopRound twoSockets (queuedState 1 1) quietRound).2 = [⟨4,1⟩,⟨4,0⟩] ∧
      reported twoSockets (queuedState 1 1) quietRound = {4,5} ∧
      ¬RoundServes twoSockets (queuedState 1 1) quietRound := by
  have hcalls : (loopRound twoSockets (queuedState 1 1) quietRound).2 = [⟨4,1⟩,⟨4,0⟩] := by
    decide
  refine ⟨queuedState_history 1 1 (by decide),hcalls,by decide,fun h => ?_⟩
  have hqueued := h.available ⟨4,0⟩ (by simp [hcalls])
  exact absurd hqueued (by decide)

end Flowstatd
