import Flowstatd.Daemon.EventLoop
import Flowstatd.Daemon.Kqueue

/-!
# The event loop on either multiplexer

`main` calls the multiplexer through its methods, so one loop body serves both. With kqueue the body
looks at the whole array of events, also behind those that the last wait wrote.
-/

namespace Flowstatd

open Framework

/-- The methods of `MultiplexerFunc_t` that the loop calls. A wait is told which descriptors are
ready, in the order in which the kernel finds them. -/
structure MultiplexerFunc (σ : Type) where
  isActive : σ → Nat → Bool
  wait : σ → Option (List Nat) → σ × Int

def selectFuncs : MultiplexerFunc SelectMultiplexer where
  isActive := selectIsActiveImpl
  wait m ready := selectWaitImpl m (ready.map List.toFinset)

def kqueueFuncs : MultiplexerFunc KqueueMultiplexer where
  isActive := kqueueIsActiveImpl
  wait m ready := kqueueWaitImpl m (ready.map fun fds => fds.map fun fd => ⟨fd,[]⟩)

/-- What `main` works on. -/
structure ServerState (σ : Type) where
  multiplexer : σ
  datagrams : Nat
  connections : Nat
  live : Bool

/-- A round, and the order in which two ready sockets are found. -/
structure Wakeup extends RoundInput where
  netflowFirst : Bool

namespace ServerState

variable {σ : Type}

def arrive (s : ServerState σ) (a : Arrivals) : ServerState σ :=
  { s with
    datagrams := s.datagrams + a.datagrams
    connections := s.connections + a.connections }

/-- What the wait of a round finds. -/
def ready (f : Listening) (x : Wakeup) (s : ServerState σ) : Option (List Nat) :=
  if x.interrupted then none
  else
    let s := s.arrive x.before
    let netflow := if 0 < s.datagrams then [f.netflowSockFd] else []
    let flowstatd := if 0 < s.connections then [f.flowstatdSockFd] else []
    some (if x.netflowFirst then netflow ++ flowstatd else flowstatd ++ netflow)

end ServerState

namespace MultiplexerFunc

variable {σ : Type} (m : MultiplexerFunc σ) (f : Listening)

/-- The loop body. -/
def serveEvent (x : Wakeup) (s : ServerState σ) (i : Nat) : ServerState σ × List SocketCall :=
  let s := s.arrive (x.during i)
  if m.isActive s.multiplexer f.netflowSockFd then
    ({ s with datagrams := if x.fails i then s.datagrams else s.datagrams - 1 },
      [⟨f.netflowSockFd,s.datagrams⟩])
  else if m.isActive s.multiplexer f.flowstatdSockFd then
    ({ s with connections := s.connections - 1, live := !x.fails i },
      [⟨f.flowstatdSockFd,s.connections⟩])
  else (s,[])

def serveEvents (x : Wakeup) (nev : Int) (s : ServerState σ) : ServerState σ × List SocketCall :=
  (List.range nev.toNat).foldl
    (fun r i =>
      if r.1.live then
        let served := m.serveEvent f x r.1 i
        (served.1,r.2 ++ served.2)
      else r)
    (s,[])

/-- A round in which nothing is found is a wait that goes on. -/
def loopRound (s : ServerState σ) (x : Wakeup) : ServerState σ × List SocketCall :=
  let waited := m.wait s.multiplexer (s.ready f x)
  m.serveEvents f x waited.2 { s.arrive x.before with multiplexer := waited.1 }

/-- The rounds from a state on, with the state before each. -/
def rounds : List Wakeup → ServerState σ → List (ServerState σ × Wakeup)
  | [], _ => []
  | x :: xs, s => (s,x) :: rounds xs (m.loopRound f s x).1

/-- The calls of the rounds from a state on. -/
def calls (xs : List Wakeup) (s : ServerState σ) : List (List SocketCall) :=
  (m.rounds f xs s).map fun t => (m.loopRound f t.1 t.2).2

end MultiplexerFunc

/-- Two servers with the same queues, whatever their multiplexers. -/
structure SameQueues {σ τ : Type} (s : ServerState σ) (t : ServerState τ) : Prop where
  datagrams : s.datagrams = t.datagrams
  connections : s.connections = t.connections
  live : s.live = t.live

section Bodies

variable {σ τ : Type} {m : MultiplexerFunc σ} {n : MultiplexerFunc τ} {f : Listening} {x : Wakeup}

/-- The body sees the same sockets ready. -/
def SameActive (m : MultiplexerFunc σ) (n : MultiplexerFunc τ) (f : Listening) (s : ServerState σ)
    (t : ServerState τ) : Prop :=
  m.isActive s.multiplexer f.netflowSockFd = n.isActive t.multiplexer f.netflowSockFd ∧
    (n.isActive t.multiplexer f.netflowSockFd = false →
      m.isActive s.multiplexer f.flowstatdSockFd = n.isActive t.multiplexer f.flowstatdSockFd)

theorem MultiplexerFunc.serveEvent_multiplexer (s : ServerState σ) (i : Nat) :
    (m.serveEvent f x s i).1.multiplexer = s.multiplexer := by
  simp only [serveEvent]
  split_ifs <;> rfl

theorem SameQueues.serveEvent {s : ServerState σ} {t : ServerState τ} (h : SameQueues s t)
    (hactive : SameActive m n f s t) (i : Nat) :
    SameQueues (m.serveEvent f x s i).1 (n.serveEvent f x t i).1 ∧
      (m.serveEvent f x s i).2 = (n.serveEvent f x t i).2 := by
  obtain ⟨hnetflow,hflowstatd⟩ := hactive
  simp only [MultiplexerFunc.serveEvent,ServerState.arrive,h.datagrams,h.connections]
  by_cases hn : n.isActive t.multiplexer f.netflowSockFd = true
  · simp only [hnetflow.trans hn,hn,if_true]
    exact ⟨⟨rfl,rfl,h.live⟩,trivial⟩
  · rw [Bool.not_eq_true] at hn
    simp only [hnetflow.trans hn,hn,hflowstatd hn,Bool.false_eq_true,if_false]
    by_cases hc : n.isActive t.multiplexer f.flowstatdSockFd = true
    · simp only [hc,if_true]
      exact ⟨⟨rfl,rfl,rfl⟩,trivial⟩
    · simp only [hc,Bool.false_eq_true,if_false]
      exact ⟨⟨rfl,rfl,h.live⟩,trivial⟩

/-- The loops over the events have come to the same point. -/
structure SameServed (m : MultiplexerFunc σ) (n : MultiplexerFunc τ) (f : Listening)
    (r : ServerState σ × List SocketCall) (r' : ServerState τ × List SocketCall) : Prop where
  queues : SameQueues r.1 r'.1
  calls : r.2 = r'.2
  active : SameActive m n f r.1 r'.1

theorem SameQueues.serveEvents {s : ServerState σ} {t : ServerState τ} (h : SameQueues s t)
    (hactive : SameActive m n f s t) (nev : Int) :
    SameServed m n f (m.serveEvents f x nev s) (n.serveEvents f x nev t) := by
  apply List.foldl_rel (r := SameServed m n f)
  · exact ⟨h,rfl,hactive⟩
  · intro i _ r r' hr
    rw [← hr.queues.live]
    by_cases hlive : r.1.live = true
    · obtain ⟨hnext,hmore⟩ := hr.queues.serveEvent (x := x) hr.active i
      rw [if_pos hlive,if_pos hlive]
      refine ⟨hnext,congrArg₂ (· ++ ·) hr.calls hmore,?_⟩
      simp only [SameActive,MultiplexerFunc.serveEvent_multiplexer]
      exact hr.active
    · rw [if_neg hlive,if_neg hlive]
      exact hr

theorem SameQueues.ready {s : ServerState σ} {t : ServerState τ} (h : SameQueues s t) :
    s.ready f x = t.ready f x := by
  obtain ⟨_,_,_,_⟩ := s
  obtain ⟨_,_,_,_⟩ := t
  obtain ⟨rfl,rfl,_⟩ := h
  rfl

theorem SameQueues.loopRound {s : ServerState σ} {t : ServerState τ} (h : SameQueues s t)
    (hnev : (m.wait s.multiplexer (s.ready f x)).2 = (n.wait t.multiplexer (t.ready f x)).2)
    (hactive : SameActive m n f { s with multiplexer := (m.wait s.multiplexer (s.ready f x)).1 }
      { t with multiplexer := (n.wait t.multiplexer (t.ready f x)).1 }) :
    SameServed m n f (m.loopRound f s x) (n.loopRound f t x) := by
  rw [MultiplexerFunc.loopRound,MultiplexerFunc.loopRound,← hnev]
  apply SameQueues.serveEvents
  · simp only [ServerState.arrive,h.datagrams,h.connections]
    exact ⟨rfl,rfl,h.live⟩
  · exact hactive

end Bodies

section Select

variable {f : Listening}

def LoopState.server (s : LoopState) : ServerState SelectMultiplexer :=
  ⟨s.multiplexer,s.datagrams,s.connections,s.live⟩

def LoopState.served (r : LoopState × List SocketCall) :
    ServerState SelectMultiplexer × List SocketCall :=
  (r.1.server,r.2)

theorem server_serveEvent (x : Wakeup) (s : LoopState) (i : Nat) :
    selectFuncs.serveEvent f x s.server i = LoopState.served (serveEvent f x.toRoundInput s i) := by
  simp only [serveEvent,MultiplexerFunc.serveEvent,selectFuncs,LoopState.served,LoopState.server,
    LoopState.arrive,ServerState.arrive]
  by_cases hn : selectIsActiveImpl s.multiplexer f.netflowSockFd = true
  · simp only [hn,if_true]
  · by_cases hc : selectIsActiveImpl s.multiplexer f.flowstatdSockFd = true
    · simp only [hn,hc,if_true,Bool.false_eq_true,if_false]
    · simp only [hn,hc,Bool.false_eq_true,if_false]

theorem server_serveEvents (x : Wakeup) (s : LoopState) (nev : Int) :
    selectFuncs.serveEvents f x nev s.server =
      LoopState.served (serveEvents f x.toRoundInput nev s) := by
  change List.foldl _ (LoopState.served (s,[])) _ = _
  apply List.foldl_hom LoopState.served
  intro r i
  have hlive : (LoopState.served r).1.live = r.1.live := rfl
  simp only [hlive]
  by_cases h : r.1.live = true
  · rw [if_pos h,if_pos h]
    simp only [LoopState.served,server_serveEvent]
  · rw [if_neg h,if_neg h]

theorem server_ready (x : Wakeup) (s : LoopState) :
    (s.server.ready f x).map List.toFinset = x.toRoundInput.found f s := by
  simp only [ServerState.ready,RoundInput.found,LoopState.readable,ServerState.arrive,
    LoopState.arrive,LoopState.server]
  cases x.interrupted with
  | true => rfl
  | false =>
    simp only [Bool.false_eq_true,if_false,Option.map_some]
    congr 1
    ext fd
    by_cases hd : 0 < s.datagrams + x.before.datagrams <;>
      by_cases hc : 0 < s.connections + x.before.connections <;>
      cases x.netflowFirst <;> simp [hd,hc,or_comm]

/-- With select this is the loop modelled before. -/
theorem server_loopRound (x : Wakeup) (s : LoopState) :
    selectFuncs.loopRound f s.server x = LoopState.served (loopRound f s x.toRoundInput) := by
  have hready := server_ready (f := f) x s
  simp only [selectFuncs] at hready ⊢
  simp only [loopRound,MultiplexerFunc.loopRound,← hready]
  exact server_serveEvents x { s.arrive x.toRoundInput.before with multiplexer := _ } _

end Select

section Kqueue

variable {f : Listening} {x : Wakeup} {m : KqueueMultiplexer}

/-- An entry of the array of events is for a descriptor. -/
def KqueueMultiplexer.Names (m : KqueueMultiplexer) (i : Fin maxMonitorFdCount) (fd : Nat) : Prop :=
  (m.evlist i).ident = fd ∧ .error ∉ (m.evlist i).flags

instance (m : KqueueMultiplexer) (i : Fin maxMonitorFdCount) (fd : Nat) : Decidable (m.Names i fd) :=
  inferInstanceAs (Decidable (_ ∧ _))

theorem kqueueIsActiveImpl_iff (h : m.monitorFdCount = 2) (fd : Nat) :
    kqueueIsActiveImpl m fd = true ↔ m.Names 0 fd ∨ m.Names 1 fd := by
  have hrange : List.finRange maxMonitorFdCount = [0,1] := by decide
  simp [kqueueIsActiveImpl,hrange,h,KqueueMultiplexer.Names]

theorem kqueueFuncs_wait (m : KqueueMultiplexer) (ready : Option (List Nat)) :
    (kqueueFuncs.wait m ready).1.monitorFdCount = m.monitorFdCount := by
  cases ready <;> rfl

theorem kqueueFuncs_wait_length (m : KqueueMultiplexer) (fds : List Nat) :
    (kqueueFuncs.wait m (some fds)).2 = fds.length := by
  simp [kqueueFuncs,kqueueWaitImpl]

/-- What a wait can find. -/
theorem ready_cases {σ : Type} (s : ServerState σ) :
    s.ready f x = none ∨ s.ready f x = some [] ∨ s.ready f x = some [f.netflowSockFd] ∨
      s.ready f x = some [f.flowstatdSockFd] ∨
      s.ready f x = some [f.netflowSockFd,f.flowstatdSockFd] ∨
      s.ready f x = some [f.flowstatdSockFd,f.netflowSockFd] := by
  simp only [ServerState.ready]
  cases x.interrupted with
  | true => simp
  | false =>
    by_cases hd : 0 < (s.arrive x.before).datagrams <;>
      by_cases hc : 0 < (s.arrive x.before).connections <;>
      cases x.netflowFirst <;> simp [hd,hc]

theorem MultiplexerFunc.serveEvents_multiplexer {σ : Type} {m : MultiplexerFunc σ}
    (s : ServerState σ) (nev : Int) :
    (m.serveEvents f x nev s).1.multiplexer = s.multiplexer :=
  foldl_collecting ServerState.live (m.serveEvent f x)
    (P := fun r => r.1.multiplexer = s.multiplexer) rfl
    (fun r i _ hr => (serveEvent_multiplexer r.1 i).trans hr) _

theorem MultiplexerFunc.serveEvents_none {σ : Type} {m : MultiplexerFunc σ} {s : ServerState σ}
    {nev : Int} (h : nev ≤ 0 ∨ s.live = false) : m.serveEvents f x nev s = (s,[]) := by
  rcases h with hnev | hlive
  · rw [serveEvents,Int.toNat_of_nonpos hnev]
    rfl
  · apply foldl_collecting ServerState.live (m.serveEvent f x)
      (P := fun r => r = (s,[])) rfl
    rintro _ i hr rfl
    simp [hlive] at hr

theorem MultiplexerFunc.loopRound_multiplexer {σ : Type} {m : MultiplexerFunc σ}
    (s : ServerState σ) :
    (m.loopRound f s x).1.multiplexer = (m.wait s.multiplexer (s.ready f x)).1 :=
  serveEvents_multiplexer _ _

theorem MultiplexerFunc.serveEvents_one {σ : Type} {m : MultiplexerFunc σ} {s : ServerState σ}
    (h : s.live = true) : (m.serveEvents f x 1 s).2 = (m.serveEvent f x s 0).2 := by
  simp [serveEvents,h]

/-- Only a connection is ready, and the second entry is still for the netflow socket. -/
def Mistaken (f : Listening) (s : ServerState KqueueMultiplexer) (x : Wakeup) : Prop :=
  s.live = true ∧ s.ready f x = some [f.flowstatdSockFd] ∧ s.multiplexer.Names 1 f.netflowSockFd

/-- What select reports of the sockets that are ready. -/
theorem Registered.selectFuncs_wait {s : LoopState} (h : Registered f s) {fds : List Nat}
    (hready : s.server.ready f x = some fds) :
    (selectFuncs.wait s.server.multiplexer (some fds)).2 = fds.length ∧
      ∀ fd, selectFuncs.isActive (selectFuncs.wait s.server.multiplexer (some fds)).1 fd = true ↔
        fd ∈ fds := by
  have hmultiplexer : s.server.multiplexer = s.multiplexer := rfl
  have hfound := server_ready (f := f) x s
  have hnodup : fds.Nodup := by
    have hne := f.ne
    have hcases := ready_cases (f := f) (x := x) s.server
    simp only [hready,Option.some.injEq,reduceCtorEq,false_or] at hcases
    rcases hcases with rfl | rfl | rfl | rfl | rfl <;> simp [hne,hne.symm]
  rw [hready,Option.map_some,RoundInput.found] at hfound
  split_ifs at hfound
  have hset := Option.some.inj hfound
  simp only [selectFuncs,Option.map_some,hset,hmultiplexer,h.waited,selectIsActiveImpl,
    decide_eq_true_eq]
  rw [← hset]
  exact ⟨by rw [List.toFinset_card_of_nodup hnodup],fun fd => List.mem_toFinset⟩

theorem names_wait (fds : List Nat) (i : Fin maxMonitorFdCount) (fd : Nat) :
    (kqueueFuncs.wait m (some fds)).1.Names i fd ↔
      if i < fds.length then fds[i]? = some fd else m.Names i fd := by
  simp only [kqueueFuncs,Option.map_some,kqueueWaitImpl,KqueueMultiplexer.Names,
    List.getD_eq_getElem?_getD,List.getElem?_map]
  by_cases h : i < fds.length
  · simp [h]
  · simp [h]

theorem kqueueFuncs_wait_iff (h : m.monitorFdCount = 2) (fds : List Nat) (fd : Nat) :
    kqueueFuncs.isActive (kqueueFuncs.wait m (some fds)).1 fd = true ↔
      (if 0 < fds.length then fds[0]? = some fd else m.Names 0 fd) ∨
        if 1 < fds.length then fds[1]? = some fd else m.Names 1 fd := by
  have hcount := (kqueueFuncs_wait m (some fds)).trans h
  simp only [kqueueFuncs] at hcount ⊢
  rw [kqueueIsActiveImpl_iff hcount]
  exact or_congr (names_wait fds 0 fd) (names_wait fds 1 fd)

/-- Where no event is served, the rounds differ in their multiplexers only. -/
theorem SameQueues.idle {σ τ : Type} {m : MultiplexerFunc σ} {n : MultiplexerFunc τ}
    {s : ServerState σ} {t : ServerState τ} (h : SameQueues s t)
    (hs : (m.wait s.multiplexer (s.ready f x)).2 ≤ 0 ∨ s.live = false)
    (ht : (n.wait t.multiplexer (t.ready f x)).2 ≤ 0 ∨ t.live = false) :
    SameQueues (m.loopRound f s x).1 (n.loopRound f t x).1 ∧
      (m.loopRound f s x).2 = (n.loopRound f t x).2 := by
  rw [MultiplexerFunc.loopRound,MultiplexerFunc.loopRound,
    MultiplexerFunc.serveEvents_none (by exact hs),MultiplexerFunc.serveEvents_none (by exact ht)]
  refine ⟨⟨?_,?_,h.live⟩,rfl⟩
  · simp only [ServerState.arrive,h.datagrams]
  · simp only [ServerState.arrive,h.connections]

/-- The two loops go on alike, unless kqueue mistakes the entry of an earlier wait for a new one. -/
theorem SameQueues.kqueueRound {s : LoopState} {t : ServerState KqueueMultiplexer}
    (h : SameQueues t s.server) (hcount : t.multiplexer.monitorFdCount = 2)
    (hs : Registered f s) (hx : ¬Mistaken f t x) :
    SameQueues (kqueueFuncs.loopRound f t x).1 (selectFuncs.loopRound f s.server x).1 ∧
      (kqueueFuncs.loopRound f t x).2 = (selectFuncs.loopRound f s.server x).2 := by
  have hsame : t.ready f x = s.server.ready f x := h.ready
  have hne := f.ne
  by_cases hlive : t.live = true
  · cases hready : t.ready f x with
    | none =>
      apply h.idle
      · rw [hready]
        exact .inl (by simp [kqueueFuncs,kqueueWaitImpl])
      · rw [← hsame,hready]
        exact .inl (by simp [selectFuncs,selectWaitImpl])
    | some fds =>
      obtain ⟨hcard,hselect⟩ := hs.selectFuncs_wait (hsame.symm.trans hready)
      have hkcard := kqueueFuncs_wait_length t.multiplexer fds
      have hkqueue := kqueueFuncs_wait_iff hcount fds
      have hcases := ready_cases (f := f) (x := x) t
      simp only [hready,Option.some.injEq,reduceCtorEq,false_or] at hcases
      rcases hcases with rfl | hfds
      · apply h.idle
        · rw [hready]
          exact .inl hkcard.le
        · rw [← hsame,hready]
          exact .inl hcard.le
      · have hround := h.loopRound (m := kqueueFuncs) (n := selectFuncs) (f := f) (x := x) ?_ ?_
        · exact ⟨hround.queues,hround.calls⟩
        · rw [← hsame,hready]
          exact hkcard.trans hcard.symm
        · rw [← hsame,hready]
          simp only [SameActive]
          constructor
          · rw [Bool.eq_iff_iff,hkqueue,hselect]
            rcases hfds with rfl | rfl | rfl | rfl
            · simp
            · have hmistaken : ¬t.multiplexer.Names 1 f.netflowSockFd :=
                fun hnames => hx ⟨hlive,hready,hnames⟩
              simp [hne,hne.symm,hmistaken]
            · simp
            · simp
          · intro hinactive
            have hnetflow : f.netflowSockFd ∉ fds := by simp [← hselect,hinactive]
            rw [Bool.eq_iff_iff,hkqueue,hselect]
            rcases hfds with rfl | rfl | rfl | rfl
            · simp at hnetflow
            · simp
            · simp at hnetflow
            · simp at hnetflow
  · rw [Bool.not_eq_true] at hlive
    exact h.idle (.inr hlive) (.inr (h.live.symm.trans hlive))

/-- A mistaken round calls `recvfrom` where select has `accept` called. -/
theorem Mistaken.calls_ne {s : LoopState} {t : ServerState KqueueMultiplexer}
    (hx : Mistaken f t x) (h : SameQueues t s.server) (hcount : t.multiplexer.monitorFdCount = 2)
    (hs : Registered f s) :
    (kqueueFuncs.loopRound f t x).2 ≠ (selectFuncs.loopRound f s.server x).2 := by
  obtain ⟨hlive,hready,hnames⟩ := hx
  have hready' : s.server.ready f x = some [f.flowstatdSockFd] := h.ready.symm.trans hready
  obtain ⟨hcard,hselect⟩ := hs.selectFuncs_wait hready'
  have hkqueue : kqueueFuncs.isActive
      (kqueueFuncs.wait t.multiplexer (some [f.flowstatdSockFd])).1 f.netflowSockFd = true :=
    (kqueueFuncs_wait_iff hcount _ _).mpr (.inr hnames)
  have hnetflow : selectFuncs.isActive
      (selectFuncs.wait s.server.multiplexer (some [f.flowstatdSockFd])).1 f.netflowSockFd =
        false := by
    rw [← Bool.not_eq_true,hselect]
    simp [f.ne]
  have hflowstatd := (hselect f.flowstatdSockFd).mpr (by simp)
  simp only [MultiplexerFunc.loopRound,hready,hready',hcard,kqueueFuncs_wait_length,
    List.length_singleton,Int.natCast_one]
  rw [MultiplexerFunc.serveEvents_one (by exact hlive),
    MultiplexerFunc.serveEvents_one (by exact h.live.symm.trans hlive)]
  simp only [MultiplexerFunc.serveEvent,ServerState.arrive,hkqueue,hnetflow,hflowstatd,if_true,
    Bool.false_eq_true,if_false]
  simp [f.ne]

theorem kqueueRound_count (t : ServerState KqueueMultiplexer) :
    (kqueueFuncs.loopRound f t x).1.multiplexer.monitorFdCount =
      t.multiplexer.monitorFdCount := by
  rw [MultiplexerFunc.loopRound_multiplexer,kqueueFuncs_wait]

theorem calls_as_select_iff {s : LoopState} {t : ServerState KqueueMultiplexer}
    (h : SameQueues t s.server) (hcount : t.multiplexer.monitorFdCount = 2)
    (hs : Registered f s) (xs : List Wakeup) :
    kqueueFuncs.calls f xs t = selectFuncs.calls f xs s.server ↔
      ∀ r ∈ kqueueFuncs.rounds f xs t, ¬Mistaken f r.1 r.2 := by
  induction xs generalizing s t with
  | nil => simp [MultiplexerFunc.calls,MultiplexerFunc.rounds]
  | cons x xs ih =>
    simp only [MultiplexerFunc.calls,MultiplexerFunc.rounds,List.map_cons,List.cons.injEq,
      List.forall_mem_cons]
    by_cases hx : Mistaken f t x
    · have hne := hx.calls_ne h hcount hs
      exact iff_of_false (fun heq => hne heq.1) fun hall => hall.1 hx
    · obtain ⟨hqueues,hcalls⟩ := h.kqueueRound hcount hs hx
      rw [server_loopRound] at hqueues
      have hnext := ih hqueues ((kqueueRound_count t).trans hcount)
        (hs.round (x := x.toRoundInput))
      simp only [MultiplexerFunc.calls] at hnext
      rw [server_loopRound] at hcalls ⊢
      simp only [hcalls,hx,not_false_eq_true,true_and]
      exact hnext

/-- The second entry stays for the netflow socket until a wait finds both sockets the other way
round. -/
theorem names_wait_netflow {t : ServerState KqueueMultiplexer}
    (hnames : t.multiplexer.Names 1 f.netflowSockFd ∨
      t.ready f x = some [f.flowstatdSockFd,f.netflowSockFd])
    (hready : t.ready f x ≠ some [f.netflowSockFd,f.flowstatdSockFd]) :
    (kqueueFuncs.wait t.multiplexer (t.ready f x)).1.Names 1 f.netflowSockFd := by
  rcases hnames with hnames | hboth
  · rcases ready_cases (f := f) (x := x) t with h | h | h | h | h | h
    · rw [h]
      exact hnames
    · rw [h,names_wait]
      exact hnames
    · rw [h,names_wait]
      exact hnames
    · rw [h,names_wait]
      exact hnames
    · exact absurd h hready
    · rw [h,names_wait]
      rfl
  · rw [hboth,names_wait]
    rfl

/-- The body looks no further than at the netflow socket. -/
theorem names_kqueueRound {t : ServerState KqueueMultiplexer}
    (hcount : t.multiplexer.monitorFdCount = 2)
    (hwaited : (kqueueFuncs.wait t.multiplexer (t.ready f x)).1.Names 1 f.netflowSockFd) :
    (kqueueFuncs.loopRound f t x).1.multiplexer.Names 1 f.netflowSockFd ∧
      ∀ call ∈ (kqueueFuncs.loopRound f t x).2, call.fd = f.netflowSockFd := by
  rw [MultiplexerFunc.loopRound_multiplexer]
  refine ⟨hwaited,?_⟩
  have hactive : kqueueFuncs.isActive (kqueueFuncs.wait t.multiplexer (t.ready f x)).1
      f.netflowSockFd = true := by
    apply (kqueueIsActiveImpl_iff _ _).mpr (.inr hwaited)
    rw [kqueueFuncs_wait,hcount]
  have hserved := foldl_collecting ServerState.live (kqueueFuncs.serveEvent f x)
    (s := { t.arrive x.before with
      multiplexer := (kqueueFuncs.wait t.multiplexer (t.ready f x)).1 })
    (P := fun r => r.1.multiplexer = (kqueueFuncs.wait t.multiplexer (t.ready f x)).1 ∧
      ∀ call ∈ r.2, call.fd = f.netflowSockFd)
    ⟨rfl,by simp⟩ ?_ (List.range (kqueueFuncs.wait t.multiplexer (t.ready f x)).2.toNat)
  · exact hserved.2
  · rintro r i _ ⟨hm,hcalls⟩
    refine ⟨(MultiplexerFunc.serveEvent_multiplexer r.1 i).trans hm,?_⟩
    have hbody : (kqueueFuncs.serveEvent f x r.1 i).2 =
        [⟨f.netflowSockFd,r.1.datagrams + (x.during i).datagrams⟩] := by
      simp [MultiplexerFunc.serveEvent,ServerState.arrive,hm,hactive]
    simpa [hbody,or_imp,forall_and] using hcalls

/-- What `main` sets up with kqueue. -/
def ServerState.KqueueStart (f : Listening) (t : ServerState KqueueMultiplexer) : Prop :=
  (∃ heap, (kqueueAddToListImpl (kqueueInitImpl heap) f.netflowSockFd).bind
    (fun m => kqueueAddToListImpl m f.flowstatdSockFd) = some t.multiplexer) ∧ t.live = true

theorem ServerState.KqueueStart.count {t : ServerState KqueueMultiplexer} (h : t.KqueueStart f) :
    t.multiplexer.monitorFdCount = 2 := by
  obtain ⟨⟨heap,hadded⟩,_⟩ := h
  simp [kqueueAddToListImpl,kqueueInitImpl,KqueueMultiplexer.evSet] at hadded
  rw [← hadded]

def MultiplexerFunc.after {σ : Type} (m : MultiplexerFunc σ) (f : Listening) (xs : List Wakeup)
    (s : ServerState σ) : ServerState σ :=
  xs.foldl (fun s x => (m.loopRound f s x).1) s

theorem after_count (t : ServerState KqueueMultiplexer) (xs : List Wakeup) :
    (kqueueFuncs.after f xs t).multiplexer.monitorFdCount = t.multiplexer.monitorFdCount := by
  induction xs generalizing t with
  | nil => rfl
  | cons x xs ih => exact (ih _).trans (kqueueRound_count t)

theorem calls_netflow_only {t : ServerState KqueueMultiplexer}
    (hcount : t.multiplexer.monitorFdCount = 2) (hnames : t.multiplexer.Names 1 f.netflowSockFd)
    (xs : List Wakeup) (hxs : ∀ r ∈ kqueueFuncs.rounds f xs t,
      r.1.ready f r.2 ≠ some [f.netflowSockFd,f.flowstatdSockFd]) :
    ∀ calls ∈ kqueueFuncs.calls f xs t, ∀ call ∈ calls, call.fd = f.netflowSockFd := by
  induction xs generalizing t with
  | nil => simp [MultiplexerFunc.calls,MultiplexerFunc.rounds]
  | cons x xs ih =>
    obtain ⟨hx,hrest⟩ := List.forall_mem_cons.mp hxs
    obtain ⟨hnext,hcalls⟩ := names_kqueueRound hcount (names_wait_netflow (.inl hnames) hx)
    have hlater := ih ((kqueueRound_count t).trans hcount) hnext hrest
    simp only [MultiplexerFunc.calls,MultiplexerFunc.rounds,List.map_cons,List.forall_mem_cons]
    exact ⟨hcalls,hlater⟩

end Kqueue

/-- With kqueue `main` makes the calls that it makes with select, over any number of rounds, exactly
if no wait of the run finds only a connection while the second entry of the array, from an earlier
wait or from `malloc`, is for the netflow socket. -/
theorem kqueue_calls_as_select_iff (f : Listening) (t : ServerState KqueueMultiplexer)
    (s : LoopState) (ht : t.KqueueStart f) (hs : s.Start f) (h : SameQueues t s.server)
    (xs : List Wakeup) :
    kqueueFuncs.calls f xs t = selectFuncs.calls f xs s.server ↔
      ∀ r ∈ kqueueFuncs.rounds f xs t, ¬Mistaken f r.1 r.2 :=
  calls_as_select_iff h ht.count (.start hs) xs

/-- `main` in front of its loop with kqueue, with datagrams and connections queued. -/
def kqueueQueued (datagrams connections : Nat) : ServerState KqueueMultiplexer where
  multiplexer := ((kqueueAddToListImpl (kqueueInitImpl emptyHeap) 4).bind
    (fun m => kqueueAddToListImpl m 5)).getD emptyHeap
  datagrams := datagrams
  connections := connections
  live := true

theorem kqueueQueued_start (datagrams connections : Nat) :
    (kqueueQueued datagrams connections).KqueueStart twoSockets :=
  ⟨⟨emptyHeap,rfl⟩,rfl⟩

/-- Nothing more comes in and nothing fails; of two ready sockets the connection is found first. -/
def quietWakeup : Wakeup := ⟨quietRound,false⟩

theorem kqueue_calls_as_select_iff_connection :
    kqueueFuncs.calls twoSockets [quietWakeup] (kqueueQueued 0 1) =
        selectFuncs.calls twoSockets [quietWakeup] (queuedState 0 1).server ↔
      ∀ r ∈ kqueueFuncs.rounds twoSockets [quietWakeup] (kqueueQueued 0 1),
        ¬Mistaken twoSockets r.1 r.2 :=
  kqueue_calls_as_select_iff twoSockets (kqueueQueued 0 1) (queuedState 0 1)
    (kqueueQueued_start 0 1) ⟨rfl,rfl⟩ ⟨rfl,rfl,rfl⟩ [quietWakeup]

/-- Once a wait of a run with kqueue has found a connection and then a datagram, `accept` is not
called any more, in that round neither, until a wait finds a datagram and then a connection. -/
theorem kqueue_starves_connections (f : Listening) (t : ServerState KqueueMultiplexer)
    (ht : t.KqueueStart f) (xs ys : List Wakeup) (x : Wakeup)
    (hx : (kqueueFuncs.after f xs t).ready f x = some [f.flowstatdSockFd,f.netflowSockFd])
    (hys : ∀ r ∈ kqueueFuncs.rounds f ys (kqueueFuncs.after f (xs ++ [x]) t),
      r.1.ready f r.2 ≠ some [f.netflowSockFd,f.flowstatdSockFd]) :
    ∀ calls ∈ kqueueFuncs.calls f (x :: ys) (kqueueFuncs.after f xs t),
      ∀ call ∈ calls, call.fd = f.netflowSockFd := by
  have hcount := (after_count (f := f) t xs).trans ht.count
  have hother : (kqueueFuncs.after f xs t).ready f x ≠
      some [f.netflowSockFd,f.flowstatdSockFd] := by
    simp [hx,f.ne.symm]
  obtain ⟨hnext,hcalls⟩ := names_kqueueRound hcount (names_wait_netflow (.inr hx) hother)
  rw [MultiplexerFunc.after,List.foldl_append] at hys
  have hlater := calls_netflow_only ((kqueueRound_count _).trans hcount) hnext ys hys
  simp only [MultiplexerFunc.calls,MultiplexerFunc.rounds,List.map_cons,List.forall_mem_cons]
  exact ⟨hcalls,hlater⟩

/-- With two connections and two datagrams queued the first round takes the datagrams, and the second
one calls `recvfrom` on an empty queue. -/
theorem kqueue_starves_connections_queued :
    kqueueFuncs.calls twoSockets [quietWakeup,quietWakeup] (kqueueQueued 2 2) =
        [[⟨4,2⟩,⟨4,1⟩],[⟨4,0⟩]] ∧
      ∀ calls ∈ kqueueFuncs.calls twoSockets [quietWakeup,quietWakeup] (kqueueQueued 2 2),
        ∀ call ∈ calls, call.fd = 4 :=
  ⟨by decide,kqueue_starves_connections twoSockets (kqueueQueued 2 2) (kqueueQueued_start 2 2) []
    [quietWakeup] quietWakeup (by decide) (by decide)⟩

end Flowstatd
