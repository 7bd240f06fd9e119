import Mathlib.Order.Nat

/-!
# While loops under a fuel bound

A loop whose body may itself fail to end is run with an explicit amount of fuel. The outcome
keeps the state in which the fuel ran out, so that statements about everything a loop touches
also cover the loops that never end.
-/

namespace Flowstatd.Framework

variable {σ τ : Type}

/-- A bounded run either leaves the loop or is cut off in some state. -/
inductive Outcome (σ : Type) where
  | finished (s : σ)
  | cut (s : σ)
deriving DecidableEq

namespace Outcome

def state : Outcome σ → σ
  | .finished s => s
  | .cut s => s

def map (f : σ → τ) : Outcome σ → Outcome τ
  | .finished s => .finished (f s)
  | .cut s => .cut (f s)

def bind : Outcome σ → (σ → Outcome σ) → Outcome σ
  | .finished s, f => f s
  | .cut s, _ => .cut s

def isFinished : Outcome σ → Bool
  | .finished _ => true
  | .cut _ => false

theorem eq_finished_state {o : Outcome σ} (h : o.isFinished = true) : o = .finished o.state := by
  cases o with
  | finished s => rfl
  | cut s => exact absurd h (by simp [isFinished])

@[simp] theorem state_finished (s : σ) : (finished s).state = s := rfl
@[simp] theorem state_cut (s : σ) : (cut s).state = s := rfl
@[simp] theorem map_finished (f : σ → τ) (s : σ) : (finished s).map f = .finished (f s) := rfl
@[simp] theorem map_cut (f : σ → τ) (s : σ) : (cut s).map f = .cut (f s) := rfl
@[simp] theorem bind_finished (s : σ) (f : σ → Outcome σ) : (finished s).bind f = f s := rfl
@[simp] theorem bind_cut (s : σ) (f : σ → Outcome σ) : (cut s).bind f = .cut s := rfl

@[simp] theorem state_map (f : σ → τ) (o : Outcome σ) : (o.map f).state = f o.state := by
  cases o <;> rfl

theorem map_eq_finished {f : σ → τ} {o : Outcome σ} {t : τ} :
    o.map f = .finished t ↔ ∃ s, o = .finished s ∧ f s = t := by
  cases o <;> simp

end Outcome

/-- A computation takes fuel and a state. More fuel never changes a finished result. -/
def Steady (c : Nat → σ → Outcome τ) : Prop :=
  ∀ n k s s', n ≤ k → c n s = .finished s' → c k s = .finished s'

/-- The computation ends in `s'` once the fuel suffices. -/
def Ends (c : Nat → σ → Outcome τ) (s : σ) (s' : τ) : Prop := ∃ n, c n s = .finished s'

def Terminates (c : Nat → σ → Outcome τ) (s : σ) : Prop := ∃ s', Ends c s s'

/-- `P` holds of the state shown at every amount of fuel. -/
def Always (c : Nat → σ → Outcome τ) (P : τ → Prop) (s : σ) : Prop := ∀ n, P (c n s).state

theorem Ends.unique {c : Nat → σ → Outcome τ} (hc : Steady c) {s : σ} {t t' : τ}
    (h : Ends c s t) (h' : Ends c s t') : t = t' := by
  obtain ⟨n,hn⟩ := h
  obtain ⟨k,hk⟩ := h'
  have hl := hc n (max n k) s t (le_max_left n k) hn
  have hr := hc k (max n k) s t' (le_max_right n k) hk
  rw [hl] at hr
  exact Outcome.finished.inj hr

theorem steady_finished (f : σ → τ) : Steady fun _ s => .finished (f s) :=
  fun _ _ _ _ _ h => h

theorem ends_finished {f : σ → τ} {s : σ} {t : τ} :
    Ends (fun _ s => .finished (f s)) s t ↔ f s = t :=
  ⟨fun ⟨_,h⟩ => Outcome.finished.inj h,fun h => ⟨0,congrArg Outcome.finished h⟩⟩

theorem Steady.map {c : Nat → σ → Outcome τ} (hc : Steady c) {υ : Type} (f : τ → υ) :
    Steady fun n s => (c n s).map f := by
  intro n k s u hnk h
  obtain ⟨t,ht,rfl⟩ := Outcome.map_eq_finished.mp h
  exact Outcome.map_eq_finished.mpr ⟨t,hc n k s t hnk ht,rfl⟩

theorem ends_map {c : Nat → σ → Outcome τ} {υ : Type} {f : τ → υ} {s : σ} {u : υ} :
    Ends (fun n s => (c n s).map f) s u ↔ ∃ t, Ends c s t ∧ f t = u := by
  constructor
  · rintro ⟨n,h⟩
    obtain ⟨t,ht,hu⟩ := Outcome.map_eq_finished.mp h
    exact ⟨t,⟨n,ht⟩,hu⟩
  · rintro ⟨t,⟨n,ht⟩,hu⟩
    exact ⟨n,Outcome.map_eq_finished.mpr ⟨t,ht,hu⟩⟩

theorem Steady.comp {c : Nat → σ → Outcome τ} (hc : Steady c) {υ : Type} (f : υ → σ) :
    Steady fun n s => c n (f s) :=
  fun n k s t hnk h => hc n k (f s) t hnk h

theorem Steady.bind {c : Nat → σ → Outcome τ} (hc : Steady c) (f : τ → τ) :
    Steady fun n s => (c n s).bind fun t => .finished (f t) := by
  intro n k s u hnk h
  cases ht : c n s with
  | cut t => simp [ht] at h
  | finished t =>
    simp only [ht,hc n k s t hnk ht] at h ⊢
    exact h

theorem ends_bind {c : Nat → σ → Outcome τ} {f : τ → τ} {s : σ} {u : τ} :
    Ends (fun n s => (c n s).bind fun t => .finished (f t)) s u ↔ ∃ t, Ends c s t ∧ f t = u := by
  constructor
  · rintro ⟨n,h⟩
    cases ht : c n s with
    | cut t => simp [ht] at h
    | finished t => exact ⟨t,⟨n,ht⟩,by simpa [ht] using h⟩
  · rintro ⟨t,⟨n,ht⟩,hu⟩
    exact ⟨n,by simp only [ht,Outcome.bind_finished,hu]⟩

section While

variable (guard : σ → Prop) [DecidablePred guard] (body : Nat → σ → Outcome σ)

/-- `while (guard) body`. One unit of fuel pays for one round; the body gets what is left. -/
def whileLoop : Nat → σ → Outcome σ
  | 0, s => if guard s then .cut s else .finished s
  | n+1, s => if guard s then (body n s).bind (whileLoop n) else .finished s

/-- The states in which the loop started at `s` tests its guard. -/
inductive AtHead (s : σ) : σ → Prop
  | start : AtHead s s
  | next {s' s'' : σ} : AtHead s s' → guard s' → Ends body s' s'' → AtHead s s''

variable {guard body}

theorem whileLoop_exit {n : Nat} {s : σ} (h : ¬guard s) :
    whileLoop guard body n s = .finished s := by
  cases n <;> simp [whileLoop,h]

theorem whileLoop_succ {n : Nat} {s : σ} (h : guard s) :
    whileLoop guard body (n+1) s = (body n s).bind (whileLoop guard body n) := by
  simp [whileLoop,h]

theorem whileLoop_steady (hb : Steady body) : Steady (whileLoop guard body) := by
  intro n
  induction n with
  | zero =>
    intro k s s' _ h
    by_cases hg : guard s
    · simp [whileLoop,hg] at h
    · rw [whileLoop_exit hg] at h ⊢
      exact h
  | succ n ih =>
    intro k s s' hnk h
    by_cases hg : guard s
    · obtain ⟨k,rfl⟩ : ∃ j, k = j+1 := ⟨k-1,by omega⟩
      rw [whileLoop_succ hg] at h ⊢
      cases hbody : body n s with
      | cut t => simp [hbody] at h
      | finished t =>
        rw [hbody,Outcome.bind_finished] at h
        rw [hb n k s t (by omega) hbody,Outcome.bind_finished]
        exact ih k t s' (by omega) h
    · rw [whileLoop_exit hg] at h ⊢
      exact h

theorem ends_exit {s : σ} (h : ¬guard s) : Ends (whileLoop guard body) s s :=
  ⟨0,whileLoop_exit h⟩

theorem ends_step (hb : Steady body) {s t s' : σ} (hg : guard s) (h : Ends body s t)
    (h' : Ends (whileLoop guard body) t s') : Ends (whileLoop guard body) s s' := by
  obtain ⟨n,hn⟩ := h
  obtain ⟨k,hk⟩ := h'
  refine ⟨max n k+1,?_⟩
  rw [whileLoop_succ hg,hb n _ s t (le_max_left n k) hn,Outcome.bind_finished]
  exact whileLoop_steady hb k _ t s' (le_max_right n k) hk

/-- Inversion: a loop that ends was either not entered or ends after its first round. -/
theorem ends_cases {s s' : σ} (h : Ends (whileLoop guard body) s s') :
    (¬guard s ∧ s' = s) ∨
      (guard s ∧ ∃ t, Ends body s t ∧ Ends (whileLoop guard body) t s') := by
  obtain ⟨n,hn⟩ := h
  by_cases hg : guard s
  · right
    cases n with
    | zero => simp [whileLoop,hg] at hn
    | succ n =>
      rw [whileLoop_succ hg] at hn
      cases hbody : body n s with
      | cut t => simp [hbody] at hn
      | finished t => exact ⟨hg,t,⟨n,hbody⟩,n,by simpa [hbody] using hn⟩
  · left
    rw [whileLoop_exit hg] at hn
    exact ⟨hg,(Outcome.finished.inj hn).symm⟩

/-- A measure that falls in every round reached bounds the number of rounds. -/
theorem terminates_of_measure (hb : Steady body) (μ : σ → Nat) {s : σ}
    (h : ∀ t, AtHead guard body s t → guard t → ∃ t', Ends body t t' ∧ μ t' < μ t) :
    Terminates (whileLoop guard body) s := by
  suffices hs : ∀ n t, μ t ≤ n → AtHead guard body s t →
      Terminates (whileLoop guard body) t from hs _ s le_rfl .start
  intro n
  induction n with
  | zero =>
    intro t hn ht
    by_cases hg : guard t
    · obtain ⟨t',_,hlt⟩ := h t ht hg
      omega
    · exact ⟨t,ends_exit hg⟩
  | succ n ih =>
    intro t hn ht
    by_cases hg : guard t
    · obtain ⟨t',hend,hlt⟩ := h t ht hg
      obtain ⟨u,hu⟩ := ih t' (by omega) (.next ht hg hend)
      exact ⟨u,ends_step hb hg hend hu⟩
    · exact ⟨t,ends_exit hg⟩

/-- Total correctness: an invariant and a measure that falls in every round. -/
theorem ends_of_measure (hb : Steady body) (P : σ → Prop) (μ : σ → Nat)
    (h : ∀ s, P s → guard s → ∃ t, Ends body s t ∧ P t ∧ μ t < μ s) {s : σ} (hs : P s) :
    ∃ s', Ends (whileLoop guard body) s s' ∧ P s' ∧ ¬guard s' := by
  suffices hbound : ∀ n s, μ s ≤ n → P s →
      ∃ s', Ends (whileLoop guard body) s s' ∧ P s' ∧ ¬guard s' from hbound _ s le_rfl hs
  intro n
  induction n with
  | zero =>
    intro s hn hs
    by_cases hg : guard s
    · obtain ⟨t,_,_,hlt⟩ := h s hs hg
      omega
    · exact ⟨s,ends_exit hg,hs,hg⟩
  | succ n ih =>
    intro s hn hs
    by_cases hg : guard s
    · obtain ⟨t,hend,ht,hlt⟩ := h s hs hg
      obtain ⟨s',hs',hgood⟩ := ih t (by omega) ht
      exact ⟨s',ends_step hb hg hend hs',hgood⟩
    · exact ⟨s,ends_exit hg,hs,hg⟩

theorem terminates_atHead (hb : Steady body) {s t : σ}
    (h : Terminates (whileLoop guard body) s) (ht : AtHead guard body s t) :
    Terminates (whileLoop guard body) t := by
  induction ht with
  | start => exact h
  | @next t t' _ hg hend ih =>
    obtain ⟨u,hu⟩ := ih
    rcases ends_cases hu with ⟨hn,_⟩ | ⟨_,v,hv,hw⟩
    · exact absurd hg hn
    · rw [hend.unique hb hv]
      exact ⟨u,hw⟩

theorem terminates_body (hb : Steady body) {s t : σ}
    (h : Terminates (whileLoop guard body) s) (ht : AtHead guard body s t) (hg : guard t) :
    Terminates body t := by
  obtain ⟨u,hu⟩ := terminates_atHead hb h ht
  rcases ends_cases hu with ⟨hn,_⟩ | ⟨_,v,hv,_⟩
  · exact absurd hg hn
  · exact ⟨v,hv⟩

/-- A set of states that satisfies the guard and is closed under the body traps the loop. -/
theorem not_terminates_of_trap (J : σ → Prop) (hg : ∀ s, J s → guard s)
    (hJ : ∀ s s', J s → Ends body s s' → J s') {s : σ} (hs : J s) :
    ¬Terminates (whileLoop guard body) s := by
  rintro ⟨s',n,hn⟩
  induction n generalizing s with
  | zero => simp [whileLoop,hg s hs] at hn
  | succ n ih =>
    rw [whileLoop_succ (hg s hs)] at hn
    cases hbody : body n s with
    | cut t => simp [hbody] at hn
    | finished t => exact ih (hJ s t hs ⟨n,hbody⟩) (by simpa [hbody] using hn)

/-- An invariant of the loop heads that each body run keeps in all the states it shows. -/
theorem always_whileLoop {P : σ → Prop} {s : σ} (hs : P s)
    (h : ∀ t, AtHead guard body s t → guard t → P t → Always body P t) :
    Always (whileLoop guard body) P s := by
  suffices hn : ∀ n t, AtHead guard body s t → P t → P (whileLoop guard body n t).state from
    fun n => hn n s .start hs
  intro n
  induction n with
  | zero =>
    intro t _ hP
    by_cases hg : guard t <;> simpa [whileLoop,hg] using hP
  | succ n ih =>
    intro t ht hP
    by_cases hg : guard t
    · have hbody := h t ht hg hP n
      rw [whileLoop_succ hg]
      cases hb : body n t with
      | cut u => simpa [hb] using hbody
      | finished u => exact ih u (.next ht hg ⟨n,hb⟩) (by simpa [hb] using hbody)
    · rw [whileLoop_exit hg]
      exact hP

omit [DecidablePred guard] in
private theorem AtHead.prepend {s t u : σ} (hg : guard s) (h : Ends body s t)
    (hu : AtHead guard body t u) : AtHead guard body s u := by
  induction hu with
  | start => exact .next .start hg h
  | next _ hg' hend ih => exact .next ih hg' hend

/-- A loop that ends does so at a head that fails the guard. -/
theorem ends_atHead {s s' : σ} (h : Ends (whileLoop guard body) s s') :
    AtHead guard body s s' ∧ ¬guard s' := by
  obtain ⟨n,hn⟩ := h
  induction n generalizing s with
  | zero =>
    by_cases hg : guard s
    · simp [whileLoop,hg] at hn
    · rw [whileLoop_exit hg] at hn
      exact Outcome.finished.inj hn ▸ ⟨.start,hg⟩
  | succ n ih =>
    by_cases hg : guard s
    · rw [whileLoop_succ hg] at hn
      cases hbody : body n s with
      | cut t => simp [hbody] at hn
      | finished t =>
        obtain ⟨hhead,hexit⟩ := ih (s := t) (by simpa [hbody] using hn)
        exact ⟨hhead.prepend hg ⟨n,hbody⟩,hexit⟩
    · rw [whileLoop_exit hg] at hn
      exact Outcome.finished.inj hn ▸ ⟨.start,hg⟩

private theorem whileLoop_from_head (hb : Steady body) {s t : σ} (ht : AtHead guard body s t) :
    ∀ j, ∃ n k, j ≤ k ∧ whileLoop guard body n s = whileLoop guard body k t := by
  induction ht with
  | start => exact fun j => ⟨j,j,le_rfl,rfl⟩
  | @next t t' _ hg hend ih =>
    intro j
    obtain ⟨i,hi⟩ := hend
    obtain ⟨n,k,hk,hrun⟩ := ih (max i j+1)
    obtain ⟨k,rfl⟩ : ∃ l, k = l+1 := ⟨k-1,by omega⟩
    refine ⟨n,k,by omega,?_⟩
    rw [hrun,whileLoop_succ hg,hb i k t t' (by omega) hi,Outcome.bind_finished]

end While

/-- More fuel only extends the state shown, in the order `R`. -/
structure Grows (R : τ → τ → Prop) (c : Nat → τ → Outcome τ) : Prop where
  start : ∀ n s, R s (c n s).state
  fuel : ∀ n k s, n ≤ k → R (c n s).state (c k s).state

theorem grows_finished {R : τ → τ → Prop} (hrefl : ∀ a, R a a) {f : τ → τ}
    (h : ∀ s, R s (f s)) : Grows R fun _ s => .finished (f s) :=
  ⟨fun _ s => h s,fun _ _ _ _ => hrefl _⟩

/-- For a computation that ends, what holds in the end held all the time. -/
theorem always_iff_of_ends {R : τ → τ → Prop} {c : Nat → τ → Outcome τ} (hc : Steady c)
    (h : Grows R c) {P : τ → Prop} (hP : ∀ a b, R a b → P b → P a) {s t : τ}
    (hend : Ends c s t) : Always c P s ↔ P t := by
  obtain ⟨n,hn⟩ := hend
  constructor
  · intro hs
    simpa [hn] using hs n
  · intro ht k
    have hmax := hc n (max n k) s t (le_max_left n k) hn
    have hR := h.fuel k (max n k) s (le_max_right n k)
    rw [hmax] at hR
    exact hP _ _ hR ht

section Compose

variable {ι : Type} {R : τ → τ → Prop}

theorem Grows.comp (htrans : ∀ a b c, R a b → R b c → R a c) {c : Nat → τ → Outcome τ}
    (h : Grows R c) {f : τ → τ} (hf : ∀ s, R s (f s)) : Grows R fun n s => c n (f s) :=
  ⟨fun n s => htrans _ _ _ (hf s) (h.start n (f s)),fun n k s hnk => h.fuel n k (f s) hnk⟩

theorem Grows.bind (hrefl : ∀ a, R a a) (htrans : ∀ a b c, R a b → R b c → R a c)
    {c : Nat → τ → Outcome τ} (hc : Steady c) (h : Grows R c) {f : τ → τ} (hf : ∀ s, R s (f s)) :
    Grows R fun n s => (c n s).bind fun t => .finished (f t) := by
  have hbind (o : Outcome τ) : R o.state (o.bind fun t => .finished (f t)).state := by
    cases o with
    | finished t => exact hf t
    | cut t => exact hrefl t
  refine ⟨fun n s => htrans _ _ _ (h.start n s) (hbind _),?_⟩
  intro n k s hnk
  cases ht : c n s with
  | finished t =>
    simp only [hc n k s t hnk ht]
    exact hrefl _
  | cut t =>
    have hR := h.fuel n k s hnk
    rw [ht] at hR
    exact htrans _ _ _ hR (hbind _)

theorem Grows.snd {c : Nat → ι × τ → Outcome (ι × τ)} (h : Grows (fun a b => R a.2 b.2) c)
    (i : ι) : Grows R fun n t => (c n (i,t)).map Prod.snd := by
  constructor
  · intro n t
    simpa only [Outcome.state_map] using h.start n (i,t)
  · intro n k t hnk
    simpa only [Outcome.state_map] using h.fuel n k (i,t) hnk

theorem Grows.indexed {c : ι → Nat → τ → Outcome τ} (h : ∀ i, Grows R (c i)) :
    Grows (fun a b : ι × τ => R a.2 b.2) fun n s => (c s.1 n s.2).map (Prod.mk s.1) := by
  constructor
  · intro n s
    simpa only [Outcome.state_map] using (h s.1).start n s.2
  · intro n k s hnk
    simpa only [Outcome.state_map] using (h s.1).fuel n k s.2 hnk

/-- What holds throughout a computation with a last step behind it. -/
theorem always_bind_iff {c : Nat → τ → Outcome τ} {f : τ → τ} (hf : ∀ s, R s (f s))
    {P : τ → Prop} (hP : ∀ a b, R a b → P b → P a) {s : τ} :
    Always (fun n s => (c n s).bind fun t => .finished (f t)) P s ↔
      Always c P s ∧ ∀ t, Ends c s t → P (f t) := by
  constructor
  · intro h
    refine ⟨fun n => ?_,?_⟩
    · have hn := h n
      cases ht : c n s with
      | finished t => exact hP _ _ (hf t) (by simpa [ht] using hn)
      | cut t => simpa [ht] using hn
    · rintro t ⟨n,hn⟩
      simpa [hn] using h n
  · rintro ⟨h,hlast⟩ n
    cases ht : c n s with
    | finished t => simpa [ht] using hlast t ⟨n,ht⟩
    | cut t => simpa [ht] using h n

end Compose

section Grows

variable {guard : σ → Prop} [DecidablePred guard] {body : Nat → σ → Outcome σ}
variable {R : σ → σ → Prop}

private theorem bind_grows (hrefl : ∀ a, R a a) (f : σ → Outcome σ)
    (hf : ∀ t, R t (f t).state) (o : Outcome σ) : R o.state (o.bind f).state := by
  cases o with
  | finished t => exact hf t
  | cut t => exact hrefl t

theorem whileLoop_grows (hrefl : ∀ a, R a a) (htrans : ∀ a b c, R a b → R b c → R a c)
    (hb : Steady body) (h : Grows R body) : Grows R (whileLoop guard body) := by
  have hstart : ∀ n s, R s (whileLoop guard body n s).state := by
    intro n
    induction n with
    | zero =>
      intro s
      by_cases hg : guard s <;> simpa [whileLoop,hg] using hrefl s
    | succ n ih =>
      intro s
      by_cases hg : guard s
      · rw [whileLoop_succ hg]
        exact htrans _ _ _ (h.start n s) (bind_grows hrefl _ ih _)
      · rw [whileLoop_exit hg]
        exact hrefl s
  refine ⟨hstart,?_⟩
  intro n
  induction n with
  | zero =>
    intro k s _
    have h0 : (whileLoop guard body 0 s).state = s := by
      by_cases hg : guard s <;> simp [whileLoop,hg]
    rw [h0]
    exact hstart k s
  | succ n ih =>
    intro k s hnk
    by_cases hg : guard s
    · obtain ⟨k,rfl⟩ : ∃ j, k = j+1 := ⟨k-1,by omega⟩
      rw [whileLoop_succ hg,whileLoop_succ hg]
      cases hbody : body n s with
      | finished t =>
        rw [hb n k s t (by omega) hbody]
        exact ih k t (by omega)
      | cut t =>
        have hnext := h.fuel n k s (by omega)
        rw [hbody] at hnext
        exact htrans _ _ _ hnext (bind_grows hrefl _ (hstart k) _)
    · rw [whileLoop_exit hg,whileLoop_exit hg]
      exact hrefl s

theorem always_body (hrefl : ∀ a, R a a) (htrans : ∀ a b c, R a b → R b c → R a c)
    (hb : Steady body) (h : Grows R body) {P : σ → Prop} (hP : ∀ a b, R a b → P b → P a)
    {s t : σ} (hs : Always (whileLoop guard body) P s) (ht : AtHead guard body s t)
    (hg : guard t) : Always body P t := by
  intro j
  obtain ⟨n,k,hk,hrun⟩ := whileLoop_from_head hb ht (j+1)
  obtain ⟨k,rfl⟩ : ∃ l, k = l+1 := ⟨k-1,by omega⟩
  have hn := hs n
  rw [hrun,whileLoop_succ hg] at hn
  refine hP _ _ (h.fuel j k t (by omega)) (hP _ _ ?_ hn)
  exact bind_grows hrefl _ ((whileLoop_grows hrefl htrans hb h).start k) _

/-- Exact safety of a loop: `P` never fails iff it holds at the start and each body reached is
safe, where `C` says when a body started in a good state is safe. -/
theorem always_whileLoop_iff (hrefl : ∀ a, R a a) (htrans : ∀ a b c, R a b → R b c → R a c)
    (hb : Steady body) (h : Grows R body) {P : σ → Prop} (hP : ∀ a b, R a b → P b → P a)
    {C : σ → Prop} {s : σ}
    (hC : ∀ t, AtHead guard body s t → guard t → (Always body P t ↔ C t ∧ P t)) :
    Always (whileLoop guard body) P s ↔
      P s ∧ ∀ t, AtHead guard body s t → guard t → C t := by
  constructor
  · intro hs
    refine ⟨hP _ _ ((whileLoop_grows hrefl htrans hb h).start 0 s) (hs 0),?_⟩
    intro t ht hg
    exact ((hC t ht hg).mp (always_body hrefl htrans hb h hP hs ht hg)).1
  · rintro ⟨hs,hheads⟩
    refine always_whileLoop hs ?_
    intro t ht hg hPt
    exact (hC t ht hg).mpr ⟨hheads t ht hg,hPt⟩

end Grows

/-- The invariant rule for a loop over indexes that collects what its body puts out, and does nothing
any more once the state has stopped. -/
theorem foldl_collecting {β : Type} (live : σ → Bool) (body : σ → Nat → σ × List β)
    {P : σ × List β → Prop} {s : σ} (hs : P (s,[]))
    (hbody : ∀ r i, live r.1 = true → P r → P ((body r.1 i).1,r.2 ++ (body r.1 i).2))
    (is : List Nat) :
    P (is.foldl (fun r i =>
      if live r.1 then ((body r.1 i).1,r.2 ++ (body r.1 i).2) else r) (s,[])) := by
  apply List.foldlRecOn
  · exact hs
  · intro r hr i _
    by_cases hlive : live r.1 = true
    · rw [if_pos hlive]
      exact hbody r i hlive hr
    · rw [if_neg hlive]
      exact hr

end Flowstatd.Framework
