import Flowstatd.Framework.Loop

/-!
# Two computations side by side

Two computations are run with the same fuel from related states. `Tracks` says that they end up in
related states as long as what the first one shows satisfies a condition; the condition is one that
held all the way if it holds in the end.
-/

namespace Flowstatd.Framework

variable {σ τ : Type}

namespace Outcome

/-- Outcomes of one kind, with related states. -/
inductive Related (R : σ → σ → Prop) : Outcome σ → Outcome σ → Prop
  | finished {s s' : σ} : R s s' → Related R (.finished s) (.finished s')
  | cut {s s' : σ} : R s s' → Related R (.cut s) (.cut s')

theorem Related.map {R : σ → σ → Prop} {S : τ → τ → Prop} {f f' : σ → τ} {o o' : Outcome σ}
    (h : o.Related R o') (hf : ∀ s s', R s s' → S (f s) (f' s')) : (o.map f).Related S (o'.map f') := by
  cases h with
  | finished h => exact .finished (hf _ _ h)
  | cut h => exact .cut (hf _ _ h)

end Outcome

/-- As long as the first computation shows states with `A`, the second one stays beside it. -/
def Tracks (A : σ → Prop) (R : σ → σ → Prop) (c c' : Nat → σ → Outcome σ) : Prop :=
  ∀ n s s', R s s' → A (c n s).state → (c n s).Related R (c' n s')

section Rules

variable {A : σ → Prop} {R E : σ → σ → Prop} {c c' : Nat → σ → Outcome σ}

theorem tracks_finished {f f' : σ → σ} (h : ∀ s s', R s s' → A (f s) → R (f s) (f' s')) :
    Tracks A R (fun _ s => .finished (f s)) fun _ s => .finished (f' s) :=
  fun _ s s' hR hA => .finished (h s s' hR hA)

/-- A step behind the computations. -/
theorem Tracks.bind (h : Tracks A R c c') (hback : ∀ a b, E a b → A b → A a) {f f' : σ → σ}
    (hE : ∀ s, E s (f s)) (hf : ∀ s s', R s s' → A (f s) → R (f s) (f' s')) :
    Tracks A R (fun n s => (c n s).bind fun t => .finished (f t))
      fun n s => (c' n s).bind fun t => .finished (f' t) := by
  intro n s s' hR hA
  dsimp only at hA ⊢
  have hrelated := h n s s' hR
  generalize c n s = o at hA hrelated
  generalize c' n s' = o' at hrelated
  cases o with
  | finished t =>
    cases hrelated (hback _ _ (hE t) hA) with
    | finished hrel => exact .finished (hf t _ hrel hA)
  | cut t =>
    cases hrelated hA with
    | cut hrel => exact .cut hrel

variable {guard guard' : σ → Prop} [DecidablePred guard] [DecidablePred guard']

/-- Loops stay side by side if their guards agree and their bodies do. -/
theorem tracks_whileLoop (hback : ∀ a b, E a b → A b → A a) (hgrows : Grows E (whileLoop guard c))
    (hguard : ∀ s s', R s s' → A s → (guard s ↔ guard' s')) (hbody : Tracks A R c c') :
    Tracks A R (whileLoop guard c) (whileLoop guard' c') := by
  intro n
  induction n with
  | zero =>
    intro s s' hR hA
    have hAs := hback _ _ (hgrows.start 0 s) hA
    have hsame := hguard s s' hR hAs
    by_cases hg : guard s
    · have hg' := hsame.mp hg
      simp only [whileLoop,hg,hg',if_true]
      exact .cut hR
    · have hg' := mt hsame.mpr hg
      rw [whileLoop_exit hg,whileLoop_exit hg']
      exact .finished hR
  | succ n ih =>
    intro s s' hR hA
    have hAs := hback _ _ (hgrows.start (n + 1) s) hA
    have hsame := hguard s s' hR hAs
    by_cases hg : guard s
    · have hg' := hsame.mp hg
      rw [whileLoop_succ hg] at hA ⊢
      rw [whileLoop_succ hg']
      have hround := hbody n s s' hR
      generalize c n s = o at hA hround
      generalize c' n s' = o' at hround
      cases o with
      | finished t =>
        -- what holds behind the round held at its end
        cases hround (hback _ _ (hgrows.start n t) hA) with
        | finished hrel => exact ih t _ hrel hA
      | cut t =>
        cases hround hA with
        | cut hrel => exact .cut hrel
    · have hg' := mt hsame.mpr hg
      rw [whileLoop_exit hg,whileLoop_exit hg']
      exact .finished hR

end Rules

end Flowstatd.Framework
