import Mathlib.Logic.Basic
import Mathlib.Data.List.Basic

/-!
# Runs with their history

A run of a labelled transition relation, together with the states it went through and what
happened in them.
-/

namespace Flowstatd.Framework

variable {σ α : Type} {init : σ → Prop} {step : σ → α → σ → Prop}

/-- The history has what happened last first. -/
inductive History (init : σ → Prop) (step : σ → α → σ → Prop) : List (σ × α) → σ → Prop
  | start {s : σ} : init s → History init step [] s
  | step {past : List (σ × α)} {s s' : σ} {a : α} :
    History init step past s → step s a s' → History init step ((s,a) :: past) s'

namespace History

/-- The invariant rule for runs in which everything that happens meets a condition. -/
theorem invariant {Inv : σ → Prop} {cond : σ → α → Prop} (hinit : ∀ s, init s → Inv s)
    (hstep : ∀ s a s', Inv s → cond s a → step s a s' → Inv s') {past : List (σ × α)} {s : σ}
    (h : History init step past s) (hcond : ∀ t ∈ past, cond t.1 t.2) : Inv s := by
  induction h with
  | start hs => exact hinit _ hs
  | step _ hs ih =>
    obtain ⟨ha,hpast⟩ := List.forall_mem_cons.mp hcond
    exact hstep _ _ _ (ih hpast) ha hs

/-- Where, as long as all went well, a step goes well exactly under a condition, a whole run does
so exactly if all its steps meet the condition. -/
theorem forall_iff {Inv : σ → Prop} (good cond : σ → α → Prop) (hinit : ∀ s, init s → Inv s)
    (hstep : ∀ s a s', Inv s → good s a → step s a s' → Inv s')
    (hiff : ∀ s a s', Inv s → step s a s' → (good s a ↔ cond s a)) {past : List (σ × α)} {s : σ}
    (h : History init step past s) :
    (∀ t ∈ past, good t.1 t.2) ↔ ∀ t ∈ past, cond t.1 t.2 := by
  induction h with
  | start => simp
  | @step past s s' a hpast hs ih =>
    rw [List.forall_mem_cons,List.forall_mem_cons,← ih]
    exact and_congr_left fun hgood => hiff s a s' (hpast.invariant hinit hstep hgood) hs

/-- Where, from a state with a property, a step leads to one exactly under a condition, all states
of a run have it exactly if all its steps meet the condition. -/
theorem states_iff {P : σ → Prop} {cond : σ → α → Prop} (hinit : ∀ s, init s → P s)
    (hiff : ∀ s a s', P s → step s a s' → (P s' ↔ cond s a)) {past : List (σ × α)} {s : σ}
    (h : History init step past s) :
    (P s ∧ ∀ t ∈ past, P t.1) ↔ ∀ t ∈ past, cond t.1 t.2 := by
  induction h with
  | start hs => simp [hinit _ hs]
  | @step past s s' a _ hs ih =>
    rw [List.forall_mem_cons,List.forall_mem_cons,← ih,← and_assoc]
    constructor
    · rintro ⟨⟨hs',hp⟩,hpast⟩
      exact ⟨(hiff s a s' hp hs).mp hs',hp,hpast⟩
    · rintro ⟨hc,hp,hpast⟩
      exact ⟨⟨(hiff s a s' hp hs).mpr hc,hp⟩,hpast⟩

end History

section Trail

variable {f : σ → α → Option σ}

/-- The run on through some events, where what happens is a function, if all of them can happen. -/
def trail (f : σ → α → Option σ) : List α → List (σ × α) × σ → Option (List (σ × α) × σ)
  | [], r => some r
  | a :: as, r =>
    match f r.2 a with
    | none => none
    | some s => trail f as ((r.2,a) :: r.1,s)

theorem History.trail {as : List α} {r r' : List (σ × α) × σ}
    (h : History init (fun s a s' => f s a = some s') r.1 r.2)
    (htrail : Framework.trail f as r = some r') :
    History init (fun s a s' => f s a = some s') r'.1 r'.2 := by
  induction as generalizing r with
  | nil =>
    obtain rfl := Option.some.inj htrail
    exact h
  | cons a as ih =>
    rw [Framework.trail] at htrail
    split at htrail
    · exact absurd htrail (by simp)
    next s hs => exact ih (.step h hs) htrail

/-- The run from a state through some events, or none of it if not all of them can happen. -/
def trailFrom (f : σ → α → Option σ) (as : List α) (s : σ) : List (σ × α) × σ :=
  (Framework.trail f as ([],s)).getD ([],s)

theorem History.trailFrom {s : σ} (hs : init s) (as : List α) :
    History init (fun s a s' => f s a = some s') (Framework.trailFrom f as s).1
      (Framework.trailFrom f as s).2 := by
  rw [Framework.trailFrom]
  cases htrail : Framework.trail f as ([],s) with
  | none => exact .start hs
  | some r => exact History.trail (r := ([],s)) (.start hs) htrail

end Trail

end Flowstatd.Framework
