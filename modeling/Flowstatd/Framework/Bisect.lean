import Mathlib.Order.Nat
import Mathlib.Tactic.Common

/-!
# Bisection with a three-way probe

`probe k` says on which side of position `k` the search goes on. No order is assumed: the
positions that bisection passes on its way to `m` depend on the bounds alone, and the search
ends at `m` exactly when each of them sends it the right way.
-/

namespace Flowstatd.Framework

/-- Search `[lo, hi)`; the probed position is the lower middle. -/
def bisect (probe : Nat → Ordering) (lo hi : Nat) : Option Nat :=
  if lo < hi then
    let mid := lo + (hi - 1 - lo) / 2
    match probe mid with
    | .gt => bisect probe (mid + 1) hi
    | .lt => bisect probe lo mid
    | .eq => some mid
  else none
termination_by hi - lo

/-- The positions probed before `m` when every probe points towards `m`. -/
def bisectPath (m lo hi : Nat) : List Nat :=
  if lo < hi then
    let mid := lo + (hi - 1 - lo) / 2
    if mid < m then mid :: bisectPath m (mid + 1) hi
    else if m < mid then mid :: bisectPath m lo mid
    else []
  else []
termination_by hi - lo

/-- The probe at `k` sends the search towards `m`. -/
def PointsTo (probe : Nat → Ordering) (m k : Nat) : Prop :=
  (k < m → probe k = .gt) ∧ (m < k → probe k = .lt)

theorem bisectPath_ne (m lo hi : Nat) : ∀ k ∈ bisectPath m lo hi, k ≠ m ∧ lo ≤ k ∧ k < hi := by
  fun_induction bisectPath m lo hi with
  | case1 lo hi h mid hlt ih =>
    intro k hk
    rcases List.mem_cons.mp hk with rfl | hk
    · omega
    · have := ih k hk
      omega
  | case2 lo hi h mid _ hlt ih =>
    intro k hk
    rcases List.mem_cons.mp hk with rfl | hk
    · omega
    · have := ih k hk
      omega
  | case3 => simp
  | case4 => simp

theorem bisect_mem {probe : Nat → Ordering} {lo hi m : Nat} (h : bisect probe lo hi = some m) :
    lo ≤ m ∧ m < hi ∧ probe m = .eq := by
  fun_induction bisect probe lo hi with
  | case1 lo hi hlt mid hp ih =>
    obtain ⟨hl,hr,hm⟩ := ih h
    exact ⟨by omega,hr,hm⟩
  | case2 lo hi hlt mid hp ih =>
    obtain ⟨hl,hr,hm⟩ := ih h
    exact ⟨hl,by omega,hm⟩
  | case3 lo hi hlt mid hp =>
    have hm : mid = m := Option.some.inj h
    rw [← hm]
    exact ⟨by omega,by omega,hp⟩
  | case4 => simp at h

theorem bisect_first_probe {probe : Nat → Ordering} {lo hi mid m : Nat} (h : lo < hi)
    (hmid : mid = lo + (hi - 1 - lo) / 2) :
    bisect probe lo hi = some m ↔
      mid < m ∧ probe mid = .gt ∧ bisect probe (mid + 1) hi = some m ∨
        m < mid ∧ probe mid = .lt ∧ bisect probe lo mid = some m ∨
        m = mid ∧ probe mid = .eq := by
  have hstep : bisect probe lo hi = match probe mid with
      | .gt => bisect probe (mid + 1) hi
      | .lt => bisect probe lo mid
      | .eq => some mid := by
    rw [bisect,if_pos h,hmid]
  rw [hstep]
  cases hp : probe mid with
  | gt =>
    refine ⟨fun hs => .inl ⟨(bisect_mem hs).1,rfl,hs⟩,?_⟩
    rintro (hs | hs | hs)
    · exact hs.2.2
    · exact absurd hs.2.1 (by simp)
    · exact absurd hs.2 (by simp)
  | lt =>
    refine ⟨fun hs => .inr (.inl ⟨(bisect_mem hs).2.1,rfl,hs⟩),?_⟩
    rintro (hs | hs | hs)
    · exact absurd hs.2.1 (by simp)
    · exact hs.2.2
    · exact absurd hs.2 (by simp)
  | eq =>
    refine ⟨fun hs => .inr (.inr ⟨(Option.some.inj hs).symm,rfl⟩),?_⟩
    rintro (hs | hs | hs)
    · exact absurd hs.2.1 (by simp)
    · exact absurd hs.2.1 (by simp)
    · exact congrArg some hs.1.symm

/-- The search ends at `m` iff `m` matches and every position on the path points to it. -/
theorem bisect_eq_some_iff {probe : Nat → Ordering} {lo hi m : Nat} (hlo : lo ≤ m)
    (hhi : m < hi) :
    bisect probe lo hi = some m ↔
      probe m = .eq ∧ ∀ k ∈ bisectPath m lo hi, PointsTo probe m k := by
  fun_induction bisectPath m lo hi with
  | case1 lo hi h mid hlt ih =>
    have hpoints : PointsTo probe m mid ↔ probe mid = .gt :=
      ⟨fun hp => hp.1 hlt,fun hp => ⟨fun _ => hp,fun hm => by omega⟩⟩
    have hright : bisect probe lo hi = some m ↔
        probe mid = .gt ∧ bisect probe (mid + 1) hi = some m := by
      rw [bisect_first_probe h (show mid = _ from rfl)]
      simp only [hlt,true_and,show ¬m < mid by omega,show m ≠ mid by omega,false_and,or_false]
    rw [hright,ih hlt hhi,List.forall_mem_cons,hpoints]
    exact and_left_comm
  | case2 lo hi h mid hge hlt ih =>
    have hpoints : PointsTo probe m mid ↔ probe mid = .lt :=
      ⟨fun hp => hp.2 hlt,fun hp => ⟨fun hm => by omega,fun _ => hp⟩⟩
    have hleft : bisect probe lo hi = some m ↔
        probe mid = .lt ∧ bisect probe lo mid = some m := by
      rw [bisect_first_probe h (show mid = _ from rfl)]
      simp only [hlt,hge,true_and,show m ≠ mid by omega,false_and,or_false,false_or]
    rw [hleft,ih hlo hlt,List.forall_mem_cons,hpoints]
    exact and_left_comm
  | case3 lo hi h mid hge hle =>
    have hmid : m = mid := by omega
    rw [bisect_first_probe h hmid]
    simp
  | case4 lo hi h => omega

theorem bisect_eq_some_of_forall {probe : Nat → Ordering} {lo hi m : Nat} (hlo : lo ≤ m)
    (hhi : m < hi) (hm : probe m = .eq)
    (h : ∀ k, lo ≤ k → k < hi → PointsTo probe m k) : bisect probe lo hi = some m := by
  refine (bisect_eq_some_iff hlo hhi).mpr ⟨hm,?_⟩
  intro k hk
  have hb := bisectPath_ne m lo hi k hk
  exact h k hb.2.1 hb.2.2

end Flowstatd.Framework
