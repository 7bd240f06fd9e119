import Mathlib.Data.List.Sort
import Mathlib.Order.Basic

/-!
# Stable sorting by a key

Largest key first, elements of one key in the order they had. There is one such arrangement of a
list, and filtering commutes with it.
-/

namespace Flowstatd.Framework

variable {α κ : Type} [LinearOrder κ]

/-- Every key is at least as large as those behind it. -/
def Descending (key : α → κ) (xs : List α) : Prop := xs.Pairwise fun x y => key y ≤ key x

/-- `ys` is `xs` stably sorted by `key`. -/
structure StableSort (key : α → κ) (xs ys : List α) : Prop where
  perm : ys.Perm xs
  descending : Descending key ys
  stable : ∀ k, (ys.filter fun x => key x = k) = xs.filter fun x => key x = k

section Filter

variable {key : α → κ} {xs ys ys' : List α}

theorem Descending.filter (h : Descending key xs) (p : α → Bool) :
    Descending key (xs.filter p) := List.Pairwise.filter p h

/-- In a descending list the elements above a bound are in front. -/
theorem Descending.takeWhile_eq_filter (h : Descending key xs) (p : α → Bool)
    (hup : ∀ x y, key y ≤ key x → p y = true → p x = true) : xs.takeWhile p = xs.filter p := by
  induction xs with
  | nil => rfl
  | cons x xs ih =>
    obtain ⟨hx,hxs⟩ := List.pairwise_cons.mp h
    by_cases hp : p x = true
    · rw [List.takeWhile_cons_of_pos hp,List.filter_cons_of_pos hp,ih hxs]
    · have hrest : xs.filter p = [] :=
        List.filter_eq_nil_iff.mpr fun y hy hpy => hp (hup x y (hx y hy) hpy)
      rw [List.takeWhile_cons_of_neg hp,List.filter_cons_of_neg hp,hrest]

theorem Descending.filter_append (h : Descending key xs) (p : α → Bool)
    (hup : ∀ x y, key y ≤ key x → p y = true → p x = true) :
    xs.filter p ++ xs.filter (fun x => !p x) = xs := by
  induction xs with
  | nil => rfl
  | cons x xs ih =>
    obtain ⟨hx,hxs⟩ := List.pairwise_cons.mp h
    by_cases hp : p x = true
    · rw [List.filter_cons_of_pos hp,List.filter_cons_of_neg (by simp [hp]),List.cons_append,ih hxs]
    · have hnone : (x :: xs).filter p = [] :=
        List.filter_eq_nil_iff.mpr <| List.forall_mem_cons.mpr
          ⟨hp,fun y hy hpy => hp (hup x y (hx y hy) hpy)⟩
      have hall : (x :: xs).filter (fun x => !p x) = x :: xs :=
        List.filter_eq_self.mpr fun y hy => by simpa using List.filter_eq_nil_iff.mp hnone y hy
      rw [hnone,hall,List.nil_append]

theorem Descending.drop_le_take (h : Descending key xs) (n : Nat) :
    ∀ x ∈ xs.take n, ∀ y ∈ xs.drop n, key y ≤ key x := by
  have hsplit : Descending key (xs.take n ++ xs.drop n) := by rwa [List.take_append_drop]
  exact (List.pairwise_append.mp hsplit).2.2

theorem Descending.take (h : Descending key xs) (n : Nat) : Descending key (xs.take n) :=
  h.sublist (List.take_sublist n xs)

theorem StableSort.filter (h : StableSort key xs ys) (p : α → Bool) :
    StableSort key (xs.filter p) (ys.filter p) where
  perm := h.perm.filter p
  descending := h.descending.filter p
  stable k := by
    rw [← List.filter_comm p,← List.filter_comm p,h.stable k]

private theorem eq_of_keys_eq (hys : Descending key ys) (hys' : Descending key ys')
    (h : ∀ k, (ys.filter fun x => key x = k) = ys'.filter fun x => key x = k) : ys = ys' := by
  have hmem {us vs : List α}
      (h : ∀ k, (us.filter fun x => key x = k) = vs.filter fun x => key x = k) {x : α}
      (hx : x ∈ us) : x ∈ vs := by
    have hk : x ∈ us.filter fun y => key y = key x := by simpa using hx
    rw [h] at hk
    exact (List.mem_filter.mp hk).1
  induction ys generalizing ys' with
  | nil =>
    cases ys' with
    | nil => rfl
    | cons y' ys' =>
      exact absurd (hmem (fun k => (h k).symm) List.mem_cons_self) List.not_mem_nil
  | cons y ys ih =>
    cases ys' with
    | nil => exact absurd (hmem h List.mem_cons_self) List.not_mem_nil
    | cons y' ys' =>
      obtain ⟨hy,hrest⟩ := List.pairwise_cons.mp hys
      obtain ⟨hy',hrest'⟩ := List.pairwise_cons.mp hys'
      -- both heads have the largest key
      have hkey : key y = key y' := by
        refine le_antisymm ?_ ?_
        · rcases List.mem_cons.mp (hmem h List.mem_cons_self) with heq | hin
          · rw [heq]
          · exact hy' y hin
        · rcases List.mem_cons.mp (hmem (fun k => (h k).symm) List.mem_cons_self) with heq | hin
          · rw [heq]
          · exact hy y' hin
      have hhead := h (key y)
      simp only [List.filter_cons,decide_true,ite_true,hkey,List.cons.injEq] at hhead
      obtain ⟨rfl,_⟩ := hhead
      congr 1
      refine ih hrest hrest' fun k => ?_
      have hk := h k
      by_cases hyk : key y = k
      · simpa [List.filter_cons,hyk] using hk
      · simpa [List.filter_cons,hyk] using hk

/-- A list has one stable arrangement. -/
theorem StableSort.unique (h : StableSort key xs ys) (h' : StableSort key xs ys') : ys = ys' :=
  eq_of_keys_eq h.descending h'.descending fun k => (h.stable k).trans (h'.stable k).symm

end Filter

theorem stableSort_insertionSort (key : α → κ) (xs : List α) :
    StableSort key xs (xs.insertionSort fun x y => key y ≤ key x) := by
  have : IsTrans α fun x y => key y ≤ key x := ⟨fun _ _ _ hxy hyz => hyz.trans hxy⟩
  have : Std.Total fun x y : α => key y ≤ key x := ⟨fun x y => le_total (key y) (key x)⟩
  have hperm := List.perm_insertionSort (fun x y => key y ≤ key x) xs
  refine ⟨hperm,List.pairwise_insertionSort _ xs,fun k => ?_⟩
  have hclass : (xs.filter fun x => key x = k).Pairwise fun x y => key y ≤ key x := by
    refine List.pairwise_of_forall_mem_list fun x hx y hy => ?_
    have hxk : key x = k := by simpa using (List.mem_filter.mp hx).2
    have hyk : key y = k := by simpa using (List.mem_filter.mp hy).2
    exact (hyk.trans hxk.symm).le
  have hsub := (List.sublist_insertionSort hclass List.filter_sublist).filter
    fun x => decide (key x = k)
  simp only [List.filter_filter,Bool.and_self] at hsub
  exact (hsub.eq_of_length_le (hperm.filter _).length_eq.le).symm

section Qsort

variable {cmp : α → α → Int} {qsort qsort' : List α → List α} {xs ys : List α}

/-- `cmp` is a comparison, in the sense of the C library, on the elements of a list. -/
structure Compares (cmp : α → α → Int) (xs : List α) : Prop where
  swap : ∀ x ∈ xs, ∀ y ∈ xs, cmp x y < 0 ↔ 0 < cmp y x
  trans : ∀ x ∈ xs, ∀ y ∈ xs, ∀ z ∈ xs, cmp x y ≤ 0 → cmp y z ≤ 0 → cmp x z ≤ 0

/-- What the C library promises of `qsort`: it arranges the list, and sorts it if it can be
sorted. -/
structure Qsorts (cmp : α → α → Int) (qsort : List α → List α) : Prop where
  perm : ∀ xs, (qsort xs).Perm xs
  sorted : ∀ xs, Compares cmp xs → (qsort xs).Pairwise fun x y => cmp x y ≤ 0

theorem Compares.perm (h : Compares cmp xs) (hperm : xs.Perm ys) : Compares cmp ys where
  swap x hx y hy := h.swap x (hperm.mem_iff.mpr hx) y (hperm.mem_iff.mpr hy)
  trans x hx y hy z hz :=
    h.trans x (hperm.mem_iff.mpr hx) y (hperm.mem_iff.mpr hy) z (hperm.mem_iff.mpr hz)

/-- Where different elements do not compare as equal there is one sorted arrangement. -/
theorem Qsorts.eq_of_perm (h : Qsorts cmp qsort) (h' : Qsorts cmp qsort') (hcmp : Compares cmp xs)
    (hdiffer : ∀ x ∈ xs, ∀ y ∈ xs, cmp x y = 0 → x = y) (hperm : xs.Perm ys) :
    qsort xs = qsort' ys := by
  refine List.Perm.eq_of_pairwise ?_ (h.sorted xs hcmp) (h'.sorted ys (hcmp.perm hperm))
    ((h.perm xs).trans (hperm.trans (h'.perm ys).symm))
  intro x y hx hy hxy hyx
  have hx := (h.perm xs).mem_iff.mp hx
  have hy := hperm.mem_iff.mpr ((h'.perm ys).mem_iff.mp hy)
  have hnotless := mt (hcmp.swap x hx y hy).mp (not_lt.mpr hyx)
  exact hdiffer x hx y hy (by omega)

/-- There is such a function: on the elements of a list that can be sorted the comparison is total
and transitive. -/
theorem exists_qsorts (cmp : α → α → Int) : ∃ qsort, Qsorts cmp qsort := by
  have harranged (xs : List α) : ∃ ys : List α, ys.Perm xs ∧
      (Compares cmp xs → ys.Pairwise fun x y => cmp x y ≤ 0) := by
    by_cases hcmp : Compares cmp xs
    · let le (x y : { x // x ∈ xs }) : Prop := cmp x y ≤ 0
      have : IsTrans _ le := ⟨fun x y z => hcmp.trans x x.2 y y.2 z z.2⟩
      have : Std.Total le := ⟨fun x y => by
        have hswap := hcmp.swap y y.2 x x.2
        simp only [le]
        omega⟩
      refine ⟨(xs.attach.insertionSort le).map Subtype.val,?_,fun _ => ?_⟩
      · have hperm := (List.perm_insertionSort le xs.attach).map Subtype.val
        rwa [List.attach_map_subtype_val] at hperm
      · exact List.pairwise_map.mpr (List.pairwise_insertionSort le _)
    · exact ⟨xs,.refl xs,fun h => absurd h hcmp⟩
  choose qsort hperm hsorted using harranged
  exact ⟨qsort,hperm,hsorted⟩

end Qsort

end Flowstatd.Framework
