/-
Elements of lists: the distinct ones, and the places of chosen ones.

`List.eraseDups` keeps the first of equal elements. Adding an element to
the end of a list adds it to the distinct elements if it is new, so the
distinct elements of a beginning stay at the beginning.

The place of an element among those that are chosen is the number of
chosen elements before it. Choosing more elements leaves a place where it
was exactly if none of the elements that are chosen in addition stands
before it.
-/
import Mathlib.Data.List.Induction

namespace ClrListing.Distinct

variable {α β γ : Type} [BEq α] [LawfulBEq α] [BEq β] [LawfulBEq β]

theorem eraseDups_concat_of_mem {xs : List α} {x : α} (h : x ∈ xs) :
    (xs ++ [x]).eraseDups = xs.eraseDups := by
  rw [List.eraseDups_append]
  have hnone : [x].removeAll xs = [] := by
    simp [List.removeAll, h]
  rw [hnone, List.eraseDups_nil, List.append_nil]

theorem eraseDups_concat_of_not_mem {xs : List α} {x : α} (h : x ∉ xs) :
    (xs ++ [x]).eraseDups = xs.eraseDups ++ [x] := by
  rw [List.eraseDups_append]
  have hall : [x].removeAll xs = [x] := by
    simp [List.removeAll, h]
  rw [hall, List.eraseDups_cons, List.filter_nil, List.eraseDups_nil]

theorem eraseDups_isPrefix (xs ys : List α) : xs.eraseDups <+: (xs ++ ys).eraseDups := by
  rw [List.eraseDups_append]
  exact List.prefix_append _ _

theorem nodup_eraseDups (xs : List α) : xs.eraseDups.Nodup := by
  induction xs using List.reverseRecOn with
  | nil => exact List.nodup_nil
  | append_singleton xs x ih =>
    by_cases h : x ∈ xs
    · rwa [eraseDups_concat_of_mem h]
    · rw [eraseDups_concat_of_not_mem h, List.nodup_append]
      refine ⟨ih, by simp, ?_⟩
      intro y hy z hz heq
      rw [List.mem_singleton] at hz
      rw [heq, hz, List.mem_eraseDups] at hy
      exact h hy

/-- A function that keeps the elements of a list apart keeps its distinct
elements. -/
theorem eraseDups_map {f : α → β} {xs : List α}
    (h : ∀ x ∈ xs, ∀ y ∈ xs, f x = f y → x = y) :
    (xs.map f).eraseDups = xs.eraseDups.map f := by
  induction xs using List.reverseRecOn with
  | nil => rfl
  | append_singleton xs x ih =>
    have hxs : ∀ y ∈ xs, ∀ z ∈ xs, f y = f z → y = z := fun y hy z hz =>
      h y (List.mem_append_left _ hy) z (List.mem_append_left _ hz)
    rw [List.map_append, List.map_singleton]
    by_cases hx : x ∈ xs
    · rw [eraseDups_concat_of_mem hx, eraseDups_concat_of_mem (List.mem_map_of_mem hx), ih hxs]
    · have hfx : f x ∉ xs.map f := by
        intro hmem
        obtain ⟨y, hy, heq⟩ := List.mem_map.mp hmem
        have hyx := h y (List.mem_append_left _ hy) x (List.mem_append_right _ (by simp)) heq
        exact hx (hyx ▸ hy)
      rw [eraseDups_concat_of_not_mem hx, eraseDups_concat_of_not_mem hfx, ih hxs,
        List.map_append, List.map_singleton]

omit [BEq α] [LawfulBEq α] in
/-- Changing the image of an element is mapping with a changed function,
if the element occurs once. -/
theorem map_modify_idxOf [DecidableEq γ] (f : γ → α) (g : α → α) {xs : List γ} {x : γ}
    (hnodup : xs.Nodup) (h : x ∈ xs) :
    (xs.map f).modify (xs.idxOf x) g = xs.map fun y => if y = x then g (f y) else f y := by
  induction xs with
  | nil => cases h
  | cons y ys ih =>
    obtain ⟨hy, hys⟩ := List.nodup_cons.mp hnodup
    by_cases heq : y = x
    · subst heq
      rw [List.idxOf_cons_self, List.map_cons, List.modify_zero_cons, List.map_cons, if_pos rfl]
      congr 1
      refine List.map_congr_left fun z hz => ?_
      rw [if_neg fun hzy : z = y => hy (hzy ▸ hz)]
    · have hmem : x ∈ ys := (List.mem_cons.mp h).resolve_left fun hx => heq hx.symm
      rw [List.idxOf_cons, beq_false_of_ne heq, cond_false, List.map_cons, List.modify_succ_cons,
        List.map_cons, if_neg heq, ih hys hmem]

end ClrListing.Distinct

namespace ClrListing.Places

variable {α β : Type}

/-- The place of an element among the chosen ones. -/
theorem getElem?_filter {p : α → Bool} {xs : List α} {i : Nat} {x : α} (hx : xs[i]? = some x)
    (hchosen : p x = true) : (xs.filter p)[(xs.take i).countP p]? = some x := by
  induction xs generalizing i with
  | nil => cases hx
  | cons y ys ih =>
    cases i with
    | zero =>
      cases hx
      rw [List.take_zero, List.countP_nil, List.filter_cons_of_pos hchosen]
      rfl
    | succ i =>
      have hrest := ih (List.getElem?_cons_succ ▸ hx)
      rw [List.take_succ_cons]
      by_cases hy : p y = true
      · rwa [List.countP_cons_of_pos hy, List.filter_cons_of_pos hy, List.getElem?_cons_succ]
      · rwa [List.countP_cons_of_neg hy, List.filter_cons_of_neg hy]

/-- Where an image comes from, and that the images before it come from
the elements before. -/
theorem exists_getElem?_of_filterMap {f : α → Option β} {xs : List α} {k : Nat} {y : β}
    (hy : (xs.filterMap f)[k]? = some y) :
    ∃ i x, xs[i]? = some x ∧ f x = some y
      ∧ (xs.filterMap f).take k = (xs.take i).filterMap f := by
  induction xs generalizing k with
  | nil => cases hy
  | cons x xs ih =>
    cases hfx : f x with
    | none =>
      rw [List.filterMap_cons_none hfx] at hy ⊢
      obtain ⟨i, x', hx', hf, htake⟩ := ih hy
      refine ⟨i + 1, x', hx', hf, ?_⟩
      rw [htake, List.take_succ_cons, List.filterMap_cons_none hfx]
    | some z =>
      rw [List.filterMap_cons_some hfx] at hy ⊢
      cases k with
      | zero =>
        cases hy
        exact ⟨0, x, rfl, hfx, rfl⟩
      | succ k =>
        obtain ⟨i, x', hx', hf, htake⟩ := ih hy
        refine ⟨i + 1, x', hx', hf, ?_⟩
        rw [List.take_succ_cons, htake, List.take_succ_cons, List.filterMap_cons_some hfx]

/-- Choosing more elements gives more of them exactly if there is one. -/
theorem countP_eq_iff {p q : α → Bool} {xs : List α} (h : ∀ x ∈ xs, p x = true → q x = true) :
    xs.countP p = xs.countP q ↔ ∀ x ∈ xs, q x = true → p x = true := by
  induction xs with
  | nil => simp
  | cons x xs ih =>
    have hrest := ih fun y hy => h y (List.mem_cons_of_mem _ hy)
    have hle : xs.countP p ≤ xs.countP q :=
      List.countP_mono_left fun y hy => h y (List.mem_cons_of_mem _ hy)
    rw [List.forall_mem_cons, ← hrest, List.countP_cons, List.countP_cons]
    have hx := h x List.mem_cons_self
    cases hp : p x with
    | true =>
      rw [hx hp]
      simp
    | false =>
      cases hq : q x with
      | true =>
        simp only [Bool.false_eq_true, if_false, if_true, true_implies, false_and, iff_false]
        omega
      | false => simp

end ClrListing.Places
