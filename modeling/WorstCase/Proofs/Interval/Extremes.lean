import Mathlib.Logic.Basic
import WorstCase.Resistance

/-!
# The extremes of a list

`Resistance.extremes` keeps the lesser and the greater of two numbers at a time,
and leaves out what is no number. That the two numbers it ends with are in the
list and enclose it takes no more of the scalars than that they are ordered
(`Scalar.LawfulOrder`), which they are with rounding as they are without.
-/

namespace WorstCase

open Scalar

/-- **Scalars that are ordered**, with the lesser and the greater of two numbers
chosen by the order. -/
structure Scalar.LawfulOrder (S : Type) [Scalar S] : Prop where
  le_refl : ∀ x : S, isNaN x = false → x ≤ x
  le_trans : ∀ x y z : S, x ≤ y → y ≤ z → x ≤ z
  lesser_le : ∀ x y : S, isNaN x = false → isNaN y = false → lesser x y ≤ x ∧ lesser x y ≤ y
  le_greater : ∀ x y : S, isNaN x = false → isNaN y = false → x ≤ greater x y ∧ y ≤ greater x y

/-! ## Choosing one of two at a time -/

section Choice

variable {α : Type} {f : α → α → α} (hf : ∀ x y, f x y = x ∨ f x y = y)

include hf

/-- What keeps one of two at a time ends with one of them all. -/
theorem foldl_mem (xs : List α) (start : α) : xs.foldl f start ∈ start :: xs := by
  induction xs generalizing start with
  | nil => exact List.mem_singleton_self _
  | cons y ys ih =>
    rw [List.foldl_cons]
    rcases List.mem_cons.mp (ih (f start y)) with heq | hmem
    · rw [heq]
      rcases hf start y with h | h <;> simp [h]
    · exact List.mem_cons_of_mem _ (List.mem_cons_of_mem _ hmem)

/-- If the one it keeps is related to both, so is the last one to them all. -/
theorem foldl_related {P : α → Prop} {R : α → α → Prop} (hrefl : ∀ x, P x → R x x)
    (htrans : ∀ x y z, R x y → R y z → R x z)
    (hR : ∀ x y, P x → P y → R (f x y) x ∧ R (f x y) y) {xs : List α} {start : α}
    (hP : ∀ x ∈ start :: xs, P x) : ∀ x ∈ start :: xs, R (xs.foldl f start) x := by
  induction xs generalizing start with
  | nil =>
    rintro x (_ | ⟨_, ⟨⟩⟩)
    exact hrefl _ (hP _ (List.mem_singleton_self _))
  | cons y ys ih =>
    obtain ⟨hstart, hP⟩ := List.forall_mem_cons.mp hP
    obtain ⟨hy, hys⟩ := List.forall_mem_cons.mp hP
    have hkept : P (f start y) := by
      rcases hf start y with h | h <;> rw [h] <;> assumption
    obtain ⟨hlast, hrest⟩ := List.forall_mem_cons.mp (ih (List.forall_mem_cons.mpr ⟨hkept, hys⟩))
    obtain ⟨hRstart, hRy⟩ := hR start y hstart hy
    rw [List.foldl_cons]
    exact List.forall_mem_cons.mpr ⟨htrans _ _ _ hlast hRstart,
      List.forall_mem_cons.mpr ⟨htrans _ _ _ hlast hRy, hrest⟩⟩

end Choice

namespace Resistance

variable {S : Type} [Scalar S] {xs : List S} {x : S}

theorem mem_filter_numbers : x ∈ xs.filter (!isNaN ·) ↔ x ∈ xs ∧ isNaN x = false := by
  rw [List.mem_filter, Bool.not_eq_true']

/-- A list without numbers has no extremes of its own. -/
theorem extremes_of_isNaN (h : ∀ x ∈ xs, isNaN x = true) : extremes xs = (-1 / 0, 1 / 0) := by
  have hnone : xs.filter (!isNaN ·) = [] :=
    List.filter_eq_nil_iff.mpr fun x hx => by simp [h x hx]
  unfold extremes
  rw [hnone]

/-- **The extremes of a list with a number in it** are numbers of the list, and no
number of the list is outside. -/
theorem extremes_enclose (hS : LawfulOrder S) (h : ∃ x ∈ xs, isNaN x = false) :
    ((extremes xs).1 ∈ xs ∧ isNaN (extremes xs).1 = false)
      ∧ ((extremes xs).2 ∈ xs ∧ isNaN (extremes xs).2 = false)
      ∧ ∀ x ∈ xs, isNaN x = false → (extremes xs).1 ≤ x ∧ x ≤ (extremes xs).2 := by
  have hlesser (x y : S) : lesser x y = x ∨ lesser x y = y := (ite_eq_or_eq _ y x).symm
  have hgreater (x y : S) : greater x y = x ∨ greater x y = y := (ite_eq_or_eq _ y x).symm
  unfold extremes
  cases hxs : xs.filter (!isNaN ·) with
  | nil =>
    obtain ⟨x, hx⟩ := h
    cases hxs ▸ mem_filter_numbers.mpr hx
  | cons start rest =>
    have hnumbers {x : S} : x ∈ start :: rest ↔ x ∈ xs ∧ isNaN x = false :=
      hxs ▸ mem_filter_numbers
    have hnum (x : S) (hx : x ∈ start :: rest) : isNaN x = false := (hnumbers.mp hx).2
    have hlow := foldl_related (R := fun x y => x ≤ y) hlesser hS.le_refl hS.le_trans
      hS.lesser_le hnum
    have hhigh := foldl_related (R := fun x y => y ≤ x) hgreater hS.le_refl
      (fun x y z hxy hyz => hS.le_trans z y x hyz hxy) hS.le_greater hnum
    exact ⟨hnumbers.mp (foldl_mem hlesser rest start), hnumbers.mp (foldl_mem hgreater rest start),
      fun x hx hx' => ⟨hlow x (hnumbers.mpr ⟨hx, hx'⟩), hhigh x (hnumbers.mpr ⟨hx, hx'⟩)⟩⟩

end Resistance

end WorstCase
