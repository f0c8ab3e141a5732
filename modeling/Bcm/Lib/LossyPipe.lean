import Mathlib.Data.List.Basic

/-!
# Pipes that may lose items

What comes out of a pipe is some of what went in, in the order in which it went in and nothing
twice; and it is all of it where the pipe had no cause to lose any.
-/

/-- `out` is what came out of what went `in`, where a condition rules a loss out. -/
structure Passed {α : Type*} (lossless : Prop) (out sent : List α) : Prop where
  sublist : out.Sublist sent
  all : lossless → out = sent

namespace Passed

variable {α β : Type*} {lossless lossless' : Prop} {xs ys zs : List α}

theorem refl (lossless : Prop) (xs : List α) : Passed lossless xs xs := ⟨.refl xs, fun _ => rfl⟩

theorem of_eq (h : xs = ys) : Passed lossless xs ys := h ▸ refl lossless xs

theorem imp (h : lossless' → lossless) (hxs : Passed lossless xs ys) : Passed lossless' xs ys :=
  ⟨hxs.sublist, fun hall => hxs.all (h hall)⟩

theorem trans (hxs : Passed lossless xs ys) (hys : Passed lossless ys zs) :
    Passed lossless xs zs :=
  ⟨hxs.sublist.trans hys.sublist, fun hall => (hxs.all hall).trans (hys.all hall)⟩

theorem append_right (hxs : Passed lossless xs ys) (zs : List α) :
    Passed lossless (xs ++ zs) (ys ++ zs) :=
  ⟨hxs.sublist.append_right zs, fun hall => by rw [hxs.all hall]⟩

theorem append_left (hxs : Passed lossless xs ys) (zs : List α) :
    Passed lossless (zs ++ xs) (zs ++ ys) :=
  ⟨hxs.sublist.append_left zs, fun hall => by rw [hxs.all hall]⟩

theorem map (hxs : Passed lossless xs ys) (f : α → β) :
    Passed lossless (xs.map f) (ys.map f) :=
  ⟨hxs.sublist.map f, fun hall => by rw [hxs.all hall]⟩

theorem filterMap (hxs : Passed lossless xs ys) (f : α → Option β) :
    Passed lossless (xs.filterMap f) (ys.filterMap f) :=
  ⟨hxs.sublist.filterMap f, fun hall => by rw [hxs.all hall]⟩

/-- The newest items may still be on their way. -/
theorem front (xs rest : List α) : Passed (rest = []) xs (xs ++ rest) := by
  refine ⟨List.sublist_append_left xs rest, fun hrest => ?_⟩
  rw [hrest, List.append_nil]

/-- The newest item may have been lost. -/
theorem append_singleton {x : α} (hsame : xs = ys ∨ xs = ys ++ [x]) (hall : lossless → xs = ys ++ [x]) :
    Passed lossless xs (ys ++ [x]) := by
  refine ⟨?_, hall⟩
  rcases hsame with rfl | rfl
  · exact List.sublist_append_left xs [x]
  · exact List.Sublist.refl _

end Passed
