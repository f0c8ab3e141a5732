import Bcm.Lib.Transducer

/-!
# Machines that collect symbols into units

A stream is cut into units, and a machine reads it a symbol at a time. While a unit is unfinished
the machine holds what it has of it. The symbol that ends a unit, well or badly, is answered with
the verdict on it, and the machine starts afresh on the next symbol.

So whatever such a machine is fed, the stream splits into whole units and one unfinished rest, the
machine holds exactly that rest, and each verdict is the verdict on the unit that ends there.
-/

namespace Framing

variable {σ α β : Type*}

/-- How a stream is cut: the strings that begin a unit without ending it, and the whole units with
the verdict on each. -/
structure Grammar (α β : Type*) where
  Part : List α → Prop
  Whole : List α → β → Prop
  part_of_part : ∀ {w x}, Part (w ++ [x]) → w ≠ [] → Part w
  part_of_whole : ∀ {w x r}, Whole (w ++ [x]) r → w ≠ [] → Part w
  whole_ne_nil : ∀ {w r}, Whole w r → w ≠ []
  not_whole_of_part : ∀ {w r}, Part w → ¬ Whole w r
  whole_unique : ∀ {w r r'}, Whole w r → Whole w r' → r = r'

inductive Settled (G : Grammar α β) : List α → Prop where
  | nil : Settled G []
  | append {pre w : List α} {r : β} (hpre : Settled G pre) (hw : G.Whole w r) :
      Settled G (pre ++ w)

theorem Settled.trans {G : Grammar α β} {xs ys : List α} (hx : Settled G xs)
    (hy : Settled G ys) : Settled G (xs ++ ys) := by
  induction hy with
  | nil =>
      rw [List.append_nil]
      exact hx
  | append _ hw ih =>
      rw [← List.append_assoc]
      exact ih.append hw

theorem Settled.of_whole {G : Grammar α β} {w : List α} {r : β} (hw : G.Whole w r) :
    Settled G w := by
  have happend := (Settled.nil (G := G)).append hw
  rwa [List.nil_append] at happend

/-- The machine collects units: in every state that holds a string, one more symbol either extends
the string within a unit, or ends the unit and is answered with the verdict. -/
structure Collects (G : Grammar α β) (step : σ → α → σ × β) (more : β)
    (Holds : σ → List α → Prop) : Prop where
  step_cases : ∀ {s u} x, Holds s u →
    G.Part (u ++ [x]) ∧ Holds (step s x).1 (u ++ [x]) ∧ (step s x).2 = more ∨
      G.Whole (u ++ [x]) (step s x).2 ∧ Holds (step s x).1 []
  holds_unique : ∀ {s u v}, Holds s u → Holds s v → u = v

namespace Collects

open Transducer

variable {G : Grammar α β} {step : σ → α → σ × β} {more : β} {Holds : σ → List α → Prop}
  (h : Collects G step more Holds) {s : σ}

include h

/-- Inside a unit the machine just collects. -/
theorem final_of_part {w : List α} (hs : Holds s []) (hw : w ≠ [] → G.Part w) :
    Holds (final step s w) w ∧ outputs step s w = List.replicate w.length more := by
  induction w using List.reverseRecOn with
  | nil => exact ⟨hs, rfl⟩
  | append_singleton w x ih =>
      have hpart : G.Part (w ++ [x]) := hw (by simp)
      obtain ⟨hholds, houtputs⟩ := ih (G.part_of_part hpart)
      rcases h.step_cases x hholds with ⟨-, hmore, hanswer⟩ | ⟨hwhole, -⟩
      · refine ⟨by rw [final_concat]; exact hmore, ?_⟩
        rw [outputs_append, houtputs, outputs_cons, outputs_nil, hanswer, List.length_append,
          List.length_singleton, List.replicate_succ']
      · exact absurd hwhole (G.not_whole_of_part hpart)

/-- A whole unit is answered at its last symbol, and leaves nothing behind. -/
theorem final_of_whole {w : List α} {r : β} (hs : Holds s []) (hw : G.Whole w r) :
    Holds (final step s w) [] ∧
      outputs step s w = List.replicate (w.length - 1) more ++ [r] := by
  obtain ⟨front, x, rfl⟩ := (List.eq_nil_or_concat' w).resolve_left (G.whole_ne_nil hw)
  obtain ⟨hholds, houtputs⟩ := h.final_of_part hs (G.part_of_whole hw)
  rcases h.step_cases x hholds with ⟨hpart, -⟩ | ⟨hwhole, hempty⟩
  · exact absurd hw (G.not_whole_of_part hpart)
  · refine ⟨by rw [final_concat]; exact hempty, ?_⟩
    rw [outputs_append, houtputs, outputs_cons, outputs_nil, G.whole_unique hwhole hw]
    simp

theorem holds_of_settled {w : List α} (hs : Holds s []) (hw : Settled G w) :
    Holds (final step s w) [] := by
  induction hw with
  | nil => exact hs
  | append _ hwhole ih =>
      rw [final_append]
      exact (h.final_of_whole ih hwhole).1

/-- **What the machine holds.** Any stream is whole units followed by an unfinished rest, and the
machine holds the rest. -/
theorem exists_settled (hs : Holds s []) (xs : List α) :
    ∃ pre u, xs = pre ++ u ∧ Settled G pre ∧ Holds (final step s xs) u ∧ (u ≠ [] → G.Part u) := by
  induction xs using List.reverseRecOn with
  | nil => exact ⟨[], [], rfl, Settled.nil, hs, fun hne => absurd rfl hne⟩
  | append_singleton xs x ih =>
      obtain ⟨pre, u, rfl, hpre, hholds, -⟩ := ih
      rw [final_concat]
      rcases h.step_cases x hholds with ⟨hpart, hmore, -⟩ | ⟨hwhole, hempty⟩
      · exact ⟨pre, u ++ [x], List.append_assoc pre u [x], hpre, hmore, fun _ => hpart⟩
      · refine ⟨pre ++ (u ++ [x]), [], ?_, hpre.append hwhole, hempty, fun hne => absurd rfl hne⟩
        rw [List.append_nil, List.append_assoc]

/-- The machine holds nothing exactly after a string of whole units. -/
theorem holds_nil_iff (hs : Holds s []) (xs : List α) :
    Holds (final step s xs) [] ↔ Settled G xs := by
  constructor
  · intro hempty
    obtain ⟨pre, u, rfl, hpre, hholds, -⟩ := h.exists_settled hs xs
    rw [h.holds_unique hholds hempty, List.append_nil]
    exact hpre
  · exact h.holds_of_settled hs

/-- **What a verdict says.** The last symbol of a stream is answered with a verdict exactly when
the stream is whole units and then a unit with that verdict. -/
theorem getLast?_outputs_iff (hs : Holds s []) {r : β} (hr : r ≠ more) (xs : List α) :
    (outputs step s xs).getLast? = some r ↔
      ∃ pre w, xs = pre ++ w ∧ Settled G pre ∧ G.Whole w r := by
  constructor
  · intro hlast
    rcases List.eq_nil_or_concat' xs with rfl | ⟨front, x, rfl⟩
    · simp at hlast
    · obtain ⟨pre, u, rfl, hpre, hholds, -⟩ := h.exists_settled hs front
      rw [outputs_append, outputs_cons, outputs_nil, List.getLast?_concat] at hlast
      have hanswer := Option.some.inj hlast
      rcases h.step_cases x hholds with ⟨-, -, hmore⟩ | ⟨hwhole, -⟩
      · exact absurd (hanswer.symm.trans hmore) hr
      · refine ⟨pre, u ++ [x], ?_, hpre, hanswer ▸ hwhole⟩
        rw [List.append_assoc]
  · rintro ⟨pre, w, rfl, hpre, hw⟩
    have hholds := h.holds_of_settled hs hpre
    rw [outputs_append, (h.final_of_whole hholds hw).2, ← List.append_assoc, List.getLast?_concat]

/-- Every answer is that nothing is finished, or the verdict on a unit. -/
theorem mem_outputs {u : List α} (hs : Holds s u) {xs : List α} {r : β}
    (hr : r ∈ outputs step s xs) : r = more ∨ ∃ w, G.Whole w r := by
  induction xs generalizing s u with
  | nil => simp at hr
  | cons x xs ih =>
      rw [outputs_cons, List.mem_cons] at hr
      rcases h.step_cases x hs with ⟨-, hholds, hmore⟩ | ⟨hwhole, hholds⟩
      · rcases hr with rfl | hrest
        · exact Or.inl hmore
        · exact ih hholds hrest
      · rcases hr with rfl | hrest
        · exact Or.inr ⟨u ++ [x], hwhole⟩
        · exact ih hholds hrest

/-- A run of symbols none of which starts a unit, as long as the longest unfinished unit, leaves
nothing held, whatever came before. -/
theorem holds_nil_of_block (hs : Holds s []) {start : α} {n : Nat}
    (hstart : ∀ w, G.Part w → w.head? = some start) (hlength : ∀ w, G.Part w → w.length ≤ n)
    (history : List α) {block : List α} (hblock : n ≤ block.length) (hno : start ∉ block) :
    Holds (final step s (history ++ block)) [] := by
  obtain ⟨pre, u, hsplit, -, hholds, hpart⟩ := h.exists_settled hs (history ++ block)
  cases u with
  | nil => exact hholds
  | cons x u =>
      have hunit : G.Part (x :: u) := hpart (by simp)
      have hshort := hlength _ hunit
      -- no longer than the block, the unit begins inside it
      obtain ⟨front, rfl⟩ : x :: u <:+ block := by
        refine List.suffix_of_suffix_length_le ?_ (List.suffix_append history block) (by omega)
        rw [hsplit]
        exact List.suffix_append pre (x :: u)
      have hx : x = start := Option.some.inj (hstart _ hunit)
      exact absurd (by simp [hx]) hno

/-- **Two machines that collect the same units answer alike**, once they hold the same. -/
theorem outputs_eq {τ : Type*} {step' : τ → α → τ × β} {Holds' : τ → List α → Prop}
    (h' : Collects G step' more Holds') {t : τ} {u : List α} (hs : Holds s u) (ht : Holds' t u)
    (xs : List α) : outputs step s xs = outputs step' t xs := by
  induction xs generalizing s t u with
  | nil => rfl
  | cons x xs ih =>
      rw [outputs_cons, outputs_cons]
      rcases h.step_cases x hs with ⟨hpart, hholds, hanswer⟩ | ⟨hwhole, hholds⟩
      · rcases h'.step_cases x ht with ⟨-, hholds', hanswer'⟩ | ⟨hwhole', -⟩
        · rw [hanswer, hanswer', ih hholds hholds']
        · exact absurd hwhole' (G.not_whole_of_part hpart)
      · rcases h'.step_cases x ht with ⟨hpart', -⟩ | ⟨hwhole', hholds'⟩
        · exact absurd hwhole (G.not_whole_of_part hpart')
        · rw [G.whole_unique hwhole hwhole', ih hholds hholds']

end Collects

end Framing
