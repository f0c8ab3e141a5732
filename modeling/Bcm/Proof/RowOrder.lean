import Bcm.Door
import Bcm.Fsm

/-!
# The order of the rows

A table is searched from its first row on, and the search ends at the first row that matches, whether
its guard agrees or refuses. What is written below that row is never read, so a row added at the end
of a table opens no way around a guard above it.
-/

namespace Bcm

variable {S E C : Type}

theorem FsmTable.drop_eq_cons {table : FsmTable S E C} {i : UInt8} (h : i < table.count) :
    table.rows.drop i.toNat =
      table.rows.get ⟨i.toNat, toNat_lt_length h⟩ :: table.rows.drop (i + 1).toNat := by
  rw [toNat_succ h]
  exact List.drop_eq_getElem_cons (toNat_lt_length h)

namespace Fsm

theorem resolve_of_refused {t : FsmTransition S E C} {guard : C → Bool}
    (hguard : t.guard = some guard) {context : C} (hrefused : guard context = false) (m : Fsm S) :
    resolve t m context = (false, { m with blocked := m.blocked + 1 }, context) := by
  have hany : t.guard.any (fun guard => !guard context) = true := by
    rw [hguard, Option.any_some, hrefused, Bool.not_false]
  rw [resolve, if_pos hany]

variable [DecidableEq S] [DecidableEq E]

/-- From any index on, the loop is the search of the rows that are left. -/
theorem dispatchFrom_eq (table : FsmTable S E C) (i : UInt8) (m : Fsm S) (event : E)
    (context : C) :
    dispatchFrom table i m event context =
      dispatch (table.rows.drop i.toNat) m event context := by
  fun_induction dispatchFrom table i m event context with
  | case1 i h t hevent ih =>
      rw [ih, FsmTable.drop_eq_cons h, dispatch, if_pos hevent]
  | case2 i h t hevent hsource ih =>
      rw [ih, FsmTable.drop_eq_cons h, dispatch, if_neg hevent, if_pos hsource]
  | case3 i h t hevent hsource hrefused =>
      rw [FsmTable.drop_eq_cons h, dispatch, if_neg hevent, if_neg hsource, if_pos hrefused]
  | case4 i h t hevent hsource hrefused =>
      rw [FsmTable.drop_eq_cons h, dispatch, if_neg hevent, if_neg hsource, if_neg hrefused]
  | case5 i h =>
      rw [UInt8.lt_iff_toNat_lt, FsmTable.toNat_count, Nat.not_lt] at h
      rw [List.drop_eq_nil_of_le h, dispatch]

/-- **The loop is the search.** -/
theorem dispatchLoop_some (table : FsmTable S E C) (m : Fsm S) (event : E) (context : C) :
    dispatchLoop (some table) m event context = dispatch table.rows m event context :=
  dispatchFrom_eq table 0 m event context

section Append

variable {rows extra : List (FsmTransition S E C)} {m : Fsm S} {event : E} {t : FsmTransition S E C}

theorem find?_append_of_first (hfirst : rows.find? (takes m event) = some t) :
    (rows ++ extra).find? (takes m event) = some t := by
  rw [List.find?_append, hfirst, Option.some_or]

/-- A row that decides goes on deciding, whatever rows follow. -/
theorem dispatch_append_of_first (hfirst : rows.find? (takes m event) = some t) (context : C) :
    dispatch (rows ++ extra) m event context = resolve t m context := by
  rw [dispatch_eq_find?, find?_append_of_first hfirst, Option.elim_some]

theorem dispatch_append_of_mem (hmatch : ∃ t ∈ rows, Matches t m event) (context : C) :
    dispatch (rows ++ extra) m event context = dispatch rows m event context := by
  obtain ⟨t, hmem, htaken⟩ := hmatch
  have hsome : (rows.find? (takes m event)).isSome :=
    List.find?_isSome.mpr ⟨t, hmem, decide_eq_true htaken⟩
  obtain ⟨first, hfirst⟩ := Option.isSome_iff_exists.mp hsome
  rw [dispatch_append_of_first hfirst, dispatch_eq_find?, hfirst, Option.elim_some]

end Append

/-- **Later rows cannot bypass a guard.** Where the table has a row for the event, rows added behind
it change nothing, and where the first such row refuses, nothing moves but the count of refusals. -/
theorem dispatchLoop_append (rows extra : List (FsmTransition S E C))
    (hcount : rows.length + extra.length ≤ 255) (m : Fsm S) (event : E) (context : C)
    (hmatch : ∃ t ∈ rows, Matches t m event) :
    let table : FsmTable S E C := ⟨rows, (Nat.le_add_right _ _).trans hcount⟩
    let extended : FsmTable S E C := ⟨rows ++ extra, List.length_append ▸ hcount⟩
    dispatchLoop (some extended) m event context = dispatchLoop (some table) m event context ∧
      ∀ t, rows.find? (takes m event) = some t →
        (∃ guard, t.guard = some guard ∧ guard context = false) →
        dispatchLoop (some extended) m event context =
          (false, { m with blocked := m.blocked + 1 }, context) := by
  intro table extended
  rw [dispatchLoop_some, dispatchLoop_some]
  refine ⟨dispatch_append_of_mem hmatch context, ?_⟩
  rintro t hfirst ⟨guard, hguard, hrefused⟩
  rw [dispatch_append_of_first hfirst, resolve_of_refused hguard hrefused]

/-- A row that would lock the doors from any state, below the door table with its guards. -/
def catchAll : FsmTransition DoorState DoorEvent DoorContext :=
  ⟨.locked, true, .lockRequest, .locked, none, none⟩

theorem dispatchLoop_append_catchAll :
    dispatchLoop (some ⟨doorTable ++ [catchAll], by decide⟩) ⟨.unlocked, 0, 0⟩ .lockRequest
        { DoorContext.initial with doorOpen := true } =
      (false, ⟨.unlocked, 0, 1⟩, { DoorContext.initial with doorOpen := true }) := by
  have hcount : doorTable.length + [catchAll].length ≤ 255 := by decide
  have hmatch : ∃ t ∈ doorTable,
      Matches t ⟨.unlocked, 0, 0⟩ .lockRequest := ⟨_, List.mem_cons_self, rfl, Or.inr rfl⟩
  have hrefuses := (dispatchLoop_append doorTable [catchAll] hcount ⟨.unlocked, 0, 0⟩ .lockRequest
    { DoorContext.initial with doorOpen := true } hmatch).2
  exact hrefuses _ rfl ⟨DoorContext.noDoorOpen, rfl, rfl⟩

end Fsm

/-! ### The open-door guard -/

namespace DoorMgr

open Fsm

variable {m : Fsm DoorState} {event : DoorEvent}

/-- A row into Locked is the first that matches, wherever it matches at all. -/
theorem find?_of_target_locked {t : FsmTransition DoorState DoorEvent DoorContext}
    (hmem : t ∈ doorTable) (htarget : t.target = .locked) (hmatch : Matches t m event) :
    doorTable.find? (takes m event) = some t := by
  obtain ⟨state, transitions, blocked⟩ := m
  obtain ⟨hevent, hsource⟩ := hmatch
  simp only [doorTable, List.mem_cons, List.not_mem_nil, or_false] at hmem
  rcases hmem with rfl | rfl | rfl | rfl | rfl
  case inr.inr.inl => cases htarget
  case inr.inr.inr.inl => cases htarget
  all_goals
    obtain rfl := hevent
    obtain rfl := hsource.resolve_left Bool.false_ne_true
    rfl

/-- **No rows below the door table let a lock past an open door.** -/
theorem doorTable_append_refuses
    (hlocks : ∃ t ∈ doorTable, t.target = .locked ∧ Matches t m event)
    (extra : List (FsmTransition DoorState DoorEvent DoorContext)) {context : DoorContext}
    (hopen : context.doorOpen = true) :
    Fsm.dispatch (doorTable ++ extra) m event context =
      (false, { m with blocked := m.blocked + 1 }, context) := by
  obtain ⟨t, hmem, htarget, hmatch⟩ := hlocks
  have hrefused : context.noDoorOpen = false := by
    rw [DoorContext.noDoorOpen, hopen, Bool.not_true]
  rw [dispatch_append_of_first (find?_of_target_locked hmem htarget hmatch),
    resolve_of_refused (guard_of_target_locked hmem htarget) hrefused]

end DoorMgr

end Bcm
