import Mathlib.Data.List.Basic

/-!
# The table-driven state machine

The engine all four machines share (`fsm.h`). A machine is its state and two counters. Its table is
constant for the lifetime of the machine, so it is an argument of `dispatch` and not part of what
changes. `dispatch` searches the rows as a list, and `dispatchLoop` as the source's loop does, with
the 8-bit index and count.
-/

namespace Bcm

/-- One row of a transition table. `none` is the source's null guard or action. -/
structure FsmTransition (S E C : Type) where
  source : S
  fromAny : Bool
  event : E
  target : S
  guard : Option (C → Bool)
  action : Option (C → C)

/-- The table and the row count a machine is built with, in 8 bits. -/
structure FsmTable (S E C : Type) where
  rows : List (FsmTransition S E C)
  bounded : rows.length ≤ 255

namespace FsmTable

variable {S E C : Type}

def count (table : FsmTable S E C) : UInt8 := UInt8.ofNat table.rows.length

theorem toNat_count (table : FsmTable S E C) : table.count.toNat = table.rows.length := by
  have hbounded := table.bounded
  rw [count, UInt8.toNat_ofNat']
  omega

theorem toNat_lt_length {table : FsmTable S E C} {i : UInt8} (h : i < table.count) :
    i.toNat < table.rows.length := by
  rw [UInt8.lt_iff_toNat_lt, toNat_count] at h
  exact h

/-- Below the count the index does not wrap. -/
theorem toNat_succ {table : FsmTable S E C} {i : UInt8} (h : i < table.count) :
    (i + 1).toNat = i.toNat + 1 := by
  have hbounded := table.bounded
  have hlt := toNat_lt_length h
  rw [UInt8.toNat_add, UInt8.toNat_one]
  omega

end FsmTable

/-- The part of a machine that moves. The counters are 32-bit and wrap. -/
structure Fsm (S : Type) where
  state : S
  transitions : UInt32
  blocked : UInt32
  deriving DecidableEq, Repr

namespace Fsm

variable {S E C : Type} [DecidableEq S] [DecidableEq E]

def new (initial : S) : Fsm S := ⟨initial, 0, 0⟩

def setState (m : Fsm S) (s : S) : Fsm S := { m with state := s }

/-- Offer an event to the machine. The first row that matches decides: a guard that refuses ends
the search, so no later row can bypass it. The result is whether a transition fired, the machine,
and the context. -/
def dispatch (table : List (FsmTransition S E C)) (m : Fsm S) (event : E) (context : C) :
    Bool × Fsm S × C :=
  match table with
  | [] => (false, m, context)
  | t :: rest =>
      if t.event ≠ event then dispatch rest m event context
      else if !t.fromAny && decide (t.source ≠ m.state) then dispatch rest m event context
      else if t.guard.any (fun guard => !guard context) then
        (false, { m with blocked := m.blocked + 1 }, context)
      else
        (true, { m with state := t.target, transitions := m.transitions + 1 },
          t.action.elim context (fun action => action context))

/-- The loop of `dispatch(event, context)`, from the row `i` on. -/
def dispatchFrom (table : FsmTable S E C) (i : UInt8) (m : Fsm S) (event : E) (context : C) :
    Bool × Fsm S × C :=
  if h : i < table.count then
    let t := table.rows.get ⟨i.toNat, FsmTable.toNat_lt_length h⟩
    if t.event ≠ event then dispatchFrom table (i + 1) m event context
    else if !t.fromAny && decide (t.source ≠ m.state) then
      dispatchFrom table (i + 1) m event context
    else if t.guard.any (fun guard => !guard context) then
      (false, { m with blocked := m.blocked + 1 }, context)
    else
      (true, { m with state := t.target, transitions := m.transitions + 1 },
        t.action.elim context (fun action => action context))
  else (false, m, context)
termination_by table.rows.length - i.toNat
decreasing_by
  all_goals
    have hlt := FsmTable.toNat_lt_length h
    rw [FsmTable.toNat_succ h]
    omega

/-- `dispatch(event, context)` as the source has it, with `none` for a null table. -/
def dispatchLoop (table : Option (FsmTable S E C)) (m : Fsm S) (event : E) (context : C) :
    Bool × Fsm S × C :=
  match table with
  | none => (false, m, context)
  | some table => dispatchFrom table 0 m event context

/-- A row takes the event in the current state. Its guard is not part of the match. -/
def Matches (t : FsmTransition S E C) (m : Fsm S) (event : E) : Prop :=
  t.event = event ∧ (t.fromAny = true ∨ t.source = m.state)

instance (t : FsmTransition S E C) (m : Fsm S) (event : E) : Decidable (Matches t m event) :=
  inferInstanceAs (Decidable (_ ∧ _))

def takes (m : Fsm S) (event : E) (t : FsmTransition S E C) : Bool := decide (Matches t m event)

/-- What a row does once it matches. -/
def resolve (t : FsmTransition S E C) (m : Fsm S) (context : C) : Bool × Fsm S × C :=
  if t.guard.any (fun guard => !guard context) then
    (false, { m with blocked := m.blocked + 1 }, context)
  else
    (true, { m with state := t.target, transitions := m.transitions + 1 },
      t.action.elim context (fun action => action context))

theorem dispatch_skip {t : FsmTransition S E C} {m : Fsm S} {event : E} (h : ¬ Matches t m event)
    (rest : List (FsmTransition S E C)) (context : C) :
    dispatch (t :: rest) m event context = dispatch rest m event context := by
  by_cases hevent : t.event = event
  · have hsource : ¬ (t.fromAny = true ∨ t.source = m.state) := fun hs => h ⟨hevent, hs⟩
    have hskip : (!t.fromAny && decide (t.source ≠ m.state)) = true := by
      simpa [not_or] using hsource
    rw [dispatch, if_neg (not_not.mpr hevent), if_pos hskip]
  · rw [dispatch, if_pos hevent]

theorem dispatch_of_matches {t : FsmTransition S E C} {m : Fsm S} {event : E}
    (h : Matches t m event) (rest : List (FsmTransition S E C)) (context : C) :
    dispatch (t :: rest) m event context = resolve t m context := by
  obtain ⟨hevent, hsource⟩ := h
  have htaken : ¬ (!t.fromAny && decide (t.source ≠ m.state)) = true := by
    rcases hsource with hany | hsame
    · simp [hany]
    · simp [hsame]
  rw [dispatch, if_neg (not_not.mpr hevent), if_neg htaken, resolve]

/-- **The first row that matches decides**, and no other row does anything. -/
theorem dispatch_eq_find? (table : List (FsmTransition S E C)) (m : Fsm S) (event : E)
    (context : C) :
    dispatch table m event context =
      (table.find? (takes m event)).elim (false, m, context) fun t => resolve t m context := by
  induction table with
  | nil => rfl
  | cons t rest ih =>
      by_cases hmatches : Matches t m event
      · have htaken : takes m event t = true := decide_eq_true hmatches
        rw [dispatch_of_matches hmatches, List.find?_cons_of_pos htaken, Option.elim_some]
      · have hskipped : ¬ takes m event t = true := fun htaken => hmatches (of_decide_eq_true htaken)
        rw [dispatch_skip hmatches, List.find?_cons_of_neg hskipped, ih]

/-- **What one dispatch can do.** Either no transition fires, and then the state, the transition
count and the context are as before, or one row fires, and then it matched and its guard agreed. -/
theorem dispatch_cases (table : List (FsmTransition S E C)) (m : Fsm S) (event : E)
    (context : C) :
    (∃ m' : Fsm S, dispatch table m event context = (false, m', context) ∧
        m'.state = m.state ∧ m'.transitions = m.transitions) ∨
      ∃ t ∈ table, Matches t m event ∧ (∀ guard ∈ t.guard, guard context = true) ∧
        dispatch table m event context =
          (true, { m with state := t.target, transitions := m.transitions + 1 },
            t.action.elim context (fun action => action context)) := by
  rw [dispatch_eq_find?]
  cases hfirst : table.find? (takes m event) with
  | none => exact Or.inl ⟨m, rfl, rfl, rfl⟩
  | some t =>
      have htaken : takes m event t = true := List.find?_some hfirst
      have hmatches : Matches t m event := of_decide_eq_true htaken
      rw [Option.elim_some, resolve]
      by_cases hrefused : t.guard.any (fun guard => !guard context) = true
      · rw [if_pos hrefused]
        exact Or.inl ⟨{ m with blocked := m.blocked + 1 }, rfl, rfl, rfl⟩
      · rw [if_neg hrefused]
        refine Or.inr ⟨t, List.mem_of_find?_eq_some hfirst, hmatches, ?_, rfl⟩
        intro guard hguard
        rw [Option.mem_def] at hguard
        simpa [hguard] using hrefused

/-- The counters of a machine are never read, except that a refusal moves one of them. -/
theorem dispatch_congr (table : List (FsmTransition S E C)) {m m' : Fsm S}
    (h : m.state = m'.state) (event : E) (context : C) :
    (dispatch table m event context).1 = (dispatch table m' event context).1 ∧
      (dispatch table m event context).2.1.state = (dispatch table m' event context).2.1.state ∧
      (dispatch table m event context).2.2 = (dispatch table m' event context).2.2 ∧
      ((dispatch table m event context).2.1.blocked = m.blocked ↔
        (dispatch table m' event context).2.1.blocked = m'.blocked) := by
  have hsame : (takes m event : FsmTransition S E C → Bool) = takes m' event := by
    funext t
    apply decide_eq_decide.mpr
    rw [Matches, Matches, h]
  rw [dispatch_eq_find?, dispatch_eq_find?, hsame]
  cases table.find? (takes m' event) with
  | none => exact ⟨rfl, h, rfl, iff_of_true rfl rfl⟩
  | some t =>
      rw [Option.elim_some, Option.elim_some, resolve, resolve]
      split
      · exact ⟨rfl, h, rfl, by simp⟩
      · exact ⟨rfl, rfl, rfl, iff_of_true rfl rfl⟩

end Fsm

end Bcm
