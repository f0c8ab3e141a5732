import Bcm.Lib.Backlog
import Bcm.Proof.ReceivePath

/-!
# The budget of the poll

A pass of the control task reads up to 64 bytes, and stops where there is none. The receive queue
holds twice as many. So where no more than 64 bytes come in from one pass to the next, nothing that
comes in is lost, whatever the interrupt and the tasks do in between. At 115200 baud fewer than 60
bytes come in within the 5 ms of a period.
-/

namespace Bcm.Firmware

open Backlog (Change)

variable {Q : Type} {M : MessageQueue Q LogRecord} {cfg : Config} {up : PowerUp Q}

/-- The default `budget` of `poll`. -/
def kPollBudget : Nat := 64

/-- What an action does to the number of bytes unread. -/
def Action.change : Action → Change
  | .irq status => if status.received.isSome then .up else .same
  | .pollByte => .down
  | _ => .same

def arrived (actions : List Action) : Nat := (actions.map Action.change).count .up

variable (M cfg) in
/-- A round: so many bytes at most arrive, and a poll reads its budget or all there is. -/
def InBudget (f : Firmware Q) (round : List Action) : Prop :=
  arrived round ≤ kPollBudget ∧
    (kPollBudget ≤ (round.map Action.change).count .down ∨
      ∃ front back, round = front ++ back ∧
        ∀ t ∈ PartialRuns.run (exec M cfg) f front, t.line.uart.rx.count = 0)

variable (M cfg) in
def InBudgetAlong (f : Firmware Q) : List (List Action) → Prop
  | [] => True
  | round :: rounds =>
      InBudget M cfg f round ∧
        ∀ t ∈ PartialRuns.run (exec M cfg) f round, InBudgetAlong t rounds

theorem read_count {u : Uart} (hinit : u.initialised = true) :
    u.read.2.rx.count = u.rx.count - 1 := by
  have hrest := u.rx.pop_contents.2
  have hread : u.read.2.rx = u.rx.pop.2 := by
    unfold Uart.read
    rw [hinit]
    rfl
  rw [hread, ← RingBuffer.length_contents, hrest, List.length_tail, RingBuffer.length_contents]

theorem count_irq (u : Uart) (irq : Uart.Irq) :
    (u.onIrq irq).2.rx.count ≤ Backlog.next u.rx.count (Action.irq irq).change := by
  have hlength := (u.onIrq_rx irq).1.sublist.length_le
  rw [List.length_append, RingBuffer.length_contents, RingBuffer.length_contents] at hlength
  have hchange : (Action.irq irq).change = if irq.received.isSome then .up else .same := rfl
  rw [hchange]
  cases hreceived : irq.received with
  | none =>
      rw [hreceived] at hlength
      exact hlength
  | some byte =>
      rw [hreceived] at hlength
      exact hlength

theorem count_exec {f f' : Firmware Q} {a : Action} (hinit : f.line.uart.initialised = true)
    (h : f.exec M cfg a = some f') :
    f'.line.uart.rx.count ≤ Backlog.next f.line.uart.rx.count a.change := by
  have hsame : SameLink f f' → a.change = .same →
      f'.line.uart.rx.count ≤ Backlog.next f.line.uart.rx.count a.change := by
    intro hsame hchange
    rw [hsame.rx, hchange, Backlog.next]
  cases a with
  | irq irq =>
      rw [← Option.some.inj h]
      exact count_irq f.line.uart irq
  | pollByte =>
      have hread : f'.line.uart.rx = f.line.uart.read.2.rx := by
        cases polled h with
        | idle _ heq | kept _ _ _ heq => rw [heq]; rfl
        | served _ _ _ reply response _ _ heq =>
            rw [heq, (sameLink_answer reply response _).rx]
            rfl
      rw [hread, read_count hinit]
      rfl
  | cycle | pollEnd | sample | drain | heartbeat | takeRecord | writeRecord =>
      rcases exec_link h with hlink | ⟨hpoll, -⟩ | ⟨irq, hirq, -⟩
      · exact hsame hlink rfl
      · exact absurd hpoll (by simp)
      · exact absurd hirq (by simp)

/-! ### Within a round -/

/-- There is room for the byte. -/
def HasRoom (f : Firmware Q) (a : Action) : Prop :=
  a.change = .up → f.line.uart.rx.count < kRxCapacity

section

variable {f f' : Firmware Q} (hinit : f.line.uart.initialised = true)

include hinit

theorem count_run {actions : List Action}
    (h : PartialRuns.run (exec M cfg) f actions = some f') :
    f'.line.uart.initialised = true ∧
      f'.line.uart.rx.count ≤
        Backlog.after f.line.uart.rx.count (actions.map Action.change) := by
  induction actions using List.reverseRecOn generalizing f' with
  | nil =>
      rw [← Option.some.inj h]
      exact ⟨hinit, le_rfl⟩
  | append_singleton actions a ih =>
      rw [PartialRuns.run_concat, Option.bind_eq_some_iff] at h
      obtain ⟨t, ht, hexec⟩ := h
      obtain ⟨htInit, hcount⟩ := ih ht
      refine ⟨initialised_exec htInit hexec, ?_⟩
      rw [List.map_append, Backlog.after, List.foldl_append]
      exact (count_exec htInit hexec).trans (Backlog.next_mono hcount a.change)

theorem count_le_arrived {actions : List Action}
    (h : PartialRuns.run (exec M cfg) f actions = some f') :
    f'.line.uart.rx.count ≤ arrived actions + f.line.uart.rx.count :=
  (count_run hinit h).2.trans
    ((Backlog.after_le _ _).trans (Nat.add_le_add_left (Nat.sub_le _ _) _))

/-- While the queue may hold all that comes in, there is room for each byte. -/
theorem hasRoom_along {actions : List Action}
    (hfits : f.line.uart.rx.count + arrived actions ≤ kRxCapacity) :
    PartialRuns.Along (exec M cfg) HasRoom f actions := by
  induction actions using List.reverseRecOn with
  | nil => trivial
  | append_singleton actions a ih =>
      have hsplit : arrived (actions ++ [a]) = arrived actions + arrived [a] := by
        unfold arrived
        rw [List.map_append, List.count_append]
      rw [hsplit] at hfits
      refine PartialRuns.along_concat.mpr ⟨ih (by omega), fun t ht hup => ?_⟩
      have hcount := count_le_arrived hinit ht
      have hone : arrived [a] = 1 := by
        unfold arrived
        rw [List.map_singleton, hup]
        rfl
      omega

/-- A round that begins with no more than the budget ends so. -/
theorem count_round (hcount : f.line.uart.rx.count ≤ kPollBudget) {round : List Action}
    (hround : InBudget M cfg f round)
    (h : PartialRuns.run (exec M cfg) f round = some f') :
    f'.line.uart.rx.count ≤ kPollBudget := by
  obtain ⟨harrived, hread | ⟨front, back, rfl, hempty⟩⟩ := hround
  · exact (count_run hinit h).2.trans (Backlog.after_le_of_round hcount harrived hread)
  · rw [PartialRuns.run_append, Option.bind_eq_some_iff] at h
    obtain ⟨t, ht, hback⟩ := h
    have hleft := count_le_arrived (count_run hinit ht).1 hback
    have hsplit : arrived (front ++ back) = arrived front + arrived back := by
      unfold arrived
      rw [List.map_append, List.count_append]
    rw [hempty t ht] at hleft
    omega

theorem hasRoom_rounds (hcount : f.line.uart.rx.count ≤ kPollBudget)
    {rounds : List (List Action)} {rest : List Action} (hrounds : InBudgetAlong M cfg f rounds)
    (hrest : arrived rest ≤ kPollBudget) :
    PartialRuns.Along (exec M cfg) HasRoom f (rounds.flatten ++ rest) := by
  have hfits : ∀ {actions : List Action}, arrived actions ≤ kPollBudget →
      ∀ {g : Firmware Q}, g.line.uart.rx.count ≤ kPollBudget →
        g.line.uart.rx.count + arrived actions ≤ kRxCapacity := by
    intro actions hactions g hg
    unfold kPollBudget at hactions hg
    unfold kRxCapacity
    omega
  induction rounds generalizing f with
  | nil => exact hasRoom_along hinit (hfits hrest hcount)
  | cons round rounds ih =>
      obtain ⟨hround, hmore⟩ := hrounds
      rw [List.flatten_cons, List.append_assoc]
      refine PartialRuns.along_append.mpr ⟨hasRoom_along hinit (hfits hround.1 hcount), ?_⟩
      intro t ht
      exact ih (count_run hinit ht).1 (count_round hinit hcount hround ht) (hmore t ht)

end

/-! ### From power up -/

/-- Where there is room for each byte, the unread ones are those in the queue. -/
theorem keepsUp_of_hasRoom {actions : List Action}
    (h : PartialRuns.Along (exec M cfg) HasRoom (start M cfg up) actions) :
    PartialRuns.Along (exec M cfg) KeepsUp (start M cfg up) actions := by
  induction actions using List.reverseRecOn with
  | nil => trivial
  | append_singleton actions a ih =>
      obtain ⟨hfront, hlast⟩ := PartialRuns.along_concat.mp h
      refine PartialRuns.along_concat.mpr ⟨ih hfront, fun t ht => ?_⟩
      cases a with
      | irq irq =>
          intro hreceived
          have hroom := hlast t ht (by simp [Action.change, hreceived])
          have hlength := congrArg List.length ((reads_of_run ht).bytes.all (ih hfront))
          rw [List.length_append, RingBuffer.length_contents] at hlength
          omega
      | _ => trivial

/-- **A poll in time loses nothing.** In rounds that bring no more than 64 bytes each, and in each of
which the poll reads its budget or all there is, everything received has been read or is queued, in
order, at any point of the round after them. All of the frames read have been dispatched. -/
theorem nothing_lost_in_budget {rounds : List (List Action)} {rest : List Action}
    (hrounds : InBudgetAlong M cfg (start M cfg up) rounds) (hrest : arrived rest ≤ kPollBudget)
    {f : Firmware Q} (h : run M cfg up (rounds.flatten ++ rest) = some f) :
    f.consumed ++ f.line.uart.rx.contents = f.received ∧
      f.app.dispatcher.handled + f.app.dispatcher.rejected =
        UInt32.ofNat (FrameParser.new.frames f.consumed).length := by
  have hroom := hasRoom_rounds (M := M) (f := start M cfg up) rfl (Nat.zero_le _) hrounds hrest
  have hreads := reads_of_run h
  exact ⟨hreads.bytes.all (keepsUp_of_hasRoom hroom), hreads.served⟩

/-- A PING comes in over two rounds. -/
theorem nothing_lost_in_budget_ping :
    let byte : UInt8 → Action := fun b => .irq ⟨some b, false, false⟩
    let poll : List Action := List.replicate 64 .pollByte
    ∃ f, run (MessageQueue.plain LogRecord kLogQueueLength) .shipped .quiet
        ([[byte 0xAA, byte 0x01] ++ poll, [byte 0x00, byte 0x15] ++ poll].flatten ++
          [byte 0x55]) = some f ∧
      f.consumed ++ f.line.uart.rx.contents = f.received := by
  intro byte poll
  have hruns : (run (MessageQueue.plain LogRecord kLogQueueLength) .shipped .quiet
      ([[byte 0xAA, byte 0x01] ++ poll, [byte 0x00, byte 0x15] ++ poll].flatten ++
        [byte 0x55])).isSome := by decide +kernel
  obtain ⟨f, hf⟩ := Option.isSome_iff_exists.mp hruns
  refine ⟨f, hf, (nothing_lost_in_budget ?_ ?_ hf).1⟩
  · exact ⟨⟨by decide, Or.inl (by decide)⟩, fun _ _ => ⟨⟨by decide, Or.inl (by decide)⟩,
      fun _ _ => trivial⟩⟩
  · decide

end Bcm.Firmware
