import Bcm.App
import Bcm.Proof.LockRefusal

/-!
# The host's door requests

A door request is answered OK and raises a flag. The next cycle hands the flags to the core, which
takes the lock before the unlock, whichever of them the host sent last, and whatever the guard then
says of the lock, the reply is already out.
-/

namespace Bcm.BcmApp

/-- The request is for the doors. -/
def isDoor (request : Frame) : Bool :=
  decide (request.cmd = Cmd.doorLock.toUInt8 ∨ request.cmd = Cmd.doorUnlock.toUInt8)

def isLock (request : Frame) : Bool := decide (request.cmd = Cmd.doorLock.toUInt8)

def isUnlock (request : Frame) : Bool := decide (request.cmd = Cmd.doorUnlock.toUInt8)

/-! ### From the requests to the flags -/

theorem dispatch_of_find {C : Type} {table : List (CommandEntry C)} {entry : CommandEntry C}
    {handler : CommandHandler C} {request : Frame} (d : Dispatcher) (response : Frame) (context : C)
    (hrequest : request.cmd &&& kResponseFlag = 0)
    (hfind : Dispatcher.find table request.cmd = some entry)
    (hhandler : entry.handler = some handler) (hmin : entry.minPayload = 0) :
    d.dispatch table request response context =
      (handler request (makeStatusResponse request.cmd .ok) context).map fun outcome =>
        (outcome.1, outcome.2.1, { d with handled := d.handled + 1 }, outcome.2.2) := by
  have hlong : ¬ request.len < entry.minPayload := by
    rw [hmin]
    exact UInt8.not_lt.mpr UInt8.zero_le
  rw [Dispatcher.dispatch, if_neg (not_not.mpr hrequest), hfind]
  dsimp only
  rw [hhandler]
  dsimp only
  rw [if_neg hlong]
  cases handler request (makeStatusResponse request.cmd .ok) context <;> rfl

/-- The command context with the fault store lent to it. -/
def lent (a : BcmApp) : CommandContext :=
  { a.cmdCtx with faults := a.cmdCtx.faults.map fun _ => a.core.faults }

theorem serve_of_raise (a : BcmApp) {request : Frame}
    {entry : CommandEntry (Option CommandContext)} {raise : CommandContext → CommandContext}
    (hrequest : request.cmd &&& kResponseFlag = 0)
    (hfind : Dispatcher.find Commands.commandTable request.cmd = some entry)
    (hhandler : entry.handler = some (Commands.requestDoor raise)) (hmin : entry.minPayload = 0) :
    a.serve request = some (true, makeStatusResponse request.cmd .ok,
      { core := { a.core with faults := (raise a.lent).faults.getD a.core.faults }
        dispatcher := { a.dispatcher with handled := a.dispatcher.handled + 1 }
        cmdCtx := raise a.lent }) := by
  have hdispatch :=
    dispatch_of_find a.dispatcher .new (some a.lent) hrequest hfind hhandler hmin
  rw [serve, ← lent, hdispatch]
  rfl

theorem lent_faults (a : BcmApp) : a.lent.faults.getD a.core.faults = a.core.faults := by
  rw [lent]
  cases a.cmdCtx.faults <;> rfl

/-- A door request is answered OK, and does nothing but raise its flag. -/
theorem serve_door (a : BcmApp) {request : Frame} (hdoor : isDoor request = true) :
    ∃ a', a.serve request = some (true, makeStatusResponse request.cmd .ok, a') ∧
      a'.core = a.core ∧
      a'.cmdCtx.doorLockRequested = (a.cmdCtx.doorLockRequested || isLock request) ∧
      a'.cmdCtx.doorUnlockRequested = (a.cmdCtx.doorUnlockRequested || isUnlock request) := by
  have hcases : request.cmd = Cmd.doorLock.toUInt8 ∨ request.cmd = Cmd.doorUnlock.toUInt8 := by
    simpa [isDoor] using hdoor
  have hfaults := a.lent_faults
  rcases hcases with hcmd | hcmd
  · have hlock : isLock request = true := by simp [isLock, hcmd]
    have hunlock : isUnlock request = false := by simp [isUnlock, hcmd, Cmd.toUInt8]
    refine ⟨_, a.serve_of_raise (by rw [hcmd]; decide) (by rw [hcmd]; rfl) rfl rfl, ?_, ?_, ?_⟩
    · dsimp only
      rw [hfaults]
    · rw [hlock, Bool.or_true]
    · rw [hunlock, Bool.or_false]
      rfl
  · have hlock : isLock request = false := by simp [isLock, hcmd, Cmd.toUInt8]
    have hunlock : isUnlock request = true := by simp [isUnlock, hcmd]
    refine ⟨_, a.serve_of_raise (by rw [hcmd]; decide) (by rw [hcmd]; rfl) rfl rfl, ?_, ?_, ?_⟩
    · dsimp only
      rw [hfaults]
    · rw [hlock, Bool.or_false]
      rfl
    · rw [hunlock, Bool.or_true]

theorem serveAll_doors {a a' : BcmApp} {requests responses : List Frame}
    (hdoors : ∀ request ∈ requests, isDoor request = true)
    (h : a.serveAll requests = some (responses, a')) :
    a'.core = a.core ∧
      a'.cmdCtx.doorLockRequested = (a.cmdCtx.doorLockRequested || requests.any isLock) ∧
      a'.cmdCtx.doorUnlockRequested = (a.cmdCtx.doorUnlockRequested || requests.any isUnlock) := by
  induction requests generalizing a responses with
  | nil =>
      obtain ⟨-, rfl⟩ := Prod.mk.inj (Option.some.inj h)
      simp
  | cons request requests ih =>
      obtain ⟨next, hserve, hcore, hlock, hunlock⟩ :=
        a.serve_door (hdoors request (List.mem_cons_self ..))
      rw [serveAll, hserve, Option.bind_eq_bind, Option.bind_some, Option.bind_eq_bind,
        Option.bind_eq_some_iff] at h
      obtain ⟨⟨rest, last⟩, hrest, hresult⟩ := h
      obtain ⟨-, rfl⟩ := Prod.mk.inj (Option.some.inj hresult)
      obtain ⟨hcore', hlock', hunlock'⟩ :=
        ih (fun r hr => hdoors r (List.mem_cons_of_mem _ hr)) hrest
      refine ⟨hcore'.trans hcore, ?_, ?_⟩
      · rw [hlock', hlock, List.any_cons, Bool.or_assoc]
      · rw [hunlock', hunlock, List.any_cons, Bool.or_assoc]

/-! ### From the flags to the door -/

theorem gatherInputs_core (a : BcmApp) (board : Snapshot) :
    (a.gatherInputs board).core.door = a.core.door ∧
      (a.gatherInputs board).core.inputs = board.inputs ∧
      (a.gatherInputs board).core.previous = a.core.previous ∧
      (a.gatherInputs board).core.firstCycle = a.core.firstCycle ∧
      (a.gatherInputs board).core.hostLock = (a.core.hostLock || a.cmdCtx.doorLockRequested) ∧
      (a.gatherInputs board).core.hostUnlock =
        (a.core.hostUnlock || a.cmdCtx.doorUnlockRequested) := by
  simp only [gatherInputs, BcmCore.setInputs, BcmCore.setCommsLost, BcmCore.setHostRequest,
    BcmCore.requestDoorLock, BcmCore.requestDoorUnlock, apply_ite BcmCore.door,
    apply_ite BcmCore.inputs, apply_ite BcmCore.previous, apply_ite BcmCore.firstCycle,
    apply_ite BcmCore.hostLock, apply_ite BcmCore.hostUnlock, ite_self, true_and]
  cases a.cmdCtx.doorLockRequested <;> cases a.cmdCtx.doorUnlockRequested <;> simp

theorem cycle_core (cfg : Config) (board : Snapshot) (dtMs : Nat) (a : BcmApp) :
    (a.cycle cfg board dtMs).core = (a.gatherInputs board).core.step cfg dtMs := rfl

/-! ### Between two cycles -/

/-- A dispatch reaches nothing of the core but the fault store. -/
theorem serve_core {a a' : BcmApp} {request response : Frame} {reply : Bool}
    (h : a.serve request = some (reply, response, a')) :
    ∃ faults, a'.core = { a.core with faults := faults } := by
  rw [serve, Option.bind_eq_bind, Option.bind_eq_some_iff] at h
  obtain ⟨⟨reply, response, dispatcher, ctx⟩, -, hresult⟩ := h
  obtain ⟨-, hresult⟩ := Prod.mk.inj (Option.some.inj hresult)
  obtain ⟨-, rfl⟩ := Prod.mk.inj hresult
  exact ⟨_, rfl⟩

theorem serveAll_core {a a' : BcmApp} {requests responses : List Frame}
    (h : a.serveAll requests = some (responses, a')) :
    ∃ faults, a'.core = { a.core with faults := faults } := by
  induction requests generalizing a responses with
  | nil =>
      obtain ⟨-, rfl⟩ := Prod.mk.inj (Option.some.inj h)
      exact ⟨_, rfl⟩
  | cons request requests ih =>
      rw [serveAll, Option.bind_eq_bind, Option.bind_eq_some_iff] at h
      obtain ⟨⟨reply, response, next⟩, hserve, hrest⟩ := h
      rw [Option.bind_eq_bind, Option.bind_eq_some_iff] at hrest
      obtain ⟨⟨rest, last⟩, hrest, hresult⟩ := hrest
      obtain ⟨-, rfl⟩ := Prod.mk.inj (Option.some.inj hresult)
      obtain ⟨faults, hcore⟩ := serve_core hserve
      obtain ⟨faults', hcore'⟩ := ih hrest
      exact ⟨faults', by rw [hcore', hcore]⟩

/-- What the next cycle asks of the core is not the requests' to touch. -/
theorem serveAll_hostFlags {a a' : BcmApp} {requests responses : List Frame}
    (h : a.serveAll requests = some (responses, a')) :
    a'.core.firstCycle = a.core.firstCycle ∧ a'.core.hostLock = a.core.hostLock ∧
      a'.core.hostUnlock = a.core.hostUnlock := by
  obtain ⟨faults, hcore⟩ := serveAll_core h
  rw [hcore]
  exact ⟨rfl, rfl, rfl⟩

theorem firstCycle_of_serveAll {cfg : Config} {a b : BcmApp} {board : Snapshot} {dtMs : Nat}
    {requests responses : List Frame}
    (h : (a.cycle cfg board dtMs).serveAll requests = some (responses, b)) :
    b.core.firstCycle = false := by
  obtain ⟨hfirst, -, -⟩ := serveAll_hostFlags h
  rw [hfirst, cycle_core, BcmCore.step_firstCycle]

/-- No door request waits in the core, and none at all before the first cycle. -/
structure Idle (a : BcmApp) : Prop where
  lock : a.core.hostLock = false
  unlock : a.core.hostUnlock = false
  fresh : a.core.firstCycle = true →
    a.cmdCtx.doorLockRequested = false ∧ a.cmdCtx.doorUnlockRequested = false

theorem idle_init (cfg : Config) : Idle ((new cfg).init) := ⟨rfl, rfl, fun _ => ⟨rfl, rfl⟩⟩

theorem Idle.cycle {a : BcmApp} (h : Idle a) (cfg : Config) (board : Snapshot) (dtMs : Nat) :
    (a.cycle cfg board dtMs).core.hostLock = false ∧
      (a.cycle cfg board dtMs).core.hostUnlock = false := by
  obtain ⟨-, -, -, hfirst, hlock, hunlock⟩ := a.gatherInputs_core board
  obtain ⟨hstepLock, hstepUnlock⟩ := (a.gatherInputs board).core.step_host cfg dtMs
  rw [cycle_core, hstepLock, hstepUnlock, hfirst, hlock, hunlock, h.lock, h.unlock]
  cases hcycle : a.core.firstCycle with
  | true =>
      obtain ⟨hnoLock, hnoUnlock⟩ := h.fresh hcycle
      rw [hnoLock, hnoUnlock]
      exact ⟨rfl, rfl⟩
  | false => exact ⟨rfl, rfl⟩

theorem Idle.exec {cfg : Config} {a a' : BcmApp} (h : Idle a) {op : AppOp}
    (hexec : a.exec cfg op = some a') : Idle a' := by
  cases op with
  | step board dtMs requests =>
      rw [BcmApp.exec, BcmApp.step, Option.bind_eq_bind, Option.bind_eq_some_iff] at hexec
      obtain ⟨⟨responses, served⟩, hserved, hresult⟩ := hexec
      rw [← Option.some.inj hresult]
      split
      · exact idle_init cfg
      · obtain ⟨-, hsameLock, hsameUnlock⟩ := serveAll_hostFlags hserved
        obtain ⟨hlock, hunlock⟩ := h.cycle cfg board dtMs
        refine ⟨hsameLock.trans hlock, hsameUnlock.trans hunlock, fun hfirst => ?_⟩
        rw [firstCycle_of_serveAll hserved] at hfirst
        exact absurd hfirst Bool.false_ne_true
  | sampleBattery sample =>
      rw [← Option.some.inj hexec]
      exact ⟨h.lock, h.unlock, h.fresh⟩
  | takeLogEvent =>
      rw [← Option.some.inj hexec]
      exact ⟨h.lock, h.unlock, h.fresh⟩

theorem idle_run {cfg : Config} {ops : List AppOp} {a : BcmApp} (h : run cfg ops = some a) :
    Idle a := by
  induction ops using List.reverseRecOn generalizing a with
  | nil =>
      rw [← Option.some.inj h]
      exact idle_init cfg
  | append_singleton ops op ih =>
      rw [run, List.foldlM_append, Option.bind_eq_bind, Option.bind_eq_some_iff] at h
      obtain ⟨before, hbefore, hlast⟩ := h
      simp only [List.foldlM_cons, List.foldlM_nil, bind_pure] at hlast
      exact (ih hbefore).exec hlast

/-! ### The order of the requests -/

/-- No door timer expires in this cycle. -/
def TimersQuiet (cfg : Config) (dtMs : Nat) (s : BcmCore) : Prop :=
  (s.applyEdges cfg dtMs).door.welcome.expires dtMs = false ∧
    (s.applyEdges cfg dtMs).door.autoLock.expires dtMs = false

instance (cfg : Config) (dtMs : Nat) (s : BcmCore) : Decidable (TimersQuiet cfg dtMs s) :=
  inferInstanceAs (Decidable (_ ∧ _))

/-- The doors are as the last of the requests asks. -/
def LastDecides (requests : List Frame) (doors : DoorState) : Prop :=
  ∀ last ∈ requests.getLast?,
    (isLock last = true → doors = .locked) ∧ (isUnlock last = true → doors ≠ .locked)

instance (requests : List Frame) (doors : DoorState) : Decidable (LastDecides requests doors) :=
  inferInstanceAs (Decidable (∀ last ∈ requests.getLast?, _))

/-- If there is an unlock among the requests, the last one is an unlock. -/
def EndsInUnlock (requests : List Frame) : Prop :=
  ∀ last ∈ requests.getLast?, requests.any isUnlock = true → isUnlock last = true

instance (requests : List Frame) : Decidable (EndsInUnlock requests) :=
  inferInstanceAs (Decidable (∀ last ∈ requests.getLast?, _))

/-- With the doors closed and their timers quiet, a cycle locks on a lock request alone, and any
unlock request ends with the doors unlocked. -/
theorem step_door_of_requests {cfg : Config} {dtMs : Nat} {s : BcmCore}
    (hfirst : s.firstCycle = false) (hclosed : s.inputs.doorOpen = false)
    (hswitch : s.doorSwitch = false) (hquiet : TimersQuiet cfg dtMs s) :
    (s.hostUnlock = true → (s.step cfg dtMs).door.state ≠ .locked) ∧
      (s.hostUnlock = false → s.hostLock = true → (s.step cfg dtMs).door.state = .locked) := by
  have hstate : (s.step cfg dtMs).door.state = (s.requestedDoor cfg).state := by
    have hedges : (s.applyEdges cfg dtMs).door = s.requestedDoor cfg := by
      rw [BcmCore.applyEdges_door, hfirst]
      rfl
    rw [TimersQuiet, hedges] at hquiet
    rw [BcmCore.step_door, hedges, ← DoorMgr.update_state_of_quiet cfg hquiet.1 hquiet.2]
    rfl
  rw [hstate, BcmCore.requestedDoor, hswitch, hclosed, if_neg Bool.false_ne_true]
  constructor
  · intro hunlock
    rw [if_pos hunlock]
    exact DoorMgr.requestUnlock_ne_locked cfg _
  · intro hno hlock
    rw [if_neg (by simp [hno]), if_pos hlock, DoorMgr.requestLock_state]
    rfl

theorem isLock_or_isUnlock {request : Frame} (hdoor : isDoor request = true) :
    isLock request = !isUnlock request := by
  simp only [isDoor, decide_eq_true_eq] at hdoor
  rcases hdoor with hcmd | hcmd <;> simp [isLock, isUnlock, hcmd, Cmd.toUInt8]

/-- **Which order of door requests is kept.** Whatever door requests are served between two cycles
of any run, with the doors closed, no switch pressed and no timer running out, the last of them
decides after the next cycle if and only if it is an unlock or none of them is. -/
theorem lastDecides_iff {cfg : Config} {ops : List AppOp} {a b : BcmApp}
    (hrun : run cfg ops = some a) (board : Snapshot) (dtMs : Nat) {requests responses : List Frame}
    (hne : requests ≠ []) (hdoors : ∀ request ∈ requests, isDoor request = true)
    (hserved : (a.cycle cfg board dtMs).serveAll requests = some (responses, b))
    {next : Snapshot} {nextMs : Nat} (hclosed : next.inputs.doorOpen = false)
    (hswitch : (b.gatherInputs next).core.doorSwitch = false)
    (hquiet : TimersQuiet cfg nextMs (b.gatherInputs next).core) :
    LastDecides requests (b.cycle cfg next nextMs).core.door.state ↔ EndsInUnlock requests := by
  obtain ⟨hidleLock, hidleUnlock⟩ := (idle_run hrun).cycle cfg board dtMs
  obtain ⟨hcore, hlock, hunlock⟩ := serveAll_doors hdoors hserved
  have hflags : (a.cycle cfg board dtMs).cmdCtx.doorLockRequested = false ∧
      (a.cycle cfg board dtMs).cmdCtx.doorUnlockRequested = false := ⟨rfl, rfl⟩
  rw [hflags.1, Bool.false_or] at hlock
  rw [hflags.2, Bool.false_or] at hunlock
  obtain ⟨-, hinputs, -, hfirst, hhostLock, hhostUnlock⟩ := b.gatherInputs_core next
  rw [hcore, hidleLock, Bool.false_or, hlock] at hhostLock
  rw [hcore, hidleUnlock, Bool.false_or, hunlock] at hhostUnlock
  have hlater : (b.gatherInputs next).core.firstCycle = false := by
    rw [hfirst, hcore, cycle_core, BcmCore.step_firstCycle]
  have hshut : (b.gatherInputs next).core.inputs.doorOpen = false := by rw [hinputs, hclosed]
  obtain ⟨hunlocked, hlocked⟩ := step_door_of_requests hlater hshut hswitch hquiet
  rw [hhostUnlock, ← cycle_core] at hunlocked
  rw [hhostUnlock, hhostLock, ← cycle_core] at hlocked
  obtain ⟨front, last, rfl⟩ := (List.eq_nil_or_concat' requests).resolve_left hne
  have hkind := isLock_or_isUnlock (hdoors last (by simp))
  have hlast : (front ++ [last]).getLast? = some last := by simp
  unfold LastDecides EndsInUnlock
  simp only [hlast, Option.mem_def, Option.some.injEq, forall_eq']
  cases hends : isUnlock last with
  | true =>
      have hany : (front ++ [last]).any isUnlock = true := by simp [hends]
      rw [hkind, hends]
      simp [hunlocked hany]
  | false =>
      have hanyLock : (front ++ [last]).any isLock = true := by simp [hkind, hends]
      rw [hkind, hends]
      cases hany : (front ++ [last]).any isUnlock with
      | true => simp [hunlocked hany]
      | false => simp [hlocked hany hanyLock]

/-- A cycle with everything released and the doors shut. -/
def released : Snapshot := ⟨{ Inputs.initial with batteryPermille := 800 }, 0, false, false⟩

def doorRequest (cmd : Cmd) : Frame := { Frame.new with cmd := cmd.toUInt8 }

/-- The application after its first cycle and these requests. -/
def firstPoll (requests : List Frame) : Option (List Frame × BcmApp) := do
  let a ← run .shipped []
  (a.cycle .shipped released 5).serveAll requests

theorem lastDecides_unlock :
    ∃ responses b, firstPoll [doorRequest .doorLock, doorRequest .doorUnlock] =
        some (responses, b) ∧
      LastDecides [doorRequest .doorLock, doorRequest .doorUnlock]
        (b.cycle .shipped released 5).core.door.state := by
  have hrun : run .shipped [] = some (new .shipped).init := rfl
  refine ⟨_, _, rfl, ?_⟩
  exact (lastDecides_iff hrun released 5 (by decide) (by decide) rfl rfl (by decide +kernel)
    (by decide +kernel)).mpr (by decide)

/-- A lock sent after an unlock is lost: the doors end up unlocked. -/
theorem lock_after_unlock_lost :
    ¬ ∀ b ∈ (firstPoll [doorRequest .doorUnlock, doorRequest .doorLock]).map Prod.snd,
      LastDecides [doorRequest .doorUnlock, doorRequest .doorLock]
        (b.cycle .shipped released 5).core.door.state := by
  decide +kernel

/-! ### The reply to a lock request -/

theorem pressed_of_open (cfg : Config) {d : DoorMgr} (hopen : d.ctx.doorOpen = true)
    (hdoors : d.state ≠ .locked) (pressed : Bool) :
    let d' := if pressed then (if d.locked then d.requestUnlock cfg else d.requestLock) else d
    d'.state ≠ .locked ∧ d'.ctx.doorOpen = true := by
  obtain ⟨hstate, hctx⟩ := DoorMgr.requestLock_of_open hopen hdoors
  have hnot : d.locked = false := by simpa [DoorMgr.locked] using hdoors
  dsimp only
  rw [hnot, if_neg Bool.false_ne_true]
  cases pressed with
  | false => exact ⟨hdoors, hopen⟩
  | true =>
      rw [if_pos rfl, hstate, hctx]
      exact ⟨hdoors, hopen⟩

/-- A lock that the guard refuses is reported as refused, whatever else the cycle brings. -/
theorem lockRefusal_of_open {cfg : Config} {dtMs : Nat} {s : BcmCore}
    (hfirst : s.firstCycle = false) (hopen : s.inputs.doorOpen = true)
    (hdoors : s.door.state ≠ .locked) (hlock : s.hostLock = true) :
    s.lockRefusal cfg dtMs = true := by
  have hunlocked : (s.door.setDoorOpen true).state ≠ .locked := hdoors
  obtain ⟨hstill, hguard⟩ := pressed_of_open cfg rfl hunlocked s.doorSwitch
  have hrefuses : (s.switchedDoor cfg).refusesLock = true := by
    rw [DoorMgr.refusesLock_iff, BcmCore.switchedDoor, hopen]
    exact ⟨hguard, hstill⟩
  apply BcmCore.lockRefusal_of_refusesRequest
  simp [BcmCore.refusesRequest, hfirst, hlock, hrefuses]

/-- What the interface document says of a lock request that is refused: its reply has the status
that names a safety guard. -/
def TellsRefusal (refused : Bool) (reply : Frame) : Prop :=
  refused = true → reply.read 0 = some Status.notPermitted.toUInt8

instance (refused : Bool) (reply : Frame) : Decidable (TellsRefusal refused reply) :=
  inferInstanceAs (Decidable (_ → _))

/-- **No reply tells of a refusal.** Between two cycles, whatever has been served before, a lock
request that the guard of the next cycle refuses is answered OK. -/
theorem not_tellsRefusal {cfg : Config} {a b : BcmApp} {board : Snapshot} {dtMs : Nat}
    {requests responses : List Frame}
    (hserved : (a.cycle cfg board dtMs).serveAll requests = some (responses, b))
    {request : Frame} (hlock : isLock request = true) (hdoors : b.core.door.state ≠ .locked)
    {next : Snapshot} (hopen : next.inputs.doorOpen = true) (nextMs : Nat) :
    ∃ reply c, b.serve request = some (true, reply, c) ∧
      reply.read 0 = some Status.ok.toUInt8 ∧
      ¬ TellsRefusal ((c.gatherInputs next).core.lockRefusal cfg nextMs) reply := by
  have hdoor : isDoor request = true := by
    simp only [isDoor, decide_eq_true_eq]
    exact Or.inl (by simpa [isLock] using hlock)
  obtain ⟨c, hserve, hcore, hraised, -⟩ := b.serve_door hdoor
  obtain ⟨hsame, hinputs, -, hfirst, hhost, -⟩ := c.gatherInputs_core next
  have hrefused : (c.gatherInputs next).core.lockRefusal cfg nextMs = true := by
    refine lockRefusal_of_open ?_ ?_ ?_ ?_
    · rw [hfirst, hcore, firstCycle_of_serveAll hserved]
    · rw [hinputs, hopen]
    · rw [hsame, hcore]
      exact hdoors
    · rw [hhost, hraised, hlock, Bool.or_true, Bool.or_true]
  have hok : (makeStatusResponse request.cmd .ok).read 0 = some Status.ok.toUInt8 := rfl
  refine ⟨_, c, hserve, hok, ?_⟩
  rw [hrefused]
  intro htells
  have hstatus := hok.symm.trans (htells rfl)
  exact absurd (Option.some.inj hstatus) (by decide)

theorem serveAll_nil (a : BcmApp) : a.serveAll [] = some ([], a) := rfl

/-- A cycle that finds a door open. -/
def ajar : Snapshot := { released with inputs := { released.inputs with doorOpen := true } }

theorem not_tellsRefusal_unlocked :
    ∃ responses a, firstPoll [doorRequest .doorUnlock] = some (responses, a) ∧
      ∃ reply b, (a.cycle .shipped ajar 5).serve (doorRequest .doorLock) = some (true, reply, b) ∧
        reply.read 0 = some Status.ok.toUInt8 ∧
        ¬ TellsRefusal ((b.gatherInputs ajar).core.lockRefusal .shipped 5) reply :=
  ⟨_, _, rfl, not_tellsRefusal (serveAll_nil _) (by decide) (by decide +kernel) rfl 5⟩

/-- The doors unlocked and one of them open, a lock request is refused and its reply says OK. -/
theorem refused_lock_answered_ok :
    ¬ ∀ a ∈ (firstPoll [doorRequest .doorUnlock]).map Prod.snd,
      ∀ served ∈ (a.cycle .shipped ajar 5).serve (doorRequest .doorLock),
        TellsRefusal ((served.2.2.gatherInputs ajar).core.lockRefusal .shipped 5) served.2.1 := by
  decide +kernel

end Bcm.BcmApp
