import Bcm.CommMgr
import Bcm.Commands
import Bcm.Lib.Runs
import Bcm.Proof.FrameStreams

/-!
# Link supervision

A valid frame starts the link timer afresh, and the poll that received it then advances the timer by
its own `dt`, the time since the poll before. So what the timer has counted is the polls since the
last frame and the poll of that frame too. Where that makes no difference to the timeout, the link
is lost exactly when it should be.
-/

namespace Bcm.CommMgr

variable {C T : Type} {write : List UInt8 → T → Bool × T} {table : List (CommandEntry C)}

/-- Some byte completes a valid frame. -/
def completes (parser : FrameParser) (bytes : List UInt8) : Bool :=
  (parser.answers bytes).any fun answer => decide (answer.1 = .complete)

/-! ### What one poll does to the link -/

theorem send_link (m : CommMgr C T) (frame : Frame) :
    (m.send write frame).2.parser = m.parser ∧
      (m.send write frame).2.timeoutMs = m.timeoutMs ∧
      (m.send write frame).2.linkTimer = m.linkTimer ∧
      (m.send write frame).2.linkLost = m.linkLost := by
  unfold send
  split
  · exact ⟨rfl, rfl, rfl, rfl⟩
  · dsimp only
    split
    · exact ⟨rfl, rfl, rfl, rfl⟩
    · exact ⟨rfl, rfl, rfl, rfl⟩

theorem serve_link {m m' : CommMgr C T} (h : m.serve write table = some m') :
    m'.parser = m.parser ∧ m'.timeoutMs = m.timeoutMs ∧
      m'.linkTimer = m.linkTimer.start m.timeoutMs ∧ m'.linkLost = false := by
  simp only [serve, Option.bind_eq_bind, Option.bind_eq_some_iff] at h
  obtain ⟨⟨reply, response, dispatcher, context⟩, -, hm'⟩ := h
  rw [← Option.some.inj hm']
  cases reply with
  | true => exact send_link _ response
  | false => exact ⟨rfl, rfl, rfl, rfl⟩

/-- The timer and the latch after some bytes. -/
def linkAfter (m : CommMgr C T) (bytes : List UInt8) : SoftTimer × Bool :=
  if completes m.parser bytes then (m.linkTimer.start m.timeoutMs, false)
  else (m.linkTimer, m.linkLost)

theorem completes_cons (parser : FrameParser) (byte : UInt8) (bytes : List UInt8) :
    completes parser (byte :: bytes) =
      (decide ((parser.feed byte).2 = .complete) || completes (parser.feed byte).1 bytes) := rfl

theorem receive_link {handled handled' : UInt8} {m m' : CommMgr C T} {byte : UInt8}
    (h : receive write table (handled, m) byte = some (handled', m')) :
    m'.parser = (m.parser.feed byte).1 ∧ m'.timeoutMs = m.timeoutMs ∧
      (m'.linkTimer, m'.linkLost) = m.linkAfter [byte] := by
  unfold receive at h
  dsimp only at h
  unfold linkAfter
  rw [completes_cons]
  by_cases hcomplete : (m.parser.feed byte).2 = .complete
  · rw [if_neg (not_not.mpr hcomplete), Option.bind_eq_bind, Option.bind_eq_some_iff] at h
    obtain ⟨served, hserved, hm'⟩ := h
    obtain ⟨-, rfl⟩ := Prod.mk.inj (Option.some.inj hm')
    obtain ⟨hparser, htimeout, htimer, hlost⟩ := serve_link hserved
    rw [hparser, htimeout, htimer, hlost, hcomplete]
    exact ⟨rfl, rfl, rfl⟩
  · rw [if_pos hcomplete] at h
    obtain ⟨-, rfl⟩ := Prod.mk.inj (Option.some.inj h)
    refine ⟨rfl, rfl, ?_⟩
    simp [hcomplete, completes, FrameParser.answers]

theorem foldlM_receive {handled handled' : UInt8} {m m' : CommMgr C T} {bytes : List UInt8}
    (h : bytes.foldlM (receive write table) (handled, m) = some (handled', m')) :
    m'.parser = m.parser.after bytes ∧ m'.timeoutMs = m.timeoutMs ∧
      (m'.linkTimer, m'.linkLost) = m.linkAfter bytes := by
  induction bytes generalizing handled m with
  | nil =>
      obtain ⟨-, rfl⟩ := Prod.mk.inj (Option.some.inj h)
      exact ⟨rfl, rfl, rfl⟩
  | cons byte bytes ih =>
      rw [List.foldlM_cons, Option.bind_eq_bind, Option.bind_eq_some_iff] at h
      obtain ⟨⟨handled₁, m₁⟩, hbyte, hrest⟩ := h
      obtain ⟨hparser, htimeout, hlink⟩ := receive_link hbyte
      obtain ⟨hparser', htimeout', hlink'⟩ := ih hrest
      refine ⟨by rw [hparser', hparser]; rfl, htimeout'.trans htimeout, ?_⟩
      rw [hlink']
      unfold linkAfter at hlink ⊢
      rw [completes_cons, hparser]
      rw [completes_cons] at hlink
      -- a frame further on starts the timer afresh, whatever this byte did
      by_cases hlater : completes (m.parser.feed byte).1 bytes = true
      · rw [hlater, Bool.or_true, if_pos rfl, if_pos rfl, htimeout]
        rfl
      · have hno : completes (m.parser.feed byte).1 [] = false := rfl
        rw [Bool.not_eq_true] at hlater
        rw [hlater, if_neg (by decide), hlink, hno]

theorem poll_link {m m' : CommMgr C T} {handled : UInt8} {p : Poll}
    (h : m.poll write table p.dtMs p.budget p.pending = some (handled, m')) :
    m'.parser = m.parser.after p.bytes ∧ m'.timeoutMs = m.timeoutMs ∧
      (m'.linkTimer, m'.linkLost) =
        if (m.linkAfter p.bytes).2 then m.linkAfter p.bytes
        else ((m.linkAfter p.bytes).1.advance p.dtMs, (m.linkAfter p.bytes).1.expires p.dtMs) := by
  rw [poll, Option.bind_eq_bind, Option.bind_eq_some_iff] at h
  obtain ⟨⟨handled₁, m₁⟩, hbytes, hm'⟩ := h
  obtain ⟨-, rfl⟩ := Prod.mk.inj (Option.some.inj hm')
  obtain ⟨hparser, htimeout, hlink⟩ := foldlM_receive hbytes
  change _ = m.linkAfter p.bytes at hlink
  rw [← hlink]
  unfold superviseLink
  dsimp only
  split
  case isTrue hlost => exact ⟨hparser, htimeout, rfl⟩
  case isFalse hlost => exact ⟨hparser, htimeout, rfl⟩

/-! ### The polls so far -/

/-- What some polls came to: the parser, and the time since a poll last completed a frame, beside
that poll's own. -/
structure Watch where
  parser : FrameParser
  completing : Nat
  since : Nat

def Watch.observe (w : Watch) (p : Poll) : Watch :=
  if completes w.parser p.bytes then ⟨w.parser.after p.bytes, p.dtMs, 0⟩
  else ⟨w.parser.after p.bytes, w.completing, w.since + p.dtMs⟩

def watch (ps : List Poll) : Watch := Runs.run Watch.observe ⟨.new, 0, 0⟩ ps

/-- The manager after the polls a watch has seen. The timer counts what the polls took since the
last frame, and the poll of that frame with them. -/
structure Supervised (timeoutMs : Nat) (w : Watch) (m : CommMgr C T) : Prop where
  parser : m.parser = w.parser
  timeout : m.timeoutMs = timeoutMs
  lost : m.linkLost = true → timeoutMs ≤ w.completing + w.since
  counts : m.linkLost = false → m.linkTimer.running = true ∧ m.linkTimer.periodic = false ∧
    0 < m.linkTimer.remaining ∧ m.linkTimer.remaining + (w.completing + w.since) = timeoutMs

theorem Supervised.linkLost_iff {timeoutMs : Nat} {w : Watch} {m : CommMgr C T}
    (h : Supervised timeoutMs w m) : m.linkLost = true ↔ timeoutMs ≤ w.completing + w.since := by
  refine ⟨h.lost, fun hcounted => ?_⟩
  by_contra hlost
  obtain ⟨-, -, hleft, hsum⟩ := h.counts (by simpa using hlost)
  omega

theorem Supervised.of_advance {timeoutMs dtMs : Nat} {w : Watch} {m : CommMgr C T} {t : SoftTimer}
    (hparser : m.parser = w.parser) (htimeout : m.timeoutMs = timeoutMs)
    (hlink : (m.linkTimer, m.linkLost) = (t.advance dtMs, t.expires dtMs))
    (hrunning : t.running = true) (hshot : t.periodic = false)
    (hsum : t.remaining + (w.completing + w.since) = timeoutMs + dtMs) :
    Supervised timeoutMs w m := by
  obtain ⟨htimer, hlost⟩ := Prod.mk.inj hlink
  refine ⟨hparser, htimeout, fun hexpired => ?_, fun hcontinues => ?_⟩
  · rw [hlost] at hexpired
    have hle := (SoftTimer.expires_eq_true_iff.mp hexpired).2
    omega
  · rw [hlost] at hcontinues
    have hleft : dtMs < t.remaining := by
      by_contra hle
      have hexpires : t.expires dtMs = true :=
        SoftTimer.expires_eq_true_iff.mpr ⟨hrunning, by omega⟩
      rw [hcontinues] at hexpires
      exact absurd hexpires (by decide)
    rw [htimer, SoftTimer.advance_of_not_expires hrunning hcontinues]
    exact ⟨hrunning, hshot, Nat.sub_pos_of_lt hleft, by dsimp only; omega⟩

theorem Supervised.poll {timeoutMs : Nat} (hpos : 0 < timeoutMs) {w : Watch} {m m' : CommMgr C T}
    (h : Supervised timeoutMs w m) {handled : UInt8} {p : Poll}
    (hpoll : m.poll write table p.dtMs p.budget p.pending = some (handled, m')) :
    Supervised timeoutMs (w.observe p) m' := by
  obtain ⟨hparser, htimeout, hlink⟩ := poll_link hpoll
  rw [h.parser] at hparser
  rw [h.timeout] at htimeout
  rw [linkAfter, h.parser, h.timeout] at hlink
  unfold Watch.observe
  by_cases hframe : completes w.parser p.bytes = true
  · rw [if_pos hframe] at hlink ⊢
    exact Supervised.of_advance hparser htimeout hlink (by simpa using hpos) rfl rfl
  · rw [if_neg hframe] at hlink ⊢
    cases hlost : m.linkLost with
    | true =>
        rw [hlost] at hlink
        obtain ⟨-, hlatched⟩ := Prod.mk.inj hlink
        have hcounted := h.lost hlost
        refine ⟨hparser, htimeout, fun _ => ?_, fun hcontinues => ?_⟩
        · dsimp only
          omega
        · rw [hlatched] at hcontinues
          exact absurd hcontinues (by decide)
    | false =>
        rw [hlost] at hlink
        obtain ⟨hrunning, hshot, -, hsum⟩ := h.counts hlost
        refine Supervised.of_advance hparser htimeout hlink hrunning hshot ?_
        dsimp only
        omega

theorem supervised_polls {timeoutMs : Nat} (hpos : 0 < timeoutMs) {transport : T}
    {dispatcher : Dispatcher} {context : C} {ps : List Poll} {m : CommMgr C T}
    (h : (new transport dispatcher context timeoutMs).polls write table ps = some m) :
    Supervised timeoutMs (watch ps) m := by
  induction ps using List.reverseRecOn generalizing m with
  | nil =>
      rw [← Option.some.inj h]
      exact ⟨rfl, rfl, fun hlost => absurd hlost (by simp [new]),
        fun _ => ⟨by simpa [new] using hpos, rfl, hpos, rfl⟩⟩
  | append_singleton ps p ih =>
      rw [polls, List.foldlM_append, Option.bind_eq_bind, Option.bind_eq_some_iff] at h
      obtain ⟨before, hbefore, hlast⟩ := h
      simp only [List.foldlM_cons, List.foldlM_nil, bind_pure, Option.map_eq_map,
        Option.map_eq_some_iff] at hlast
      obtain ⟨⟨handled, m'⟩, hpoll, rfl⟩ := hlast
      rw [watch, Runs.run_concat]
      exact (ih hbefore).poll hpos hpoll

/-! ### Exactly the timeout -/

/-- The link after a poll, as it should be: up if the poll completed a frame, and otherwise lost
exactly if the polls since the last that did add up to the timeout. -/
def LinkExact (timeoutMs : Nat) (ps : List Poll) (p : Poll) (lost : Bool) : Prop :=
  (completes (watch ps).parser p.bytes = true → lost = false) ∧
    (completes (watch ps).parser p.bytes = false →
      (lost = true ↔ timeoutMs ≤ (watch (ps ++ [p])).since))

instance (timeoutMs : Nat) (ps : List Poll) (p : Poll) (lost : Bool) :
    Decidable (LinkExact timeoutMs ps p lost) :=
  inferInstanceAs (Decidable (_ ∧ _))

/-- The poll of the last frame, counted or not, makes no difference to the timeout. -/
def MakesNoDifference (timeoutMs : Nat) (ps : List Poll) (p : Poll) : Prop :=
  (completes (watch ps).parser p.bytes = true → p.dtMs < timeoutMs) ∧
    (completes (watch ps).parser p.bytes = false →
      ¬ ((watch (ps ++ [p])).since < timeoutMs ∧
        timeoutMs ≤ (watch (ps ++ [p])).completing + (watch (ps ++ [p])).since))

instance (timeoutMs : Nat) (ps : List Poll) (p : Poll) :
    Decidable (MakesNoDifference timeoutMs ps p) :=
  inferInstanceAs (Decidable (_ ∧ _))

/-- **Link supervision, exactly.** After a poll of any run the link is as it should be if and only
if counting the poll of the last frame makes no difference. -/
theorem linkExact_iff {timeoutMs : Nat} (hpos : 0 < timeoutMs) {transport : T}
    {dispatcher : Dispatcher} {context : C} {ps : List Poll} {p : Poll} {m : CommMgr C T}
    (h : (new transport dispatcher context timeoutMs).polls write table (ps ++ [p]) = some m) :
    LinkExact timeoutMs ps p m.linkLost ↔ MakesNoDifference timeoutMs ps p := by
  have hlost := (supervised_polls hpos h).linkLost_iff
  have hwatch : watch (ps ++ [p]) = (watch ps).observe p := Runs.run_concat ..
  unfold LinkExact MakesNoDifference
  rw [hwatch] at hlost ⊢
  cases hframe : completes (watch ps).parser p.bytes with
  | true =>
      rw [Watch.observe, if_pos hframe] at hlost
      dsimp only at hlost
      have hup : m.linkLost = false ↔ p.dtMs < timeoutMs := by
        rw [← Bool.not_eq_true, hlost]
        omega
      simp [hup]
  | false =>
      have hdown : ((m.linkLost = true ↔ timeoutMs ≤ ((watch ps).observe p).since) ↔
          ¬ (((watch ps).observe p).since < timeoutMs ∧
            timeoutMs ≤ ((watch ps).observe p).completing + ((watch ps).observe p).since)) := by
        rw [hlost]
        omega
      simp only [hdown, Bool.false_eq_true, false_implies, true_implies, true_and]

/-- A poll that receives one heartbeat. -/
def heartbeatPoll (dtMs : Nat) : Poll where
  dtMs := dtMs
  budget := 64
  pending := Frame.wire { Frame.new with cmd := Cmd.heartbeat.toUInt8 }

/-- The shipped commands over a transport that takes everything, after some polls. -/
def shippedPolls (timeoutMs : Nat) (ps : List Poll) :
    Option (CommMgr (Option CommandContext) Unit) :=
  (new () .new none timeoutMs).polls (fun _ transport => (true, transport)) Commands.commandTable ps

/-- A heartbeat brings a lost link back. -/
theorem linkExact_restored :
    ∃ m, shippedPolls 1000 ([⟨2000, 64, []⟩] ++ [heartbeatPoll 1]) = some m ∧
      LinkExact 1000 [⟨2000, 64, []⟩] (heartbeatPoll 1) m.linkLost := by
  have hreturns : (shippedPolls 1000 ([⟨2000, 64, []⟩] ++ [heartbeatPoll 1])).isSome := by
    decide +kernel
  have hcounted : MakesNoDifference 1000 [⟨2000, 64, []⟩] (heartbeatPoll 1) := by decide +kernel
  obtain ⟨m, hm⟩ := Option.isSome_iff_exists.mp hreturns
  exact ⟨m, hm, (linkExact_iff (by decide) hm).mpr hcounted⟩

/-- A heartbeat that comes in the poll that takes the whole timeout does not keep the link up. -/
theorem lost_despite_heartbeat :
    (shippedPolls 1000 [heartbeatPoll 1000]).map (·.linkLost) = some true ∧
      ¬ LinkExact 1000 [] (heartbeatPoll 1000) true := by
  decide +kernel

end Bcm.CommMgr
