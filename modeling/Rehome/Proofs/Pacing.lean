import Mathlib.Algebra.Order.Floor.Div
import Rehome.Proofs.Failures
import Rehome.Proofs.Headcount
import Rehome.Proofs.Waiting

/-!
# Pacing — how often a pass that waits asks for statuses

Hosts may never become idle, so only the clock ends the waiting loop. It takes turns: a turn asks for
the statuses of the hosts that are not ready yet, moves those that the answer makes ready, and sleeps
if others are left. A turn begins before the deadline, and the sleep of the turn before it is over by
then, so there is room for as many turns as there are poll intervals in the longest duration, a part
of one included (`Paced.length_le`). That the trace of the loop is the trace of such turns is
`wp_moveWhenIdle`.
-/

namespace Rehome

/-- The clock of the fleet in memory moves on by what is slept, if that is not too long. -/
theorem Memory.time_add_le_sleep {span : Duration}
    (hspan : span.nanos ≤ farMillis * nanosPerMilli) (m : Memory) :
    fleet.time m + span.nanos ≤ fleet.time (fleet.sleep span m) := by
  have hslept : span.nanos ≤ sleepMillis span m.millis * nanosPerMilli := by
    unfold sleepMillis
    split
    · exact hspan
    · unfold nanosPerMilli
      omega
  show m.millis * nanosPerMilli + span.nanos ≤
    (m.millis + sleepMillis span m.millis) * nanosPerMilli
  rw [Nat.add_mul]
  exact Nat.add_le_add_left hslept _

namespace Pass

/-! ## Turns -/

/-- A turn of the waiting loop: the question for statuses, what moving hosts left in the trace, and
    the reading of the clock when the loop went to sleep, if it did. -/
structure Turn where
  time : Nat
  asked : HostSet
  reply : Except ToolFailure (List StatusRow)
  moving : List Event
  slept : Option Nat

/-- The events of a turn. -/
def Turn.events (interval : Duration) (turn : Turn) : List Event :=
  .called turn.time (.queryStatus turn.asked) turn.reply ::
    (turn.moving ++ (turn.slept.map fun time => Event.slept time interval).toList)

/-- The events of turns in a row. -/
def Turn.trace (interval : Duration) (turns : List Turn) : List Event :=
  turns.flatMap (Turn.events interval)

/-- The status answers of turns. -/
def Turn.answers (turns : List Turn) : List (List StatusRow) :=
  turns.filterMap fun turn => turn.reply.toOption

variable {σ : Type} (fleet : Fleet σ) (settings : CheckedSettings) (hosts : HostSet) (start : Nat)

/-- The monitor of the hosts after turns. -/
def monitor (turns : List Turn) : Readiness :=
  (Readiness.watch hosts settings.minReadyIntervals).after (Turn.answers turns)

/-- The hosts that no answer of the turns made ready. -/
def unready (turns : List Turn) : HostSet :=
  hosts \ .unions ((Readiness.watch hosts settings.minReadyIntervals).readySets (Turn.answers turns))

/-- A turn that the loop takes after others. -/
structure Turn.Follows (before : List Turn) (turn : Turn) : Prop where
  asked_eq : turn.asked = unready settings hosts before
  asked_ne : turn.asked ≠ ∅
  start_le : start ≤ turn.time
  lt_deadline : turn.time < start + settings.maxDuration.nanos
  apart : ∀ earlier ∈ before, earlier.time + settings.pollInterval.nanos ≤ turn.time
  /-- The hosts that the answer made ready are moved. -/
  moves : ∀ rows, turn.reply = .ok rows → ∃ s, turn.moving =
    ((move settings ((monitor settings hosts before).poll rows).1.ready : Run fleet Duts).run s).trace
  /-- Without an answer nothing more is done. -/
  stops : ∀ failure, turn.reply = .error failure → turn.moving = [] ∧ turn.slept = none
  /-- With nothing left to wait for the loop does not sleep. -/
  wakes : unready settings hosts (before ++ [turn]) = ∅ → turn.slept = none

/-- Turns of which each follows those before it. -/
inductive Paced : List Turn → Prop where
  | nil : Paced []
  | snoc {turns : List Turn} {turn : Turn} (before : Paced turns)
      (follows : turn.Follows fleet settings hosts start turns) : Paced (turns ++ [turn])

variable {fleet settings hosts start} {turns before : List Turn} {turn : Turn}

theorem watched_monitor (turns : List Turn) :
    (monitor settings hosts turns).watched = unready settings hosts turns := by
  rw [monitor, Readiness.watched_after, Readiness.watched_watch]
  rfl

theorem unready_nil : unready settings hosts [] = hosts := by
  rw [← watched_monitor]
  exact Readiness.watched_watch hosts settings.minReadyIntervals

theorem Turn.trace_snoc (interval : Duration) (turns : List Turn) (turn : Turn) :
    Turn.trace interval (turns ++ [turn]) = Turn.trace interval turns ++ turn.events interval := by
  rw [Turn.trace, List.flatMap_append, List.flatMap_singleton]
  rfl

theorem monitor_snoc {rows : List StatusRow} (hreply : turn.reply = .ok rows) :
    monitor settings hosts (turns ++ [turn]) = ((monitor settings hosts turns).poll rows).2 := by
  have hanswers : Turn.answers (turns ++ [turn]) = Turn.answers turns ++ [rows] := by
    rw [Turn.answers, List.filterMap_append, List.filterMap_cons, hreply]
    rfl
  rw [monitor, hanswers, Readiness.after_append]
  rfl

/-! ## How many there are -/

/-- A turn begins a poll interval later for each turn before it. -/
theorem Paced.le_time (hpaced : Paced fleet settings hosts start before)
    (hturn : turn.Follows fleet settings hosts start before) :
    start + before.length * settings.pollInterval.nanos ≤ turn.time := by
  induction hpaced generalizing turn with
  | nil =>
      rw [List.length_nil, Nat.zero_mul]
      exact hturn.start_le
  | @snoc turns last _ hlast ih =>
      -- the sleep of the last turn is over when this one begins
      have hearlier := ih hlast
      have hapart := hturn.apart last (by simp)
      rw [List.length_append, List.length_singleton, Nat.add_mul, Nat.one_mul]
      omega

/-- There are no more turns than poll intervals, the last of which may be a part of one. -/
theorem Paced.length_le (hinterval : 0 < settings.pollInterval.nanos)
    (hpaced : Paced fleet settings hosts start turns) :
    turns.length ≤ settings.maxDuration.nanos ⌈/⌉ settings.pollInterval.nanos := by
  cases hpaced with
  | nil => exact Nat.zero_le _
  | @snoc before last hbefore hlast =>
      have htime := hbefore.le_time hlast
      have hdeadline := hlast.lt_deadline
      -- the last turn begins before the deadline, so the others leave room for it
      have hroom : ¬ settings.maxDuration.nanos ≤ settings.pollInterval.nanos * before.length := by
        rw [Nat.mul_comm]
        omega
      rw [← ceilDiv_le_iff_le_mul hinterval, Nat.not_le] at hroom
      rw [List.length_append, List.length_singleton]
      exact hroom

theorem Paced.eq_nil_of_no_time (hinterval : 0 < settings.pollInterval.nanos)
    (hzero : settings.maxDuration.nanos = 0) (hpaced : Paced fleet settings hosts start turns) :
    turns = [] := by
  have hlength := hpaced.length_le hinterval
  rw [hzero, zero_ceilDiv] at hlength
  exact List.eq_nil_of_length_eq_zero (Nat.le_zero.mp hlength)

/-! ## The loop -/

section Loop

variable {w : Waiting} {t : List Event} {s : σ}

variable (fleet settings hosts start) in
/-- What holds when the loop could take another turn. -/
structure BetweenTurns (turns : List Turn) (w : Waiting) (t : List Event) (s : σ) : Prop where
  trace_eq : t = Turn.trace settings.pollInterval turns
  paced : Paced fleet settings hosts start turns
  monitor_eq : w.monitor = monitor settings hosts turns
  start_le : start ≤ fleet.time s
  rested : ∀ turn ∈ turns, turn.time + settings.pollInterval.nanos ≤ fleet.time s

variable (fleet settings hosts start) in
/-- What holds when all is done in a turn but sleeping. -/
structure BeforeSleep (before : List Turn) (turn : Turn) (w : Waiting) (t : List Event) (s : σ) :
    Prop where
  trace_eq : t = Turn.trace settings.pollInterval (before ++ [turn])
  paced : Paced fleet settings hosts start before
  follows : turn.Follows fleet settings hosts start before
  awake : turn.slept = none
  answered : ∃ rows, turn.reply = .ok rows
  monitor_eq : w.monitor = monitor settings hosts (before ++ [turn])
  time_le : turn.time ≤ fleet.time s

theorem BetweenTurns.look (h : BetweenTurns fleet settings hosts start turns w t s) :
    BetweenTurns fleet settings hosts start turns w t (fleet.look s) where
  trace_eq := h.trace_eq
  paced := h.paced
  monitor_eq := h.monitor_eq
  start_le := Nat.le_trans h.start_le (fleet.time_le_look s)
  rested turn hturn := Nat.le_trans (h.rested turn hturn) (fleet.time_le_look s)

variable (fleet) in
/-- The turn that begins in a state, up to its sleep. -/
def begun (w : Waiting) (s : σ) (reply : Except ToolFailure (List StatusRow))
    (moving : List Event) : Turn :=
  ⟨fleet.time s, w.monitor.watched, reply, moving, none⟩

theorem BetweenTurns.trace_begun (h : BetweenTurns fleet settings hosts start turns w t s)
    (reply : Except ToolFailure (List StatusRow)) (moving : List Event) :
    t ++ (.called (fleet.time s) (.queryStatus w.monitor.watched) reply :: moving) =
      Turn.trace settings.pollInterval (turns ++ [begun fleet w s reply moving]) := by
  rw [Turn.trace_snoc, ← h.trace_eq]
  show _ = t ++ (_ :: (moving ++ []))
  rw [List.append_nil]
  rfl

section

variable (h : BetweenTurns fleet settings hosts start turns w t s)
  (hwaiting : w.monitor.isOver = false) (htime : fleet.time s < start + settings.maxDuration.nanos)

include h hwaiting htime

/-- A turn that begins with hosts to wait for and before the deadline follows those before it. -/
theorem BetweenTurns.follows {reply : Except ToolFailure (List StatusRow)} {moving : List Event}
    (hmoves : ∀ rows, reply = .ok rows → ∃ s', moving =
      ((move settings (w.monitor.poll rows).1.ready : Run fleet Duts).run s').trace)
    (hstops : ∀ failure, reply = .error failure → moving = []) :
    (begun fleet w s reply moving).Follows fleet settings hosts start turns := by
  rw [h.monitor_eq] at hmoves
  have hasked : w.monitor.watched = unready settings hosts turns := by
    rw [h.monitor_eq, watched_monitor]
  refine ⟨hasked, ?_, h.start_le, htime, h.rested, hmoves, ?_, fun _ => rfl⟩
  · intro hempty
    rw [Readiness.isOver_iff.mpr hempty] at hwaiting
    cases hwaiting
  · exact fun failure hfailure => ⟨hstops failure hfailure, rfl⟩

theorem BetweenTurns.follows_failed (failure : ToolFailure) :
    (begun fleet w s (.error failure) []).Follows fleet settings hosts start turns := by
  refine h.follows hwaiting htime ?_ fun _ _ => rfl
  intro rows hrows
  cases hrows

theorem BetweenTurns.follows_answered (rows : List StatusRow) (s' : σ) :
    (begun fleet w s (.ok rows)
      ((move settings (w.monitor.poll rows).1.ready : Run fleet Duts).run s').trace).Follows
        fleet settings hosts start turns := by
  refine h.follows hwaiting htime ?_ ?_
  · intro rows' hrows
    cases hrows
    exact ⟨s', rfl⟩
  · intro failure hfailure
    cases hfailure

/-- A turn up to its sleep, or up to the call that failed in it. -/
theorem BetweenTurns.wp_poll :
    (poll settings w : Run fleet Waiting).wp
      (fun w' t' s' => ∃ before turn,
        BeforeSleep fleet settings hosts start before turn w' (t ++ t') s')
      (fun _ t' _ => ∃ turns', t ++ t' = Turn.trace settings.pollInterval turns' ∧
        Paced fleet settings hosts start turns') s := by
  rw [poll, Run.wp_bind, Run.wp_call]
  refine ⟨?_, ?_⟩
  · intro rows s₁ hreply
    have hanswered : fleet.time s ≤ fleet.time s₁ := by
      have hforward := fleet.time_le_reply (.queryStatus w.monitor.watched) s
      rwa [hreply] at hforward
    have hfollows := h.follows_answered hwaiting htime rows s₁
    rw [Run.wp_bind]
    refine Run.wp.mono (Run.wp.and (Run.wp_self _ s₁) (Run.wp_time_le _ s₁)) ?_ ?_
    · rintro moved moving s₂ ⟨hrun, hmoved⟩
      rw [hrun] at hfollows
      refine Run.wp_pure.mpr ⟨turns, _, ?_, h.paced, hfollows, rfl, ⟨rows, rfl⟩, ?_,
        Nat.le_trans hanswered hmoved⟩
      · rw [List.append_nil]
        exact h.trace_begun (.ok rows) moving
      · rw [monitor_snoc rfl, ← h.monitor_eq]
    · rintro e moving s₂ ⟨hrun, -⟩
      rw [hrun] at hfollows
      exact ⟨_, h.trace_begun (.ok rows) moving, h.paced.snoc hfollows⟩
  · intro failure s₁ _
    exact ⟨_, h.trace_begun (.error failure) [],
      h.paced.snoc (h.follows_failed hwaiting htime failure)⟩

end

/-- Sleeping ends a turn that left hosts to wait for. -/
theorem BeforeSleep.sleep (h : BeforeSleep fleet settings hosts start before turn w t s)
    (hwaiting : w.monitor.isOver = false)
    (hclock : fleet.time s + settings.pollInterval.nanos ≤
      fleet.time (fleet.sleep settings.pollInterval s)) :
    BetweenTurns fleet settings hosts start
      (before ++ [{ turn with slept := some (fleet.time s) }]) w
      (t ++ [.slept (fleet.time s) settings.pollInterval]) (fleet.sleep settings.pollInterval s) := by
  obtain ⟨rows, hrows⟩ := h.answered
  have hrows' : ({ turn with slept := some (fleet.time s) } : Turn).reply = .ok rows := hrows
  have hmonitor : w.monitor =
      monitor settings hosts (before ++ [{ turn with slept := some (fleet.time s) }]) := by
    rw [h.monitor_eq, monitor_snoc hrows, monitor_snoc hrows']
  have hbegun := h.time_le
  have hnext : turn.time + settings.pollInterval.nanos ≤
      fleet.time (fleet.sleep settings.pollInterval s) := by
    omega
  refine ⟨?_, h.paced.snoc ⟨h.follows.asked_eq, h.follows.asked_ne, h.follows.start_le,
    h.follows.lt_deadline, h.follows.apart, h.follows.moves, ?_, ?_⟩, hmonitor, ?_, ?_⟩
  · rw [h.trace_eq, Turn.trace_snoc, Turn.trace_snoc, Turn.events, Turn.events, h.awake]
    simp
  · intro failure hfailure
    exact nomatch hrows'.symm.trans hfailure
  · -- hosts are left to wait for, so the turn may sleep
    intro hready
    rw [← watched_monitor, ← hmonitor, ← Readiness.isOver_iff, hwaiting] at hready
    exact nomatch hready
  · have hstart := h.follows.start_le
    omega
  · intro earlier hearlier
    rcases List.mem_append.mp hearlier with hbefore | hlast
    · have hapart := h.follows.apart earlier hbefore
      omega
    · rw [List.mem_singleton.mp hlast]
      exact hnext

theorem wp_moveWhenIdle (hwait : settings.migrateImmediately = false)
    (hclock : ∀ s, fleet.time s + settings.pollInterval.nanos ≤
      fleet.time (fleet.sleep settings.pollInterval s)) (hosts : HostSet) (duts : Duts) (s : σ) :
    (moveWhenIdle settings hwait hosts duts : Run fleet Waiting).wp
      (fun w t _ => ∃ turns, t = Turn.trace settings.pollInterval turns ∧
        Paced fleet settings hosts (fleet.time (fleet.look s)) turns ∧
        w.monitor = monitor settings hosts turns)
      (fun _ t _ => ∃ turns, t = Turn.trace settings.pollInterval turns ∧
        Paced fleet settings hosts (fleet.time (fleet.look s)) turns) s := by
  rw [moveWhenIdle, Run.wp_bind, Run.wp_now]
  simp only [List.nil_append]
  refine Run.wp_repeatPaused
    (fun w t s' => ∃ turns,
      BetweenTurns fleet settings hosts (fleet.time (fleet.look s)) turns w t s')
    (fun w t s' => ∃ before turn,
      BeforeSleep fleet settings hosts (fleet.time (fleet.look s)) before turn w t s')
    ?_ ?_ ?_ ?_ ?_ ?_
  · rintro w t s' ⟨turns, h⟩
    exact ⟨turns, h.look⟩
  · rintro w t s' ⟨turns, h⟩ hwaiting htime
    exact h.wp_poll hwaiting htime
  · rintro w t s' ⟨before, turn, h⟩ hwaiting
    exact ⟨_, h.sleep hwaiting (hclock s')⟩
  · rintro w t s' ⟨before, turn, h⟩ -
    exact ⟨before ++ [turn], h.trace_eq, h.paced.snoc h.follows, h.monitor_eq⟩
  · rintro w t s' ⟨turns, h⟩ -
    exact ⟨turns, h.trace_eq, h.paced, h.monitor_eq⟩
  · exact ⟨[], rfl, .nil, rfl, Nat.le_refl _, fun turn hturn => absurd hturn List.not_mem_nil⟩

end Loop

/-! ## Polls in the trace -/

/-- When a status poll was made and which hosts it was about, if an event is one. -/
def statusPoll? : Event → Option (Nat × HostSet)
  | .called time (.queryStatus hosts) _ => some (time, hosts)
  | _ => none

/-- Moving hosts polls nobody. -/
theorem statusPolls_move (ready : HostSet) (s : σ) :
    ((move settings ready : Run fleet Duts).run s).trace.filterMap statusPoll? = [] := by
  have hobeys : (move settings ready : Run fleet Duts).obeys _ [] (fun _ _ _ => True) s :=
    moves_move s
  have hmoves := hobeys.trace.forall
  refine List.filterMap_eq_nil_iff.mpr ?_
  intro event hevent
  cases event with
  | planned time hosts ratio reply => rfl
  | slept time span => rfl
  | called time call reply =>
      have hexchange : (⟨call, reply⟩ : Exchange) ∈
          exchanges ((move settings ready : Run fleet Duts).run s).trace :=
        List.mem_filterMap.mpr ⟨_, hevent, rfl⟩
      have hkind : Moves ready.toList call := hmoves _ hexchange
      cases call with
      | queryStatus asked => exact hkind.elim
      | _ => rfl

/-- Each turn polls once. -/
theorem Paced.statusPolls (hpaced : Paced fleet settings hosts start turns) (interval : Duration) :
    (Turn.trace interval turns).filterMap statusPoll? =
      turns.map fun turn => (turn.time, turn.asked) := by
  induction hpaced with
  | nil => rfl
  | @snoc before turn _ hturn ih =>
      have hmoving : turn.moving.filterMap statusPoll? = [] := by
        cases hreply : turn.reply with
        | error failure =>
            rw [(hturn.stops failure hreply).1]
            rfl
        | ok rows =>
            obtain ⟨s, hmoves⟩ := hturn.moves rows hreply
            rw [hmoves]
            exact statusPolls_move _ s
      have hsleep : (turn.slept.map fun time => Event.slept time interval).toList.filterMap
          statusPoll? = [] := by
        cases turn.slept with
        | none => rfl
        | some time => rfl
      rw [Turn.trace_snoc, List.filterMap_append, ih, List.map_append, Turn.events,
        List.filterMap_cons, List.filterMap_append, hmoving, hsleep]
      rfl

theorem Paced.follows_of_split {after : List Turn}
    (hpaced : Paced fleet settings hosts start turns) (hsplit : turns = before ++ turn :: after) :
    turn.Follows fleet settings hosts start before := by
  induction hpaced generalizing after with
  | nil => exact absurd hsplit (by simp)
  | @snoc earlier last _ hlast ih =>
      -- the turn is the last of them, or one of those before
      rcases List.eq_nil_or_concat' after with rfl | ⟨rest, final, rfl⟩
      · obtain ⟨rfl, hturn⟩ := List.append_inj' hsplit rfl
        cases hturn
        exact hlast
      · rw [← List.cons_append, ← List.append_assoc] at hsplit
        exact ih (List.append_inj' hsplit rfl).1

theorem composed_moveWhenIdle (hwait : settings.migrateImmediately = false) (hosts : HostSet)
    (duts : Duts) : (moveWhenIdle settings hwait hosts duts : Run fleet Waiting).Composed :=
  .bind .now fun _ => .repeatUntil _ (composed_poll settings)

/-- The waiting loop ends, whatever the answers, if the clock moves on by a poll interval where the
    loop sleeps for one. It takes turns, no more than there are poll intervals in the longest
    duration, a part of one included. Each turn polls once, before the deadline and a poll interval
    after the turn before it, and asks for the hosts that are not ready yet, of which there are some;
    with none of them left it does not sleep. If no call fails, those hosts are returned that no
    answer made ready: all of them, without a poll, where there is no time to wait. -/
theorem waiting_ends (hwait : settings.migrateImmediately = false)
    (hclock : ∀ s, fleet.time s + settings.pollInterval.nanos ≤
      fleet.time (fleet.sleep settings.pollInterval s)) (hosts : HostSet) (duts : Duts) (s : σ) :
    ∃ turns : List Turn,
      ((moveWhenIdle settings hwait hosts duts : Run fleet Waiting).run s).trace =
        Turn.trace settings.pollInterval turns ∧
      ((moveWhenIdle settings hwait hosts duts : Run fleet Waiting).run s).trace.filterMap
        statusPoll? = turns.map (fun turn => (turn.time, turn.asked)) ∧
      turns.length ≤ settings.maxDuration.nanos ⌈/⌉ settings.pollInterval.nanos ∧
      (∀ before turn after, turns = before ++ turn :: after →
        turn.Follows fleet settings hosts (fleet.time (fleet.look s)) before) ∧
      ((∃ w, ((moveWhenIdle settings hwait hosts duts : Run fleet Waiting).run s).result = .ok w ∧
          failures (Turn.trace settings.pollInterval turns) = [] ∧
          w.monitor.watched = unready settings hosts turns) ∨
        ∃ failure, ((moveWhenIdle settings hwait hosts duts : Run fleet Waiting).run s).result =
            .error (.tool failure) ∧
          EndsAt failure (Turn.trace settings.pollInterval turns)) ∧
      (settings.maxDuration.nanos = 0 → turns = [] ∧
        ∃ w, ((moveWhenIdle settings hwait hosts duts : Run fleet Waiting).run s).result = .ok w ∧
          w.monitor.watched = hosts) := by
  have hkept := wp_moveWhenIdle hwait hclock hosts duts s
  have hinterval := settings.pollInterval_pos hwait
  rcases (composed_moveWhenIdle hwait hosts duts).candid.cases s with
    ⟨w, hok, hfine⟩ | ⟨failure, herror, hends⟩
  · -- no call failed
    obtain ⟨turns, htrace, hpaced, hmonitor⟩ := hkept.of_ok hok
    have hwatched : w.monitor.watched = unready settings hosts turns := by
      rw [hmonitor, watched_monitor]
    rw [htrace] at hfine ⊢
    refine ⟨turns, rfl, hpaced.statusPolls _, hpaced.length_le hinterval,
      fun _ _ _ => hpaced.follows_of_split, .inl ⟨w, hok, hfine, hwatched⟩, ?_⟩
    intro hzero
    obtain rfl := hpaced.eq_nil_of_no_time hinterval hzero
    exact ⟨rfl, w, hok, hwatched.trans unready_nil⟩
  · obtain ⟨turns, htrace, hpaced⟩ := hkept.of_error herror
    rw [htrace] at hends ⊢
    refine ⟨turns, rfl, hpaced.statusPolls _, hpaced.length_le hinterval,
      fun _ _ _ => hpaced.follows_of_split, .inr ⟨failure, herror, hends⟩, ?_⟩
    intro hzero
    -- no call is made where there is no time, so none of them fails
    obtain rfl := hpaced.eq_nil_of_no_time hinterval hzero
    exact nomatch hends.failures

/-- Settings with time for two poll intervals. -/
def twoIntervals : CheckedSettings := ⟨briefSettings, by decide +kernel⟩

/-- A host that is idle and one that is always busy. -/
def idleAndBusy : Memory := ⟨[("a", {}), ("b", { busy := [true] })], 0⟩

/-- Two polls, the second for the host alone that the first showed busy, and that one is left. -/
theorem waiting_ends_busy :
    twoIntervals.migrateImmediately = false ∧
    (∀ m, Memory.fleet.time m + twoIntervals.pollInterval.nanos ≤
      Memory.fleet.time (Memory.fleet.sleep twoIntervals.pollInterval m)) ∧
    ∃ turns : List Turn,
      turns.map (fun turn => (turn.time, turn.asked)) =
        [(0, .ofList ["a", "b"]), (30 * Duration.nanosPerSec, .ofList ["b"])] ∧
      turns.length ≤ 2 ∧ unready twoIntervals (.ofList ["a", "b"]) turns = .ofList ["b"] := by
  have hclock : ∀ m, Memory.fleet.time m + twoIntervals.pollInterval.nanos ≤
      Memory.fleet.time (Memory.fleet.sleep twoIntervals.pollInterval m) :=
    Memory.time_add_le_sleep (by decide)
  have hpolls : ((moveWhenIdle twoIntervals rfl (.ofList ["a", "b"]) {} :
      Run Memory.fleet Waiting).run idleAndBusy).trace.filterMap statusPoll? =
        [(0, .ofList ["a", "b"]), (30 * Duration.nanosPerSec, .ofList ["b"])] := by
    decide +kernel
  have hleft : ((moveWhenIdle twoIntervals rfl (.ofList ["a", "b"]) {} :
      Run Memory.fleet Waiting).run idleAndBusy).result.toOption.map (·.monitor.watched) =
        some (.ofList ["b"]) := by
    decide +kernel
  obtain ⟨turns, -, hturns, hlength, -, hresult, -⟩ :=
    waiting_ends rfl hclock (.ofList ["a", "b"]) {} idleAndBusy
  refine ⟨rfl, hclock, turns, hturns.symm.trans hpolls, hlength, ?_⟩
  rcases hresult with ⟨w, hok, -, hwatched⟩ | ⟨failure, herror, -⟩
  · rw [hok] at hleft
    rw [← hwatched]
    exact Option.some.inj hleft
  · rw [herror] at hleft
    exact nomatch hleft

end Pass

end Rehome
