import Rehome.Proofs.Course
import Rehome.Proofs.Safety
import Rehome.Proofs.Streaks

/-!
# Waiting — what the polls showed of a host that was moved before the sweep

A pass that waits moves a host when its monitor says so, and the monitor counts rows. So a host is
moved once the looks at it, row by row, have made up a streak that is long enough
(`relocated_by_streak`). Where each poll lists the host at most once, that takes as many polls, the
last of them the one that was just answered, all of which show it idle (`IdlePolls`). A poll that
lists it twice counts as two, and then one poll can do for two (`moved_after_one_poll`).

The law is about each moment of the first round at which the descriptor of a host is asked for,
whether the pass goes on to a summary or not.
-/

namespace Rehome

/-! ## Polls -/

/-- The rows of an exchange, if it is an answered question about statuses. -/
def Exchange.rows? : Exchange → Option (List StatusRow)
  | ⟨.queryStatus _, .ok rows⟩ => some rows
  | _ => none

/-- The status answers among exchanges, in order. -/
def polls (trace : List Exchange) : List (List StatusRow) := trace.filterMap Exchange.rows?

theorem polls_append (a b : List Exchange) : polls (a ++ b) = polls a ++ polls b :=
  List.filterMap_append

/-- Asking nothing about statuses adds no poll. -/
theorem polls_append_of_none {a b : List Exchange} (hb : ∀ x ∈ b, x.rows? = none) :
    polls (a ++ b) = polls a := by
  rw [polls_append, polls, polls, List.filterMap_eq_nil_iff.mpr hb, List.append_nil]

namespace Readiness

variable {h : Host} {n : Nat} {rows : List StatusRow} {before : List (List StatusRow)}

/-- At least so many different polls, the last one of all among them, list a host, and none of them
    lists it busy. -/
def IdlePolls (n : Nat) (h : Host) (polls : List (List StatusRow)) : Prop :=
  ∃ chosen : List (List StatusRow), chosen.Sublist polls ∧ n ≤ chosen.length ∧
    chosen.getLast? = polls.getLast? ∧
    ∀ rows ∈ chosen, looks h rows ≠ [] ∧ ∀ busy ∈ looks h rows, busy = false

theorem IdlePolls.le_length {polls : List (List StatusRow)} (hidle : IdlePolls n h polls) :
    n ≤ polls.length := by
  obtain ⟨chosen, hsub, hlen, -⟩ := hidle
  exact Nat.le_trans hlen hsub.length_le

/-- Where no poll lists a host twice, looks that reach a threshold are as many polls. -/
theorem idlePolls_of_reaches (honce : ∀ poll ∈ before ++ [rows], (looks h poll).length ≤ 1)
    (hreaches : Reaches n (streak 0 (before.flatMap (looks h))) (looks h rows)) :
    IdlePolls n h (before ++ [rows]) := by
  have hlisted : looks h rows ≠ [] := by
    intro hnone
    rw [hnone] at hreaches
    exact not_reaches_nil _ _ hreaches
  obtain ⟨busy, hbusy⟩ := looks_of_listed (honce rows (by simp)) hlisted
  rw [hbusy, reaches_cons_iff] at hreaches
  rcases hreaches with ⟨rfl, hlong⟩ | hnone
  · have hstreak : max n 1 ≤ streak 0 ((before ++ [rows]).flatMap (looks h)) := by
      rw [List.flatMap_append, List.flatMap_singleton, hbusy, streak_append]
      show max n 1 ≤ streak 0 (before.flatMap (looks h)) + 1
      omega
    obtain ⟨hlen, hidle⟩ := (le_streak_iff_listing honce).mp hstreak
    refine ⟨(listing h (before ++ [rows])).rtake (max n 1), ?_, ?_, ?_, fun poll hpoll => ?_⟩
    · exact (List.drop_sublist _ _).trans List.filter_sublist
    · rw [List.rtake, List.length_drop]
      omega
    · -- the last poll lists the host, so it is the last of those that do
      have hlast : listing h (before ++ [rows]) = listing h before ++ [rows] := by
        rw [listing, List.filter_append, List.filter_singleton, any_host_iff.mpr hlisted]
        rfl
      obtain ⟨more, hmore⟩ := Nat.exists_eq_add_of_le' (Nat.le_max_right n 1)
      rw [hmore, hlast, List.rtake_concat_succ, List.getLast?_concat, List.getLast?_concat]
    · obtain ⟨hin, hany⟩ := List.mem_filter.mp (List.mem_of_mem_drop hpoll)
      obtain ⟨look, hlook⟩ := looks_of_listed (honce poll hin) (any_host_iff.mp hany)
      have hshown : false ∈ looks h poll := false_mem_looks.mpr (hidle poll hpoll)
      rw [hlook, List.mem_singleton] at hshown
      rw [hlook, ← hshown]
      exact ⟨by simp, fun busy hb => List.mem_singleton.mp hb⟩
  · exact absurd hnone (not_reaches_nil _ _)

end Readiness

/-! ## Moving hosts -/

variable {σ : Type} {fleet : Fleet σ} {past : List Exchange}

/-- The calls that moving hosts is made of. -/
def Moves (hosts : List Host) : Call → Prop
  | .fetchDescriptor host => host ∈ hosts
  | .add _ | .assignDrone _ | .rename .. => True
  | .queryStatus _ | .lock .. | .unlock _ | .remove .. => False

variable {hosts : List Host}

theorem Moves.rows?_eq_none {x : Exchange} (hx : Moves hosts x.1) : x.rows? = none := by
  obtain ⟨call, reply⟩ := x
  cases call with
  | queryStatus _ => exact hx.elim
  | _ => rfl

namespace Relocation

variable {policy : RetryPolicy} {host : Host}

theorem moves_assign (left attempt : Nat) (s : σ) :
    (assign policy host left attempt : Run fleet Bool).obeys (fun _ call => Moves hosts call) past
      (fun _ _ _ => True) s := by
  induction left generalizing attempt past s with
  | zero => exact Run.obeys_pure trivial
  | succ left ih =>
      rw [assign_succ]
      refine Run.obeys_bind (Run.obeys_call trivial fun effect s₁ _ => ?_)
      by_cases hfailed : Effect.isFailed effect = true
      · rw [if_pos hfailed]
        exact Run.obeys_pause fun s₂ => ih (attempt + 1) s₂
      · rw [if_neg hfailed]
        exact Run.obeys_pure trivial

theorem moves_place (hhost : host ∈ hosts) (s : σ) :
    (place policy host : Run fleet Placement).obeys (fun _ call => Moves hosts call) past
      (fun _ _ _ => True) s := by
  rw [place]
  refine Run.obeys_bind (Run.obeys_call hhost fun descriptor s₁ _ => ?_)
  refine Run.obeys_bind (Run.obeys_call trivial fun effect s₂ _ => ?_)
  by_cases hfailed : Effect.isFailed effect = true
  · rw [if_pos hfailed]
    exact Run.obeys_pure trivial
  · rw [if_neg hfailed]
    refine Run.obeys_bind ((moves_assign _ 1 s₂).mono fun given t s₃ _ => ?_)
    cases given with
    | true => exact Run.obeys_pure trivial
    | false => exact Run.obeys_pure trivial

theorem moves_all {part : List Host} (hsub : part ⊆ hosts) (s : σ) :
    (all policy part : Run fleet Relocation).obeys (fun _ call => Moves hosts call) past
      (fun _ _ _ => True) s := by
  induction part generalizing past s with
  | nil => exact Run.obeys_pure trivial
  | cons host part ih =>
      obtain ⟨hhost, hrest⟩ := List.cons_subset.mp hsub
      rw [all]
      refine Run.obeys_bind ((moves_place hhost s).mono fun placement t s₁ _ => ?_)
      refine Run.obeys_bind ((ih hrest s₁).mono fun r t' s₂ _ => ?_)
      exact Run.obeys_pure trivial

end Relocation

theorem Renaming.moves_attempts {policy : RetryPolicy} (left made : Nat) (remaining : HostSet)
    (s : σ) :
    (attempts policy left made remaining : Run fleet HostSet).obeys
      (fun _ call => Moves hosts call) past (fun _ _ _ => True) s := by
  induction left generalizing made remaining past s with
  | zero => exact Run.obeys_pure trivial
  | succ left ih =>
      rw [attempts_succ]
      by_cases hempty : remaining.isEmpty = true
      · rw [if_pos hempty]
        exact Run.obeys_pure trivial
      · rw [if_neg hempty]
        refine Run.obeys_pause fun s₁ => ?_
        exact Run.obeys_bind (Run.obeys_call trivial fun answer s₂ _ => ih (made + 1) _ s₂)

namespace Pass

variable {checked : CheckedSettings} {settings : Settings} {locked : HostSet} {h : Host} {n : Nat}

theorem moves_move {ready : HostSet} (s : σ) :
    (move checked ready : Run fleet Duts).obeys (fun _ call => Moves ready.toList call) past
      (fun _ _ _ => True) s := by
  by_cases hempty : ready = ∅
  · rw [hempty, move_empty]
    exact Run.obeys_pure trivial
  · rw [move_of_ne hempty]
    refine Run.obeys_bind ((Relocation.moves_all (List.Subset.refl _) s).mono fun r t s₁ _ => ?_)
    refine Run.obeys_bind ((Renaming.moves_attempts _ 0 r.succeeded s₁).mono fun _ _ _ _ => ?_)
    exact Run.obeys_pure trivial

/-! ## Waiting -/

/-- The polls so far end with one whose looks at a host bring the streak of all looks at it to a
    threshold. -/
def Waited (n : Nat) (h : Host) (past : List Exchange) : Prop :=
  ∃ before rows, polls past = before ++ [rows] ∧
    Readiness.Reaches n (Readiness.streak 0 (before.flatMap (Readiness.looks h)))
      (Readiness.looks h rows)

/-- A relocation begins for hosts only that were waited for. -/
def FetchesWaited (n : Nat) (past : List Exchange) (call : Call) : Prop :=
  ∀ h, call = .fetchDescriptor h → Waited n h past

/-- The monitor of the loop has taken in the polls so far, and a poll moves the hosts that it makes
    ready. -/
theorem obeys_poll_waited {w : Waiting}
    (hw : w.monitor = (Readiness.watch locked n).after (polls past)) (s : σ) :
    (poll checked w : Run fleet Waiting).obeys (FetchesWaited n) past
      (fun w' t _ => w'.monitor = (Readiness.watch locked n).after (polls (past ++ t))) s := by
  rw [poll]
  have hasks : FetchesWaited n past (.queryStatus w.monitor.watched) := by
    intro h hh
    cases hh
  refine Run.obeys_bind (Run.obeys_call hasks fun rows s₁ _ => ?_)
  have hpolls : ∀ t : List Exchange, (∀ x ∈ t, Moves (w.monitor.poll rows).1.ready.toList x.1) →
      polls (past ++ [⟨.queryStatus w.monitor.watched, .ok rows⟩] ++ t) =
        polls past ++ [rows] := by
    intro t ht
    rw [polls_append_of_none fun x hx => (ht x hx).rows?_eq_none, polls_append]
    rfl
  refine Run.obeys_bind (((moves_move s₁).of_kind ?_).mono ?_)
  · rintro t call ht hcall h rfl
    have hready : h ∈ (w.monitor.poll rows).1.ready := hcall
    rw [hw] at hready
    exact ⟨polls past, rows, hpolls t ht, Readiness.reaches_of_mem_ready_after hready⟩
  · intro moved t s₂ ht
    refine Run.obeys_pure ?_
    show (w.monitor.poll rows).2 = _
    have happend := hpolls t ht
    rw [List.append_assoc] at happend
    rw [List.append_nil, happend, Readiness.after_append, ← hw]
    rfl

theorem obeys_firstRound_waited (hwait : checked.migrateImmediately = false) {duts : Duts} (s : σ) :
    (firstRound checked locked duts : Run fleet (HostSet × Duts)).obeys
      (FetchesWaited checked.minReadyIntervals) [] (fun _ _ _ => True) s := by
  rw [firstRound_waiting hwait]
  refine Run.obeys_bind (Run.obeys_now (Run.obeys_bind ?_))
  refine (Run.obeys_repeatUntil (fun (w : Waiting) t =>
    w.monitor = (Readiness.watch locked checked.minReadyIntervals).after (polls t)) ?_ rfl).mono ?_
  · intro w t s₁ hw _
    exact obeys_poll_waited hw s₁
  · intro w t s₁ _
    exact Run.obeys_pure trivial

variable {source : Planner} {group : HostSet} {previous : Option Summary} {s : σ}

/-- When a pass that waits begins to relocate a host before the sweep, the polls of the first round
    so far end with one that brought the streak of the looks at the host to the number of intervals
    asked for. Where none of these polls lists the host twice, at least that many of them list it,
    the last one is among them, and none of them lists it busy. -/
theorem relocated_by_streak (hwait : settings.migrateImmediately = false)
    {earlier later : List Exchange} {reply : (Call.fetchDescriptor h).Reply}
    (hfetch : exchanges (course fleet source settings group previous s).firstRound =
      earlier ++ ⟨.fetchDescriptor h, reply⟩ :: later) :
    ((run source settings group previous : Run fleet Summary).run s).trace =
      (course fleet source settings group previous s).trace ∧
    Waited settings.minReadyIntervals h earlier ∧
    ((∀ poll ∈ polls earlier, (Readiness.looks h poll).length ≤ 1) →
      Readiness.IdlePolls settings.minReadyIntervals h (polls earlier)) := by
  have hsome : (course fleet source settings group previous s).firstRound ≠ [] := by
    intro hnone
    rw [hnone] at hfetch
    exact absurd hfetch (by simp)
  obtain ⟨checked, locked, duts, s₁, rfl, hround⟩ := firstRound_course hsome
  have hobeys : (firstRound checked locked duts : Run fleet (HostSet × Duts)).obeys _ [] _ s₁ :=
    obeys_firstRound_waited hwait s₁
  have htrace := hobeys.trace
  rw [← hround, hfetch] at htrace
  have hwaited : Waited checked.minReadyIntervals h earlier := htrace.rule_of_split h rfl
  refine ⟨trace_eq_course, hwaited, fun honce => ?_⟩
  obtain ⟨before, rows, hpolls, hreaches⟩ := hwaited
  rw [hpolls] at honce ⊢
  exact Readiness.idlePolls_of_reaches honce hreaches

/-- Settings that ask for a host to be idle twice in a row. -/
def idleTwice : Settings := { minReadyIntervals := 2 }

/-- A fleet that answers the first poll of a pass over `a` with the same row twice. -/
def repeatingFleet : Fleet (Scripted Memory) :=
  Scripted.fleet Memory.fleet
    [⟨.queryStatus, some 3, .ok [⟨"a", true, false⟩, ⟨"a", true, false⟩]⟩]

/-- A host that is always idle. -/
def idleStart : Scripted Memory := { inner := ⟨[("a", {})], 0⟩ }

/-- A pass asks for two intervals, and moves `a` after one poll that lists it twice. -/
theorem moved_after_one_poll :
    idleTwice.migrateImmediately = false ∧
    ∃ earlier reply later,
      exchanges (course repeatingFleet (.fixed (.movingAll (.ofList ["a"]))) idleTwice
        (.ofList ["a"]) none idleStart).firstRound =
        earlier ++ ⟨.fetchDescriptor "a", reply⟩ :: later ∧
      ¬ Readiness.IdlePolls idleTwice.minReadyIntervals "a" (polls earlier) := by
  have hfetched : ∃ x ∈ exchanges (course repeatingFleet (.fixed (.movingAll (.ofList ["a"])))
      idleTwice (.ofList ["a"]) none idleStart).firstRound, x.1 = .fetchDescriptor "a" := by
    decide +kernel
  have hone : (polls (exchanges (course repeatingFleet (.fixed (.movingAll (.ofList ["a"])))
      idleTwice (.ofList ["a"]) none idleStart).firstRound)).length = 1 := by
    decide +kernel
  obtain ⟨⟨call, reply⟩, hx, rfl⟩ := hfetched
  obtain ⟨earlier, later, hsplit⟩ := List.append_of_mem hx
  refine ⟨rfl, earlier, reply, later, hsplit, fun hidle => ?_⟩
  -- there is one poll in the whole round, and two are needed
  rw [hsplit, polls_append, List.length_append] at hone
  have htwo : 2 ≤ (polls earlier).length := hidle.le_length
  omega

/-- A host that is busy at first. -/
def busyStart : Memory := ⟨[("a", { busy := [true, true, true, false] })], 0⟩

/-- Where the polls list `a` once each, it takes two of them that show it idle. -/
theorem relocated_by_two_polls :
    idleTwice.migrateImmediately = false ∧
    ∃ earlier reply later,
      exchanges (course Memory.fleet (.fixed (.movingAll (.ofList ["a"]))) idleTwice
        (.ofList ["a"]) none busyStart).firstRound =
        earlier ++ ⟨.fetchDescriptor "a", reply⟩ :: later ∧
      Readiness.IdlePolls 2 "a" (polls earlier) := by
  have hfetched : ∃ x ∈ exchanges (course Memory.fleet (.fixed (.movingAll (.ofList ["a"])))
      idleTwice (.ofList ["a"]) none busyStart).firstRound, x.1 = .fetchDescriptor "a" := by
    decide +kernel
  have honce : ∀ poll ∈ polls (exchanges (course Memory.fleet
      (.fixed (.movingAll (.ofList ["a"]))) idleTwice (.ofList ["a"]) none busyStart).firstRound),
      (Readiness.looks "a" poll).length ≤ 1 := by
    decide +kernel
  obtain ⟨⟨call, reply⟩, hx, rfl⟩ := hfetched
  obtain ⟨earlier, later, hsplit⟩ := List.append_of_mem hx
  obtain ⟨-, -, hidle⟩ := relocated_by_streak rfl hsplit
  refine ⟨rfl, earlier, reply, later, hsplit, hidle fun poll hpoll => honce poll ?_⟩
  rw [hsplit, polls_append]
  exact List.mem_append_left _ hpoll

end Pass

end Rehome
