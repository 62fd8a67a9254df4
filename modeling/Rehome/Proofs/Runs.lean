import Rehome.Fleet.Run

/-!
# What runs guarantee

A run ends with a result or with an error, and leaves a trace and a state either way. `Run.wp` is
the condition on the state to start from under which a run that ends with a result makes `post`
true of it, its trace and its state, and a run that ends with an error makes `crash` true of those.

Each way to put runs together has one rule here, so the laws of the stages below never open
`Run.run`. The rule for repetition (`wp_repeatUntil`) is the induction over its steps: an invariant
of what is repeated on, of the trace since the start, and of the state. What holds between a step and
the pause after it may be another thing than what holds when a step begins (`wp_repeatPaused`).
-/

namespace Rehome

namespace Run

variable {σ α β : Type} {fleet : Fleet σ}

/-- What an outcome has to be for a run that left it to have kept its promises. -/
def Kept (post : α → List Event → σ → Prop) (crash : PassError → List Event → σ → Prop)
    (o : Outcome σ α) : Prop :=
  match o.result with
  | .ok a => post a o.trace o.state
  | .error e => crash e o.trace o.state

/-- The weakest precondition of a run. -/
def wp (x : Run fleet α) (post : α → List Event → σ → Prop)
    (crash : PassError → List Event → σ → Prop) (s : σ) : Prop :=
  Kept post crash (x.run s)

variable {post post' : α → List Event → σ → Prop}
variable {crash crash' : PassError → List Event → σ → Prop} {s : σ}

theorem kept_of_ok {o : Outcome σ α} {a : α} (ha : o.result = .ok a) :
    Kept post crash o ↔ post a o.trace o.state := by
  rw [Kept, ha]

theorem kept_of_error {o : Outcome σ α} {e : PassError} (he : o.result = .error e) :
    Kept post crash o ↔ crash e o.trace o.state := by
  rw [Kept, he]

theorem Kept.mono {o : Outcome σ α} (h : Kept post crash o)
    (hpost : ∀ a, post a o.trace o.state → post' a o.trace o.state)
    (hcrash : ∀ e, crash e o.trace o.state → crash' e o.trace o.state) :
    Kept post' crash' o := by
  cases ho : o.result with
  | ok a => exact (kept_of_ok ho).mpr (hpost a ((kept_of_ok ho).mp h))
  | error e => exact (kept_of_error ho).mpr (hcrash e ((kept_of_error ho).mp h))

/-! ## Using a guarantee -/

theorem wp.mono {x : Run fleet α} (h : x.wp post crash s)
    (hpost : ∀ a t s', post a t s' → post' a t s')
    (hcrash : ∀ e t s', crash e t s' → crash' e t s') : x.wp post' crash' s :=
  Kept.mono h (fun a => hpost a _ _) (fun e => hcrash e _ _)

/-- Two guarantees of one run hold together. -/
theorem wp.and {x : Run fleet α} (h : x.wp post crash s) (h' : x.wp post' crash' s) :
    x.wp (fun a t s' => post a t s' ∧ post' a t s') (fun e t s' => crash e t s' ∧ crash' e t s')
      s := by
  cases hx : (x.run s).result with
  | ok a => exact (kept_of_ok hx).mpr ⟨(kept_of_ok hx).mp h, (kept_of_ok hx).mp h'⟩
  | error e => exact (kept_of_error hx).mpr ⟨(kept_of_error hx).mp h, (kept_of_error hx).mp h'⟩

theorem wp.of_ok {x : Run fleet α} {a : α} (h : x.wp post crash s)
    (ha : (x.run s).result = .ok a) : post a (x.run s).trace (x.run s).state :=
  (kept_of_ok ha).mp h

theorem wp.of_error {x : Run fleet α} {e : PassError} (h : x.wp post crash s)
    (he : (x.run s).result = .error e) : crash e (x.run s).trace (x.run s).state :=
  (kept_of_error he).mp h

/-- What holds of the trace however the run ends, holds of it. -/
theorem wp.trace {x : Run fleet α} {P : List Event → Prop}
    (h : x.wp (fun _ t _ => P t) (fun _ t _ => P t) s) : P (x.run s).trace := by
  cases hx : (x.run s).result with
  | ok a => exact h.of_ok hx
  | error e => exact h.of_error hx

/-- A run does what it does. -/
theorem wp_self (x : Run fleet α) (s : σ) :
    x.wp (fun a t s' => x.run s = ⟨.ok a, t, s'⟩) (fun e t s' => x.run s = ⟨.error e, t, s'⟩)
      s := by
  rw [wp, Kept]
  cases hx : x.run s with
  | mk result trace state => cases result <;> rfl

/-- No run turns the clock back. -/
theorem wp_time_le (x : Run fleet α) (s : σ) :
    x.wp (fun _ _ s' => fleet.time s ≤ fleet.time s') (fun _ _ s' => fleet.time s ≤ fleet.time s')
      s := by
  rw [wp, Kept]
  cases (x.run s).result with
  | ok a => exact x.time_le s
  | error e => exact x.time_le s

/-! ## Runs put together -/

@[simp] theorem wp_pure {a : α} : (Pure.pure a : Run fleet α).wp post crash s ↔ post a [] s :=
  Iff.rfl

theorem wp_bind {x : Run fleet α} {f : α → Run fleet β} {post : β → List Event → σ → Prop} :
    (x >>= f).wp post crash s ↔
      x.wp (fun a t => (f a).wp (fun b t' => post b (t ++ t')) fun e t' => crash e (t ++ t'))
        crash s := by
  rw [wp, run_bind, andThen]
  cases hx : (x.run s).result with
  | ok a =>
      rw [wp, kept_of_ok hx]
      exact Iff.rfl
  | error e =>
      rw [wp, kept_of_error hx]
      exact Iff.rfl

theorem wp_ofExcept {x : Except PassError α} :
    (ofExcept x : Run fleet α).wp post crash s ↔
      (∀ a, x = .ok a → post a [] s) ∧ ∀ e, x = .error e → crash e [] s := by
  cases x with
  | ok a =>
      constructor
      · intro h
        refine ⟨fun b hb => ?_, fun e he => ?_⟩
        · cases hb
          exact h
        · exact nomatch he
      · intro h
        exact h.1 a rfl
  | error e =>
      constructor
      · intro h
        refine ⟨fun a ha => ?_, fun e' he => ?_⟩
        · exact nomatch ha
        · cases he
          exact h
      · intro h
        exact h.2 e rfl

/-! ## Single steps -/

theorem wp_call {c : Call} {post : c.Answer → List Event → σ → Prop} :
    (call c : Run fleet c.Answer).wp post crash s ↔
      (∀ a s', fleet.reply c s = (.ok a, s') → post a [.called (fleet.time s) c (.ok a)] s') ∧
      ∀ e s', fleet.reply c s = (.error e, s') →
        crash (.tool e) [.called (fleet.time s) c (.error e)] s' := by
  show Kept post crash ⟨(fleet.reply c s).1.mapError .tool,
    [.called (fleet.time s) c (fleet.reply c s).1], (fleet.reply c s).2⟩ ↔ _
  cases fleet.reply c s with
  | mk back s' =>
    cases back with
    | ok a =>
        constructor
        · intro h
          refine ⟨fun b s'' hb => ?_, fun e s'' he => ?_⟩
          · cases hb
            exact h
          · exact nomatch he
        · intro h
          exact h.1 a s' rfl
    | error e =>
        constructor
        · intro h
          refine ⟨fun a s'' ha => ?_, fun e' s'' he => ?_⟩
          · exact nomatch ha
          · cases he
            exact h
        · intro h
          exact h.2 e s' rfl

theorem wp_plan {source : Planner} {hosts : HostSet} {ratio : Numeric.Binary64}
    {post : Plan → List Event → σ → Prop} :
    (plan source hosts ratio : Run fleet Plan).wp post crash s ↔
      (∀ p, source hosts ratio = .ok p →
        post p [.planned (fleet.time s) hosts ratio (.ok p)] s) ∧
      ∀ e, source hosts ratio = .error e →
        crash e [.planned (fleet.time s) hosts ratio (.error e)] s := by
  show Kept post crash ⟨source hosts ratio,
    [.planned (fleet.time s) hosts ratio (source hosts ratio)], s⟩ ↔ _
  cases source hosts ratio with
  | ok p =>
      constructor
      · intro h
        refine ⟨fun q hq => ?_, fun e he => ?_⟩
        · cases hq
          exact h
        · exact nomatch he
      · intro h
        exact h.1 p rfl
  | error e =>
      constructor
      · intro h
        refine ⟨fun p hp => ?_, fun e' he => ?_⟩
        · exact nomatch hp
        · cases he
          exact h
      · intro h
        exact h.2 e rfl

theorem wp_sleep {span : Duration} {post : Unit → List Event → σ → Prop} :
    (sleep span : Run fleet Unit).wp post crash s ↔
      post () [.slept (fleet.time s) span] (fleet.sleep span s) :=
  Iff.rfl

theorem wp_now {post : Nat → List Event → σ → Prop} :
    (now : Run fleet Nat).wp post crash s ↔
      post (fleet.time (fleet.look s)) [] (fleet.look s) :=
  Iff.rfl

theorem wp_waitAfter {policy : RetryPolicy} {attempt : Nat} {post : Unit → List Event → σ → Prop} :
    (waitAfter policy attempt : Run fleet Unit).wp post crash s ↔
      if (policy.waitAfter attempt).nanos = 0 then post () [] s
      else post () [.slept (fleet.time s) (policy.waitAfter attempt)]
        (fleet.sleep (policy.waitAfter attempt) s) := by
  rw [waitAfter]
  by_cases h : (policy.waitAfter attempt).nanos = 0
  · rw [if_pos h, if_pos h]
    exact Iff.rfl
  · rw [if_neg h, if_neg h]
    exact wp_sleep

/-- What lies between two attempts: nothing, or one sleep. -/
inductive Paused (fleet : Fleet σ) (s : σ) : List Event → σ → Prop where
  | not : Paused fleet s [] s
  | slept (span : Duration) : Paused fleet s [.slept (fleet.time s) span] (fleet.sleep span s)

/-- An activity that is put off only under a condition. -/
theorem wp_pause {c : Prop} [Decidable c] {policy : RetryPolicy} {attempt : Nat} {x : Run fleet α}
    (h : ∀ t s', Paused fleet s t s' →
      x.wp (fun a t' => post a (t ++ t')) (fun e t' => crash e (t ++ t')) s') :
    (if c then (do waitAfter policy attempt; x) else x).wp post crash s := by
  by_cases hc : c
  · rw [if_pos hc, wp_bind, wp_waitAfter]
    by_cases hw : (policy.waitAfter attempt).nanos = 0
    · rw [if_pos hw]
      exact h [] s .not
    · rw [if_neg hw]
      exact h _ _ (.slept _)
  · rw [if_neg hc]
    exact h [] s .not

/-! ## Runs that end with a result

The same without a promise for errors. -/

/-- The weakest precondition of a run for what it leaves when it ends with a result. -/
def yields (x : Run fleet α) (post : α → List Event → σ → Prop) (s : σ) : Prop :=
  x.wp post (fun _ _ _ => True) s

theorem yields.mono {x : Run fleet α} (h : x.yields post s)
    (hpost : ∀ a t s', post a t s' → post' a t s') : x.yields post' s :=
  wp.mono h hpost fun _ _ _ _ => trivial

/-- Any number of guarantees of one run hold together. -/
theorem yields_forall {ι : Type} {x : Run fleet α} {post : ι → α → List Event → σ → Prop}
    (h : ∀ i, x.yields (post i) s) : x.yields (fun a t s' => ∀ i, post i a t s') s := by
  cases hx : (x.run s).result with
  | ok a =>
      rw [yields, wp, kept_of_ok hx]
      intro i
      exact (h i).of_ok hx
  | error e =>
      rw [yields, wp, kept_of_error hx]
      trivial

theorem yields_bind {x : Run fleet α} {f : α → Run fleet β} {post : β → List Event → σ → Prop} :
    (x >>= f).yields post s ↔
      x.yields (fun a t => (f a).yields fun b t' => post b (t ++ t')) s :=
  wp_bind

theorem yields_call {c : Call} {post : c.Answer → List Event → σ → Prop} :
    (call c : Run fleet c.Answer).yields post s ↔
      ∀ a s', fleet.reply c s = (.ok a, s') → post a [.called (fleet.time s) c (.ok a)] s' :=
  wp_call.trans ⟨fun h => h.1, fun h => ⟨h, fun _ _ _ => trivial⟩⟩

theorem yields_now {post : Nat → List Event → σ → Prop} :
    (now : Run fleet Nat).yields post s ↔ post (fleet.time (fleet.look s)) [] (fleet.look s) :=
  wp_now

theorem yields_pause {c : Prop} [Decidable c] {policy : RetryPolicy} {attempt : Nat}
    {x : Run fleet α}
    (h : ∀ t s', Paused fleet s t s' → x.yields (fun a t' => post a (t ++ t')) s') :
    (if c then (do waitAfter policy attempt; x) else x).yields post s :=
  wp_pause h

theorem yields_plan {source : Planner} {hosts : HostSet} {ratio : Numeric.Binary64}
    {post : Plan → List Event → σ → Prop} :
    (plan source hosts ratio : Run fleet Plan).yields post s ↔
      ∀ p, source hosts ratio = .ok p →
        post p [.planned (fleet.time s) hosts ratio (.ok p)] s :=
  wp_plan.trans ⟨fun h => h.1, fun h => ⟨h, fun _ _ => trivial⟩⟩

theorem yields_ofExcept {x : Except PassError α} :
    (ofExcept x : Run fleet α).yields post s ↔ ∀ a, x = .ok a → post a [] s :=
  wp_ofExcept.trans ⟨fun h => h.1, fun h => ⟨h, fun _ _ => trivial⟩⟩

/-! ## Repetition -/

section Repetition

variable {deadline : Nat} {pause : Duration} {done : α → Bool} {step : α → Run fleet α}

/-- The step law of `wp_repeatPaused`, over the states in which a step begins: `past` is the trace
    of the steps before. -/
theorem kept_repeatFrom (hpause : 0 < pause.nanos) (inv mid : α → List Event → σ → Prop)
    (hlook : ∀ a t s, inv a t s → inv a t (fleet.look s))
    (hstep : ∀ a t s, inv a t s → done a = false → fleet.time s < deadline →
      (step a).wp (fun b t' s' => mid b (t ++ t') s') (fun e t' s' => crash e (t ++ t') s') s)
    (hsleep : ∀ a t s, mid a t s → done a = false →
      inv a (t ++ [.slept (fleet.time s) pause]) (fleet.sleep pause s))
    (hdone : ∀ a t s, mid a t s → done a = true → post a t s)
    (hend : ∀ a t s, inv a t s → done a = true ∨ deadline ≤ fleet.time s → post a t s) :
    ∀ (a : α) (past : List Event) (s : σ), inv a past s →
      Kept (fun b t => post b (past ++ t)) (fun e t => crash e (past ++ t))
        (repeatFrom deadline pause hpause done step a s).val := by
  intro a past s
  -- each pause brings the deadline nearer, so the induction is on the time that is left
  induction hleft : deadline - fleet.time s using Nat.strongRecOn generalizing a past s with
  | ind left ih =>
    intro hinv
    rw [repeatFrom]
    by_cases hover : done a = true
    · rw [if_pos hover]
      show post a (past ++ []) s
      rw [List.append_nil]
      exact hend a past s hinv (.inl hover)
    · rw [if_neg hover]
      have hlooked := hlook a past s hinv
      by_cases htime : fleet.time (fleet.look s) < deadline
      · rw [dif_pos htime]
        have hfirst := hstep a past _ hlooked (Bool.eq_false_iff.mpr hover) htime
        have hforward := (step a).time_le (fleet.look s)
        cases hr : ((step a).run (fleet.look s)).result with
        | error e =>
            simp only [hr]
            exact (kept_of_error hr).mp hfirst
        | ok b =>
            replace hfirst := (kept_of_ok hr).mp hfirst
            simp only [hr]
            by_cases hover' : done b = true
            · rw [if_pos hover']
              exact hdone b _ _ hfirst hover'
            · rw [if_neg hover']
              have hslept := hsleep b _ _ hfirst (Bool.eq_false_iff.mpr hover')
              have hnearer := fleet.time_lt_sleep pause ((step a).run (fleet.look s)).state hpause
              have hlater := fleet.time_le_look s
              have hrest := ih _ (by omega) b _ _ rfl hslept
              simp only [List.append_assoc, List.singleton_append] at hrest
              exact hrest
      · rw [dif_neg htime]
        show post a (past ++ []) (fleet.look s)
        rw [List.append_nil]
        exact hend a past _ hlooked (.inr (Nat.le_of_not_lt htime))

/-- What holds when a step begins, and what holds between a step and the pause after it, lead from
    each to the other. A repetition ends with one of them: after a step with nothing left to do, or
    before one, if nothing is left to do or the deadline has come. -/
theorem wp_repeatPaused {hpause : 0 < pause.nanos} (inv mid : α → List Event → σ → Prop) {a : α}
    (hlook : ∀ a t s, inv a t s → inv a t (fleet.look s))
    (hstep : ∀ a t s, inv a t s → done a = false → fleet.time s < deadline →
      (step a).wp (fun b t' s' => mid b (t ++ t') s') (fun e t' s' => crash e (t ++ t') s') s)
    (hsleep : ∀ a t s, mid a t s → done a = false →
      inv a (t ++ [.slept (fleet.time s) pause]) (fleet.sleep pause s))
    (hdone : ∀ a t s, mid a t s → done a = true → post a t s)
    (hend : ∀ a t s, inv a t s → done a = true ∨ deadline ≤ fleet.time s → post a t s)
    (hstart : inv a [] s) :
    (repeatUntil deadline pause hpause done step a).wp post crash s :=
  kept_repeatFrom hpause inv mid hlook hstep hsleep hdone hend a [] s hstart

/-- What every step of a repetition keeps holds at its end, where nothing is left to do or the
    deadline has come. -/
theorem wp_repeatUntil {hpause : 0 < pause.nanos} (inv : α → List Event → σ → Prop) {a : α}
    (hlook : ∀ a t s, inv a t s → inv a t (fleet.look s))
    (hstep : ∀ a t s, inv a t s → done a = false → fleet.time s < deadline →
      (step a).wp (fun b t' s' => inv b (t ++ t') s') (fun e t' s' => crash e (t ++ t') s') s)
    (hsleep : ∀ a t s, inv a t s → done a = false →
      inv a (t ++ [.slept (fleet.time s) pause]) (fleet.sleep pause s))
    (hend : ∀ a t s, inv a t s → done a = true ∨ deadline ≤ fleet.time s → post a t s)
    (hstart : inv a [] s) :
    (repeatUntil deadline pause hpause done step a).wp post crash s :=
  wp_repeatPaused inv inv hlook hstep hsleep (fun b t s' hb hover => hend b t s' hb (.inl hover)) hend
    hstart

theorem yields_repeatUntil {hpause : 0 < pause.nanos} (inv : α → List Event → σ → Prop) {a : α}
    (hlook : ∀ a t s, inv a t s → inv a t (fleet.look s))
    (hstep : ∀ a t s, inv a t s → done a = false → fleet.time s < deadline →
      (step a).yields (fun b t' s' => inv b (t ++ t') s') s)
    (hsleep : ∀ a t s, inv a t s → done a = false →
      inv a (t ++ [.slept (fleet.time s) pause]) (fleet.sleep pause s))
    (hend : ∀ a t s, inv a t s → done a = true ∨ deadline ≤ fleet.time s → post a t s)
    (hstart : inv a [] s) :
    (repeatUntil deadline pause hpause done step a).yields post s :=
  wp_repeatUntil inv hlook hstep hsleep hend hstart

end Repetition

/-! ## Runs that end in a state

The same where nothing is said of the trace. -/

section Ends

/-- The weakest precondition of a run for the state that it ends in. -/
def ends (x : Run fleet α) (post : α → σ → Prop) (crash : PassError → σ → Prop) (s : σ) : Prop :=
  x.wp (fun a _ => post a) (fun e _ => crash e) s

variable {post post' : α → σ → Prop} {crash : PassError → σ → Prop} {x : Run fleet α}

theorem ends.mono (h : x.ends post crash s) (hpost : ∀ a s', post a s' → post' a s') :
    x.ends post' crash s :=
  wp.mono h (fun a _ => hpost a) fun _ _ _ he => he

theorem ends.cases (h : x.ends post crash s) :
    (∃ a, (x.run s).result = .ok a ∧ post a (x.run s).state) ∨
      ∃ e, (x.run s).result = .error e ∧ crash e (x.run s).state := by
  cases hx : (x.run s).result with
  | ok a => exact .inl ⟨a, rfl, wp.of_ok h hx⟩
  | error e => exact .inr ⟨e, rfl, wp.of_error h hx⟩

theorem ends_pure {a : α} (h : post a s) : (Pure.pure a : Run fleet α).ends post crash s :=
  wp_pure.mpr h

theorem ends_bind {f : α → Run fleet β} {post : β → σ → Prop}
    (h : x.ends (fun a => (f a).ends post crash) crash s) : (x >>= f).ends post crash s :=
  wp_bind.mpr h

theorem ends_plan {source : Planner} {hosts : HostSet} {ratio : Numeric.Binary64} {p : Plan}
    {post : Plan → σ → Prop} (hplan : source hosts ratio = .ok p) (h : post p s) :
    (plan source hosts ratio : Run fleet Plan).ends post crash s := by
  refine wp_plan.mpr ⟨fun q hq => ?_, fun e he => ?_⟩
  · rw [hplan] at hq
    cases hq
    exact h
  · rw [hplan] at he
    exact nomatch he

theorem ends_now {post : Nat → σ → Prop} (h : post (fleet.time (fleet.look s)) (fleet.look s)) :
    (now : Run fleet Nat).ends post crash s := h

theorem ends_call {c : Call} {a : c.Answer} {s' : σ} {post : c.Answer → σ → Prop}
    (hreply : fleet.reply c s = (.ok a, s')) (h : post a s') :
    (call c : Run fleet c.Answer).ends post crash s := by
  refine wp_call.mpr ⟨fun b s'' hb => ?_, fun e s'' he => ?_⟩
  · rw [hreply] at hb
    cases hb
    exact h
  · rw [hreply] at he
    exact nomatch he

theorem ends_call_error {c : Call} {e : ToolFailure} {s' : σ} {post : c.Answer → σ → Prop}
    (hreply : fleet.reply c s = (.error e, s')) (h : crash (.tool e) s') :
    (call c : Run fleet c.Answer).ends post crash s := by
  refine wp_call.mpr ⟨fun b s'' hb => ?_, fun e' s'' he => ?_⟩
  · rw [hreply] at hb
    exact nomatch hb
  · rw [hreply] at he
    cases he
    exact h

theorem ends_pause {c : Prop} [Decidable c] {policy : RetryPolicy} {attempt : Nat}
    (h : ∀ t s', Paused fleet s t s' → x.ends post crash s') :
    (if c then (do waitAfter policy attempt; x) else x).ends post crash s :=
  wp_pause h

theorem ends_repeatUntil {deadline : Nat} {pause : Duration} {hpause : 0 < pause.nanos}
    {done : α → Bool} {step : α → Run fleet α} {a : α} (inv : α → σ → Prop)
    (hlook : ∀ a s, inv a s → inv a (fleet.look s))
    (hstep : ∀ a s, inv a s → (step a).ends inv crash s)
    (hsleep : ∀ a s, inv a s → inv a (fleet.sleep pause s)) (hstart : inv a s) :
    (repeatUntil deadline pause hpause done step a).ends inv crash s :=
  wp_repeatUntil (fun a _ => inv a) (fun a _ => hlook a) (fun a _ s ha _ _ => hstep a s ha)
    (fun a _ s ha _ => hsleep a s ha) (fun _ _ _ ha _ => ha) hstart

end Ends

end Run

end Rehome
