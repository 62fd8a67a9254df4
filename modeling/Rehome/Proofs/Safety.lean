import Rehome.Proofs.Accounting
import Rehome.Proofs.Planning

/-!
# Safety — what a pass may ask at each moment

A pass must not touch hosts that stay, hosts that moved before or hosts that may still be given
work, and must not mark a host as moved that has no drone. `MayCall` is that rule: whether a
call is allowed after the exchanges so far. The main law (`calls_allowed`) says that every call
of every pass obeys it, however the pass ends and whatever the fleet answers, as long as a
descriptor it gives is the one that was asked for.

A rule looks at the whole past, so the laws of the stages are stated from any past: `Run.obeys` says
that a run keeps to a rule after it, and what its own exchanges are like when it ends with a result.
-/

namespace Rehome

/-! ## Rules -/

/-- Each exchange keeps to a rule, given the exchanges before it. -/
def Obeys (rule : List Exchange → Call → Prop) (past : List Exchange) : List Exchange → Prop
  | [] => True
  | x :: rest => rule past x.1 ∧ Obeys rule (past ++ [x]) rest

variable {rule : List Exchange → Call → Prop} {past : List Exchange}

theorem obeys_append {a b : List Exchange} :
    Obeys rule past (a ++ b) ↔ Obeys rule past a ∧ Obeys rule (past ++ a) b := by
  induction a generalizing past with
  | nil =>
      rw [List.append_nil]
      exact ⟨fun h => ⟨trivial, h⟩, fun h => h.2⟩
  | cons x a ih =>
      show rule past x.1 ∧ Obeys rule (past ++ [x]) (a ++ b) ↔ _
      rw [ih, List.append_assoc, List.singleton_append]
      exact and_assoc.symm

theorem Obeys.rule_of_split {earlier later : List Exchange} {x : Exchange}
    (h : Obeys rule [] (earlier ++ x :: later)) : rule earlier x.1 :=
  (obeys_append.mp h).2.1

theorem Obeys.imp {rule' : List Exchange → Call → Prop} {trace : List Exchange}
    (h : Obeys rule past trace) (himp : ∀ past call, rule past call → rule' past call) :
    Obeys rule' past trace := by
  induction trace generalizing past with
  | nil => trivial
  | cons x trace ih => exact ⟨himp past x.1 h.1, ih h.2⟩

theorem Obeys.forall {kind : Call → Prop} {trace : List Exchange}
    (h : Obeys (fun _ call => kind call) past trace) : ∀ x ∈ trace, kind x.1 := by
  induction trace generalizing past with
  | nil => exact fun _ hx => nomatch hx
  | cons x trace ih => exact List.forall_mem_cons.mpr ⟨h.1, ih h.2⟩

/-- Calls of one kind keep to any rule that lets them be made after others of the kind. -/
theorem Obeys.of_forall {kind : Call → Prop} {trace : List Exchange}
    (htrace : ∀ x ∈ trace, kind x.1)
    (hrule : ∀ t call, (∀ x ∈ t, kind x.1) → kind call → rule (past ++ t) call) :
    Obeys rule past trace := by
  induction trace generalizing past with
  | nil => trivial
  | cons x trace ih =>
      obtain ⟨hx, hrest⟩ := List.forall_mem_cons.mp htrace
      have hfirst := hrule [] x.1 (fun _ hy => nomatch hy) hx
      rw [List.append_nil] at hfirst
      refine ⟨hfirst, ih hrest fun t call ht hcall => ?_⟩
      rw [List.append_assoc, List.singleton_append]
      exact hrule (x :: t) call (List.forall_mem_cons.mpr ⟨hx, ht⟩) hcall

namespace Run

variable {σ α β : Type} {fleet : Fleet σ} {s : σ}

/-- After some past a run keeps to a rule however it ends, and makes `post` true of its exchanges if
    it ends with a result. -/
def obeys (rule : List Exchange → Call → Prop) (past : List Exchange) (x : Run fleet α)
    (post : α → List Exchange → σ → Prop) (s : σ) : Prop :=
  x.wp (fun a t s' => Obeys rule past (exchanges t) ∧ post a (exchanges t) s')
    (fun _ t _ => Obeys rule past (exchanges t)) s

variable {post post' : α → List Exchange → σ → Prop} {x : Run fleet α}

theorem obeys.mono (h : x.obeys rule past post s)
    (hpost : ∀ a t s', post a t s' → post' a t s') : x.obeys rule past post' s :=
  wp.mono h (fun _ _ _ ha => ⟨ha.1, hpost _ _ _ ha.2⟩) fun _ _ _ he => he

/-- A run that keeps to a rule keeps to any that allows more. -/
theorem obeys.imp {rule' : List Exchange → Call → Prop} (h : x.obeys rule past post s)
    (himp : ∀ past call, rule past call → rule' past call) : x.obeys rule' past post s :=
  wp.mono h (fun _ _ _ ha => ⟨ha.1.imp himp, ha.2⟩) fun _ _ _ he => he.imp himp

theorem obeys.trace (h : x.obeys rule past post s) : Obeys rule past (exchanges (x.run s).trace) :=
  wp.trace (wp.mono h (fun _ _ _ ha => ha.1) fun _ _ _ he => he)

/-- A run that makes calls of one kind only keeps to any rule that lets them be made after others of
    the kind. -/
theorem obeys.of_kind {kind : Call → Prop}
    (h : x.obeys (fun _ call => kind call) [] (fun _ _ _ => True) s)
    (hrule : ∀ t call, (∀ y ∈ t, kind y.1) → kind call → rule (past ++ t) call) :
    x.obeys rule past (fun _ t _ => ∀ y ∈ t, kind y.1) s :=
  wp.mono h (fun _ _ _ ha => ⟨.of_forall ha.1.forall hrule, ha.1.forall⟩)
    fun _ _ _ he => .of_forall he.forall hrule

/-- What a run is known to leave may be used beside its keeping to a rule. -/
theorem obeys.and_yields {known : α → List Event → σ → Prop} (h : x.obeys rule past post s)
    (hknown : x.yields known s) (hpost : ∀ a t s', post a (exchanges t) s' → known a t s' →
      post' a (exchanges t) s') : x.obeys rule past post' s :=
  wp.mono (wp.and h hknown) (fun _ _ _ ha => ⟨ha.1.1, hpost _ _ _ ha.1.2 ha.2⟩) fun _ _ _ he => he.1

theorem obeys_pure {a : α} (h : post a [] s) : (Pure.pure a : Run fleet α).obeys rule past post s :=
  ⟨trivial, h⟩

theorem obeys_now {post : Nat → List Exchange → σ → Prop}
    (h : post (fleet.time (fleet.look s)) [] (fleet.look s)) :
    (now : Run fleet Nat).obeys rule past post s :=
  ⟨trivial, h⟩

theorem obeys_ofExcept {result : Except PassError α} (h : ∀ a, result = .ok a → post a [] s) :
    (ofExcept result : Run fleet α).obeys rule past post s :=
  wp_ofExcept.mpr ⟨fun a ha => ⟨trivial, h a ha⟩, fun _ _ => trivial⟩

theorem obeys_plan {source : Planner} {hosts : HostSet} {ratio : Numeric.Binary64}
    {post : Plan → List Exchange → σ → Prop} (h : ∀ p, source hosts ratio = .ok p → post p [] s) :
    (plan source hosts ratio : Run fleet Plan).obeys rule past post s :=
  wp_plan.mpr ⟨fun p hp => ⟨trivial, h p hp⟩, fun _ _ => trivial⟩

theorem obeys_bind {f : α → Run fleet β} {post : β → List Exchange → σ → Prop}
    (h : x.obeys rule past (fun a t s' =>
      (f a).obeys rule (past ++ t) (fun b t' => post b (t ++ t')) s') s) :
    (x >>= f).obeys rule past post s := by
  rw [obeys, wp_bind]
  refine wp.mono h ?_ fun _ _ _ he => he
  rintro a t s' ⟨ht, hf⟩
  refine wp.mono hf ?_ ?_
  · rintro b t' s'' ⟨ht', hb⟩
    rw [exchanges_append]
    exact ⟨obeys_append.mpr ⟨ht, ht'⟩, hb⟩
  · intro e t' s'' ht'
    rw [exchanges_append]
    exact obeys_append.mpr ⟨ht, ht'⟩

theorem obeys_call {c : Call} {post : c.Answer → List Exchange → σ → Prop} (hrule : rule past c)
    (hpost : ∀ a s', fleet.reply c s = (.ok a, s') → post a [⟨c, .ok a⟩] s') :
    (call c : Run fleet c.Answer).obeys rule past post s := by
  rw [obeys, wp_call]
  exact ⟨fun a s' ha => ⟨⟨hrule, trivial⟩, hpost a s' ha⟩, fun _ _ _ => ⟨hrule, trivial⟩⟩

theorem obeys_pause {c : Prop} [Decidable c] {policy : RetryPolicy} {attempt : Nat}
    (h : ∀ s', x.obeys rule past post s') :
    (if c then (do waitAfter policy attempt; x) else x).obeys rule past post s := by
  refine wp_pause fun t s' hpause => ?_
  simp only [exchanges_append, hpause.exchanges, List.nil_append]
  exact h s'

theorem obeys_repeatUntil {deadline : Nat} {pause : Duration} {hpause : 0 < pause.nanos}
    {done : α → Bool} {step : α → Run fleet α} {a : α} (inv : α → List Exchange → Prop)
    (hstep : ∀ a t s, inv a t → done a = false →
      (step a).obeys rule (past ++ t) (fun b t' _ => inv b (t ++ t')) s)
    (hstart : inv a []) :
    (repeatUntil deadline pause hpause done step a).obeys rule past (fun b t _ => inv b t) s := by
  refine wp_repeatUntil (fun b t _ => Obeys rule past (exchanges t) ∧ inv b (exchanges t))
    (fun _ _ _ hb => hb) ?_ ?_ (fun _ _ _ hb _ => hb) ⟨trivial, hstart⟩
  · rintro b t s ⟨ht, hb⟩ hdone -
    refine wp.mono (hstep b (exchanges t) s hb hdone) ?_ ?_
    · rintro b' t' s' ⟨ht', hb'⟩
      rw [exchanges_append]
      exact ⟨obeys_append.mpr ⟨ht, ht'⟩, hb'⟩
    · intro e t' s' ht'
      rw [exchanges_append]
      exact obeys_append.mpr ⟨ht, ht'⟩
  · intro b t s hb _
    rw [exchanges_append]
    show Obeys rule past (exchanges t ++ []) ∧ inv b (exchanges t ++ [])
    rw [List.append_nil]
    exact hb

end Run

/-! ## What is allowed -/

variable {σ : Type} {fleet : Fleet σ} {settings : Settings} {start : σ} {transfer : HostSet}
variable {h : Host} {later : List Exchange}

/-- A descriptor that a fleet gives is of the host it was asked for. -/
def Fleet.DescribesAsked (fleet : Fleet σ) : Prop :=
  ∀ host s descriptor s', fleet.reply (.fetchDescriptor host) s = (.ok descriptor, s') →
    descriptor.host = host

/-- The one answer that was read after the attempts to lock, from the start of a pass, shows a host
    locked. -/
def Verified (fleet : Fleet σ) (settings : Settings) (start : σ) (transfer : HostSet) (h : Host)
    (past : List Exchange) : Prop :=
  ∃ attempted locking s rows later,
    (Locking.run settings.lockRetry transfer settings.reason : Run fleet StepResult).run start =
      ⟨.ok attempted, locking, s⟩ ∧
    past = exchanges locking ++ ⟨.queryStatus transfer, .ok rows⟩ :: later ∧
    ∃ row ∈ rows, row.host = h ∧ row.locked = true

/-- A relocation of a host is under way: it was added, and calls to give it a drone failed since, if
    there were any. -/
def Added (h : Host) (past : List Exchange) : Prop :=
  ∃ earlier descriptor effect refused,
    past = earlier ++ ⟨.fetchDescriptor h, .ok descriptor⟩ :: ⟨.add descriptor, .ok effect⟩ ::
      List.map (fun refusal => ⟨.assignDrone h, .ok refusal⟩) refused ∧
    descriptor.host = h ∧ Effect.isFailed effect = false ∧
    ∀ refusal ∈ refused, Effect.isFailed refusal = true

/-- Nobody adds a host or asks for a drone for it. -/
def Spares (h : Host) (trace : List Exchange) : Prop :=
  ∀ x ∈ trace, x.1 ≠ .assignDrone h ∧ ∀ descriptor, x.1 = .add descriptor → descriptor.host ≠ h

/-- The last call to give a host a drone did so, and the host was added before it and not since. -/
def Placed (h : Host) (past : List Exchange) : Prop :=
  ∃ before given later, past = before ++ ⟨.assignDrone h, .ok given⟩ :: later ∧
    Added h before ∧ Effect.isFailed given = false ∧ Spares h later

/-- Whether a pass that moves the hosts of a transfer group may make a call after a past. -/
def MayCall (fleet : Fleet σ) (settings : Settings) (start : σ) (transfer : HostSet)
    (past : List Exchange) (call : Call) : Prop :=
  call.hosts ≠ ∅ ∧ call.hosts ⊆ transfer ∧
  match call with
  | .queryStatus _ | .lock .. => True
  | .fetchDescriptor host => Verified fleet settings start transfer host past
  | .add descriptor => Verified fleet settings start transfer descriptor.host past
  | .assignDrone host => Verified fleet settings start transfer host past ∧ Added host past
  | .rename hosts direction => direction = .moved ∧
      ∀ h ∈ hosts, Verified fleet settings start transfer h past ∧ Placed h past
  | .unlock _ | .remove .. => False

theorem Verified.append (hv : Verified fleet settings start transfer h past) :
    Verified fleet settings start transfer h (past ++ later) := by
  obtain ⟨attempted, locking, s, rows, rest, hrun, rfl, hrow⟩ := hv
  exact ⟨attempted, locking, s, rows, rest ++ later, hrun, by simp, hrow⟩

theorem Spares.append {a b : List Exchange} (ha : Spares h a) (hb : Spares h b) :
    Spares h (a ++ b) := by
  intro x hx
  rcases List.mem_append.mp hx with hx | hx
  · exact ha x hx
  · exact hb x hx

theorem spares_nil : Spares h [] := fun _ hx => nomatch hx

theorem spares_singleton {x : Exchange} (hassign : x.1 ≠ .assignDrone h)
    (hadd : ∀ descriptor, x.1 = .add descriptor → descriptor.host ≠ h) : Spares h [x] := by
  intro y hy
  rw [List.mem_singleton.mp hy]
  exact ⟨hassign, hadd⟩

theorem Placed.append (hp : Placed h past) (hs : Spares h later) : Placed h (past ++ later) := by
  obtain ⟨before, given, rest, rfl, hadded, hgiven, hrest⟩ := hp
  exact ⟨before, given, rest ++ later, by simp, hadded, hgiven, hrest.append hs⟩

/-! ## Locking -/

/-- The calls that locking hosts of a transfer group is made of. -/
def Locks (transfer : HostSet) (call : Call) : Prop :=
  call.hosts ≠ ∅ ∧ call.hosts ⊆ transfer ∧
  match call with
  | .queryStatus _ | .lock .. => True
  | .fetchDescriptor _ | .add _ | .assignDrone _ | .rename .. | .unlock _ | .remove .. => False

/-- They are allowed at any time. -/
theorem Locks.mayCall {call : Call} (hlocks : Locks transfer call) :
    MayCall fleet settings start transfer past call := by
  obtain ⟨hne, hsub, hkind⟩ := hlocks
  refine ⟨hne, hsub, ?_⟩
  cases call with
  | queryStatus _ => trivial
  | lock _ _ => trivial
  | _ => exact hkind.elim

namespace Locking

variable {policy : RetryPolicy} {reason : String}

theorem obeys_look {hosts : HostSet} (hne : hosts ≠ ∅) (hsub : hosts ⊆ transfer) (s : σ) :
    (look hosts : Run fleet HostSet).obeys (fun _ call => Locks transfer call) past
      (fun _ _ _ => True) s := by
  rw [look]
  refine Run.obeys_bind (Run.obeys_call ⟨hne, hsub, trivial⟩ fun rows s₁ _ => ?_)
  exact Run.obeys_pure trivial

theorem obeys_attempts (left made : Nat) {remaining : HostSet} (locked : HostSet)
    (hsub : remaining ⊆ transfer) (s : σ) :
    (attempts policy reason left made remaining locked : Run fleet StepResult).obeys
      (fun _ call => Locks transfer call) past (fun _ _ _ => True) s := by
  induction left generalizing made remaining locked past s with
  | zero => exact Run.obeys_pure trivial
  | succ left ih =>
      rw [attempts_succ]
      by_cases hempty : remaining.isEmpty = true
      · rw [if_pos hempty]
        exact Run.obeys_pure trivial
      · rw [if_neg hempty]
        have hne : remaining ≠ ∅ := fun he => hempty (HostSet.isEmpty_iff.mpr he)
        refine Run.obeys_pause fun s₁ => ?_
        refine Run.obeys_bind (Run.obeys_call ⟨hne, hsub, trivial⟩ fun _ s₂ _ => ?_)
        refine Run.obeys_bind ((obeys_look hne hsub s₂).mono fun seen t s₃ _ => ?_)
        exact ih (made + 1) (locked ∪ seen) (fun h hh => hsub h (HostSet.mem_sdiff.mp hh).1) s₃

end Locking

/-! ## Relocation -/

namespace Relocation

variable {policy : RetryPolicy} {host : Host}

/-- Asking for drones keeps the relocation under way until one is given, and spares the others. -/
theorem obeys_assign (left attempt : Nat) (hin : host ∈ transfer)
    (hverified : Verified fleet settings start transfer host past) (hadded : Added host past)
    (s : σ) :
    (assign policy host left attempt : Run fleet Bool).obeys (MayCall fleet settings start transfer)
      past (fun given t _ => (∀ h, h ≠ host → Spares h t) ∧
        (given = true → Placed host (past ++ t))) s := by
  have hspares : ∀ (reply : (Call.assignDrone host).Reply) (h : Host), h ≠ host →
      Spares h [⟨.assignDrone host, reply⟩] :=
    fun reply h hne => spares_singleton (fun heq => hne (Call.assignDrone.inj heq).symm) (by simp)
  induction left generalizing attempt past s with
  | zero => exact Run.obeys_pure ⟨fun _ _ => spares_nil, fun hgiven => nomatch hgiven⟩
  | succ left ih =>
      rw [assign_succ]
      refine Run.obeys_bind (Run.obeys_call ⟨HostSet.singleton_ne_empty host,
        HostSet.singleton_subset hin, hverified, hadded⟩ fun effect s₁ _ => ?_)
      by_cases hfailed : Effect.isFailed effect = true
      · rw [if_pos hfailed]
        -- one more refusal, and the relocation is still under way
        have hstill : Added host (past ++ [⟨.assignDrone host, .ok effect⟩]) := by
          obtain ⟨earlier, descriptor, added, refused, rfl, hhost, hok, hrefused⟩ := hadded
          refine ⟨earlier, descriptor, added, refused ++ [effect], by simp, hhost, hok, ?_⟩
          intro refusal hr
          rcases List.mem_append.mp hr with hr | hr
          · exact hrefused refusal hr
          · rw [List.mem_singleton.mp hr]
            exact hfailed
        refine Run.obeys_pause fun s₂ => (ih (attempt + 1) hverified.append hstill s₂).mono ?_
        rintro given t s₃ ⟨hothers, hplaced⟩
        refine ⟨fun h hne => (hspares _ h hne).append (hothers h hne), fun hgiven => ?_⟩
        rw [← List.append_assoc]
        exact hplaced hgiven
      · rw [if_neg hfailed]
        refine Run.obeys_pure ⟨fun h hne => ?_, fun _ => ?_⟩
        · exact hspares _ h hne
        · exact ⟨past, effect, [], by simp, hadded, Bool.eq_false_iff.mpr hfailed, spares_nil⟩

theorem obeys_place (hfleet : fleet.DescribesAsked) (hin : host ∈ transfer)
    (hverified : Verified fleet settings start transfer host past) (s : σ) :
    (place policy host : Run fleet Placement).obeys (MayCall fleet settings start transfer) past
      (fun placement t _ => (∀ h, h ≠ host → Spares h t) ∧
        (placement = .placed → Placed host (past ++ t))) s := by
  rw [place]
  refine Run.obeys_bind (Run.obeys_call ⟨HostSet.singleton_ne_empty host,
    HostSet.singleton_subset hin, hverified⟩ fun descriptor s₁ hreply => ?_)
  -- a descriptor of another host would be added without a look at its lock
  have hhost : descriptor.host = host := hfleet host s descriptor s₁ hreply
  have hadd : MayCall fleet settings start transfer
      (past ++ [⟨.fetchDescriptor host, .ok descriptor⟩]) (.add descriptor) := by
    refine ⟨HostSet.singleton_ne_empty _, HostSet.singleton_subset (hhost ▸ hin), ?_⟩
    show Verified fleet settings start transfer descriptor.host _
    rw [hhost]
    exact hverified.append
  refine Run.obeys_bind (Run.obeys_call hadd fun effect s₂ _ => ?_)
  have hspares : ∀ h, h ≠ host → Spares h [⟨.fetchDescriptor host, .ok descriptor⟩,
      ⟨.add descriptor, .ok effect⟩] := by
    intro h hne
    have hfetch : Spares h [⟨.fetchDescriptor host, .ok descriptor⟩] :=
      spares_singleton (by simp) (by simp)
    refine hfetch.append (spares_singleton (by simp) fun d heq hd => hne ?_)
    rw [← hd, ← Call.add.inj heq, hhost]
  by_cases hfailed : Effect.isFailed effect = true
  · rw [if_pos hfailed]
    exact Run.obeys_pure ⟨hspares, by simp⟩
  · rw [if_neg hfailed]
    have hadded : Added host (past ++ [⟨.fetchDescriptor host, .ok descriptor⟩] ++
        [⟨.add descriptor, .ok effect⟩]) :=
      ⟨past, descriptor, effect, [], by simp, hhost, Bool.eq_false_iff.mpr hfailed, by simp⟩
    refine Run.obeys_bind ((obeys_assign _ _ hin hverified.append.append hadded s₂).mono ?_)
    rintro given t s₃ ⟨hothers, hplaced⟩
    have hall : ∀ h, h ≠ host → Spares h (⟨.fetchDescriptor host, .ok descriptor⟩ ::
        ⟨.add descriptor, .ok effect⟩ :: t) :=
      fun h hne => (hspares h hne).append (hothers h hne)
    cases given with
    | true =>
        refine Run.obeys_pure ⟨fun h hne => by simpa using hall h hne, fun _ => ?_⟩
        simpa using hplaced rfl
    | false =>
        refine Run.obeys_pure ⟨fun h hne => by simpa using hall h hne, by simp⟩

/-- At the end of a relocation each host that made it is placed: those after it spared it. -/
theorem obeys_all (hfleet : fleet.DescribesAsked) {hosts : List Host} (hnodup : hosts.Nodup)
    (hin : ∀ h ∈ hosts, h ∈ transfer ∧ Verified fleet settings start transfer h past) (s : σ) :
    (all policy hosts : Run fleet Relocation).obeys (MayCall fleet settings start transfer) past
      (fun r t _ => (∀ h, ¬ h ∈ hosts → Spares h t) ∧
        ∀ h ∈ r.succeeded, h ∈ hosts ∧ Placed h (past ++ t)) s := by
  induction hosts generalizing past s with
  | nil => exact Run.obeys_pure ⟨fun _ _ => spares_nil, fun h hh => absurd hh (HostSet.notMem_empty h)⟩
  | cons host hosts ih =>
      obtain ⟨hhost, hrest⟩ := List.nodup_cons.mp hnodup
      obtain ⟨htransfer, hverified⟩ := hin host List.mem_cons_self
      rw [all]
      refine Run.obeys_bind ((obeys_place hfleet htransfer hverified s).mono ?_)
      rintro placement t s₁ ⟨hothers, hplaced⟩
      -- no host comes twice, so the hosts after this one leave it as it is
      have hin' : ∀ h ∈ hosts, h ∈ transfer ∧ Verified fleet settings start transfer h (past ++ t) :=
        fun h hh => ⟨(hin h (List.mem_cons_of_mem _ hh)).1,
          (hin h (List.mem_cons_of_mem _ hh)).2.append⟩
      refine Run.obeys_bind ((ih hrest hin' s₁).mono ?_)
      rintro r t' s₂ ⟨hothers', hsucceeded⟩
      refine Run.obeys_pure ⟨fun h hh => ?_, fun h hh => ?_⟩
      · have hne : h ≠ host := fun heq => hh (heq ▸ List.mem_cons_self)
        have hout : ¬ h ∈ hosts := fun hmem => hh (List.mem_cons_of_mem _ hmem)
        rw [List.append_nil]
        exact (hothers h hne).append (hothers' h hout)
      · rw [List.append_nil, ← List.append_assoc]
        have hgroup : h = host ∧ Placement.placed = placement ∨ h ∈ r.group .placed :=
          mem_group_note.mp hh
        rcases hgroup with ⟨rfl, hp⟩ | hr
        · exact ⟨List.mem_cons_self, (hplaced hp.symm).append (hothers' h hhost)⟩
        · obtain ⟨hmem, hp⟩ := hsucceeded h hr
          exact ⟨List.mem_cons_of_mem _ hmem, hp⟩

end Relocation

/-! ## Renaming -/

namespace Renaming

variable {policy : RetryPolicy}

theorem obeys_attempts (left made : Nat) {remaining : HostSet} (hsub : remaining ⊆ transfer)
    (hplaced : ∀ h ∈ remaining, Verified fleet settings start transfer h past ∧ Placed h past)
    (s : σ) :
    (attempts policy left made remaining : Run fleet HostSet).obeys
      (MayCall fleet settings start transfer) past (fun _ _ _ => True) s := by
  induction left generalizing made remaining past s with
  | zero => exact Run.obeys_pure trivial
  | succ left ih =>
      rw [attempts_succ]
      by_cases hempty : remaining.isEmpty = true
      · rw [if_pos hempty]
        exact Run.obeys_pure trivial
      · rw [if_neg hempty]
        have hne : remaining ≠ ∅ := fun he => hempty (HostSet.isEmpty_iff.mpr he)
        refine Run.obeys_pause fun s₁ => ?_
        refine Run.obeys_bind (Run.obeys_call ⟨hne, hsub, rfl, hplaced⟩ fun answer s₂ _ => ?_)
        -- hosts that are asked for again are placed as they were: nobody was added in between
        have hspares : ∀ h, Spares h [⟨.rename remaining .moved, .ok answer⟩] :=
          fun h => spares_singleton (by simp) (by simp)
        refine ih (made + 1) (fun h hh => hsub h (HostSet.mem_sdiff.mp hh).1) (fun h hh => ?_) s₂
        obtain ⟨hv, hp⟩ := hplaced h (HostSet.mem_sdiff.mp hh).1
        exact ⟨hv.append, hp.append (hspares h)⟩

end Renaming

/-! ## The whole pass -/

namespace Pass

variable {checked : CheckedSettings} {locked : HostSet}

/-- The hosts that a pass was told are locked: they are of the transfer group and verified. -/
def Cleared (fleet : Fleet σ) (settings : Settings) (start : σ) (transfer locked : HostSet)
    (past : List Exchange) : Prop :=
  ∀ h ∈ locked, h ∈ transfer ∧ Verified fleet settings start transfer h past

theorem Cleared.append (hc : Cleared fleet settings start transfer locked past) :
    Cleared fleet settings start transfer locked (past ++ later) :=
  fun h hh => ⟨(hc h hh).1, (hc h hh).2.append⟩

theorem obeys_move (hfleet : fleet.DescribesAsked) {hosts : HostSet} (hsub : hosts ⊆ locked)
    (hcleared : Cleared fleet settings start transfer locked past) (s : σ) :
    (move checked hosts : Run fleet Duts).obeys (MayCall fleet settings start transfer) past
      (fun duts _ _ => duts.stuckAfterLock ⊆ locked) s := by
  have hobeys : (move checked hosts : Run fleet Duts).obeys (MayCall fleet settings start transfer)
      past (fun _ _ _ => True) s := by
    by_cases hempty : hosts = ∅
    · rw [hempty, move_empty]
      exact Run.obeys_pure trivial
    · rw [move_of_ne hempty]
      refine Run.obeys_bind ((Relocation.obeys_all hfleet hosts.nodup_toList
        (fun h hh => hcleared h (hsub h hh)) s).mono ?_)
      rintro r t s₁ ⟨-, hsucceeded⟩
      have hplaced : ∀ h ∈ r.succeeded,
          Verified fleet settings start transfer h (past ++ t) ∧ Placed h (past ++ t) := by
        intro h hh
        obtain ⟨hmem, hp⟩ := hsucceeded h hh
        exact ⟨(hcleared h (hsub h hmem)).2.append, hp⟩
      have htransfer : r.succeeded ⊆ transfer :=
        fun h hh => (hcleared h (hsub h (hsucceeded h hh).1)).1
      refine Run.obeys_bind ((Renaming.obeys_attempts _ 0 htransfer hplaced s₁).mono ?_)
      exact fun _ _ _ _ => Run.obeys_pure trivial
  -- that only these hosts can be stuck is known from the journal
  refine hobeys.and_yields (yields_move hosts s) ?_
  rintro duts t s' - ⟨j, -, hhosts, htold, hrest⟩ h hh
  by_contra hout
  have hnone : duts.Reports h none := hrest h fun hmem => hout (hsub h hmem)
  obtain ⟨stage, hstage, -⟩ := hnone.mem_stuckAfterLock.mp hh
  exact nomatch hstage

/-- A poll asks about the hosts that are waited for and moves some of them. -/
theorem obeys_poll (hfleet : fleet.DescribesAsked)
    (hcleared : Cleared fleet settings start transfer locked past) {w : Waiting}
    (hwatched : w.monitor.watched ⊆ locked) (hstuck : w.duts.stuckAfterLock ⊆ locked)
    (hover : w.monitor.isOver = false) (s : σ) :
    (poll checked w : Run fleet Waiting).obeys (MayCall fleet settings start transfer) past
      (fun w' _ _ => w'.monitor.watched ⊆ locked ∧ w'.duts.stuckAfterLock ⊆ locked) s := by
  -- the loop ends before it would ask about no hosts
  have hne : w.monitor.watched ≠ ∅ := by
    intro he
    rw [Readiness.isOver_iff.mpr he] at hover
    exact nomatch hover
  rw [poll]
  refine Run.obeys_bind (Run.obeys_call ⟨hne, fun h hh => (hcleared h (hwatched h hh)).1, trivial⟩
    fun rows s₁ _ => ?_)
  have hready : (w.monitor.poll rows).1.ready ⊆ locked :=
    fun h hh => hwatched h (Readiness.mem_watched_of_mem_ready hh)
  refine Run.obeys_bind ((obeys_move hfleet hready hcleared.append s₁).mono ?_)
  intro moved t s₂ hmoved
  refine Run.obeys_pure ⟨fun h hh => hwatched h (Readiness.mem_watched_poll.mp hh).1, fun h hh => ?_⟩
  rcases Duts.mem_stuckAfterLock_merge.mp hh with hh | hh
  · exact hstuck h hh
  · exact hmoved h hh

theorem obeys_firstRound (hfleet : fleet.DescribesAsked)
    (hcleared : Cleared fleet settings start transfer locked past) {duts : Duts}
    (hstuck : duts.stuckAfterLock ⊆ locked) (s : σ) :
    (firstRound checked locked duts : Run fleet (HostSet × Duts)).obeys
      (MayCall fleet settings start transfer) past
      (fun r _ _ => r.1 ⊆ locked ∧ r.2.stuckAfterLock ⊆ locked) s := by
  by_cases himmediate : checked.migrateImmediately = true
  · rw [firstRound_immediately himmediate]
    refine Run.obeys_bind ((obeys_move hfleet (fun h hh => hh) hcleared s).mono ?_)
    intro moved t s₁ hmoved
    refine Run.obeys_pure ⟨fun h hh => absurd hh (HostSet.notMem_empty h), fun h hh => ?_⟩
    rcases Duts.mem_stuckAfterLock_merge.mp hh with hh | hh
    · exact hstuck h hh
    · exact hmoved h hh
  · rw [firstRound_waiting (Bool.eq_false_iff.mpr himmediate)]
    refine Run.obeys_bind (Run.obeys_now (Run.obeys_bind ?_))
    refine (Run.obeys_repeatUntil (fun (w : Waiting) _ =>
      w.monitor.watched ⊆ locked ∧ w.duts.stuckAfterLock ⊆ locked) ?_ ?_).mono ?_
    · rintro w t s₁ ⟨hwatched, hstuck⟩ hover
      exact obeys_poll hfleet (Cleared.append (Cleared.append hcleared)) hwatched hstuck hover s₁
    · refine ⟨?_, hstuck⟩
      show (Readiness.watch locked checked.minReadyIntervals).watched ⊆ locked
      rw [Readiness.watched_watch]
      exact fun h hh => hh
    · intro w t s₁ hw
      exact Run.obeys_pure hw

theorem obeys_secure (transfer : HostSet) (s : σ) :
    (secure checked transfer : Run fleet StepResult).obeys (fun _ call => Locks transfer call) past
      (fun _ _ _ => True) s := by
  by_cases hempty : transfer = ∅
  · rw [hempty, secure_empty]
    exact Run.obeys_pure trivial
  · rw [secure_of_ne hempty, Locking.run_of_reason checked.tries_everything.1]
    refine Run.obeys_bind ((Locking.obeys_attempts _ 0 ∅ (fun h hh => hh) s).mono ?_)
    intro _ t s₁ _
    refine Run.obeys_bind (Run.obeys_call ⟨hempty, fun h hh => hh, trivial⟩ fun rows s₂ _ => ?_)
    exact Run.obeys_pure trivial

theorem obeys_execute (hfleet : fleet.DescribesAsked) (plan : Plan) (s : σ) :
    (execute checked plan : Run fleet Summary).obeys
      (MayCall fleet checked.toSettings s plan.transfer) [] (fun _ _ _ => True) s := by
  have hsecure : (secure checked plan.transfer : Run fleet StepResult).obeys
      (MayCall fleet checked.toSettings s plan.transfer) [] (fun _ _ _ => True) s :=
    (obeys_secure plan.transfer s).imp fun _ _ hlocks => hlocks.mayCall
  rw [execute]
  refine Run.obeys_bind (hsecure.and_yields (yields_secure plan.transfer s) ?_)
  rintro r t s₁ - ⟨seen, rfl, hverified⟩
  have hcleared : Cleared fleet checked.toSettings s plan.transfer
      (StepResult.split plan.transfer seen).succeeded ([] ++ exchanges t) := by
    intro h hh
    obtain ⟨htransfer, hseen⟩ := HostSet.mem_inter.mp hh
    obtain ⟨locking, attempted, s', time, rows, hrun, rfl, rfl⟩ := hverified h htransfer
    refine ⟨htransfer, attempted, locking, s', rows, [], hrun, by simp, ?_⟩
    exact (Locking.mem_lockedAmong.mp hseen).2
  -- only failed locks are reported so far, and the sweep leaves those alone
  have hnone : ({ notLocked := (StepResult.split plan.transfer seen).failed } : Duts).stuckAfterLock ⊆
      (StepResult.split plan.transfer seen).succeeded :=
    fun h hh => absurd hh (by simp [Duts.stuckAfterLock])
  refine Run.obeys_bind ((obeys_firstRound hfleet hcleared hnone s₁).mono ?_)
  rintro ⟨waiting, duts⟩ t' s₂ ⟨hwaiting, hstuck⟩
  refine Run.obeys_bind ?_
  rw [sweep]
  have hleft : waiting ∪ duts.stuckAfterLock ⊆ (StepResult.split plan.transfer seen).succeeded := by
    intro h hh
    rcases HostSet.mem_union.mp hh with hh | hh
    · exact hwaiting h hh
    · exact hstuck h hh
  refine Run.obeys_bind ((obeys_move hfleet hleft hcleared.append s₂).mono fun _ _ _ _ => ?_)
  exact Run.obeys_pure (Run.obeys_pure trivial)

section

variable {source : Planner} {hosts : HostSet} {previous : Option Summary} {s : σ}

theorem mem_candidates (hh : h ∈ candidates hosts previous) :
    h ∈ hosts ∧ ∀ summary, previous = some summary → ¬ h ∈ summary.duts.migrated := by
  cases previous with
  | none => exact ⟨hh, fun summary hs => nomatch hs⟩
  | some before =>
      obtain ⟨hin, hout⟩ := HostSet.mem_sdiff.mp hh
      refine ⟨hin, fun summary hs => ?_⟩
      cases hs
      exact hout

/-- Before there is a plan a pass calls nobody, and then it keeps to what is allowed for that
    plan. -/
theorem obeys_run (hfleet : fleet.DescribesAsked) :
    (run source settings hosts previous : Run fleet Summary).obeys
      (fun past call => ∃ plan, source (candidates hosts previous) settings.ratio = .ok plan ∧
        MayCall fleet settings s plan.transfer past call) [] (fun _ _ _ => True) s := by
  rw [run]
  refine Run.obeys_bind (Run.obeys_ofExcept fun checked hchecked => ?_)
  refine Run.obeys_bind (Run.obeys_plan fun plan hplan => ?_)
  have hsettings : checked.toSettings = settings := Settings.toSettings_of_check hchecked
  refine ((obeys_execute hfleet plan s).imp fun past call hmay => ?_)
  rw [hsettings] at hplan hmay
  exact ⟨plan, hplan, hmay⟩

/-- Whatever a pass asks is allowed after what it asked before: it names hosts of the transfer
    group, which are hosts of the pass that had not moved, and nothing is done to a host too
    early. -/
theorem calls_allowed (hsource : source.Provided) (hfleet : fleet.DescribesAsked)
    {earlier later : List Exchange} {x : Exchange}
    (htrace : exchanges ((run source settings hosts previous : Run fleet Summary).run s).trace =
      earlier ++ x :: later) :
    ∃ plan, source (candidates hosts previous) settings.ratio = .ok plan ∧
      (∀ h ∈ plan.transfer, h ∈ hosts ∧
        ∀ summary, previous = some summary → ¬ h ∈ summary.duts.migrated) ∧
      MayCall fleet settings s plan.transfer earlier x.1 := by
  have hrun : (run source settings hosts previous : Run fleet Summary).obeys _ [] _ s :=
    obeys_run hfleet
  have hobeys := hrun.trace
  rw [htrace] at hobeys
  obtain ⟨plan, hplan, hmay⟩ := hobeys.rule_of_split
  refine ⟨plan, hplan, fun h hh => ?_, hmay⟩
  exact mem_candidates (hsource.transfer_subset hplan h hh)

end

/-- A pass after one that moved `e`, on the fleet that answers wrongly. -/
def unsteadyAgain : Run unsteadyFleet Summary :=
  run (.fixed (.movingAll (unsteadyHosts.insert "e"))) briefSettings (unsteadyHosts.insert "e")
    (some (.ofDuts (.movingAll (.ofList ["e"])) { migrated := .ofList ["e"] }))

theorem describesAsked_memory : Memory.fleet.DescribesAsked := by
  intro host m descriptor m' hreply
  have hanswer : (Memory.reply (.fetchDescriptor host) m).1 = .ok descriptor :=
    congrArg Prod.fst hreply
  rw [Memory.reply] at hanswer
  cases hhost : m.host? host with
  | none =>
      simp only [hhost] at hanswer
      cases hanswer
  | some found =>
      simp only [hhost] at hanswer
      split at hanswer
      · cases hanswer
      · rw [← Except.ok.inj hanswer]
        rfl

theorem describesAsked_unsteady : unsteadyFleet.DescribesAsked := by
  intro host s descriptor s' hreply
  -- no answer about descriptors is replaced
  have hanswer : (Memory.reply (.fetchDescriptor host) s.inner).1 = .ok descriptor :=
    congrArg Prod.fst hreply
  exact describesAsked_memory host s.inner descriptor _ (Prod.ext hanswer rfl)

/-- The sweep asks to rename the hosts that it placed, one of which failed before. -/
theorem calls_allowed_unsteady : ∃ earlier x later, ∃ plan : Plan,
    exchanges (unsteadyAgain.run unsteadyStart).trace = earlier ++ x :: later ∧
    x.1 = .rename (.ofList ["a", "b"]) .moved ∧ ¬ "e" ∈ plan.transfer ∧
    MayCall unsteadyFleet briefSettings unsteadyStart plan.transfer earlier x.1 := by
  have hasked : ∃ x ∈ exchanges (unsteadyAgain.run unsteadyStart).trace,
      x.1 = .rename (.ofList ["a", "b"]) .moved := by
    decide +kernel
  obtain ⟨x, hx, hcall⟩ := hasked
  obtain ⟨earlier, later, htrace⟩ := List.append_of_mem hx
  obtain ⟨plan, -, hplan, hmay⟩ := calls_allowed (.fixed _) describesAsked_unsteady htrace
  refine ⟨earlier, x, later, plan, htrace, hcall, fun he => ?_, hmay⟩
  exact (hplan "e" he).2 _ rfl (by decide +kernel)

end Pass

end Rehome
