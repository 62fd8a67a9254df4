import Rehome.Proofs.MemoryState

/-!
# Changes — what a run over a fleet in memory comes to

Many runs over a fleet in memory can be told from the state that they begin in: how they end, which
hosts they get to, and how these are changed (`Run.Does`). The change is the same for all the hosts
that a run gets to and does not count the looks that were taken at them (`Memory.Changed`). Changes in
a row are one change, if the later ones add nothing where an earlier one was made; that is what the
laws of the steps below are put together by.
-/

namespace Rehome

/-- A host apart from the looks at it that are to come. -/
def MemoryHost.still (h : MemoryHost) : MemoryHost := { h with busy := [] }

variable {f g : MemoryHost → MemoryHost} {names more : HostSet} {m m₁ m₂ : Memory} {n : Host}

namespace Memory

/-! ## Changed states -/

/-- A host by its name, apart from the looks at it that are to come. -/
def still? (m : Memory) (n : Host) : Option MemoryHost := (m.host? n).map MemoryHost.still

/-- Up to looks, the hosts of a set were changed in one way, and all others were left alone. -/
structure Changed (f : MemoryHost → MemoryHost) (names : HostSet) (m m' : Memory) : Prop where
  others : ∀ n, ¬ n ∈ names → m'.host? n = m.host? n
  changed : ∀ n ∈ names, m'.still? n = (m.still? n).map f

theorem changed_updateAll (hf : ∀ h, (g h).still = f h.still) (m : Memory) (names : HostSet) :
    Changed f names m (m.updateAll names g) := by
  refine ⟨fun n hn => ?_, fun n hn => ?_⟩
  · rw [host?_updateAll]
    simp [hn]
  · rw [still?, still?, host?_updateAll]
    cases m.host? n with
    | none => rfl
    | some h => simp [hn, hf]

theorem changed_of_same (hf : ∀ h, f h = h) (names : HostSet) (m : Memory) :
    Changed f names m m := by
  refine ⟨fun _ _ => rfl, fun n _ => ?_⟩
  rw [funext hf]
  exact Option.map_id'.symm

theorem changed_empty (f : MemoryHost → MemoryHost) (m : Memory) : Changed f ∅ m m :=
  ⟨fun _ _ => rfl, fun n hn => absurd hn (HostSet.notMem_empty n)⟩

theorem host?_paused {t : List Event} (hpause : Run.Paused fleet m t m₁) (n : Host) :
    m₁.host? n = m.host? n := by
  cases hpause with
  | not => rfl
  | slept span => exact host?_sleep m span n

namespace Changed

/-- Waiting before a change does not show in it. -/
theorem of_paused {t : List Event} (hpause : Run.Paused fleet m t m₁) (h : Changed f names m₁ m₂) :
    Changed f names m m₂ := by
  refine ⟨fun n hn => (h.others n hn).trans (host?_paused hpause n), fun n hn => ?_⟩
  rw [h.changed n hn, still?, still?, host?_paused hpause]

theorem still?_others (h : Changed f names m m₁) (hn : ¬ n ∈ names) : m₁.still? n = m.still? n :=
  congrArg (Option.map MemoryHost.still) (h.others n hn)

theorem map_again (hg : ∀ h, g (f h) = f h) (found : Option MemoryHost) :
    (found.map f).map g = found.map f := by
  rw [Option.map_map]
  exact congrFun (congrArg Option.map (funext hg)) found

/-- Two changes to the same hosts. -/
theorem comp (h₁ : Changed f names m m₁) (h₂ : Changed g names m₁ m₂) :
    Changed (fun h => g (f h)) names m m₂ := by
  refine ⟨fun n hn => ?_, fun n hn => ?_⟩
  · rw [h₂.others n hn, h₁.others n hn]
  · rw [h₂.changed n hn, h₁.changed n hn, Option.map_map]
    rfl

/-- A second change, to some of the hosts, that makes no difference after the first. -/
theorem absorb (h₁ : Changed f names m m₁) (h₂ : Changed g more m₁ m₂)
    (hsub : more ⊆ names) (hg : ∀ h, g (f h) = f h) : Changed f names m m₂ := by
  refine ⟨fun n hn => ?_, fun n hn => ?_⟩
  · rw [h₂.others n fun hmore => hn (hsub n hmore), h₁.others n hn]
  · by_cases hmore : n ∈ more
    · rw [h₂.changed n hmore, h₁.changed n hn, map_again hg]
    · rw [h₂.still?_others hmore, h₁.changed n hn]

/-- The same change to some hosts and then to others. -/
theorem union (h₁ : Changed f names m m₁) (h₂ : Changed f more m₁ m₂)
    (hf : ∀ h, f (f h) = f h) : Changed f (names ∪ more) m m₂ := by
  refine ⟨fun n hn => ?_, fun n hn => ?_⟩
  · rw [HostSet.mem_union, not_or] at hn
    rw [h₂.others n hn.2, h₁.others n hn.1]
  · by_cases hmore : n ∈ more
    · rw [h₂.changed n hmore]
      by_cases hnames : n ∈ names
      · rw [h₁.changed n hnames, map_again hf]
      · rw [h₁.still?_others hnames]
    · have hnames : n ∈ names := (HostSet.mem_union.mp hn).resolve_right hmore
      rw [h₂.still?_others hmore, h₁.changed n hnames]

/-- The change matters only for hosts that there are. -/
theorem congr (h : Changed f names m m₁)
    (hsame : ∀ n ∈ names, ∀ k, m.host? n = some k → f k.still = g k.still) :
    Changed g names m m₁ := by
  refine ⟨h.others, fun n hn => ?_⟩
  rw [h.changed n hn, still?]
  cases hk : m.host? n with
  | none => rfl
  | some k => exact congrArg some (hsame n hn k hk)

/-- Whether a host passes a test that sees neither looks nor the change stays as it is. -/
theorem any_eq (h : Changed f names m m₁) {p : MemoryHost → Bool} (hstill : ∀ k, p k.still = p k)
    (hp : ∀ k, p (f k) = p k) (n : Host) : (m₁.host? n).any p = (m.host? n).any p := by
  have hany : ∀ m : Memory, (m.still? n).any p = (m.host? n).any p := by
    intro m
    rw [still?, Option.any_map]
    exact congrArg (fun q => (m.host? n).any q) (funext hstill)
  rw [← hany, ← hany]
  by_cases hn : n ∈ names
  · rw [h.changed n hn, Option.any_map]
    exact congrArg (fun q => (m.still? n).any q) (funext hp)
  · rw [h.still?_others hn]

end Changed

/-! ## Hosts that pass a test -/

variable {p : MemoryHost → Bool}

/-- Of a set, the hosts that exist and pass a test, if there is an attempt at all. -/
def passing (m : Memory) (p : MemoryHost → Bool) (tries : Nat) (hosts : HostSet) : HostSet :=
  hosts.filter fun n => decide (0 < tries) && (m.host? n).any p

theorem mem_passing {tries : Nat} {hosts : HostSet} :
    n ∈ m.passing p tries hosts ↔ n ∈ hosts ∧ 0 < tries ∧ (m.host? n).any p = true := by
  rw [passing, HostSet.mem_filter, Bool.and_eq_true, decide_eq_true_eq]

theorem passing_zero (m : Memory) (p : MemoryHost → Bool) (hosts : HostSet) :
    m.passing p 0 hosts = ∅ :=
  HostSet.eq_empty_iff.mpr fun _ hn => Nat.lt_irrefl 0 (mem_passing.mp hn).2.1

theorem passing_empty (m : Memory) (p : MemoryHost → Bool) (tries : Nat) :
    m.passing p tries ∅ = ∅ := rfl

/-- What does not pass in one attempt does not pass in others. -/
theorem passing_sdiff (m : Memory) (p : MemoryHost → Bool) (left : Nat) (hosts : HostSet) :
    m.passing p left (hosts \ m.passing p (left + 1) hosts) = ∅ := by
  refine HostSet.eq_empty_iff.mpr fun n hn => ?_
  obtain ⟨hrest, -, hp⟩ := mem_passing.mp hn
  obtain ⟨hhosts, hnot⟩ := HostSet.mem_sdiff.mp hrest
  exact hnot (mem_passing.mpr ⟨hhosts, Nat.succ_pos left, hp⟩)

theorem inter_passing (m : Memory) (p : MemoryHost → Bool) (tries : Nat) (hosts : HostSet) :
    hosts ∩ m.passing p tries hosts = m.passing p tries hosts := by
  ext n
  rw [HostSet.mem_inter]
  exact and_iff_right_of_imp fun hn => (mem_passing.mp hn).1

theorem passing_paused {t : List Event} (hpause : Run.Paused fleet m t m₁) (p : MemoryHost → Bool)
    (tries : Nat) (hosts : HostSet) : m₁.passing p tries hosts = m.passing p tries hosts := by
  rw [passing, passing]
  simp only [host?_paused hpause]

theorem Changed.passing_eq (h : Changed f names m m₁) (hstill : ∀ k, p k.still = p k)
    (hp : ∀ k, p (f k) = p k) (tries : Nat) (hosts : HostSet) :
    m₁.passing p tries hosts = m.passing p tries hosts := by
  rw [passing, passing]
  simp only [h.any_eq hstill hp]

end Memory

/-! ## Runs that can be told from the state that they begin in -/

open Memory (Changed)

namespace Run

variable {α β : Type} {x : Run Memory.fleet α}

/-- A run over a fleet in memory ends with a result or an error that is told, and all that it does is
    to change some hosts in one way. -/
def Does (x : Run Memory.fleet α) (result : Except PassError α) (f : MemoryHost → MemoryHost)
    (names : HostSet) (m : Memory) : Prop :=
  x.ends (fun a m' => result = .ok a ∧ Changed f names m m')
    (fun e m' => result = .error e ∧ Changed f names m m') m

namespace Does

variable {result : Except PassError α} {post : α → Memory → Prop} {crash : PassError → Memory → Prop}

theorem spec (h : x.Does result f names m) :
    (x.run m).result = result ∧ Changed f names m (x.run m).state := by
  rcases ends.cases h with ⟨a, ha, hresult, hchanged⟩ | ⟨e, he, hresult, hchanged⟩
  · exact ⟨ha.trans hresult.symm, hchanged⟩
  · exact ⟨he.trans hresult.symm, hchanged⟩

theorem imp (h : x.Does result f names m)
    (hpost : ∀ a m', result = .ok a → Changed f names m m' → post a m')
    (hcrash : ∀ e m', result = .error e → Changed f names m m' → crash e m') :
    x.ends post crash m := by
  have hwp : x.wp (fun a _ m' => result = .ok a ∧ Changed f names m m')
      (fun e _ m' => result = .error e ∧ Changed f names m m') m := h
  exact hwp.mono (fun a _ m' h => hpost a m' h.1 h.2) fun e _ m' h => hcrash e m' h.1 h.2

/-- What was done before a run counts with what it does. -/
theorem onwards (h : x.Does result f names m₁)
    (hchanged : ∀ m', Changed f names m₁ m' → Changed g more m m') :
    x.ends (fun a m' => result = .ok a ∧ Changed g more m m')
      (fun e m' => result = .error e ∧ Changed g more m m') m₁ :=
  h.imp (fun _ m' ha h => ⟨ha, hchanged m' h⟩) fun _ m' he h => ⟨he, hchanged m' h⟩

/-- What follows on a run that ends with a result. -/
theorem bind {a : α} {y : α → Run Memory.fleet β} {post : β → Memory → Prop}
    (h : x.Does (.ok a) f names m)
    (hy : ∀ m₁, Changed f names m m₁ → (y a).ends post crash m₁) : (x >>= y).ends post crash m := by
  refine ends_bind (h.imp (fun b m₁ hb hchanged => ?_) fun e m₁ he _ => nomatch he)
  cases hb
  exact hy m₁ hchanged

/-- Nothing follows on a run that ends with an error. -/
theorem bind_error {e : PassError} {y : α → Run Memory.fleet β} (h : x.Does (.error e) f names m) :
    (x >>= y).Does (.error e) f names m := by
  refine ends_bind (h.imp (fun a m₁ ha _ => nomatch ha) fun e' m₁ he hchanged => ?_)
  cases he
  exact ⟨rfl, hchanged⟩

theorem map (h : x.Does result f names m) (k : α → β) :
    (x >>= fun a => Pure.pure (k a) : Run Memory.fleet β).Does (result.map k) f names m := by
  cases result with
  | ok a => exact h.bind fun m₁ hchanged => ends_pure ⟨rfl, hchanged⟩
  | error e => exact h.bind_error

end Does

end Run

end Rehome
