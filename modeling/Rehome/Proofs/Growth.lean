import Mathlib.Tactic.Ring
import Rehome.Retry

/-!
# Growth — how the waits of a policy grow

The wait after an attempt is the first wait times a power of the coefficient, as long as the power
fits into 32 bits, the product into a span of time and the wait below the maximum
(`RetryPolicy.nanos_waitAfter`). With a coefficient of at least one it never gets shorter.

A machine finds it with words of 32 and 64 bits: the power by repeated squaring, the product for
seconds and nanoseconds apart, with what is beyond whole seconds carried over. Below, a product that
does not fit is given up at once, wherever it occurs (`Words.raise?`, `Duration.Parts.times?`). No
product is given up whose result would have fitted in the end, and what is left to wrap around never
does, so the words come to the same wait (`RetryPolicy.duration_waitInWords`).
-/

namespace Rehome

/-! ## In numbers -/

namespace RetryPolicy

/-- The power that is not computed for large exponents is the whole power as far as it shows. -/
theorem multiplier_eq (coefficient exponent : Nat) :
    multiplier coefficient exponent = min (coefficient ^ exponent) multiplierCap := by
  show min (coefficient ^ min exponent 32) multiplierCap = _
  rcases Nat.lt_or_ge 32 exponent with hlt | hle
  · rw [Nat.min_eq_right (Nat.le_of_lt hlt)]
    rcases Nat.lt_or_ge coefficient 2 with hsmall | hlarge
    · -- no power of zero or one grows
      have hcases : coefficient = 0 ∨ coefficient = 1 := by omega
      rcases hcases with rfl | rfl
      · rw [Nat.zero_pow (by omega), Nat.zero_pow (by omega)]
      · rw [Nat.one_pow, Nat.one_pow]
    · have hcap : multiplierCap ≤ coefficient ^ 32 :=
        calc multiplierCap ≤ 2 ^ 32 := by decide
          _ ≤ coefficient ^ 32 := Nat.pow_le_pow_left hlarge 32
      have hlater : coefficient ^ 32 ≤ coefficient ^ exponent :=
        Nat.pow_le_pow_right (by omega) (by omega)
      rw [Nat.min_eq_right hcap, Nat.min_eq_right (Nat.le_trans hcap hlater)]
  · rw [Nat.min_eq_left hle]

/-- A number of nanoseconds, or the maximum if there is a smaller one. -/
def cut (maximum : Option Duration) (nanos : Nat) : Nat :=
  match maximum with
  | some longest => min nanos longest.nanos
  | none => nanos

theorem cut_le_cut {maximum : Option Duration} {m n : Nat} (hmn : m ≤ n) :
    cut maximum m ≤ cut maximum n := by
  cases maximum with
  | none => exact hmn
  | some longest =>
      show min m longest.nanos ≤ min n longest.nanos
      omega

theorem nanos_waitAfter (policy : RetryPolicy) (attempt : Nat) :
    (policy.waitAfter attempt).nanos = cut policy.maximum
      (min (policy.initial.nanos * min (policy.backoff ^ (attempt - 1)) multiplierCap)
        Duration.maxNanos) := by
  rw [← multiplier_eq, waitAfter]
  cases policy.maximum with
  | none => rfl
  | some longest => exact Duration.nanos_shorter _ _

theorem nanos_waitAfter_le_maximum {policy : RetryPolicy} {longest : Duration}
    (hmaximum : policy.maximum = some longest) (attempt : Nat) :
    (policy.waitAfter attempt).nanos ≤ longest.nanos := by
  rw [nanos_waitAfter, hmaximum]
  exact Nat.min_le_right _ _

theorem nanos_waitAfter_mono {policy : RetryPolicy} (hbackoff : 1 ≤ policy.backoff)
    {attempt later : Nat} (hle : attempt ≤ later) :
    (policy.waitAfter attempt).nanos ≤ (policy.waitAfter later).nanos := by
  rw [nanos_waitAfter, nanos_waitAfter]
  have hpower : policy.backoff ^ (attempt - 1) ≤ policy.backoff ^ (later - 1) :=
    Nat.pow_le_pow_right hbackoff (by omega)
  have hproduct : policy.initial.nanos * min (policy.backoff ^ (attempt - 1)) multiplierCap ≤
      policy.initial.nanos * min (policy.backoff ^ (later - 1)) multiplierCap :=
    Nat.mul_le_mul_left _ (by omega)
  exact cut_le_cut (by omega)

end RetryPolicy

/-! ## Powers in words -/

namespace Words

/-- The word of 32 bits for a number, if there is one. -/
def word? (n : Nat) : Option UInt32 := if n < UInt32.size then some (.ofNat n) else none

/-- The product of two words, if it fits. -/
def times? (a b : UInt32) : Option UInt32 := word? (a.toNat * b.toNat)

/-- A word times a power of another by repeated squaring, if each product on the way fits. -/
def raise? (base acc : UInt32) (exponent : Nat) : Option UInt32 :=
  if exponent = 0 then some acc
  else if exponent = 1 then times? acc base
  else
    (if exponent % 2 = 1 then times? acc base else some acc).bind fun acc =>
      (times? base base).bind fun square => raise? square acc (exponent / 2)
termination_by exponent
decreasing_by omega

/-- The power of a word, or the largest word. -/
def power (base : UInt32) (exponent : Nat) : UInt32 :=
  (raise? base 1 exponent).getD (.ofNat RetryPolicy.multiplierCap)

theorem word?_of_lt {n : Nat} (hn : n < UInt32.size) : word? n = some (.ofNat n) := if_pos hn

theorem word?_of_le {n : Nat} (hn : UInt32.size ≤ n) : word? n = none := if_neg (Nat.not_lt.mpr hn)

theorem word?_toNat (a : UInt32) : word? a.toNat = some a := by
  rw [word?_of_lt a.toNat_lt_size, UInt32.ofNat_toNat]

/-- With factors of at least one, no product on the way is larger than the last one. -/
theorem size_le_of_overflow {acc base exponent : Nat} (hsize : acc < UInt32.size)
    (hacc : acc = 0 → base = 0) (hexponent : 2 ≤ exponent)
    (hover : UInt32.size ≤ acc * base ^ (exponent % 2) ∨ UInt32.size ≤ base * base) :
    UInt32.size ≤ acc * base ^ exponent := by
  have hbase : 0 < base := by
    rcases Nat.eq_zero_or_pos base with rfl | hpos
    · -- the powers of zero are zero and one
      have hpower : 0 ^ (exponent % 2) ≤ 1 := by
        rcases Nat.mod_two_eq_zero_or_one exponent with hmod | hmod
        · rw [hmod, Nat.pow_zero]
        · rw [hmod, Nat.pow_one]
          exact Nat.zero_le 1
      have hproduct : acc * 0 ^ (exponent % 2) ≤ acc * 1 := Nat.mul_le_mul_left acc hpower
      omega
    · exact hpos
  have hpos : 0 < acc := Nat.pos_of_ne_zero fun hzero => Nat.ne_of_gt hbase (hacc hzero)
  rcases hover with hfirst | hsquare
  · have hpower : base ^ (exponent % 2) ≤ base ^ exponent :=
      Nat.pow_le_pow_right hbase (Nat.mod_le exponent 2)
    exact Nat.le_trans hfirst (Nat.mul_le_mul_left acc hpower)
  · have hpower : base ^ 2 ≤ base ^ exponent := Nat.pow_le_pow_right hbase hexponent
    calc UInt32.size ≤ base ^ 2 := by rwa [Nat.pow_two]
      _ ≤ base ^ exponent := hpower
      _ ≤ acc * base ^ exponent := Nat.le_mul_of_pos_left _ hpos

/-- One round of squaring, for the last binary digit of an exponent that has more. -/
theorem raise?_of_two_le (base acc : UInt32) {exponent : Nat} (hexponent : 2 ≤ exponent) :
    raise? base acc exponent =
      (word? (acc.toNat * base.toNat ^ (exponent % 2))).bind fun acc =>
        (times? base base).bind fun square => raise? square acc (exponent / 2) := by
  have hdigit : (if exponent % 2 = 1 then times? acc base else some acc) =
      word? (acc.toNat * base.toNat ^ (exponent % 2)) := by
    rcases Nat.mod_two_eq_zero_or_one exponent with heven | hodd
    · rw [heven, if_neg Nat.zero_ne_one, Nat.pow_zero, Nat.mul_one, word?_toNat]
    · rw [hodd, if_pos rfl, Nat.pow_one, times?]
  rw [raise?, if_neg (by omega), if_neg (by omega), hdigit]

/-- Squaring gives up only on powers that do not fit. -/
theorem raise?_eq {base acc : UInt32} (exponent : Nat) (hacc : acc.toNat = 0 → base.toNat = 0) :
    raise? base acc exponent = word? (acc.toNat * base.toNat ^ exponent) := by
  induction exponent using Nat.strongRecOn generalizing base acc with
  | ind exponent ih =>
      by_cases hzero : exponent = 0
      · rw [raise?, if_pos hzero, hzero, Nat.pow_zero, Nat.mul_one, word?_toNat]
      by_cases hone : exponent = 1
      · rw [raise?, if_neg hzero, if_pos hone, hone, Nat.pow_one, times?]
      have hexponent : 2 ≤ exponent := by omega
      have hsplit : acc.toNat * base.toNat ^ exponent =
          acc.toNat * base.toNat ^ (exponent % 2) * (base.toNat * base.toNat) ^ (exponent / 2) := by
        rw [← Nat.pow_two, ← Nat.pow_mul, Nat.mul_assoc, ← Nat.pow_add, Nat.mod_add_div]
      have hover := size_le_of_overflow acc.toNat_lt_size hacc hexponent
      rw [raise?_of_two_le base acc hexponent, times?]
      by_cases hfirst : acc.toNat * base.toNat ^ (exponent % 2) < UInt32.size
      · rw [word?_of_lt hfirst, Option.bind_some]
        by_cases hsquare : base.toNat * base.toNat < UInt32.size
        · rw [word?_of_lt hsquare, Option.bind_some, ih (exponent / 2) (by omega),
            UInt32.toNat_ofNat_of_lt' hfirst, UInt32.toNat_ofNat_of_lt' hsquare, hsplit]
          -- the new factor is zero only if the base is
          rw [UInt32.toNat_ofNat_of_lt' hfirst, UInt32.toNat_ofNat_of_lt' hsquare]
          intro hproduct
          rcases Nat.mul_eq_zero.mp hproduct with hnone | hpower
          · rw [hacc hnone]
          · rw [(Nat.pow_eq_zero.mp hpower).1]
        · rw [word?_of_le (Nat.le_of_not_lt hsquare), Option.bind_none,
            word?_of_le (hover (.inr (Nat.le_of_not_lt hsquare)))]
      · rw [word?_of_le (Nat.le_of_not_lt hfirst), Option.bind_none,
          word?_of_le (hover (.inl (Nat.le_of_not_lt hfirst)))]

theorem toNat_power (base : UInt32) (exponent : Nat) :
    (power base exponent).toNat = RetryPolicy.multiplier base.toNat exponent := by
  rw [RetryPolicy.multiplier_eq, power, raise?_eq exponent (by simp), UInt32.toNat_one, Nat.one_mul]
  by_cases hfits : base.toNat ^ exponent < UInt32.size
  · rw [word?_of_lt hfits, Option.getD_some, UInt32.toNat_ofNat_of_lt' hfits]
    exact (Nat.min_eq_left (Nat.le_sub_one_of_lt hfits)).symm
  · rw [word?_of_le (Nat.le_of_not_lt hfits), Option.getD_none,
      UInt32.toNat_ofNat_of_lt' (by decide)]
    refine (Nat.min_eq_right ?_).symm
    exact Nat.le_trans (Nat.sub_le _ _) (Nat.le_of_not_lt hfits)

end Words

/-! ## Spans of time in words -/

namespace Duration

/-- A span of time as a machine keeps it: seconds, and nanoseconds that make no whole second. -/
structure Parts where
  secs : UInt64
  nanos : UInt32
  nanos_lt : nanos.toNat < nanosPerSec

namespace Parts

/-- The span of time. -/
def duration (p : Parts) : Duration where
  nanos := p.secs.toNat * nanosPerSec + p.nanos.toNat
  nanos_lt := by
    have hsecs := p.secs.toNat_lt_size
    have hnanos := p.nanos_lt
    unfold nanosPerSec at *
    omega

/-- The longest span. -/
def longest : Parts := ⟨.ofNat (UInt64.size - 1), 999999999, by decide⟩

/-- A span taken a number of times, if it fits. The nanoseconds are multiplied without a check. -/
def times? (p : Parts) (n : UInt32) : Option Parts :=
  let nanos := p.nanos.toUInt64 * n.toUInt64
  let carried := nanos / 1000000000
  if p.secs.toNat * n.toNat < UInt64.size then
    let secs := p.secs * n.toUInt64
    if secs.toNat + carried.toNat < UInt64.size then
      some ⟨secs + carried, (nanos % 1000000000).toUInt32, by
        have hmod := Nat.mod_lt nanos.toNat (show 0 < 1000000000 by decide)
        rw [UInt64.toNat_toUInt32, UInt64.toNat_mod]
        exact Nat.lt_of_le_of_lt (Nat.mod_le _ _) hmod⟩
    else none
  else none

/-- The shorter of two spans: seconds are compared before nanoseconds. -/
def shorter (a b : Parts) : Parts :=
  if a.secs < b.secs ∨ a.secs = b.secs ∧ a.nanos ≤ b.nanos then a else b

theorem nanos_duration (p : Parts) :
    p.duration.nanos = p.secs.toNat * nanosPerSec + p.nanos.toNat := rfl

theorem duration_longest : longest.duration.nanos = maxNanos := by decide

/-- The nanoseconds of a product never wrap around. -/
theorem toNat_nanos_mul (p : Parts) (n : UInt32) :
    (p.nanos.toUInt64 * n.toUInt64).toNat = p.nanos.toNat * n.toNat := by
  have hnanos : p.nanos.toNat < 1000000000 := p.nanos_lt
  have hproduct : p.nanos.toNat * n.toNat ≤ 1000000000 * UInt32.size :=
    Nat.mul_le_mul (Nat.le_of_lt hnanos) (Nat.le_of_lt n.toNat_lt_size)
  have hsize : 1000000000 * UInt32.size < 2 ^ 64 := by decide
  rw [UInt64.toNat_mul, UInt32.toNat_toUInt64, UInt32.toNat_toUInt64]
  exact Nat.mod_eq_of_lt (by omega)

theorem toNat_carried (p : Parts) (n : UInt32) :
    (p.nanos.toUInt64 * n.toUInt64 / 1000000000).toNat =
      p.nanos.toNat * n.toNat / nanosPerSec := by
  rw [UInt64.toNat_div, toNat_nanos_mul]
  rfl

theorem toNat_left (p : Parts) (n : UInt32) :
    ((p.nanos.toUInt64 * n.toUInt64 % 1000000000).toUInt32).toNat =
      p.nanos.toNat * n.toNat % nanosPerSec := by
  rw [UInt64.toNat_toUInt32, UInt64.toNat_mod, toNat_nanos_mul]
  have hmod : p.nanos.toNat * n.toNat % nanosPerSec < nanosPerSec := Nat.mod_lt _ (by decide)
  exact Nat.mod_eq_of_lt (Nat.lt_of_lt_of_le hmod (by decide))

theorem duration_times? (p : Parts) (n : UInt32) :
    (p.times? n).map duration =
      if p.duration.nanos * n.toNat ≤ maxNanos then some (p.duration.scale n.toNat) else none := by
  have hproduct : p.duration.nanos * n.toNat =
      p.secs.toNat * n.toNat * nanosPerSec + p.nanos.toNat * n.toNat := by
    rw [nanos_duration]
    ring
  have hcarry := Nat.div_add_mod (p.nanos.toNat * n.toNat) nanosPerSec
  have hleft : p.nanos.toNat * n.toNat % nanosPerSec < nanosPerSec := Nat.mod_lt _ (by decide)
  have hmax : maxNanos + 1 = UInt64.size * nanosPerSec := by decide
  -- the product fits just when its whole seconds do
  have hfits : p.duration.nanos * n.toNat ≤ maxNanos ↔
      p.secs.toNat * n.toNat + p.nanos.toNat * n.toNat / nanosPerSec < UInt64.size := by
    rw [hproduct]
    unfold nanosPerSec at *
    omega
  rw [times?]
  by_cases hsecs : p.secs.toNat * n.toNat < UInt64.size
  · have hwhole : (p.secs * n.toUInt64).toNat = p.secs.toNat * n.toNat := by
      rw [UInt64.toNat_mul, UInt32.toNat_toUInt64]
      exact Nat.mod_eq_of_lt hsecs
    simp only [if_pos hsecs, hwhole, toNat_carried]
    by_cases hall : p.secs.toNat * n.toNat + p.nanos.toNat * n.toNat / nanosPerSec < UInt64.size
    · rw [if_pos hall, if_pos (hfits.mpr hall), Option.map_some]
      refine congrArg some (Duration.ext ?_)
      rw [nanos_duration, nanos_scale, Nat.min_eq_left (hfits.mpr hall), hproduct, UInt64.toNat_add,
        hwhole, toNat_carried, toNat_left, Nat.mod_eq_of_lt hall]
      unfold nanosPerSec at *
      omega
    · rw [if_neg hall, if_neg fun hle => hall (hfits.mp hle), Option.map_none]
  · rw [if_neg hsecs, if_neg fun hle => hsecs ?_, Option.map_none]
    exact Nat.lt_of_le_of_lt (Nat.le_add_right _ _) (hfits.mp hle)

/-- What does not fit is the longest span. -/
theorem duration_scale (p : Parts) (n : UInt32) :
    ((p.times? n).getD longest).duration = p.duration.scale n.toNat := by
  have htimes := duration_times? p n
  by_cases hfits : p.duration.nanos * n.toNat ≤ maxNanos
  · rw [if_pos hfits] at htimes
    obtain ⟨product, hproduct, hscale⟩ := Option.map_eq_some_iff.mp htimes
    rw [hproduct, Option.getD_some, hscale]
  · rw [if_neg hfits] at htimes
    rw [Option.map_eq_none_iff.mp htimes, Option.getD_none]
    ext
    rw [duration_longest, nanos_scale]
    omega

theorem duration_shorter (a b : Parts) : (a.shorter b).duration = a.duration.shorter b.duration := by
  have ha : a.nanos.toNat < 1000000000 := a.nanos_lt
  have hb : b.nanos.toNat < 1000000000 := b.nanos_lt
  have hle : a.duration.nanos ≤ b.duration.nanos ↔
      a.secs < b.secs ∨ a.secs = b.secs ∧ a.nanos ≤ b.nanos := by
    rw [nanos_duration, nanos_duration, UInt64.lt_iff_toNat_lt, ← UInt64.toNat_inj,
      UInt32.le_iff_toNat_le]
    unfold nanosPerSec
    omega
  rw [shorter, Duration.shorter]
  by_cases hshorter : a.secs < b.secs ∨ a.secs = b.secs ∧ a.nanos ≤ b.nanos
  · rw [if_pos hshorter, if_pos (hle.mpr hshorter)]
  · rw [if_neg hshorter, if_neg fun h => hshorter (hle.mp h)]

end Parts

/-- The seconds and nanoseconds of a span of time. -/
def parts (d : Duration) : Parts where
  secs := .ofNat d.secs
  nanos := .ofNat d.subsecNanos
  nanos_lt := by
    have hmod : d.subsecNanos < nanosPerSec := Nat.mod_lt _ (by decide)
    rwa [UInt32.toNat_ofNat_of_lt' (Nat.lt_of_lt_of_le hmod (by decide))]

theorem duration_parts (d : Duration) : d.parts.duration = d := by
  have hsecs : d.secs < UInt64.size :=
    Nat.div_lt_of_lt_mul (by rw [Nat.mul_comm]; exact d.nanos_lt)
  have hmod : d.subsecNanos < nanosPerSec := Nat.mod_lt _ (by decide)
  ext
  rw [Parts.nanos_duration, parts, UInt64.toNat_ofNat_of_lt' hsecs,
    UInt32.toNat_ofNat_of_lt' (Nat.lt_of_lt_of_le hmod (by decide))]
  exact Nat.div_add_mod' d.nanos nanosPerSec

end Duration

namespace RetryPolicy

/-- The wait after an attempt, found in words: the power, its product with the first wait, and the
    maximum, with the largest word and the longest span for what does not fit. -/
def waitInWords (coefficient : UInt32) (initial : Duration.Parts) (maximum : Option Duration.Parts)
    (attempt : UInt32) : Duration.Parts :=
  let exponent := if attempt = 0 then 0 else attempt - 1
  let wait := (initial.times? (Words.power coefficient exponent.toNat)).getD .longest
  match maximum with
  | some longest => wait.shorter longest
  | none => wait

theorem duration_waitInWords (policy : RetryPolicy) {coefficient : UInt32}
    (hcoefficient : coefficient.toNat = policy.backoff) (attempt : UInt32) :
    (waitInWords coefficient policy.initial.parts (policy.maximum.map Duration.parts)
      attempt).duration = policy.waitAfter attempt.toNat := by
  have hexponent : (if attempt = 0 then 0 else attempt - 1).toNat = attempt.toNat - 1 := by
    by_cases hzero : attempt = 0
    · rw [if_pos hzero, hzero]
      rfl
    · have hpos : 1 ≤ attempt.toNat := by
        have hne : attempt.toNat ≠ 0 := fun h => hzero (UInt32.toNat_inj.mp h)
        omega
      have hle : (1 : UInt32) ≤ attempt := UInt32.le_iff_toNat_le.mpr hpos
      rw [if_neg hzero, UInt32.toNat_sub_of_le _ _ hle, UInt32.toNat_one]
  have hwait : ((policy.initial.parts.times? (Words.power coefficient
      (if attempt = 0 then 0 else attempt - 1).toNat)).getD .longest).duration =
      policy.initial.scale (multiplier policy.backoff (attempt.toNat - 1)) := by
    rw [Duration.Parts.duration_scale, Duration.duration_parts, Words.toNat_power, hexponent,
      hcoefficient]
  unfold waitInWords waitAfter
  cases policy.maximum with
  | none => exact hwait
  | some longest =>
      refine (Duration.Parts.duration_shorter _ _).trans ?_
      rw [hwait, Duration.duration_parts]

/-! ## The wait after any attempt -/

/-- The wait after an attempt is the first one times a power of the coefficient, within 32 bits, the
    longest span and the maximum. It is what the words come to for all policies and attempts that
    words can hold, it is never above the maximum, and with a coefficient of at least one it never
    gets shorter. -/
theorem waitAfter_closed_form (policy : RetryPolicy) :
    (∀ attempt, (policy.waitAfter attempt).nanos = cut policy.maximum
      (min (policy.initial.nanos * min (policy.backoff ^ (max attempt 1 - 1)) (2 ^ 32 - 1))
        ((2 ^ 64 - 1) * 10 ^ 9 + 999999999))) ∧
    (∀ coefficient attempt : UInt32, coefficient.toNat = policy.backoff →
      (waitInWords coefficient policy.initial.parts (policy.maximum.map Duration.parts)
        attempt).duration = policy.waitAfter attempt.toNat) ∧
    (∀ longest, policy.maximum = some longest →
      ∀ attempt, (policy.waitAfter attempt).nanos ≤ longest.nanos) ∧
    (1 ≤ policy.backoff → ∀ attempt later, attempt ≤ later →
      (policy.waitAfter attempt).nanos ≤ (policy.waitAfter later).nanos) := by
  refine ⟨?_, ?_, ?_, ?_⟩
  · intro attempt
    have hexponent : max attempt 1 - 1 = attempt - 1 := by omega
    rw [nanos_waitAfter, hexponent]
    rfl
  · intro coefficient attempt hcoefficient
    exact duration_waitInWords policy hcoefficient attempt
  · intro longest hmaximum attempt
    exact nanos_waitAfter_le_maximum hmaximum attempt
  · intro hbackoff attempt later hle
    exact nanos_waitAfter_mono hbackoff hle

/-- Two seconds at first, doubled each time up to five. -/
def doubling : RetryPolicy := { initial := .ofSecs 2, maximum := some (.ofSecs 5) }

/-- The last wait there can be is five seconds, in words as well, and none is shorter before. -/
theorem waitAfter_closed_form_doubling :
    (doubling.waitAfter (2 ^ 32 - 1)).nanos = 5000000000 ∧
    (waitInWords 2 doubling.initial.parts (doubling.maximum.map Duration.parts)
      4294967295).duration = doubling.waitAfter (2 ^ 32 - 1) ∧
    (doubling.waitAfter 2).nanos ≤ 5000000000 ∧
    (doubling.waitAfter 2).nanos ≤ (doubling.waitAfter 3).nanos := by
  obtain ⟨-, hwords, hmaximum, hmono⟩ := waitAfter_closed_form doubling
  exact ⟨by decide +kernel, hwords 2 4294967295 rfl, hmaximum (.ofSecs 5) rfl 2,
    hmono (by decide) 2 3 (by decide)⟩

/-- A coefficient of zero leaves the first wait as it is, and no other. -/
example : ([0, 1, 2, 3].map fun attempt =>
    (({ backoff := 0 } : RetryPolicy).waitAfter attempt).nanos) = [1000000000, 1000000000, 0, 0] := by
  decide

end RetryPolicy

end Rehome
