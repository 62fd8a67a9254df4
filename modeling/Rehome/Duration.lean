/-!
# Durations — spans of time to the nanosecond

A span of time is a number of nanoseconds up to the longest span that whole seconds in 64 bits
and a nanosecond part can hold. What would be longer is that longest span: sums of waiting times
stop there instead of wrapping around.
-/

namespace Rehome

/-- The nanoseconds in a second. -/
def Duration.nanosPerSec : Nat := 1000000000

/-- A span of time in nanoseconds. -/
structure Duration where
  nanos : Nat
  nanos_lt : nanos < UInt64.size * Duration.nanosPerSec
  deriving DecidableEq

namespace Duration

/-- The number of nanoseconds in the longest span. -/
def maxNanos : Nat := UInt64.size * nanosPerSec - 1

/-- A number of nanoseconds, or the longest span if there are more. -/
def ofNanos (n : Nat) : Duration :=
  ⟨min n maxNanos, Nat.lt_of_le_of_lt (Nat.min_le_right n maxNanos) (by decide)⟩

@[simp] theorem nanos_ofNanos (n : Nat) : (ofNanos n).nanos = min n maxNanos := rfl

theorem nanos_le (d : Duration) : d.nanos ≤ maxNanos := Nat.le_sub_one_of_lt d.nanos_lt

@[ext] theorem ext {a b : Duration} (h : a.nanos = b.nanos) : a = b := by
  cases a
  cases b
  congr

@[simp] theorem ofNanos_nanos (d : Duration) : ofNanos d.nanos = d := by
  ext
  exact Nat.min_eq_left d.nanos_le

/-- The empty span. -/
def zero : Duration := ofNanos 0

instance : Inhabited Duration := ⟨zero⟩

/-- Whole milliseconds. -/
def ofMillis (n : Nat) : Duration := ofNanos (n * 1000000)

/-- Whole seconds. -/
def ofSecs (n : Nat) : Duration := ofNanos (n * nanosPerSec)

/-- Seconds and nanoseconds; a second or more of nanoseconds counts as seconds. -/
def ofParts (secs nanos : Nat) : Duration := ofNanos (secs * nanosPerSec + nanos)

/-- The whole seconds in a span. -/
def secs (d : Duration) : Nat := d.nanos / nanosPerSec

/-- The nanoseconds beyond the whole seconds. -/
def subsecNanos (d : Duration) : Nat := d.nanos % nanosPerSec

/-- The span taken a number of times, or the longest span. -/
def scale (d : Duration) (n : Nat) : Duration := ofNanos (d.nanos * n)

/-- The shorter of two spans. -/
def shorter (a b : Duration) : Duration := if a.nanos ≤ b.nanos then a else b

@[simp] theorem nanos_shorter (a b : Duration) : (shorter a b).nanos = min a.nanos b.nanos := by
  unfold shorter
  split
  · rename_i h
    exact (Nat.min_eq_left h).symm
  · rename_i h
    exact (Nat.min_eq_right (Nat.le_of_not_le h)).symm

@[simp] theorem nanos_scale (d : Duration) (n : Nat) :
    (d.scale n).nanos = min (d.nanos * n) maxNanos := rfl

end Duration

end Rehome
