import Rehome.Fleet.Basic

/-!
# Scripted answers — a fleet that is made to misbehave

Some answers of a fleet can be replaced. A call is carried out with all its effects, and then what
comes back from it is the reply of the first replacement that is for its kind and, if it says so,
for its number among the calls of that kind.
-/

namespace Rehome

/-- Something else to come back from calls of a kind. -/
structure Replacement where
  kind : Call.Kind
  /-- Which call of the kind, from 1; without it every one. -/
  nth : Option Nat
  reply : Except ToolFailure kind.Answer

/-- A fleet's state with the calls made so far, by kind. -/
structure Scripted (σ : Type) where
  inner : σ
  made : List Call.Kind := []

namespace Scripted

variable {σ : Type}

/-- What a replacement gives for a call of a kind with a number. -/
def Replacement.reply? (r : Replacement) (kind : Call.Kind) (number : Nat) :
    Option (Except ToolFailure kind.Answer) :=
  if h : r.kind = kind then
    if r.nth.all (· == number) then some (h ▸ r.reply) else none
  else none

/-- A fleet with replaced answers. -/
def fleet (inner : Fleet σ) (replacements : List Replacement) : Fleet (Scripted σ) where
  time s := inner.time s.inner
  look s := { s with inner := inner.look s.inner }
  sleep span s := { s with inner := inner.sleep span s.inner }
  time_le_look s := inner.time_le_look s.inner
  time_le_sleep span s := inner.time_le_sleep span s.inner
  time_lt_sleep span s := inner.time_lt_sleep span s.inner
  reply call s :=
    let (back, next) := inner.reply call s.inner
    let number := s.made.count call.kind + 1
    ((replacements.findSome? fun r => Replacement.reply? r call.kind number).getD back,
      ⟨next, call.kind :: s.made⟩)
  time_le_reply call s := inner.time_le_reply call s.inner

end Scripted

end Rehome
