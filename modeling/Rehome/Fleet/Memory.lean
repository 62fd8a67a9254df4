import Rehome.Fleet.Basic

/-!
# A fleet in memory — both systems, with hosts that misbehave on request

Every host has flags for the state it is in and flags for what fails on it, and a script of busy
and idle looks. Time passes only by sleeping, in whole milliseconds: a sleeper wakes at the first
of them that is not too early. A time that the clock cannot hold is replaced by one far off.
-/

namespace Rehome

/-- A host of the fleet in memory. -/
structure MemoryHost where
  locked : Bool := false
  /-- Locking it does nothing. -/
  unlockable : Bool := false
  /-- It is in no status answer. -/
  hidden : Bool := false
  descriptorFails : Bool := false
  addFails : Bool := false
  assignFails : Bool := false
  renameFails : Bool := false
  inTarget : Bool := false
  hasDrone : Bool := false
  renamed : Bool := false
  /-- Whether it is busy, look by look. The last one stays; without any it is idle. -/
  busy : List Bool := []
  deriving DecidableEq

namespace MemoryHost

/-- The host after a look at whether it is busy. -/
def looked (h : MemoryHost) : MemoryHost :=
  match h.busy with
  | _ :: next :: later => { h with busy := next :: later }
  | _ => h

end MemoryHost

/-- The hosts of a fleet in memory and its clock, in milliseconds. -/
structure Memory where
  hosts : List (Host × MemoryHost)
  millis : Nat := 0

namespace Memory

/-- A host by its name. -/
def host? (m : Memory) (name : Host) : Option MemoryHost := m.hosts.lookup name

/-- Change a host. Nothing happens if there is none of that name. -/
def update (m : Memory) (name : Host) (f : MemoryHost → MemoryHost) : Memory :=
  { m with hosts := m.hosts.map fun (n, h) => (n, if n = name then f h else h) }

/-- Change the hosts of a set. -/
def updateAll (m : Memory) (names : HostSet) (f : MemoryHost → MemoryHost) : Memory :=
  { m with hosts := m.hosts.map fun (n, h) => (n, if n ∈ names then f h else h) }

/-- Of a set, the hosts that exist and pass a test, in order. -/
def those (m : Memory) (names : HostSet) (p : MemoryHost → Bool) : List Host :=
  names.toList.filter fun name => (m.host? name).any p

/-! ## Calls -/

/-- The status of a host, unless it is unknown or hidden. -/
def status? (m : Memory) (name : Host) : Option StatusRow :=
  match m.host? name with
  | some h => if h.hidden then none else some ⟨name, h.locked, h.busy.headD false⟩
  | none => none

/-- The descriptor of a host of this name. -/
def descriptor (name : Host) : Descriptor :=
  ⟨name, "\x7b\"hostname\": \"" ++ name ++ "\"\x7d"⟩

/-- The outcome of adding a host to the target system. -/
def addEffect : Option MemoryHost → Effect
  | none => .failed "unknown host"
  | some h =>
    if h.addFails then .failed "inventory rejected the device"
    else if h.inTarget then .already
    else .applied

/-- The outcome of giving a host a drone. -/
def assignEffect : Option MemoryHost → Effect
  | none => .failed "unknown host"
  | some h =>
    if h.assignFails then .failed "no drone available"
    else if !h.inTarget then .failed "host is not in the inventory"
    else if h.hasDrone then .already
    else .applied

/-- How the fleet replies to a call, and what the call does to it. -/
def reply (call : Call) (m : Memory) : call.Reply × Memory :=
  match call with
  | .queryStatus hosts =>
    (.ok (hosts.toList.filterMap m.status?),
      m.updateAll hosts fun h => if h.hidden then h else h.looked)
  | .lock hosts _ =>
    (.ok (), m.updateAll hosts fun h => if h.unlockable then h else { h with locked := true })
  | .unlock hosts =>
    (.ok (m.those hosts fun _ => true), m.updateAll hosts fun h => { h with locked := false })
  | .fetchDescriptor host =>
    match m.host? host with
    | some h =>
      if h.descriptorFails then (.error (noDescriptor host), m) else (.ok (descriptor host), m)
    | none => (.error (noDescriptor host), m)
  | .rename hosts direction =>
    (.ok (m.those hosts fun h => !h.renameFails),
      m.updateAll hosts fun h =>
        if h.renameFails then h else { h with renamed := direction == .moved })
  | .add descriptor =>
    (.ok (addEffect (m.host? descriptor.host)),
      m.update descriptor.host fun h => if h.addFails then h else { h with inTarget := true })
  | .assignDrone host =>
    (.ok (assignEffect (m.host? host)),
      m.update host fun h =>
        if h.assignFails || !h.inTarget then h else { h with hasDrone := true })
  | .remove hosts _ =>
    (.ok .applied, m.updateAll hosts fun h => { h with inTarget := false, hasDrone := false })
where
  /-- The failure to give a descriptor. -/
  noDescriptor (host : Host) : ToolFailure :=
    .exited "mock" 1 ("no descriptor for " ++ host)

/-! ## Time -/

/-- Nanoseconds in a millisecond. -/
def nanosPerMilli : Nat := 1000000

/-- How long a sleeper sleeps whose time to wake the clock cannot hold: thirty years. -/
def farMillis : Nat := 946080000 * 1000

/-- The last second that the clock can hold. -/
def lastSecond : Nat := UInt64.size / 2 - 1

/-- The milliseconds that a sleep takes: the span rounded up. -/
def sleepMillis (span : Duration) (millis : Nat) : Nat :=
  if lastSecond < (millis * nanosPerMilli + span.nanos) / Duration.nanosPerSec then farMillis
  else (span.nanos + (nanosPerMilli - 1)) / nanosPerMilli

theorem sleepMillis_pos {span : Duration} {millis : Nat} (h : 0 < span.nanos) :
    0 < sleepMillis span millis := by
  unfold sleepMillis
  split
  · decide
  · unfold nanosPerMilli
    omega

theorem millis_reply (call : Call) (m : Memory) : (reply call m).2.millis = m.millis := by
  cases call <;> simp only [reply, updateAll, update]
  split
  · split <;> rfl
  · rfl

/-- The fleet in memory. -/
def fleet : Fleet Memory where
  time m := m.millis * nanosPerMilli
  look m := m
  sleep span m := { m with millis := m.millis + sleepMillis span m.millis }
  time_le_look _ := Nat.le_refl _
  time_le_sleep _ _ := Nat.mul_le_mul_right _ (Nat.le_add_right _ _)
  time_lt_sleep span m h := by
    have hpos : 0 < sleepMillis span m.millis := sleepMillis_pos h
    exact Nat.mul_lt_mul_of_pos_right (Nat.lt_add_of_pos_right hpos) (by decide)
  reply := reply
  time_le_reply call m := Nat.le_of_eq (congrArg (· * nanosPerMilli) (millis_reply call m).symm)

end Memory

end Rehome
