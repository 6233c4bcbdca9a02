/-!
# Settings of an engine

How long a remote agent may be quiet, how often it is asked before it is given up, how long a join
waits, and where listeners run. Durations are exact to the nanosecond; what liveness compares them
with is a clock in whole milliseconds of one word, so they are cut down to that on the way.
-/

namespace Overlay

/-- A length of time: up to `2 ^ 64` seconds, exact to the nanosecond. -/
structure Duration where
  nanos : Nat
  nanos_lt : nanos < 0x10000000000000000 * 1000000000
deriving DecidableEq, Repr

namespace Duration

def ofMillis (n : UInt64) : Duration :=
  ⟨n.toNat * 1000000, by have := n.toNat_lt; omega⟩

/-- Seconds and nanoseconds, the longest duration if they are too many. -/
def ofParts (seconds nanos : Nat) : Duration :=
  ⟨min (seconds * 1000000000 + nanos) (0x10000000000000000 * 1000000000 - 1), by omega⟩

def seconds (d : Duration) : Nat :=
  d.nanos / 1000000000

/-- The nanoseconds beyond the whole seconds. -/
def subsecondNanos (d : Duration) : Nat :=
  d.nanos % 1000000000

def millis (d : Duration) : Nat :=
  d.nanos / 1000000

/-- Half of it, rounded down. -/
def half (d : Duration) : Duration :=
  ⟨d.nanos / 2, by have := d.nanos_lt; omega⟩

def max (a b : Duration) : Duration :=
  if a.nanos ≤ b.nanos then b else a

end Duration

/-- Where listeners run (`DispatchMode`). -/
inductive Dispatch where
  /-- On the way in, one after the other, before the next step of processing. -/
  | inline
  /-- On a task of their own, fed by a queue. -/
  | worker
deriving DecidableEq, Repr

def Dispatch.name : Dispatch → String
  | .inline => "Inline"
  | .worker => "Worker"

/-- The settings of an engine (`CloudConfig`). -/
structure Settings where
  /-- How long a remote agent may be quiet before it is asked for a sign of life. -/
  agentTimeout : Duration
  /-- After how many such times it is given up. -/
  agentRetries : UInt32
  /-- How long a join waits to be confirmed. -/
  joinTimeout : Duration
  dispatch : Dispatch
deriving DecidableEq, Repr

namespace Settings

/-- One minute, three times, five seconds, on a task of their own. -/
def standard : Settings :=
  ⟨.ofMillis 60000, 3, .ofMillis 5000, .worker⟩

/-- The period of the liveness passes: half the agent timeout, at least a millisecond
(`CloudConfig::probe_period`). -/
def probePeriod (s : Settings) : Duration :=
  s.agentTimeout.half.max (.ofMillis 1)

/-- The agent timeout in whole milliseconds, of which one word is kept
(`CloudConfig::agent_timeout_ms`). -/
def agentTimeoutMillis (s : Settings) : Nat :=
  s.agentTimeout.millis % 0x10000000000000000

def maxMillis : Nat := 0xFFFFFFFFFFFFFFFF

/-- After how many quiet milliseconds an agent is given up; no more than the greatest number
(`CloudConfig::eviction_ms`). -/
def evictionMillis (s : Settings) : Nat :=
  min (s.agentTimeoutMillis * s.agentRetries.toNat) maxMillis

end Settings

end Overlay
