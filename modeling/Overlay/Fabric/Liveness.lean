import Overlay.Fabric.Traffic
import Overlay.Timer

/-!
# Liveness

A liveness pass looks at every contact that an engine knows when the pass begins. A quiet one gets a
ping. If it is still quiet after that, for so long that it counts as lost, and it has not been
removed in the meantime, it is removed, and the listeners get a fault that names it.

An engine makes a pass once a period, the first one a period after it has been made.
-/

namespace Overlay

namespace Fabric

/-- An engine asks a contact for a sign of life. -/
def pingFrom (f : Fabric) (e : EngineId) (contact : Identity) : Fabric :=
  let (uuid, f) := f.fresh
  (f.send e (.ping uuid (f.engine e).identity contact)).1

/-- An engine gives up an identity, if the contact in a slot is lost and the identity is known, and
its listeners get a fault. -/
def evictFrom (f : Fabric) (e : EngineId) (contact : Identity) (s : Slot) : Fabric :=
  match (f.engine e).evicted? contact s with
  | some engine =>
    let (uuid, f) := (f.setEngine e engine).fresh
    f.dispatch e (.fault uuid engine.identity contact)
  | none => f

def probeContact (e : EngineId) (f : Fabric) (contact : Identity × Slot) : Fabric :=
  if (f.engine e).isQuiet contact.2 then (f.pingFrom e contact.1).evictFrom e contact.1 contact.2
  else f

/-- A liveness pass of an engine (`Cloud::probe_quiet_agents`). -/
def probe (f : Fabric) (e : EngineId) : Fabric :=
  (f.engine e).directory.remotes.toList.foldl (probeContact e) f

/-- Sets the time of the next pass of an engine, in nanoseconds. -/
def schedulePass (f : Fabric) (e : EngineId) (deadline : Nat) : Fabric :=
  (f.setEngine e { f.engine e with nextPass := some deadline }).setTimer (firingTime deadline)
    (.liveness e)

/-- The pass that is due is made, and the next one is a period after the time at which this one was
due (`spawn_liveness`). -/
def tick (f : Fabric) (e : EngineId) : Fabric :=
  match (f.engine e).nextPass with
  | none => f
  | some due => (f.probe e).schedulePass e (due + (f.engine e).settings.probePeriod.nanos)

end Fabric

end Overlay
