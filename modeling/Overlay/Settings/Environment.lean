import Overlay.Settings.Basic
import Overlay.Text.Blank
import Overlay.Text.Quoted

/-!
# Settings from the environment

Three variables override the standard settings. Each, where it is set, has to be a positive decimal
integer that its setting can hold, white space around it aside; the first one that is not, in the
order agent timeout, retries, join timeout, is reported with its text as it stands.
-/

namespace Overlay

inductive Variable where
  | agentTimeout
  | agentRetries
  | joinTimeout
deriving DecidableEq, Repr

def Variable.name : Variable → String
  | .agentTimeout => "MESH_AGENT_TIMEOUT_MS"
  | .agentRetries => "MESH_AGENT_RETRIES"
  | .joinTimeout => "MESH_JOIN_TIMEOUT_MS"

/-- A variable that is not what it has to be, with its text (`ConfigError`). -/
structure SettingsError where
  setting : Variable
  text : String
deriving DecidableEq, Repr

def SettingsError.message (e : SettingsError) : String :=
  e.setting.name ++ " must be a positive integer, got " ++ Text.quoted e.text

namespace Settings

/-- The positive integer below the limit that a text stands for (`parse_positive`). -/
def positive? (limit : Nat) (text : String) : Option Nat :=
  match Radix.read 10 limit (Text.trim text.toList) with
  | .ok n => if n = 0 then none else some n
  | .error _ => none

/-- What a variable is set to, or the standard value if it is not set. -/
def lookUp (v : Variable) (limit standard : Nat) : Option String → Except SettingsError Nat
  | none => .ok standard
  | some text =>
    match positive? limit text with
    | some n => .ok n
    | none => .error ⟨v, text⟩

/-- The settings of an environment (`CloudConfig::from_lookup`). -/
def ofEnvironment (env : Variable → Option String) : Except SettingsError Settings := do
  let timeout ← lookUp .agentTimeout 0x10000000000000000 60000 (env .agentTimeout)
  let retries ← lookUp .agentRetries 0x100000000 3 (env .agentRetries)
  let join ← lookUp .joinTimeout 0x10000000000000000 5000 (env .joinTimeout)
  return { standard with
    agentTimeout := .ofMillis (UInt64.ofNat timeout)
    agentRetries := UInt32.ofNat retries
    joinTimeout := .ofMillis (UInt64.ofNat join) }

def withDispatch (s : Settings) (dispatch : Dispatch) : Settings :=
  { s with dispatch := dispatch }

end Settings

end Overlay
