import Overlay.Endpoint
import Overlay.Identity.Register
import Overlay.Identity.Text

/-!
# The directory of an engine

Whom an engine knows: the agents of its own process that it has registered, and its contacts, the
agents of other processes that have announced themselves. A contact lives in a slot. An announcement
of a known identity refreshes its slot, one of an unknown identity opens a new slot, and a slot is
never used for anybody else. So whoever holds the number of a slot may go on writing activity to it,
also after the identity has been removed or announced again, without touching any later contact.
-/

namespace Overlay

/-- The number of an agent of this process. Two agents may have one identity. -/
abbrev AgentId := Nat

abbrev Slot := Nat

/-- An agent of another process, as seen from here (`RemoteAgent`). -/
structure Contact where
  identity : Identity
  endpoints : EndpointSet
  /-- When it was heard of last, in milliseconds. -/
  lastSeen : Nat
deriving DecidableEq

namespace Contact

instance : Inhabited Contact := ⟨⟨default, default, 0⟩⟩

/-- The contact after activity at a time, which never takes it back (`RemoteAgent::touch`). -/
def seen (c : Contact) (now : Nat) : Contact :=
  { c with lastSeen := max c.lastSeen now }

/-- The contact after an announcement at a time (`RemoteAgent::replace_endpoints`). -/
def refreshed (c : Contact) (endpoints : EndpointSet) (now : Nat) : Contact :=
  { c with endpoints := endpoints, lastSeen := max c.lastSeen now }

def same (a b : Contact) : Bool :=
  a.identity == b.identity

def display (c : Contact) : String :=
  c.identity.display ++ "@" ++ Radix.decimal c.lastSeen

end Contact

/-- Whom an engine knows (`AgentRegistry`). -/
structure Directory where
  /-- The registered agents of this process. -/
  locals : Register AgentId
  /-- The slots of the known contacts. -/
  remotes : Register Slot
  /-- All slots that were ever opened, by their numbers. -/
  slots : List Contact

namespace Directory

def empty : Directory :=
  ⟨.empty, .empty, []⟩

instance : Inhabited Directory := ⟨empty⟩

/-! ## Agents of this process -/

def local? (d : Directory) (i : Identity) : Option AgentId :=
  d.locals.get? i

/-- Whether an identity is registered (`AgentRegistry::is_local`). -/
def isLocal (d : Directory) (i : Identity) : Bool :=
  d.locals.contains i

/-- Registers an agent, unless its identity is taken (`AgentRegistry::insert_local`). -/
def insertLocal? (d : Directory) (i : Identity) (a : AgentId) : Option Directory :=
  (d.locals.add? i a).map fun locals => { d with locals := locals }

/-- Nobody is registered under the identity afterwards (`AgentRegistry::remove_local`). -/
def removeLocal (d : Directory) (i : Identity) : Directory :=
  { d with locals := d.locals.erase i }

/-- Removes the registration of an identity if it is that of the given agent
(`AgentRegistry::remove_local_handle`). -/
def removeLocalAgent (d : Directory) (i : Identity) (a : AgentId) : Directory :=
  { d with locals := d.locals.eraseIf i a }

/-! ## Contacts -/

def contact (d : Directory) (s : Slot) : Contact :=
  d.slots.getD s default

/-- The slot of a known contact (`AgentRegistry::remote`). -/
def remote? (d : Directory) (i : Identity) : Option Slot :=
  d.remotes.get? i

def isRemote (d : Directory) (i : Identity) : Bool :=
  d.remotes.contains i

def modify (d : Directory) (s : Slot) (f : Contact → Contact) : Directory :=
  { d with slots := d.slots.modify s f }

/-- An agent of another process announces itself (`AgentRegistry::upsert_remote`). -/
def announce (d : Directory) (i : Identity) (endpoints : EndpointSet) (now : Nat) : Directory :=
  match d.remote? i with
  | some s => d.modify s (·.refreshed endpoints now)
  | none =>
    { d with
      remotes := d.remotes.enter i d.slots.length
      slots := d.slots ++ [⟨i, endpoints, now⟩] }

/-- The identity is that of no contact afterwards (`AgentRegistry::remove_remote`). -/
def removeRemote (d : Directory) (i : Identity) : Directory :=
  { d with remotes := d.remotes.erase i }

/-- Writes activity to a slot, whether or not it is that of a known contact. -/
def touchSlot (d : Directory) (s : Slot) (now : Nat) : Directory :=
  d.modify s (·.seen now)

/-- Writes activity to a known contact; nothing is known of others (`AgentRegistry::touch_remote`).
-/
def touch (d : Directory) (i : Identity) (now : Nat) : Directory :=
  match d.remote? i with
  | some s => d.touchSlot s now
  | none => d

/-- Forgets everybody (`AgentRegistry::clear`). -/
def clear (d : Directory) : Directory :=
  { d with locals := .empty, remotes := .empty }

def contacts (d : Directory) : List Contact :=
  d.remotes.values.map d.contact

end Directory

end Overlay
