import Overlay.Proofs.Wire.Codec

/-!
# Failed sendings

Every listener gets a copy of its own, read from the bytes that were sent, and the first copy that
cannot be read ends the sending. All copies are read from the same bytes, so it ends at the first
listener or not at all (`Bus.carry_eq_handOut`): whatever fails, nobody has been called. The log is
written before that. A closed or failing socket leaves it as it is, but a message that cannot be read
again is in the log although its sending failed.
-/

namespace Overlay

namespace Bus

variable {ℓ : Type} {b : Bus ℓ} {p : SocketId} {m : Message} {status : DeliveryStatus}
  {failure : GatewayFailure}

/-! ## One listener after the other -/

/-- Reads a copy for each listener in turn, up to the first that cannot be read. -/
def handOut (bytes : List UInt8) (status : DeliveryStatus) : List ℓ → Transfer ℓ
  | [] => ⟨[], .ok status⟩
  | l :: ls =>
    match Message.decode bytes with
    | .error fault => ⟨[], .error (.undecodable fault)⟩
    | .ok n =>
      let later := handOut bytes status ls
      { later with deliveries := (l, n) :: later.deliveries }

theorem handOut_of_ok {bytes : List UInt8} {n : Message} (h : Message.decode bytes = .ok n)
    (ls : List ℓ) : handOut bytes status ls = ⟨ls.map fun l => (l, n), .ok status⟩ := by
  induction ls with
  | nil => rfl
  | cons l ls ih => simp only [handOut, h, ih, List.map_cons]

/-- What is worked out before any listener is called is what one listener after the other finds. -/
theorem carry_eq_handOut (b : Bus ℓ) (m : Message) (status : DeliveryStatus) :
    b.carry m status = handOut m.encode status b.audience := by
  unfold carry carried
  cases b.audience with
  | nil => rfl
  | cons l ls =>
    cases h : Message.decode m.encode with
    | error fault => simp only [handOut, h]
    | ok n => rw [handOut_of_ok h]

/-! ## What a failed sending leaves behind -/

theorem carried_error_of_whole {fault : Wire.Fault} (h : carried m = .error fault)
    (hwhole : m.payload.isWhole = true) : 125 < m.payload.bodyDepth := by
  refine Nat.lt_of_not_le fun hle => ?_
  rw [carried, Message.decode_encode_of_le hwhole hle] at h
  cases h

/-- Behind the socket only reading can fail, and nobody has been called then. -/
theorem carry_failed (h : (b.carry m status).outcome = .error failure) :
    (b.carry m status).deliveries = [] ∧
      ∃ fault, failure = .undecodable fault ∧ carried m = .error fault := by
  unfold carry at h ⊢
  split at h
  next => cases h
  next =>
    cases hcarried : carried m with
    | ok n =>
      rw [hcarried] at h
      cases h
    | error fault =>
      rw [hcarried] at h
      obtain ⟨⟩ := h
      exact ⟨rfl, fault, rfl, rfl⟩

theorem refusal?_eq_some {s : Socket ℓ} (h : s.refusal? m = some failure) :
    s.closed = true ∨ s.failing = true := by
  unfold Socket.refusal? at h
  grind

theorem send_of_refusal {refusal : GatewayFailure} (h : (b.socket p).refusal? m = some refusal) :
    b.send p m = (b, ⟨[], .error refusal⟩) := by
  simp only [send, h]

theorem send_of_open (h : (b.socket p).refusal? m = none) :
    b.send p m = (b.record m, b.carry m (statusOf m)) := by
  simp only [send, h]

/-- **A sending that fails has called no listener. It has changed nothing if the socket is closed or
failing; otherwise the message cannot be read again and has been recorded.** -/
theorem send_failed (h : (b.send p m).2.outcome = .error failure) :
    (b.send p m).2.deliveries = [] ∧
      (((b.socket p).closed = true ∨ (b.socket p).failing = true) ∧ (b.send p m).1 = b ∨
        (∃ fault, failure = .undecodable fault ∧ carried m = .error fault) ∧
          (m.payload.isWhole = true → 125 < m.payload.bodyDepth) ∧
          (b.send p m).1 = b.record m) := by
  cases hrefusal : (b.socket p).refusal? m with
  | some refusal =>
    rw [send_of_refusal hrefusal]
    exact ⟨rfl, .inl ⟨refusal?_eq_some hrefusal, rfl⟩⟩
  | none =>
    rw [send_of_open hrefusal] at h ⊢
    have hcarry : (b.carry m (statusOf m)).outcome = .error failure := h
    obtain ⟨hnobody, fault, hfailure, hcarried⟩ := carry_failed hcarry
    exact ⟨hnobody, .inr ⟨⟨fault, hfailure, hcarried⟩, carried_error_of_whole hcarried, rfl⟩⟩

def lone : Bus Nat :=
  ((empty standardLimit).attach "loopback").1.listen 0 0

theorem send_lone (m : Message) : lone.send 0 m = (lone.record m, lone.carry m (statusOf m)) :=
  send_of_open rfl

theorem outcome_send_lone {fault : Wire.Fault} (h : carried m = .error fault) :
    (lone.send 0 m).2.outcome = .error (.undecodable fault) := by
  have haudience : lone.audience = [0] := rfl
  rw [send_lone]
  simp only [carry, haudience, h]

theorem outcome_send_nested :
    (lone.send 0 (.nested 126)).2.outcome = .error (.undecodable (.malformed .tooDeep)) :=
  outcome_send_lone <|
    Message.decode_encode_of_lt (Message.isWhole_nested 126) (by simp [Message.bodyDepth_nested])

theorem send_failed_nested :
    (lone.send 0 (.nested 126)).2.outcome = .error (.undecodable (.malformed .tooDeep)) ∧
      (lone.send 0 (.nested 126)).2.deliveries = [] ∧
      (lone.send 0 (.nested 126)).1 = lone.record (.nested 126) := by
  obtain ⟨hnobody, hrefused | ⟨-, -, hrecord⟩⟩ := send_failed outcome_send_nested
  · exact absurd hrefused.1 (by decide)
  · exact ⟨outcome_send_nested, hnobody, hrecord⟩

/-- A sending that fails need not leave the log as it was. -/
theorem not_send_leaves_log :
    ¬∀ (b : Bus Nat) (p : SocketId) (m : Message) (failure : GatewayFailure),
      (b.send p m).2.outcome = .error failure →
        (b.send p m).1.log = b.log ∧ (b.send p m).2.deliveries = [] := by
  intro h
  have hlog : (lone.send 0 (.nested 126)).1.log = [] := (h lone 0 _ _ outcome_send_nested).1
  have hrecord : ∀ m, (lone.record m).log = [m] := fun _ => rfl
  rw [send_lone, hrecord] at hlog
  exact List.cons_ne_nil _ _ hlog

end Bus

end Overlay
