import MrUDP.Endpoint.Walk

/-!
# What sending changes

Sending packets changes the sender, the probe, the packets transmitted and the random numbers
drawn, and records what was encrypted.  Nothing else of the endpoint changes.

## Main definitions

* `Endpoint.Sent`: two endpoints that differ only in that.
* `Endpoint.sent_send`, `Endpoint.sent_call`.
-/

namespace MrUDP

/-- What sending records. -/
def Notification.isCipher : Notification → Bool
  | .encrypted _ _ | .faulted _ => true
  | _ => false

namespace Endpoint

/-- The same keys, with more random numbers drawn. -/
def redraw (crypto : Option ConnectionCrypto) (drawn : ℕ → ℕ) : Option ConnectionCrypto :=
  crypto.map fun c => { c with drawn := drawn c.drawn }

/-- Packets were sent in between. -/
def Sent (e e' : Endpoint) : Prop :=
  ∃ sender probe transmitted drawn notes,
    (∀ n ∈ notes, Notification.isCipher n = true) ∧
    e' = { e with
      sender := sender
      probe := probe
      transmitted := transmitted
      crypto := redraw e.crypto drawn
      log := e.log ++ notes }

theorem redraw_id (crypto : Option ConnectionCrypto) : redraw crypto (fun n => n) = crypto := by
  cases crypto <;> rfl

theorem redraw_redraw (crypto : Option ConnectionCrypto) (drawn drawn' : ℕ → ℕ) :
    redraw (redraw crypto drawn) drawn' = redraw crypto fun n => drawn' (drawn n) := by
  cases crypto <;> rfl

theorem Sent.refl (e : Endpoint) : Sent e e :=
  ⟨e.sender, e.probe, e.transmitted, fun n => n, [], by simp, by simp [redraw_id]⟩

theorem Sent.trans {e₁ e₂ e₃ : Endpoint} (h : Sent e₁ e₂) (h' : Sent e₂ e₃) : Sent e₁ e₃ := by
  obtain ⟨_, _, _, drawn, notes, hnotes, rfl⟩ := h
  obtain ⟨sender, probe, transmitted, drawn', notes', hnotes', rfl⟩ := h'
  refine ⟨sender, probe, transmitted, fun n => drawn' (drawn n), notes ++ notes', ?_, ?_⟩
  · intro n hn
    rcases List.mem_append.mp hn with hn | hn
    · exact hnotes n hn
    · exact hnotes' n hn
  · simp only [redraw_redraw, List.append_assoc]

variable (z : Zlib) (C : Cipher) (now : Timepoint) (e : Endpoint)

theorem sent_send_ (packet : Packet) (address : Option Address) :
    Sent e (e.send_ now packet address) :=
  ⟨e.sender, _, _, fun n => n, [], by simp, by
    rw [redraw_id, List.append_nil]
    rfl⟩

theorem sent_sender (s : Sender) : Sent e { e with sender := s } :=
  ⟨s, e.probe, e.transmitted, fun n => n, [], by simp, by simp [redraw_id]⟩

theorem sent_encrypt (packet : Packet) : Sent e (e.encrypt C packet).2.2 := by
  rw [encrypt]
  cases hcrypto : e.crypto with
  | none => exact .refl e
  | some crypto =>
      have hdrawn : redraw e.crypto (· + 1) =
          some { crypto with drawn := crypto.drawn + 1 } := by rw [hcrypto]; rfl
      dsimp only
      rw [← hdrawn]
      split
      · exact ⟨e.sender, e.probe, e.transmitted, (· + 1), [_], by simp [Notification.isCipher], rfl⟩
      · exact ⟨e.sender, e.probe, e.transmitted, (· + 1), [], by simp, by simp⟩
      · exact ⟨e.sender, e.probe, e.transmitted, (· + 1), [_], by simp [Notification.isCipher], rfl⟩

theorem sent_send (packet : Packet) (address : Option Address) :
    Sent e (e.send C now packet address).2 := by
  rw [send]
  split
  · exact .refl e
  next packet' _ =>
    have hencrypt := sent_encrypt C e packet'
    split
    next h =>
      rw [h] at hencrypt
      exact hencrypt
    next h =>
      rw [h] at hencrypt
      exact hencrypt.trans (sent_send_ now _ _ _)

theorem sent_transmit (since : ℕ) (t : Transmission) : Sent e (transmit C now since e t) := by
  have hsend := sent_send C now e t.packet t.address
  rw [transmit]
  split
  · exact sent_send_ now e _ _
  · dsimp only
    split
    · exact hsend
    · exact hsend.trans (sent_sender _ _)

theorem sent_flush (since : ℕ) : Sent e (e.flush C now since) := by
  have hfold : ∀ (ts : List Transmission) (e : Endpoint),
      Sent e (ts.foldl (transmit C now since) e) := by
    intro ts
    induction ts with
    | nil => exact .refl
    | cons t ts ih => exact fun e => (sent_transmit C now e since t).trans (ih _)
  exact (sent_sender e _).trans (hfold _ _)

/-- **A call on the sender only sends packets.** -/
theorem sent_call (call : SenderCall) : Sent e (e.call z C now call) :=
  (sent_sender e _).trans (sent_flush C now _ _)

end Endpoint
end MrUDP
