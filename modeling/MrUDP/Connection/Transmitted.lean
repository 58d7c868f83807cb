import MrUDP.Connection.Invariants
import MrUDP.Sender.Unreliable

/-!
# What a connection transmits

Which types of packets a connection hands to the socket depends on what waits in its
window, on what it sends of its own accord, and on what it answers.  If all of these are
`good`, nothing else is transmitted.

Unreliable data is a case of its own: none is sent once the unreliable queue is closed.

## Main definitions

* `Connection.Withholds`: since some point only good packets have been transmitted.
* `Connection.keepsFront_withholds`: this lasts.
* `Connection.outbox_of_reachable`: between the calls the outbox is empty.
-/

namespace MrUDP
namespace Connection

/-! ## The outbox -/

/-- Every call hands its packets to the socket before it returns. -/
theorem keepsFront_outbox (z : Zlib) :
    KeepsAll z fun c => c.sender.outbox = [] := by
  have hcall : ∀ (c : Connection) (now : Timepoint) (call : SenderCall),
      (c.call z now call).sender.outbox = [] := by
    intro c now call
    obtain ⟨probe, h⟩ := call_eq z now c call
    rw [h]
  have hpossibly : ∀ {c : Connection} (now : Timepoint) {react : Connection → Connection},
      (∀ c, c.sender.outbox = [] → (react c).sender.outbox = []) → c.sender.outbox = [] →
      (possiblyClose now react c).sender.outbox = [] :=
    fun now => possiblyClose_of_user (fun _ _ _ _ _ _ _ _ _ hc => hc) now
  have hkeeps : KeepsCalls z True fun c => c.sender.outbox = [] :=
    keepsCalls_of_call (Q := fun s => s.outbox = []) fun c now call _ _ => hcall c now call
  have hall : Keeps z True fun c => c.sender.outbox = [] := { hkeeps with
    failSender := fun now _ hreact _ => hpossibly now hreact (hcall _ now _)
    fail := fun now _ _ hreact _ => hpossibly now hreact (hcall _ now _) }
  exact hall.front (fun now _ _ _ => hcall _ now _) (fun _ _ _ hc => by rwa [send_eq])
    fun _ _ _ _ _ hc => hc

/-- **Between the calls the outbox is empty.** -/
theorem outbox_of_reachable {z : Zlib} {c : Connection} (hc : Reachable z c) :
    c.sender.outbox = [] :=
  (keepsFront_outbox z).reachable (fun _ _ _ _ => rfl) hc

/-! ## The window -/

/-- The types a connection sends reliably are good. -/
structure GoodTypes (good : TypeID → Prop) : Prop where
  data : good TypeID.dataReliable
  probe : good TypeID.probe
  closeRead : good TypeID.closeRead
  h0 : good TypeID.h0
  h2 : good TypeID.h2
  challenge : good TypeID.authenticateChallenge

section
variable {good : TypeID → Prop}

theorem GoodTypes.indifferent (h : GoodTypes good) :
    Sender.Indifferent fun p => good p.header.type where
  id _ _ hp := hp
  data p hp := by
    rw [hp]
    exact h.data

theorem GoodTypes.reliable (h : GoodTypes good) {p : Packet} (hp : IsReliable p) :
    good p.header.type := by
  rcases hp with (hp | hp) | ⟨hp | hp, _⟩ | hp
  · rw [hp]; exact h.probe
  · rw [hp]; exact h.closeRead
  · rw [hp]; exact h.h0
  · rw [hp]; exact h.h2
  · rw [hp]; exact h.challenge

/-- Only good packets wait in the window of a reachable connection. -/
theorem waits_of_reachable (h : GoodTypes good) {z : Zlib} {c : Connection}
    (hc : Reachable z c) : c.sender.Waits fun p => good p.header.type := by
  refine (keepsFront_of_sender (Q := fun s => s.Waits fun p => good p.header.type) ?_
    fun _ hs => hs).reachable ?_ hc
  · intro e s s' hchange hs
    exact hchange.waits h.indifferent (fun p hp => h.reliable hp) hs
  · intro id localID remoteAddress options k paths n hk
    simp [fresh, Retrier.outstanding] at hk

/-! ## What is transmitted -/

/-- After the packets in `front` only good ones have been transmitted, and none but good
ones wait. -/
structure Withholds (good : TypeID → Prop) (front : List Outgoing) (c : Connection) : Prop where
  waits : c.sender.Waits fun p => good p.header.type
  posts : c.sender.Posts fun p => good p.header.type
  unreliable : c.sender.unreliableDataQueue.status = .closed ∨ good TypeID.dataUnreliable
  transmitted : ∃ os, c.transmitted = front ++ os ∧ ∀ o ∈ os, good o.packet.header.type

variable {front : List Outgoing}

/-- From a reachable state on, as nothing is about to be sent. -/
theorem Withholds.of_reachable (h : GoodTypes good) {z : Zlib} {c : Connection}
    (hc : Reachable z c)
    (hunreliable : c.sender.unreliableDataQueue.status = .closed ∨ good TypeID.dataUnreliable) :
    Withholds good c.transmitted c where
  waits := waits_of_reachable h hc
  posts := by
    intro t ht
    rw [outbox_of_reachable hc] at ht
    cases ht
  unreliable := hunreliable
  transmitted := ⟨[], by simp, by simp⟩

theorem Withholds.of_eq {c c' : Connection} (hc : Withholds good front c)
    (hsender : c'.sender = c.sender) (htransmitted : c'.transmitted = c.transmitted) :
    Withholds good front c' where
  waits := by rw [hsender]; exact hc.waits
  posts := by rw [hsender]; exact hc.posts
  unreliable := by rw [hsender]; exact hc.unreliable
  transmitted := by rw [htransmitted]; exact hc.transmitted

theorem Withholds.sender (h : GoodTypes good) {z : Zlib} {now : Timepoint} {c : Connection}
    {s : Sender} (hchange : Sender.Change (c.env z now) IsReliable c.sender s)
    (hc : Withholds good front c) : Withholds good front { c with sender := s } where
  waits := hchange.waits h.indifferent (fun p hp => h.reliable hp) hc.waits
  posts := by
    refine hchange.posts h.indifferent (fun p hp => h.reliable hp) hc.waits ?_ hc.posts
    refine hc.unreliable.imp_right fun hgood p hp => ?_
    rwa [hp]
  unreliable := by
    refine hc.unreliable.imp_left fun hclosed => ?_
    rcases hchange.status_unreliable with hstatus | hstatus
    · exact hstatus.trans hclosed
    · exact hstatus
  transmitted := hc.transmitted

/-- More good packets are transmitted. -/
theorem Withholds.transmit {c c' : Connection} (hc : Withholds good front c)
    (hwaits : c'.sender.Waits fun p => good p.header.type)
    (hposts : c'.sender.Posts fun p => good p.header.type)
    (hstatus : c'.sender.unreliableDataQueue.status = c.sender.unreliableDataQueue.status)
    {os : List Outgoing} (htransmitted : c'.transmitted = c.transmitted ++ os)
    (hos : ∀ o ∈ os, good o.packet.header.type) : Withholds good front c' where
  waits := hwaits
  posts := hposts
  unreliable := by
    rw [hstatus]
    exact hc.unreliable
  transmitted := by
    obtain ⟨os', hos', hgood⟩ := hc.transmitted
    refine ⟨os' ++ os, by rw [htransmitted, hos', List.append_assoc], fun o ho => ?_⟩
    rcases List.mem_append.mp ho with ho | ho
    · exact hgood o ho
    · exact hos o ho

theorem Withholds.flush (now : Timepoint) {c : Connection} (hc : Withholds good front c) :
    Withholds good front (c.flush now) := by
  obtain ⟨probe, h⟩ := flush_eq now c
  rw [h]
  refine hc.transmit hc.waits (by simp [Sender.Posts]) rfl rfl fun o ho => ?_
  obtain ⟨t, ht, rfl⟩ := List.mem_map.mp ho
  rw [type_outgoing]
  exact hc.posts t ht

theorem keeps_withholds (h : GoodTypes good) (z : Zlib) (free : Prop) (front : List Outgoing) :
    Keeps z free (Withholds good front) := by
  refine keeps_of_change ?_ fun _ _ hc => hc.of_eq rfl rfl
  intro c c' hchange hc
  cases hchange with
  | sender now hs => exact hc.sender h (hs.mono fun _ => .inl)
  | flush now => exact hc.flush now
  | probe | receiver | user => exact hc.of_eq rfl rfl

/-- A call on the sender transmits only good packets. -/
theorem Withholds.call (h : GoodTypes good) {z : Zlib} (now : Timepoint) {c : Connection}
    {call : SenderCall} (hcall : call.Sends IsReliable) (hc : Withholds good front c) :
    Withholds good front (c.call z now call) := by
  apply Withholds.flush
  exact sender_of_changes (P := Withholds good front) (fun c s' hchange hc => hc.sender h hchange)
    (Sender.call_changes hcall) hc

/-- **Only good packets are transmitted**, if the answers to what is heard are good. -/
theorem keepsFront_withholds (h : GoodTypes good) (z : Zlib) {heard : TypeID → Prop}
    (hanswer : ∀ p, IsAnswer heard p → good p.header.type) (front : List Outgoing) :
    KeepsFront z True heard (Withholds good front) := by
  refine (keeps_withholds h z True front).front (fun now _ hcall hc => hc.call h now hcall) ?_
    fun _ _ _ _ _ hc => hc.of_eq rfl rfl
  intro c now packet hpacket hc
  rw [send_eq]
  refine hc.transmit hc.waits hc.posts rfl rfl fun o ho => ?_
  rw [List.mem_singleton.mp ho, type_wire, header_onSend]
  exact hanswer packet hpacket

end

end Connection
end MrUDP
