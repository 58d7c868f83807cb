import MrUDP.Connection.Outstanding
import MrUDP.Endpoint.Legible

/-!
# The exchange of the keys

Two sides exchange their keys in the handshake: the public keys in H0 and H1, the session keys in
H2 and H3.  Packets between them are lost, duplicated and reordered at will.  What a side knows
of the other's keys is right and is never forgotten, and neither side discards a packet of the
other for want of a key.

## Main definitions

* `Endpoint.Remembers`: a key that is known stays known.
* `Session`, `Session.step`: the two sides.
* `Session.Faithful`: every packet that is received was transmitted by the other side.
* `Endpoint.Side`: what is so of either side.
* `Session.keyAgreement`.
-/

namespace MrUDP
open Wire Machine
open Connection (Input Reactions Arrives)
open ConnectionCrypto (SameKeys Knows Understood)

/-! ## Keys are not forgotten -/

/-- The keys that are known stay known. -/
structure ConnectionCrypto.Recalls (c c' : ConnectionCrypto) : Prop where
  same : SameKeys c c'
  publicKey : ∀ key, c.remotePublicKey = some key → c'.remotePublicKey = some key
  sessionKey : ∀ key, c.remoteSessionKey = some key → c'.remoteSessionKey = some key

namespace ConnectionCrypto

theorem Recalls.refl (c : ConnectionCrypto) : Recalls c c := ⟨.refl c, fun _ h => h, fun _ h => h⟩

theorem Recalls.trans {c₁ c₂ c₃ : ConnectionCrypto} (h : Recalls c₁ c₂) (h' : Recalls c₂ c₃) :
    Recalls c₁ c₃ :=
  ⟨h.same.trans h'.same, fun key hkey => h'.publicKey key (h.publicKey key hkey),
    fun key hkey => h'.sessionKey key (h.sessionKey key hkey)⟩

theorem recalls_learn {C : Cipher} {c c' : ConnectionCrypto} {packet packet' : Packet}
    (h : c.learn C packet = some (packet', c')) : Recalls c c' := by
  have hor : ∀ {α : Type} {known : Option α} (new : α) {key : α}, known = some key →
      known.or (some new) = some key := by
    intro α known new key hkey
    rw [hkey]
    rfl
  rw [learn] at h
  split at h
  · split at h
    · cases h
    · split at h
      · cases h
        exact ⟨⟨rfl, rfl, rfl⟩, fun key hkey => hor _ hkey, fun _ hkey => hkey⟩
      · cases h
  · split at h
    · split at h
      · cases h
      · cases h
        exact ⟨⟨rfl, rfl, rfl⟩, fun _ hkey => hkey, fun key hkey => hor _ hkey⟩
    · cases h
      exact .refl _

theorem recalls_onReceive (C : Cipher) (c : ConnectionCrypto) (packet : Packet) :
    Recalls c (c.onReceive C packet).2.2 := by
  rw [onReceive]
  split
  · exact .refl c
  · split
    · exact .refl c
    next hlearn => exact recalls_learn hlearn

end ConnectionCrypto

namespace Endpoint

/-- A key that is known stays known. -/
def Remembers (e e' : Endpoint) : Prop :=
  ∀ c, e.crypto = some c → ∃ c', e'.crypto = some c' ∧ c.Recalls c'

theorem Remembers.of_eq {e e' : Endpoint} (h : e'.crypto = e.crypto) : Remembers e e' :=
  fun c hc => ⟨c, h.trans hc, .refl c⟩

theorem Remembers.trans {e₁ e₂ e₃ : Endpoint} (h : Remembers e₁ e₂) (h' : Remembers e₂ e₃) :
    Remembers e₁ e₃ := by
  intro c hc
  obtain ⟨c₂, hc₂, hrecalls⟩ := h c hc
  obtain ⟨c₃, hc₃, hrecalls'⟩ := h' c₂ hc₂
  exact ⟨c₃, hc₃, hrecalls.trans hrecalls'⟩

theorem remembers_of_sent {e e' : Endpoint} (h : Sent e e') : Remembers e e' := by
  obtain ⟨_, _, _, drawn, _, _, rfl⟩ := h
  intro c hc
  refine ⟨{ c with drawn := drawn c.drawn }, ?_, ⟨rfl, rfl, rfl⟩, fun _ h => h, fun _ h => h⟩
  dsimp only
  rw [hc]
  rfl

theorem walk_remembers (z : Zlib) (C : Cipher) :
    WalkAll z C (fun _ => True) (fun _ _ => True) Remembers where
  toWalk := walk_of_inert (fun _ => .of_eq rfl) .trans
    (fun e now _ _ => remembers_of_sent (sent_call z C now e _))
    (fun e now _ _ => remembers_of_sent (sent_send C now e _ _)) fun h => .of_eq h.crypto
  decrypt := by
    intro e packet _ c hc
    refine ⟨(c.onReceive C packet).2.2, ?_, ConnectionCrypto.recalls_onReceive C c packet⟩
    rw [decrypt, hc]
  heard _ _ _ := trivial
  challenged _ _ _ := .of_eq rfl
  migrate _ _ := .of_eq rfl

theorem remembers_step (z : Zlib) (C : Cipher) (e : Endpoint) (input : Timepoint × Input) :
    Remembers e (e.step z C input) :=
  (walk_remembers z C).step e (receives_of_forall (fun _ _ => trivial) e input)

end Endpoint

/-! ## The two sides -/

/-- An initiator, and the connection that the peer's socket has generated. -/
structure Session where
  initiator : Endpoint
  responder : Option Endpoint := none

namespace Session

/-- What happens to one of the sides. -/
inductive Action
  | initiator (input : Timepoint × Input)
  /-- The peer's socket generates the connection. -/
  | generate (now : Timepoint) (id : LongConnectionID) (localID : ShortConnectionID)
      (remoteAddress : Address) (options : ConnectionOptions)
  | responder (input : Timepoint × Input)

/-- One thing happens.  The packet that the connection was generated from is then received like
any other.  `theirs` are the keys of the responder. -/
def step (z : Zlib) (C : Cipher) (theirs : ConnectionCrypto) (x : Session) : Action → Session
  | .initiator input => { x with initiator := x.initiator.step z C input }
  | .generate now id localID remoteAddress options =>
      match x.responder with
      | none =>
          { x with responder := some (Endpoint.start now
              (Endpoint.fresh (some theirs) id localID remoteAddress options)) }
      | some _ => x
  | .responder input => { x with responder := x.responder.map (·.step z C input) }

/-- A packet that is received was transmitted by the peer. -/
def From (peer : Option Endpoint) : Timepoint × Input → Prop
  | (_, .receive packet _ _) => ∃ e, peer = some e ∧ ∃ o ∈ e.transmitted, Arrives o packet
  | _ => True

/-- Every packet that is received was transmitted by the other side. -/
def Faithful (x : Session) : Action → Prop
  | .initiator input => From x.responder input
  | .generate _ _ _ _ _ => True
  | .responder input => From (some x.initiator) input

end Session

namespace Endpoint

/-- **What is so of either side**: its keys are its own, it knows the peer's keys as they are,
and the peer keeps every packet it has transmitted, and reads what was encrypted, whatever the
peer knows. -/
structure Side (C : Cipher) (mine peer : ConnectionCrypto) (e : Endpoint) : Prop where
  keys : ∃ c, e.crypto = some c ∧ SameKeys mine c ∧ c.Knows peer
  accepted : ∀ o ∈ e.transmitted, ∀ packet, Arrives o packet →
    ∃ plain sealed, .encrypted plain sealed ∈ e.log ∧
      (∃ (c : Connection) (address : Option Address), o = c.wire sealed address) ∧
      ∀ c, SameKeys peer c → ∃ rest c', c.onReceive C packet =
        (.keep,
          { packet with
            header := { packet.header with type := plain.header.type, id := plain.header.id }
            data := plain.data
            rest := rest }, c')
  faultless : ∀ fault, .faulted fault ∉ e.log

theorem Speaks.side {C : Cipher} {mine peer : ConnectionCrypto} {e : Endpoint}
    (h : Speaks C mine peer e) : Side C mine peer e where
  keys := h.crypto
  accepted o ho packet harrives := by
    obtain ⟨sealed, ⟨plain, hlog, hunderstood, hfits, _⟩, c, address, rfl⟩ := h.transmitted o ho
    obtain ⟨hheader, hdata⟩ := Connection.arrives_wire harrives
    refine ⟨plain, sealed, hlog, ⟨c, address, rfl⟩, fun c' hsame => ?_⟩
    obtain ⟨rest, hkeep⟩ :=
      hunderstood c' hsame packet (by rw [hheader]) (by rw [hheader]) (hdata hfits)
    exact ⟨rest, _, hkeep⟩
  faultless := h.faultless

/-- Nothing is known of the peer. -/
theorem speaks_fresh (C : Cipher) {mine : ConnectionCrypto} (peer : ConnectionCrypto)
    (hpublic : mine.remotePublicKey = none) (hsession : mine.remoteSessionKey = none)
    (id : LongConnectionID) (localID : ShortConnectionID) (remoteAddress : Address)
    (options : ConnectionOptions) :
    Speaks C mine peer (fresh (some mine) id localID remoteAddress options) where
  crypto := ⟨mine, rfl, .refl mine, ⟨by simp [hpublic], by simp [hsession]⟩⟩
  queues := .init
  outbox := rfl
  window k paths n hk := by simp [fresh, Connection.fresh, Retrier.outstanding] at hk
  pending := by simp
  transmitted := by simp [fresh, Connection.fresh]
  faultless := by simp [fresh]

/-- A step on honest packets. -/
theorem Speaks.step {z : Zlib} {C : Cipher} {mine peer : ConnectionCrypto} {e other : Endpoint}
    (h : Sound C mine peer) (he : Speaks C mine peer e) (hother : Speaks C peer mine other)
    {input : Timepoint × Input} (hfrom : Session.From (some other) input) :
    Speaks C mine peer (e.step z C input) := by
  refine (walk_speaks h).step e ?_ he
  obtain ⟨now, input⟩ := input
  cases input with
  | receive packet path reactions =>
      obtain ⟨c, hcrypto, hsame, _⟩ := he.crypto
      obtain ⟨e', heq, o, ho, harrives⟩ := hfrom
      cases heq
      exact ⟨⟨c, hcrypto, hsame⟩, honest_of_arrives hother ho harrives⟩
  | user | processSchedule | retryTimeout | probeTimeout | close => trivial

end Endpoint

namespace Session

variable {z : Zlib} {C : Cipher} {mine theirs : ConnectionCrypto} {x : Session}

/-- Both sides can be read. -/
structure Converses (C : Cipher) (mine theirs : ConnectionCrypto) (x : Session) : Prop where
  initiator : Endpoint.Speaks C mine theirs x.initiator
  responder : ∀ r, x.responder = some r → Endpoint.Speaks C theirs mine r

theorem Converses.step (h : Endpoint.Sound C mine theirs) (hx : Converses C mine theirs x)
    (hpublic : theirs.remotePublicKey = none) (hsession : theirs.remoteSessionKey = none)
    {action : Action} (hfaithful : Faithful x action) :
    Converses C mine theirs (x.step z C theirs action) := by
  have h' : Endpoint.Sound C theirs mine := ⟨h.lawful, h.peer, h.mine⟩
  cases action with
  | initiator input =>
      refine ⟨?_, hx.responder⟩
      cases hresponder : x.responder with
      | some r =>
          rw [Faithful, hresponder] at hfaithful
          exact hx.initiator.step h (hx.responder r hresponder) hfaithful
      | none =>
          -- Without a responder nothing is received.
          rw [Faithful, hresponder] at hfaithful
          refine (Endpoint.walk_speaks h).step x.initiator ?_ hx.initiator
          obtain ⟨now, input⟩ := input
          cases input with
          | receive =>
              obtain ⟨_, hnone, _⟩ := hfaithful
              cases hnone
          | user | processSchedule | retryTimeout | probeTimeout | close => trivial
  | generate now id localID remoteAddress options =>
      rw [Session.step]
      split
      · refine ⟨hx.initiator, fun r hr => ?_⟩
        obtain rfl := Option.some.inj hr
        exact (Endpoint.walk_speaks (z := z) h').probe _ _
          (Endpoint.speaks_fresh C mine hpublic hsession _ _ _ _)
      · exact hx
  | responder input =>
      refine ⟨hx.initiator, fun r' hr' => ?_⟩
      obtain ⟨r, hr, rfl⟩ := Option.map_eq_some_iff.mp hr'
      exact (hx.responder r hr).step h' hx.initiator hfaithful

/-- A side that is there stays, and remembers what it knows. -/
structure Recollects (x x' : Session) : Prop where
  initiator : x.initiator.Remembers x'.initiator
  responder : ∀ r, x.responder = some r → ∃ r', x'.responder = some r' ∧ r.Remembers r'

theorem Recollects.refl (x : Session) : Recollects x x :=
  ⟨.of_eq rfl, fun r hr => ⟨r, hr, .of_eq rfl⟩⟩

theorem Recollects.trans {x₁ x₂ x₃ : Session} (h : Recollects x₁ x₂) (h' : Recollects x₂ x₃) :
    Recollects x₁ x₃ := by
  refine ⟨h.initiator.trans h'.initiator, fun r hr => ?_⟩
  obtain ⟨r₂, hr₂, hrecalls⟩ := h.responder r hr
  obtain ⟨r₃, hr₃, hrecalls'⟩ := h'.responder r₂ hr₂
  exact ⟨r₃, hr₃, hrecalls.trans hrecalls'⟩

theorem recollects_step (x : Session) (action : Action) :
    Recollects x (x.step z C theirs action) := by
  cases action with
  | initiator input =>
      exact ⟨Endpoint.remembers_step z C _ input, fun r hr => ⟨r, hr, .of_eq rfl⟩⟩
  | generate now id localID remoteAddress options =>
      rw [step]
      split
      next hnone =>
        refine ⟨.of_eq rfl, fun r hr => ?_⟩
        rw [hnone] at hr
        cases hr
      · exact .refl x
  | responder input =>
      refine ⟨.of_eq rfl, fun r hr => ⟨_, ?_, Endpoint.remembers_step z C r input⟩⟩
      rw [step, hr]
      rfl

theorem recollects_run (x : Session) (actions : List Action) :
    Recollects x (run (step z C theirs) x actions) :=
  run_invariant_of_step (Recollects x) (fun _ action h => h.trans (recollects_step _ action))
    (.refl x) actions

/-- **The keys agree**: in every run in which the two sides receive only what the other has
transmitted, each side knows the other's keys as they are or not at all, keeps what it knows,
and accepts and reads every packet that the other has transmitted. -/
theorem keyAgreement (h : Endpoint.Sound C mine theirs)
    (hmine : mine.remotePublicKey = none ∧ mine.remoteSessionKey = none)
    (htheirs : theirs.remotePublicKey = none ∧ theirs.remoteSessionKey = none)
    (id : LongConnectionID) (localID : ShortConnectionID) (remoteAddress : Address)
    (socketOptions : ConnectionOptions) (now : Timepoint) (options : Option ConnectionOptions)
    (receiveHandler closeHandler : Bool) {actions : List Action}
    (hfaithful : Along (step z C theirs) Faithful
      { initiator := Endpoint.connect z C now options receiveHandler closeHandler
          (Endpoint.fresh (some mine) id localID remoteAddress socketOptions) } actions) :
    let x₀ : Session :=
      { initiator := Endpoint.connect z C now options receiveHandler closeHandler
          (Endpoint.fresh (some mine) id localID remoteAddress socketOptions) }
    let x := run (step z C theirs) x₀ actions
    x.initiator.Side C mine theirs ∧
      (∀ r, x.responder = some r → r.Side C theirs mine) ∧
      ∀ before, before <+: actions → Recollects (run (step z C theirs) x₀ before) x := by
  intro x₀ x
  have hstart : Converses C mine theirs x₀ :=
    ⟨(Endpoint.walk_speaks h).connect now options receiveHandler closeHandler
      (Endpoint.speaks_fresh C theirs hmine.1 hmine.2 _ _ _ _), fun r hr => by cases hr⟩
  have hconverses : Converses C mine theirs x :=
    run_invariant (Converses C mine theirs)
      (fun _ _ hx hok => hx.step h htheirs.1 htheirs.2 hok) hstart hfaithful
  refine ⟨hconverses.initiator.side, fun r hr => (hconverses.responder r hr).side, ?_⟩
  rintro before ⟨after, rfl⟩
  show Recollects _ (run (step z C theirs) x₀ (before ++ after))
  rw [run_append]
  exact recollects_run _ after

/-! ## A run -/

/-- The last packet that a side has transmitted, as it arrives. -/
def relay (e : Option Endpoint) : Packet :=
  match e.bind (·.transmitted.getLast?) with
  | none => { header := { type := TypeID.none } }
  | some o => (getLookUp { o.packet with rest := [] }).2

theorem from_relay {e : Option Endpoint}
    (h : (e.bind (·.transmitted.getLast?)).isSome = true) (now : Timepoint) (path : Address)
    (reactions : Reactions) : From e (now, .receive (relay e) path reactions) := by
  obtain ⟨o, ho⟩ := Option.isSome_iff_exists.mp h
  obtain ⟨e', rfl, hlast⟩ := Option.bind_eq_some_iff.mp ho
  refine ⟨e', rfl, o, List.mem_of_getLast? hlast, [], ?_⟩
  rw [relay, ho]

/-- The side that hears the other's last packet. -/
inductive Turn
  | initiator
  | responder

/-- The initiator is at address 2, the responder at address 1. -/
def Turn.action (x : Session) : Turn → Action
  | .initiator => .initiator (3, .receive (relay x.responder) 1 {})
  | .responder => .responder (2, .receive (relay (some x.initiator)) 2 {})

/-- The side that is heard. -/
def Turn.speaker (x : Session) : Turn → Option Endpoint
  | .initiator => x.responder
  | .responder => some x.initiator

/-- Each side hears the last packet of the other in turn. -/
def talk (x : Session) : List Turn → List Action
  | [] => []
  | turn :: turns =>
      turn.action x :: talk (x.step Connection.storing .marking (.numbered 2) (turn.action x)) turns

/-- There is something to be heard in every turn. -/
def audible (x : Session) : List Turn → Bool
  | [] => true
  | turn :: turns =>
      ((turn.speaker x).bind (·.transmitted.getLast?)).isSome &&
        audible (x.step Connection.storing .marking (.numbered 2) (turn.action x)) turns

theorem faithful_talk {turns : List Turn} (h : audible x turns = true) :
    Along (step Connection.storing .marking (.numbered 2)) Faithful x (talk x turns) := by
  induction turns generalizing x with
  | nil => trivial
  | cons turn turns ih =>
      obtain ⟨hspeaker, hrest⟩ := Bool.and_eq_true_iff.mp h
      refine ⟨?_, ih hrest⟩
      cases turn with
      | initiator => exact from_relay hspeaker 3 1 {}
      | responder => exact from_relay hspeaker 2 2 {}

/-- An initiator that has sent H0. -/
def opening : Session :=
  { initiator := Endpoint.connect Connection.storing .marking 0 none true true
      (Endpoint.fresh (some (.numbered 1)) 5 3 1 Connection.immediate) }

/-- The peer's socket generates a connection, and the handshake is completed. -/
def handshake : List Action :=
  let generate : Action := .generate 1 5 7 2 Connection.immediate
  generate :: talk (opening.step Connection.storing .marking (.numbered 2) generate)
    [.responder, .initiator, .responder, .initiator]

theorem faithful_handshake :
    Along (step Connection.storing .marking (.numbered 2)) Faithful opening handshake :=
  ⟨trivial, faithful_talk (by decide +kernel)⟩

/-- The two sides after the handshake. -/
def established : Session := run (step Connection.storing .marking (.numbered 2)) opening handshake

theorem sound_marking (m n : ℕ) :
    Endpoint.Sound .marking (.numbered m) (.numbered n) :=
  ⟨Cipher.lawful_marking, Cipher.pairs_marking (by simp [ConnectionCrypto.numbered, rsaKeySize]) _,
    Cipher.pairs_marking (by simp [ConnectionCrypto.numbered, rsaKeySize]) _⟩

/-- After the handshake both sides know both keys. -/
theorem keyAgreement_handshake :
    (established.initiator.crypto.bind (·.remoteSessionKey)) = some 2 ∧
      ((established.responder.bind (·.crypto)).bind (·.remoteSessionKey)) = some 1 ∧
      established.initiator.Side .marking (.numbered 1) (.numbered 2) ∧
      (∀ r, established.responder = some r → r.Side .marking (.numbered 2) (.numbered 1)) := by
  obtain ⟨hinitiator, hresponder, _⟩ := keyAgreement (sound_marking 1 2) ⟨rfl, rfl⟩ ⟨rfl, rfl⟩
    5 3 1 Connection.immediate 0 none true true faithful_handshake
  exact ⟨by decide +kernel, by decide +kernel, hinitiator, hresponder⟩

end Session
end MrUDP
