import MrUDP.Connection.Transmitted
import MrUDP.Socket.Tables

/-!
# Connections that are not accepted

A connection that `acceptHandler` refuses is closed, but it stays in the look-up tables
until its finish timeout runs out.  A packet that is found to be for it in the meantime is
received as by any other connection: a repeated H0 is answered with H1, an H2 with H3, and
the peer's handshake completes.

Only H0 and H2 have this effect, and only if they come from the address the connection
has for its peer.

## Main definitions

* `Socket.answers`: the H1 and H3 packets transmitted for a long identifier.
* `Socket.Refuses`, `Socket.Spares`: nothing is accepted, and no rejected connection is asked.
* `Socket.answers_run`: then nothing is answered.
-/

namespace MrUDP
open Wire

namespace Connection

variable {z : Zlib} {c : Connection}

/-! ## Answers -/

/-- The H1 and H3 packets transmitted. -/
def answers (c : Connection) : List Outgoing :=
  c.transmitted.filter fun o =>
    o.packet.header.type = TypeID.h1 ∨ o.packet.header.type = TypeID.h3

/-- All but the answers of the handshake. -/
def NotAnswer (type : TypeID) : Prop := type ≠ TypeID.h1 ∧ type ≠ TypeID.h3

instance : DecidablePred NotAnswer :=
  fun _ => inferInstanceAs (Decidable (_ ∧ _))

/-- All but the packets the handshake answers. -/
def NotAsking (type : TypeID) : Prop := type ≠ TypeID.h0 ∧ type ≠ TypeID.h2

theorem goodTypes_notAnswer : GoodTypes NotAnswer where
  data := by decide
  probe := by decide
  closeRead := by decide
  h0 := by decide
  h2 := by decide
  challenge := by decide

theorem keepsFront_notAnswer (z : Zlib) (front : List Outgoing) :
    KeepsFront z True NotAsking (Withholds NotAnswer front) := by
  apply keepsFront_withholds goodTypes_notAnswer z
  rintro p (⟨_, hasked⟩ | ⟨_, hasked⟩ | hp)
  · exact absurd rfl hasked.1
  · exact absurd rfl hasked.2
  · rw [hp]
    decide

theorem answers_of_withholds {front : List Outgoing} (h : Withholds NotAnswer front c) :
    c.answers = front.filter fun o =>
      o.packet.header.type = TypeID.h1 ∨ o.packet.header.type = TypeID.h3 := by
  obtain ⟨os, hos, hgood⟩ := h.transmitted
  have hnone : (os.filter fun o => decide (o.packet.header.type = TypeID.h1 ∨
      o.packet.header.type = TypeID.h3)) = [] := by
    rw [List.filter_eq_nil_iff]
    intro o ho
    simp [(hgood o ho).1, (hgood o ho).2]
  rw [answers, hos, List.filter_append, hnone, List.append_nil]

/-- **A connection that is not asked does not answer.** -/
theorem answers_step (hc : Reachable z c) (input : Timepoint × Input)
    (hheard : input.2.Hears NotAsking) : (c.step z input).answers = c.answers := by
  have hwithholds : Withholds NotAnswer c.transmitted c :=
    .of_reachable goodTypes_notAnswer hc (.inr (by decide))
  exact answers_of_withholds ((keepsFront_notAnswer z c.transmitted).step
    (Input.within_true input.2) hheard hwithholds)

/-- Nor does one that is asked from elsewhere. -/
theorem answers_receive_elsewhere (hc : Reachable z c) {packet : Packet}
    (htype : packet.header.type = TypeID.h0 ∨ packet.header.type = TypeID.h2) {path : Address}
    (hpath : path ≠ c.remoteAddress) (now : Timepoint) (reactions : Reactions) :
    (c.receive z now reactions packet path).answers = c.answers := by
  have hwithholds : Withholds NotAnswer c.transmitted c :=
    .of_reachable goodTypes_notAnswer hc (.inr (by decide))
  have hpaths := (keepsFront_notAnswer z c.transmitted).networkPathOnReceive now packet path
    hwithholds
  have hh3 : packet.header.type ≠ TypeID.h3 := by
    rcases htype with h | h <;> rw [h] <;> decide
  have hchallenge : packet.header.type ≠ TypeID.authenticateChallenge := by
    rcases htype with h | h <;> rw [h] <;> decide
  have hresponse : packet.header.type ≠ TypeID.authenticateResponse := by
    rcases htype with h | h <;> rw [h] <;> decide
  have hrun : c.receive z now reactions packet path =
      (networkPathOnReceive z now c packet path).2.2 := by
    rw [receive, HandshakeOptions.onReceive, if_neg hh3]
    simp only [networkPathOnReceive, if_neg hchallenge, if_pos hpath, if_neg hresponse]
  rw [hrun]
  exact answers_of_withholds hpaths

/-- Nothing has been transmitted by a connection that has only been created. -/
theorem withholds_fresh (id : LongConnectionID) (localID : ShortConnectionID)
    (remoteAddress : Address) (options : ConnectionOptions) :
    Withholds NotAnswer [] (fresh id localID remoteAddress options) where
  waits := by
    intro k paths n hk
    simp [fresh, Retrier.outstanding] at hk
  posts := by
    intro t ht
    cases ht
  unreliable := .inr (by decide)
  transmitted := ⟨[], rfl, by simp⟩

theorem answers_connect (now : Timepoint) (options : Option ConnectionOptions)
    (receiveHandler closeHandler : Bool) (id : LongConnectionID) (localID : ShortConnectionID)
    (remoteAddress : Address) (socketOptions : ConnectionOptions) :
    (connect z now options receiveHandler closeHandler
      (fresh id localID remoteAddress socketOptions)).answers = [] := by
  have hkeeps := keepsFront_notAnswer z []
  have hstart : Withholds NotAnswer [] (start now
      ((fresh id localID remoteAddress socketOptions).openUser options receiveHandler
        closeHandler)) := by
    apply hkeeps.probe
    apply hkeeps.openUser (.inr trivial)
    apply withholds_fresh
  have hrequest : Withholds NotAnswer [] (sendReliably z now _
      { header := { type := TypeID.h0 } }) :=
    hkeeps.request now (.inl ⟨.inl rfl, by decide, by decide⟩) hstart
  have hconnect : Withholds NotAnswer [] (connect z now options receiveHandler closeHandler
      (fresh id localID remoteAddress socketOptions)) := hrequest.of_eq rfl rfl
  exact answers_of_withholds hconnect

end Connection

namespace Socket

variable {z : Zlib} {s : Socket} {id : LongConnectionID}

/-- The H1 and H3 packets transmitted for a long identifier. -/
def answers (s : Socket) (id : LongConnectionID) : List Outgoing :=
  s.objects.flatMap fun c => if c.id = id then c.answers else []

/-- No connection is accepted for the identifier. -/
def Refuses (z : Zlib) (id : LongConnectionID) (s : Socket) : Timepoint × Input → Prop
  | (now, .receive packet remoteAddress o) =>
      s.findConnection (getLookUp packet).1 = none → (getLookUp packet).1.longID = id →
        (s.generateConnection z now (getLookUp packet).1 (getLookUp packet).2 remoteAddress
          o).1 = none
  | _ => True

/-- No connection with the identifier is asked by the handshake: an H0 or H2 packet found
to be for one comes from elsewhere than its peer's address. -/
def Spares (id : LongConnectionID) (s : Socket) : Timepoint × Input → Prop
  | (_, .receive packet remoteAddress _) =>
      packet.header.type = TypeID.h0 ∨ packet.header.type = TypeID.h2 →
        ∀ k ∈ s.findConnection (getLookUp packet).1, ∀ c ∈ s.objects[k]?,
          c.id = id → remoteAddress ≠ c.remoteAddress
  | _ => True

instance (z : Zlib) (id : LongConnectionID) (s : Socket) :
    ∀ input, Decidable (Refuses z id s input)
  | (_, .receive _ _ _) => inferInstanceAs (Decidable (_ → _ → _))
  | (_, .listen _ _) | (_, .close) | (_, .connect ..) | (_, .object _ _) | (_, .finish _) =>
      isTrue trivial

instance (id : LongConnectionID) (s : Socket) : ∀ input, Decidable (Spares id s input)
  | (_, .receive packet _ _) =>
      inferInstanceAs (Decidable (_ ∨ _ → ∀ k ∈ s.findConnection (getLookUp packet).1,
        ∀ c ∈ s.objects[k]?, _ → _))
  | (_, .listen _ _) | (_, .close) | (_, .connect ..) | (_, .object _ _) | (_, .finish _) =>
      isTrue trivial

/-! ## One step -/

section
variable {β : Type} {f : Connection → List β}

theorem flatMap_modify {objects : List Connection} {k : ℕ} {g : Connection → Connection}
    (h : ∀ c ∈ objects[k]?, f (g c) = f c) :
    (objects.modify k g).flatMap f = objects.flatMap f := by
  have hmap : (objects.modify k g).map f = objects.map f := by
    apply List.ext_getElem?
    intro i
    rw [List.getElem?_map, List.getElem?_map, List.getElem?_modify]
    cases hi : objects[i]? with
    | none => simp
    | some c =>
        by_cases hk : k = i
        · subst hk
          simpa using h c hi
        · simp [hk]
  rw [List.flatMap_def, hmap, ← List.flatMap_def]

theorem flatMap_add {objects : List Connection} {c : Connection} (h : f c = []) :
    (objects ++ [c]).flatMap f = objects.flatMap f := by
  simp [List.flatMap_append, h]

end

theorem answers_created (now : Timepoint) (script : List UserCall) (id : LongConnectionID)
    (localID : ShortConnectionID) (remoteAddress : Address) (options : ConnectionOptions) :
    Connection.Withholds Connection.NotAnswer []
      (created z now script id localID remoteAddress options) := by
  have hkeeps := Connection.keepsFront_notAnswer z []
  apply hkeeps.userCalls now script (UserCall.withinAll_true script)
  apply hkeeps.probe
  apply Connection.withholds_fresh

theorem answers_receive (hs : ∀ c ∈ s.objects, Connection.Reachable z c) (now : Timepoint)
    (packet : Packet) (remoteAddress : Address) (o : Surroundings)
    (hrefuses : Refuses z id s (now, .receive packet remoteAddress o))
    (hspares : Spares id s (now, .receive packet remoteAddress o)) :
    (s.receive z now packet remoteAddress o).answers id = s.answers id := by
  rw [receive]
  dsimp only
  rw [findOrGenerateConnection]
  cases hfind : s.findConnection (getLookUp packet).1 with
  | some k =>
      -- The packet is for an object in the tables.
      apply flatMap_modify
      intro c hc
      have hid := Connection.id_step (z := z) (c := c)
        (now, .receive (getLookUp packet).2 remoteAddress o.reactions)
      change (if (c.step z (now, .receive (getLookUp packet).2 remoteAddress o.reactions)).id = id
        then _ else []) = _
      rw [hid]
      split
      next hcid =>
        have hreachable := hs c (List.mem_of_getElem? hc)
        by_cases htype : packet.header.type = TypeID.h0 ∨ packet.header.type = TypeID.h2
        · apply Connection.answers_receive_elsewhere hreachable
          · rwa [header_getLookUp]
          · exact hspares htype k hfind c hc hcid
        · apply Connection.answers_step hreachable
            (now, .receive (getLookUp packet).2 remoteAddress o.reactions)
          rw [not_or] at htype
          change Connection.NotAsking (getLookUp packet).2.header.type
          rwa [header_getLookUp]
      · rfl
  | none =>
      have hrefuses := hrefuses hfind
      dsimp only
      by_cases hwilling : s.Willing (getLookUp packet).1 (getLookUp packet).2 o
      swap
      · rw [generateConnection_of_not_willing hwilling]
      rw [generateConnection_of_willing hwilling] at hrefuses ⊢
      cases hacquired : acquireShortConnectionID s.shortConnectionIDs o.random with
      | none => rfl
      | some localID =>
      rw [hacquired] at hrefuses
      dsimp only at hrefuses ⊢
      by_cases hopens : o.opens = false
      · rw [if_pos hopens]
        rfl
      rw [if_neg hopens] at hrefuses ⊢
      by_cases haccepts : o.accepts = false
      · -- The object added is not accepted, and has answered nothing.
        rw [if_pos haccepts]
        apply flatMap_add
        split
        · have hkeeps := Connection.keepsFront_notAnswer z []
          exact Connection.answers_of_withholds (hkeeps.closeWith now _
            (hkeeps.userCalls now _ (UserCall.withinAll_true _)) (answers_created ..))
        · rfl
      · -- The object added is accepted, so it is another identifier's.
        rw [if_neg haccepts] at hrefuses ⊢
        have hother : (getLookUp packet).1.longID ≠ id := fun h => by cases hrefuses h
        have hcid := (ids_created (z := z) now o.script (getLookUp packet).1.longID localID
          remoteAddress s.options).1
        change ((s.objects ++ [_]).modify s.objects.length _).flatMap _ = _
        rw [flatMap_modify]
        · apply flatMap_add
          rw [if_neg]
          rwa [hcid]
        · intro c hc
          obtain rfl : created z now o.script (getLookUp packet).1.longID localID remoteAddress
            s.options = c := by simpa using hc
          have hid := Connection.id_step (z := z) (c := created z now o.script
            (getLookUp packet).1.longID localID remoteAddress s.options)
            (now, .receive (getLookUp packet).2 remoteAddress o.reactions)
          change (if (Connection.step z _ (now, .receive (getLookUp packet).2 remoteAddress
            o.reactions)).id = id then _ else []) = _
          rw [hid, hcid, if_neg hother, if_neg hother]

theorem answers_step (hs : ∀ c ∈ s.objects, Connection.Reachable z c)
    (input : Timepoint × Input) (hrefuses : Refuses z id s input) (hspares : Spares id s input) :
    (s.step z input).answers id = s.answers id := by
  obtain ⟨now, input⟩ := input
  cases input with
  | listen shouldAccept acceptHandler =>
      rw [step, listen]
      split <;> rfl
  | close =>
      rw [step, close]
      split <;> rfl
  | connect remoteAddress options receiveHandler closeHandler longID random opens =>
      rw [step, connect]
      split
      · rfl
      · dsimp only
        split
        · apply flatMap_add
          split
          · apply Connection.answers_connect
          · rfl
        · rfl
  | receive packet remoteAddress o =>
      exact answers_receive hs now packet remoteAddress o hrefuses hspares
  | object k input =>
      rw [step]
      split
      next hinternal =>
        apply flatMap_modify
        intro c hc
        have hreachable := hs c (List.mem_of_getElem? hc)
        have hheard : input.Hears Connection.NotAsking := by
          cases input with
          | receive packet path reactions => cases hinternal
          | user | processSchedule | retryTimeout | probeTimeout | close => trivial
        rw [Connection.id_step, Connection.answers_step hreachable _ hheard]
      · rfl
  | finish k =>
      rw [step, finish]
      split
      · rfl
      · split <;> rfl

/-! ## A run -/

/-- **A long identifier that is refused is not answered**, as long as none of its rejected
connections is asked while it is still in the tables: from any reachable state on, in every
run in which no connection is accepted for the identifier and no H0 or H2 of the peer is
found to be for a connection with the identifier, no H1 or H3 is transmitted for it. -/
theorem answers_run (hs : Reachable z s) {inputs : List (Timepoint × Input)}
    (hrefuses : Machine.Along (step z) (Refuses z id) s inputs)
    (hspares : Machine.Along (step z) (Spares id) s inputs) :
    (Machine.run (step z) s inputs).answers id = s.answers id := by
  refine (Machine.run_invariant (fun s' => Reachable z s' ∧ s'.answers id = s.answers id) ?_
    ⟨hs, rfl⟩ (hrefuses.and hspares)).2
  rintro s' input ⟨hs', hsame⟩ ⟨hrefuses', hspares'⟩
  constructor
  · obtain ⟨options, inputs', rfl⟩ := hs'
    exact ⟨options, inputs' ++ [input], by simp⟩
  · rw [answers_step (reachable_objects hs') input hrefuses' hspares', hsame]

/-! ## A peer that asks again -/

open Connection (storing immediate connecting)

/-- A socket that listens. -/
def listening : Socket := ({ options := immediate } : Socket).listen false true

theorem reachable_listening : Reachable storing listening :=
  ⟨immediate, [(0, .listen false true)], rfl⟩

/-- `acceptHandler` fails. -/
def refusing : Surroundings := { random := 9, accepts := false }

/-- The H0 of a peer with the long identifier 5. -/
def h0OfPeer : Packet := { header := { type := TypeID.h0, id := 0 }, data := leBytes 16 5 }

/-- The H2 of that peer, whose short identifier is 3. -/
def h2OfPeer : Packet :=
  { header := { type := TypeID.h2, id := 1 }, data := leBytes 2 3 ++ leBytes 16 5 }

/-- The peer asks again after the rejected connection is gone. -/
def askingLate : List (Timepoint × Input) :=
  [(1, .receive h0OfPeer 2 refusing), (2, .finish 0), (3, .receive h2OfPeer 2 refusing),
    (4, .receive h0OfPeer 2 refusing)]

/-- The peer asks again at once. -/
def askingAgain : List (Timepoint × Input) :=
  [(1, .receive h0OfPeer 2 refusing), (2, .receive h0OfPeer 2 refusing),
    (3, .receive h2OfPeer 2 refusing)]

/-- A peer that asks late is not answered. -/
theorem answers_run_askingLate :
    (Machine.run (step storing) listening askingLate).answers 5 = listening.answers 5 :=
  answers_run reachable_listening (by decide +kernel) (by decide +kernel)

/-- **A peer that asks again at once is answered**, and its handshake completes, though every
connection for it is refused. -/
theorem answered_after_rejection :
    let s := Machine.run (step storing) listening askingAgain
    let peer := Machine.run (Connection.step storing) (connecting immediate)
      ((s.answers 5).map fun o => (9, .receive (getLookUp o.packet).2 1 {}))
    Reachable storing listening ∧
      Machine.Along (step storing) (Refuses storing 5) listening askingAgain ∧
      (connecting immediate).transmitted.map Outgoing.packet = [h0OfPeer] ∧
      (s.answers 5).map (fun o => o.packet.header.type) = [TypeID.h1, TypeID.h3] ∧
      h2OfPeer ∈ peer.transmitted.map Outgoing.packet ∧
      peer.handshake.waitingFor = TypeID.handshakeComplete := by
  refine ⟨reachable_listening, ?_⟩
  decide +kernel

end Socket
end MrUDP
