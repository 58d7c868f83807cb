import MrUDP.Connection.Invariants
import MrUDP.Connection.ProbeTimer

/-!
# The moves of a connection

`MrUDP.Connection.Invariants` says what a step can do to a property, whatever the probe and the
receive queue become.  Here a step is a chain of moves that say exactly what happens to these two:
the probe is told of a packet, goes off or is closed, and the receiver is closed, opened, or given
a packet.

Two kinds of moves can be left out.  `again` says whether the user may register its handlers again,
and `hears` whether the receiver passes anything on.

## Main definitions

* `UserCall.Registers`: the user registers handlers only if it may.
* `Connection.Move`, `Connection.Moves`: the moves, and the chains of moves.
* `Connection.moves_step`: a step is a chain of moves.
* `Connection.Calm`: what a chain of moves leaves alone as long as nothing is passed on.
-/

namespace MrUDP
open Relation (ReflTransGen)
open Machine

/-! ## Users that register their handlers once -/

namespace UserCall

mutual

/-- The call registers no handlers, unless it may do so again. -/
def Registers (again : Prop) : UserCall → Prop
  | .send _ _ => True
  | .close onClose onCloseUser => RegistersAll again onClose ∧ RegistersAll again onCloseUser
  | .accept _ _ _ => again
  | .setOptions _ => True

/-- None of the calls registers handlers, unless they may do so again. -/
def RegistersAll (again : Prop) : List UserCall → Prop
  | [] => True
  | call :: calls => Registers again call ∧ RegistersAll again calls

end

mutual

theorem registers_true : ∀ call, Registers True call
  | .send _ _ => trivial
  | .close onClose onCloseUser => ⟨registersAll_true onClose, registersAll_true onCloseUser⟩
  | .accept _ _ _ => trivial
  | .setOptions _ => trivial

theorem registersAll_true : ∀ calls, RegistersAll True calls
  | [] => trivial
  | call :: calls => ⟨registers_true call, registersAll_true calls⟩

end

end UserCall

namespace Connection

/-- The user's handlers register none, unless they may. -/
def Reactions.Registers (again : Prop) (reactions : Reactions) : Prop :=
  (∀ script ∈ reactions.opened, UserCall.RegistersAll again script) ∧
    UserCall.RegistersAll again reactions.acked ∧
    ∀ script ∈ reactions.received, UserCall.RegistersAll again script

/-- The user registers no handlers, unless it may. -/
def Input.Registers (again : Prop) : Input → Prop
  | .user call => UserCall.Registers again call
  | .receive _ _ reactions => reactions.Registers again
  | .processSchedule _ => True
  | .retryTimeout script | .probeTimeout script | .close _ script =>
      UserCall.RegistersAll again script

theorem Input.registers_true (input : Input) : input.Registers True := by
  cases input with
  | user call => exact UserCall.registers_true call
  | receive packet path reactions =>
      exact ⟨fun script _ => UserCall.registersAll_true script, UserCall.registersAll_true _,
        fun script _ => UserCall.registersAll_true script⟩
  | processSchedule => trivial
  | retryTimeout script | probeTimeout script | close event script =>
      exact UserCall.registersAll_true script

/-! ## Moves -/

/-- What `Connection::fail` does before it calls `possiblyClose`. -/
theorem failParts_eq (z : Zlib) (now : Timepoint) (c : Connection) (event : Event) :
    ∃ probe, c.failParts z now event =
      { c with
        closeReason := event
        sender := { c.sender.fail with outbox := [] }
        probe := probe
        receiver := { c.receiver with status := .closed }
        transmitted := c.transmitted ++ c.sender.fail.outbox.map c.outgoing } :=
  call_eq z now _ .fail

/-- What the methods of a connection are made of, at the time they are called. -/
inductive Move (z : Zlib) (now : Timepoint) (again hears : Prop) : Connection → Connection → Prop
  | call (c : Connection) (call : SenderCall) : Move z now again hears c (c.call z now call)
  | send (c : Connection) (packet : Packet) : Move z now again hears c (c.send now packet)
  | probe (c : Connection) : Move z now again hears c { c with probe := c.probe.on c.options now }
  | probeTimeout (c : Connection) :
      Move z now again hears c
        { c with probe := (c.probe.onTimeout (Probe.calculateInterval c.options) now).2 }
  | closeReceiver (c : Connection) :
      Move z now again hears c { c with receiver := { c.receiver with status := .closed } }
  | fail (c : Connection) (event : Event) : Move z now again hears c (c.failParts z now event)
  | close (c : Connection) : Move z now again hears c { c with closed := true }
  | finishWhenReady (c : Connection) : Move z now again hears c (c.finishWhenReady now)
  | dispose (c : Connection) {closeEvents : List Event} (h : c.closeEvents <+: closeEvents) :
      Move z now again hears c
        { c with
          userDataDisposed := true
          receiveHandler := false
          closeHandler := false
          closeEvents := closeEvents }
  | register (c : Connection) (receiveHandler closeHandler : Bool) (hagain : again)
      (h : c.userDataDisposed = true) :
      Move z now again hears c
        { c with
          userDataDisposed := false
          receiveHandler := receiveHandler
          closeHandler := closeHandler }
  | options (c : Connection) (options : ConnectionOptions) :
      Move z now again hears c { c with options := options }
  | handshake (c : Connection) (remoteID : ShortConnectionID) (handshake : Handshake) :
      Move z now again hears c { c with remoteID := remoteID, handshake := handshake }
  | remoteAddress (c : Connection) (address : Address) :
      Move z now again hears c { c with remoteAddress := address }
  | openReceiver (c : Connection) (hhears : hears) :
      Move z now again hears c { c with receiver := (c.receiver.open z).2 }
  | receive (c : Connection) (packet : Packet) (hhears : hears) :
      Move z now again hears c { c with receiver := (c.receiver.onReceive z packet).2 }
  | deliver (c : Connection) (data : Bytes × Reliability) (hhears : hears)
      (h : c.receiveHandler = true) :
      Move z now again hears c { c with delivered := c.delivered ++ [data] }

/-- A chain of moves. -/
abbrev Moves (z : Zlib) (now : Timepoint) (again hears : Prop) :
    Connection → Connection → Prop :=
  ReflTransGen (Move z now again hears)

section
variable {z : Zlib} {now : Timepoint} {again hears : Prop}

/-! ## The methods -/

section
variable {react : Connection → Connection} (hreact : ∀ c, Moves z now again hears c (react c))
include hreact

theorem moves_closeUser (event : Event) (c : Connection) :
    Moves z now again hears c (closeUser react event c) := by
  rw [closeUser]
  split
  · exact .refl
  · dsimp only
    split
    · exact .head (.dispose c (List.prefix_append _ [event])) (hreact _)
    · exact .single (.dispose c (List.prefix_refl _))

theorem moves_closeWith (event : Event) (c : Connection) :
    Moves z now again hears c (closeWith now react event c) := by
  rw [closeWith]
  split
  · exact .refl
  · exact .head (.close c) (.tail (moves_closeUser hreact event _) (.finishWhenReady _))

theorem moves_possiblyClose (c : Connection) :
    Moves z now again hears c (possiblyClose now react c) := by
  rw [possiblyClose]
  split
  · exact .refl
  · split
    · exact moves_closeWith hreact _ c
    · exact .refl

end

theorem moves_closeReceiver (c : Connection) :
    Moves z now again hears c (closeReceiver z now c) := by
  rw [closeReceiver]
  split
  · refine .tail ?_ (.closeReceiver _)
    split
    · exact .single (.call c _)
    · exact .refl
  · exact .refl

theorem moves_openUser (hagain : again) (c : Connection) (options : Option ConnectionOptions)
    (receiveHandler closeHandler : Bool) :
    Moves z now again hears c (c.openUser options receiveHandler closeHandler) := by
  cases options with
  | none =>
      simp only [openUser]
      split
      next hdisposed => exact .single (.register c _ _ hagain hdisposed)
      · exact .refl
  | some options =>
      simp only [openUser]
      split
      next hdisposed =>
        exact .head (.options c (merge options c.options))
          (.single (.register _ _ _ hagain hdisposed))
      · exact .single (.options c _)

mutual

theorem moves_userCall : ∀ call, UserCall.Registers again call → ∀ c,
    Moves z now again hears c (userCall z now call c)
  | .send data reliability, _, c => by
      rw [userCall]
      exact .single (.call c _)
  | .close onClose onCloseUser, hregisters, c => by
      rw [userCall, close]
      refine .trans (.head (.call c .close) (moves_closeReceiver _)) ?_
      refine .trans (moves_possiblyClose (moves_userCalls onClose hregisters.1) _) ?_
      exact moves_closeUser (moves_userCalls onCloseUser hregisters.2) _ _
  | .accept options receiveHandler closeHandler, hagain, c => by
      rw [userCall]
      exact moves_openUser hagain c _ _ _
  | .setOptions options, _, c => by
      rw [userCall]
      exact .single (.options c _)

/-- What the user does is a chain of moves. -/
theorem moves_userCalls : ∀ calls, UserCall.RegistersAll again calls → ∀ c,
    Moves z now again hears c (userCalls z now calls c)
  | [], _, c => by
      rw [userCalls]
  | call :: calls, hregisters, c => by
      rw [userCalls]
      exact (moves_userCall call hregisters.1 c).trans (moves_userCalls calls hregisters.2 _)

end

variable {react : Connection → Connection}

/-- A call of the receiver other than a delivery. -/
theorem moves_carryOut (hreact : ∀ c, Moves z now again hears c (react c)) (c : Connection)
    (call : ReceiverCall) (hcall : ∀ data reliability, call = .receive data reliability → hears) :
    Moves z now again hears c (carryOut z now react c call) := by
  cases call with
  | ack packetID => exact .single (.call c _)
  | onAck ack => exact .head (.call c _) (moves_possiblyClose hreact _)
  | receive data reliability =>
      rw [carryOut]
      split
      next hhandler =>
        exact .head (.deliver c (data, reliability) (hcall _ _ rfl) hhandler) (hreact _)
      · exact .refl
  | close => exact (moves_closeReceiver c).trans (moves_possiblyClose hreact _)

theorem moves_carryOutAll {scripts : List (List UserCall)}
    (hscripts : ∀ script ∈ scripts, UserCall.RegistersAll again script)
    {calls : List ReceiverCall}
    (hcalls : ∀ data reliability, .receive data reliability ∈ calls → hears) (c : Connection) :
    Moves z now again hears c (carryOutAll z now scripts calls c) := by
  induction calls generalizing scripts c with
  | nil =>
      rw [carryOutAll]
  | cons call calls ih =>
      have hcall : ∀ data reliability, call = .receive data reliability → hears :=
        fun data reliability h => hcalls data reliability (h ▸ List.mem_cons_self)
      have hrest : ∀ data reliability, .receive data reliability ∈ calls → hears :=
        fun data reliability h => hcalls data reliability (List.mem_cons_of_mem _ h)
      cases scripts with
      | nil =>
          rw [carryOutAll]
          exact (moves_carryOut (fun _ => .refl) c call hcall).trans (ih (by simp) hrest _)
      | cons script scripts =>
          rw [List.forall_mem_cons] at hscripts
          rw [carryOutAll]
          exact (moves_carryOut (moves_userCalls script hscripts.1) c call hcall).trans
            (ih hscripts.2 hrest _)

theorem moves_fail (hreact : ∀ c, Moves z now again hears c (react c)) (event : Event)
    (c : Connection) : Moves z now again hears c (fail z now react event c) := by
  exact .head (.fail c event) (moves_possiblyClose hreact _)

theorem moves_senderOnReceive (hreact : ∀ c, Moves z now again hears c (react c)) (c : Connection)
    (packet : Packet) : Moves z now again hears c (senderOnReceive z now react c packet) := by
  rw [senderOnReceive]
  split
  · exact .head (.call c _) (moves_possiblyClose hreact _)
  · split
    · exact .head (.call c _) (moves_possiblyClose hreact _)
    · exact .refl

theorem moves_networkPathOnReceive (c : Connection) (packet : Packet) (path : Address) :
    Moves z now again hears c (networkPathOnReceive z now c packet path).2.2 := by
  rw [networkPathOnReceive]
  split
  · dsimp only
    exact .single (.send c _)
  · split
    · split
      · split
        · exact .single (.remoteAddress c path)
        · exact .refl
      · exact .single (.call c _)
    · exact .refl

/-- A handshake packet makes moves that pass nothing on, and may then complete the handshake. -/
theorem handshakeOnReceive_cases (scripts : List (List UserCall)) (c : Connection)
    (packet : Packet) :
    ∃ c', Moves z now again hears c c' ∧
      (handshakeOnReceive z now scripts c packet = c' ∨ ∃ remoteID first,
        handshakeOnReceive z now scripts c packet = complete z now scripts c' remoteID first) := by
  rw [handshakeOnReceive]
  split
  swap
  · exact ⟨c, .refl, .inl rfl⟩
  rw [handlePacket]
  split
  · dsimp only
    split
    · exact ⟨_, .head (.send c _) (.single (.handshake _ _ _)), .inl rfl⟩
    · exact ⟨_, .single (.send c _), .inl rfl⟩
  · split
    · split
      · exact ⟨_, .head (.handshake c c.remoteID _) (.single (.call _ _)), .inl rfl⟩
      · exact ⟨c, .refl, .inl rfl⟩
    · split
      · dsimp only
        split
        · exact ⟨_, .single (.send c _), .inr ⟨_, _, rfl⟩⟩
        · exact ⟨_, .single (.send c _), .inl rfl⟩
      · split
        · dsimp only
          split
          · exact ⟨c, .refl, .inr ⟨_, _, rfl⟩⟩
          · exact ⟨c, .refl, .inl rfl⟩
        · exact ⟨c, .refl, .inl rfl⟩

/-- The handshake, if it may open the receiver. -/
theorem moves_handshakeOnReceive (hhears : hears) {scripts : List (List UserCall)}
    (hscripts : ∀ script ∈ scripts, UserCall.RegistersAll again script) (c : Connection)
    (packet : Packet) : Moves z now again hears c (handshakeOnReceive z now scripts c packet) := by
  obtain ⟨c', hmoves, hsame | ⟨remoteID, first, hcomplete⟩⟩ :=
    @handshakeOnReceive_cases z now again hears scripts c packet
  · rwa [hsame]
  · rw [hcomplete]
    refine hmoves.trans (.head (.handshake c' remoteID ⟨TypeID.handshakeComplete, first⟩) ?_)
    refine .head (.openReceiver _ hhears) ?_
    exact .tail (moves_carryOutAll hscripts (fun _ _ _ => hhears) _) (.call _ .open)

theorem moves_accept (hhears : hears) {reactions : Reactions}
    (hreactions : reactions.Registers again) (c : Connection) (packet : Packet) :
    Moves z now again hears c (accept z now reactions c packet) := by
  refine .trans (moves_handshakeOnReceive hhears hreactions.1 c packet) (.head (.probe _) ?_)
  refine .trans (moves_senderOnReceive (moves_userCalls _ hreactions.2.1) _ packet) ?_
  exact .head (.receive _ packet hhears)
    (moves_carryOutAll hreactions.2.2 (fun _ _ _ => hhears) _)

theorem moves_receive (hhears : hears) {reactions : Reactions}
    (hreactions : reactions.Registers again) (c : Connection) (packet : Packet) (path : Address) :
    Moves z now again hears c (receive z now reactions c packet path) := by
  rw [receive]
  split
  · exact .refl
  next packet options _ =>
    refine .head (.options c options) ?_
    have hpath := @moves_networkPathOnReceive z now again hears { c with options := options }
      packet path
    split
    next hrun =>
      rw [hrun] at hpath
      exact hpath
    next hrun =>
      rw [hrun] at hpath
      exact hpath.trans (moves_accept hhears hreactions _ _)

theorem moves_retryTimeout (hreact : ∀ c, Moves z now again hears c (react c)) (c : Connection) :
    Moves z now again hears c (retryTimeout z now react c) := by
  rw [retryTimeout]
  split
  · exact moves_fail hreact _ c
  · exact .single (.call c _)

theorem moves_probeTimeout (hreact : ∀ c, Moves z now again hears c (react c)) (c : Connection) :
    Moves z now again hears c (probeTimeout z now react c) := by
  rw [Probe.probeTimeout_eq]
  have htimeout := @Move.probeTimeout z now again hears c
  split
  next hrun =>
    rw [hrun] at htimeout
    exact .single htimeout
  next hrun =>
    rw [hrun] at htimeout
    refine .head htimeout ?_
    split
    · exact .single (.call _ _)
    · exact moves_fail hreact _ _

/-- **A step is a chain of moves.**  Only a step that receives a packet passes anything on. -/
theorem moves_step {input : Input} (hregisters : input.Registers again)
    (hhears : ∀ packet path reactions, input = .receive packet path reactions → hears)
    (c : Connection) : Moves z now again hears c (step z c (now, input)) := by
  cases input with
  | user call => exact moves_userCall call hregisters c
  | receive packet path reactions =>
      exact moves_receive (hhears packet path reactions rfl) hregisters c packet path
  | processSchedule reliability => exact .single (.call c _)
  | retryTimeout script => exact moves_retryTimeout (moves_userCalls script hregisters) c
  | probeTimeout script => exact moves_probeTimeout (moves_userCalls script hregisters) c
  | close event script => exact moves_closeWith (moves_userCalls script hregisters) event c

end

/-! ## Properties that every move keeps -/

section
variable {z : Zlib} {c : Connection} {P : Connection → Prop}
  (hmove : ∀ {now c c'}, Move z now True True c c' → P c → P c')
include hmove

/-- A property that every move keeps is kept by every step. -/
theorem step_of_move (input : Timepoint × Input) (hc : P c) : P (c.step z input) := by
  have hmoves := @moves_step z input.1 True True input.2 (Input.registers_true _)
    (fun _ _ _ _ => trivial) c
  change Relation.ReflTransGen _ c (c.step z input) at hmoves
  generalize c.step z input = c' at hmoves
  induction hmoves with
  | refl => exact hc
  | tail _ h ih => exact hmove h ih

/-- A property that every move keeps, and that holds of a connection when it is started, holds in
every reachable state. -/
theorem reachable_of_move
    (hstart : ∀ c now, c.probe = {} → c.sender = {} → P (start now c)) (hc : Reachable z c) :
    P c := by
  obtain ⟨c₀, inputs, hstarted, rfl⟩ := hc
  refine run_invariant_of_step P (fun _ input hc => step_of_move hmove input hc) ?_ inputs
  cases hstarted with
  | created id localID remoteAddress options now => exact hstart _ now rfl rfl
  | connected id localID remoteAddress socketOptions now options receiveHandler closeHandler =>
      have hfresh : ((fresh id localID remoteAddress socketOptions).openUser options
          receiveHandler closeHandler).probe = {} ∧
          ((fresh id localID remoteAddress socketOptions).openUser options
            receiveHandler closeHandler).sender = {} := by
        cases options <;> simp only [openUser] <;> split <;> exact ⟨rfl, rfl⟩
      have hcall := hmove (@Move.call z now True True _
        (.sendReliably ⟨⟨{ header := { type := TypeID.h0 } }, none⟩, none⟩ false))
        (hstart _ now hfresh.1 hfresh.2)
      exact hmove (@Move.handshake z now True True _ _ _) hcall

end

theorem reachable_step {z : Zlib} {c : Connection} (hc : Reachable z c)
    (input : Timepoint × Input) : Reachable z (step z c input) := by
  obtain ⟨c₀, inputs, hstarted, rfl⟩ := hc
  exact ⟨c₀, inputs ++ [input], hstarted, by rw [run_append]; rfl⟩

/-! ## As long as nothing is passed on -/

/-- What the receiver works on stays as it is, nothing is delivered, and no handler is set. -/
structure Calm (c c' : Connection) : Prop where
  receiveQueue : c'.receiver.receiveQueue = c.receiver.receiveQueue
  compressionBuffer : c'.receiver.compressionBuffer = c.receiver.compressionBuffer
  delivered : c'.delivered = c.delivered
  receiveHandler : c'.receiveHandler = true → c.receiveHandler = true

theorem Calm.refl (c : Connection) : Calm c c := ⟨rfl, rfl, rfl, fun h => h⟩

theorem Calm.trans {c₁ c₂ c₃ : Connection} (h : Calm c₁ c₂) (h' : Calm c₂ c₃) : Calm c₁ c₃ where
  receiveQueue := h'.receiveQueue.trans h.receiveQueue
  compressionBuffer := h'.compressionBuffer.trans h.compressionBuffer
  delivered := h'.delivered.trans h.delivered
  receiveHandler := fun hhandler => h.receiveHandler (h'.receiveHandler hhandler)

theorem Move.calm {z : Zlib} {now : Timepoint} {c c' : Connection}
    (h : Move z now False False c c') : Calm c c' := by
  cases h with
  | call call =>
      obtain ⟨probe, h⟩ := call_eq z now c call
      rw [h]
      exact ⟨rfl, rfl, rfl, fun h => h⟩
  | send packet =>
      rw [send_eq]
      exact ⟨rfl, rfl, rfl, fun h => h⟩
  | fail event =>
      obtain ⟨probe, h⟩ := failParts_eq z now c event
      rw [h]
      exact ⟨rfl, rfl, rfl, fun h => h⟩
  | dispose => exact ⟨rfl, rfl, rfl, fun h => by cases h⟩
  | probe | probeTimeout | closeReceiver | close | finishWhenReady | options | handshake
      | remoteAddress => exact ⟨rfl, rfl, rfl, fun h => h⟩
  | register _ _ hagain => exact hagain.elim
  | openReceiver hhears => exact hhears.elim
  | receive _ hhears => exact hhears.elim
  | deliver _ hhears => exact hhears.elim

/-- **Moves that pass nothing on are calm.** -/
theorem Moves.calm {z : Zlib} {now : Timepoint} {c c' : Connection}
    (h : Moves z now False False c c') : Calm c c' := by
  induction h with
  | refl => exact .refl c
  | tail _ hmove ih => exact ih.trans hmove.calm

end Connection
end MrUDP
