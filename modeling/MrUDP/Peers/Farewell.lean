import MrUDP.Connection.Silence
import MrUDP.Peers.Conversation

/-!
# The end of the stream

A user that closes its connection has everything it sent before delivered: the close travels as a
frame of its own behind the others, and the peer closes its receiver when that frame's turn comes.
So a user that is told that its connection was closed, and has not closed it itself, has got all
messages up to the close.

What the close can overtake is what still waits to be compressed: frames that are generated behind
the close are compressed ones.

## Main definitions

* `Sender.Sealed`: nothing but compressed frames is generated behind a close.
* `UserCall.Stays`: the user neither closes nor registers.
* `Connection.Attends`: the user has got what was heard, and was told of the close in its turn.
* `Side.Attends`: the same, of the frames of the peer.
-/

namespace MrUDP
open Wire Machine
open Connection (Calm Arrives Input Reactions)

/-! ## What is generated behind a close -/

/-- Behind a close there are only compressed frames. -/
def Trailing (g : List Frame) : Prop :=
  ∀ (i j : ℕ) (f f' : Frame), g[i]? = some f → f.type = FrameTypeID.closeWrite → i < j →
    g[j]? = some f' → f'.type = FrameTypeID.dataCompressed

theorem trailing_of_not_mem {g : List Frame} (h : ∀ f ∈ g, f.type ≠ FrameTypeID.closeWrite) :
    Trailing g :=
  fun _ _ f _ hf htype _ _ => absurd htype (h f (List.mem_of_getElem? hf))

theorem Trailing.append {g fs : List Frame} (h : Trailing g)
    (hfs : ∀ f ∈ fs, f.type = FrameTypeID.dataCompressed) : Trailing (g ++ fs) := by
  intro i j f f' hf htype hij hf'
  rw [List.getElem?_append] at hf hf'
  split at hf
  · split at hf'
    · exact h i j f f' hf htype hij hf'
    · exact hfs f' (List.mem_of_getElem? hf')
  · have hcompressed := hfs f (List.mem_of_getElem? hf)
    rw [htype] at hcompressed
    exact absurd hcompressed (by decide)

/-- A first close comes last. -/
theorem trailing_concat {g : List Frame} (h : ∀ f ∈ g, f.type ≠ FrameTypeID.closeWrite)
    (f : Frame) : Trailing (g ++ [f]) := by
  intro i j f₁ f₂ hf₁ htype hij hf₂
  have hj : j < (g ++ [f]).length := (List.getElem?_eq_some_iff.mp hf₂).1
  rw [List.length_append, List.length_singleton] at hj
  rw [List.getElem?_append_left (by omega)] at hf₁
  exact absurd htype (h f₁ (List.mem_of_getElem? hf₁))

namespace Sender

variable {e : Env} {s s' : Sender}

/-- The sender goes on without its user: only compressed frames are generated. -/
def Trails (s s' : Sender) : Prop :=
  s.Queues → s'.Queues ∧ (s'.status = .closed ↔ s.status = .closed) ∧
    ∃ fs, s'.dataQueue.generated = s.dataQueue.generated ++ fs ∧
      ∀ f ∈ fs, f.type = FrameTypeID.dataCompressed

theorem Trails.of_eq (hqueue : s'.dataQueue = s.dataQueue)
    (hunreliable : s.Queues → s'.Queues) (hstatus : s'.status = s.status) : Trails s s' :=
  fun hs => ⟨hunreliable hs, by rw [hstatus], [], by rw [hqueue, List.append_nil], by simp⟩

theorem Trails.refl (s : Sender) : Trails s s := .of_eq rfl (fun hs => hs) rfl

theorem Trails.trans {s₁ s₂ s₃ : Sender} (h : Trails s₁ s₂) (h' : Trails s₂ s₃) :
    Trails s₁ s₃ := by
  intro hs
  obtain ⟨hqueues, hstatus, fs, hgenerated, hfs⟩ := h hs
  obtain ⟨hqueues', hstatus', fs', hgenerated', hfs'⟩ := h' hqueues
  refine ⟨hqueues', hstatus'.trans hstatus, fs ++ fs', ?_, fun f hf => ?_⟩
  · rw [hgenerated', hgenerated, List.append_assoc]
  · exact (List.mem_append.mp hf).elim (hfs f) (hfs' f)

/-- What is dequeued was generated before, or comes out of the compression. -/
theorem trails_transmit {p : Packet} {q : SendQueue} (hq : s.Dequeues e p q) :
    Trails s (s.transmit e p q) := by
  intro hs
  obtain ⟨b, hwf⟩ := hs.reliable
  obtain ⟨-, -, -, n, fs, -, hwf', hgenerated, -, hcompressed⟩ := hwf.of_dequeue hq
  exact ⟨⟨⟨_, hwf'⟩, hs.unreliable⟩, Iff.rfl, fs, hgenerated, hcompressed⟩

theorem pass_trails : Pass e Trails where
  refl := Trails.refl
  trans := Trails.trans
  setSchedule s schedule reliability := by
    cases reliability <;> exact .of_eq rfl (fun hs => ⟨hs.1, hs.2⟩) rfl
  transmit _ _ _ _ := trails_transmit
  processUnreliableDataQueue s := by
    obtain ⟨-, -, hqueue, hstatus⟩ := processUnreliableDataQueue_frame (e := e) s
    exact .of_eq hqueue queues_processUnreliableDataQueue hstatus

/-- The calls that are not the user's. -/
theorem trails_call {call : SenderCall} (hsend : ∀ data reliability, call ≠ .send data reliability)
    (hclose : call ≠ .close) (hfail : call ≠ .fail) : Trails s (s.call e call) := by
  cases call with
  | «open» =>
      have hfirst : Trails s
          (if s.status = .uninitialized then { s with status := .open } else s) := by
        split
        next hstatus =>
          refine fun hs => ⟨⟨hs.1, hs.2⟩, ?_, [], by simp, by simp⟩
          show Status.open = .closed ↔ _
          rw [hstatus]
          decide
        · exact .refl s
      exact (hfirst.trans (pass_trails.scheduleDataQueueProcessing _ .reliable false)).trans
        (pass_trails.scheduleDataQueueProcessing _ .unreliable false)
  | send data reliability => exact absurd rfl (hsend data reliability)
  | close => exact absurd rfl hclose
  | fail => exact absurd rfl hfail
  | sendReliably paths priority => exact .of_eq rfl (fun hs => ⟨hs.1, hs.2⟩) rfl
  | ack packetID =>
      have hdelayed : Trails s { s with delayedAcks := s.delayedAcks ++ [⟨packetID, e.now⟩] } :=
        .of_eq rfl (fun hs => ⟨hs.1, hs.2⟩) rfl
      exact hdelayed.trans (pass_trails.scheduleDataQueueProcessing _ .unreliable false)
  | onAck ack =>
      obtain ⟨hqueue, -⟩ := acknowledge_frame (s := s) e.now ack
      have hemission : Emission (fun _ => True) s (s.acknowledge e.now ack) :=
        emission_acknowledge s e.now ack
      have hstatus : (s.acknowledge e.now ack).status = s.status := by
        rw [acknowledge]
        dsimp only
        split <;> rfl
      exact (Trails.of_eq hqueue (fun hs => (hemission hs).1) hstatus).trans
        (pass_trails.scheduleDataQueueProcessing _ .reliable true)
  | processSchedule reliability => exact pass_trails.processSchedule s reliability
  | retryTimeout =>
      rw [call, onRetryTimeout]
      split
      · exact .refl s
      · exact .of_eq rfl (fun hs => ⟨hs.1, hs.2⟩) rfl
      · exact .of_eq rfl (fun hs => ⟨hs.1, hs.2⟩) rfl

/-- Only a closed sender has generated a close, and behind it come only compressed frames. -/
structure Sealed (s : Sender) : Prop where
  queues : s.Queues
  unended : s.status ≠ .closed → ∀ f ∈ s.dataQueue.generated, f.type ≠ FrameTypeID.closeWrite
  trailing : Trailing s.dataQueue.generated

theorem Sealed.init : Sealed {} where
  queues := .init
  unended _ f hf := by cases hf
  trailing := trailing_of_not_mem fun f hf => by cases hf

theorem Sealed.trails (h : s.Sealed) (htrails : Trails s s') : s'.Sealed := by
  obtain ⟨hqueues, hstatus, fs, hgenerated, hfs⟩ := htrails h.queues
  refine ⟨hqueues, fun hopen f hf => ?_, ?_⟩
  · rw [hgenerated] at hf
    rcases List.mem_append.mp hf with hf | hf
    · exact h.unended (fun hclosed => hopen (hstatus.mpr hclosed)) f hf
    · rw [hfs f hf]
      decide
  · rw [hgenerated]
    exact h.trailing.append hfs

/-- A message enters a queue that then may be processed. -/
theorem trails_enqueue (e : Env) (s : Sender) (type : FrameTypeID) (data : Bytes)
    (reliability : Reliability) (mode : CoalesceMode) :
    Trails (s.push type data mode reliability) (s.enqueue e type data reliability mode) := by
  rw [enqueue_eq]
  split
  · exact pass_trails.scheduleDataQueueProcessing _ reliability false
  · exact .refl _

/-- The frames of a message. -/
theorem Queues.generated_push (h : s.Queues) (type : FrameTypeID) {data : Bytes}
    {mode : CoalesceMode} (hadm : SendQueue.Admissible data mode) :
    (s.push type data mode .reliable).Queues ∧
      ∃ fs, (s.push type data mode .reliable).dataQueue.generated =
          s.dataQueue.generated ++ fs ∧ (∀ f ∈ fs, f.type = type) ∧
        (mode = .packet → fs = [] ∨ ∃ f, fs = [f]) := by
  refine ⟨⟨SendQueue.wf_enqueue h.reliable hadm, h.unreliable⟩, ?_⟩
  cases hstatus : s.dataQueue.status with
  | closed =>
      refine ⟨[], ?_, by simp, fun _ => .inl rfl⟩
      rw [push, SendQueue.enqueue_of_closed hstatus, List.append_nil]
  | «open» =>
      obtain ⟨b, hwf⟩ := h.reliable
      obtain ⟨-, fs, henqueues⟩ : _ ∧ ∃ fs, SendQueue.Enqueues _ type data mode fs :=
        hwf.enqueue hstatus hadm
      refine ⟨fs, henqueues.generated, fun f hf => ?_, fun hmode => ?_⟩
      · have hframes := henqueues.frames
        split at hframes
        · rw [hframes] at hf
          cases hf
        · exact hframes.type f hf
      · obtain ⟨id, hone⟩ := henqueues.single (.inr hmode)
        exact .inr ⟨_, hone⟩

theorem Sealed.send (h : s.Sealed) (data : Bytes) (reliability : Reliability) :
    (s.send e data reliability).2.Sealed := by
  rw [Sender.send]
  split
  swap
  · exact h
  next hopen =>
    dsimp only
    split
    · exact h
    next hsize =>
      have hadm := SendQueue.admissible_of_not hsize
      refine Sealed.trails ?_ (trails_enqueue e s FrameTypeID.data data reliability _)
      cases reliability with
      | unreliable =>
          exact { h with queues :=
            ⟨h.queues.reliable, SendQueue.wf_enqueue h.queues.unreliable hadm⟩ }
      | reliable =>
          obtain ⟨hqueues, fs, hgenerated, htype, -⟩ :=
            h.queues.generated_push FrameTypeID.data hadm
          have hnone : ∀ f ∈ (s.push FrameTypeID.data data (e.options.coalesce .reliable).mode
              .reliable).dataQueue.generated, f.type ≠ FrameTypeID.closeWrite := by
            intro f hf
            rw [hgenerated] at hf
            rcases List.mem_append.mp hf with hf | hf
            · exact h.unended hopen f hf
            · rw [htype f hf]
              decide
          exact ⟨hqueues, fun _ => hnone, trailing_of_not_mem hnone⟩

/-- The close is generated once, behind everything the user has sent. -/
theorem Sealed.close (h : s.Sealed) : (s.close e).Sealed := by
  rw [Sender.close]
  split
  swap
  · exact h
  next hopen =>
    have hadm : SendQueue.Admissible [] .packet := .inl (by simp)
    obtain ⟨hqueues, fs, hgenerated, -, hone⟩ :=
      h.queues.generated_push FrameTypeID.closeWrite hadm
    have htrailing :
        Trailing (s.push FrameTypeID.closeWrite [] .packet .reliable).dataQueue.generated := by
      rw [hgenerated]
      rcases hone rfl with rfl | ⟨f, rfl⟩
      · rw [List.append_nil]
        exact h.trailing
      · exact trailing_concat (h.unended hopen) f
    obtain ⟨hqueues', -, fs', hgenerated', hfs'⟩ :=
      trails_enqueue e s FrameTypeID.closeWrite [] .reliable .packet hqueues
    refine ⟨⟨hqueues'.1, hqueues'.2⟩, fun hclosed => absurd rfl hclosed, ?_⟩
    show Trailing (s.enqueue e FrameTypeID.closeWrite [] .reliable .packet).dataQueue.generated
    rw [hgenerated']
    exact htrailing.append hfs'

theorem Sealed.fail (h : s.Sealed) : s.fail.Sealed := by
  have hemission : Emission (fun _ => True) s s.fail := emission_fail s
  have hgenerated : s.fail.dataQueue.generated = s.dataQueue.generated := by
    change s.dataQueue.close.generated = _
    rw [SendQueue.close]
    split <;> rfl
  exact ⟨(hemission h.queues).1, fun hclosed => absurd rfl hclosed, by
    rw [hgenerated]; exact h.trailing⟩

theorem Sealed.call (h : s.Sealed) (call : SenderCall) : (s.call e call).Sealed := by
  by_cases hsend : ∃ data reliability, call = .send data reliability
  · obtain ⟨data, reliability, rfl⟩ := hsend
    exact h.send data reliability
  · by_cases hclose : call = .close
    · rw [hclose]
      exact h.close
    · by_cases hfail : call = .fail
      · rw [hfail]
        exact h.fail
      · exact h.trails (trails_call (fun data reliability heq => hsend ⟨data, reliability, heq⟩)
          hclose hfail)

end Sender

namespace Connection

end Connection
/-! ## A user that stays -/

/-- The user neither closes nor registers. -/
def UserCall.Stays : UserCall → Prop
  | .send _ _ | .setOptions _ => True
  | .close _ _ | .accept _ _ _ => False

namespace Connection

/-- The user's handlers neither close nor register. -/
def Reactions.Stays (reactions : Reactions) : Prop :=
  (∀ script ∈ reactions.opened, ∀ call ∈ script, call.Stays) ∧
    (∀ call ∈ reactions.acked, call.Stays) ∧
    ∀ script ∈ reactions.received, ∀ call ∈ script, call.Stays

/-- The user does not close, and the socket does not close in its name. -/
def Input.Stays : Input → Prop
  | .user call => call.Stays
  | .receive _ _ reactions => reactions.Stays
  | .processSchedule _ => True
  | .retryTimeout script | .probeTimeout script => ∀ call ∈ script, call.Stays
  | .close event script => event ≠ .closed ∧ ∀ call ∈ script, call.Stays

/-- What the user sees of its connection, and what decides about its end. -/
structure Outlook where
  status : Status
  closeReason : Event
  closeEvents : List Event
  delivered : List (Bytes × Reliability)
  receiveHandler : Bool
  userDataDisposed : Bool

/-- The outlook of a connection. -/
def outlook (c : Connection) : Outlook :=
  ⟨c.receiver.status, c.closeReason, c.closeEvents, c.delivered, c.receiveHandler,
    c.userDataDisposed⟩

variable {z : Zlib} {now : Timepoint} {c c' : Connection}

theorem outlook_call (z : Zlib) (now : Timepoint) (c : Connection) (call : SenderCall) :
    (c.call z now call).outlook = c.outlook := by
  obtain ⟨probe, h⟩ := call_eq z now c call
  rw [h]
  rfl

theorem outlook_send (now : Timepoint) (c : Connection) (packet : Packet) :
    (c.send now packet).outlook = c.outlook := by
  rw [send_eq]
  rfl

theorem outlook_userCalls (z : Zlib) (now : Timepoint) {script : List UserCall}
    (h : ∀ call ∈ script, call.Stays) (c : Connection) :
    (userCalls z now script c).outlook = c.outlook := by
  induction script generalizing c with
  | nil => rw [userCalls]
  | cons call script ih =>
      rw [List.forall_mem_cons] at h
      rw [userCalls, ih h.2]
      cases call with
      | send data reliability =>
          rw [userCall]
          exact outlook_call z now c _
      | setOptions options =>
          rw [userCall]
          rfl
      | close => exact h.1.elim
      | accept => exact h.1.elim

theorem outlook_networkPathOnReceive (z : Zlib) (now : Timepoint) (c : Connection)
    (packet : Packet) (path : Address) :
    (networkPathOnReceive z now c packet path).2.2.outlook = c.outlook := by
  rw [networkPathOnReceive]
  split
  · exact outlook_send now c _
  · split
    · split
      · split <;> rfl
      · exact outlook_call z now c _
    · rfl

/-! ## What the user has got, and what it was told -/

/-- The connection has heard `h`: messages, and the close of the stream.  As long as its handler is
registered the user has got all the messages; without a failure only a close that was heard closes
the receiver; and a user that was told of a close has got everything up to one. -/
structure Attends (h : List (Option Bytes)) (c : Connection) : Prop where
  listens : c.userDataDisposed = false → c.receiveHandler = true
  whole : c.receiveHandler = true → c.received = h.reduceOption
  closes : c.receiver.status = .closed → c.closeReason = .closed → none ∈ h
  told : .closed ∈ c.closeEvents →
    ∃ h₁ h₂, h = h₁ ++ none :: h₂ ∧ h₁.reduceOption <+: c.received

variable {h : List (Option Bytes)}

theorem Attends.of_outlook (hc : Attends h c) (heq : c'.outlook = c.outlook) : Attends h c' := by
  have hstatus : c'.receiver.status = c.receiver.status := congrArg Outlook.status heq
  have hreason : c'.closeReason = c.closeReason := congrArg Outlook.closeReason heq
  have hevents : c'.closeEvents = c.closeEvents := congrArg Outlook.closeEvents heq
  have hreceived : c'.received = c.received := by
    rw [received, show c'.delivered = c.delivered from congrArg Outlook.delivered heq, received]
  have hhandler : c'.receiveHandler = c.receiveHandler := congrArg Outlook.receiveHandler heq
  have hdisposed : c'.userDataDisposed = c.userDataDisposed :=
    congrArg Outlook.userDataDisposed heq
  refine ⟨?_, ?_, ?_, ?_⟩
  · rw [hdisposed, hhandler]
    exact hc.listens
  · rw [hhandler, hreceived]
    exact hc.whole
  · rw [hstatus, hreason]
    exact hc.closes
  · rw [hevents, hreceived]
    exact hc.told

section
variable {react : Connection → Connection} (hreact : ∀ c, (react c).outlook = c.outlook)
include hreact

/-- The handlers are disposed of, and the user is told of a close only if there was one. -/
theorem Attends.closeUser (hc : Attends h c) {event : Event}
    (hevent : event = .closed → none ∈ h) : Attends h (closeUser react event c) := by
  rw [Connection.closeUser]
  split
  · exact hc
  next hdisposed =>
    have hwhole := hc.whole (hc.listens (Bool.of_not_eq_true hdisposed))
    have hsilent : Attends h
        { c with userDataDisposed := true, receiveHandler := false, closeHandler := false } :=
      ⟨fun hd => (by cases hd), fun hr => (by cases hr), hc.closes, hc.told⟩
    dsimp only
    split
    · have htold : .closed ∈ c.closeEvents ++ [event] →
          ∃ h₁ h₂, h = h₁ ++ none :: h₂ ∧ h₁.reduceOption <+: c.received := by
        intro hmem
        rcases List.mem_append.mp hmem with hmem | hmem
        · exact hc.told hmem
        · obtain ⟨h₁, h₂, hh⟩ := List.append_of_mem (hevent (List.mem_singleton.mp hmem).symm)
          refine ⟨h₁, h₂, hh, ?_⟩
          rw [hwhole, hh, List.reduceOption_append]
          exact List.prefix_append _ _
      have hcalled : Attends h
          { c with
            userDataDisposed := true
            receiveHandler := false
            closeHandler := false
            closeEvents := c.closeEvents ++ [event] } :=
        { hsilent with told := htold }
      exact hcalled.of_outlook (hreact _)
    · exact hsilent

theorem Attends.closeWith (hc : Attends h c) (now : Timepoint) {event : Event}
    (hevent : event = .closed → none ∈ h) : Attends h (closeWith now react event c) := by
  rw [Connection.closeWith]
  split
  · exact hc
  · have hclosed : Attends h { c with closed := true } := hc.of_outlook rfl
    exact (hclosed.closeUser hreact hevent).of_outlook rfl

/-- A connection is closed for the reason it has. -/
theorem Attends.possiblyClose (hc : Attends h c) (now : Timepoint) :
    Attends h (possiblyClose now react c) := by
  rw [Connection.possiblyClose]
  split
  · exact hc
  · split
    next hboth => exact hc.closeWith hreact now (hc.closes hboth.2.1)
    · exact hc

/-- **A call of the receiver is carried out**, and is heard. -/
theorem Attends.carryOut (hc : Attends h c) (z : Zlib) (now : Timepoint) (call : ReceiverCall) :
    Attends (h ++ heard [call]) (carryOut z now react c call) := by
  cases call with
  | ack packetID =>
      rw [show heard [.ack packetID] = [] from rfl, List.append_nil]
      exact hc.of_outlook (outlook_call z now c _)
  | onAck ack =>
      rw [show heard [.onAck ack] = [] from rfl, List.append_nil]
      exact (hc.of_outlook (outlook_call z now c (.onAck ack))).possiblyClose hreact now
  | receive data reliability =>
      rw [Connection.carryOut]
      split
      next hhandler =>
        have hgot : Attends (h ++ heard [.receive data reliability])
            { c with delivered := c.delivered ++ [(data, reliability)] } := by
          refine ⟨hc.listens, fun _ => ?_, fun hs hr => ?_, fun hmem => ?_⟩
          · rw [received, List.filterMap_append, List.reduceOption_append, ← hc.whole hhandler]
            cases reliability <;> rfl
          · exact List.mem_append_left _ (hc.closes hs hr)
          · obtain ⟨h₁, h₂, hh, hgot⟩ := hc.told hmem
            refine ⟨h₁, h₂ ++ heard [.receive data reliability], by rw [hh]; simp, hgot.trans ?_⟩
            rw [received, received, List.filterMap_append]
            exact List.prefix_append _ _
        exact hgot.of_outlook (hreact _)
      next hhandler =>
        refine ⟨hc.listens, fun hr => absurd hr hhandler, fun hs hr => ?_, fun hmem => ?_⟩
        · exact List.mem_append_left _ (hc.closes hs hr)
        · obtain ⟨h₁, h₂, hh, hgot⟩ := hc.told hmem
          exact ⟨h₁, h₂ ++ heard [.receive data reliability], by rw [hh]; simp, hgot⟩
  | close =>
      have hheard : Attends (h ++ [none]) c := by
        refine ⟨hc.listens, fun hr => ?_, fun hs hr => ?_, fun hmem => ?_⟩
        · rw [List.reduceOption_append, hc.whole hr]
          simp
        · exact List.mem_append_right _ (List.mem_singleton_self _)
        · obtain ⟨h₁, h₂, hh, hgot⟩ := hc.told hmem
          exact ⟨h₁, h₂ ++ [none], by rw [hh]; simp, hgot⟩
      have hclosed : Attends (h ++ [none]) (closeReceiver z now c) := by
        rw [closeReceiver]
        split
        · -- The peer is told; what matters is that the receiver is closed.
          have hsent : Attends (h ++ [none]) (if c.canSend then
              c.sendReliably z now { header := { type := TypeID.closeRead } } else c) := by
            split
            · exact hheard.of_outlook (outlook_call z now c _)
            · exact hheard
          exact { hsent with closes :=
            fun _ _ => List.mem_append_right _ (List.mem_singleton_self _) }
        · exact hheard
      exact hclosed.possiblyClose hreact now

end

/-- The calls of the receiver are carried out one by one. -/
theorem Attends.carryOutAll (hc : Attends h c) (z : Zlib) (now : Timepoint)
    {scripts : List (List UserCall)} (hscripts : ∀ script ∈ scripts, ∀ call ∈ script, call.Stays)
    (calls : List ReceiverCall) :
    Attends (h ++ heard calls) (carryOutAll z now scripts calls c) := by
  induction calls generalizing scripts c h with
  | nil =>
      rw [Connection.carryOutAll, show heard [] = [] from rfl, List.append_nil]
      exact hc
  | cons call calls ih =>
      rw [show call :: calls = [call] ++ calls from rfl, heard_append, ← List.append_assoc]
      cases scripts with
      | nil =>
          have hcall : Attends (h ++ heard [call])
              (Connection.carryOut z now (fun c => c) c call) :=
            hc.carryOut (fun _ => rfl) z now call
          exact ih hcall (by simp)
      | cons script scripts =>
          rw [List.forall_mem_cons] at hscripts
          exact ih (hc.carryOut (outlook_userCalls z now hscripts.1) z now call) hscripts.2

/-- A failure closes for another reason. -/
theorem Attends.fail (hc : Attends h c) (z : Zlib) (now : Timepoint)
    {react : Connection → Connection} (hreact : ∀ c, (react c).outlook = c.outlook) :
    Attends h (fail z now react .timeout c) := by
  refine Attends.possiblyClose hreact ?_ now
  obtain ⟨probe, heq⟩ := failParts_eq z now c .timeout
  rw [heq]
  exact { hc with closes := fun _ hr => (by cases hr) }

/-- A handshake packet, which at most opens the receiver. -/
theorem Attends.handshakeOnReceive (hc : Attends h c) (z : Zlib) (now : Timepoint)
    (scripts : List (List UserCall)) (packet : Packet)
    (hsettled : c.receiver.receiveQueue.queue[c.receiver.receiveQueue.expectedID]? = none) :
    Attends h (handshakeOnReceive z now scripts c packet) := by
  have hcomplete : ∀ d : Connection, d.outlook = c.outlook →
      d.receiver = c.receiver → ∀ remoteID first,
      Attends h (complete z now scripts d remoteID first) := by
    intro d hd hreceiver remoteID first
    rw [← hreceiver] at hsettled
    rw [complete, onHandshakeComplete]
    dsimp only
    rw [open_of_settled hsettled]
    dsimp only
    rw [Connection.carryOutAll]
    refine Attends.of_outlook ?_ (outlook_call z now _ .open)
    have hd := hc.of_outlook hd
    refine { hd with closes := fun hs hr => ?_ }
    dsimp only at hs
    split at hs
    · cases hs
    · exact hd.closes hs hr
  have hsent : ∀ p, (c.send now p).receiver = c.receiver := by
    intro p
    rw [send_eq]
  rw [Connection.handshakeOnReceive]
  split
  swap
  · exact hc
  rw [handlePacket]
  split
  · dsimp only
    split <;> exact hc.of_outlook (outlook_send now c _)
  · split
    · split
      · exact hc.of_outlook (outlook_call z now _ _)
      · exact hc
    · split
      · dsimp only
        split
        · exact hcomplete _ (outlook_send now c _) (hsent _) _ _
        · exact hc.of_outlook (outlook_send now c _)
      · split
        · dsimp only
          split
          · exact hcomplete c rfl rfl _ _
          · exact hc
        · exact hc

theorem Attends.senderOnReceive (hc : Attends h c) (z : Zlib) (now : Timepoint)
    {react : Connection → Connection} (hreact : ∀ c, (react c).outlook = c.outlook)
    (packet : Packet) : Attends h (senderOnReceive z now react c packet) := by
  rw [Connection.senderOnReceive]
  split
  · exact (hc.of_outlook (outlook_call z now c _)).possiblyClose hreact now
  · split
    · exact (hc.of_outlook (outlook_call z now c _)).possiblyClose hreact now
    · exact hc

theorem Attends.receiverOnReceive (hc : Attends h c) (z : Zlib) (now : Timepoint)
    {scripts : List (List UserCall)} (hscripts : ∀ script ∈ scripts, ∀ call ∈ script, call.Stays)
    (packet : Packet) :
    Attends (h ++ heard (c.receiver.onReceive z packet).1)
      (receiverOnReceive z now scripts c packet) := by
  have hreceiver : Attends h { c with receiver := (c.receiver.onReceive z packet).2 } := by
    refine hc.of_outlook ?_
    simp only [outlook, Receiver.status_onReceive]
  exact hreceiver.carryOutAll z now hscripts _

/-- At most an acknowledgement is sent for a packet without data. -/
theorem heard_of_not_data (z : Zlib) (r : Receiver) {packet : Packet}
    (hdata : ¬ IsData packet.header.type) : heard (r.onReceive z packet).1 = [] := by
  rw [IsData, not_or] at hdata
  rw [Receiver.onReceive]
  split
  · rfl
  · dsimp only
    rw [if_neg hdata.1, if_neg hdata.2]
    split <;> rfl

/-- A packet without data is not heard. -/
theorem Attends.receive (hc : Attends h c) (z : Zlib) (now : Timepoint) {reactions : Reactions}
    (hreactions : reactions.Stays) {packet : Packet} (path : Address)
    (hdata : ¬ IsData packet.header.type)
    (hsettled : c.receiver.receiveQueue.queue[c.receiver.receiveQueue.expectedID]? = none) :
    Attends h (receive z now reactions c packet path) := by
  have hheader := header_onReceive c.options packet
  rw [Connection.receive]
  split
  · exact hc
  next packet₁ options hoptions =>
    rw [hoptions] at hheader
    have hheader' := header_networkPathOnReceive z now { c with options := options } packet₁ path
    have hpath := outlook_networkPathOnReceive z now { c with options := options } packet₁ path
    have hcalm := (@moves_networkPathOnReceive z now False False { c with options := options }
      packet₁ path).calm
    have hnegotiated : Attends h { c with options := options } := hc.of_outlook rfl
    split
    next hrun =>
      rw [hrun] at hpath
      exact hnegotiated.of_outlook hpath
    next packet₂ c₁ hrun =>
      rw [hrun] at hpath hheader' hcalm
      have htype : ¬ IsData packet₂.header.type := by
        rwa [show packet₂.header = packet.header from hheader'.trans hheader]
      have hsettled₁ : c₁.receiver.receiveQueue.queue[c₁.receiver.receiveQueue.expectedID]? =
          none := by
        rw [show c₁.receiver.receiveQueue = c.receiver.receiveQueue from hcalm.receiveQueue]
        exact hsettled
      have hshaken := (hnegotiated.of_outlook hpath).handshakeOnReceive z now reactions.opened
        packet₂ hsettled₁
      generalize hd : Connection.handshakeOnReceive z now reactions.opened c₁ packet₂ = d at hshaken
      have hprobed : Attends h { d with probe := d.probe.on d.options now } :=
        hshaken.of_outlook rfl
      have hsent := hprobed.senderOnReceive z now (outlook_userCalls z now hreactions.2.1) packet₂
      have hfinal := hsent.receiverOnReceive z now hreactions.2.2 packet₂
      rw [heard_of_not_data z _ htype, List.append_nil] at hfinal
      rw [Connection.accept, hd]
      exact hfinal

/-- What happens without a packet is not heard. -/
theorem Attends.step (hc : Attends h c) (z : Zlib) (now : Timepoint) {input : Input}
    (hstays : input.Stays)
    (hreceive : ∀ packet path reactions, input ≠ .receive packet path reactions) :
    Attends h (c.step z (now, input)) := by
  cases input with
  | user call =>
      refine hc.of_outlook ?_
      have hone := @outlook_userCalls z now [call]
        (by simpa using (show call.Stays from hstays)) c
      rwa [userCalls, userCalls] at hone
  | receive packet path reactions => exact absurd rfl (hreceive packet path reactions)
  | processSchedule reliability => exact hc.of_outlook (outlook_call z now c _)
  | retryTimeout script =>
      rw [Connection.step, retryTimeout]
      split
      · exact hc.fail z now (outlook_userCalls z now hstays)
      · exact hc.of_outlook (outlook_call z now c _)
  | probeTimeout script =>
      rw [Connection.step, probeTimeout]
      split
      · exact hc
      · dsimp only
        split
        · split
          · exact hc.of_outlook (outlook_call z now _ _)
          · refine Attends.fail ?_ z now (outlook_userCalls z now hstays)
            exact hc.of_outlook rfl
        · exact hc.of_outlook rfl
  | close event script =>
      exact hc.closeWith (outlook_userCalls z now hstays.2) now fun heq => absurd heq hstays.1

end Connection

/-! ## The frames of the peer -/

/-- What frames mean to a receiver, with the close of the stream. -/
def stream (z : Zlib) (fs : List Frame) : List (Option Bytes) := heard (frameCalls z [] fs).1

/-- A side follows its peer, and its user has got what was heard of it. -/
structure Side.Attends (z : Zlib) (peer s : Side) : Prop where
  follows : Side.Follows z peer s
  attends : s.connection.Attends
    (stream z (peer.connection.sender.dataQueue.generated.take s.processed))

/-- **One step of a side** whose user stays. -/
theorem Side.Attends.step {z : Zlib} {peer s : Side} (h : Side.Attends z peer s)
    (hpeer : peer.connection.Stretches) {now : Timepoint} {input : Input}
    (hfair : Side.Fair peer s input) (hstays : input.Stays) :
    Side.Attends z peer (s.step z (now, input)) := by
  refine ⟨h.follows.step hpeer hfair, ?_⟩
  have htracks := h.follows.follows.tracks
  have hprocessed : ∀ {hi n'}, s.processed ≤ n' → n' ≤ s.processed + 2 ^ 15 →
      ReceiveQueue.Tracks peer.connection.sender.dataQueue.generated hi
        (s.connection.step z (now, input)).receiver.receiveQueue n' →
      (s.connection.step z (now, input)).Attends
        (stream z (peer.connection.sender.dataQueue.generated.take n')) →
      (s.step z (now, input)).connection.Attends (stream z
        (peer.connection.sender.dataQueue.generated.take (s.step z (now, input)).processed)) := by
    intro hi n' hle hle' htracks' hattends
    rw [Side.processed_step htracks htracks' hle hle']
    exact hattends
  have hcalm : Calm s.connection (s.connection.step z (now, input)) →
      (s.connection.step z (now, input)).Attends
        (stream z (peer.connection.sender.dataQueue.generated.take s.processed)) →
      (s.step z (now, input)).connection.Attends (stream z
        (peer.connection.sender.dataQueue.generated.take (s.step z (now, input)).processed)) := by
    intro hcalm
    exact hprocessed le_rfl (by omega) (by rw [hcalm.receiveQueue]; exact htracks)
  by_cases hreceives : ∃ packet path reactions, input = .receive packet path reactions
  swap
  · have hnone : ∀ packet path reactions, input ≠ .receive packet path reactions :=
      fun packet path reactions heq => hreceives ⟨packet, path, reactions, heq⟩
    exact hcalm (Connection.moves_step hfair.1
        (fun packet path reactions heq => hnone packet path reactions heq) _).calm
      (h.attends.step z now hstays hnone)
  · obtain ⟨packet, path, reactions, rfl⟩ := hreceives
    by_cases hdata : Connection.IsData packet.header.type
    swap
    · exact hcalm (Connection.calm_receive hfair.1 path hdata h.follows.follows.settled)
        (h.attends.receive z now hstays path hdata h.follows.follows.settled)
    rcases @Connection.receive_data now packet reactions z s.connection path hdata with
      ⟨call, hrun⟩ | ⟨probe, hrun⟩
    · refine hcalm ?_ ?_ <;> rw [Connection.step, hrun]
      · exact (@Connection.Move.call z now False False s.connection call).calm
      · exact h.attends.of_outlook (Connection.outlook_call z now _ call)
    · obtain ⟨n', hle, hle', hfollows, hheard⟩ := h.follows.data hpeer hfair hdata now probe
      have hprobed : Connection.Attends
          (stream z (peer.connection.sender.dataQueue.generated.take s.processed))
          { s.connection with probe := probe } := h.attends.of_outlook rfl
      rw [← hrun] at hfollows
      refine hprocessed hle hle' hfollows.tracks ?_
      rw [Connection.step, hrun, stream, hheard]
      exact hprobed.receiverOnReceive z now hstays.2.2 packet

/-- A side goes on attending to a peer that takes a step. -/
theorem Side.Attends.peer {z : Zlib} {peer s : Side} (h : Side.Attends z peer s)
    (hpeer : peer.connection.Stretches) (input : Timepoint × Input) :
    Side.Attends z (peer.step z input) s := by
  refine ⟨h.follows.peer hpeer input, ?_⟩
  obtain ⟨fs, hgrown⟩ := Connection.generated_step (z := z) hpeer input
  show s.connection.Attends (stream z
    ((peer.connection.step z input).sender.dataQueue.generated.take s.processed))
  rw [← hgrown, List.take_append_of_le_length h.follows.follows.tracks.le_length]
  exact h.attends

namespace Conversation

/-- Each side gets its reliable data from the other, and the user of the right one stays. -/
def Patient (x : Conversation) (action : Action) : Prop :=
  x.Fair action ∧ ∀ now input, action = .right now input → input.Stays

/-- The left side is any connection that follows the right one, whose user attends. -/
structure Attended (z : Zlib) (x : Conversation) : Prop where
  left : Side.Follows z x.right x.left
  reachable : Connection.Reachable z x.left.connection
  right : Side.Attends z x.left x.right

theorem Attended.step {z : Zlib} {x : Conversation} (h : x.Attended z) {action : Action}
    (hpatient : x.Patient action) : (x.step z action).Attended z := by
  obtain ⟨hfair, hstays⟩ := hpatient
  cases action with
  | left now input =>
      exact ⟨h.left.step h.right.follows.stretches hfair,
        Connection.reachable_step h.reachable (now, input),
        h.right.peer h.left.stretches (now, input)⟩
  | right now input =>
      exact ⟨h.left.peer h.right.follows.stretches (now, input), h.reachable,
        h.right.step h.left.stretches hfair (hstays now input rfl)⟩

end Conversation
end MrUDP
