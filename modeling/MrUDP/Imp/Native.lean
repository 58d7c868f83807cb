import MrUDP.Lib.Run
import MrUDP.Packet

/-!
# The send queue of a native socket

`mrudp/imp/Asio.cpp`.  A native socket sends one packet at a time.  The packets wait in a queue, and
the first of them is the one being sent: who pushes a packet onto the empty queue starts to send it,
and when a send has completed, successfully or not, its packet is removed and the next one is
started.

A send that is started while the handle is closed completes never.  So if the handle is closed while
packets are waiting, nothing is sent any more, also after the socket has been relocated.

The sections that hold a lock are atomic; between them other threads may run.

## Main definitions

* `Imp.SocketNative`, `Imp.SocketNative.step`: the socket as a machine.
* `Imp.SocketNative.serving`: the queue is served, as long as every send finds the handle open.
* `Imp.SocketNative.wedged`: otherwise it is not.
-/

namespace MrUDP
open Machine

namespace Imp

/-- `imp::Send`. -/
structure Send where
  address : Address
  packet : Packet
  deriving DecidableEq

/-- `SocketNative`, and what its `SocketImp` and the threads know about it.

`starting` counts the calls of `SocketImp::doSend` that have not yet come to the handle, and
`outstanding` are the asynchronous sends that have not completed.  `pushed` are all packets put into
the queue, and `handed` those given to the handle. -/
structure SocketNative where
  running : Bool := false
  isOpen : Bool := false
  queue : List Send := []
  starting : ℕ := 0
  outstanding : List Send := []
  pushed : List Send := []
  handed : List Send := []
  deriving DecidableEq

/-- What happens to a native socket. -/
inductive SocketEvent
  /-- `SocketImp::sendViaQueue`, up to `doSend`. -/
  | sendViaQueue (send : Send)
  /-- `SocketImp::doSend`. -/
  | doSend
  /-- One of the outstanding sends completes, up to `doSend`. -/
  | complete (index : ℕ) (error : Bool)
  /-- `SocketImp::close`. -/
  | close
  /-- A round of the loop of `SocketImp::acquireAddress`, which may fail to open the handle. -/
  | acquireAddress (error : Bool)
  /-- `SocketImp::open`. -/
  | open

namespace SocketNative

/-- `SocketNative::send`. -/
def send (s : SocketNative) (send : Send) : SocketNative :=
  if s.isOpen then
    { s with outstanding := s.outstanding ++ [send], handed := s.handed ++ [send] }
  else s

/-- Something happens.  `SocketImp::relocate` is `close`, `acquireAddress` and `open`, one after the
other. -/
def step (s : SocketNative) : SocketEvent → SocketNative
  | .sendViaQueue send =>
      let queue := s.queue ++ [send]
      { s with
        queue := queue
        pushed := s.pushed ++ [send]
        starting := if queue.length = 1 then s.starting + 1 else s.starting }
  | .doSend =>
      if s.starting = 0 then s
      else
        match s.queue with
        | [] => s
        | front :: _ => { s with starting := s.starting - 1 }.send front
  | .complete index _ =>
      if index < s.outstanding.length then
        let queue := s.queue.tail
        { s with
          outstanding := s.outstanding.eraseIdx index
          queue := queue
          starting := if 0 < queue.length then s.starting + 1 else s.starting }
      else s
  | .close => if s.running then { s with running := false, isOpen := false } else s
  | .acquireAddress error => { s with isOpen := !error }
  | .open => { s with running := true }

/-- A send that is started finds the handle open. -/
def FindsOpen (s : SocketNative) : SocketEvent → Prop
  | .doSend => s.starting ≠ 0 → s.isOpen = true
  | _ => True

instance (s : SocketNative) : DecidablePred s.FindsOpen
  | .doSend => inferInstanceAs (Decidable (s.starting ≠ 0 → s.isOpen = true))
  | .sendViaQueue _ | .complete _ _ | .close | .acquireAddress _ | .open => .isTrue trivial

/-! ## The queue is served -/

/-- Either the queue is empty and nothing is going on, or someone is about to send its front, or it
is being sent. -/
inductive Serving (s : SocketNative) : Prop
  | idle (queue : s.queue = []) (starting : s.starting = 0) (outstanding : s.outstanding = [])
      (handed : s.handed = s.pushed)
  | starting {front : Send} {rest : List Send} (queue : s.queue = front :: rest)
      (starting : s.starting = 1) (outstanding : s.outstanding = [])
      (handed : s.handed ++ front :: rest = s.pushed)
  | sending {front : Send} {rest : List Send} (queue : s.queue = front :: rest)
      (starting : s.starting = 0) (outstanding : s.outstanding = [front])
      (handed : s.handed ++ rest = s.pushed)

theorem serving_init : Serving {} := .idle rfl rfl rfl rfl

variable {s : SocketNative}

theorem Serving.sendViaQueue (h : s.Serving) (send : Send) :
    (s.step (.sendViaQueue send)).Serving := by
  cases h with
  | idle hqueue hstarting houtstanding hhanded =>
      refine @Serving.starting _ send [] ?_ ?_ houtstanding ?_
      · rw [step, hqueue, List.nil_append]
      · rw [step, hqueue, hstarting]
        rfl
      · rw [step, hhanded]
  | @starting front rest hqueue hstarting houtstanding hhanded =>
      refine @Serving.starting _ front (rest ++ [send]) ?_ ?_ houtstanding ?_
      · rw [step, hqueue, List.cons_append]
      · rw [step, hqueue, hstarting]
        exact if_neg (by simp)
      · rw [step, ← hhanded, List.append_assoc, List.cons_append]
  | @sending front rest hqueue hstarting houtstanding hhanded =>
      refine @Serving.sending _ front (rest ++ [send]) ?_ ?_ houtstanding ?_
      · rw [step, hqueue, List.cons_append]
      · rw [step, hqueue, hstarting]
        exact if_neg (by simp)
      · rw [step, ← hhanded, List.append_assoc]

theorem Serving.doSend (h : s.Serving) (hopen : s.FindsOpen .doSend) :
    (s.step .doSend).Serving := by
  cases h with
  | idle hqueue hstarting houtstanding hhanded =>
      rw [step, if_pos hstarting]
      exact .idle hqueue hstarting houtstanding hhanded
  | @starting front rest hqueue hstarting houtstanding hhanded =>
      have hisOpen : s.isOpen = true := hopen (by omega)
      rw [step, if_neg (by omega), hqueue]
      dsimp only
      rw [send, if_pos hisOpen]
      refine @Serving.sending _ front rest rfl ?_ ?_ ?_
      · dsimp only
        rw [hstarting]
      · dsimp only
        rw [houtstanding, List.nil_append]
      · dsimp only
        rw [← hhanded, List.append_assoc, List.singleton_append]
  | @sending front rest hqueue hstarting houtstanding hhanded =>
      rw [step, if_pos hstarting]
      exact .sending hqueue hstarting houtstanding hhanded

theorem Serving.complete (h : s.Serving) (index : ℕ) (error : Bool) :
    (s.step (.complete index error)).Serving := by
  rw [step]
  split
  next hindex =>
    cases h with
    | idle _ _ houtstanding =>
        rw [houtstanding] at hindex
        cases hindex
    | starting _ _ houtstanding =>
        rw [houtstanding] at hindex
        cases hindex
    | @sending front rest hqueue hstarting houtstanding hhanded =>
        rw [houtstanding, List.length_singleton, Nat.lt_one_iff] at hindex
        have hdone : s.outstanding.eraseIdx index = [] := by rw [houtstanding, hindex]; rfl
        have htail : s.queue.tail = rest := by rw [hqueue, List.tail_cons]
        cases rest with
        | nil =>
            refine .idle htail ?_ hdone ?_
            · dsimp only
              rw [htail, hstarting]
              rfl
            · rwa [List.append_nil] at hhanded
        | cons next rest =>
            refine .starting htail ?_ hdone hhanded
            dsimp only
            rw [htail, hstarting, if_pos (by simp)]
  · exact h

/-- Nothing about the handle changes that. -/
theorem Serving.of_eq (h : s.Serving) {s' : SocketNative} (hqueue : s'.queue = s.queue)
    (hstarting : s'.starting = s.starting) (houtstanding : s'.outstanding = s.outstanding)
    (hhanded : s'.handed = s.handed) (hpushed : s'.pushed = s.pushed) : s'.Serving := by
  cases h with
  | idle h₁ h₂ h₃ h₄ =>
      exact .idle (hqueue.trans h₁) (hstarting.trans h₂) (houtstanding.trans h₃)
        (by rw [hhanded, hpushed, h₄])
  | starting h₁ h₂ h₃ h₄ =>
      exact .starting (hqueue.trans h₁) (hstarting.trans h₂) (houtstanding.trans h₃)
        (by rw [hhanded, hpushed, h₄])
  | sending h₁ h₂ h₃ h₄ =>
      exact .sending (hqueue.trans h₁) (hstarting.trans h₂) (houtstanding.trans h₃)
        (by rw [hhanded, hpushed, h₄])

theorem Serving.step (h : s.Serving) {event : SocketEvent} (hopen : s.FindsOpen event) :
    (s.step event).Serving := by
  cases event with
  | sendViaQueue send => exact h.sendViaQueue send
  | doSend => exact h.doSend hopen
  | complete index error => exact h.complete index error
  | close =>
      rw [SocketNative.step]
      split
      · exact h.of_eq rfl rfl rfl rfl rfl
      · exact h
  | acquireAddress error => exact h.of_eq rfl rfl rfl rfl rfl
  | «open» => exact h.of_eq rfl rfl rfl rfl rfl

/-- **The queue is served.**  If every send that is started finds the handle open, then packets are
handed to the socket in the order of the queue, each once; and whenever the queue is not empty and
no thread is on its way to the handle, exactly one send is outstanding, that of the front, and its
completion removes it. -/
theorem serving (events : List SocketEvent) (hopen : Along step FindsOpen {} events)
    (s : SocketNative) (hs : run step {} events = s) :
    s.handed <+: s.pushed ∧
      (s.queue = [] → s.handed = s.pushed ∧ s.outstanding = [] ∧ s.starting = 0) ∧
      ∀ front rest, s.queue = front :: rest →
        (s.starting = 1 ∧ s.outstanding = [] ∨ s.starting = 0 ∧ s.outstanding = [front]) ∧
        (s.starting = 0 → s.outstanding = [front] ∧ s.handed ++ rest = s.pushed ∧
          ∀ error, (s.step (.complete 0 error)).queue = rest) := by
  have hserving : s.Serving := hs ▸ run_invariant Serving (fun _ _ h hopen => h.step hopen)
    serving_init hopen
  cases hserving with
  | idle hqueue hstarting houtstanding hhanded =>
      refine ⟨by rw [hhanded], fun _ => ⟨hhanded, houtstanding, hstarting⟩, ?_⟩
      intro front rest hfront
      rw [hqueue] at hfront
      cases hfront
  | starting hqueue hstarting houtstanding hhanded =>
      refine ⟨⟨_, hhanded⟩, ?_, ?_⟩
      · intro hempty
        rw [hqueue] at hempty
        cases hempty
      · intro front rest hfront
        refine ⟨.inl ⟨hstarting, houtstanding⟩, fun hnone => ?_⟩
        omega
  | sending hqueue hstarting houtstanding hhanded =>
      refine ⟨⟨_, hhanded⟩, ?_, ?_⟩
      · intro hempty
        rw [hqueue] at hempty
        cases hempty
      · intro front rest hfront
        obtain ⟨rfl, rfl⟩ := List.cons.inj (hqueue.symm.trans hfront)
        refine ⟨.inr ⟨hstarting, houtstanding⟩, fun _ => ⟨houtstanding, hhanded, fun error => ?_⟩⟩
        rw [step, houtstanding, if_pos (by simp), hqueue]
        rfl

/-- Three packets, a send that fails, and a move while none is waiting. -/
def served (a b c : Send) : List SocketEvent :=
  [.acquireAddress false, .open, .sendViaQueue a, .sendViaQueue b, .doSend, .complete 0 true,
    .doSend, .close, .complete 0 true, .acquireAddress false, .open, .sendViaQueue c, .doSend]

/-- A packet to an address. -/
def sample (address : Address) : Send := ⟨address, {}⟩

theorem serving_served :
    (run step {} (served (sample 1) (sample 2) (sample 3))).outstanding = [sample 3] ∧
      (run step {} (served (sample 1) (sample 2) (sample 3))).handed =
        [sample 1, sample 2, sample 3] :=
  ⟨(((serving (served (sample 1) (sample 2) (sample 3)) (by decide +kernel) _ rfl).2.2
      (sample 3) [] (by decide +kernel)).2 (by decide +kernel)).1, by decide +kernel⟩

/-- The socket is closed while a packet is waiting, and opened again. -/
def relocated : List SocketEvent :=
  [.acquireAddress false, .open, .sendViaQueue (sample 1), .doSend, .sendViaQueue (sample 2),
    .close, .complete 0 true, .doSend, .acquireAddress false, .open, .sendViaQueue (sample 3)]

/-- **The queue is wedged**: the socket is open, packets are waiting, no send is outstanding, and no
thread is about to start one. -/
theorem wedged :
    (run step {} relocated).isOpen = true ∧
      (run step {} relocated).queue = [sample 2, sample 3] ∧
      (run step {} relocated).outstanding = [] ∧ (run step {} relocated).starting = 0 := by
  decide +kernel

end SocketNative
end Imp
end MrUDP
