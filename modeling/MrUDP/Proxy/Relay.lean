import MrUDP.Proxy.Accounts

/-!
# What a pair of proxies forwards

`mrudp/Proxy.cpp`.  All connections that two proxies forward share the wire, and are told apart by
their numbers.  A connection that one of them was told to make belongs to one that the other has
accepted, each of the two is sent what the other hands over, and when one of them ends, so does the
other.

## Main definitions

* `Proxy.Traced`: a pair with its journals, as a machine.
* `Proxy.Traced.Kept`: the proxies agree with their journals, and what one has queued the other has
  come to, but for what is on its way.
* `Proxy.Traced.Kept.forwards`: what is sent on a connection.
* `Proxy.connect`: the packet that a client begins with.
-/

namespace MrUDP
open Wire Machine

namespace Proxy

/-! ## The pair -/

/-- What an event is for one of the proxies, if it is anything. -/
def Pair.event (x : Pair) : PairEvent → Option (Side × ProxyEvent)
  | .accept side => some (side, .accept)
  | .packet side h data isReliable => some (side, .packet h data isReliable)
  | .closed side h => some (side, .closed h)
  | .tick side ready _ => some (side, .tick ready)
  | .receive side connects =>
      match x.incoming side with
      | [] => none
      | message :: _ =>
          if (x.proxy side).wire = none then none else some (side, .message message connects)
  | .close side => some (side, .close)

/-- Two proxies, and a journal for each. -/
structure Traced where
  pair : Pair
  journal : Side → Journal

namespace Traced

/-- The proxies at the beginning, and whether the wire could be made. -/
def «open» (options : Side → ProxyOptions) (connects : Bool) : Traced where
  pair := Pair.open options connects
  journal
    | .connecting => if connects then Journal.enter {} 0 0 .wire else {}
    | .accepting => {}

/-- Something happens, and is noted. -/
def step (x : Traced) (event : PairEvent) : Traced where
  pair := x.pair.step event
  journal :=
    match x.pair.event event with
    | none => x.journal
    | some (side, e) =>
        Function.update x.journal side ((x.journal side).note (x.pair.proxy side) e)

/-- The proxies agree with their journals, and what one has queued the other has come to, but for
what is on its way. -/
structure Kept (x : Traced) : Prop where
  numbered : x.pair.Numbered
  balanced : ∀ side, Balanced side (x.pair.proxy side) (x.journal side)
  fifo : ∀ side, (x.journal side).queued =
    (x.journal side.other).acted ++ x.pair.incoming side.other ++ (x.pair.proxy side).out

variable {x y : Traced} {side : Side}

theorem forall_side {P : Side → Prop} (side : Side) (h : P side) (h' : P side.other) :
    ∀ side, P side := by
  intro side'
  cases side <;> cases side' <;> first | exact h | exact h'

/-- One proxy changes, and with it what is on its way. -/
theorem Kept.of_side {t : Proxy} {j : Journal} (hx : x.Kept) (hnumbered : y.pair.Numbered)
    (hproxy : y.pair.proxy = Function.update x.pair.proxy side t)
    (hjournal : y.journal = Function.update x.journal side j) (hb : Balanced side t j)
    (hsender : j.queued =
      (x.journal side.other).acted ++ y.pair.incoming side.other ++ t.out)
    (hreceiver : (x.journal side.other).queued =
      j.acted ++ y.pair.incoming side ++ (x.pair.proxy side.other).out) : y.Kept := by
  have hside : y.pair.proxy side = t ∧ y.journal side = j := by
    rw [hproxy, hjournal]
    exact ⟨Function.update_self .., Function.update_self ..⟩
  have hother : y.pair.proxy side.other = x.pair.proxy side.other ∧
      y.journal side.other = x.journal side.other := by
    rw [hproxy, hjournal]
    exact ⟨Function.update_of_ne (Side.other_ne side) ..,
      Function.update_of_ne (Side.other_ne side) ..⟩
  refine ⟨hnumbered, forall_side side ?_ ?_, forall_side side ?_ ?_⟩
  · rw [hside.1, hside.2]
    exact hb
  · rw [hother.1, hother.2]
    exact hx.balanced _
  · rw [hside.1, hside.2, hother.2]
    exact hsender
  · rw [hother.1, hother.2, Side.other_other, hside.2]
    exact hreceiver

/-- The messages that the other proxy has queued. -/
theorem Kept.fifo_other (hx : x.Kept) (side : Side) : (x.journal side.other).queued =
    (x.journal side).acted ++ x.pair.incoming side ++ (x.pair.proxy side.other).out := by
  have hother := hx.fifo side.other
  rwa [Side.other_other] at hother

/-- One proxy changes, and may queue something. -/
theorem Kept.of_local {event : ProxyEvent} (hx : x.Kept) (hnumbered : y.pair.Numbered)
    (hkeeps : Balanced.Keeps side (x.pair.proxy side) (x.journal side) event)
    (hproxy : y.pair.proxy = Function.update x.pair.proxy side ((x.pair.proxy side).step event))
    (hincoming : y.pair.incoming = x.pair.incoming)
    (hjournal : y.journal =
      Function.update x.journal side ((x.journal side).note (x.pair.proxy side) event))
    (hevent : ∀ message connects, event ≠ .message message connects) : y.Kept := by
  have hclosed := (hx.balanced side).closed_eq
  obtain ⟨hb, new, hout⟩ := hkeeps
  refine hx.of_side hnumbered hproxy hjournal hb ?_ ?_
  · rw [queued_note hclosed, hout, List.drop_left, hx.fifo side, hincoming, List.append_assoc]
  · rw [acted_note hclosed hevent, hx.fifo_other side, hincoming]

/-! ## Numbers that are free -/

/-- What a proxy has come to is the beginning of what the other has queued. -/
theorem Kept.acted_queued (hx : x.Kept) (side : Side) :
    (x.journal side).acted <+: (x.journal side.other).queued := by
  rw [hx.fifo_other side, List.append_assoc]
  exact List.prefix_append ..

/-- Nothing has come about a number that the other side has given to no connection. -/
theorem Kept.nothing (hx : x.Kept) {id : ProxyID}
    (hunused : ∀ h, (x.journal side.other).number h ≠ some id) :
    dataOf id (x.journal side).acted = [] ∧ .close id ∉ (x.journal side).acted := by
  have hother := hx.balanced side.other
  refine ⟨?_, ?_⟩
  · have hdata := @dataOf_traffic id (x.journal side.other).queued
    rw [hother.accounts.silent id hunused] at hdata
    have hmono := @dataOf_mono id _ _ (hx.acted_queued side)
    rw [← hdata] at hmono
    exact List.prefix_nil.mp hmono
  · intro hclose
    obtain ⟨h, hh, -⟩ := hother.endings.ended id ((hx.acted_queued side).subset hclose)
    exact hunused h hh

/-- The next number of a side has not been given to a connection of either. -/
theorem Kept.next_unused (hx : x.Kept) (hroom : (x.pair.proxy side).allocated < 2 ^ 24) :
    (∀ h, (x.journal side).number h ≠ some (x.pair.proxy side).nextProxyID) ∧
      ∀ h, (x.journal side.other).number h ≠ some (x.pair.proxy side).nextProxyID := by
  have hnext := (hx.numbered side).next
  have hfresh : ¬ Own side (x.pair.proxy side).allocated (x.pair.proxy side).nextProxyID := by
    rintro ⟨i, hi, heq⟩
    rw [hnext] at heq
    have := proxyID_inj heq hroom (hi.trans hroom)
    omega
  refine ⟨?_, ?_⟩
  · intro h hh
    obtain ⟨-, hown⟩ | ⟨hopened, -⟩ := (hx.balanced side).accounts.numbers h _ hh
    · exact hfresh hown
    · obtain ⟨i, hi⟩ := hx.numbered.opened _ hopened
      rw [hnext] at hi
      exact Side.ne_other side (side_eq_of_proxyID_eq hi)
  · intro h hh
    obtain ⟨-, i, -, hi⟩ | ⟨hopened, -⟩ := (hx.balanced side.other).accounts.numbers h _ hh
    · rw [hnext] at hi
      exact Side.ne_other side (side_eq_of_proxyID_eq hi)
    · have hpassed : (x.pair.proxy side).nextProxyID ∈ x.pair.passed side :=
        List.mem_append_left _ hopened
      exact hfresh ((hx.numbered side).own _ (List.mem_append_left _ hpassed))

end Traced

/-- The traffic about a number begins with the message that opens it, if there is one. -/
theorem traffic_of_open {id : ProxyID} {address : ProxyAddress} {before after : List Message}
    {request : Request} {announces : Bool}
    (h : traffic id (before ++ .open id address :: after) = request.messages announces id) :
    traffic id before = [] ∧ announces = true ∧ ∃ data, request = .connection address data := by
  have hsplit : traffic id (before ++ .open id address :: after) =
      traffic id before ++ .open id address :: traffic id after := by
    rw [traffic_append]
    simp [traffic]
  rw [hsplit] at h
  have hdata (data : List Chunk) :
      .open id address ∉ data.map fun chunk => Message.data id chunk.1 chunk.2 := by simp
  cases request with
  | undecided => simp [Request.messages] at h
  | wire => simp [Request.messages] at h
  | connection address' data =>
      cases announces with
      | false =>
          refine absurd ?_ (hdata data)
          rw [show (data.map fun chunk => Message.data id chunk.1 chunk.2) =
            traffic id before ++ .open id address :: traffic id after from h.symm]
          simp
      | true =>
          cases hbefore : traffic id before with
          | nil =>
              rw [hbefore] at h
              simp only [Request.messages, if_true, List.nil_append, List.singleton_append,
                List.cons.injEq, Message.open.injEq] at h
              exact ⟨rfl, rfl, data, by rw [h.1.2]⟩
          | cons m ms =>
              rw [hbefore] at h
              simp only [Request.messages, if_true, List.cons_append, List.nil_append,
                List.cons.injEq] at h
              refine absurd ?_ (hdata data)
              rw [← h.2]
              simp

namespace Traced

variable {x : Traced} {side : Side} {id : ProxyID}

variable {address : ProxyAddress} {messages : List Message}

/-- A message that opens a connection has a number that is free. -/
theorem Kept.open_unused (hx : x.Kept)
    (hincoming : x.pair.incoming side = .open id address :: messages) :
    (∀ h, (x.journal side).number h ≠ some id) ∧ dataOf id (x.journal side).acted = [] ∧
      .close id ∉ (x.journal side).acted := by
  have hpassed : x.pair.passed side.other =
      (x.pair.proxy side).opened ++ id :: opens messages := by
    rw [Pair.passed, Side.other_other, hincoming]
    rfl
  have hmem : id ∈ x.pair.passed side.other := by
    rw [hpassed]
    exact List.mem_append_right _ List.mem_cons_self
  have hother := hx.numbered side.other
  obtain ⟨i, -, hi⟩ := hother.own id (List.mem_append_left _ hmem)
  have hfifo := hx.fifo_other side
  rw [hincoming, List.append_assoc, List.cons_append] at hfifo
  refine ⟨?_, ?_, ?_⟩
  · intro h hh
    obtain ⟨-, k, -, hk⟩ | ⟨hopened, -⟩ := (hx.balanced side).accounts.numbers h id hh
    · exact Side.ne_other side (side_eq_of_proxyID_eq (hk.symm.trans hi))
    · have hnodup := hother.nodup.of_append_left
      rw [hpassed] at hnodup
      exact (List.nodup_append.mp hnodup).2.2 id hopened id List.mem_cons_self rfl
  · -- The connection that asked for it has asked for nothing else before.
    by_cases hunused : ∀ h, (x.journal side.other).number h ≠ some id
    · exact (hx.nothing hunused).1
    · push Not at hunused
      obtain ⟨h, hh⟩ := hunused
      have htraffic := (hx.balanced side.other).accounts.traffic h id hh
      rw [hfifo] at htraffic
      rw [← dataOf_traffic, (traffic_of_open htraffic).1, dataOf_nil]
  · intro hclose
    obtain ⟨before, after, hacted⟩ := List.append_of_mem hclose
    rw [hacted, List.append_assoc, List.cons_append] at hfifo
    exact (hx.balanced side.other).endings.last _ _ id address hfifo
      (List.mem_append_right _ List.mem_cons_self)

/-- A connection that the other proxy was told to make has asked for it. -/
theorem Kept.request_of_open (hx : x.Kept) {h : Handle} (hh : (x.journal side).number h = some id)
    (hopen : .open id address ∈ (x.journal side.other).acted) :
    (x.journal side).origin h = .undecided ∧
      ∃ asked, (x.journal side).request (x.pair.proxy side).options h =
        .connection address asked := by
  have hqueued := hx.acted_queued side.other
  rw [Side.other_other] at hqueued
  obtain ⟨before, after, hsplit⟩ := List.append_of_mem (hqueued.subset hopen)
  have htraffic := (hx.balanced side).accounts.traffic h id hh
  rw [hsplit] at htraffic
  obtain ⟨-, hannounces, asked, hrequest⟩ := traffic_of_open htraffic
  exact ⟨of_decide_eq_true hannounces, asked, hrequest⟩

/-- The other proxy does not close the wire. -/
theorem Kept.not_wire (hx : x.Kept) (hclose : .close id ∈ (x.journal side.other).queued)
    {h : Handle} (hh : (x.journal side).number h = some id) :
    ((x.journal side).request (x.pair.proxy side).options h).mode ≠ .wire := by
  obtain ⟨k, hk, -⟩ := (hx.balanced side.other).endings.ended id hclose
  obtain ⟨-, i, -, hi⟩ | ⟨-, address, horigin, -⟩ := (hx.balanced side).accounts.numbers h id hh
  · obtain ⟨-, i', -, hi'⟩ | ⟨-, address, -, hopen⟩ :=
      (hx.balanced side.other).accounts.numbers k id hk
    · exact absurd (side_eq_of_proxyID_eq (hi.symm.trans hi')) (Side.ne_other side)
    · obtain ⟨-, asked, hrequest⟩ := hx.request_of_open hh hopen
      rw [hrequest]
      simp [Request.mode]
  · rw [Journal.request, horigin, Request.foldl_take_connection]
    simp [Request.mode]

/-! ## One step -/

theorem Kept.accept (hx : x.Kept) (hroom : (x.pair.proxy side).allocated < 2 ^ 24) :
    (x.step (.accept side)).Kept := by
  obtain ⟨hunused, hother⟩ := hx.next_unused hroom
  obtain ⟨hnothing, hopen⟩ := hx.nothing hother
  have hown : Own side ((x.pair.proxy side).allocated + 1) (x.pair.proxy side).nextProxyID :=
    ⟨_, Nat.lt_succ_self _, (hx.numbered side).next⟩
  have hkeeps := (hx.balanced side).accept hown hunused hnothing hopen
  exact hx.of_local (hx.numbered.accept hroom) hkeeps rfl rfl rfl (by simp)

theorem Kept.packet (hx : x.Kept) (h : Handle) (data : Bytes) (isReliable : Bool) :
    (x.step (.packet side h data isReliable)).Kept := by
  have hkeeps := (hx.balanced side).packet h data isReliable
  exact hx.of_local (hx.numbered.packet h data isReliable) hkeeps rfl rfl rfl (by simp)

theorem Kept.closed (hx : x.Kept) (h : Handle) : (x.step (.closed side h)).Kept := by
  have hnumbered : (x.pair.step (.closed side h)).Numbered := hx.numbered.step trivial
  exact hx.of_local hnumbered ((hx.balanced side).closed h) rfl rfl rfl (by simp)

/-- What the ticker sends is on its way. -/
theorem Kept.tick (hx : x.Kept) (ready : Bool) : (x.step (.tick side ready true)).Kept := by
  obtain ⟨hb, hqueued, hout⟩ := (hx.balanced side).tick ready
  have hacted := @acted_note _ (x.journal side) (hx.balanced side).closed_eq (.tick ready) (by simp)
  refine hx.of_side (hx.numbered.tick ready true) rfl rfl hb ?_ ?_
  · rw [hqueued, hx.fifo side]
    simp only [step, Pair.step, Function.update_self, and_true]
    obtain hsame | hsent := hout
    · split
      next hempty =>
        rw [hsame] at hempty
        simp [hsame, hempty]
      · rw [hsame]
    · rw [if_pos hsent, hsent, List.append_nil, List.append_assoc]
  · rw [hacted, hx.fifo_other side]
    simp only [step, Pair.step]
    rw [Function.update_of_ne (Side.ne_other side)]

/-- A proxy acts on the next message. -/
theorem Kept.message (hx : x.Kept) {message : Message}
    (hincoming : x.pair.incoming side = message :: messages)
    (hwire : (x.pair.proxy side).wire ≠ none) (connects : Bool) :
    Balanced.Keeps side (x.pair.proxy side) (x.journal side) (.message message connects) := by
  have hb := hx.balanced side
  cases message with
  | «open» id address =>
      obtain ⟨hunused, hnothing, hopen⟩ := hx.open_unused hincoming
      exact hb.messageOpen hwire address connects hunused hnothing hopen
  | close id =>
      refine hb.messageClose hwire connects fun h hh => ?_
      refine hx.not_wire ?_ (hb.accounts.called h id hh).1
      rw [hx.fifo_other side, hincoming]
      simp
  | data id isReliable bytes => exact hb.messageData hwire id isReliable bytes connects

/-- A message is taken off the wire. -/
theorem step_receive {message : Message} (hincoming : x.pair.incoming side = message :: messages)
    (hwire : (x.pair.proxy side).wire ≠ none) (connects : Bool) :
    x.step (.receive side connects) =
      { pair :=
          { proxy := Function.update x.pair.proxy side
              ((x.pair.proxy side).step (.message message connects))
            incoming := Function.update x.pair.incoming side messages }
        journal := Function.update x.journal side
          ((x.journal side).note (x.pair.proxy side) (.message message connects)) } := by
  simp only [step, Pair.step, Pair.event, hincoming, if_neg hwire, Pair.update]

theorem step_receive_idle (h : x.pair.incoming side = [] ∨ (x.pair.proxy side).wire = none)
    (connects : Bool) : x.step (.receive side connects) = x := by
  cases hincoming : x.pair.incoming side with
  | nil => simp only [step, Pair.step, Pair.event, hincoming]
  | cons message messages =>
      obtain hempty | hwire := h
      · cases hempty.symm.trans hincoming
      · simp only [step, Pair.step, Pair.event, hincoming, if_pos hwire]

/-- The next message is taken off the wire. -/
theorem Kept.receive (hx : x.Kept) (connects : Bool) :
    (x.step (.receive side connects)).Kept := by
  have hnumbered : (x.pair.step (.receive side connects)).Numbered := hx.numbered.receive connects
  have hclosed := (hx.balanced side).closed_eq
  cases hincoming : x.pair.incoming side with
  | nil =>
      rw [step_receive_idle (.inl hincoming)]
      exact hx
  | cons message messages =>
      by_cases hwire : (x.pair.proxy side).wire = none
      · rw [step_receive_idle (.inr hwire)]
        exact hx
      · obtain ⟨hb, new, hnew⟩ := hx.message hincoming hwire connects
        have hstep := step_receive hincoming hwire connects
        refine hx.of_side hnumbered (by rw [hstep]) (by rw [hstep]) hb ?_ ?_
        · rw [queued_note hclosed, hnew, List.drop_left, hx.fifo side, hstep]
          dsimp only
          rw [Function.update_of_ne (Side.other_ne side), List.append_assoc]
        · rw [acted_note_message hclosed hwire, hx.fifo_other side, hincoming, hstep]
          dsimp only
          rw [Function.update_self]
          simp only [List.append_assoc, List.cons_append, List.nil_append]

theorem balanced_empty (side : Side) (options : ProxyOptions) (id : ProxyID) (n : ℕ) :
    Balanced side { options, nextProxyID := id, allocated := n } {} := by
  refine ⟨⟨⟨rfl, rfl⟩, ?_, ?_, ?_, ?_, ?_, ?_, ?_, ?_, ?_⟩, ⟨?_, ?_, ?_, ?_⟩⟩ <;>
    simp [Proxy.connection, Final]

theorem kept_open (options : Side → ProxyOptions) (connects : Bool) :
    (Traced.open options connects).Kept := by
  refine ⟨Pair.numbered_open options connects, ?_, ?_⟩
  · intro side
    cases side with
    | connecting =>
        have hempty := balanced_empty .connecting (options .connecting) (incrementProxyID 0) 1
        cases connects with
        | false =>
            refine ⟨?_, hempty.endings.congr rfl rfl⟩
            refine hempty.accounts.insert ?_ ⟨rfl, rfl⟩ rfl rfl rfl rfl rfl rfl fun _ hid => hid
            intro h hh
            cases hh
        | true =>
            have hs : Enters
                { options := options .connecting, nextProxyID := incrementProxyID 0,
                  allocated := 1 }
                (Proxy.open (options .connecting) (some true)) 0 Request.wire.mode none :=
              ⟨⟨rfl, rfl⟩, rfl, rfl, rfl, rfl, rfl, le_rfl, fun _ hid => hid⟩
            refine ⟨?_, hempty.endings.enter hempty.accounts hs (by simp)⟩
            exact hempty.accounts.enter hs (by simp) rfl rfl (.inr ⟨rfl, rfl⟩)
              (.inl ⟨by decide, 0, Nat.one_pos, by decide⟩)
    | accepting => exact balanced_empty .accepting (options .accepting) serverID 0
  · intro side
    cases side <;> cases connects <;> rfl

/-! ## What is forwarded -/

/-- Nothing is on its way. -/
def Quiet (x : Traced) : Prop :=
  ∀ side, x.pair.incoming side = [] ∧ (x.pair.proxy side).out = []

/-- A connection calls back its entry: it has not ended. -/
def Calls (x : Traced) (side : Side) (h : Handle) : Prop :=
  (x.pair.proxy side).handlers[h]?.isSome

/-- What is sent on a connection is what the connection with the same number on the other side has
asked for, from the beginning on; and all of it, if it has not ended and nothing is on its way. -/
theorem Kept.sent (hx : x.Kept) {h k : Handle} (hh : (x.journal side).number h = some id)
    (hk : (x.journal side.other).number k = some id) :
    let asked := ((x.journal side).request (x.pair.proxy side).options h).data
    (x.journal side.other).sent k <+: asked ∧
      ((x.pair.proxy side.other).connection id = some k → x.Quiet →
        (x.journal side.other).sent k = asked) := by
  intro asked
  have hasked : dataOf id (x.journal side).queued = asked := by
    rw [← dataOf_traffic, (hx.balanced side).accounts.traffic h id hh, dataOf_messages]
  have hqueued := hx.acted_queued side.other
  rw [Side.other_other] at hqueued
  rw [← hasked]
  refine ⟨?_, ?_⟩
  · exact ((hx.balanced side.other).accounts.sent k id hk).trans (dataOf_mono hqueued)
  · intro hcurrent hquiet
    rw [(hx.balanced side.other).accounts.current k id hcurrent, hx.fifo side,
      (hquiet side.other).1, (hquiet side).2, List.append_nil, List.append_nil]

/-- A forwarded connection that has not ended is its entry's. -/
theorem Kept.connection_of_calls (hx : x.Kept) {h : Handle}
    (hh : (x.journal side).number h = some id) (hcalls : x.Calls side h)
    (hmode : ((x.journal side).request (x.pair.proxy side).options h).mode = .connection) :
    (x.pair.proxy side).connection id = some h := by
  obtain ⟨id', hid⟩ := Option.isSome_iff_exists.mp hcalls
  obtain ⟨hnumber, -, e, he, hemode, hc⟩ := (hx.balanced side).accounts.called h id' hid
  obtain rfl := Option.some.inj (hh.symm.trans hnumber)
  obtain hc | hwire := hc
  · exact Option.bind_eq_some_iff.mpr ⟨e, he, hc⟩
  · simp [hemode, hmode] at hwire

/-- When nothing is on its way, the end of a forwarded connection has been heeded. -/
theorem Kept.calls_of_calls (hx : x.Kept) (hquiet : x.Quiet) {h k : Handle}
    (hh : (x.journal side).number h = some id) (hk : (x.journal side.other).number k = some id)
    (hmode : ((x.journal side).request (x.pair.proxy side).options h).mode = .connection)
    (hcalls : x.Calls side.other k) : x.Calls side h := by
  by_contra hended
  have hnone : (x.pair.proxy side).handlers[h]? = none := by
    rwa [Calls, Option.not_isSome_iff_eq_none] at hended
  have hclose := (hx.balanced side).endings.told h id hh hnone hmode
  rw [hx.fifo side, (hquiet side.other).1, (hquiet side).2, List.append_nil, List.append_nil]
    at hclose
  obtain ⟨id', hid⟩ := Option.isSome_iff_exists.mp hcalls
  obtain ⟨hnumber, -⟩ := (hx.balanced side.other).accounts.called k id' hid
  obtain rfl := Option.some.inj (hk.symm.trans hnumber)
  exact (hx.balanced side.other).endings.heeded id hclose k hid

/-- The data in chunks, without those that are empty. -/
def filled (chunks : List Chunk) : List Chunk := chunks.filter (·.2 ≠ [])

/-- **Forwarding.**  A connection that a proxy was told to make belongs to one that the other has
accepted and that has asked for the address.  What is sent on either is what the other has handed
over, from the beginning on and in order; and when nothing is on its way, either both have ended, or
neither has and nothing is missing. -/
theorem Kept.forwards (hx : x.Kept) {k : Handle} {data : List Chunk}
    (hk : (x.journal side.other).number k = some id)
    (horigin : (x.journal side.other).origin k = .connection address data) :
    ∃ h asked, (x.journal side).number h = some id ∧ (x.journal side).origin h = .undecided ∧
      (x.journal side).request (x.pair.proxy side).options h = .connection address asked ∧
      (x.journal side.other).sent k <+: asked ∧
      (x.journal side).sent h <+: filled ((x.journal side.other).handed k) ∧
      (x.Quiet → (x.Calls side h ↔ x.Calls side.other k) ∧
        (x.Calls side h → (x.journal side.other).sent k = asked ∧
          (x.journal side).sent h = filled ((x.journal side.other).handed k))) := by
  obtain ⟨hmode, -⟩ | ⟨-, address', horigin', hopen⟩ :=
    (hx.balanced side.other).accounts.numbers k id hk
  · simp [horigin, Request.mode] at hmode
  obtain ⟨rfl, rfl⟩ := Request.connection.inj (horigin.symm.trans horigin')
  -- The message that opened it was queued for a connection.
  have hqueued := hx.acted_queued side.other
  rw [Side.other_other] at hqueued
  have hmade : ∃ h, (x.journal side).number h = some id := by
    by_contra hnone
    push Not at hnone
    have hsilent := (hx.balanced side).accounts.silent id hnone
    have hmem : .open id address ∈ traffic id (x.journal side).queued :=
      List.mem_filter.mpr ⟨hqueued.subset hopen, by simp⟩
    simp [hsilent] at hmem
  obtain ⟨h, hh⟩ := hmade
  obtain ⟨haccepted, asked, hrequest⟩ := hx.request_of_open hh hopen
  have hmade : (x.journal side.other).request (x.pair.proxy side.other).options k =
      .connection address (filled ((x.journal side.other).handed k)) := by
    rw [Journal.request, horigin, Request.foldl_take_connection]
    rfl
  have hh' : (x.journal side.other.other).number h = some id := by rwa [Side.other_other]
  have hsent := hx.sent hh hk
  have hback := hx.sent hk hh'
  rw [hrequest, Request.data] at hsent
  rw [Side.other_other, hmade, Request.data] at hback
  have hmode : ((x.journal side).request (x.pair.proxy side).options h).mode = .connection := by
    rw [hrequest]
    rfl
  have hmode' : ((x.journal side.other).request (x.pair.proxy side.other).options k).mode =
      .connection := by
    rw [hmade]
    rfl
  refine ⟨h, asked, hh, haccepted, hrequest, hsent.1, hback.1, fun hquiet => ?_⟩
  have hthere := hx.calls_of_calls hquiet hk hh' hmode'
  rw [Side.other_other] at hthere
  refine ⟨⟨hthere, hx.calls_of_calls hquiet hh hk hmode⟩, fun hcalls => ?_⟩
  exact ⟨hsent.2 (hx.connection_of_calls hk (hthere hcalls) hmode') hquiet,
    hback.2 (hx.connection_of_calls hh hcalls hmode) hquiet⟩

end Traced

/-! ## The client -/

/-- The packet that `connect` sends first. -/
def connect (magic : BitVec 64) (remote : ProxyAddress) : Bytes :=
  leBytes 8 magic.toNat ++ remote.bytes

/-- A connection that begins with the packet of `connect`, and perhaps more in the same chunk, asks
for the address in it, and for what follows. -/
theorem request_connect {j : Journal} {options : ProxyOptions} {h : Handle}
    (hmagic : options.magicConnection ≠ options.magicWire) (horigin : j.origin h = .undecided)
    {isReliable : Bool} {remote : ProxyAddress} {rest : Bytes} {chunks : List Chunk}
    (hhanded : j.handed h =
      (isReliable, connect options.magicConnection remote ++ rest) :: chunks) :
    j.request options h = .connection remote (Traced.filled ((isReliable, rest) :: chunks)) := by
  have hlength : (connect options.magicConnection remote ++ rest).length = 15 + rest.length := by
    rw [connect, List.length_append, List.length_append, length_leBytes, length_address]
  have hread : DataIn.read ⟨connect options.magicConnection remote ++ rest,
      (15 + rest.length : ℕ)⟩ 8 = some (leBytes 8 options.magicConnection.toNat,
        ⟨remote.bytes ++ rest, 7 + rest.length⟩) := by
    rw [connect, List.append_assoc,
      read_append _ _ _ (length_leBytes ..) (by push_cast; omega)]
    congr 3
    push_cast
    omega
  have haddress : DataIn.readAddress ⟨remote.bytes ++ rest, 7 + rest.length⟩ =
      some (remote, ⟨rest, rest.length⟩) := by
    rw [readAddress_append remote rest (by omega)]
    congr 3
    omega
  have hfirst : Request.first options
      (isReliable, connect options.magicConnection remote ++ rest) =
        Request.forward remote [] (isReliable, rest) := by
    rw [Request.first]
    dsimp only
    rw [hlength, hread]
    dsimp only
    rw [ofNat_leNat_leBytes _ (by norm_num), if_neg hmagic, if_pos rfl, haddress]
  rw [Journal.request, horigin, hhanded, List.foldl_cons, Request.take, hfirst, Request.forward,
    Request.foldl_take_connection]
  by_cases hrest : rest = [] <;> simp [Traced.filled, hrest]

end Proxy
end MrUDP
