import MrUDP.Socket.Speech
import MrUDP.Socket.Tables

/-!
# The two sides of a handshake agree

An initiator sends H0 until it hears H1, and then H2 until it hears H3.  The connection a
socket generates from an H0 answers every H0 with H1 and every H2 with H3, and pushes its
options on the H3.  Packets between the two are lost, duplicated and reordered at will;
whatever else reaches either side is not a handshake packet.

The responder does not know the initiator's identifier before H2, nor the initiator the
responder's before H3, so what each side may have said depends on how far it has come.

## Main definitions

* `Exchange`, `Exchange.step`: the two sides.
* `Exchange.Honest`: handshake packets come from the other side, and the users leave the
  options alone.
* `Exchange.Agrees`: the invariant.
-/

namespace MrUDP
open Wire Machine
open Connection (Standing Stands Says Arrives Reactions)

/-! ## The options -/

/-- The options an initiator ends up with, given the responder's. -/
def HandshakeOptions.Agreed (initiator responder : ConnectionOptions) : Prop :=
  initiator.maximumRetryAttempts = responder.maximumRetryAttempts ∧
    initiator.probeDelayMS.toInt = max responder.probeDelayMS.toInt 0

namespace HandshakeOptions

theorem length_bytes (options : ConnectionOptions) : (bytes options).length = 6 := by
  simp [bytes]

/-- The options are read as they were pushed. -/
theorem onReceive_bytes {packet : Packet} (htype : packet.header.type = TypeID.h3)
    {front : Bytes} {theirs : ConnectionOptions} (hdata : packet.data = front ++ bytes theirs)
    (options : ConnectionOptions) :
    ∃ packet' options', onReceive options packet = (.keep, packet', options') ∧
      packet'.header = packet.header ∧ packet'.data = front ∧ Agreed options' theirs := by
  have hpop := popData_append packet front (bytes theirs) hdata
  rw [length_bytes] at hpop
  simp only [onReceive, if_pos htype, hpop]
  refine ⟨_, _, rfl, rfl, rfl, ?_, ?_⟩
  · have hdrop : (bytes theirs).drop 4 = leBytes 2 theirs.maximumRetryAttempts.toNat := by
      simp [bytes]
    dsimp only
    rw [hdrop, ofNat_leNat_leBytes _ (by norm_num)]
  · have htake : (bytes theirs).take 4 = leBytes 4 (max theirs.probeDelayMS.toInt 0).toNat := by
      simp [bytes]
    have hlt : theirs.probeDelayMS.toInt < 2 ^ 31 := BitVec.toInt_lt
    dsimp only
    rw [htake, leNat_leBytes (by omega), BitVec.toInt_eq_toNat_cond, BitVec.toNat_ofNat,
      Nat.mod_eq_of_lt (by omega)]
    split <;> omega

theorem onReceive_of_ne_h3 (options : ConnectionOptions) {packet : Packet}
    (h : packet.header.type ≠ TypeID.h3) :
    onReceive options packet = (.keep, packet, options) := by
  rw [onReceive, if_neg h]

end HandshakeOptions

/-! ## The two sides -/

/-- An initiator, and the connection the peer's socket has generated from its H0. -/
structure Exchange where
  initiator : Connection
  responder : Option Connection := none

namespace Exchange

/-- What happens to one of the sides. -/
inductive Action
  | initiator (now : Timepoint) (input : Connection.Input)
  /-- A packet of the initiator makes a socket generate a connection. -/
  | generate (now : Timepoint) (s : Socket) (packet : Packet) (path : Address) (o : Surroundings)
  | responder (now : Timepoint) (input : Connection.Input)

/-- One thing happens.  The packet that a connection was generated from is then received like
any other. -/
def step (z : Zlib) (x : Exchange) : Action → Exchange
  | .initiator now input => { x with initiator := x.initiator.step z (now, input) }
  | .generate now s packet path o =>
      let (lookup, packet) := getLookUp packet
      let generated := s.generateConnection z now lookup packet path o
      match x.responder, generated.2.objects.drop s.objects.length with
      | none, [c] => { x with responder := some c }
      | _, _ => x
  | .responder now input => { x with responder := x.responder.map (·.step z (now, input)) }

/-- A handshake packet that is received was transmitted by the other side. -/
def From (peer : Option Connection) : Connection.Input → Prop
  | .receive packet _ _ => isHandshake packet.header.type = true →
      ∃ c, peer = some c ∧ ∃ o ∈ c.transmitted, Arrives o packet
  | _ => True

/-- The handshake packets come from the other side, and the users leave the options alone. -/
def Honest (x : Exchange) : Action → Prop
  | .initiator _ input => input.Within False ∧ From x.responder input
  | .generate _ _ packet _ _ =>
      ∃ o ∈ x.initiator.transmitted, ∃ rest, packet = { o.packet with rest := rest }
  | .responder _ input => input.Within False ∧ From (some x.initiator) input

/-! ## What each side may say -/

/-- The initiator says H0 and, once it has heard H1, its identifier. -/
def asks (f : Standing) : Speech := fun type data =>
  type = TypeID.h0 ∧ data = [] ∨
    f.handshake.waitingFor ≠ TypeID.h1 ∧ type = TypeID.h2 ∧ data = leBytes 2 f.localID.toNat

/-- The responder says H1 once it has heard H0 and, once it is complete, its identifier and
its options. -/
def answers (f : Standing) : Speech := fun type data =>
  f.handshake.waitingFor ≠ TypeID.h0 ∧ type = TypeID.h1 ∧ data = [] ∨
    f.handshake.waitingFor = TypeID.handshakeComplete ∧ type = TypeID.h3 ∧
      data = leBytes 2 f.localID.toNat ++ HandshakeOptions.bytes f.options

/-- Nothing of the responder's handshake is sent again. -/
def nothing (_ : Standing) : Speech := fun _ _ => False

theorem fits_asks (f : Standing) : Speech.Fits (asks f) (asks f) where
  sub _ _ h := h
  h3 data h := by
    rcases h with ⟨htype, _⟩ | ⟨_, htype, _⟩ <;> exact absurd htype (by decide)
  small type data h := by
    rcases h with ⟨_, rfl⟩ | ⟨_, _, rfl⟩ <;> simp

theorem fits_answers (f : Standing) : Speech.Fits (nothing f) (answers f) where
  sub _ _ h := h.elim
  h3 _ h := h
  small type data h := by
    rcases h with ⟨_, _, rfl⟩ | ⟨_, _, rfl⟩ <;> simp [HandshakeOptions.length_bytes]

/-! ## How far each side has come -/

/-- What the initiator knows, given the responder. -/
structure Asking (localID : ShortConnectionID) (responder : Option Connection) (f : Standing) :
    Prop where
  localID : f.localID = localID
  phase : f.handshake.waitingFor = TypeID.h1 ∨ f.handshake.waitingFor = TypeID.h3 ∨
    f.handshake.waitingFor = TypeID.handshakeComplete
  heard : f.handshake.waitingFor ≠ TypeID.h1 →
    ∃ c, responder = some c ∧ c.handshake.waitingFor ≠ TypeID.h0
  complete : f.handshake.waitingFor = TypeID.handshakeComplete →
    ∃ c, responder = some c ∧ c.handshake.waitingFor = TypeID.handshakeComplete ∧
      f.remoteID = c.localID ∧ HandshakeOptions.Agreed f.options c.options

/-- What the responder knows, given the initiator's identifier, and how it was before. -/
structure Answering (remoteID : ShortConnectionID) (before : Connection) (f : Standing) :
    Prop where
  localID : f.localID = before.localID
  options : f.options = before.options
  phase : f.handshake.waitingFor = TypeID.h0 ∨ f.handshake.waitingFor = TypeID.h2 ∨
    f.handshake.waitingFor = TypeID.handshakeComplete
  heard : before.handshake.waitingFor ≠ TypeID.h0 → f.handshake.waitingFor ≠ TypeID.h0
  complete : before.handshake.waitingFor = TypeID.handshakeComplete →
    f.handshake.waitingFor = TypeID.handshakeComplete
  remoteID : f.handshake.waitingFor = TypeID.handshakeComplete → f.remoteID = remoteID

/-- **The two sides agree** as far as they have come. -/
structure Agrees (localID : ShortConnectionID) (x : Exchange) : Prop where
  initiator : Stands (Asking localID x.responder) asks asks x.initiator
  responder : ∀ c, x.responder = some c → c.localID ≠ 0 ∧
    Stands (Answering localID c) nothing answers c

variable {z : Zlib} {x : Exchange} {localID : ShortConnectionID}

/-! ## The initiator -/

variable {packet : Packet} {path : Address} {reactions : Reactions} {scripts : List (List UserCall)}
  {c : Connection}

/-- What the responder says to the initiator. -/
theorem Agrees.said_by_responder (h : x.Agrees localID) {input : Connection.Input}
    (hinput : input = .receive packet path reactions) (hfrom : From x.responder input)
    (htype : isHandshake packet.header.type = true) :
    ∃ c, x.responder = some c ∧ answers c.standing packet.header.type packet.data := by
  subst hinput
  obtain ⟨c, hc, o, ho, harrives⟩ := hfrom htype
  exact ⟨c, hc, (h.responder c hc).2.2.transmitted o ho packet harrives htype⟩

/-- The handshake of one side is complete, and the peer's packets are looked at. -/
theorem stands_complete {T : Standing → Prop} {waiting spoken : Standing → Speech}
    (hfits : ∀ f, T f → Speech.Fits (waiting f) (spoken f)) (now : Timepoint)
    (hscripts : ∀ script ∈ scripts, UserCall.WithinAll False script) {remoteID : ShortConnectionID}
    {first : PacketID}
    (h : Stands T waiting spoken
      { c with remoteID := remoteID, handshake := ⟨TypeID.handshakeComplete, first⟩ }) :
    Stands T waiting spoken (Connection.complete z now scripts c remoteID first) := by
  rw [Connection.complete, Connection.onHandshakeComplete]
  refine Stands.call hfits now (show SenderCall.Sends _ .open from trivial) ?_
  refine (Connection.keepsFront_says (z := z) hfits).carryOutAll now hscripts _ ?_
  exact h.of_eq rfl rfl rfl

theorem readRemoteID_leBytes {id : ShortConnectionID} (h : packet.data = leBytes 2 id.toNat) :
    (Connection.readRemoteID packet).1 = id := by
  have hpop := popData_append packet [] (leBytes 2 id.toNat) (by simpa using h)
  rw [length_leBytes] at hpop
  simp only [Connection.readRemoteID, hpop]
  exact ofNat_leNat_leBytes id (by norm_num)

/-- The initiator hears H1: the responder has heard its H0. -/
theorem stands_h1 {responder : Option Connection}
    (h : Stands (Asking localID responder) asks asks c)
    (hheard : ∃ c, responder = some c ∧ c.handshake.waitingFor ≠ TypeID.h0) (now : Timepoint)
    (htype : packet.header.type = TypeID.h1) :
    Stands (Asking localID responder) asks asks
      (Connection.handlePacket z now scripts c packet) := by
  have hne : ¬ packet.header.type = TypeID.h0 := by rw [htype]; decide
  rw [Connection.handlePacket, if_neg hne, if_pos htype]
  split
  next hwaiting =>
    have hasked : Stands (Asking localID responder) asks asks
        { c with handshake := { c.handshake with waitingFor := TypeID.h3 } } := by
      obtain ⟨hasking, hspeech⟩ := h
      refine ⟨⟨hasking.localID, .inr (.inl rfl), fun _ => hheard,
        fun hcomplete => absurd hcomplete (by decide : TypeID.h3 ≠ TypeID.handshakeComplete)⟩, ?_⟩
      have hmono : ∀ type data, asks c.standing type data →
          asks { c.standing with handshake :=
            { c.handshake with waitingFor := TypeID.h3 } } type data := by
        intro type data hsaid
        exact hsaid.imp_right fun hh2 => ⟨(by decide : TypeID.h3 ≠ TypeID.h1), hh2.2⟩
      exact (hspeech.mono hmono hmono).of_eq rfl rfl
    refine hasked.call (fun f _ => fits_asks f) now (MultiPacketPath.forall_front ?_)
    have hpush : pushValue { header := { type := TypeID.h2 } } (leBytes 2 c.localID.toNat) =
        (true, { header := { type := TypeID.h2 }, data := leBytes 2 c.localID.toNat }) := by
      rw [pushValue, pushData_of_fits (by simp [maxPacketSize])]
      simp
    rw [hpush]
    exact fun _ => .inr ⟨(by decide : TypeID.h3 ≠ TypeID.h1), rfl, rfl⟩
  · exact h

/-- The initiator hears H3: it is complete, or has been before. -/
theorem stands_h3 {responder : Connection}
    (h : Stands (Asking localID (some responder)) asks asks c)
    (hcomplete : responder.handshake.waitingFor = TypeID.handshakeComplete)
    (hagreed : HandshakeOptions.Agreed c.options responder.options) (now : Timepoint)
    (hscripts : ∀ script ∈ scripts, UserCall.WithinAll False script)
    (htype : packet.header.type = TypeID.h3)
    (hdata : packet.data = leBytes 2 responder.localID.toNat) :
    Stands (Asking localID (some responder)) asks asks
      (Connection.handlePacket z now scripts c packet) := by
  have h0 : ¬ packet.header.type = TypeID.h0 := by rw [htype]; decide
  have h1 : ¬ packet.header.type = TypeID.h1 := by rw [htype]; decide
  have h2 : ¬ packet.header.type = TypeID.h2 := by rw [htype]; decide
  rw [Connection.handlePacket, if_neg h0, if_neg h1, if_neg h2, if_pos htype]
  dsimp only
  split
  next hwaiting =>
    apply stands_complete (fun f _ => fits_asks f) now hscripts
    obtain ⟨hasking, hspeech⟩ := h
    rw [readRemoteID_leBytes hdata]
    refine ⟨⟨hasking.localID, .inr (.inr rfl), fun _ => ⟨responder, rfl, ?_⟩,
      fun _ => ⟨responder, rfl, hcomplete, rfl, hagreed⟩⟩, ?_⟩
    · rw [hcomplete]
      decide
    · have hmono : ∀ type data, asks c.standing type data →
          asks { c.standing with
            remoteID := responder.localID
            handshake := ⟨TypeID.handshakeComplete, c.handshake.firstNonHandshakePacketID⟩ }
            type data := by
        intro type data hsaid
        exact hsaid.imp_right fun hh2 => ⟨(by decide : TypeID.handshakeComplete ≠ TypeID.h1), hh2.2⟩
      exact (hspeech.mono hmono hmono).of_eq rfl rfl
  · exact h

/-- The initiator receives a handshake packet of the responder. -/
theorem Agrees.initiator_receive (h : x.Agrees localID) (now : Timepoint)
    (hreactions : reactions.Within False)
    (hfrom : From x.responder (.receive packet path reactions))
    (htype : isHandshake packet.header.type = true) :
    Stands (Asking localID x.responder) asks asks
      (x.initiator.receive z now reactions packet path) := by
  obtain ⟨c, hc, hsaid⟩ := h.said_by_responder rfl hfrom htype
  have hkeeps := Connection.keepsFront_says (z := z)
    (T := Asking localID x.responder) (fun f _ => fits_asks f)
  rcases hsaid with ⟨hheard, hh1, -⟩ | ⟨hcomplete, hh3, hdata⟩
  · have hne : packet.header.type ≠ TypeID.h3 := by rw [hh1]; decide
    exact Connection.receive_handshake hkeeps now hreactions htype path
      (HandshakeOptions.onReceive_of_ne_h3 _ hne) h.initiator
      (stands_h1 h.initiator ⟨c, hc, hheard⟩ now hh1)
  · obtain ⟨packet', options, honReceive, hheader, hdata', hagreed⟩ :=
      HandshakeOptions.onReceive_bytes hh3 hdata x.initiator.options
    have hnegotiated : Stands (Asking localID x.responder) asks asks
        { x.initiator with options := options } := by
      obtain ⟨hasking, hspeech⟩ := h.initiator
      refine ⟨{ hasking with complete := fun hwaiting => ?_ },
        hspeech.of_eq rfl rfl⟩
      obtain ⟨c', hc', hcomplete', hremote, -⟩ := hasking.complete hwaiting
      obtain rfl : c' = c := Option.some.inj (hc'.symm.trans hc)
      exact ⟨c', hc', hcomplete', hremote, hagreed⟩
    refine Connection.receive_handshake hkeeps now hreactions htype path honReceive hnegotiated ?_
    rw [hc] at hnegotiated ⊢
    exact stands_h3 hnegotiated hcomplete hagreed now hreactions.1 (hheader ▸ hh3) hdata'

/-! ## The responder -/

/-- The responder answers, and goes on to the standing `f`. -/
theorem stands_reply {before : Connection} {f : Standing}
    (h : Says (nothing c.standing) (answers c.standing) c) (now : Timepoint) {reply : Packet}
    (hanswering : Answering localID before f)
    (hmono : ∀ type data, answers c.standing type data → answers f type data)
    (hreply : (answers f).Allows (HandshakeOptions.onSend c.options reply).2) {c' : Connection}
    (hstanding : c'.standing = f) (hsender : c'.sender = (c.send now reply).sender)
    (htransmitted : c'.transmitted = (c.send now reply).transmitted) :
    Stands (Answering localID before) nothing answers c' := by
  rw [Stands, hstanding]
  have hsaid := (h.mono (fun _ _ hw => hw) hmono).send (fits_answers f).small now hreply
  exact ⟨hanswering, hsaid.of_eq hsender htransmitted⟩

/-- The responder hears H0. -/
theorem stands_h0 {before : Connection} (h : Stands (Answering localID before) nothing answers c)
    (now : Timepoint) (htype : packet.header.type = TypeID.h0) :
    Stands (Answering localID before) nothing answers
      (Connection.handlePacket z now scripts c packet) := by
  obtain ⟨hanswering, hspeech⟩ := h
  rw [Connection.handlePacket, if_pos htype]
  dsimp only
  generalize hh1 : ({ header := { type := TypeID.h1, id := packet.header.id } } : Packet) = reply
  have hreply : ∀ f, f.handshake.waitingFor ≠ TypeID.h0 →
      (answers f).Allows (HandshakeOptions.onSend c.options reply).2 := by
    intro f hf
    rw [← hh1, Connection.onSend_of_ne_h3 _ (by show TypeID.h1 ≠ TypeID.h3; decide)]
    exact fun _ => .inl ⟨hf, rfl, rfl⟩
  have hstanding := Connection.standing_send now c reply
  have hwaitingFor := congrArg Standing.handshake hstanding
  split
  next hwaiting =>
    rw [show (c.send now reply).handshake = c.handshake from hwaitingFor] at hwaiting
    have hne : TypeID.h2 ≠ TypeID.h0 := by decide
    refine stands_reply (f := { c.standing with handshake :=
      { c.handshake with waitingFor := TypeID.h2 } }) hspeech now
      ⟨hanswering.localID, hanswering.options, .inr (.inl rfl), fun _ => hne, fun hbefore => ?_,
        fun heq => absurd heq (by decide : TypeID.h2 ≠ TypeID.handshakeComplete)⟩ ?_
      (hreply _ hne) ?_ rfl rfl
    · exact absurd (hwaiting.symm.trans (hanswering.complete hbefore)) (by decide)
    · rintro type data (⟨hne, _⟩ | ⟨heq, _⟩)
      · exact absurd hwaiting hne
      · exact absurd (hwaiting.symm.trans heq) (by decide)
    · rw [Connection.send_eq]
      rfl
  next hwaiting =>
    rw [show (c.send now reply).handshake = c.handshake from hwaitingFor] at hwaiting
    exact stands_reply hspeech now hanswering (fun _ _ hs => hs) (hreply _ hwaiting) hstanding
      rfl rfl

/-- The H3 that answers an H2, with the options pushed on it. -/
theorem onSend_h3 (options : ConnectionOptions) (id : PacketID) (localID : ShortConnectionID) :
    (HandshakeOptions.onSend options (pushValue { header := { type := TypeID.h3, id := id } }
      (leBytes 2 localID.toNat)).2).2 =
      { header := { type := TypeID.h3, id := id }
        data := leBytes 2 localID.toNat ++ HandshakeOptions.bytes options } := by
  have hpush : pushValue { header := { type := TypeID.h3, id := id } } (leBytes 2 localID.toNat) =
      (true, { header := { type := TypeID.h3, id := id }, data := leBytes 2 localID.toNat }) := by
    rw [pushValue, pushData_of_fits (by simp [maxPacketSize])]
    simp
  rw [hpush, HandshakeOptions.onSend, if_pos rfl]
  simp only [pushValue]
  rw [pushData_of_fits (by simp [HandshakeOptions.length_bytes, maxPacketSize])]
  simp

/-- The responder hears H2: it is complete, or has been before. -/
theorem stands_h2 {before : Connection} (h : Stands (Answering localID before) nothing answers c)
    (hheard : c.handshake.waitingFor ≠ TypeID.h0) (now : Timepoint)
    (hscripts : ∀ script ∈ scripts, UserCall.WithinAll False script)
    (htype : packet.header.type = TypeID.h2) (hdata : packet.data = leBytes 2 localID.toNat) :
    Stands (Answering localID before) nothing answers
      (Connection.handlePacket z now scripts c packet) := by
  obtain ⟨hanswering, hspeech⟩ := h
  have h0 : ¬ packet.header.type = TypeID.h0 := by rw [htype]; decide
  have h1 : ¬ packet.header.type = TypeID.h1 := by rw [htype]; decide
  rw [Connection.handlePacket, if_neg h0, if_neg h1, if_pos htype]
  dsimp only
  generalize hh3 : (pushValue { header := { type := TypeID.h3, id := packet.header.id } }
    (leBytes 2 c.localID.toNat)).2 = reply
  have hreply : ∀ f, f.handshake.waitingFor = TypeID.handshakeComplete →
      f.localID = c.localID → f.options = c.options →
      (answers f).Allows (HandshakeOptions.onSend c.options reply).2 := by
    intro f hf hlocalID hoptions
    rw [← hh3, onSend_h3, ← hlocalID, ← hoptions]
    exact fun _ => .inr ⟨hf, rfl, rfl⟩
  have hstanding := Connection.standing_send now c reply
  have hwaitingFor := congrArg Standing.handshake hstanding
  split
  next hwaiting =>
    apply stands_complete (fun f _ => fits_answers f) now hscripts
    rw [show (c.send now reply).handshake = c.handshake from hwaitingFor] at hwaiting
    rw [readRemoteID_leBytes hdata]
    have hne : TypeID.handshakeComplete ≠ TypeID.h0 := by decide
    refine stands_reply (f := { c.standing with
      remoteID := localID
      handshake := ⟨TypeID.handshakeComplete, packet.header.id + 1⟩ }) hspeech now
      ⟨hanswering.localID, hanswering.options, .inr (.inr rfl), fun _ => hne, fun _ => rfl,
        fun _ => rfl⟩ ?_ (hreply _ rfl rfl rfl) ?_ rfl rfl
    · rintro type data (⟨_, hh1⟩ | ⟨heq, _⟩)
      · exact .inl ⟨hne, hh1⟩
      · exact absurd (hwaiting.symm.trans heq) (by decide)
    · rw [Connection.send_eq]
      rfl
  next hwaiting =>
    rw [show (c.send now reply).handshake = c.handshake from hwaitingFor] at hwaiting
    have hcomplete := (hanswering.phase.resolve_left hheard).resolve_left hwaiting
    exact stands_reply hspeech now hanswering (fun _ _ hs => hs) (hreply _ hcomplete rfl rfl)
      hstanding rfl rfl

/-- The responder receives a handshake packet of the initiator. -/
theorem Agrees.responder_receive (h : x.Agrees localID) (hc : x.responder = some c)
    (now : Timepoint) (hreactions : reactions.Within False)
    (hfrom : From (some x.initiator) (.receive packet path reactions))
    (htype : isHandshake packet.header.type = true) :
    Stands (Answering localID c) nothing answers (c.receive z now reactions packet path) := by
  have hstands := (h.responder c hc).2
  have hkeeps := Connection.keepsFront_says (z := z) (T := Answering localID c)
    (fun f _ => fits_answers f)
  obtain ⟨_, ⟨⟩, o, ho, harrives⟩ := hfrom htype
  rcases h.initiator.2.transmitted o ho packet harrives htype with
    ⟨hh0, -⟩ | ⟨hasked, hh2, hdata⟩
  · have hne : packet.header.type ≠ TypeID.h3 := by rw [hh0]; decide
    exact Connection.receive_handshake hkeeps now hreactions htype path
      (HandshakeOptions.onReceive_of_ne_h3 _ hne) hstands (stands_h0 hstands now hh0)
  · have hne : packet.header.type ≠ TypeID.h3 := by rw [hh2]; decide
    obtain ⟨c', hc', hheard⟩ := h.initiator.1.heard hasked
    obtain rfl : c' = c := Option.some.inj (hc'.symm.trans hc)
    refine Connection.receive_handshake hkeeps now hreactions htype path
      (HandshakeOptions.onReceive_of_ne_h3 _ hne) hstands
      (stands_h2 hstands hheard now hreactions.1 hh2 ?_)
    rw [hdata, h.initiator.1.localID]

/-! ## A connection is generated -/

theorem says_fresh (waiting spoken : Speech) (id : LongConnectionID) (localID : ShortConnectionID)
    (remoteAddress : Address) (options : ConnectionOptions) :
    Says waiting spoken (Connection.fresh id localID remoteAddress options) := by
  refine ⟨fun k paths n hk => ?_, fun t ht => ?_, fun o ho => ?_⟩
  · simp [Connection.fresh, Retrier.outstanding] at hk
  · cases ht
  · cases ho

/-- The user may do anything before the connection is heard of. -/
theorem keeps_silent (z : Zlib) (localID : ShortConnectionID) :
    Connection.Keeps z True
      (Stands (fun f => f.handshake = {} ∧ f.localID = localID) nothing nothing) :=
  Connection.keeps_says (fun _ _ => ⟨fun _ _ hw => hw, fun _ hw => hw, fun _ _ hw => hw.elim⟩)
    fun _ _ hc => ⟨hc.1, hc.2.of_eq rfl rfl⟩

/-- A connection that was generated has an identifier, and has said nothing. -/
theorem stands_generated {now : Timepoint} {s : Socket} {lookup : LookUp} {o : Surroundings}
    (h : (s.generateConnection z now lookup packet path o).2.objects.drop s.objects.length = [c]) :
    c.localID ≠ 0 ∧ Stands (Answering localID c) nothing answers c := by
  have hcreated : ∀ id lid remoteAddress options (script : List UserCall),
      Stands (fun f => f.handshake = {} ∧ f.localID = lid) nothing nothing
        (Socket.created z now script id lid remoteAddress options) := by
    intro id lid remoteAddress options script
    have hkeeps := keeps_silent z lid
    refine hkeeps.userCalls now script (UserCall.withinAll_true script) _ (hkeeps.probe _ ?_)
    exact ⟨⟨rfl, rfl⟩, says_fresh _ _ _ _ _ _⟩
  have hfinal : ∀ {lid : ShortConnectionID}, lid ≠ 0 →
      Stands (fun f => f.handshake = {} ∧ f.localID = lid) nothing nothing c →
      c.localID ≠ 0 ∧ Stands (Answering localID c) nothing answers c := by
    rintro lid hne ⟨⟨hhandshake, hlocalID⟩, hspeech⟩
    have hwaiting : c.handshake.waitingFor = TypeID.h0 := congrArg Handshake.waitingFor hhandshake
    refine ⟨?_, ⟨rfl, rfl, .inl hwaiting, fun hbefore => hbefore, fun hbefore => hbefore, ?_⟩,
      hspeech.mono (fun _ _ hw => hw) fun _ _ hw => hw.elim⟩
    · rw [show c.localID = lid from hlocalID]
      exact hne
    · intro hcomplete
      exact absurd (hwaiting.symm.trans hcomplete) (by decide)
  by_cases hwilling : s.Willing lookup packet o
  swap
  · rw [Socket.generateConnection_of_not_willing hwilling] at h
    simp at h
  rw [Socket.generateConnection_of_willing hwilling] at h
  split at h
  · simp at h
  next lid hacquired =>
    have hne := (Socket.acquireShortConnectionID_spec hacquired).1
    have hc := hcreated lookup.longID lid path s.options o.script
    split at h
    · simp [Socket.erase, Socket.take] at h
    split at h
    · have heq : Connection.closeWith now (Connection.userCalls z now o.onClose) .notAccepted
          (Socket.created z now o.script lookup.longID lid path s.options) = c := by
        simpa [Socket.insert, Socket.take] using h
      have hkeeps := keeps_silent z lid
      refine hfinal hne (heq ▸ ?_)
      exact hkeeps.closeWith now .notAccepted
        (hkeeps.userCalls now o.onClose (UserCall.withinAll_true _)) hc
    · have heq : Socket.created z now o.script lookup.longID lid path s.options = c := by
        simpa [Socket.insert, Socket.take] using h
      exact hfinal hne (heq ▸ hc)

/-! ## Agreement -/

/-- What the initiator knows is not lost when the responder goes on. -/
theorem Asking.mono {before after : Connection} {f : Standing}
    (h : Asking localID (some before) f) {remoteID : ShortConnectionID}
    (hafter : Answering remoteID before after.standing) : Asking localID (some after) f where
  __ := h
  heard hwaiting := by
    obtain ⟨_, ⟨⟩, hheard⟩ := h.heard hwaiting
    exact ⟨after, rfl, hafter.heard hheard⟩
  complete hwaiting := by
    obtain ⟨_, ⟨⟩, hcomplete, hremote, hagreed⟩ := h.complete hwaiting
    refine ⟨after, rfl, hafter.complete hcomplete, ?_, ?_⟩
    · rw [hremote]
      exact hafter.localID.symm
    · rw [show after.options = before.options from hafter.options]
      exact hagreed

/-- A step of the responder. -/
theorem Agrees.responder_step (h : x.Agrees localID) {c' : Connection} (hc : x.responder = some c)
    (hstep : Stands (Answering localID c) nothing answers c') :
    Agrees localID { x with responder := some c' } where
  initiator := by
    obtain ⟨hasking, hspeech⟩ := h.initiator
    rw [hc] at hasking
    exact ⟨hasking.mono hstep.1, hspeech⟩
  responder := by
    rintro _ ⟨⟩
    obtain ⟨hanswering, hspeech⟩ := hstep
    refine ⟨?_, ⟨rfl, rfl, hanswering.phase, id, id, hanswering.remoteID⟩, hspeech⟩
    rw [show c'.localID = c.localID from hanswering.localID]
    exact (h.responder c hc).1

/-- An input is a handshake packet, or has none to hear. -/
theorem receive_or_hears (input : Connection.Input) :
    (∃ packet path reactions, input = .receive packet path reactions ∧
        isHandshake packet.header.type = true) ∨
      input.Hears fun type => isHandshake type = false := by
  cases input with
  | receive packet path reactions =>
      cases htype : isHandshake packet.header.type with
      | true => exact .inl ⟨packet, path, reactions, rfl, htype⟩
      | false => exact .inr htype
  | user | processSchedule | retryTimeout | probeTimeout | close => exact .inr trivial

/-- **One step keeps the agreement.** -/
theorem Agrees.step (h : x.Agrees localID) {action : Action} (hhonest : x.Honest action) :
    (x.step z action).Agrees localID := by
  cases action with
  | initiator now input =>
      obtain ⟨hwithin, hfrom⟩ := hhonest
      refine ⟨?_, h.responder⟩
      rcases receive_or_hears input with ⟨packet, path, reactions, rfl, htype⟩ | hhears
      · exact h.initiator_receive now hwithin hfrom htype
      · exact (Connection.keepsFront_says (z := z) (fun f _ => fits_asks f)).step hwithin hhears
          h.initiator
  | responder now input =>
      obtain ⟨hwithin, hfrom⟩ := hhonest
      cases hc : x.responder with
      | none =>
          have hsame : x.step z (.responder now input) = x := by
            obtain ⟨initiator, responder⟩ := x
            cases hc
            rfl
          rw [hsame]
          exact h
      | some c =>
          have hsome : x.step z (.responder now input) =
              { x with responder := some (c.step z (now, input)) } := by
            simp [Exchange.step, hc]
          rw [hsome]
          refine h.responder_step hc ?_
          rcases receive_or_hears input with ⟨packet, path, reactions, rfl, htype⟩ | hhears
          · exact h.responder_receive hc now hwithin hfrom htype
          · exact (Connection.keepsFront_says (z := z) (fun f _ => fits_answers f)).step hwithin
              hhears (h.responder c hc).2
  | generate now s packet path o =>
      simp only [Exchange.step]
      split
      next hnone hgenerated =>
        refine ⟨?_, ?_⟩
        · obtain ⟨hasking, hspeech⟩ := h.initiator
          rw [hnone] at hasking
          -- As there was no responder, the initiator has heard nothing.
          have hwaiting : x.initiator.standing.handshake.waitingFor = TypeID.h1 := by
            by_contra hne
            obtain ⟨_, ⟨⟩, _⟩ := hasking.heard hne
          refine ⟨⟨hasking.localID, hasking.phase, fun hne => absurd hwaiting hne,
            fun hcomplete => ?_⟩, hspeech⟩
          exact absurd (hwaiting.symm.trans hcomplete) (by decide)
        · rintro _ ⟨⟩
          exact stands_generated hgenerated
      · exact h

/-- The first thing an initiator says. -/
def opening (_ : Standing) : Speech := fun type data => type = TypeID.h0 ∧ data = []

theorem fits_opening (f : Standing) : Speech.Fits (opening f) (opening f) where
  sub _ _ h := h
  h3 _ h := absurd h.1 (by decide)
  small _ _ h := by simp [h.2]

/-- An initiator has said H0, and waits for H1. -/
theorem agrees_connect (z : Zlib) (now : Timepoint) (options : Option ConnectionOptions)
    (receiveHandler closeHandler : Bool) (id : LongConnectionID) (localID : ShortConnectionID)
    (remoteAddress : Address) (socketOptions : ConnectionOptions) :
    Agrees localID ⟨(Connection.fresh id localID remoteAddress socketOptions).connect z now
      options receiveHandler closeHandler, none⟩ := by
  refine ⟨?_, fun c hc => nomatch hc⟩
  have hkeeps : Connection.Keeps z True (Stands (fun f => f.localID = localID) opening opening) :=
    Connection.keeps_says (fun f _ => fits_opening f) fun _ _ hc => ⟨hc.1, hc.2.of_eq rfl rfl⟩
  have hstart : Stands (fun f => f.localID = localID) opening opening
      (Connection.start now ((Connection.fresh id localID remoteAddress socketOptions).openUser
        options receiveHandler closeHandler)) :=
    hkeeps.probe _ (hkeeps.openUser (.inr trivial) _ _ ⟨rfl, says_fresh _ _ _ _ _ _⟩)
  have hasked : Stands (fun f => f.localID = localID) opening opening
      ((Connection.start now ((Connection.fresh id localID remoteAddress socketOptions).openUser
        options receiveHandler closeHandler)).call z now
          (.sendReliably ⟨⟨{ header := { type := TypeID.h0 } }, none⟩, none⟩ false)) := by
    exact hstart.call (fun f _ => fits_opening f) now
      (MultiPacketPath.forall_front fun _ => ⟨rfl, rfl⟩)
  refine ⟨⟨hasked.1, .inl rfl, fun hne => absurd rfl hne, fun hcomplete => ?_⟩, ?_⟩
  · exact absurd hcomplete (by decide : TypeID.h1 ≠ TypeID.handshakeComplete)
  · exact (hasked.2.mono (fun _ _ => .inl) fun _ _ => .inl).of_eq rfl rfl

/-! ## A complete handshake is final -/

theorem keepsAll_complete (z : Zlib) (remoteID : ShortConnectionID) :
    Connection.KeepsAll z fun c =>
      c.handshake.waitingFor = TypeID.handshakeComplete ∧ c.remoteID = remoteID := by
  have hcall : ∀ (c : Connection) (now : Timepoint) (call : SenderCall),
      (c.call z now call).handshake = c.handshake ∧ (c.call z now call).remoteID = c.remoteID := by
    intro c now call
    have h := Connection.standing_call (z := z) now c call
    exact ⟨congrArg Standing.handshake h, congrArg Standing.remoteID h⟩
  exact { Connection.keeps_of_frame (z := z) fun hc _ _ hremoteID _ hhandshake => by
      rwa [hhandshake, hremoteID] with
    negotiate := fun _ _ hc => hc
    send := fun now packet _ hc => by rwa [Connection.send_eq]
    sendReliably := fun now _ _ _ hc => by rwa [(hcall _ now _).1, (hcall _ now _).2]
    waitingFor := fun _ _ _ hne hc => absurd hc.1 hne
    complete := fun _ _ _ _ _ _ hne hc => absurd hc.1 hne
    remoteAddress := fun _ hc => hc }

/-- A step of a complete connection. -/
theorem complete_step (c : Connection) (input : Timepoint × Connection.Input)
    (h : c.handshake.waitingFor = TypeID.handshakeComplete) :
    (c.step z input).handshake.waitingFor = TypeID.handshakeComplete ∧
      (c.step z input).remoteID = c.remoteID :=
  (keepsAll_complete z c.remoteID).step (Connection.Input.within_true _)
    (Connection.Input.hears_true _) ⟨h, rfl⟩

/-- **Handshake agreement.**  After any run in which the handshake packets received come from the
other side and the users leave the options alone: if the initiator is complete, so is the
responder, and the options are the responder's; a side that is complete knows the other side's
identifier, which is not zero; and no step changes that again. -/
theorem agreement (z : Zlib) (now : Timepoint) (options : Option ConnectionOptions)
    (receiveHandler closeHandler : Bool) (id : LongConnectionID) (localID : ShortConnectionID)
    (hlocalID : localID ≠ 0) (remoteAddress : Address) (socketOptions : ConnectionOptions)
    (actions : List Action)
    (halong : Along (step z) Honest
      ⟨(Connection.fresh id localID remoteAddress socketOptions).connect z now options
        receiveHandler closeHandler, none⟩ actions) :
    let x := run (step z)
      ⟨(Connection.fresh id localID remoteAddress socketOptions).connect z now options
        receiveHandler closeHandler, none⟩ actions
    (x.initiator.handshake.waitingFor = TypeID.handshakeComplete →
      ∃ c, x.responder = some c ∧ c.handshake.waitingFor = TypeID.handshakeComplete ∧
        x.initiator.remoteID = c.localID ∧ c.localID ≠ 0 ∧
        x.initiator.options.maximumRetryAttempts = c.options.maximumRetryAttempts ∧
        x.initiator.options.probeDelayMS.toInt = max c.options.probeDelayMS.toInt 0) ∧
    (∀ c, x.responder = some c → c.handshake.waitingFor = TypeID.handshakeComplete →
      c.remoteID = x.initiator.localID ∧ x.initiator.localID ≠ 0) ∧
    ∀ action,
      (x.initiator.handshake.waitingFor = TypeID.handshakeComplete →
        (x.step z action).initiator.handshake.waitingFor = TypeID.handshakeComplete ∧
          (x.step z action).initiator.remoteID = x.initiator.remoteID) ∧
      ∀ c, x.responder = some c → c.handshake.waitingFor = TypeID.handshakeComplete →
        ∃ c', (x.step z action).responder = some c' ∧
          c'.handshake.waitingFor = TypeID.handshakeComplete ∧ c'.remoteID = c.remoteID := by
  intro x
  have h : x.Agrees localID := run_invariant (Agrees localID)
    (fun _ _ hx hhonest => hx.step hhonest)
    (agrees_connect z now options receiveHandler closeHandler id localID remoteAddress
      socketOptions) halong
  have hmine : x.initiator.localID = localID := h.initiator.1.localID
  refine ⟨fun hcomplete => ?_, fun c hc hcomplete => ?_, fun action => ⟨fun hcomplete => ?_,
    fun c hc hcomplete => ?_⟩⟩
  · obtain ⟨c, hc, hcomplete', hremote, hagreed⟩ := h.initiator.1.complete hcomplete
    exact ⟨c, hc, hcomplete', hremote, (h.responder c hc).1, hagreed⟩
  · rw [hmine]
    exact ⟨(h.responder c hc).2.1.remoteID hcomplete, hlocalID⟩
  · cases action with
    | initiator now input => exact complete_step x.initiator (now, input) hcomplete
    | responder now input => exact ⟨hcomplete, rfl⟩
    | generate now s packet path o =>
        simp only [step]
        split <;> exact ⟨hcomplete, rfl⟩
  · cases action with
    | initiator now input => exact ⟨c, hc, hcomplete, rfl⟩
    | responder now input =>
        obtain ⟨hcomplete', hremote⟩ := complete_step (z := z) c (now, input) hcomplete
        exact ⟨c.step z (now, input), by simp [step, hc], hcomplete', hremote⟩
    | generate now s packet path o =>
        simp only [step, hc]
        exact ⟨c, rfl, hcomplete, rfl⟩

/-- A packet of the handshake of connection 9, with its identifier taken off. -/
def heard (type : TypeID) (id : PacketID) (data : Bytes) : Packet :=
  { header := { type := type, id := id }, data := data, rest := leBytes 16 9 }

/-- The same packet, on its way to the address. -/
def sent (type : TypeID) (id : PacketID) (data : Bytes) (address : Address) : Outgoing :=
  ⟨{ header := { type := type, id := id }, data := data ++ leBytes 16 9 }, address⟩

/-- A handshake between an initiator with the identifier 1, at 10, and a responder with the
identifier 7, at 20, with no packet lost. -/
def greeting : List Action :=
  [.generate 0
      { options := Connection.immediate, userDataDisposed := false, acceptHandler := true }
      (sent TypeID.h0 0 [] 20).packet 10 { random := 7 },
    .responder 0 (.receive (heard TypeID.h0 0 []) 10 {}),
    .initiator 0 (.receive (heard TypeID.h1 0 []) 20 {}),
    .responder 0 (.receive (heard TypeID.h2 1 [1, 0]) 10 {}),
    .initiator 0 (.receive (heard TypeID.h3 1 [7, 0, 0, 0, 0, 0, 5, 0]) 20 {})]

theorem agreement_greeting :
    let x := run (step Connection.storing)
      ⟨(Connection.fresh 9 1 20 Connection.immediate).connect Connection.storing 0 none true true,
        none⟩ greeting
    x.initiator.handshake.waitingFor = TypeID.handshakeComplete ∧ x.initiator.remoteID = 7 ∧
      ∃ c, x.responder = some c ∧ c.handshake.waitingFor = TypeID.handshakeComplete ∧
        x.initiator.remoteID = c.localID := by
  have hnone : Reactions.Within False {} := ⟨by simp, trivial, by simp⟩
  have h := (agreement Connection.storing 0 none true true 9 1 (by decide) 20
    Connection.immediate greeting
    ⟨⟨sent TypeID.h0 0 [] 20, by decide +kernel, [], rfl⟩,
      ⟨hnone, fun _ => ⟨_, rfl, sent TypeID.h0 0 [] 20, by decide +kernel, [], by decide +kernel⟩⟩,
      ⟨hnone, fun _ => ⟨_, rfl, sent TypeID.h1 0 [] 10, by decide +kernel, [], by decide +kernel⟩⟩,
      ⟨hnone, fun _ => ⟨_, rfl, sent TypeID.h2 1 [1, 0] 20, by decide +kernel, [],
        by decide +kernel⟩⟩,
      ⟨hnone, fun _ => ⟨_, rfl, sent TypeID.h3 1 [7, 0, 0, 0, 0, 0, 5, 0] 10, by decide +kernel,
        [], by decide +kernel⟩⟩,
      trivial⟩).1
  intro x
  have hcomplete : x.initiator.handshake.waitingFor = TypeID.handshakeComplete := by
    decide +kernel
  obtain ⟨c, hc, hcomplete', hremote, -⟩ := h hcomplete
  exact ⟨hcomplete, by decide +kernel, c, hc, hcomplete', hremote⟩

end Exchange
end MrUDP
