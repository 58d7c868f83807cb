import MrUDP.Connection.Unverified
import MrUDP.Endpoint.Migration
import MrUDP.Socket.Speech

/-!
# A peer that moves

A peer whose packets come from a new address is challenged there, answers with what it was sent, and
is taken to be at the new address when the answer comes from it.  The connection keeps no record of
its challenges, so nothing that happens in between can prevent this: neither what the peer was
doing, nor what the connection has done since, as long as the answer comes within a minute.

## Main definitions

* `Connection.receive_elsewhere`: what a packet from another address makes a connection do.
* `Connection.receive_challenge`: how a challenge is answered.
* `Connection.migrates`: the whole exchange.
-/

namespace MrUDP
open Wire

namespace Connection

variable {z : Zlib} {c : Connection} {packet : Packet}

/-! ## A challenge -/

/-- What a challenge holds: the basis, and no signature. -/
theorem data_challenge (now : Timepoint) (address : Option Address) :
    (NetworkPath.challenge now address).header.type = TypeID.authenticateChallenge ∧
      (NetworkPath.challenge now address).data =
        NetworkPath.basis now address ++ leBytes 2 36 ++ leBytes 2 0 := by
  have hlength : (NetworkPath.basis now address).length = 36 := by simp [NetworkPath.basis]
  obtain ⟨rest, hbasis⟩ := @pushSizedData_of_fits
    { header := { type := TypeID.authenticateChallenge } } (NetworkPath.basis now address)
    (by rw [hlength]; decide)
  rw [hlength] at hbasis
  have hfits : (NetworkPath.basis now address ++ leBytes 2 36).length + ([] : Bytes).length + 2 ≤
      maxPacketSize := by
    rw [List.length_append, hlength, length_leBytes]
    decide
  obtain ⟨rest', hsignature⟩ := @pushSizedData_of_fits
    { header := { type := TypeID.authenticateChallenge }
      data := NetworkPath.basis now address ++ leBytes 2 36
      rest := rest } [] hfits
  have hchallenge : NetworkPath.challenge now address =
      { header := { type := TypeID.authenticateChallenge }
        data := NetworkPath.basis now address ++ leBytes 2 36 ++ leBytes 2 0
        rest := rest' } := by
    rw [NetworkPath.challenge]
    dsimp only
    rw [hbasis]
    simpa using congrArg Prod.snd hsignature
  rw [hchallenge]
  exact ⟨rfl, rfl⟩

/-- **A packet from another address** makes the connection send a challenge there. -/
theorem receive_elsewhere (hc : Reachable z c) (now : Timepoint) (reactions : Reactions)
    {path : Address} (hpath : path ≠ c.remoteAddress)
    (hchallenge : packet.header.type ≠ TypeID.authenticateChallenge)
    (hresponse : packet.header.type ≠ TypeID.authenticateResponse)
    (hkeep : (HandshakeOptions.onReceive c.options packet).1 = .keep) :
    ∃ id first, (c.receive z now reactions packet path).transmitted = c.transmitted ++
      [first, c.wire { NetworkPath.challenge now (some path) with
        header := { (NetworkPath.challenge now (some path)).header with id := id } }
        (some path)] := by
  have hheader := header_onReceive c.options packet
  have hreceive : ∃ options, c.receive z now reactions packet path =
      ({ c with options := options } : Connection).call z now
        (.sendReliably (challenges now path) true) := by
    rw [receive]
    split
    next hoptions =>
      rw [hoptions] at hkeep
      cases hkeep
    next packet' options hoptions =>
      rw [hoptions] at hheader
      refine ⟨options, ?_⟩
      rw [networkPathOnReceive, hheader, if_neg hchallenge, if_pos hpath, if_neg hresponse]
      rfl
  obtain ⟨options, hreceive⟩ := hreceive
  obtain ⟨probe, hcall⟩ := call_eq z now { c with options := options }
    (.sendReliably (challenges now path) true)
  have hne : (NetworkPath.challenge now (some path)).header.type ≠ TypeID.h3 := by
    rw [(data_challenge now (some path)).1]
    decide
  rw [hreceive, hcall, challenges]
  generalize NetworkPath.challenge now (some path) = challenge at hne
  generalize NetworkPath.challenge now none = established
  have hsent : outgoing { c with options := options }
      ⟨{ challenge with
        header := { challenge.header with id := c.sender.packetIDGenerator.id } }, some path, false⟩ =
      c.wire { challenge with
        header := { challenge.header with id := c.sender.packetIDGenerator.id } } (some path) := by
    rw [outgoing, if_neg Bool.false_ne_true]
    dsimp only
    rw [onSend_of_ne_h3]
    · rfl
    · exact hne
  refine ⟨c.sender.packetIDGenerator.id, outgoing { c with options := options }
    ⟨{ established with
      header := { established.header with id := c.sender.packetIDGenerator.id } }, none, false⟩, ?_⟩
  rw [← hsent]
  simp [Sender.call, Sender.sendReliablyMultipath, outbox_of_reachable hc,
    MultiPacketPath.setID, MultiPacketPath.toList]

/-! ## The answer -/

/-- **A challenge is answered** with what it holds, whatever the state of the connection. -/
theorem receive_challenge (z : Zlib) (now : Timepoint) (reactions : Reactions) (c : Connection)
    (path : Address) (htype : packet.header.type = TypeID.authenticateChallenge) :
    (c.receive z now reactions packet path).transmitted = c.transmitted ++
      [c.wire { header := { type := TypeID.authenticateResponse, id := packet.header.id }
                data := packet.data } none] := by
  have hne : ∀ type, type ≠ TypeID.authenticateChallenge → ¬ packet.header.type = type :=
    fun type h heq => h (heq.symm.trans htype)
  have hhandshake : isHandshake packet.header.type = false := by rw [htype]; rfl
  have hack : isAck packet.header.type = false := by rw [htype]; rfl
  have hquiet : ∀ d : Connection, receiverOnReceive z now reactions.received d packet = d := by
    intro d
    have hrequires : requiresAck packet.header.type = false := by rw [htype]; rfl
    have hrun : d.receiver.onReceive z packet = ([], d.receiver) := by
      rw [Receiver.onReceive, hrequires, if_neg (hne _ (by decide)), if_neg (hne _ (by decide))]
      split <;> rfl
    rw [receiverOnReceive, hrun]
    dsimp only
    rw [carryOutAll]
  rw [receive, HandshakeOptions.onReceive, if_neg (hne _ (by decide))]
  dsimp only
  rw [networkPathOnReceive, if_pos htype]
  dsimp only
  rw [accept, handshakeOnReceive, hhandshake, if_neg Bool.false_ne_true, senderOnReceive, hack,
    if_neg Bool.false_ne_true, if_neg (hne _ (by decide)), hquiet, send_eq,
    onSend_of_ne_h3 _ (by show TypeID.authenticateResponse ≠ TypeID.h3; decide)]

/-- The answer to a challenge is accepted from the address that was challenged, and from no other,
for a minute. -/
theorem verify_answer {sent now : Timepoint} {address : Address} (hzero : address ≠ 0)
    (hdata : packet.data = NetworkPath.basis sent (some address) ++ leBytes 2 36 ++ leBytes 2 0)
    (htime : (NetworkPath.time now - NetworkPath.time sent).toNat ≤ 60) (remoteAddress : Address)
    (path : Address) :
    (NetworkPath.verifyChallengeResponse remoteAddress now packet path).1 =
      decide (address = path) := by
  have hlength : (NetworkPath.basis sent (some address)).length = 36 := by
    simp [NetworkPath.basis]
  obtain ⟨rest, hsignature⟩ := popSizedData_append packet
    (NetworkPath.basis sent (some address) ++ leBytes 2 36) [] (by simpa using hdata) (by simp)
  obtain ⟨rest', hbasis⟩ := popSizedData_append
    { packet with data := NetworkPath.basis sent (some address) ++ leBytes 2 36, rest := rest } []
    (NetworkPath.basis sent (some address)) (by rw [hlength]; rfl) (by rw [hlength]; norm_num)
  rw [NetworkPath.verifyChallengeResponse, hsignature]
  dsimp only
  rw [hbasis]
  dsimp only
  rw [if_neg (not_not.mpr hlength), Endpoint.time_basis, Endpoint.address_basis,
    if_neg (not_lt.mpr htime)]
  exact congrArg Prod.fst (if_neg hzero)

/-- The sender and the receiver leave the address alone. -/
theorem keeps_remoteAddress (z : Zlib) (address : Address) :
    Keeps z True fun c => c.remoteAddress = address :=
  keeps_of_frame fun hc _ _ _ haddress _ => haddress.trans hc

/-- A response that is verified, or is not. -/
theorem receive_answer (z : Zlib) (now : Timepoint) (reactions : Reactions) (c : Connection)
    {path : Address} (hpath : path ≠ c.remoteAddress)
    (htype : packet.header.type = TypeID.authenticateResponse) :
    if (NetworkPath.verifyChallengeResponse c.remoteAddress now packet path).1 = true then
      (c.receive z now reactions packet path).remoteAddress = path
    else c.receive z now reactions packet path = c := by
  have hheader := header_verifyChallengeResponse c.remoteAddress now packet path
  have hreceive : c.receive z now reactions packet path =
      if (NetworkPath.verifyChallengeResponse c.remoteAddress now packet path).1 = true then
        accept z now reactions { c with remoteAddress := path }
          (NetworkPath.verifyChallengeResponse c.remoteAddress now packet path).2
      else c := by
    rw [receive, HandshakeOptions.onReceive, if_neg (by rw [htype]; decide)]
    dsimp only
    rw [networkPathOnReceive, if_neg (by rw [htype]; decide), if_pos hpath, if_pos htype]
    rcases NetworkPath.verifyChallengeResponse c.remoteAddress now packet path with ⟨_ | _, _⟩ <;>
      rfl
  rw [hreceive]
  rcases hverify : NetworkPath.verifyChallengeResponse c.remoteAddress now packet path with
    ⟨_ | _, packet'⟩
  · exact rfl
  · rw [hverify] at hheader
    have hhandshake : isHandshake packet'.header.type = false := by
      rw [show packet'.header = packet.header from hheader, htype]
      rfl
    have hkeeps := keeps_remoteAddress z path
    show (accept z now reactions _ packet').remoteAddress = path
    rw [accept, handshakeOnReceive, hhandshake, if_neg Bool.false_ne_true]
    refine hkeeps.receiverOnReceive now (fun script _ => UserCall.withinAll_true script) packet' ?_
    exact hkeeps.senderOnReceive now (hkeeps.userCalls now _ (UserCall.withinAll_true _)) packet' rfl

/-! ## The whole exchange -/

/-- **A peer that moves is followed.**  A packet reaches a connection from an address that is not
its peer's.  The connection sends a challenge there; whoever receives it, in whatever state and
from wherever, answers it with one packet; and if within a minute that packet reaches the
connection, in whatever state it then is, from that address, the address is its peer's from then
on.  From any third address the same packet changes nothing. -/
theorem migrates (hc : Reachable z c) (sent : Timepoint) (reactions : Reactions)
    {path : Address} (hpath : path ≠ c.remoteAddress) (hzero : path ≠ 0)
    (hchallenge : packet.header.type ≠ TypeID.authenticateChallenge)
    (hresponse : packet.header.type ≠ TypeID.authenticateResponse)
    (hkeep : (HandshakeOptions.onReceive c.options packet).1 = .keep) :
    ∃ first challenge, (c.receive z sent reactions packet path).transmitted =
        c.transmitted ++ [first, challenge] ∧ challenge.address = path ∧
      ∀ (peer : Connection) (at' : Timepoint) (reactions' : Reactions) (from' : Address)
        (received : Packet), Arrives challenge received →
        ∃ answer, (peer.receive z at' reactions' received from').transmitted =
            peer.transmitted ++ [answer] ∧ answer.address = peer.remoteAddress ∧
          ∀ (later : Connection) (now : Timepoint) (reactions'' : Reactions) (returned : Packet),
            Arrives answer returned → later.remoteAddress ≠ path →
            (NetworkPath.time now - NetworkPath.time sent).toNat ≤ 60 →
            (later.receive z now reactions'' returned path).remoteAddress = path ∧
              ∀ elsewhere, elsewhere ≠ path → elsewhere ≠ later.remoteAddress →
                later.receive z now reactions'' returned elsewhere = later := by
  obtain ⟨id, first, htransmitted⟩ :=
    receive_elsewhere hc sent reactions hpath hchallenge hresponse hkeep
  obtain ⟨htype, hdata⟩ := data_challenge sent (some path)
  generalize NetworkPath.challenge sent (some path) = challenge at htransmitted htype hdata
  have hsmall : challenge.data.length + 16 ≤ maxPacketSize := by
    rw [hdata]
    simp [NetworkPath.basis, maxPacketSize]
  refine ⟨first, _, htransmitted, rfl, ?_⟩
  intro peer at' reactions' from' received hreceived
  obtain ⟨hheader, hsame⟩ := arrives_wire hreceived
  have hreceivedType : received.header.type = TypeID.authenticateChallenge := by
    rw [hheader]
    exact htype
  have hreceivedData : received.data = challenge.data := hsame hsmall
  refine ⟨_, receive_challenge z at' reactions' peer from' hreceivedType, rfl, ?_⟩
  intro later now reactions'' returned hreturned hlater htime
  obtain ⟨hheader', hsame'⟩ := arrives_wire hreturned
  have hreturnedType : returned.header.type = TypeID.authenticateResponse := by rw [hheader']
  have hreturnedData : returned.data =
      NetworkPath.basis sent (some path) ++ leBytes 2 36 ++ leBytes 2 0 := by
    rw [hsame' (by rw [hreceivedData]; exact hsmall), hreceivedData, hdata]
  have hverify := verify_answer hzero hreturnedData htime later.remoteAddress
  refine ⟨?_, fun elsewhere hne hother => ?_⟩
  · have hanswer := receive_answer z now reactions'' later (Ne.symm hlater) hreturnedType
    rwa [hverify, if_pos (decide_eq_true rfl)] at hanswer
  · have hanswer := receive_answer z now reactions'' later hother hreturnedType
    rwa [hverify, decide_eq_false (Ne.symm hne), if_neg Bool.false_ne_true] at hanswer

/-- A probe reaches a connection from the address 9.  The challenge that is sent there is answered,
and with the answer the connection moves. -/
theorem migrates_strayProbe :
    let peer := connecting immediate
    let moving := (connecting immediate).receive storing 5 {}
      { header := { type := TypeID.probe, id := 3 } } 9
    ∃ first challenge received answer returned,
      moving.transmitted = (connecting immediate).transmitted ++ [first, challenge] ∧
        challenge.address = 9 ∧ Arrives challenge received ∧
        (peer.receive storing 6 {} received 1).transmitted = peer.transmitted ++ [answer] ∧
        Arrives answer returned ∧ moving.remoteAddress ≠ 9 ∧
        (moving.receive storing 7 {} returned 9).remoteAddress = 9 := by
  obtain ⟨first, challenge, htransmitted, haddress, hpeer⟩ :=
    @migrates storing (connecting immediate) { header := { type := TypeID.probe, id := 3 } }
      (reachable_run immediate []) 5 {} 9 (by decide +kernel) (by decide) (by decide) (by decide)
      (by decide +kernel)
  obtain ⟨answer, hanswer, -, hlater⟩ := hpeer (connecting immediate) 6 {} 1 _ ⟨[], rfl⟩
  have hbefore : ((connecting immediate).receive storing 5 {}
      { header := { type := TypeID.probe, id := 3 } } 9).remoteAddress ≠ 9 := by decide +kernel
  exact ⟨first, challenge, _, answer, _, htransmitted, haddress, ⟨[], rfl⟩, hanswer, ⟨[], rfl⟩,
    hbefore, (hlater _ 7 {} _ ⟨[], rfl⟩ hbefore (by decide +kernel)).1⟩

end Connection
end MrUDP
