import MrUDP.Connection.Closing
import MrUDP.Connection.Outstanding
import MrUDP.Connection.Transmitted

/-!
# Packets from an unverified address

A packet that does not come from the peer's address is discarded by the network path, after
a challenge has been sent.  The options of an H3 packet are taken over before that, by
`Handshake_Options::onReceive`, wherever the packet comes from.

The challenge waits in the window with priority, which makes the retrier compute anew when
the first packet with priority is due.  If that packet was there before, its entry changes.

## Main definitions

* `Connection.Discarded`: the network path discards a packet from elsewhere.
* `Connection.Unaffected`: at most a challenge has been sent.
* `Connection.unaffected_iff`: when a discarded packet has no other effect.
-/

namespace MrUDP
open Wire

namespace Retrier

/-- When the retrier would send an entry again, given the round trip time. -/
def dueAt (rtt : RTT) (retry : Retry) : Timepoint :=
  retry.sentAt + milliseconds (toDuration (calculateRetryDuration rtt.duration))

/-- Once a packet with priority waits under `id`, the entry to be retried first is due when
the round trip time says, if it was there before. -/
def OnTime (r : Retrier) (rtt : RTT) (id : PacketID) : Prop :=
  ∀ k retry, (r.priority.insert id).toList.head? = some k → r.window[k]? = some retry →
    retry.retryAt = dueAt rtt retry

/-- **A packet with priority leaves the entries alone that are on time.** -/
theorem window_insert_iff {r : Retrier} (hopen : r.status = .open) (rtt : RTT)
    (paths : MultiPacketPath) (now : Timepoint) (n : ℕ) :
    (∀ (k : PacketID) (retry : Retry), r.window[k]? = some retry →
        (r.insert rtt paths now true n).window[k]? = some retry) ↔
      r.OnTime rtt paths.front.packet.header.id := by
  set id := paths.front.packet.header.id with hid
  set entry : Retry := { paths := paths, sentAt := now, priority := true, serial := n }
  -- The entries that were there are still there when the packet has entered the window.
  have hkept : ∀ (k : PacketID) (retry : Retry), r.window[k]? = some retry →
      (r.window.insertIfNew id entry)[k]? = some retry := by
    intro k retry hk
    rw [Std.ExtTreeMap.getElem?_insertIfNew, if_neg]
    · exact hk
    · rintro ⟨hk', hnew⟩
      rw [Std.LawfulEqCmp.eq_of_compare hk', Std.ExtTreeMap.mem_iff_isSome_getElem?, hk] at hnew
      exact hnew rfl
  have hinsert : r.insert rtt paths now true n = recalculateRetryTimeout
      { r with window := r.window.insertIfNew id entry, priority := r.priority.insert id } rtt := by
    rw [insert, if_neg (by rw [hopen]; decide)]
    simp only [Bool.or_true, reduceIte]
    rfl
  have hne : (r.window.insertIfNew id entry).isEmpty = false := by
    rw [← Bool.not_eq_true, Std.ExtTreeMap.isEmpty_iff]
    exact Std.ExtTreeMap.insertIfNew_ne_empty
  rw [hinsert, recalculateRetryTimeout, getNextRetry]
  dsimp only
  rw [hne, if_neg (by decide), OnTime]
  cases hhead : (r.priority.insert id).toList.head? with
  | none =>
      have hmem : id ∈ (r.priority.insert id).toList := by
        rw [Std.ExtTreeSet.mem_toList]
        exact Std.ExtTreeSet.mem_insert_self
      rw [List.head?_eq_none_iff.mp hhead] at hmem
      cases hmem
  | some first =>
      dsimp only
      cases hfirst : (r.window.insertIfNew id entry)[first]? with
      | none =>
          refine ⟨fun _ k retry hk hretry => ?_, fun _ => by simpa using hkept⟩
          cases hk
          rw [hkept first retry hretry] at hfirst
          cases hfirst
      | some old =>
          simp only [Option.map_some, Std.ExtTreeMap.getElem?_insert,
            Std.LawfulEqCmp.compare_eq_iff_eq]
          constructor
          · intro hall k retry hk hretry
            cases hk
            have hold : old = retry := by
              rw [hkept first retry hretry] at hfirst
              exact (Option.some_injective _ hfirst).symm
            have hsame := hall first retry hretry
            rw [if_pos rfl, hold] at hsame
            exact (congrArg Retry.retryAt (Option.some_injective _ hsame)).symm
          · intro htime k retry hretry
            split
            next hk =>
              subst hk
              have hold : old = retry := by
                rw [hkept first retry hretry] at hfirst
                exact (Option.some_injective _ hfirst).symm
              have hdue := htime first retry rfl hretry
              rw [dueAt] at hdue
              rw [hold, ← hdue]
            · exact hkept k retry hretry

end Retrier

namespace Connection

variable {z : Zlib} {c : Connection} {now : Timepoint} {packet : Packet} {path : Address}

/-- A packet from elsewhere than the peer's address gets to the network path, and is
discarded there. -/
def Discarded (z : Zlib) (now : Timepoint) (c : Connection) (packet : Packet) (path : Address) :
    Prop :=
  path ≠ c.remoteAddress ∧ (HandshakeOptions.onReceive c.options packet).1 = .keep ∧
    (networkPathOnReceive z now
      { c with options := (HandshakeOptions.onReceive c.options packet).2.2 }
      (HandshakeOptions.onReceive c.options packet).2.1 path).1 = .discard

instance (z : Zlib) (now : Timepoint) (c : Connection) (packet : Packet) (path : Address) :
    Decidable (Discarded z now c packet path) := inferInstanceAs (Decidable (_ ∧ _))

/-- At most a challenge has been sent, and has come to wait in the window. -/
structure Unaffected (c c' : Connection) : Prop where
  options : c'.options = c.options
  handshake : c'.handshake = c.handshake
  remoteID : c'.remoteID = c.remoteID
  remoteAddress : c'.remoteAddress = c.remoteAddress
  receiver : c'.receiver = c.receiver
  rtt : c'.sender.rtt = c.sender.rtt
  delivered : c'.delivered = c.delivered
  entries : ∀ (k : PacketID) (retry : Retry), c.sender.retrier.window[k]? = some retry →
    c'.sender.retrier.window[k]? = some retry
  challenges : ∃ os probe generator retrier,
    c' = { c with
      transmitted := c.transmitted ++ os
      probe := probe
      sender := { c.sender with packetIDGenerator := generator, retrier := retrier } } ∧
    (∀ o ∈ os, o.packet.header.type = TypeID.authenticateChallenge) ∧
    ∀ k paths n, retrier.outstanding k = some (paths, n) →
      c.sender.retrier.outstanding k = some (paths, n) ∨
        ∀ path ∈ paths.toList, path.packet.header.type = TypeID.authenticateChallenge

/-- The two packets of a challenge to an address. -/
def challenges (now : Timepoint) (address : Address) : MultiPacketPath :=
  ⟨⟨NetworkPath.challenge now none, none⟩,
    some ⟨NetworkPath.challenge now (some address), some address⟩⟩

/-- The packet is no H3, or the options in it are those the connection has. -/
def Agrees (c : Connection) (packet : Packet) : Prop :=
  packet.header.type = TypeID.h3 → ∀ data rest, popData packet 6 = some (data, rest) →
    BitVec.ofNat 32 (leNat (data.take 4)) = c.options.probeDelayMS ∧
      BitVec.ofNat 16 (leNat (data.drop 4)) = c.options.maximumRetryAttempts

theorem onReceive_options (hagrees : Agrees c packet) :
    (HandshakeOptions.onReceive c.options packet).2.2 = c.options := by
  rw [HandshakeOptions.onReceive]
  split
  next htype =>
    split
    · rfl
    next data rest hpop =>
      obtain ⟨hdelay, hattempts⟩ := hagrees htype data rest hpop
      rw [hdelay, hattempts]
  · rfl

theorem agrees_of_onReceive
    (h : (HandshakeOptions.onReceive c.options packet).2.2 = c.options) : Agrees c packet := by
  intro htype data rest hpop
  rw [HandshakeOptions.onReceive, if_pos htype, hpop] at h
  exact ⟨congrArg ConnectionOptions.probeDelayMS h,
    congrArg ConnectionOptions.maximumRetryAttempts h⟩

/-- What the network path does when it discards a packet: it sends a challenge, unless the
packet is a response. -/
theorem networkPathOnReceive_of_discard
    (h : (networkPathOnReceive z now c packet path).1 = .discard) :
    (networkPathOnReceive z now c packet path).2.2 =
      if packet.header.type = TypeID.authenticateResponse then c
      else c.call z now (.sendReliably (challenges now path) true) := by
  rw [networkPathOnReceive] at h ⊢
  split at h
  · cases h
  next hchallenge =>
    rw [if_neg hchallenge]
    split at h
    next hpath =>
      rw [if_pos hpath]
      split at h
      next hresponse =>
        rw [if_pos hresponse, if_pos hresponse]
        split at h
        · cases h
        · rfl
      next hresponse =>
        rw [if_neg hresponse, if_neg hresponse]
        rfl
    · cases h

/-- What becomes of a connection that discards a packet: the options have been taken over,
and a challenge has been sent unless the packet is a response. -/
theorem receive_of_discarded (hdiscarded : Discarded z now c packet path) (reactions : Reactions) :
    c.receive z now reactions packet path =
      let c' := { c with options := (HandshakeOptions.onReceive c.options packet).2.2 }
      if packet.header.type = TypeID.authenticateResponse then c'
      else c'.call z now (.sendReliably (challenges now path) true) := by
  obtain ⟨_, hkeep, hdiscard⟩ := hdiscarded
  have hheader := header_onReceive c.options packet
  rw [receive]
  split
  next hoptions =>
    rw [hoptions] at hkeep
    cases hkeep
  next packet' options hoptions =>
    rw [hoptions] at hheader hdiscard ⊢
    dsimp only at hheader ⊢
    rw [← hheader, ← networkPathOnReceive_of_discard hdiscard]
    split
    next hrun => rw [hrun]
    next hrun =>
      rw [hrun] at hdiscard
      cases hdiscard

/-- The packets of a challenge are challenges, under whatever identifier. -/
theorem type_challenges (now : Timepoint) (address : Address) (id : PacketID) :
    ∀ p ∈ ((challenges now address).setID id).toList,
      p.packet.header.type = TypeID.authenticateChallenge := by
  intro p hp
  simp only [challenges, MultiPacketPath.setID, MultiPacketPath.toList, Option.map_some,
    Option.toList_some, List.mem_cons, List.not_mem_nil, or_false] at hp
  rcases hp with rfl | rfl <;> simp [NetworkPath.challenge]

/-- A challenge is sent, and comes to wait in the window. -/
theorem call_challenges (hc : Reachable z c) (now : Timepoint) (address : Address) :
    ∃ os probe, c.call z now (.sendReliably (challenges now address) true) =
        { c with
          transmitted := c.transmitted ++ os
          probe := probe
          sender := { c.sender with
            packetIDGenerator := c.sender.packetIDGenerator.next
            retrier := c.sender.retrier.insert c.sender.rtt
              ((challenges now address).setID c.sender.packetIDGenerator.id) now true
              c.sender.packetIDGenerator.issued } } ∧
      ∀ o ∈ os, o.packet.header.type = TypeID.authenticateChallenge := by
  have houtbox := outbox_of_reachable hc
  obtain ⟨probe, hcall⟩ := call_eq z now c (.sendReliably (challenges now address) true)
  refine ⟨(((challenges now address).setID c.sender.packetIDGenerator.id).toList.map
    fun p => ⟨p.packet, p.address, false⟩).map c.outgoing, probe, ?_, ?_⟩
  · rw [hcall]
    simp only [Sender.call, Sender.sendReliablyMultipath, env, houtbox, List.nil_append]
  · intro o ho
    obtain ⟨t, ht, rfl⟩ := List.mem_map.mp ho
    obtain ⟨p, hp, rfl⟩ := List.mem_map.mp ht
    rw [type_outgoing]
    exact type_challenges now address _ p hp

/-- **A challenge has no effect but itself**, if the retrier is on time. -/
theorem unaffected_challenge_iff (hc : Reachable z c) (now : Timepoint) (address : Address) :
    Unaffected c (c.call z now (.sendReliably (challenges now address) true)) ↔
      c.sender.retrier.OnTime c.sender.rtt c.sender.packetIDGenerator.id := by
  have hid : ((challenges now address).setID c.sender.packetIDGenerator.id).front.packet.header.id =
      c.sender.packetIDGenerator.id := rfl
  obtain ⟨os, probe, hcall, hos⟩ := call_challenges hc now address
  rw [hcall]
  cases hstatus : c.sender.retrier.status with
  | closed =>
      -- The window is closed, hence empty, and stays so.
      have hempty : c.sender.retrier.window = ∅ := by
        rw [← Std.ExtTreeMap.isEmpty_iff]
        exact (settled_of_reachable hc).static.window hstatus
      have hinsert : c.sender.retrier.insert c.sender.rtt
          ((challenges now address).setID c.sender.packetIDGenerator.id) now true
          c.sender.packetIDGenerator.issued = c.sender.retrier := by
        rw [Retrier.insert, if_pos hstatus]
      rw [hinsert]
      refine ⟨fun _ k retry _ hk => ?_, fun _ => ?_⟩
      · simp [hempty] at hk
      · exact ⟨rfl, rfl, rfl, rfl, rfl, rfl, rfl, fun _ _ hk => hk, os, probe, _, _, rfl, hos,
          fun _ _ _ hk => .inl hk⟩
  | «open» =>
      have hinsert := Retrier.window_insert_iff hstatus c.sender.rtt
        ((challenges now address).setID c.sender.packetIDGenerator.id) now
        c.sender.packetIDGenerator.issued
      rw [hid] at hinsert
      rw [← hinsert]
      refine ⟨fun h => h.entries, fun h => ?_⟩
      refine ⟨rfl, rfl, rfl, rfl, rfl, rfl, rfl, h, os, probe, _, _, rfl, hos, ?_⟩
      intro k paths n hk
      rcases Retrier.outstanding_of_insert _ _ _ hk with hk | ⟨_, hk⟩
      · exact .inl hk
      · rw [Prod.mk.injEq] at hk
        rw [hk.1]
        exact .inr (type_challenges now address _)

/-- **When a packet from an unverified address has no effect.**  In every reachable state, a
packet from elsewhere than the peer's address that the network path discards leaves the
connection unaffected, but for a challenge, exactly if it is no H3 with other options than
the connection has, and, unless it is a response, the packet with priority to be retried
first is due when the current round trip time says. -/
theorem unaffected_iff (hc : Reachable z c) (hdiscarded : Discarded z now c packet path)
    (reactions : Reactions) :
    Unaffected c (c.receive z now reactions packet path) ↔
      Agrees c packet ∧ (packet.header.type ≠ TypeID.authenticateResponse →
        c.sender.retrier.OnTime c.sender.rtt c.sender.packetIDGenerator.id) := by
  rw [receive_of_discarded hdiscarded]
  by_cases hagrees : Agrees c packet
  · rw [onReceive_options hagrees]
    dsimp only
    split
    next hresponse =>
      simp only [hagrees, hresponse, ne_eq, not_true_eq_false, false_implies, and_true, iff_true]
      exact ⟨rfl, rfl, rfl, rfl, rfl, rfl, rfl, fun _ _ hk => hk, [], c.probe, _, _,
        by rw [List.append_nil], by simp, fun _ _ _ hk => .inl hk⟩
    next hresponse =>
      simp only [hagrees, hresponse, ne_eq, not_false_eq_true, true_implies, true_and]
      exact unaffected_challenge_iff hc now path
  · -- Other options are taken over, whatever happens next.
    refine ⟨fun h => absurd ?_ hagrees, fun h => absurd h.1 hagrees⟩
    apply agrees_of_onReceive
    have hoptions := h.options
    dsimp only at hoptions
    split at hoptions
    · exact hoptions
    · obtain ⟨probe, hcall⟩ := call_eq z now
        { c with options := (HandshakeOptions.onReceive c.options packet).2.2 }
        (.sendReliably (challenges now path) true)
      rw [hcall] at hoptions
      exact hoptions

/-! ## An H3 from an unverified address -/

/-- A packet for which nothing is to be done comes from address 2. -/
def strayProbe : Packet := { header := { type := TypeID.probe, connection := 3 } }

/-- An H3 with options nobody agreed on: a packet is not to be retried at all. -/
def forgedH3 : Packet :=
  { header := { type := TypeID.h3, connection := 3 }
    data := HandshakeOptions.bytes { immediate with maximumRetryAttempts := 0 } }

/-- A probe from an unverified address leaves a connection with one packet outstanding
unaffected. -/
theorem unaffected_iff_strayProbe :
    Discarded storing 9 oneOutstanding strayProbe 2 ∧
      Unaffected oneOutstanding (oneOutstanding.receive storing 9 {} strayProbe 2) := by
  have hdiscarded : Discarded storing 9 oneOutstanding strayProbe 2 := by decide +kernel
  refine ⟨hdiscarded, (unaffected_iff (c := oneOutstanding) (reachable_run immediate sendingOne)
    hdiscarded {}).mpr ⟨fun h => absurd h (by decide), fun _ k retry hhead hk => ?_⟩⟩
  have hfirst : (oneOutstanding.sender.retrier.priority.insert
      oneOutstanding.sender.packetIDGenerator.id).toList.head? = some 3 := by decide +kernel
  have hnone : oneOutstanding.sender.retrier.window[(3 : PacketID)]? = none := by decide +kernel
  rw [hfirst] at hhead
  cases hhead
  rw [hnone] at hk
  cases hk

/-- **An H3 from an unverified address changes the options**, though the network path
discards it. -/
theorem options_of_forgedH3 :
    Reachable storing oneOutstanding ∧ Discarded storing 9 oneOutstanding forgedH3 2 ∧
      oneOutstanding.options.maximumRetryAttempts = 5 ∧
      (oneOutstanding.receive storing 9 {} forgedH3 2).options.maximumRetryAttempts = 0 :=
  ⟨reachable_run immediate sendingOne, by decide +kernel, by decide +kernel, by decide +kernel⟩

end Connection
end MrUDP
