import MrUDP.Receiver.Receiver

/-!
# Parsing a packet

`mrudp/receiver/ReceiveQueue.cpp`, `mrudp/receiver/UnreliableReceiveQueue.cpp` and the dispatch
of `mrudp/receiver/Receiver.cpp`, on packets with arbitrary bytes.

A packet is to be read as the complete frames at its front.  The loop for reliable packets does
so.  The one for unreliable packets only checks that a frame starts within the packet, and the
dispatch copies an acknowledgement whatever the size of its frame.

What a function reads is said without addresses: a parser stays inside the packet if its outcome
is the same whatever the memory behind the live bytes holds, and the dispatch reads only the
bytes of a frame if its outcome is the same whatever lies behind the frame.

## Main definitions

* `Maximal`: the complete frames at the front of a byte string.
* `Parsed`: both loops visit these, and each is processed by its own bytes.
* `WholeFrames`: the bytes for which that holds.
-/

namespace MrUDP
open Wire

/-! ## Frames at the front of a byte string -/

/-- A byte string starts with a complete frame. -/
def StartsWithFrame (data : Bytes) : Prop :=
  ∃ (f : Frame) (tail : Bytes), f.Fits ∧ data = f.bytes ++ tail

/-- `fs` are all the complete frames at the front of `data`. -/
def Maximal (data : Bytes) (fs : List Frame) : Prop :=
  ∃ tail, data = fs.flatMap Frame.bytes ++ tail ∧ (∀ f ∈ fs, f.Fits) ∧ ¬ StartsWithFrame tail

theorem not_startsWithFrame_nil : ¬ StartsWithFrame [] := by
  rintro ⟨f, tail, _, h⟩
  have hlength := congrArg List.length h
  rw [List.length_append, Frame.length_bytes, List.length_nil] at hlength
  exact absurd hlength (by rw [maxFrameHeaderSize]; omega)

/-- A frame can be read off the bytes it starts. -/
theorem Frame.bytes_append_inj {f g : Frame} {tail tail' : Bytes} (hf : f.Fits) (hg : g.Fits)
    (h : f.bytes ++ tail = g.bytes ++ tail') : f = g ∧ tail = tail' := by
  have hloop := @framesLoop_append [] f hf tail 0
  rw [h, framesLoop_append hg] at hloop
  simp only [List.append_nil, List.cons.injEq, Prod.mk.injEq] at hloop
  exact ⟨hloop.1.1.symm, hloop.1.2.symm⟩

/-- The complete frames at the front are determined. -/
theorem maximal_unique {data : Bytes} {fs gs : List Frame} (hf : Maximal data fs)
    (hg : Maximal data gs) : fs = gs := by
  obtain ⟨tail, hdata, hfits, hend⟩ := hf
  obtain ⟨tail', hdata', hfits', hend'⟩ := hg
  induction fs generalizing data gs with
  | nil =>
      cases gs with
      | nil => rfl
      | cons g gs =>
          refine absurd ⟨g, gs.flatMap Frame.bytes ++ tail', hfits' g (by simp), ?_⟩ hend
          rw [← List.append_assoc, ← List.flatMap_cons, ← hdata', hdata]
          rfl
  | cons f fs ih =>
      rw [List.flatMap_cons, List.append_assoc] at hdata
      cases gs with
      | nil =>
          refine absurd ⟨f, fs.flatMap Frame.bytes ++ tail, hfits f (by simp), ?_⟩ hend'
          rw [← hdata, hdata']
          rfl
      | cons g gs =>
          rw [List.flatMap_cons, List.append_assoc, hdata] at hdata'
          obtain ⟨rfl, hrest⟩ :=
            Frame.bytes_append_inj (hfits f (by simp)) (hfits' g (by simp)) hdata'
          rw [ih rfl (fun e he => hfits e (by simp [he])) hrest
            fun e he => hfits' e (by simp [he])]

/-! ## The loop for reliable packets -/

/-- A header that can be read lies at the front. -/
theorem FrameHeader.bytes_of_read {mem body : Bytes} {h : FrameHeader}
    (hread : FrameHeader.read mem = some (h, body)) : mem = h.bytes ++ body := by
  match mem, hread with
  | i₀ :: i₁ :: t :: s₀ :: s₁ :: mem, hread =>
      simp only [FrameHeader.read, Option.some.injEq, Prod.mk.injEq] at hread
      obtain ⟨rfl, rfl⟩ := hread
      have hpair : ∀ a b : UInt8, leBytes 2 (leNat [a, b] % 2 ^ 16) = [a, b] := by
        intro a b
        have hlt : leNat [a, b] < 2 ^ 16 := (leNat_lt [a, b]).trans_eq (by norm_num)
        rw [Nat.mod_eq_of_lt hlt]
        exact leBytes_leNat [a, b]
      simp only [FrameHeader.bytes, BitVec.toNat_ofNat, hpair]
      rfl

/-- The loop stops where no complete frame is left. -/
theorem framesLoop_of_incomplete {beyond data : Bytes} (h : ¬ StartsWithFrame data) (fuel : ℕ) :
    framesLoop beyond fuel data = [] := by
  cases fuel with
  | zero => rfl
  | succ fuel =>
      rw [framesLoop]
      split
      · rfl
      · split
        · rfl
        next header body hread =>
          refine if_pos (not_le.mp fun hle => h ?_)
          have htake : (body.take header.dataSize.toNat).length = header.dataSize.toNat := by
            rw [List.length_take]
            omega
          refine ⟨⟨header.id, header.type, body.take header.dataSize.toNat⟩,
            body.drop header.dataSize.toNat, ?_, ?_⟩
          · rw [Frame.Fits, htake]
            exact header.dataSize.isLt
          · rw [FrameHeader.bytes_of_read hread, Frame.bytes, Frame.header, htake,
              BitVec.ofNat_toNat, BitVec.setWidth_eq, List.append_assoc, List.take_append_drop]

/-- **The loop for reliable packets visits the complete frames.** -/
theorem maximal_frames (packet : Packet) : Maximal packet.data packet.frames := by
  have hloop : ∀ (fuel : ℕ) (data : Bytes), data.length ≤ fuel →
      Maximal data ((framesLoop packet.rest fuel data).map Prod.fst) := by
    intro fuel
    induction fuel with
    | zero =>
        intro data hfuel
        have hdata : data = [] := List.length_eq_zero_iff.mp (by omega)
        subst hdata
        exact ⟨[], rfl, by simp [framesLoop], not_startsWithFrame_nil⟩
    | succ fuel ih =>
        intro data hfuel
        by_cases hstarts : StartsWithFrame data
        · obtain ⟨f, tail, hfits, rfl⟩ := hstarts
          rw [List.length_append, Frame.length_bytes] at hfuel
          have hheader : 0 < maxFrameHeaderSize := by decide
          obtain ⟨end_, htail, hall, hend⟩ := ih tail (by omega)
          rw [framesLoop_append hfits, List.map_cons]
          refine ⟨end_, ?_, ?_, hend⟩
          · rw [List.flatMap_cons, List.append_assoc, ← htail]
          · intro e he
            rcases List.mem_cons.mp he with rfl | he
            · exact hfits
            · exact hall e he
        · rw [framesLoop_of_incomplete hstarts]
          exact ⟨data, rfl, by simp, hstarts⟩
  exact hloop _ _ le_rfl

/-! ## The loop for unreliable packets -/

/-- Where bytes are left, the loop goes on with whatever it finds. -/
theorem unreliableFramesLoop_ne_nil {tail : Bytes} (htail : tail ≠ []) (fuel : ℕ) :
    unreliableFramesLoop (fuel + 1) tail.length (tail ++ List.replicate 4 0) ≠ [] := by
  rw [unreliableFramesLoop, if_neg (by simpa using htail)]
  obtain ⟨b, bs, rfl⟩ := List.exists_cons_of_ne_nil htail
  -- However few bytes there are, four more make a header.
  have hread : ∃ header body, FrameHeader.read (b :: bs ++ List.replicate 4 0) =
      some (header, body) := by
    rcases bs with _ | ⟨_, _ | ⟨_, _ | ⟨_, _ | ⟨_, _⟩⟩⟩⟩ <;> exact ⟨_, _, rfl⟩
  obtain ⟨header, body, hread⟩ := hread
  rw [hread]
  simp

/-- **The loop for unreliable packets stops in time only if nothing is left behind the complete
frames.** -/
theorem unreliableVisits_maximal_iff (packet : Packet) :
    (∀ rest, Maximal packet.data
        (({ packet with rest := rest } : Packet).unreliableVisits.map Prod.fst)) ↔
      packet.data = packet.frames.flatMap Frame.bytes := by
  obtain ⟨tail, hdata, hfits, hend⟩ := maximal_frames packet
  refine ⟨fun h => ?_, fun h rest => ?_⟩
  · by_contra hne
    have htail : tail ≠ [] := by
      rintro rfl
      exact hne (by rw [List.append_nil] at hdata; exact hdata)
    have heq := maximal_unique (h (List.replicate 4 0)) (maximal_frames packet)
    have hlength : packet.frames.length < packet.data.length := by
      have hle := length_le_length_flatMap_bytes packet.frames
      have hpositive := List.length_pos_iff.mpr htail
      have htotal := congrArg List.length hdata
      rw [List.length_append] at htotal
      omega
    obtain ⟨fuel, hfuel⟩ : ∃ fuel, packet.data.length = packet.frames.length + (fuel + 1) :=
      ⟨packet.data.length - packet.frames.length - 1, by omega⟩
    have hpast :=
      @unreliableFramesLoop_past (List.replicate 4 0) packet.frames hfits tail (fuel + 1)
    rw [← hfuel, ← hdata] at hpast
    rw [Packet.unreliableVisits, hpast, List.map_append, map_fst_layout] at heq
    have hnil := List.append_right_eq_self.mp heq
    exact unreliableFramesLoop_ne_nil htail fuel (List.map_eq_nil_iff.mp hnil)
  · have hvisits := @unreliableVisits_of_data { packet with rest := rest } packet.frames h hfits
    rw [hvisits, map_fst_layout]
    exact ⟨[], h.trans (List.append_nil _).symm, hfits, not_startsWithFrame_nil⟩

/-! ## The dispatch -/

namespace Receiver

/-- The dispatch reads only the bytes of the frame: what lies behind it does not matter. -/
def ReadsOnly (f : Frame) : Prop :=
  ∀ (z : Zlib) (reliability : Reliability) (buffer behind behind' : Bytes),
    processReceived z reliability buffer (f, behind) =
      processReceived z reliability buffer (f, behind')

/-- Bytes behind a short acknowledgement matter. -/
theorem exists_read_ne {data : Bytes} (h : data.length < sizeofAck) :
    ∃ behind behind', Ack.read (data ++ behind) ≠ Ack.read (data ++ behind') := by
  refine ⟨List.replicate 4 0, List.replicate 4 1, fun heq => ?_⟩
  have hid := congrArg (fun ack => ack.packetID.toNat) heq
  have hms := congrArg (fun ack => ack.delayedMS.toNat) heq
  match data, h, hid, hms with
  | [], _, hid, _ => exact absurd hid (by decide)
  | [a], _, hid, _ =>
      have ha := a.toNat_lt
      simp [Ack.read, List.replicate] at hid
      omega
  | [a, b], _, _, hms => simp [Ack.read, List.replicate] at hms
  | [a, b, c], _, _, hms =>
      have hc := c.toNat_lt
      simp [Ack.read, List.replicate] at hms
      omega

/-- A whole acknowledgement is read from its own bytes. -/
theorem read_append {data : Bytes} (h : sizeofAck ≤ data.length) (behind : Bytes) :
    Ack.read (data ++ behind) = Ack.read data := by
  simp only [sizeofAck] at h
  have hid : (data ++ behind).take 2 = data.take 2 :=
    List.take_append_of_le_length (by omega)
  have hms : ((data ++ behind).drop 2).take 2 = (data.drop 2).take 2 := by
    rw [List.drop_append_of_le_length (by omega),
      List.take_append_of_le_length (by rw [List.length_drop]; omega)]
  rw [Ack.read, Ack.read, hid, hms]

/-- **The dispatch reads only the frame**, unless the frame is an acknowledgement cut short. -/
theorem readsOnly_iff (f : Frame) :
    ReadsOnly f ↔ (f.type = FrameTypeID.ackFrame → sizeofAck ≤ f.data.length) := by
  refine ⟨fun h htype => ?_, fun h z reliability buffer behind behind' => ?_⟩
  · by_contra hshort
    obtain ⟨behind, behind', hne⟩ := exists_read_ne (not_le.mp hshort)
    have heq := h ⟨fun _ _ _ => none, fun source _ => source⟩ .reliable [] behind behind'
    rw [processReceived_ack _ _ _ htype, processReceived_ack _ _ _ htype] at heq
    simp only [Prod.mk.injEq, List.cons.injEq, ReceiverCall.onAck.injEq, and_true] at heq
    exact hne heq
  · by_cases htype : f.type = FrameTypeID.ackFrame
    · rw [processReceived_ack _ _ _ htype, processReceived_ack _ _ _ htype]
      dsimp only
      rw [read_append (h htype), read_append (h htype)]
    · rw [processReceived, if_neg htype, processReceived, if_neg htype]

end Receiver

/-! ## The whole packet -/

/-- Both parsers visit the complete frames and stop, and each frame is processed by its own
bytes. -/
structure Parsed (packet : Packet) : Prop where
  reliable : Maximal packet.data packet.frames
  unreliable : Maximal packet.data (packet.unreliableVisits.map Prod.fst)
  within : ∀ v ∈ packet.visits ++ packet.unreliableVisits, Receiver.ReadsOnly v.1

/-- Complete frames and nothing else, the acknowledgements among them not cut short. -/
def WholeFrames (data : Bytes) : Prop :=
  ∃ fs : List Frame, data = fs.flatMap Frame.bytes ∧
    ∀ f ∈ fs, f.Fits ∧ (f.type = FrameTypeID.ackFrame → sizeofAck ≤ f.data.length)

/-- **Parsing stays inside the packet** exactly if the live bytes are whole frames. -/
theorem parsed_iff (packet : Packet) :
    (∀ rest, Parsed { packet with rest := rest }) ↔ WholeFrames packet.data := by
  refine ⟨fun h => ?_, fun ⟨fs, hdata, hfs⟩ rest => ?_⟩
  · have hdata := (unreliableVisits_maximal_iff packet).mp fun rest => (h rest).unreliable
    obtain ⟨_, _, hfits, _⟩ := maximal_frames packet
    refine ⟨packet.frames, hdata, fun f hf => ⟨hfits f hf, ?_⟩⟩
    obtain ⟨v, hv, rfl⟩ := List.mem_map.mp hf
    exact (Receiver.readsOnly_iff v.1).mp
      ((h packet.rest).within v (List.mem_append_left _ hv))
  · have hfits := fun f hf => (hfs f hf).1
    have hframes := frames_of_data hdata hfits
    have hunreliable := (unreliableVisits_maximal_iff packet).mpr (hframes.symm ▸ hdata) rest
    refine ⟨maximal_frames _, hunreliable, fun v hv => ?_⟩
    have hvisits := @visits_of_data { packet with rest := rest } fs hdata hfits
    have hvisits' := @unreliableVisits_of_data { packet with rest := rest } fs hdata hfits
    rw [hvisits, hvisits'] at hv
    have hmem : v ∈ layout rest fs := by simpa using hv
    refine (Receiver.readsOnly_iff v.1).mpr (hfs v.1 ?_).2
    rw [← map_fst_layout rest fs]
    exact List.mem_map_of_mem hmem

/-- **A single byte is read as a frame**, from the memory behind it; and an acknowledgement of one
byte takes the other three from there. -/
theorem parsed_outside :
    let packet : Packet := { data := [1], rest := [0, 84, 2, 0, 8, 9] }
    let ack : Packet := { data := (⟨7, FrameTypeID.ackFrame, [1]⟩ : Frame).bytes }
    packet.frames = [] ∧
      packet.unreliableVisits = [(⟨1, FrameTypeID.data, [8, 9]⟩, [])] ∧
      ack.frames = [⟨7, FrameTypeID.ackFrame, [1]⟩] ∧
      ¬ Receiver.ReadsOnly ⟨7, FrameTypeID.ackFrame, [1]⟩ := by
  intro packet ack
  refine ⟨by decide, by decide, by decide, ?_⟩
  rw [Receiver.readsOnly_iff]
  decide

end MrUDP
