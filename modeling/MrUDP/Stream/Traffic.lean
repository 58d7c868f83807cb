import MrUDP.Lib.Run
import MrUDP.Receiver.Receiver

/-!
# What a receiver makes of a send queue's frames

A send queue is filled and emptied in any order.  The frames of the packets taken out of
it, in order, are what a receive queue passes on, so the receiver's calls on them say
what the traffic means.

The central fact is about compressed blocks: the frames cut from one block, fed one
after the other into an empty reassembly buffer, pass on exactly the messages in the
block, leave the buffer empty, and meet the assertion of `processCompressed` throughout.

## Main definitions

* `frameCalls`: the receiver's calls on a list of frames.
* `Asserts`: the assertion of `processCompressed` along a list of frames.
* `frameCalls_block`: one compressed block.
* `Traffic`: a send queue being filled and emptied, and `Traffic.WF` its invariant.
-/

namespace MrUDP
open Wire Machine

/-! ## Subframes -/

/-- The side buffer holding some messages. -/
def subframes (ms : List (FrameTypeID × Bytes)) : Bytes :=
  ms.flatMap fun m => SendQueue.subframe m.1 m.2

@[simp] theorem subframes_append (ms ns : List (FrameTypeID × Bytes)) :
    subframes (ms ++ ns) = subframes ms ++ subframes ns := by
  simp [subframes]

theorem length_subframe (type : FrameTypeID) (data : Bytes) :
    (SendQueue.subframe type data).length = 5 + data.length := by
  simp [SendQueue.subframe]
  omega

@[simp] theorem subframes_cons (m : FrameTypeID × Bytes) (ms : List (FrameTypeID × Bytes)) :
    subframes (m :: ms) = SendQueue.subframe m.1 m.2 ++ subframes ms := rfl

section
variable {type : FrameTypeID} {data tail : Bytes}

/-- The size field of a subframe. -/
theorem frameSize_subframe (hdata : data.length < 2 ^ 32) :
    leNat (((SendQueue.subframe type data ++ tail).drop 1).take 4) = data.length := by
  have htake : ((SendQueue.subframe type data ++ tail).drop 1).take 4 = leBytes 4 data.length := by
    rw [SendQueue.subframe, List.cons_append, List.cons_append, List.drop_one, List.tail_cons,
      List.append_assoc, List.take_left' (length_leBytes ..)]
  rw [htake, leNat_leBytes (by norm_num; omega)]

/-- The data of a subframe, and what lies behind it. -/
theorem drop_subframe : (SendQueue.subframe type data ++ tail).drop 5 = data ++ tail := by
  rw [SendQueue.subframe, List.append_assoc]
  exact List.drop_left' (by rw [List.length_cons, length_leBytes])

end

/-- The loop reads back one message after the other. -/
theorem processCompressedSubframesLoop_subframes {ms : List (FrameTypeID × Bytes)}
    (hsmall : (subframes ms).length < 2 ^ 31) : ∀ fuel, ms.length ≤ fuel →
      processCompressedSubframesLoop fuel (subframes ms) = ms.map Prod.snd := by
  induction ms with
  | nil =>
      intro fuel _
      cases fuel <;> rfl
  | cons m ms ih =>
      intro fuel hfuel
      obtain ⟨n, rfl⟩ : ∃ n, fuel = n + 1 := ⟨fuel - 1, by simp at hfuel; omega⟩
      rw [subframes_cons] at hsmall ⊢
      have hlen : (SendQueue.subframe m.1 m.2 ++ subframes ms).length =
          5 + m.2.length + (subframes ms).length := by
        rw [List.length_append, length_subframe]
      have hne : SendQueue.subframe m.1 m.2 ++ subframes ms ≠ [] :=
        List.ne_nil_of_length_pos (by omega)
      have hleft : (((SendQueue.subframe m.1 m.2 ++ subframes ms).length - 5 : ℤ) % 2 ^ 32).toNat =
          m.2.length + (subframes ms).length := by
        rw [hlen, Int.emod_eq_of_lt (by omega) (by omega)]
        omega
      rw [processCompressedSubframesLoop, if_neg hne]
      simp only [frameSize_subframe (show m.2.length < 2 ^ 32 by omega), drop_subframe, hleft,
        List.take_left, List.drop_left]
      rw [if_neg (by omega), ih (by omega) n (by simpa using hfuel)]
      rfl

theorem length_le_length_subframes (ms : List (FrameTypeID × Bytes)) :
    ms.length ≤ (subframes ms).length := by
  induction ms with
  | nil => simp [subframes]
  | cons m ms ih =>
      rw [subframes_cons, List.length_append, length_subframe, List.length_cons]
      omega

/-- An empty side buffer holds no message. -/
theorem eq_nil_of_subframes {ms : List (FrameTypeID × Bytes)} (h : [] = subframes ms) :
    ms = [] := by
  have hlen := length_le_length_subframes ms
  rw [← h] at hlen
  exact List.length_eq_zero_iff.mp (by simpa using hlen)

/-- **Subframes are read back** as the messages they were written from. -/
theorem processCompressedSubframes_subframes {ms : List (FrameTypeID × Bytes)}
    (hsmall : (subframes ms).length < 2 ^ 31) :
    processCompressedSubframes (subframes ms) = ms.map Prod.snd := by
  have hint : (BitVec.ofNat 32 (subframes ms).length).toInt.toNat = (subframes ms).length := by
    rw [BitVec.toInt_eq_toNat_of_lt (by simp; omega), BitVec.toNat_ofNat,
      Nat.mod_eq_of_lt (by omega)]
    rfl
  rw [processCompressedSubframes, hint, List.take_length]
  exact processCompressedSubframesLoop_subframes hsmall _ (length_le_length_subframes ms)

/-! ## Blocks -/

variable {source : Bytes} {fs : List Frame}

/-- A block announces its own length. -/
theorem leNat_take_compressedBlock {z : Zlib} (hz : z.Lossless) (level : ℤ)
    (hsmall : source.length < 2 ^ 31) :
    5 ≤ (SendQueue.compressedBlock z level source).length ∧
      (SendQueue.compressedBlock z level source).length < 2 ^ 32 ∧
      leNat ((SendQueue.compressedBlock z level source).take 4) =
        (SendQueue.compressedBlock z level source).length := by
  have hstored : ∀ tail : Bytes, 4 + 1 + tail.length < 2 ^ 32 →
      leNat ((leBytes 4 (4 + 1 + tail.length) ++ (0 :: tail)).take 4) =
        4 + 1 + tail.length := by
    intro tail htail
    rw [List.take_left' (by simp), leNat_leBytes (by omega)]
  unfold SendQueue.compressedBlock
  dsimp only
  split
  · split
    next dest hdest =>
      have hroom := hz.within _ _ _ _ hdest
      have hlen : (leBytes 4 (4 + 1 + 4 + dest.length) ++ 1 :: leBytes 4 source.length ++
          dest).length = 4 + 1 + 4 + dest.length := by
        simp
        omega
      rw [hlen]
      refine ⟨by omega, by omega, ?_⟩
      rw [List.append_assoc, List.take_left' (by simp), leNat_leBytes (by omega)]
    next =>
      have hlen : (leBytes 4 (4 + 1 + source.length) ++ 0 :: source).length =
          4 + 1 + source.length := by
        simp
        omega
      rw [hlen]
      exact ⟨by omega, by omega, hstored source (by omega)⟩
  · have hlen : (leBytes 4 (4 + 1 + source.length) ++ 0 :: source).length =
        4 + 1 + source.length := by
      simp
      omega
    rw [hlen]
    exact ⟨by omega, by omega, hstored source (by omega)⟩

/-- A whole block in the buffer is unpacked, compressed or not. -/
theorem processCompressed_whole {z : Zlib} (hz : z.Lossless) (level : ℤ)
    (hsmall : source.length < 2 ^ 31) {buffer : Bytes} {f : Frame}
    (hwhole : buffer ++ f.data = SendQueue.compressedBlock z level source) :
    processCompressed z buffer f = (processCompressedSubframes source, []) := by
  obtain ⟨hfive, -, hsize⟩ := leNat_take_compressedBlock hz level hsmall
  unfold processCompressed
  rw [hwhole]
  dsimp only
  rw [if_neg (by omega), hsize, if_neg (by omega)]
  -- The stored form, where the body is the source itself.
  have hstored : SendQueue.compressedBlock z level source =
      leBytes 4 (4 + 1 + source.length) ++ 0 :: source →
      (if (SendQueue.compressedBlock z level source).getD 4 0 = 0 then
        (processCompressedSubframes ((SendQueue.compressedBlock z level source).drop 5),
          ([] : Bytes))
      else (processCompressedSubframes (z.uncompress
        (((SendQueue.compressedBlock z level source).drop 5).drop 4)
        (leNat (((SendQueue.compressedBlock z level source).drop 5).take 4))), [])) =
      (processCompressedSubframes source, []) := by
    intro heq
    have hflag : (SendQueue.compressedBlock z level source).getD 4 0 = 0 := by
      rw [heq]
      simp [leBytes]
    have hbody : (SendQueue.compressedBlock z level source).drop 5 = source := by
      rw [heq]
      simp [leBytes]
    rw [if_pos hflag, hbody]
  by_cases hc : 0 < level ∧ SendQueue.minimumSizeToAttemptCompression ≤ source.length
  · cases hdest : z.compress2 source source.length level with
    | none => exact hstored (by simp [SendQueue.compressedBlock, hc, hdest])
    | some dest =>
        have heq : SendQueue.compressedBlock z level source =
            leBytes 4 (4 + 1 + 4 + dest.length) ++ 1 :: leBytes 4 source.length ++ dest := by
          simp [SendQueue.compressedBlock, hc, hdest]
        have hflag : (SendQueue.compressedBlock z level source).getD 4 0 ≠ 0 := by
          rw [heq]
          simp [leBytes]
        have hbody : (SendQueue.compressedBlock z level source).drop 5 =
            leBytes 4 source.length ++ dest := by
          rw [heq]
          simp [leBytes]
        rw [if_neg hflag, hbody, List.take_left' (by simp), List.drop_left' (by simp),
          leNat_leBytes (by omega), hz.inverse _ _ _ _ hdest]
  · exact hstored (by simp [SendQueue.compressedBlock, hc])

/-! ## The receiver's calls on a list of frames -/

/-- The receiver's calls on reliable frames, and the reassembly buffer afterwards. -/
def frameCalls (z : Zlib) (buffer : Bytes) (fs : List Frame) : List ReceiverCall × Bytes :=
  Receiver.processFrames z .reliable buffer (fs.map fun f => (f, []))

@[simp] theorem frameCalls_nil (z : Zlib) (buffer : Bytes) : frameCalls z buffer [] = ([], buffer) :=
  rfl

theorem frameCalls_append (z : Zlib) (buffer : Bytes) (fs gs : List Frame) :
    frameCalls z buffer (fs ++ gs) =
      ((frameCalls z buffer fs).1 ++ (frameCalls z (frameCalls z buffer fs).2 gs).1,
        (frameCalls z (frameCalls z buffer fs).2 gs).2) := by
  simp [frameCalls, Receiver.processFrames_append]

/-- A compressed frame goes into the buffer. -/
theorem frameCalls_compressed (z : Zlib) (buffer : Bytes) {f : Frame}
    (hf : f.type = FrameTypeID.dataCompressed) (fs : List Frame) :
    frameCalls z buffer (f :: fs) =
      ((processCompressed z buffer f).1.map (.receive · .reliable) ++
          (frameCalls z (processCompressed z buffer f).2 fs).1,
        (frameCalls z (processCompressed z buffer f).2 fs).2) := by
  simp only [frameCalls, List.map_cons, Receiver.processFrames,
    Receiver.processReceived_compressed z .reliable buffer (v := (f, [])) hf]

/-- The assertion of `processCompressed` holds at every compressed frame. -/
def Asserts (z : Zlib) : Bytes → List Frame → Prop
  | _, [] => True
  | buffer, f :: fs =>
      (f.type = FrameTypeID.dataCompressed → WithinBufferSize buffer f) ∧
        Asserts z (frameCalls z buffer [f]).2 fs

theorem asserts_append (z : Zlib) (buffer : Bytes) (fs gs : List Frame) :
    Asserts z buffer (fs ++ gs) ↔
      Asserts z buffer fs ∧ Asserts z (frameCalls z buffer fs).2 gs := by
  induction fs generalizing buffer with
  | nil => simp [Asserts]
  | cons f fs ih =>
      have hsplit := frameCalls_append z buffer [f] fs
      rw [List.singleton_append] at hsplit
      simp only [List.cons_append, Asserts, ih, hsplit, and_assoc]

/-- Compressed frames without data do nothing to an empty buffer. -/
theorem frameCalls_of_no_data (z : Zlib) (htype : ∀ f ∈ fs, f.type = FrameTypeID.dataCompressed)
    (hdata : fs.flatMap Frame.data = []) : frameCalls z [] fs = ([], []) ∧ Asserts z [] fs := by
  induction fs with
  | nil => exact ⟨rfl, trivial⟩
  | cons f fs ih =>
      rw [List.flatMap_cons, List.append_eq_nil_iff] at hdata
      have hf := htype f (by simp)
      have hrun : processCompressed z [] f = ([], []) := by simp [processCompressed, hdata.1]
      obtain ⟨hcalls, hasserts⟩ := ih (fun g hg => htype g (by simp [hg])) hdata.2
      refine ⟨by rw [frameCalls_compressed z [] hf, hrun, hcalls]; rfl, ?_, ?_⟩
      · intro _ hfour
        simp [hdata.1] at hfour
      · rw [frameCalls_compressed z [] hf, hrun]
        exact hasserts

/-- **Reassembly.**  Compressed frames that complete a block already begun in the buffer
pass on its messages and leave the buffer empty. -/
theorem frameCalls_rest_of_block {z : Zlib} (hz : z.Lossless) (level : ℤ)
    (hsmall : source.length < 2 ^ 31) :
    ∀ {buffer : Bytes}, (∀ f ∈ fs, f.type = FrameTypeID.dataCompressed) →
      buffer ++ fs.flatMap Frame.data = SendQueue.compressedBlock z level source →
      buffer.length < (SendQueue.compressedBlock z level source).length →
      frameCalls z buffer fs =
          ((processCompressedSubframes source).map (.receive · .reliable), []) ∧
        Asserts z buffer fs := by
  obtain ⟨hfive, -, hsize⟩ := leNat_take_compressedBlock hz level hsmall
  generalize hB : SendQueue.compressedBlock z level source = B at hfive hsize
  induction fs with
  | nil =>
      intro buffer _ hcat hlt
      have := congrArg List.length hcat
      simp at this
      omega
  | cons f fs ih =>
      intro buffer htype hcat hlt
      have hf := htype f (by simp)
      have hrest : ∀ g ∈ fs, g.type = FrameTypeID.dataCompressed :=
        fun g hg => htype g (by simp [hg])
      have hcat' : buffer ++ f.data ++ fs.flatMap Frame.data = B := by
        rw [← hcat]
        simp
      have hlen := congrArg List.length hcat'
      rw [List.length_append] at hlen
      -- Once four bytes are there, the announced size is that of the block.
      have hannounced : 4 ≤ (buffer ++ f.data).length →
          leNat ((buffer ++ f.data).take 4) = B.length := by
        intro hfour
        rw [← hsize, ← hcat', List.take_append_of_le_length hfour]
      have hwithin : WithinBufferSize buffer f := by
        intro hfour
        rw [hannounced hfour]
        omega
      have hsingle : (frameCalls z buffer [f]).2 = (processCompressed z buffer f).2 := by
        rw [frameCalls_compressed z buffer hf]
        rfl
      by_cases hpart : (buffer ++ f.data).length < B.length
      · -- The block is not complete: the frame only joins the buffer.
        have hrun : processCompressed z buffer f = ([], buffer ++ f.data) := by
          unfold processCompressed
          dsimp only
          by_cases hfour : (buffer ++ f.data).length < 4
          · rw [if_pos hfour]
          · rw [if_neg hfour, hannounced (by omega), if_pos hpart]
        obtain ⟨hcalls, hasserts⟩ := ih hrest hcat' hpart
        refine ⟨?_, fun _ => hwithin, ?_⟩
        · rw [frameCalls_compressed z buffer hf, hrun, hcalls]
          rfl
        · rw [hsingle, hrun]
          exact hasserts
      · -- The block is complete; what follows of it is empty.
        have hnil : fs.flatMap Frame.data = [] := List.length_eq_zero_iff.mp (by omega)
        have hwhole : buffer ++ f.data = SendQueue.compressedBlock z level source := by
          rw [hB, ← hcat', hnil, List.append_nil]
        have hrun := processCompressed_whole hz level hsmall hwhole
        obtain ⟨hcalls, hasserts⟩ := frameCalls_of_no_data z hrest hnil
        refine ⟨?_, fun _ => hwithin, ?_⟩
        · rw [frameCalls_compressed z buffer hf, hrun, hcalls, List.append_nil]
        · rw [hsingle, hrun]
          exact hasserts

/-- **One compressed block**, cut into frames in any way. -/
theorem frameCalls_block {z : Zlib} (hz : z.Lossless) (level : ℤ) (hsmall : source.length < 2 ^ 31)
    (hcut : SendQueue.Cut FrameTypeID.dataCompressed
      ((SendQueue.compressedBlock z level source).take
        ((SendQueue.compressedBlock z level source).length % 2 ^ 32)) fs) :
    frameCalls z [] fs = ((processCompressedSubframes source).map (.receive · .reliable), []) ∧
      Asserts z [] fs := by
  obtain ⟨hfive, hlt, -⟩ := leNat_take_compressedBlock hz level hsmall
  have hdata := hcut.data
  rw [Nat.mod_eq_of_lt hlt, List.take_length] at hdata
  exact frameCalls_rest_of_block hz level hsmall hcut.type (by simpa using hdata)
    (by simp; omega)

/-! ## A send queue being filled and emptied -/

/-- A call on a send queue. -/
inductive Traffic.Op
  | enqueue (type : FrameTypeID) (data : Bytes) (mode : CoalesceMode)
  | dequeue (level : ℤ)
  deriving DecidableEq, Repr

/-- A send queue with what was put into it and the packets that were taken out. -/
structure Traffic where
  queue : SendQueue := {}
  enqueued : List (FrameTypeID × Bytes) := []
  dequeued : List Packet := []

namespace Traffic

/-- One call.  `Sender::send` refuses messages that are not admissible. -/
def step (z : Zlib) (t : Traffic) : Op → Traffic
  | .enqueue type data mode =>
      if SendQueue.Admissible data mode then
        { t with
          queue := t.queue.enqueue type data mode
          enqueued := t.enqueued ++ [(type, data)] }
      else t
  | .dequeue level =>
      let (packet, queue) := t.queue.dequeue z level
      { t with queue := queue, dequeued := t.dequeued ++ packet.toList }

/-- The frames taken out, in order. -/
def frames (t : Traffic) : List Frame := t.dequeued.flatMap Packet.frames

/-- What a receiver makes of the frames taken out. -/
def calls (z : Zlib) (t : Traffic) : List ReceiverCall × Bytes := frameCalls z [] t.frames

/-- The frames taken out are the first generated ones, and the packets waiting carry the
others. -/
structure WF (t : Traffic) : Prop where
  isOpen : t.queue.status = .open
  queue : t.queue.WF t.frames.length
  frames : t.frames = t.queue.generated.take t.frames.length
  packets : ∀ p ∈ t.dequeued, ∃ n, p.Carries t.queue.generated n

theorem WF.init : WF {} where
  isOpen := rfl
  queue := SendQueue.WF.init
  frames := rfl
  packets := by simp

variable {t : Traffic}

/-- The frames taken out are the first of the generated ones. -/
theorem WF.generated_eq (h : t.WF) :
    t.queue.generated = t.frames ++ t.queue.generated.drop t.frames.length := by
  conv_lhs => rw [← List.take_append_drop t.frames.length t.queue.generated]
  rw [← h.frames]

/-- Everything generated has been taken out once no packet waits. -/
theorem WF.frames_eq (h : t.WF) (hq : t.queue.queue = []) : t.frames = t.queue.generated := by
  have hchain := h.queue.chain
  rw [hq] at hchain
  have hlen : t.frames.length = t.queue.generated.length := hchain
  rw [h.frames, hlen, List.take_length]

/-- The frames taken out are numbered from zero. -/
theorem WF.id_frames (h : t.WF) {i : ℕ} {f : Frame} (hf : t.frames[i]? = some f) :
    f.id = serial 16 i := by
  have hlt := (List.getElem?_eq_some_iff.mp hf).1
  rw [h.frames, List.getElem?_take, if_pos hlt] at hf
  exact h.queue.numbered.id i f hf

/-- **The step lemma**, with the frames each call generates. -/
theorem WF.step (h : t.WF) (z : Zlib) (op : Op) :
    (t.step z op).WF ∧ match op with
      | .enqueue type data mode => SendQueue.Admissible data mode →
          ∃ fs, SendQueue.Enqueues t.queue type data mode fs
      | .dequeue level => ∃ fs, SendQueue.Dequeues z level t.queue fs := by
  have hle : t.frames.length ≤ t.queue.generated.length := h.queue.chain.le_length
  cases op with
  | enqueue type data mode =>
      by_cases hadm : SendQueue.Admissible data mode
      · obtain ⟨hwf, fs, henq⟩ := h.queue.enqueue h.isOpen hadm
        refine ⟨?_, fun _ => ⟨fs, henq⟩⟩
        simp only [Traffic.step, if_pos hadm]
        refine ⟨henq.status.trans h.isOpen, hwf, ?_, ?_⟩
        · show t.frames = (t.queue.enqueue type data mode).generated.take t.frames.length
          rw [henq.generated, List.take_append_of_le_length hle]
          exact h.frames
        · intro p hp
          obtain ⟨n, hn⟩ := h.packets p hp
          exact ⟨n, by rw [henq.generated]; exact hn.mono fs⟩
      · refine ⟨?_, fun hc => absurd hc hadm⟩
        simpa only [Traffic.step, if_neg hadm] using h
  | dequeue level =>
      obtain ⟨⟨fs, hdeq⟩, hnone, hsome⟩ := h.queue.dequeue h.isOpen z level
      refine ⟨?_, fs, hdeq⟩
      have hstatus := hdeq.status.trans h.isOpen
      have hold : ∀ p ∈ t.dequeued, ∃ n, p.Carries (t.queue.dequeue z level).2.generated n := by
        intro p hp
        obtain ⟨n, hn⟩ := h.packets p hp
        exact ⟨n, by rw [hdeq.generated]; exact hn.mono fs⟩
      cases hp : (t.queue.dequeue z level).1 with
      | none =>
          have hframes : (t.step z (.dequeue level)).frames = t.frames := by
            simp [Traffic.step, Traffic.frames, hp]
          refine ⟨hstatus, by rw [hframes]; exact hnone hp, ?_, ?_⟩
          · rw [hframes]
            show t.frames = (t.queue.dequeue z level).2.generated.take t.frames.length
            rw [hdeq.generated, List.take_append_of_le_length hle]
            exact h.frames
          · intro p hmem
            exact hold p (by simpa [Traffic.step, hp] using hmem)
      | some p =>
          obtain ⟨hbase, -, n, hc, hwf⟩ := hsome p hp
          have hframes : (t.step z (.dequeue level)).frames = t.frames ++ p.frames := by
            simp [Traffic.step, Traffic.frames, hp]
          have hpf := hc.frames_eq hwf.numbered
          have hlen : (t.step z (.dequeue level)).frames.length = t.frames.length + n := by
            rw [hframes, List.length_append, hc.length_frames hwf.numbered]
          refine ⟨hstatus, by rw [hlen]; exact hwf, ?_, ?_⟩
          · rw [hlen, hframes, hpf, hbase]
            show _ = (t.queue.dequeue z level).2.generated.take _
            rw [List.take_add]
            congr 1
            rw [hdeq.generated, List.take_append_of_le_length hle]
            exact h.frames
          · intro p' hmem
            have hmem' : p' ∈ t.dequeued ∨ p' = p := by
              simpa [Traffic.step, hp] using hmem
            rcases hmem' with hmem' | rfl
            · exact hold p' hmem'
            · exact ⟨n, hc⟩

end Traffic
end MrUDP
