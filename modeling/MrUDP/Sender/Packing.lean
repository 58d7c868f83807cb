import MrUDP.Lib.Run
import MrUDP.Sender.SendQueue

/-!
# The packets of a send queue

`mrudp/sender/SendQueue.cpp` under every sequence of `enqueue` and `dequeue`: the packets it
hands out are small enough, parse without a rest, and carry what was enqueued, each message as
the frames its coalesce mode gives it.

`SendQueue::coalesceStream` steps through its data with an offset that is an `int`, while sizes
are `size_t`.  Here the loop is modelled once more, with that offset and with every read
checked.  It is the loop of `SendQueue.coalesceStream` as long as no message streamed has more
than `2 ^ 31` bytes; beyond that the offset is negative at some point.

## Main definitions

* `SendQueue.Checked.coalesceStream`, `SendQueue.Checked.enqueue`, `SendQueue.Checked.dequeue`:
  the functions of the source, with the offset.
* `SendQueue.Packer`: the queue with the packets it has handed out, as a machine.
* `SendQueue.WellPacked`: the packets are well formed and nothing is lost.
-/

namespace MrUDP
open Wire Machine

namespace SendQueue

/-- How the loop of `coalesceStream` can fail: it reads outside of its data, or it has not
ended. -/
inductive StreamFault
  | outside
  | endless
  deriving DecidableEq, Repr

/-! ## The functions with the offset -/

namespace Checked

/-- The loop of `SendQueue::coalesceStream`.  `offset` is an `int`. -/
def coalesceStreamLoop (type : FrameTypeID) (data : Bytes) :
    ℕ → SendQueue → BitVec 32 → ℕ → Except StreamFault SendQueue
  | 0, q, _, size => if size = 0 then .ok q else .error .endless
  | fuel + 1, q, offset, size =>
      if size = 0 then .ok q
      else match q.queue.getLast? with
        | none => .error .outside
        | some packet =>
            let availableWriteSize : ℤ :=
              maxPacketPostFrameSize - (packet.data.length + maxFrameHeaderSize : ℕ)
            if 0 < availableWriteSize then
              let writeSize := min availableWriteSize.toNat size
              if 0 ≤ offset.toInt ∧ offset.toInt + writeSize ≤ data.length then
                coalesceStreamLoop type data fuel
                  (q.frameInto q.queue.dropLast packet type
                    ((data.drop offset.toNat).take writeSize))
                  (offset + BitVec.ofNat 32 writeSize) (size - writeSize)
              else .error .outside
            else
              coalesceStreamLoop type data fuel { q with queue := q.queue ++ [q.freshPacket] }
                offset size

/-- `SendQueue::coalesceStream`. -/
def coalesceStream (q : SendQueue) (type : FrameTypeID) (data : Bytes) :
    Except StreamFault SendQueue :=
  let q := if q.queue = [] then { q with queue := [q.freshPacket] } else q
  coalesceStreamLoop type data (2 * data.length) q 0 data.length

/-- `SendQueue::compress`. -/
def compress (z : Zlib) (level : ℤ) (q : SendQueue) : Except StreamFault SendQueue :=
  let block := compressedBlock z level q.compressionBuffer
  let outSize := block.length % 2 ^ 32
  (coalesceStream q FrameTypeID.dataCompressed (block.take outSize)).map fun q =>
    { q with compressionBuffer := [] }

/-- `SendQueue::coalesce`. -/
def coalesce (q : SendQueue) (type : FrameTypeID) (data : Bytes) :
    CoalesceMode → Except StreamFault (Bool × SendQueue)
  | .none | .unset => .ok (false, q)
  | .packet => .ok (q.coalescePacket type data)
  | .stream => (coalesceStream q type data).map fun q => (true, q)
  | .streamCompressed => .ok (true, q.coalesceStreamCompressed type data)

/-- `SendQueue::enqueue`. -/
def enqueue (q : SendQueue) (type : FrameTypeID) (data : Bytes) (mode : CoalesceMode) :
    Except StreamFault SendQueue :=
  if q.status = .closed then .ok q
  else
    (coalesce q type data mode).map fun
      | (true, q) => q
      | (false, q) => q.frameInto q.queue q.freshPacket type data

/-- `SendQueue::dequeue`. -/
def dequeue (z : Zlib) (level : ℤ) (q : SendQueue) :
    Except StreamFault (Option Packet × SendQueue) :=
  if q.status = .closed then .ok (none, q)
  else
    (if q.queue = [] ∧ q.compressionBuffer ≠ [] then compress z level q else .ok q).map fun q =>
      match q.queue with
      | [] => (none, q)
      | packet :: queue => (some packet, { q with queue := queue })

/-! ## They are the functions without it -/

section
variable {q : SendQueue} {type : FrameTypeID} {data : Bytes} {fuel size : ℕ} {packet : Packet}

/-- A round with room in the last packet, while the offset is not negative. -/
theorem coalesceStreamLoop_of_room (hsize : 0 < size) (hle : size ≤ data.length)
    (hlast : q.queue.getLast? = some packet)
    (hroom : packet.data.length + maxFrameHeaderSize < maxPacketPostFrameSize) {k : ℕ}
    (hk : k = min (maxPacketPostFrameSize - (packet.data.length + maxFrameHeaderSize)) size)
    (hoffset : data.length - size < 2 ^ 31) :
    coalesceStreamLoop type data (fuel + 1) q (BitVec.ofNat 32 (data.length - size)) size =
      coalesceStreamLoop type data fuel
        (q.frameInto q.queue.dropLast packet type ((data.drop (data.length - size)).take k))
        (BitVec.ofNat 32 (data.length - (size - k))) (size - k) := by
  have hmin : min ((maxPacketPostFrameSize : ℤ) -
      (packet.data.length + maxFrameHeaderSize : ℕ)).toNat size = k := by
    omega
  have hnat : (BitVec.ofNat 32 (data.length - size)).toNat = data.length - size := by
    rw [BitVec.toNat_ofNat, Nat.mod_eq_of_lt (by omega)]
  have hint : (BitVec.ofNat 32 (data.length - size)).toInt = (data.length - size : ℕ) := by
    rw [BitVec.toInt_eq_toNat_of_lt (by omega), hnat]
  have hadd : BitVec.ofNat 32 (data.length - size) + BitVec.ofNat 32 k =
      BitVec.ofNat 32 (data.length - (size - k)) := by
    rw [← BitVec.ofNat_add, show data.length - size + k = data.length - (size - k) by omega]
  rw [coalesceStreamLoop, if_neg (by omega), hlast]
  simp only [hmin]
  rw [if_pos (by omega), if_pos (by omega), hadd, hnat]

/-- A round that finds the last packet full. -/
theorem coalesceStreamLoop_of_full (hsize : 0 < size) (hlast : q.queue.getLast? = some packet)
    (hfull : ¬ packet.data.length + maxFrameHeaderSize < maxPacketPostFrameSize)
    (offset : BitVec 32) :
    coalesceStreamLoop type data (fuel + 1) q offset size =
      coalesceStreamLoop type data fuel { q with queue := q.queue ++ [q.freshPacket] } offset
        size := by
  rw [coalesceStreamLoop, if_neg (by omega), hlast]
  simp only
  rw [if_neg (by omega)]

end

/-- **The loop ends, and reads only its data**, if that is not longer than the offset can
count. -/
theorem coalesceStreamLoop_eq (type : FrameTypeID) {data : Bytes} (hdata : data.length ≤ 2 ^ 31) :
    ∀ (fuel : ℕ) (q : SendQueue) (size : ℕ), q.queue ≠ [] → size ≤ data.length →
      (2 * size ≤ fuel ∨ (2 * size ≤ fuel + 1 ∧ q.Room)) →
      coalesceStreamLoop type data fuel q (BitVec.ofNat 32 (data.length - size)) size =
        .ok (SendQueue.coalesceStreamLoop type fuel q (data.drop (data.length - size))) := by
  intro fuel
  induction fuel with
  | zero =>
      intro q size _ _ hfuel
      rw [coalesceStreamLoop, if_pos (by omega)]
      rfl
  | succ fuel ih =>
      intro q size hne hle hfuel
      by_cases hsize : size = 0
      · rw [coalesceStreamLoop, if_pos hsize, hsize, Nat.sub_zero, List.drop_length]
        rfl
      have hlength : (data.drop (data.length - size)).length = size := by
        rw [List.length_drop]
        omega
      have hrest : data.drop (data.length - size) ≠ [] :=
        List.ne_nil_of_length_pos (by omega)
      obtain ⟨packet, hlast⟩ : ∃ p, q.queue.getLast? = some p :=
        Option.isSome_iff_exists.mp (by simpa using hne)
      by_cases hroom : packet.data.length + maxFrameHeaderSize < maxPacketPostFrameSize
      · generalize hk : min (maxPacketPostFrameSize -
          (packet.data.length + maxFrameHeaderSize)) size = k
        rw [coalesceStreamLoop_of_room (by omega) hle hlast hroom hk.symm (by omega),
          SendQueue.coalesceStreamLoop_of_room type fuel hrest hlast hroom
            (hk.symm.trans (by rw [hlength])),
          ih _ (size - k) (frameInto_queue_ne_nil _ _ _ _) (by omega) (.inl (by omega)),
          List.drop_drop, show data.length - size + k = data.length - (size - k) by omega]
      · have hfuel' : 2 * size ≤ fuel + 1 := by
          rcases hfuel with hf | ⟨_, hr⟩
          · exact hf
          · exact absurd (hr packet hlast) hroom
        rw [coalesceStreamLoop_of_full (by omega) hlast hroom,
          SendQueue.coalesceStreamLoop_of_full type fuel hrest hlast hroom,
          ih _ size (by simp) hle (.inr ⟨hfuel', q.room_pushPacket⟩)]

variable (q : SendQueue) (type : FrameTypeID)

theorem coalesceStream_eq {data : Bytes} (hdata : data.length ≤ 2 ^ 31) :
    coalesceStream q type data = .ok (q.coalesceStream type data) := by
  have hloop := fun (q : SendQueue) (hne : q.queue ≠ []) =>
    coalesceStreamLoop_eq type hdata (2 * data.length) q data.length hne le_rfl (.inl le_rfl)
  simp only [Nat.sub_self, List.drop_zero] at hloop
  rw [coalesceStream, SendQueue.coalesceStream]
  refine hloop _ ?_
  split
  · simp
  next hne => exact hne

theorem enqueue_eq {data : Bytes} {mode : CoalesceMode}
    (hdata : mode = .stream → data.length ≤ 2 ^ 31) :
    enqueue q type data mode = .ok (q.enqueue type data mode) := by
  rw [enqueue, SendQueue.enqueue]
  split
  · rfl
  · cases mode with
    | none => rfl
    | unset => rfl
    | packet => rfl
    | stream =>
        rw [coalesce, coalesceStream_eq q type (hdata rfl)]
        rfl
    | streamCompressed => rfl

/-- The block that `dequeue` is about to stream, if it is. -/
def pendingBlock (z : Zlib) (level : ℤ) : Bytes :=
  if q.queue = [] ∧ q.compressionBuffer ≠ [] then
    let block := compressedBlock z level q.compressionBuffer
    block.take (block.length % 2 ^ 32)
  else []

theorem dequeue_eq {z : Zlib} {level : ℤ} (hblock : (pendingBlock q z level).length ≤ 2 ^ 31) :
    dequeue z level q = .ok (q.dequeue z level) := by
  rw [dequeue, SendQueue.dequeue]
  split
  · rfl
  · rw [pendingBlock] at hblock
    by_cases hc : q.queue = [] ∧ q.compressionBuffer ≠ []
    · rw [if_pos hc] at hblock
      rw [if_pos hc, if_pos hc, compress, coalesceStream_eq q _ hblock]
      rfl
    · rw [if_neg hc, if_neg hc]
      rfl

end Checked

/-! ## The machine -/

/-- A call on a send queue. -/
inductive Call
  | enqueue (type : FrameTypeID) (data : Bytes) (mode : CoalesceMode)
  | dequeue (level : ℤ)
  deriving DecidableEq, Repr

/-- The queue, and the packets it has handed out.  `log` is a ghost: every call with the frames
it has generated. -/
structure Packer where
  queue : SendQueue := {}
  dequeued : List Packet := []
  log : List (Call × List Frame) := []

namespace Packer

/-- The state after a call that leaves `queue` and hands out `packet`. -/
def after (s : Packer) (call : Call) (packet : Option Packet) (queue : SendQueue) : Packer where
  queue := queue
  dequeued := s.dequeued ++ packet.toList
  log := s.log ++ [(call, queue.generated.drop s.queue.generated.length)]

/-- One call. -/
def call (z : Zlib) (s : Packer) (call : Call) : Except StreamFault Packer :=
  match call with
  | .enqueue type data mode =>
      (Checked.enqueue s.queue type data mode).map fun q => s.after call none q
  | .dequeue level =>
      (Checked.dequeue z level s.queue).map fun (packet, q) => s.after call packet q

/-- One call, unless something went wrong before. -/
def step (z : Zlib) (s : Except StreamFault Packer) (call : Call) : Except StreamFault Packer :=
  s.bind fun s => s.call z call

/-- The sizes are those `Sender::send` lets through, and no more than `2 ^ 31` bytes are streamed
at once, by the user or as a compressed block. -/
def Manageable (z : Zlib) (s : Except StreamFault Packer) (call : Call) : Prop :=
  match s, call with
  | .error _, _ => True
  | .ok _, .enqueue _ data mode => Admissible data mode ∧ (mode = .stream → data.length ≤ 2 ^ 31)
  | .ok s, .dequeue level => (Checked.pendingBlock s.queue z level).length ≤ 2 ^ 31

instance decidableManageable (z : Zlib) :
    ∀ s call, Decidable (Manageable z s call)
  | .error _, _ => isTrue trivial
  | .ok _, .enqueue _ _ _ => inferInstanceAs (Decidable (_ ∧ _))
  | .ok _, .dequeue _ => inferInstanceAs (Decidable (_ ≤ _))

end Packer

/-- The frames a call may generate. -/
def Call.Generates : Call → List Frame → Prop
  | .enqueue type data .none, fs | .enqueue type data .unset, fs
  | .enqueue type data .packet, fs => ∃ id, fs = [⟨id, type, data⟩]
  | .enqueue type data .stream, fs => Cut type data fs ∧ ∀ f ∈ fs, f.data ≠ []
  | .enqueue _ _ .streamCompressed, fs => fs = []
  | .dequeue _, fs => ∀ f ∈ fs, f.type = FrameTypeID.dataCompressed

/-- **The packets are well formed and lose nothing.** -/
structure WellPacked (s : Packer) : Prop where
  small : ∀ p ∈ s.dequeued, p.data.length ≤ maxPacketPostFrameSize
  /-- The loop of `ReceiveQueue::onReceive` leaves no bytes. -/
  consumed : ∀ p ∈ s.dequeued, p.data = p.frames.flatMap Frame.bytes
  numbered : ∀ i f, (s.dequeued.flatMap Packet.frames)[i]? = some f → f.id = BitVec.ofNat 16 i
  /-- Handed out or waiting, the frames are those of the calls, in their order. -/
  frames : (s.dequeued ++ s.queue.queue).flatMap Packet.frames = s.log.flatMap Prod.snd
  generates : ∀ entry ∈ s.log, entry.1.Generates entry.2

/-! ## The invariant -/

/-- The packets waiting parse into the frames that have not left. -/
theorem Chain.flatMap_frames {g : List Frame} (hnum : Numbered g) {b : ℕ} {ps : List Packet}
    (h : Chain g b ps) : ps.flatMap Packet.frames = g.drop b := by
  induction ps generalizing b with
  | nil =>
      have hb : b = g.length := h
      rw [hb, List.drop_length]
      rfl
  | cons p ps ih =>
      obtain ⟨hbase, n, hcarries, hrest⟩ := h
      rw [List.flatMap_cons, ih hrest, hcarries.frames_eq hnum, hbase, ← List.drop_drop,
        List.take_append_drop]

namespace Packer

variable {z : Zlib} {s : Packer} {b : ℕ}

/-- `b` frames have left the queue. -/
structure Holds (s : Packer) (b : ℕ) : Prop where
  wf : s.queue.WF b
  opened : s.queue.status = .open
  small : ∀ p ∈ s.dequeued, p.data.length ≤ maxPacketPostFrameSize
  consumed : ∀ p ∈ s.dequeued, p.data = p.frames.flatMap Frame.bytes
  frames : s.dequeued.flatMap Packet.frames = s.queue.generated.take b
  log : s.log.flatMap Prod.snd = s.queue.generated
  generates : ∀ entry ∈ s.log, entry.1.Generates entry.2

theorem Holds.init : Holds {} 0 where
  wf := WF.init
  opened := rfl
  small := by simp
  consumed := by simp
  frames := rfl
  log := rfl
  generates := by simp

theorem Holds.wellPacked (h : s.Holds b) : WellPacked s where
  __ := h
  numbered := by
    intro i f hf
    rw [h.frames, List.getElem?_take] at hf
    split at hf
    · exact h.wf.numbered.id i f hf
    · cases hf
  frames := by
    rw [List.flatMap_append, h.frames, h.wf.chain.flatMap_frames h.wf.numbered,
      List.take_append_drop, h.log]

/-- A call that generates `fs` and hands out the next `n` frames in a packet, or no frame. -/
theorem Holds.after (h : s.Holds b) {call : Call} {packet : Option Packet} {q : SendQueue}
    {fs : List Frame} {n : ℕ} (hgenerated : q.generated = s.queue.generated ++ fs)
    (hstatus : q.status = s.queue.status) (hgenerates : call.Generates fs) (hwf : q.WF (b + n))
    (hnone : packet = none → n = 0)
    (hsome : ∀ p, packet = some p →
      p.base = b ∧ p.data.length ≤ maxPacketPostFrameSize ∧ p.Carries q.generated n) :
    (s.after call packet q).Holds (b + n) where
  wf := hwf
  opened := hstatus.trans h.opened
  small := by
    intro p hp
    rcases List.mem_append.mp hp with hp | hp
    · exact h.small p hp
    · exact (hsome p (Option.mem_toList.mp hp)).2.1
  consumed := by
    intro p hp
    rcases List.mem_append.mp hp with hp | hp
    · exact h.consumed p hp
    · have hcarries := (hsome p (Option.mem_toList.mp hp)).2.2
      rw [hcarries.frames_eq hwf.numbered]
      exact hcarries.data
  frames := by
    have htake : s.queue.generated.take b = q.generated.take b := by
      rw [hgenerated, List.take_append_of_le_length h.wf.chain.le_length]
    show (s.dequeued ++ packet.toList).flatMap Packet.frames = q.generated.take (b + n)
    rw [List.flatMap_append, h.frames, htake]
    cases packet with
    | none =>
        rw [hnone rfl]
        exact List.append_nil _
    | some p =>
        obtain ⟨hbase, _, hcarries⟩ := hsome p rfl
        rw [Option.toList_some, List.flatMap_singleton, hcarries.frames_eq hwf.numbered, hbase,
          List.take_add]
  log := by
    show (s.log ++ [(call, q.generated.drop s.queue.generated.length)]).flatMap Prod.snd =
      q.generated
    rw [List.flatMap_append, h.log, hgenerated, List.drop_left, List.flatMap_singleton]
  generates := by
    intro entry hentry
    rcases List.mem_append.mp hentry with hentry | hentry
    · exact h.generates entry hentry
    · rw [List.mem_singleton.mp hentry, hgenerated, List.drop_left]
      exact hgenerates

/-- What an admissible message becomes. -/
theorem generates_enqueue (h : s.Holds b) {type : FrameTypeID} {data : Bytes}
    {mode : CoalesceMode} (hadm : Admissible data mode) :
    ∃ fs, (s.queue.enqueue type data mode).generated = s.queue.generated ++ fs ∧
      Call.Generates (.enqueue type data mode) fs := by
  obtain ⟨_, fs, henqueues⟩ := @WF.enqueue b data s.queue h.wf h.opened type mode hadm
  cases mode with
  | none | packet => exact ⟨fs, henqueues.generated, henqueues.single (by simp)⟩
  | unset =>
      have hsmall : data.length ≤ maxPacketDataSize := by simpa [Admissible] using hadm
      obtain ⟨_, fs, henqueues⟩ :=
        @WF.enqueue b data s.queue h.wf h.opened type .none (.inl hsmall)
      exact ⟨fs, henqueues.generated, henqueues.single (.inl rfl)⟩
  | stream =>
      obtain ⟨fs', hcut, hne, hgrow, _⟩ := h.wf.coalesceStream type data
      refine ⟨fs', ?_, hcut, hne⟩
      rw [← hgrow.generated]
      simp [SendQueue.enqueue, coalesce, h.opened]
  | streamCompressed => exact ⟨fs, henqueues.generated, henqueues.frames⟩

/-- A call that meets the condition succeeds and keeps the invariant. -/
theorem Holds.call (h : s.Holds b) {c : Call} (hok : Manageable z (.ok s) c) :
    ∃ s', s.call z c = .ok s' ∧ s'.log.map Prod.fst = s.log.map Prod.fst ++ [c] ∧
      ∃ b', s'.Holds b' := by
  cases c with
  | enqueue type data mode =>
      obtain ⟨hadm, hshort⟩ := hok
      obtain ⟨fs, hgenerated, hgenerates⟩ := generates_enqueue h hadm
      have hwf := (@WF.enqueue b data s.queue h.wf h.opened type mode hadm).1
      refine ⟨s.after (.enqueue type data mode) none (s.queue.enqueue type data mode), ?_,
        by simp [Packer.after], b + 0,
        h.after hgenerated (status_enqueue ..) hgenerates hwf (fun _ => rfl) (by simp)⟩
      rw [Packer.call, Checked.enqueue_eq s.queue type hshort]
      rfl
  | dequeue level =>
      obtain ⟨⟨fs, hdequeues⟩, hnone, hsome⟩ := h.wf.dequeue h.opened z level
      have hcall : s.call z (.dequeue level) = .ok (s.after (.dequeue level)
          (s.queue.dequeue z level).1 (s.queue.dequeue z level).2) := by
        rw [Packer.call, Checked.dequeue_eq s.queue hok]
        rfl
      have htype : Call.Generates (.dequeue level) fs := by
        have hframes := hdequeues.frames
        split at hframes
        · exact hframes.2.type
        · rw [hframes.2]
          intro f hf
          cases hf
      refine ⟨_, hcall, by simp [Packer.after], ?_⟩
      cases hpacket : (s.queue.dequeue z level).1 with
      | none =>
          exact ⟨b + 0, h.after hdequeues.generated hdequeues.status htype (hnone hpacket)
            (fun _ => rfl) (by simp)⟩
      | some packet =>
          obtain ⟨hbase, hsmall, n, hcarries, hwf⟩ := hsome packet hpacket
          refine ⟨b + n, h.after hdequeues.generated hdequeues.status htype hwf (by simp) ?_⟩
          rintro _ ⟨⟩
          exact ⟨hbase, hsmall, hcarries⟩

/-- **The packets of a send queue.**  As long as the calls meet the condition, none fails, and
what the queue has handed out is well packed. -/
theorem packets_well_formed (z : Zlib) (calls : List Call)
    (hok : Along (step z) (Manageable z) (.ok {}) calls) :
    ∃ s, run (step z) (.ok {}) calls = .ok s ∧ s.log.map Prod.fst = calls ∧ WellPacked s := by
  have hrun : ∀ (calls : List Call) (s : Packer) (b : ℕ), s.Holds b →
      Along (step z) (Manageable z) (.ok s) calls →
      ∃ s' b', run (step z) (.ok s) calls = .ok s' ∧
        s'.log.map Prod.fst = s.log.map Prod.fst ++ calls ∧ s'.Holds b' := by
    intro calls
    induction calls with
    | nil => exact fun s b h _ => ⟨s, b, rfl, by simp, h⟩
    | cons c calls ih =>
        intro s b h hok
        obtain ⟨s₁, hcall, hlog₁, b₁, h₁⟩ := h.call hok.1
        have hstep : step z (.ok s) c = .ok s₁ := hcall
        rw [run_cons, hstep]
        obtain ⟨s', b', hrun, hlog, h'⟩ := ih s₁ b₁ h₁ (hstep ▸ hok.2)
        exact ⟨s', b', hrun, by rw [hlog, hlog₁, List.append_assoc]; rfl, h'⟩
  obtain ⟨s, b, hs, hlog, h⟩ := hrun calls {} 0 Holds.init hok
  exact ⟨s, hs, hlog, h.wellPacked⟩

/-- A message in each mode, and all packets taken out: the compressed message comes last. -/
theorem packets_well_formed_fourModes :
    let z : Zlib := ⟨fun _ _ _ => none, fun source _ => source⟩
    let calls : List Call :=
      [.enqueue FrameTypeID.data [1, 2] .none, .enqueue FrameTypeID.data [3] .packet,
        .enqueue FrameTypeID.data [4] .streamCompressed,
        .enqueue FrameTypeID.data [5, 6, 7] .stream, .dequeue 0, .dequeue 0, .dequeue 0]
    Along (step z) (Manageable z) (.ok {}) calls ∧
      ∃ s, run (step z) (.ok {}) calls = .ok s ∧ s.log.map Prod.fst = calls ∧ WellPacked s := by
  intro z calls
  have hok : Along (step z) (Manageable z) (.ok {}) calls := by decide +kernel
  exact ⟨hok, packets_well_formed z calls hok⟩

end Packer

/-! ## A message too long for the offset -/

namespace Checked

variable {type : FrameTypeID} {data : Bytes}

/-- Two rounds fill an empty packet and add the next one. -/
theorem coalesceStreamLoop_fill {q : SendQueue} {fuel size : ℕ} {packet : Packet}
    (hlast : q.queue.getLast? = some packet) (hempty : packet.data = [])
    (hsize : maxPacketDataSize < size) (hle : size ≤ data.length)
    (hoffset : data.length - size < 2 ^ 31) :
    ∃ (q' : SendQueue) (packet' : Packet),
      q'.queue.getLast? = some packet' ∧ packet'.data = [] ∧
        coalesceStreamLoop type data (fuel + 2) q (BitVec.ofNat 32 (data.length - size)) size =
          coalesceStreamLoop type data fuel q'
            (BitVec.ofNat 32 (data.length - (size - maxPacketDataSize)))
            (size - maxPacketDataSize) := by
  have hlength : packet.data.length = 0 := by rw [hempty]; rfl
  have hsizes : maxPacketDataSize + maxFrameHeaderSize = maxPacketPostFrameSize := rfl
  have hpositive : 0 < maxPacketDataSize := by decide
  -- The first round writes as much as the packet can take.
  have hframe : ((data.drop (data.length - size)).take maxPacketDataSize).length =
      maxPacketDataSize := by
    rw [List.length_take, List.length_drop]
    omega
  obtain ⟨p', hqueue, hdata, _⟩ :=
    frameInto_queue (q := q) q.queue.dropLast type
      (show packet.data.length + maxFrameHeaderSize +
        ((data.drop (data.length - size)).take maxPacketDataSize).length ≤ _ by omega)
  have hfull : p'.data.length = maxPacketPostFrameSize := by
    rw [hdata, List.length_append, Frame.length_bytes]
    dsimp only
    omega
  rw [coalesceStreamLoop_of_room (by omega) hle hlast (by omega)
      (show maxPacketDataSize = _ by omega) hoffset,
    coalesceStreamLoop_of_full (by omega) (by rw [hqueue, List.getLast?_concat]) (by omega)]
  exact ⟨_, _, List.getLast?_concat .., rfl, rfl⟩

/-- The rounds up to the point where the offset has counted `n` full packets. -/
theorem coalesceStreamLoop_fills (n : ℕ) :
    ∀ {q : SendQueue} {fuel size : ℕ} {packet : Packet},
      q.queue.getLast? = some packet → packet.data = [] →
      maxPacketDataSize * n < size → size ≤ data.length →
      data.length - size + maxPacketDataSize * n < 2 ^ 31 + maxPacketDataSize →
      ∃ (q' : SendQueue) (packet' : Packet),
        q'.queue.getLast? = some packet' ∧ packet'.data = [] ∧
          coalesceStreamLoop type data (fuel + 2 * n) q (BitVec.ofNat 32 (data.length - size))
              size =
            coalesceStreamLoop type data fuel q'
              (BitVec.ofNat 32 (data.length - (size - maxPacketDataSize * n)))
              (size - maxPacketDataSize * n) := by
  induction n with
  | zero =>
      intro q fuel size packet hlast hempty _ _ _
      exact ⟨q, packet, hlast, hempty, rfl⟩
  | succ n ih =>
      intro q fuel size packet hlast hempty hsize hle hoffset
      rw [Nat.mul_succ] at hsize hoffset
      obtain ⟨q₁, packet₁, hlast₁, hempty₁, heq₁⟩ :=
        @coalesceStreamLoop_fill type data q (fuel + 2 * n) size packet hlast hempty (by omega) hle
          (by omega)
      obtain ⟨q₂, packet₂, hlast₂, hempty₂, heq₂⟩ :=
        @ih q₁ fuel (size - maxPacketDataSize) packet₁ hlast₁ hempty₁ (by omega) (by omega)
          (by omega)
      refine ⟨q₂, packet₂, hlast₂, hempty₂, ?_⟩
      rw [show fuel + 2 * (n + 1) = fuel + 2 * n + 2 by omega, heq₁, heq₂,
        show size - maxPacketDataSize - maxPacketDataSize * n =
          size - maxPacketDataSize * (n + 1) by rw [Nat.mul_succ]; omega]

/-- A round with a negative offset reads in front of the data. -/
theorem coalesceStreamLoop_of_negative {q : SendQueue} {fuel size : ℕ} {packet : Packet}
    {offset : BitVec 32} (hsize : 0 < size) (hlast : q.queue.getLast? = some packet)
    (hempty : packet.data = []) (hoffset : offset.toInt < 0) :
    coalesceStreamLoop type data (fuel + 1) q offset size = .error .outside := by
  have hroom : (0 : ℤ) <
      maxPacketPostFrameSize - (packet.data.length + maxFrameHeaderSize : ℕ) := by
    rw [hempty]
    decide
  rw [coalesceStreamLoop, if_neg (by omega), hlast]
  simp only [if_pos hroom]
  exact if_neg fun h => absurd h.1 (by omega)

/-- **A message too long for the offset.**  The offset counts full packets until it is negative;
then the loop reads in front of its data. -/
theorem coalesceStream_outside {n : ℕ} (hnegative : 2 ^ 31 ≤ maxPacketDataSize * n)
    (hn : maxPacketDataSize * n < 2 ^ 31 + maxPacketDataSize)
    (hlong : maxPacketDataSize * n < data.length) :
    coalesceStream {} type data = .error .outside := by
  have hmax : maxPacketDataSize < 2 ^ 11 := by decide
  have hone : n ≤ maxPacketDataSize * n := Nat.le_mul_of_pos_left n (by decide)
  obtain ⟨q, packet, hlast, hempty, hfills⟩ :=
    @coalesceStreamLoop_fills type data n { queue := [freshPacket {}] }
      (2 * data.length - 2 * n - 1 + 1) data.length (freshPacket {}) rfl rfl hlong le_rfl
      (by omega)
  have hoffset :
      (BitVec.ofNat 32 (data.length - (data.length - maxPacketDataSize * n))).toInt < 0 := by
    rw [BitVec.toInt_eq_toNat_cond, BitVec.toNat_ofNat, if_neg (by omega)]
    omega
  rw [coalesceStreamLoop_of_negative (by omega) hlast hempty hoffset, Nat.sub_self,
    show 2 * data.length - 2 * n - 1 + 1 + 2 * n = 2 * data.length by omega] at hfills
  exact hfills

end Checked

/-- A message of `2 ^ 31 + 881` bytes in stream mode: `Sender::send` lets it through, and the
queue reads outside of it. -/
theorem stream_outside :
    let data : Bytes := List.replicate (2 ^ 31 + 881) 0
    Admissible data .stream ∧
      Checked.enqueue {} FrameTypeID.data data .stream = .error .outside := by
  intro data
  have hsize : maxPacketDataSize * 1500688 = 2147484528 := by
    rw [show maxPacketDataSize = 1431 from rfl]
  have hmax : maxPacketDataSize = 1431 := rfl
  have hlong : maxPacketDataSize * 1500688 < data.length := by
    rw [List.length_replicate]
    omega
  have houtside := @Checked.coalesceStream_outside FrameTypeID.data data 1500688 (by omega)
    (by omega) hlong
  refine ⟨.inr (.inl rfl), ?_⟩
  rw [Checked.enqueue, if_neg (by decide), Checked.coalesce, houtside]
  rfl

end SendQueue
end MrUDP
