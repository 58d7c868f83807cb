import MrUDP.Base.CircularBuffer
import MrUDP.Proxy.Message
import MrUDP.Sender.SendQueue
import MrUDP.Stream.RoundTrip

/-!
# The wire between two proxies

`mrudp/Proxy.cpp`.  In every tick a proxy sends the messages that have gathered as one batch,
compressed if that makes it shorter, with its length in front; and it takes the batches it has
received completely out of a ring buffer.  The wire is a stream of bytes, so a batch may arrive in
any pieces.

## Main definitions

* `Proxy.frame`: the bytes of a batch.
* `Proxy.receiveLoop`: the loop of `proxy_tick` over the batches received.
* `Proxy.Inbox`: the receiving side as a machine.
* `Proxy.framing`: the batches arrive as they were sent.
* `Proxy.overflow`: unless more has gathered than the ring buffer can hold.
-/

namespace MrUDP
open Wire Machine
open Traffic (copying copying_lossless)

namespace Proxy

variable {z : Zlib}

/-! ## Sending -/

/-- The payload `proxy_tick` makes of what is to be sent. -/
def payload (z : Zlib) (compressionLevel : ℤ) (out : Bytes) : Bytes :=
  match if 0 < compressionLevel then z.compress2 out out.length compressionLevel else none with
  | some dest => 1 :: (leBytes 4 out.length ++ dest)
  | none => 0 :: out

/-- The bytes `proxy_tick` passes to `mrudp_send`, whose size is an `int`: `none` if that is
negative. -/
def frame (z : Zlib) (compressionLevel : ℤ) (out : Bytes) : Option Bytes :=
  let payload := payload z compressionLevel out
  if 4 + payload.length < 2 ^ 31 then some (leBytes 4 payload.length ++ payload) else none

/-! ## Receiving -/

/-- The rest of a batch, behind its length. -/
def readPayload (z : Zlib) (b : CircularBuffer UInt8) (payloadSize : ℕ) :
    Option (Bytes × CircularBuffer UInt8) :=
  (b.read [0]).bind fun (wasCompressed, b) =>
    let payloadSize := (payloadSize + 2 ^ 32 - 1) % 2 ^ 32
    if wasCompressed = [0] then b.read (List.replicate payloadSize 0)
    else
      (b.read (List.replicate 4 0)).bind fun (uncompressedSize, b) =>
        let payloadSize := (payloadSize + 2 ^ 32 - 4) % 2 ^ 32
        (b.read (List.replicate payloadSize 0)).map fun (source, b) =>
          (z.uncompress source (leNat uncompressedSize), b)

/-- One round of the loop of `proxy_tick`, which finds a batch or ends the loop. -/
def receiveOne (z : Zlib) (b : CircularBuffer UInt8) :
    Option (Option Bytes × CircularBuffer UInt8) :=
  if b.size_ ≤ 4 then some (none, b)
  else
    (b.peek (List.replicate 4 0)).bind fun packetSize =>
      if b.size_ < leNat packetSize + 4 then some (none, b)
      else
        (b.skip 4).bind fun b =>
          (readPayload z b (leNat packetSize)).map fun (batch, b) => (some batch, b)

/-- The loop of `proxy_tick`: the batches that `on_wire_packet` is called with.  It does not touch
the buffer. -/
def receiveLoop (z : Zlib) : ℕ → CircularBuffer UInt8 → Option (List Bytes × CircularBuffer UInt8)
  | 0, b => some ([], b)
  | fuel + 1, b =>
      (receiveOne z b).bind fun
        | (none, b) => some ([], b)
        | (some batch, b) =>
            (receiveLoop z fuel b).map fun (batches, b) => (batch :: batches, b)

/-- The receiving side: the buffer `in`, and the batches passed to `on_wire_packet`. -/
structure Inbox where
  buffer : CircularBuffer UInt8 := {}
  batches : List Bytes := []

/-- What happens to the receiving side. -/
inductive WireEvent
  /-- `proxy_receive_queue`. -/
  | chunk (data : Bytes)
  /-- `proxy_tick`. -/
  | tick

/-- Something happens, unless something went wrong before. -/
def receiveStep (z : Zlib) (s : Option Inbox) (event : WireEvent) : Option Inbox :=
  s.bind fun s =>
    match event with
    | .chunk data => (s.buffer.write (.data data)).map fun b => { s with buffer := b }
    | .tick =>
        (receiveLoop z s.buffer.size_ s.buffer).map fun (batches, b) => ⟨b, s.batches ++ batches⟩

/-- All bytes received. -/
def received : List WireEvent → Bytes
  | [] => []
  | .chunk data :: events => data ++ received events
  | .tick :: events => received events

/-! ## A batch -/

/-- The bytes of a batch. -/
structure IsFrame (z : Zlib) (bytes batch : Bytes) : Prop where
  short : bytes.length < 2 ^ 31
  layout : ∃ payload : Bytes, bytes = leBytes 4 payload.length ++ payload ∧
    (payload = 0 :: batch ∨ ∃ dest, payload = 1 :: (leBytes 4 batch.length ++ dest) ∧
      z.uncompress dest batch.length = batch ∧ batch.length < 2 ^ 32)

theorem isFrame_frame (hz : z.Lossless) {level : ℤ} {batch bytes : Bytes}
    (hbatch : batch.length < 2 ^ 31) (h : frame z level batch = some bytes) :
    IsFrame z bytes batch := by
  rw [frame] at h
  split at h
  next hshort =>
    obtain rfl := Option.some.inj h
    refine ⟨by rw [List.length_append, length_leBytes]; exact hshort, _, rfl, ?_⟩
    rw [payload]
    split
    next dest hdest =>
      refine .inr ⟨dest, rfl, ?_, by omega⟩
      split at hdest
      · exact hz.inverse _ _ _ _ hdest
      · cases hdest
    · exact .inl rfl
  · cases h

section
variable {b : CircularBuffer UInt8}

/-- Bytes at the front of the buffer are read. -/
theorem read_front (hvalid : b.Valid) {front rest data : Bytes} (hcontent : b.content = front ++ rest)
    (hlength : data.length = front.length) (hshort : front.length ≤ 2 ^ 31) :
    ∃ b', b.read data = some (front, b') ∧ b.Skips front.length b' ∧ b'.Valid ∧
      b'.content = rest := by
  have hsize : front.length + rest.length = b.size_ := by
    rw [← hvalid.length_content, hcontent, List.length_append]
  obtain ⟨b', hread, hskips⟩ :=
    @CircularBuffer.read_eq _ b hvalid data (by omega) (by omega)
  rw [hlength] at hskips hread
  rw [hcontent, List.take_left] at hread
  have hrest := hskips.content_eq hvalid
  rw [hcontent, List.drop_left] at hrest
  exact ⟨b', hread, hskips, hskips.valid hvalid, hrest⟩

/-- The payload of a batch is read. -/
theorem readPayload_eq (hvalid : b.Valid) {payload batch rest : Bytes}
    (hpayload : payload = 0 :: batch ∨ ∃ dest, payload = 1 :: (leBytes 4 batch.length ++ dest) ∧
      z.uncompress dest batch.length = batch ∧ batch.length < 2 ^ 32)
    (hcontent : b.content = payload ++ rest) (hshort : payload.length < 2 ^ 31) :
    ∃ b', readPayload z b payload.length = some (batch, b') ∧ b.Skips payload.length b' ∧
      b'.Valid ∧ b'.content = rest := by
  rw [readPayload]
  rcases hpayload with rfl | ⟨dest, rfl, huncompress, hbatch⟩
  · rw [List.length_cons] at hshort
    obtain ⟨b₁, hread₁, hskips₁, hvalid₁, hcontent₁⟩ :=
      @read_front b hvalid [0] (batch ++ rest) [0] hcontent rfl (by simp)
    rw [hread₁, Option.bind_some]
    dsimp only
    rw [if_pos rfl]
    obtain ⟨b₂, hread₂, hskips₂, hvalid₂, hcontent₂⟩ :=
      @read_front b₁ hvalid₁ batch rest
        (List.replicate (((0 :: batch).length + 2 ^ 32 - 1) % 2 ^ 32) 0) hcontent₁
        (by rw [List.length_replicate, List.length_cons]; omega) (by omega)
    refine ⟨b₂, hread₂, ?_, hvalid₂, hcontent₂⟩
    have hskips := hskips₁.trans hskips₂
    rwa [List.length_singleton, Nat.add_comm] at hskips
  · have hlength : (1 :: (leBytes 4 batch.length ++ dest)).length = 5 + dest.length := by
      rw [List.length_cons, List.length_append, length_leBytes]
      omega
    rw [hlength] at hshort ⊢
    obtain ⟨b₁, hread₁, hskips₁, hvalid₁, hcontent₁⟩ :=
      @read_front b hvalid [1] (leBytes 4 batch.length ++ (dest ++ rest)) [0]
        (by rw [hcontent]; simp) rfl (by simp)
    rw [hread₁, Option.bind_some]
    dsimp only
    rw [if_neg (by decide)]
    obtain ⟨b₂, hread₂, hskips₂, hvalid₂, hcontent₂⟩ :=
      @read_front b₁ hvalid₁ (leBytes 4 batch.length) (dest ++ rest) (List.replicate 4 0) hcontent₁
        (by simp) (by simp)
    rw [hread₂, Option.bind_some]
    dsimp only
    obtain ⟨b₃, hread₃, hskips₃, hvalid₃, hcontent₃⟩ :=
      @read_front b₂ hvalid₂ dest rest
        (List.replicate (((5 + dest.length + 2 ^ 32 - 1) % 2 ^ 32 + 2 ^ 32 - 4) % 2 ^ 32) 0)
        hcontent₂ (by rw [List.length_replicate]; omega) (by omega)
    rw [hread₃, Option.map_some]
    dsimp only
    rw [leNat_leBytes (by norm_num; omega), huncompress]
    refine ⟨b₃, rfl, ?_, hvalid₃, hcontent₃⟩
    have hskips := (hskips₁.trans hskips₂).trans hskips₃
    rwa [List.length_singleton, length_leBytes] at hskips

/-- **A complete batch is received.** -/
theorem receiveOne_complete (hvalid : b.Valid) {bytes batch rest : Bytes}
    (hframe : IsFrame z bytes batch) (hcontent : b.content = bytes ++ rest) :
    ∃ b', receiveOne z b = some (some batch, b') ∧ b.Skips bytes.length b' ∧ b'.Valid ∧
      b'.content = rest := by
  obtain ⟨hshort, payload, rfl, hpayload⟩ := hframe
  have hpositive : 0 < payload.length := by
    rcases hpayload with rfl | ⟨dest, rfl, _⟩ <;> simp
  have hsize : b.size_ = 4 + payload.length + rest.length := by
    rw [← hvalid.length_content, hcontent, List.length_append, List.length_append, length_leBytes]
  rw [List.length_append, length_leBytes] at hshort
  have hpeek : b.peek (List.replicate 4 0) = some (leBytes 4 payload.length) := by
    rw [CircularBuffer.peek_eq hvalid (by rw [List.length_replicate]; omega) (by simp),
      hcontent, List.length_replicate, List.append_assoc, List.take_left' (length_leBytes ..)]
  obtain ⟨b₁, hskip, hskips₁⟩ := @CircularBuffer.skip_eq _ b hvalid 4 (by omega)
  have hvalid₁ := hskips₁.valid hvalid
  have hcontent₁ : b₁.content = payload ++ rest := by
    rw [hskips₁.content_eq hvalid, hcontent, List.append_assoc,
      List.drop_left' (length_leBytes ..)]
  obtain ⟨b₂, hread, hskips₂, hvalid₂, hcontent₂⟩ :=
    readPayload_eq hvalid₁ hpayload hcontent₁ (by omega)
  rw [receiveOne, if_neg (by omega), hpeek, Option.bind_some, leNat_leBytes (by norm_num; omega),
    if_neg (by omega), hskip, Option.bind_some, hread]
  refine ⟨b₂, rfl, ?_, hvalid₂, hcontent₂⟩
  rw [List.length_append, length_leBytes]
  exact hskips₁.trans hskips₂

/-- **An incomplete batch is left in the buffer.** -/
theorem receiveOne_incomplete (hvalid : b.Valid) {bytes batch : Bytes}
    (hframe : IsFrame z bytes batch) (hcontent : b.content <+: bytes)
    (hlength : b.content.length < bytes.length) : receiveOne z b = some (none, b) := by
  obtain ⟨hshort, payload, rfl, hpayload⟩ := hframe
  rw [List.length_append, length_leBytes] at hshort hlength
  rw [hvalid.length_content] at hlength
  rw [receiveOne]
  split
  · rfl
  next hsize =>
    have hpeek : b.peek (List.replicate 4 0) = some (leBytes 4 payload.length) := by
      rw [CircularBuffer.peek_eq hvalid (by rw [List.length_replicate]; omega) (by simp),
        List.length_replicate]
      obtain ⟨rest, hrest⟩ := hcontent
      have htake := congrArg (List.take 4) hrest
      rw [List.take_append_of_le_length (by rw [hvalid.length_content]; omega),
        List.take_left' (length_leBytes ..)] at htake
      rw [htake]
    rw [hpeek, Option.bind_some, leNat_leBytes (by norm_num; omega), if_pos (by omega)]

end

/-! ## All batches -/

variable {b : CircularBuffer UInt8} {parts : List (Bytes × Bytes)}

theorem receiveLoop_of_none (h : receiveOne z b = some (none, b)) (fuel : ℕ) :
    receiveLoop z fuel b = some ([], b) := by
  cases fuel with
  | zero => rfl
  | succ fuel => rw [receiveLoop, h, Option.bind_some]

/-- **The loop of `proxy_tick` takes out the complete batches**, and leaves the incomplete one. -/
theorem receiveLoop_eq (hparts : ∀ p ∈ parts, IsFrame z p.1 p.2) (hvalid : b.Valid)
    (hcontent : b.content <+: (parts.map Prod.fst).flatten) {fuel : ℕ} (hfuel : b.size_ ≤ fuel) :
    ∃ k b', receiveLoop z fuel b = some ((parts.take k).map Prod.snd, b') ∧ b'.Valid ∧
      b.Skips ((parts.take k).map Prod.fst).flatten.length b' ∧
      b.content = ((parts.take k).map Prod.fst).flatten ++ b'.content ∧
      ∀ p, parts[k]? = some p → b'.content.length < p.1.length := by
  induction parts generalizing b fuel with
  | nil =>
      have hempty : b.content = [] := List.prefix_nil.mp hcontent
      have hsize : b.size_ = 0 := by rw [← hvalid.length_content, hempty, List.length_nil]
      have hnone : receiveOne z b = some (none, b) := by rw [receiveOne, if_pos (by omega)]
      exact ⟨0, b, receiveLoop_of_none hnone fuel, hvalid, .refl hvalid, rfl, by simp⟩
  | cons p parts ih =>
      have hframe := hparts p List.mem_cons_self
      rw [List.map_cons, List.flatten_cons] at hcontent
      by_cases hcomplete : p.1.length ≤ b.content.length
      · -- The first batch is complete.
        obtain ⟨rest, hrest⟩ : p.1 <+: b.content :=
          List.prefix_of_prefix_length_le (List.prefix_append ..) hcontent hcomplete
        rw [← hrest, List.prefix_append_right_inj] at hcontent
        obtain ⟨b₁, hone, hskips₁, hvalid₁, hcontent₁⟩ :=
          receiveOne_complete hvalid hframe hrest.symm
        rw [← hcontent₁] at hcontent
        have hpositive : 0 < p.1.length := by
          obtain ⟨_, payload, hp, _⟩ := hframe
          rw [hp, List.length_append, length_leBytes]
          omega
        have hle := hskips₁.le
        have hsize₁ := hskips₁.size_eq
        obtain ⟨fuel, rfl⟩ : ∃ n, fuel = n + 1 := ⟨fuel - 1, by omega⟩
        obtain ⟨k, b', hloop, hvalid', hskips', hcontent', hnext⟩ :=
          ih (fun p hp => hparts p (List.mem_cons_of_mem _ hp)) hvalid₁ hcontent
            (by omega : b₁.size_ ≤ fuel)
        refine ⟨k + 1, b', ?_, hvalid', ?_, ?_, hnext⟩
        · rw [receiveLoop, hone, Option.bind_some]
          dsimp only
          rw [hloop]
          rfl
        · rw [List.take_succ_cons, List.map_cons, List.flatten_cons, List.length_append]
          exact hskips₁.trans hskips'
        · rw [List.take_succ_cons, List.map_cons, List.flatten_cons, List.append_assoc, ← hcontent',
            hcontent₁, hrest]
      · -- It is not, so there is nothing to take out.
        have hpart : b.content <+: p.1 :=
          List.prefix_of_prefix_length_le hcontent (List.prefix_append ..) (by omega)
        have hnone := receiveOne_incomplete hvalid hframe hpart (by omega)
        refine ⟨0, b, receiveLoop_of_none hnone fuel, hvalid, .refl hvalid, rfl, ?_⟩
        intro q hq
        obtain rfl : p = q := Option.some.inj hq
        omega

/-! ## Runs -/

theorem received_append (events events' : List WireEvent) :
    received (events ++ events') = received events ++ received events' := by
  induction events with
  | nil => rfl
  | cons event events ih =>
      cases event with
      | chunk data => rw [List.cons_append, received, received, ih, List.append_assoc]
      | tick => rw [List.cons_append, received, received, ih]

/-- A chunk fits into the ring buffer. -/
def ChunkFits (s : Option Inbox) : WireEvent → Prop
  | .chunk data => ∀ s' ∈ s, CircularBuffer.FitsWrite s'.buffer data.length
  | .tick => True

instance (s : Option Inbox) : DecidablePred (ChunkFits s)
  | .chunk data =>
      inferInstanceAs (Decidable (∀ s' ∈ s, CircularBuffer.FitsWrite s'.buffer data.length))
  | .tick => .isTrue trivial

/-- What has arrived: the first `k` batches have been passed on, and the rest is in the buffer. -/
structure Holds (parts : List (Bytes × Bytes)) (arrived : Bytes) (s : Inbox) (k : ℕ) : Prop where
  valid : s.buffer.Valid
  batches : s.batches = (parts.take k).map Prod.snd
  content : arrived = ((parts.take k).map Prod.fst).flatten ++ s.buffer.content

/-- The rest of what was sent begins with what is in the buffer. -/
theorem Holds.content_of_sent {arrived : Bytes} {s : Inbox} {k : ℕ} (h : Holds parts arrived s k)
    (hsent : arrived <+: (parts.map Prod.fst).flatten) :
    s.buffer.content <+: ((parts.drop k).map Prod.fst).flatten := by
  have hsplit : (parts.map Prod.fst).flatten = ((parts.take k).map Prod.fst).flatten ++
      ((parts.drop k).map Prod.fst).flatten := by
    rw [← List.flatten_append, ← List.map_append, List.take_append_drop]
  rw [hsplit, h.content] at hsent
  exact (List.prefix_append_right_inj _).mp hsent

theorem Holds.chunk {arrived : Bytes} {s : Inbox} {k : ℕ} (h : Holds parts arrived s k)
    {data : Bytes} (hfits : CircularBuffer.FitsWrite s.buffer data.length) :
    ∃ s', receiveStep z (some s) (.chunk data) = some s' ∧ Holds parts (arrived ++ data) s' k ∧
      s'.buffer.begin_ = s.buffer.begin_ ∧ s'.buffer.size_ = s.buffer.size_ + data.length ∧
      s'.buffer.buffer.length =
        if s.buffer.buffer.length - s.buffer.size_ ≤ data.length
          then s.buffer.buffer.length + data.length else s.buffer.buffer.length := by
  obtain ⟨b', hwrite, hvalid, hbegin, hsize, hlength, hcontent⟩ :=
    @CircularBuffer.write_eq _ s.buffer _ (.data data) h.valid (by simp) hfits
  rw [h.valid.available_eq] at hlength
  rw [receiveStep, Option.bind_some]
  dsimp only
  rw [hwrite]
  refine ⟨_, rfl, ⟨hvalid, h.batches, ?_⟩, hbegin, hsize, hlength⟩
  rw [h.content, hcontent, List.append_assoc]
  rfl

theorem Holds.tick (hparts : ∀ p ∈ parts, IsFrame z p.1 p.2) {arrived : Bytes} {s : Inbox} {k : ℕ}
    (h : Holds parts arrived s k) (hsent : arrived <+: (parts.map Prod.fst).flatten) :
    ∃ s' k', receiveStep z (some s) .tick = some s' ∧ Holds parts arrived s' k' ∧
      s.buffer.Skips (s.buffer.size_ - s'.buffer.size_) s'.buffer ∧
      ∀ p, parts[k']? = some p → s'.buffer.content.length < p.1.length := by
  obtain ⟨m, b', hloop, hvalid, hskips, hcontent, hnext⟩ :=
    receiveLoop_eq (fun p hp => hparts p (List.mem_of_mem_drop hp)) h.valid
      (h.content_of_sent hsent) le_rfl
  have htake : parts.take (k + m) = parts.take k ++ (parts.drop k).take m := List.take_add
  rw [receiveStep, Option.bind_some]
  dsimp only
  rw [hloop]
  refine ⟨_, k + m, rfl, ⟨hvalid, ?_, ?_⟩, ?_, ?_⟩
  · rw [htake, List.map_append, ← h.batches]
  · rw [htake, List.map_append, List.flatten_append, List.append_assoc, ← hcontent, ← h.content]
  · have hle := hskips.le
    have hsize := hskips.size_eq
    dsimp only
    rwa [hsize, Nat.sub_sub_self hle]
  · rwa [List.getElem?_drop] at hnext

/-- In every run what has arrived is passed on in order, and after a tick the rest is less than a
batch. -/
theorem holds_run (hparts : ∀ p ∈ parts, IsFrame z p.1 p.2) (events : List WireEvent)
    (hreceived : received events <+: (parts.map Prod.fst).flatten)
    (hfits : Along (receiveStep z) ChunkFits (some {}) events) :
    ∃ s k, run (receiveStep z) (some {}) events = some s ∧ Holds parts (received events) s k ∧
      (events.getLast? = some .tick →
        ∀ p, parts[k]? = some p → s.buffer.content.length < p.1.length) := by
  induction events using List.reverseRecOn with
  | nil =>
      exact ⟨{}, 0, rfl, ⟨CircularBuffer.valid_empty, rfl, rfl⟩, by simp⟩
  | append_singleton events event ih =>
      rw [received_append] at hreceived
      rw [along_append] at hfits
      obtain ⟨s, k, hrun, hholds, _⟩ := ih ((List.prefix_append ..).trans hreceived) hfits.1
      rw [hrun] at hfits
      obtain ⟨-, hevent, -⟩ := hfits
      rw [run_append, hrun, run_cons, run_nil, List.getLast?_concat, received_append]
      cases event with
      | chunk data =>
          obtain ⟨s', hstep, hholds', _⟩ := @Holds.chunk z _ _ _ _ hholds data (hevent s rfl)
          rw [received, received, List.append_nil]
          exact ⟨s', k, hstep, hholds', by simp⟩
      | tick =>
          rw [received, received, List.append_nil] at hreceived ⊢
          obtain ⟨s', k', hstep, hholds', _, hnext⟩ := hholds.tick hparts hreceived
          exact ⟨s', k', hstep, hholds', fun _ => hnext⟩

/-- **The batches arrive as they were sent**, each once and in order, however the bytes are cut
into chunks and whenever a tick happens; and after a tick there is only an incomplete batch left in
the buffer. -/
theorem framing (hz : z.Lossless) (sent : List (ℤ × Bytes)) (frames : List Bytes)
    (hbatch : ∀ s ∈ sent, s.2.length < 2 ^ 31)
    (hframes : List.Forall₂ (fun s bytes => frame z s.1 s.2 = some bytes) sent frames)
    (events : List WireEvent) (hreceived : received events <+: frames.flatten)
    (hfits : Along (receiveStep z) ChunkFits (some {}) events) :
    ∃ s k, run (receiveStep z) (some {}) events = some s ∧
      s.batches = (sent.take k).map Prod.snd ∧
      received events = (frames.take k).flatten ++ s.buffer.content ∧
      (events.getLast? = some .tick →
        ∀ bytes, frames[k]? = some bytes → s.buffer.content.length < bytes.length) := by
  have hlength := hframes.length_eq
  let parts := frames.zip (sent.map Prod.snd)
  have hfst : parts.map Prod.fst = frames := List.map_fst_zip (by simp [hlength])
  have hsnd : parts.map Prod.snd = sent.map Prod.snd := List.map_snd_zip (by simp [hlength])
  have hparts : ∀ p ∈ parts, IsFrame z p.1 p.2 := by
    intro p hp
    obtain ⟨i, hi, rfl⟩ := List.getElem_of_mem hp
    have hi' : i < sent.length := by
      simp only [parts, List.length_zip, List.length_map] at hi
      omega
    have hframe := hframes.get hi' (by omega)
    simp only [parts, List.getElem_zip, List.getElem_map]
    exact isFrame_frame hz (hbatch _ (List.getElem_mem hi')) hframe
  obtain ⟨s, k, hrun, hholds, hnext⟩ := holds_run hparts events (by rwa [hfst]) hfits
  refine ⟨s, k, hrun, ?_, ?_, ?_⟩
  · rw [hholds.batches, List.map_take, hsnd, List.map_take]
  · have hcontent := hholds.content
    rwa [List.map_take, hfst] at hcontent
  · intro hlast bytes hbytes
    rw [← hfst, List.getElem?_map, Option.map_eq_some_iff] at hbytes
    obtain ⟨p, hp, rfl⟩ := hbytes
    exact hnext hlast p hp

/-- A compressed and a stored batch, in pieces that end inside of a length. -/
theorem framing_cut :
    ∃ s k, run (receiveStep copying) (some {})
        [.chunk [8, 0], .tick, .chunk [0, 0, 1, 3, 0, 0, 0, 7, 7, 7, 3], .tick,
          .chunk [0, 0, 0, 0, 5], .tick] = some s ∧
      s.batches = (([(1, [7, 7, 7]), (0, [5, 6])] : List (ℤ × Bytes)).take k).map Prod.snd ∧
      received [.chunk [8, 0], .tick, .chunk [0, 0, 1, 3, 0, 0, 0, 7, 7, 7, 3], .tick,
          .chunk [0, 0, 0, 0, 5], .tick] =
        ([[8, 0, 0, 0, 1, 3, 0, 0, 0, 7, 7, 7], [3, 0, 0, 0, 0, 5, 6]].take k).flatten ++
          s.buffer.content ∧
      (([.chunk [8, 0], .tick, .chunk [0, 0, 1, 3, 0, 0, 0, 7, 7, 7, 3], .tick,
          .chunk [0, 0, 0, 0, 5], .tick] : List WireEvent).getLast? = some .tick →
        ∀ bytes, ([[8, 0, 0, 0, 1, 3, 0, 0, 0, 7, 7, 7], [3, 0, 0, 0, 0, 5, 6]] :
          List Bytes)[k]? = some bytes → s.buffer.content.length < bytes.length) :=
  framing copying_lossless _ _ (by decide)
    (.cons (by decide +kernel) (.cons (by decide +kernel) .nil)) _ (by decide +kernel)
    (by decide +kernel)

/-! ## More than the ring buffer can hold -/

/-- A batch of which three fill the ring buffer but for one byte. -/
@[irreducible] def largeBatch : Bytes := List.replicate 1431655760 0

theorem length_largeBatch : largeBatch.length = 1431655760 := by
  rw [largeBatch, List.length_replicate]

/-- Its bytes. -/
def largeFrame : Bytes := leBytes 4 1431655761 ++ 0 :: largeBatch

theorem length_largeFrame : largeFrame.length = 1431655765 := by
  rw [largeFrame, List.length_append, length_leBytes, List.length_cons, length_largeBatch]

theorem frame_largeBatch : frame copying 0 largeBatch = some largeFrame := by
  have hlength : (payload copying 0 largeBatch).length = 1431655761 := by
    rw [payload, if_neg (lt_irrefl 0), List.length_cons, length_largeBatch]
  rw [frame, hlength, if_pos (by norm_num), payload, if_neg (lt_irrefl 0), largeFrame]

/-- Seven of them. -/
def stream : Bytes := (List.replicate 7 largeFrame).flatten

/-- A piece of the stream. -/
def piece (from_ size : ℕ) : Bytes := (stream.drop from_).take size

theorem length_stream : stream.length = 7 * 1431655765 := by
  rw [stream, List.length_flatten, List.map_replicate, List.sum_replicate, length_largeFrame,
    smul_eq_mul]

theorem length_piece {from_ size : ℕ} (h : from_ + size ≤ 7 * 1431655765) :
    (piece from_ size).length = size := by
  rw [piece, List.length_take, List.length_drop, length_stream]
  omega

theorem take_append_piece (from_ size : ℕ) :
    stream.take from_ ++ piece from_ size = stream.take (from_ + size) := List.take_add.symm

/-- Three batches and a byte of the next. -/
def filling : List WireEvent :=
  [.chunk (piece 0 (2 ^ 31 - 1)), .chunk (piece (2 ^ 31 - 1) (2 ^ 31 - 1)),
    .chunk (piece (2 ^ 32 - 2) 2)]

/-- After a tick nearly as much arrives again. -/
def gathering : List WireEvent :=
  [.tick, .chunk (piece (2 ^ 32) (2 ^ 31 - 1)), .chunk (piece (2 ^ 32 + 2 ^ 31 - 1) (2 ^ 31 - 2))]

/-- The batches and their bytes. -/
def largeParts : List (Bytes × Bytes) := List.replicate 7 (largeFrame, largeBatch)

theorem isFrame_of_mem_largeParts : ∀ p ∈ largeParts, IsFrame copying p.1 p.2 := by
  intro p hp
  rw [List.eq_of_mem_replicate hp]
  exact isFrame_frame copying_lossless (by rw [length_largeBatch]; norm_num) frame_largeBatch

theorem flatten_largeParts : (largeParts.map Prod.fst).flatten = stream := by
  rw [largeParts, List.map_replicate, stream]

theorem length_take_largeParts (k : ℕ) :
    ((largeParts.take k).map Prod.fst).flatten.length = min k 7 * 1431655765 := by
  rw [largeParts, List.take_replicate, List.map_replicate, List.length_flatten, List.map_replicate,
    List.sum_replicate, length_largeFrame, smul_eq_mul]

/-- Three chunks fill the ring buffer. -/
theorem exists_filling : ∃ s, run (receiveStep copying) (some {}) filling = some s ∧
    Holds largeParts (stream.take (2 ^ 32)) s 0 ∧ s.buffer.buffer.length = 2 ^ 32 ∧
    s.buffer.begin_ = 0 ∧ s.buffer.size_ = 2 ^ 32 := by
  have hlength₁ : (piece 0 (2 ^ 31 - 1)).length = 2 ^ 31 - 1 := length_piece (by norm_num)
  have hlength₂ : (piece (2 ^ 31 - 1) (2 ^ 31 - 1)).length = 2 ^ 31 - 1 :=
    length_piece (by norm_num)
  have hlength₃ : (piece (2 ^ 32 - 2) 2).length = 2 := length_piece (by norm_num)
  have hholds : Holds largeParts [] {} 0 := ⟨CircularBuffer.valid_empty, rfl, rfl⟩
  obtain ⟨s₁, hstep₁, hholds₁, hbegin₁, hsize₁, hbuffer₁⟩ :=
    @Holds.chunk copying _ _ _ _ hholds (piece 0 (2 ^ 31 - 1))
      (by rw [hlength₁]; exact ⟨by norm_num, by norm_num, fun _ _ => by norm_num⟩)
  rw [hlength₁] at hsize₁ hbuffer₁
  dsimp only [List.length_nil] at hbegin₁ hsize₁ hbuffer₁
  rw [if_pos (by norm_num)] at hbuffer₁
  have hend₁ := hholds₁.valid.end_eq
  rw [hbuffer₁] at hend₁
  obtain ⟨s₂, hstep₂, hholds₂, hbegin₂, hsize₂, hbuffer₂⟩ :=
    @Holds.chunk copying _ _ _ _ hholds₁ (piece (2 ^ 31 - 1) (2 ^ 31 - 1))
      (by rw [hlength₂]; exact ⟨by norm_num, by omega, fun _ _ => by omega⟩)
  rw [hlength₂] at hsize₂ hbuffer₂
  rw [if_pos (by omega)] at hbuffer₂
  have hend₂ := hholds₂.valid.end_eq
  rw [hbuffer₂] at hend₂
  obtain ⟨s₃, hstep₃, hholds₃, hbegin₃, hsize₃, hbuffer₃⟩ :=
    @Holds.chunk copying _ _ _ _ hholds₂ (piece (2 ^ 32 - 2) 2)
      (by rw [hlength₃]; exact ⟨by norm_num, by omega, fun _ _ => by omega⟩)
  rw [hlength₃] at hsize₃ hbuffer₃
  rw [if_pos (by omega)] at hbuffer₃
  have harrived : [] ++ piece 0 (2 ^ 31 - 1) ++ piece (2 ^ 31 - 1) (2 ^ 31 - 1) ++
      piece (2 ^ 32 - 2) 2 = stream.take (2 ^ 32) := by
    have h₁ := take_append_piece 0 (2 ^ 31 - 1)
    have h₂ := take_append_piece (2 ^ 31 - 1) (2 ^ 31 - 1)
    have h₃ := take_append_piece (2 ^ 32 - 2) 2
    norm_num at h₁ h₂ h₃ ⊢
    rw [h₁, ← List.append_assoc, h₂, h₃]
  rw [harrived] at hholds₃
  refine ⟨s₃, ?_, hholds₃, by omega, by omega, by omega⟩
  rw [filling, run_cons, hstep₁, run_cons, hstep₂, run_cons, hstep₃, run_nil]

/-- What is in the ring buffer later lies around its end, nearly all of it at the beginning. -/
theorem exists_gathering :
    ∃ s, run (receiveStep copying) (some {}) (filling ++ gathering) = some s ∧
      s.buffer.buffer.length = 2 ^ 32 ∧ s.buffer.begin_ = 2 ^ 32 - 1 ∧
      s.buffer.end_ = 2 ^ 32 - 3 ∧ s.buffer.size_ = 2 ^ 32 - 2 := by
  obtain ⟨s₃, hrun, hholds₃, hbuffer₃, hbegin₃, hsize₃⟩ := exists_filling
  have hlength₅ : (piece (2 ^ 32) (2 ^ 31 - 1)).length = 2 ^ 31 - 1 := length_piece (by norm_num)
  have hlength₆ : (piece (2 ^ 32 + 2 ^ 31 - 1) (2 ^ 31 - 2)).length = 2 ^ 31 - 2 :=
    length_piece (by norm_num)
  -- The tick leaves one byte, the last of the buffer.
  obtain ⟨s₄, k, hstep₄, hholds₄, hskips, hnext⟩ :=
    hholds₃.tick isFrame_of_mem_largeParts (by rw [flatten_largeParts]; exact List.take_prefix ..)
  have hsize₄ : s₄.buffer.size_ = 1 := by
    have hlength := congrArg List.length hholds₄.content
    rw [List.length_append, length_take_largeParts, hholds₄.valid.length_content,
      List.length_take, length_stream] at hlength
    have hlt : k < 7 := by omega
    have hrest := hnext (largeFrame, largeBatch) (by rw [largeParts, List.getElem?_replicate_of_lt hlt])
    rw [hholds₄.valid.length_content, length_largeFrame] at hrest
    omega
  obtain ⟨_, hbuffer₄, hbegin₄, _, _⟩ := hskips
  rw [hbuffer₃, hbegin₃, hsize₃, hsize₄] at hbegin₄
  have hend₄ := hholds₄.valid.end_eq
  rw [hbuffer₄, hbuffer₃] at hend₄
  obtain ⟨s₅, hstep₅, hholds₅, hbegin₅, hsize₅, hbuffer₅⟩ :=
    @Holds.chunk copying _ _ _ _ hholds₄ (piece (2 ^ 32) (2 ^ 31 - 1))
      (by rw [hlength₅]; exact ⟨by norm_num, by rw [hbuffer₄]; omega, fun _ _ => by omega⟩)
  rw [hlength₅] at hsize₅ hbuffer₅
  rw [hbuffer₄, hbuffer₃, if_neg (by omega)] at hbuffer₅
  have hend₅ := hholds₅.valid.end_eq
  rw [hbuffer₅] at hend₅
  obtain ⟨s₆, hstep₆, hholds₆, hbegin₆, hsize₆, hbuffer₆⟩ :=
    @Holds.chunk copying _ _ _ _ hholds₅ (piece (2 ^ 32 + 2 ^ 31 - 1) (2 ^ 31 - 2))
      (by rw [hlength₆]; exact ⟨by norm_num, by omega, fun _ _ => by omega⟩)
  rw [hlength₆] at hsize₆ hbuffer₆
  rw [hbuffer₅, if_neg (by omega)] at hbuffer₆
  have hend₆ := hholds₆.valid.end_eq
  rw [hbuffer₆] at hend₆
  refine ⟨s₆, ?_, by omega, by omega, by omega, by omega⟩
  rw [run_append, hrun, gathering, run_cons, hstep₄, run_cons, hstep₅, run_cons, hstep₆, run_nil]

open CircularBuffer in
/-- What lies at the beginning of a buffer is not moved if it is more than an `int` can count. -/
theorem writeWithin_self_eq_none (hlength : b.buffer.length = 2 ^ 32 + 2)
    (hbegin : b.begin_ = 2 ^ 32 - 1) (hsize : b.size_ = 1) :
    writeWithin 1 b (.self (2 ^ 32 - 3)) = none := by
  have hroom : ¬ b.available ≤ 2 ^ 32 - 3 := by
    rw [available, hlength, hsize]
    decide
  have hgrow : b.grow (writeWithin 0) (.self (2 ^ 32 - 3)) =
      some { b with size_ := addSize b.size_ (2 ^ 32 - 3) } := by
    rw [grow, Source.size, if_neg (by norm_num), if_neg hroom, Option.map_some]
  have hsegments : (segments { b with size_ := addSize b.size_ (2 ^ 32 - 3) }
      (addSize b.begin_ b.size_) (2 ^ 32 - 3)).1 = ⟨2 ^ 32, 0, 2 ^ 32 + 2⟩ := by
    rw [segments, hlength, hbegin, hsize]
    rfl
  rw [writeWithin, hgrow, Option.bind_some, Source.size]
  dsimp only
  rw [hsegments, copy, if_neg (by norm_num), if_neg (by rw [hlength]; norm_num), Option.bind_none]

open CircularBuffer in
/-- Two more bytes make the buffer grow, and that moves what lies at its beginning. -/
theorem write_eq_none (hlength : b.buffer.length = 2 ^ 32) (hbegin : b.begin_ = 2 ^ 32 - 1)
    (hend : b.end_ = 2 ^ 32 - 3) (hsize : b.size_ = 2 ^ 32 - 2) {data : Bytes}
    (hdata : data.length = 2) : b.write (.data data) = none := by
  have hfull : b.available ≤ data.length := by
    rw [available, hlength, hsize, hdata]
    decide
  have hresize : b.resize (.data data) =
      some { b with buffer := b.buffer ++ List.replicate data.length 0 } := by
    rw [resize, Source.size, if_pos (by rw [hlength, hdata]; norm_num)]
  have hrelocate : relocate (writeWithin 1)
      { b with buffer := b.buffer ++ List.replicate data.length 0 } b.buffer.length = none := by
    rw [relocate, if_pos (by dsimp only; omega)]
    dsimp only
    rw [if_pos (by omega), hend]
    refine writeWithin_self_eq_none ?_ hbegin ?_
    · dsimp only
      rw [List.length_append, List.length_replicate, hlength, hdata]
    · dsimp only
      rw [hsize]
      rfl
  rw [write, writeWithin, grow, Source.size, if_neg (by omega), if_pos hfull, hresize,
    Option.bind_some, hrelocate, Option.map_none, Option.bind_none]

theorem received_gathering :
    received (filling ++ gathering ++ [.chunk (piece (2 ^ 33 - 3) 2)]) =
      stream.take (2 ^ 33 - 1) := by
  have h₁ := take_append_piece 0 (2 ^ 31 - 1)
  have h₂ := take_append_piece (2 ^ 31 - 1) (2 ^ 31 - 1)
  have h₃ := take_append_piece (2 ^ 32 - 2) 2
  have h₅ := take_append_piece (2 ^ 32) (2 ^ 31 - 1)
  have h₆ := take_append_piece (2 ^ 32 + 2 ^ 31 - 1) (2 ^ 31 - 2)
  have h₇ := take_append_piece (2 ^ 33 - 3) 2
  simp only [filling, gathering, List.cons_append, List.nil_append, received, List.append_nil]
  norm_num at h₁ h₂ h₃ h₅ h₆ h₇ ⊢
  rw [← h₇, ← h₆, ← h₅, ← h₃, ← h₂, ← h₁]
  simp only [List.append_assoc]

/-- **When more has gathered than the ring buffer can hold, a chunk is not received**, although all
chunks are pieces of what was sent. -/
theorem overflow :
    largeBatch.length < 2 ^ 31 ∧ frame copying 0 largeBatch = some largeFrame ∧
      received (filling ++ gathering ++ [.chunk (piece (2 ^ 33 - 3) 2)]) <+:
        (List.replicate 7 largeFrame).flatten ∧
      run (receiveStep copying) (some {}) (filling ++ gathering ++ [.chunk (piece (2 ^ 33 - 3) 2)]) =
        none := by
  refine ⟨by rw [length_largeBatch]; norm_num, frame_largeBatch, ?_, ?_⟩
  · rw [received_gathering]
    exact List.take_prefix ..
  · obtain ⟨s, hrun, hlength, hbegin, hend, hsize⟩ := exists_gathering
    rw [run_append, hrun, run_cons, run_nil, receiveStep, Option.bind_some]
    dsimp only
    rw [write_eq_none hlength hbegin hend hsize (length_piece (by norm_num))]
    rfl

end Proxy
end MrUDP
