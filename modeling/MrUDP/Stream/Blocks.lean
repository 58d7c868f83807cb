import MrUDP.Stream.Traffic

/-!
# Compressed blocks with arbitrary contents

`Receiver::processCompressed` and `Receiver::processCompressedSubframes` of
`mrudp/receiver/Receiver.cpp`, on `DATA_COMPRESSED` frames with any contents.  The two are
modelled once more with every read checked against the buffer it is made from, and every size
against becoming negative; where nothing goes wrong they are the functions of
`MrUDP.Receiver.Receiver`.

The length of a block is checked against its announced size, but not against the size of its
own fields, and a subframe is read without asking whether its header is there.

## Main definitions

* `Checked.processCompressed`: the function of the source, with its reads checked.
* `WholeSubframes`: the bytes on which the loop over the subframes is safe.
* `WholeBlock`: the buffers on which the whole function is.
-/

namespace MrUDP
open Wire Machine

/-- How the parsing of a block can go wrong: a read outside of the buffer, or a size that is
negative. -/
inductive BlockFault
  | outside
  | negative
  deriving DecidableEq, Repr

namespace Checked

/-- The loop of `Receiver::processCompressedSubframes`: `mem` is the buffer from `p` on, and
`size` what is left up to `end`. -/
def processCompressedSubframesLoop : ℕ → Bytes → ℤ → Except BlockFault (List Bytes)
  | 0, _, size => if size ≤ 0 then .ok [] else .error .outside
  | fuel + 1, mem, size =>
      if size ≤ 0 then .ok []
      else if mem.length < 5 then .error .outside
      else
        let frameSize := leNat ((mem.drop 1).take 4)
        let size := size - 5
        if size < 0 then .error .negative
        else if (size % 2 ^ 32).toNat < frameSize then .ok []
        else
          let body := mem.drop 5
          if body.length < frameSize then .error .outside
          else
            (processCompressedSubframesLoop fuel (body.drop frameSize) (size - frameSize)).map
              (body.take frameSize :: ·)

/-- `Receiver::processCompressedSubframes`.  The size is passed as an `int`. -/
def processCompressedSubframes (mem : Bytes) : Except BlockFault (List Bytes) :=
  let size := (BitVec.ofNat 32 mem.length).toInt
  if size < 0 then .error .negative else processCompressedSubframesLoop mem.length mem size

/-- `Receiver::processCompressed`: the messages passed on, and `compressionBuffers[0]`
afterwards. -/
def processCompressed (z : Zlib) (buffer : Bytes) (frame : Frame) :
    Except BlockFault (List Bytes × Bytes) :=
  let compressed := buffer ++ frame.data
  if compressed.length < 4 then .ok ([], compressed)
  else
    let bufferSize := leNat (compressed.take 4)
    if compressed.length < bufferSize then .ok ([], compressed)
    else if compressed.length < 5 then .error .outside
    else
      let wasCompressed := compressed.getD 4 0
      let body := compressed.drop 5
      if wasCompressed = 0 then
        (processCompressedSubframes body).map fun messages => (messages, [])
      else if body.length < 4 then .error .outside
      else
        let uncompressedSize := leNat (body.take 4)
        let uncompressed := z.uncompress (body.drop 4) uncompressedSize
        if uncompressedSize < uncompressed.length then .error .outside
        else (processCompressedSubframes uncompressed).map fun messages => (messages, [])

end Checked

/-! ## Whole subframes -/

/-- Whole subframes, and behind them nothing, or the whole header of a subframe that announces
more than is left. -/
def WholeSubframes (mem : Bytes) : Prop :=
  ∃ (ms : List (FrameTypeID × Bytes)) (tail : Bytes),
    mem = subframes ms ++ tail ∧ (∀ m ∈ ms, m.2.length < 2 ^ 32) ∧
      (tail = [] ∨ 5 ≤ tail.length ∧ tail.length - 5 < leNat ((tail.drop 1).take 4))

section
variable {type : FrameTypeID} {data tail mem : Bytes}

/-- Bytes that hold what their header announces start with a subframe. -/
theorem eq_subframe (hheader : 5 ≤ mem.length)
    (hle : leNat ((mem.drop 1).take 4) ≤ mem.length - 5) :
    ∃ type, mem = SendQueue.subframe type ((mem.drop 5).take (leNat ((mem.drop 1).take 4))) ++
      (mem.drop 5).drop (leNat ((mem.drop 1).take 4)) := by
  match mem, hheader, hle with
  | t :: s₀ :: s₁ :: s₂ :: s₃ :: body, _, hle =>
      have hbytes : leBytes 4 (leNat [s₀, s₁, s₂, s₃]) = [s₀, s₁, s₂, s₃] :=
        leBytes_leNat [s₀, s₁, s₂, s₃]
      simp only [List.drop_succ_cons, List.drop_zero, List.take_succ_cons, List.take_zero,
        List.length_cons] at hle ⊢
      refine ⟨t, ?_⟩
      rw [SendQueue.subframe, List.length_take, min_eq_left (by omega), hbytes, List.append_assoc,
        List.take_append_drop]
      rfl

theorem wholeSubframes_nil : WholeSubframes [] := ⟨[], [], rfl, by simp, .inl rfl⟩

/-- One to four bytes are no whole subframes. -/
theorem not_wholeSubframes_short (hne : mem ≠ []) (hlt : mem.length < 5) :
    ¬ WholeSubframes mem := by
  rintro ⟨ms, tail, rfl, _, hend⟩
  cases ms with
  | nil =>
      rcases hend with rfl | ⟨hle, _⟩
      · exact hne rfl
      · exact absurd (hle.trans_lt hlt) (by simp)
  | cons m ms =>
      rw [subframes_cons, List.append_assoc, List.length_append, length_subframe] at hlt
      omega

/-- A subframe in front does not matter. -/
theorem wholeSubframes_append_iff (hdata : data.length < 2 ^ 32) :
    WholeSubframes (SendQueue.subframe type data ++ tail) ↔ WholeSubframes tail := by
  constructor
  · rintro ⟨ms, end_, heq, hsizes, hend⟩
    have hframe := @frameSize_subframe type data tail hdata
    cases ms with
    | nil =>
        have heq : SendQueue.subframe type data ++ tail = end_ := heq
        rw [← heq] at hend
        rcases hend with hnil | ⟨_, hlt⟩
        · have hlength := congrArg List.length hnil
          rw [List.length_append, length_subframe, List.length_nil] at hlength
          omega
        · rw [hframe, List.length_append, length_subframe] at hlt
          omega
    | cons m ms =>
        rw [subframes_cons, List.append_assoc] at heq
        have hframe' := @frameSize_subframe m.1 m.2 (subframes ms ++ end_) (hsizes m (by simp))
        rw [← heq, hframe] at hframe'
        have hdrop := congrArg (List.drop 5) heq
        rw [drop_subframe, drop_subframe] at hdrop
        obtain ⟨_, htail⟩ := List.append_inj hdrop hframe'
        exact ⟨ms, end_, htail, fun e he => hsizes e (by simp [he]), hend⟩
  · rintro ⟨ms, end_, rfl, hsizes, hend⟩
    refine ⟨(type, data) :: ms, end_, ?_, ?_, hend⟩
    · rw [subframes_cons, List.append_assoc]
    · intro m hm
      rcases List.mem_cons.mp hm with rfl | hm
      · exact hdata
      · exact hsizes m hm

end

/-! ## The loop over the subframes -/

/-- A round of the loop that finds a whole header. -/
theorem processCompressedSubframesLoop_of_header (fuel : ℕ) {mem : Bytes}
    (hheader : 5 ≤ mem.length) (hsmall : mem.length < 2 ^ 31) :
    processCompressedSubframesLoop (fuel + 1) mem =
      if mem.length - 5 < leNat ((mem.drop 1).take 4) then []
      else
        (mem.drop 5).take (leNat ((mem.drop 1).take 4)) ::
          processCompressedSubframesLoop fuel
            ((mem.drop 5).drop (leNat ((mem.drop 1).take 4))) := by
  have hmod : (((mem.length : ℤ) - 5) % 2 ^ 32).toNat = mem.length - 5 := by
    rw [Int.emod_eq_of_lt (by omega) (by omega)]
    omega
  rw [processCompressedSubframesLoop, if_neg (List.ne_nil_of_length_pos (by omega))]
  dsimp only
  rw [hmod]

namespace Checked

/-- The same round with its reads checked: what the header announces is within the buffer. -/
theorem processCompressedSubframesLoop_of_header (fuel : ℕ) {mem : Bytes} {size : ℕ}
    (hheader : 5 ≤ size) (hle : size ≤ mem.length) (hsmall : size < 2 ^ 31) :
    processCompressedSubframesLoop (fuel + 1) mem size =
      if size - 5 < leNat ((mem.drop 1).take 4) then .ok []
      else
        (processCompressedSubframesLoop fuel ((mem.drop 5).drop (leNat ((mem.drop 1).take 4)))
          (size - 5 - leNat ((mem.drop 1).take 4) : ℕ)).map
            ((mem.drop 5).take (leNat ((mem.drop 1).take 4)) :: ·) := by
  have hmod : (((size : ℤ) - 5) % 2 ^ 32).toNat = size - 5 := by
    rw [Int.emod_eq_of_lt (by omega) (by omega)]
    omega
  rw [processCompressedSubframesLoop, if_neg (by omega), if_neg (by omega)]
  dsimp only
  rw [if_neg (by omega), hmod]
  split
  · rfl
  next hfits =>
    rw [if_neg (by rw [List.length_drop]; omega), Nat.cast_sub (by omega), Nat.cast_sub hheader]
    rfl

/-- **The loop over the subframes is safe exactly on whole subframes**, and then passes on what
the loop without the checks does. -/
theorem processCompressedSubframesLoop_spec :
    ∀ (fuel : ℕ) (mem : Bytes) (size : ℕ), mem.length ≤ fuel → size ≤ mem.length → size < 2 ^ 31 →
      (WholeSubframes (mem.take size) →
        processCompressedSubframesLoop fuel mem size =
          .ok (MrUDP.processCompressedSubframesLoop fuel (mem.take size))) ∧
      (¬ WholeSubframes (mem.take size) →
        ∃ fault, processCompressedSubframesLoop fuel mem size = .error fault) := by
  intro fuel
  induction fuel with
  | zero =>
      intro mem size hfuel hsize _
      have hzero : size = 0 := by omega
      subst hzero
      exact ⟨fun _ => rfl, fun hnot => absurd wholeSubframes_nil hnot⟩
  | succ fuel ih =>
      intro mem size hfuel hle hsmall
      have htake : (mem.take size).length = size := by
        rw [List.length_take]
        omega
      by_cases hzero : size = 0
      · subst hzero
        exact ⟨fun _ => rfl, fun hnot => absurd wholeSubframes_nil hnot⟩
      by_cases hshort : size < 5
      · -- The header of the subframe is not there.
        have hnot : ¬ WholeSubframes (mem.take size) :=
          not_wholeSubframes_short (List.ne_nil_of_length_pos (by omega)) (by omega)
        refine ⟨fun h => absurd h hnot, fun _ => ?_⟩
        rw [processCompressedSubframesLoop, if_neg (by omega)]
        split
        · exact ⟨_, rfl⟩
        · exact ⟨_, if_pos (by omega)⟩
      -- The header is there; what it announces is, or is not.
      have hfield : ((mem.take size).drop 1).take 4 = (mem.drop 1).take 4 := by
        rw [List.drop_take, List.take_take, min_eq_left (by omega)]
      have hbody : (mem.take size).drop 5 = (mem.drop 5).take (size - 5) := List.drop_take ..
      have hloop := MrUDP.processCompressedSubframesLoop_of_header fuel
        (htake.symm ▸ not_lt.mp hshort : 5 ≤ (mem.take size).length) (htake.symm ▸ hsmall)
      rw [htake, hfield, hbody] at hloop
      rw [processCompressedSubframesLoop_of_header fuel (not_lt.mp hshort) hle hsmall, hloop]
      generalize hframe : leNat ((mem.drop 1).take 4) = frameSize
      by_cases hcut : size - 5 < frameSize
      · have hwhole : WholeSubframes (mem.take size) :=
          ⟨[], _, rfl, by simp, .inr ⟨by omega, by rw [htake, hfield, hframe]; exact hcut⟩⟩
        rw [if_pos hcut, if_pos hcut]
        exact ⟨fun _ => rfl, fun hnot => absurd hwhole hnot⟩
      · rw [if_neg hcut, if_neg hcut, List.take_take, min_eq_left (not_lt.mp hcut), List.drop_take]
        obtain ⟨type, heq⟩ := @eq_subframe (mem.take size) (by omega)
          (by rw [htake, hfield, hframe]; omega)
        rw [hfield, hframe, hbody, List.take_take, min_eq_left (not_lt.mp hcut), List.drop_take]
          at heq
        have hiff : WholeSubframes (mem.take size) ↔
            WholeSubframes (((mem.drop 5).drop frameSize).take (size - 5 - frameSize)) := by
          rw [heq]
          refine wholeSubframes_append_iff ?_
          rw [List.length_take]
          omega
        obtain ⟨hok, herror⟩ := ih ((mem.drop 5).drop frameSize) (size - 5 - frameSize)
          (by rw [List.length_drop, List.length_drop]; omega)
          (by rw [List.length_drop, List.length_drop]; omega) (by omega)
        refine ⟨fun h => ?_, fun hnot => ?_⟩
        · rw [hok (hiff.mp h)]
          rfl
        · obtain ⟨fault, hfault⟩ := herror fun h => hnot (hiff.mpr h)
          exact ⟨fault, by rw [hfault]; rfl⟩

end Checked

/-! ## The whole block -/

/-- The size of the subframes is not negative as an `int`, and the loop is safe on them. -/
def SafeSubframes (mem : Bytes) : Prop :=
  let size := (BitVec.ofNat 32 mem.length).toInt
  0 ≤ size ∧ WholeSubframes (mem.take size.toNat)

/-- If the block is complete, its fields are there, and its subframes are safe. -/
def WholeBlock (z : Zlib) (compressed : Bytes) : Prop :=
  4 ≤ compressed.length → leNat (compressed.take 4) ≤ compressed.length →
    5 ≤ compressed.length ∧
      if compressed.getD 4 0 = 0 then SafeSubframes (compressed.drop 5)
      else
        9 ≤ compressed.length ∧
          SafeSubframes
            (z.uncompress (compressed.drop 9) (leNat ((compressed.drop 5).take 4)))

/-- `uncompress` returns no more than it was given room for. -/
def Zlib.Bounded (z : Zlib) : Prop :=
  ∀ source room, (z.uncompress source room).length ≤ room

namespace Checked

theorem processCompressedSubframes_spec (mem : Bytes) :
    (SafeSubframes mem →
        processCompressedSubframes mem = .ok (MrUDP.processCompressedSubframes mem)) ∧
      (¬ SafeSubframes mem → ∃ fault, processCompressedSubframes mem = .error fault) := by
  rw [processCompressedSubframes, MrUDP.processCompressedSubframes, SafeSubframes]
  generalize hsize : (BitVec.ofNat 32 mem.length).toInt = size
  by_cases hnegative : size < 0
  · rw [if_pos hnegative]
    exact ⟨fun h => absurd h.1 (by omega), fun _ => ⟨_, rfl⟩⟩
  · have hle : size.toNat ≤ mem.length := by
      rw [← hsize, BitVec.toInt_eq_toNat_cond, BitVec.toNat_ofNat]
      split <;> omega
    have hsmall : size.toNat < 2 ^ 31 := by
      have := @BitVec.toInt_lt 32 (BitVec.ofNat 32 mem.length)
      omega
    obtain ⟨hok, herror⟩ :=
      processCompressedSubframesLoop_spec mem.length mem size.toNat le_rfl hle hsmall
    rw [Int.toNat_of_nonneg (by omega)] at hok herror
    rw [if_neg hnegative]
    exact ⟨fun h => hok h.2, fun hnot => herror fun h => hnot ⟨by omega, h⟩⟩

/-- **A frame is processed safely exactly if it does not complete a broken block**, and then as
the function without the checks does. -/
theorem processCompressed_spec {z : Zlib} (hz : z.Bounded) (buffer : Bytes) (frame : Frame) :
    (WholeBlock z (buffer ++ frame.data) →
        processCompressed z buffer frame = .ok (MrUDP.processCompressed z buffer frame)) ∧
      (¬ WholeBlock z (buffer ++ frame.data) →
        ∃ fault, processCompressed z buffer frame = .error fault) := by
  rw [processCompressed, MrUDP.processCompressed, WholeBlock]
  generalize buffer ++ frame.data = compressed
  by_cases hfour : compressed.length < 4
  · rw [if_pos hfour, if_pos hfour]
    exact ⟨fun _ => rfl, fun hnot => absurd (fun h => absurd h (by omega)) hnot⟩
  rw [if_neg hfour, if_neg hfour]
  by_cases hpart : compressed.length < leNat (compressed.take 4)
  · rw [if_pos hpart, if_pos hpart]
    exact ⟨fun _ => rfl, fun hnot => absurd (fun _ h => absurd h (by omega)) hnot⟩
  rw [if_neg hpart, if_neg hpart]
  by_cases hfive : compressed.length < 5
  · rw [if_pos hfive]
    exact ⟨fun h => absurd (h (by omega) (by omega)).1 (by omega), fun _ => ⟨_, rfl⟩⟩
  rw [if_neg hfive]
  have hiff : ∀ P : Prop, (4 ≤ compressed.length → leNat (compressed.take 4) ≤ compressed.length →
      5 ≤ compressed.length ∧ P) ↔ P := fun P =>
    ⟨fun h => (h (by omega) (by omega)).2, fun h _ _ => ⟨by omega, h⟩⟩
  rw [hiff]
  by_cases hflag : compressed.getD 4 0 = 0
  · obtain ⟨hok, herror⟩ := processCompressedSubframes_spec (compressed.drop 5)
    rw [if_pos hflag, if_pos hflag, if_pos hflag]
    refine ⟨fun h => by rw [hok h]; rfl, fun hnot => ?_⟩
    obtain ⟨fault, hfault⟩ := herror hnot
    exact ⟨fault, by rw [hfault]; rfl⟩
  · rw [if_neg hflag, if_neg hflag, if_neg hflag, List.length_drop, List.drop_drop]
    by_cases hnine : compressed.length - 5 < 4
    · rw [if_pos hnine]
      exact ⟨fun h => absurd h.1 (by omega), fun _ => ⟨_, rfl⟩⟩
    · obtain ⟨hok, herror⟩ := processCompressedSubframes_spec
        (z.uncompress (compressed.drop 9) (leNat ((compressed.drop 5).take 4)))
      rw [if_neg hnine, if_neg (not_lt.mpr (hz _ _))]
      refine ⟨fun h => by rw [hok h.2]; rfl, fun hnot => ?_⟩
      obtain ⟨fault, hfault⟩ := herror fun h => hnot ⟨by omega, h⟩
      exact ⟨fault, by rw [hfault]; rfl⟩

end Checked

/-! ## A sequence of frames -/

/-- One frame: the messages passed on so far, and the reassembly buffer. -/
def reassemble (z : Zlib) (s : List Bytes × Bytes) (frame : Frame) : List Bytes × Bytes :=
  (s.1 ++ (processCompressed z s.2 frame).1, (processCompressed z s.2 frame).2)

/-- One frame, unless something went wrong before. -/
def Checked.reassemble (z : Zlib) (s : Except BlockFault (List Bytes × Bytes)) (frame : Frame) :
    Except BlockFault (List Bytes × Bytes) :=
  s.bind fun s => (Checked.processCompressed z s.2 frame).map fun r => (s.1 ++ r.1, r.2)

theorem Checked.run_error (z : Zlib) (fault : BlockFault) (frames : List Frame) :
    run (Checked.reassemble z) (.error fault) frames = .error fault := by
  induction frames with
  | nil => rfl
  | cons frame frames ih => exact ih

/-- **Compressed blocks are parsed safely** exactly if no frame of the sequence completes a broken
block: then no read is outside of its buffer, no size is negative, and the messages passed on are
those of the buffer. -/
theorem reassembly_safe_iff (z : Zlib) (hz : z.Bounded) (frames : List Frame) :
    (∃ s, run (Checked.reassemble z) (.ok ([], [])) frames = .ok s) ↔
      Along (reassemble z) (fun s frame => WholeBlock z (s.2 ++ frame.data)) ([], []) frames := by
  generalize (([], []) : List Bytes × Bytes) = s
  induction frames generalizing s with
  | nil => exact iff_of_true ⟨s, rfl⟩ trivial
  | cons frame frames ih =>
      obtain ⟨hok, herror⟩ := Checked.processCompressed_spec hz s.2 frame
      rw [run_cons, along_cons]
      by_cases hwhole : WholeBlock z (s.2 ++ frame.data)
      · have hstep : Checked.reassemble z (.ok s) frame = .ok (reassemble z s frame) := by
          show (Checked.processCompressed z s.2 frame).map _ = _
          rw [hok hwhole]
          rfl
        rw [hstep, ih]
        exact ⟨fun h => ⟨hwhole, h⟩, fun h => h.2⟩
      · obtain ⟨fault, hfault⟩ := herror hwhole
        have hstep : Checked.reassemble z (.ok s) frame = .error fault := by
          show (Checked.processCompressed z s.2 frame).map _ = _
          rw [hfault]
          rfl
        rw [hstep, Checked.run_error]
        refine ⟨fun ⟨_, h⟩ => ?_, fun h => absurd h.1 hwhole⟩
        cases h

/-- A stored block in two frames, with one message and the header of a second. -/
theorem reassembly_safe_iff_twoFrames :
    let z : Zlib := ⟨fun _ _ _ => none, fun source room => source.take room⟩
    let frames : List Frame :=
      [⟨0, FrameTypeID.dataCompressed, [17, 0, 0, 0, 0, 84, 2]⟩,
        ⟨1, FrameTypeID.dataCompressed, [0, 0, 0, 8, 9, 84, 7, 0, 0, 0]⟩]
    z.Bounded ∧
      Along (reassemble z) (fun s frame => WholeBlock z (s.2 ++ frame.data)) ([], []) frames := by
  intro z frames
  have hz : z.Bounded := fun source room => List.length_take_le room source
  exact ⟨hz, (reassembly_safe_iff z hz frames).mp ⟨([[8, 9]], []), rfl⟩⟩

/-- **Four bytes are taken for a block**: the flag is read behind them.  A subframe of which two
bytes are there is read past the end of the block. -/
theorem reassembly_outside :
    let z : Zlib := ⟨fun _ _ _ => none, fun source room => source.take room⟩
    run (Checked.reassemble z) (.ok ([], []))
        [⟨0, FrameTypeID.dataCompressed, [0, 0, 0, 0]⟩] = .error .outside ∧
      run (Checked.reassemble z) (.ok ([], []))
        [⟨0, FrameTypeID.dataCompressed, [7, 0, 0, 0, 0, 84, 1]⟩] = .error .outside := by
  intro z
  exact ⟨rfl, rfl⟩

end MrUDP
