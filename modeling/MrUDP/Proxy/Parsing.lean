import MrUDP.Proxy.Wire

/-!
# The wire between two proxies, with arbitrary bytes

The receive loop of `proxy_tick` and `on_wire_packet` of `mrudp/Proxy.cpp`, on any bytes.  The
functions are modelled once more, with every read of `in` checked against its size, every
subtraction of sizes against wrapping around, every record that is sent on against the batch it
lies in, and both loops against not ending.

The code trusts the other side: the length in front of a batch is not checked against the fields
that it must have room for, and the length in a record is not checked at all.

## Main definitions

* `Proxy.Checked.receiveLoop`, `Proxy.Checked.onWirePacket`: the functions of the source, with
  these checks.
* `Proxy.WholeRecords`: the batches that `on_wire_packet` takes apart safely.
* `Proxy.Receivable`: what may be in `in` at a tick.
-/

namespace MrUDP
open Wire Machine
open Traffic (copying)

namespace Proxy

/-- What can go wrong: a length wraps around, a read is outside of what is there, a record is
longer than what remains of its batch, or a loop does not end. -/
inductive ParseFault
  | underflow
  | outside
  | overlong
  | endless
  deriving DecidableEq, Repr

namespace Checked

/-! ## Taking a batch apart -/

/-- The loop of `on_wire_packet`: what it does, and whether it ends without an error. -/
def onWirePacketLoop : ℕ → DataIn → Except ParseFault (List Message × Bool)
  | 0, _ => .error .endless
  | fuel + 1, input =>
      if input.remaining = 0 then .ok ([], true)
      else if input.data.length < input.remaining then .error .outside
      else
        match input.readHeader with
        | none => .ok ([], false)
        | some (header, input) =>
            if (header.type = PacketMode.reliable ∨ header.type = PacketMode.unreliable) ∧
                input.remaining < header.size then .error .overlong
            else
              match dispatch header input with
              | none => .ok ([], false)
              | some (message, input) =>
                  (onWirePacketLoop fuel input).map fun (messages, ended) =>
                    (message.toList ++ messages, ended)

/-- `on_wire_packet`.  The size is an `int`. -/
def onWirePacket (batch : Bytes) : Except ParseFault (List Message × Bool) :=
  onWirePacketLoop (batch.length + 1) ⟨batch, (BitVec.ofNat 32 batch.length).toInt⟩

/-! ## Taking batches out of the buffer -/

/-- `CircularBuffer::read`, of so many bytes. -/
def read (b : CircularBuffer UInt8) (size : ℕ) : Except ParseFault (Bytes × CircularBuffer UInt8) :=
  match b.read (List.replicate size 0) with
  | none => .error .outside
  | some (data, b) => .ok (data, b)

/-- A size less `n`. -/
def less (size n : ℕ) : Except ParseFault ℕ :=
  if size < n then .error .underflow else .ok (size - n)

/-- What `uncompress` leaves in `scratch[1]` after `resize`, and the memory of that vector.  A
`SizedVector` keeps its memory when it gets smaller, so that old bytes are still there. -/
def unpack (z : Zlib) (scratch source : Bytes) (uncompressedSize : ℕ) :
    Except ParseFault (Bytes × Bytes) :=
  let resized := scratch ++ List.replicate (uncompressedSize - scratch.length) 0
  let dest := z.uncompress source uncompressedSize
  if uncompressedSize < dest.length then .error .outside
  else
    let scratch := dest ++ resized.drop dest.length
    .ok (scratch.take uncompressedSize, scratch)

/-- The rest of a batch, behind its length, and the memory of `scratch[1]` afterwards. -/
def readPayload (z : Zlib) (scratch : Bytes) (b : CircularBuffer UInt8) (packetSize : ℕ) :
    Except ParseFault (Bytes × Bytes × CircularBuffer UInt8) :=
  (read b 1).bind fun (wasCompressed, b) =>
    (less packetSize 1).bind fun payloadSize =>
      if wasCompressed = [0] then
        (read b payloadSize).map fun (batch, b) => (batch, scratch, b)
      else
        (read b 4).bind fun (uncompressedSize, b) =>
          (less payloadSize 4).bind fun payloadSize =>
            (read b payloadSize).bind fun (source, b) =>
              (unpack z scratch source (leNat uncompressedSize)).map fun (batch, scratch) =>
                (batch, scratch, b)

/-- One round of the loop of `proxy_tick`, which finds a batch or ends the loop. -/
def receiveOne (z : Zlib) (scratch : Bytes) (b : CircularBuffer UInt8) :
    Except ParseFault (Option Bytes × Bytes × CircularBuffer UInt8) :=
  if b.size_ ≤ 4 then .ok (none, scratch, b)
  else
    match b.peek (List.replicate 4 0) with
    | none => .error .outside
    | some packetSize =>
        if b.size_ < leNat packetSize + 4 then .ok (none, scratch, b)
        else
          match b.skip 4 with
          | none => .error .outside
          | some b =>
              (readPayload z scratch b (leNat packetSize)).map fun (batch, scratch, b) =>
                (some batch, scratch, b)

/-- The loop of `proxy_tick`: what `on_wire_packet` does, the memory of `scratch[1]`, and the
buffer. -/
def receiveLoop (z : Zlib) :
    ℕ → Bytes → CircularBuffer UInt8 → Except ParseFault (List Message × Bytes × CircularBuffer UInt8)
  | 0, _, _ => .error .endless
  | fuel + 1, scratch, b =>
      (receiveOne z scratch b).bind fun
        | (none, scratch, b) => .ok ([], scratch, b)
        | (some batch, scratch, b) =>
            (onWirePacket batch).bind fun (messages, _) =>
              (receiveLoop z fuel scratch b).map fun (messages', scratch, b) =>
                (messages ++ messages', scratch, b)

end Checked

/-- The receiving side: the buffer `in`, the memory of `scratch[1]`, and what `on_wire_packet` has
done. -/
structure Intake where
  buffer : CircularBuffer UInt8 := {}
  scratch : Bytes := []
  messages : List Message := []

/-- Something happens, unless something went wrong before. -/
def Checked.receiveStep (z : Zlib) (s : Except ParseFault Intake) (event : WireEvent) :
    Except ParseFault Intake :=
  s.bind fun s =>
    match event with
    | .chunk data =>
        match s.buffer.write (.data data) with
        | none => .error .outside
        | some b => .ok { s with buffer := b }
    | .tick =>
        (Checked.receiveLoop z (s.buffer.size_ + 1) s.scratch s.buffer).map
          fun (messages, scratch, b) => ⟨b, scratch, s.messages ++ messages⟩

/-! ## Batches that are safe -/

/-- A header with what belongs to it. -/
structure Record where
  header : PacketHeader
  body : Bytes

/-- The bytes of a record. -/
def Record.bytes (r : Record) : Bytes := r.header.bytes ++ r.body

/-- The address of an `OPEN` is there, and so are the data that the header of a `RELIABLE` or
`UNRELIABLE` announces.  Nothing belongs to other headers, whatever they announce. -/
structure Record.Whole (r : Record) : Prop where
  size_lt : r.header.size < 2 ^ 16
  body_eq :
    if r.header.type = PacketMode.open then ∃ address : ProxyAddress, r.body = address.bytes
    else if r.header.type = PacketMode.reliable ∨ r.header.type = PacketMode.unreliable then
      r.body.length = r.header.size
    else r.body = []

/-- Where the loop of `on_wire_packet` stops: less than a header, or an `OPEN` without an
address. -/
def Ends (tail : Bytes) : Prop :=
  tail.length < 7 ∨
    ∃ (header : PacketHeader) (rest : Bytes), header.size < 2 ^ 16 ∧
      header.type = PacketMode.open ∧ tail = header.bytes ++ rest ∧
      (rest.length < 7 ∨ rest.head? ≠ some 52)

/-- Whole records up to where the loop stops; or so many bytes that their number is negative, at
which `on_wire_packet` stops at once. -/
def WholeRecords (batch : Bytes) : Prop :=
  2 ^ 31 ≤ batch.length ∨
    ∃ (records : List Record) (tail : Bytes), batch = records.flatMap Record.bytes ++ tail ∧
      (∀ r ∈ records, r.Whole) ∧ Ends tail

/-- What may be in `in` at a tick: batches with room for their fields, whose records are whole, and
an incomplete batch behind them. -/
inductive Receivable (z : Zlib) : Bytes → Bytes → Prop
  | incomplete {scratch content : Bytes}
      (h : content.length ≤ 4 ∨ content.length < leNat (content.take 4) + 4) :
      Receivable z scratch content
  | stored {scratch batch rest : Bytes} (hlength : 1 + batch.length < 2 ^ 32)
      (hrecords : WholeRecords batch) (hrest : Receivable z scratch rest) :
      Receivable z scratch (leBytes 4 (1 + batch.length) ++ (0 :: batch ++ rest))
  | compressed {scratch scratch' source batch rest : Bytes} {flag : UInt8} {uncompressedSize : ℕ}
      (hflag : flag ≠ 0) (hlength : 5 + source.length < 2 ^ 32) (hsize : uncompressedSize < 2 ^ 32)
      (hbatch : Checked.unpack z scratch source uncompressedSize = .ok (batch, scratch'))
      (hrecords : WholeRecords batch) (hrest : Receivable z scratch' rest) :
      Receivable z scratch (leBytes 4 (5 + source.length) ++
        (flag :: leBytes 4 uncompressedSize ++ source ++ rest))

/-- The ring buffer serves: a chunk fits, and what is taken out of it passes through an `int`. -/
def Serves (s : Except ParseFault Intake) (event : WireEvent) : Prop :=
  ∀ s', s = .ok s' →
    match event with
    | .chunk data => CircularBuffer.FitsWrite s'.buffer data.length
    | .tick => s'.buffer.size_ ≤ 2 ^ 31

instance (s : Except ParseFault Intake) (event : WireEvent) : Decidable (Serves s event) :=
  match s, event with
  | .error _, _ => .isTrue nofun
  | .ok s, .chunk data =>
      decidable_of_iff (CircularBuffer.FitsWrite s.buffer data.length)
        ⟨fun h _ hs => Except.ok.inj hs ▸ h, fun h => h s rfl⟩
  | .ok s, .tick =>
      decidable_of_iff (s.buffer.size_ ≤ 2 ^ 31)
        ⟨fun h _ hs => Except.ok.inj hs ▸ h, fun h => h s rfl⟩

/-- At a tick the bytes are receivable. -/
def Parses (z : Zlib) (s : Except ParseFault Intake) (event : WireEvent) : Prop :=
  ∀ s', s = .ok s' → event = .tick → Receivable z s'.scratch s'.buffer.content

/-! ## Taking a batch apart -/

/-- An address that is not there is not read. -/
theorem readAddress_of_missing {rest : Bytes} (h : rest.length < 7 ∨ rest.head? ≠ some 52) :
    DataIn.readAddress ⟨rest, rest.length⟩ = none := by
  match rest, h with
  | [], _ => rfl
  | b :: bs, h =>
      have hread := @read_append [b] bs (b :: bs).length 1 rfl (by simp)
      rw [DataIn.readAddress]
      rw [List.singleton_append] at hread
      rw [hread]
      dsimp only
      split
      next hfour =>
        -- The character is there, so the address or the port is not.
        have hshort : bs.length < 6 := by
          rcases h with hlt | hhead
          · rw [List.length_cons] at hlt
            omega
          · exact absurd (congrArg some (List.cons.inj hfour).1) hhead
        rw [DataIn.read, List.length_cons]
        dsimp only
        split
        · rfl
        next hsplit =>
          split at hsplit
          · cases hsplit
          · cases hsplit
            rw [DataIn.read, if_pos (by dsimp only; push_cast; omega)]
            rfl
      · rfl

/-- Any seven bytes are a header. -/
theorem exists_header {data : Bytes} (h : 7 ≤ data.length) :
    ∃ (header : PacketHeader) (rest : Bytes), header.size < 2 ^ 16 ∧
      data = header.bytes ++ rest := by
  match data, h with
  | b₀ :: b₁ :: b₂ :: b₃ :: b₄ :: b₅ :: type :: rest, _ =>
      have hlt : leNat [b₀, b₁] < 256 ^ 2 := leNat_lt [b₀, b₁]
      have hsize : leBytes 2 (leNat [b₀, b₁]) = [b₀, b₁] := leBytes_leNat [b₀, b₁]
      have hid := @leBytes_ofNat_leNat 32 4 [b₂, b₃, b₄, b₅] rfl (by norm_num)
      refine ⟨⟨leNat [b₀, b₁], BitVec.ofNat 32 (leNat [b₂, b₃, b₄, b₅]), type⟩, rest,
        by omega, ?_⟩
      rw [PacketHeader.bytes]
      dsimp only
      rw [hid, hsize]
      rfl

/-- The character `4` and any six bytes are an address. -/
theorem exists_address {data : Bytes} (h : 7 ≤ data.length) (hhead : data.head? = some 52) :
    ∃ (address : ProxyAddress) (rest : Bytes), data = address.bytes ++ rest := by
  match data, h, hhead with
  | b :: b₀ :: b₁ :: b₂ :: b₃ :: b₄ :: b₅ :: rest, _, hhead =>
      have haddress := @leBytes_ofNat_leNat 32 4 [b₀, b₁, b₂, b₃] rfl (by norm_num)
      have hport := @leBytes_ofNat_leNat 16 2 [b₄, b₅] rfl (by norm_num)
      refine ⟨⟨BitVec.ofNat 32 (leNat [b₀, b₁, b₂, b₃]), BitVec.ofNat 16 (leNat [b₄, b₅])⟩, rest,
        ?_⟩
      rw [ProxyAddress.bytes]
      dsimp only
      rw [haddress, hport, show b = 52 from Option.some.inj hhead]
      rfl

private theorem bind_ok {α β : Type} (a : α) (f : α → Except ParseFault β) :
    (Except.ok a : Except ParseFault α).bind f = f a := rfl

private theorem bind_eq_ok {α β : Type} {x : Except ParseFault α} {f : α → Except ParseFault β}
    {b : β} (h : x.bind f = .ok b) : ∃ a, x = .ok a ∧ f a = .ok b := by
  cases x with
  | error fault => cases h
  | ok a => exact ⟨a, rfl, h⟩

private theorem map_eq_ok {α β : Type} {x : Except ParseFault α} {f : α → β} {b : β}
    (h : x.map f = .ok b) : ∃ a, x = .ok a ∧ f a = b := by
  cases x with
  | error fault => cases h
  | ok a => exact ⟨a, rfl, Except.ok.inj h⟩

namespace Checked

/-- A round that finds a header. -/
theorem onWirePacketLoop_header {header : PacketHeader} (hsize : header.size < 2 ^ 16)
    (rest : Bytes) (fuel : ℕ) :
    onWirePacketLoop (fuel + 1) ⟨header.bytes ++ rest, (header.bytes ++ rest).length⟩ =
      if (header.type = PacketMode.reliable ∨ header.type = PacketMode.unreliable) ∧
          rest.length < header.size then .error .overlong
      else
        match dispatch header ⟨rest, rest.length⟩ with
        | none => .ok ([], false)
        | some (message, input) =>
            (onWirePacketLoop fuel input).map fun (messages, ended) =>
              (message.toList ++ messages, ended) := by
  have hlength : (header.bytes ++ rest).length = 7 + rest.length := by
    rw [List.length_append, length_header]
  have hremaining : ((7 + rest.length : ℕ) : ℤ) - 7 = rest.length := by
    push_cast
    ring
  rw [onWirePacketLoop, hlength, if_neg (by dsimp only; omega),
    if_neg (lt_irrefl _),
    readHeader_append header rest (show (7 : ℤ) ≤ (7 + rest.length : ℕ) by omega), hremaining,
    Nat.mod_eq_of_lt hsize]
  simp only [Nat.cast_lt]

/-- A whole record is passed. -/
theorem onWirePacketLoop_record {r : Record} (hwhole : r.Whole) (rest : Bytes) (fuel : ℕ) :
    ∃ message : Option Message,
      onWirePacketLoop (fuel + 1) ⟨r.bytes ++ rest, (r.bytes ++ rest).length⟩ =
        (onWirePacketLoop fuel ⟨rest, rest.length⟩).map fun (messages, ended) =>
          (message.toList ++ messages, ended) := by
  obtain ⟨⟨size, id, type⟩, body⟩ := r
  obtain ⟨hsize, hbody⟩ := hwhole
  dsimp only at hsize hbody
  rw [Record.bytes, List.append_assoc, onWirePacketLoop_header hsize]
  dsimp only
  by_cases hopen : type = PacketMode.open
  · rw [if_pos hopen] at hbody
    obtain ⟨address, rfl⟩ := hbody
    have hnot : ¬ (type = PacketMode.reliable ∨ type = PacketMode.unreliable) := by
      rw [hopen]
      decide
    have hremaining : ((address.bytes ++ rest).length : ℤ) - 7 = rest.length := by
      rw [List.length_append, length_address]
      omega
    rw [if_neg fun h => hnot h.1, dispatch_open hopen, readAddress_append _ _ (by
      rw [List.length_append, length_address]; omega), hremaining]
    exact ⟨_, rfl⟩
  rw [if_neg hopen] at hbody
  by_cases hdata : type = PacketMode.reliable ∨ type = PacketMode.unreliable
  · rw [if_pos hdata] at hbody
    have hnot : ¬ (body ++ rest).length < size := by
      rw [List.length_append]
      omega
    have hskip : DataIn.skip ⟨body ++ rest, (body ++ rest).length⟩ size =
        ⟨rest, rest.length⟩ := by
      rw [DataIn.skip, if_neg (by dsimp only; omega), List.drop_left' hbody, List.length_append]
      congr 1
      push_cast
      omega
    rw [if_neg fun h => hnot h.2, dispatch, if_neg hopen, if_neg, if_pos hdata, hskip]
    · exact ⟨_, rfl⟩
    · rcases hdata with h | h <;> (dsimp only; rw [h]; decide)
  · rw [if_neg hdata] at hbody
    subst hbody
    rw [if_neg fun h => hdata h.1, List.nil_append]
    by_cases hclose : type = PacketMode.close
    · rw [dispatch_close hclose]
      exact ⟨_, rfl⟩
    · rw [dispatch, if_neg hopen, if_neg hclose, if_neg hdata]
      exact ⟨none, rfl⟩

/-- The loop stops at the end. -/
theorem onWirePacketLoop_ends {tail : Bytes} (hends : Ends tail) (fuel : ℕ) :
    ∃ ended, onWirePacketLoop (fuel + 1) ⟨tail, tail.length⟩ = .ok ([], ended) := by
  rcases hends with hshort | ⟨header, rest, hsize, hopen, rfl, hmissing⟩
  · rw [onWirePacketLoop]
    split
    · exact ⟨true, rfl⟩
    · rw [if_neg (lt_irrefl _), DataIn.readHeader, DataIn.read, if_pos (by dsimp only; omega)]
      exact ⟨false, rfl⟩
  · have hnot : ¬ (header.type = PacketMode.reliable ∨ header.type = PacketMode.unreliable) := by
      rw [hopen]
      decide
    rw [onWirePacketLoop_header hsize, if_neg fun h => hnot h.1, dispatch_open hopen,
      readAddress_of_missing hmissing]
    exact ⟨false, rfl⟩

/-- **A batch of whole records is taken apart safely.** -/
theorem onWirePacket_of_whole {batch : Bytes} (hwhole : WholeRecords batch)
    (hlength : batch.length < 2 ^ 32) : ∃ out, onWirePacket batch = .ok out := by
  by_cases hnegative : 2 ^ 31 ≤ batch.length
  · -- The size is negative, so no header is read.
    have hint : (BitVec.ofNat 32 batch.length).toInt < 0 := by
      rw [BitVec.toInt_eq_toNat_cond, BitVec.toNat_ofNat, Nat.mod_eq_of_lt hlength,
        if_neg (by omega)]
      omega
    rw [onWirePacket, onWirePacketLoop, if_neg (by dsimp only; omega),
      if_neg (by dsimp only; omega), DataIn.readHeader, DataIn.read, if_pos (by dsimp only; omega)]
    exact ⟨_, rfl⟩
  obtain ⟨records, tail, rfl, hrecords, hends⟩ := hwhole.resolve_left hnegative
  rw [onWirePacket, toInt_ofNat_length (not_le.mp hnegative)]
  -- A round for every record, and one for the end.
  have hloop : ∀ fuel, records.length < fuel → ∃ out, onWirePacketLoop fuel
      ⟨records.flatMap Record.bytes ++ tail, (records.flatMap Record.bytes ++ tail).length⟩ =
        .ok out := by
    clear hwhole hlength hnegative
    induction records with
    | nil =>
        intro fuel hfuel
        obtain ⟨fuel, rfl⟩ : ∃ n, fuel = n + 1 := ⟨fuel - 1, by omega⟩
        obtain ⟨ended, hended⟩ := onWirePacketLoop_ends hends fuel
        exact ⟨_, hended⟩
    | cons r records ih =>
        intro fuel hfuel
        rw [List.length_cons] at hfuel
        obtain ⟨fuel, rfl⟩ : ∃ n, fuel = n + 1 := ⟨fuel - 1, by omega⟩
        obtain ⟨message, hrecord⟩ := onWirePacketLoop_record (hrecords r List.mem_cons_self)
          (records.flatMap Record.bytes ++ tail) fuel
        obtain ⟨out, hout⟩ :=
          ih (fun r hr => hrecords r (List.mem_cons_of_mem _ hr)) fuel (by omega)
        rw [List.flatMap_cons, List.append_assoc, hrecord, hout]
        exact ⟨_, rfl⟩
  refine hloop _ ?_
  have hle : records.length ≤ (records.flatMap Record.bytes).length := by
    clear hwhole hlength hnegative hloop hrecords
    induction records with
    | nil => simp
    | cons r records ih =>
        rw [List.flatMap_cons, List.length_append, Record.bytes, List.length_append,
          length_header, List.length_cons]
        omega
  rw [List.length_append]
  omega

/-- What a batch begins with: the end, a whole record, or a record that is too long. -/
theorem exists_record (data : Bytes) :
    Ends data ∨ (∃ (r : Record) (rest : Bytes), r.Whole ∧ data = r.bytes ++ rest) ∨
      ∃ (header : PacketHeader) (rest : Bytes), header.size < 2 ^ 16 ∧
        data = header.bytes ++ rest ∧
        (header.type = PacketMode.reliable ∨ header.type = PacketMode.unreliable) ∧
        rest.length < header.size := by
  by_cases hshort : data.length < 7
  · exact .inl (.inl hshort)
  obtain ⟨header, rest, hsize, rfl⟩ := exists_header (not_lt.mp hshort)
  by_cases hopen : header.type = PacketMode.open
  · by_cases hmissing : rest.length < 7 ∨ rest.head? ≠ some 52
    · exact .inl (.inr ⟨header, rest, hsize, hopen, rfl, hmissing⟩)
    · rw [not_or, not_lt, not_not] at hmissing
      obtain ⟨address, rest', rfl⟩ := exists_address hmissing.1 hmissing.2
      refine .inr (.inl ⟨⟨header, address.bytes⟩, rest', ⟨hsize, ?_⟩, ?_⟩)
      · rw [if_pos hopen]
        exact ⟨address, rfl⟩
      · rw [Record.bytes, List.append_assoc]
  by_cases hdata : header.type = PacketMode.reliable ∨ header.type = PacketMode.unreliable
  · by_cases hlong : rest.length < header.size
    · exact .inr (.inr ⟨header, rest, hsize, rfl, hdata, hlong⟩)
    · refine .inr (.inl ⟨⟨header, rest.take header.size⟩, rest.drop header.size, ⟨hsize, ?_⟩, ?_⟩)
      · rw [if_neg hopen, if_pos hdata]
        exact List.length_take_of_le (not_lt.mp hlong)
      · rw [Record.bytes, List.append_assoc, List.take_append_drop]
  · refine .inr (.inl ⟨⟨header, []⟩, rest, ⟨hsize, ?_⟩, ?_⟩)
    · rw [if_neg hopen, if_neg hdata]
    · rw [Record.bytes, List.append_nil]

/-- What is taken apart safely consists of whole records. -/
theorem records_of_onWirePacketLoop {fuel : ℕ} {data : Bytes} {out : List Message × Bool}
    (h : onWirePacketLoop fuel ⟨data, data.length⟩ = .ok out) :
    ∃ (records : List Record) (tail : Bytes), data = records.flatMap Record.bytes ++ tail ∧
      (∀ r ∈ records, r.Whole) ∧ Ends tail := by
  induction fuel generalizing data out with
  | zero => cases h
  | succ fuel ih =>
      rcases exists_record data with hends | ⟨r, rest, hwhole, rfl⟩ |
        ⟨header, rest, hsize, rfl, hdata, hlong⟩
      · exact ⟨[], data, rfl, by simp, hends⟩
      · obtain ⟨message, hrecord⟩ := onWirePacketLoop_record hwhole rest fuel
        rw [hrecord] at h
        obtain ⟨out', hrest, -⟩ := map_eq_ok h
        obtain ⟨records, tail, rfl, hrecords, hends⟩ := ih hrest
        refine ⟨r :: records, tail, ?_, List.forall_mem_cons.mpr ⟨hwhole, hrecords⟩, hends⟩
        rw [List.flatMap_cons, List.append_assoc]
      · rw [onWirePacketLoop_header hsize, if_pos ⟨hdata, hlong⟩] at h
        cases h

/-- **Batches of whole records, and no others, are taken apart safely.** -/
theorem onWirePacket_ok_iff {batch : Bytes} (hlength : batch.length < 2 ^ 32) :
    (∃ out, onWirePacket batch = .ok out) ↔ WholeRecords batch := by
  refine ⟨?_, fun hwhole => onWirePacket_of_whole hwhole hlength⟩
  rintro ⟨out, hout⟩
  by_cases hnegative : 2 ^ 31 ≤ batch.length
  · exact .inl hnegative
  · rw [onWirePacket, toInt_ofNat_length (not_le.mp hnegative)] at hout
    exact .inr (records_of_onWirePacketLoop hout)

/-! ## Taking batches out of the buffer -/

/-- Any four bytes are a length. -/
theorem exists_length {content : Bytes} (h : 4 ≤ content.length) :
    ∃ (n : ℕ) (rest : Bytes), n < 2 ^ 32 ∧ content = leBytes 4 n ++ rest := by
  have hfront : (content.take 4).length = 4 := List.length_take_of_le h
  have hlt := leNat_lt (content.take 4)
  have hbytes := leBytes_leNat (content.take 4)
  rw [hfront] at hlt hbytes
  refine ⟨leNat (content.take 4), content.drop 4, by omega, ?_⟩
  rw [hbytes, List.take_append_drop]

/-- A length and as many bytes. -/
theorem exists_payload {content : Bytes} (hfour : 4 ≤ content.length)
    (hwhole : leNat (content.take 4) + 4 ≤ content.length) :
    ∃ payload rest : Bytes, payload.length < 2 ^ 32 ∧
      content = leBytes 4 payload.length ++ (payload ++ rest) := by
  obtain ⟨n, rest, hn, rfl⟩ := exists_length hfour
  rw [List.take_left' (length_leBytes ..), leNat_leBytes hn, List.length_append,
    length_leBytes] at hwhole
  have hlength : (rest.take n).length = n := List.length_take_of_le (by omega)
  refine ⟨rest.take n, rest.drop n, by rwa [hlength], ?_⟩
  rw [hlength, List.take_append_drop]

section
variable {z : Zlib} {b : CircularBuffer UInt8}

/-- Bytes at the front of the buffer are read. -/
theorem read_front (hvalid : b.Valid) (hserves : b.size_ ≤ 2 ^ 31) {front rest : Bytes}
    (hcontent : b.content = front ++ rest) {n : ℕ} (hlength : front.length = n) :
    ∃ b', read b n = .ok (front, b') ∧ b'.Valid ∧ b'.content = rest ∧
      b'.size_ + n = b.size_ := by
  have hsize : front.length + rest.length = b.size_ := by
    rw [← hvalid.length_content, hcontent, List.length_append]
  obtain ⟨b', hread, hskips, hvalid', hrest⟩ :=
    @Proxy.read_front b hvalid front rest (List.replicate n 0) hcontent
      (by rw [List.length_replicate, hlength]) (by omega)
  refine ⟨b', ?_, hvalid', hrest, ?_⟩
  · rw [read, hread]
  · have hle := hskips.le
    have hsize := hskips.size_eq
    omega

theorem less_add (n size : ℕ) : less (n + size) n = .ok size := by
  rw [less, if_neg (by omega), Nat.add_sub_cancel_left]

theorem less_of_ok {n size k : ℕ} (h : less size n = .ok k) : n ≤ size := by
  rw [less] at h
  split at h
  · cases h
  · omega

/-- A stored batch is read. -/
theorem readPayload_stored (hvalid : b.Valid) (hserves : b.size_ ≤ 2 ^ 31) {batch rest : Bytes}
    (scratch : Bytes) (hcontent : b.content = 0 :: batch ++ rest) :
    ∃ b', readPayload z scratch b (1 + batch.length) = .ok (batch, scratch, b') ∧ b'.Valid ∧
      b'.content = rest ∧ b'.size_ < b.size_ := by
  obtain ⟨b₁, hread₁, hvalid₁, hcontent₁, hsize₁⟩ :=
    @read_front b hvalid hserves [0] (batch ++ rest) hcontent 1 rfl
  obtain ⟨b₂, hread₂, hvalid₂, hcontent₂, hsize₂⟩ :=
    read_front hvalid₁ (by omega) hcontent₁ rfl
  refine ⟨b₂, ?_, hvalid₂, hcontent₂, by omega⟩
  rw [readPayload, hread₁, bind_ok]
  dsimp only
  rw [less_add, bind_ok, if_pos rfl, hread₂]
  rfl

variable {scratch : Bytes}

/-- A compressed batch with room for its fields is read. -/
theorem readPayload_compressed (hvalid : b.Valid) (hserves : b.size_ ≤ 2 ^ 31) {source rest : Bytes}
    {flag : UInt8} (hflag : flag ≠ 0) {uncompressedSize : ℕ} (hsize : uncompressedSize < 2 ^ 32)
    (hcontent : b.content = flag :: leBytes 4 uncompressedSize ++ source ++ rest) :
    ∃ b', readPayload z scratch b (5 + source.length) =
        (unpack z scratch source uncompressedSize).map
          (fun (batch, scratch) => (batch, scratch, b')) ∧
      b'.Valid ∧ b'.content = rest ∧ b'.size_ < b.size_ := by
  obtain ⟨b₁, hread₁, hvalid₁, hcontent₁, hsize₁⟩ :=
    @read_front b hvalid hserves [flag] (leBytes 4 uncompressedSize ++ (source ++ rest))
      (by rw [hcontent]; simp) 1 rfl
  obtain ⟨b₂, hread₂, hvalid₂, hcontent₂, hsize₂⟩ :=
    read_front hvalid₁ (by omega) hcontent₁ (length_leBytes ..)
  obtain ⟨b₃, hread₃, hvalid₃, hcontent₃, hsize₃⟩ :=
    read_front hvalid₂ (by omega) hcontent₂ rfl
  refine ⟨b₃, ?_, hvalid₃, hcontent₃, by omega⟩
  rw [readPayload, hread₁, bind_ok]
  dsimp only
  rw [show 5 + source.length = 1 + (4 + source.length) by omega, less_add, bind_ok,
    if_neg (by simpa using hflag), hread₂, bind_ok]
  dsimp only
  rw [less_add, bind_ok, hread₃, bind_ok]
  dsimp only
  rw [leNat_leBytes hsize]

/-- A batch without room for its fields is not read safely. -/
theorem room_of_readPayload (hvalid : b.Valid) (hserves : b.size_ ≤ 2 ^ 31) {flag : UInt8}
    {rest : Bytes} (hcontent : b.content = flag :: rest) {packetSize : ℕ}
    {out : Bytes × Bytes × CircularBuffer UInt8}
    (h : readPayload z scratch b packetSize = .ok out) :
    1 ≤ packetSize ∧ (flag ≠ 0 → 5 ≤ packetSize) := by
  obtain ⟨b₁, hread₁, -⟩ := @read_front b hvalid hserves [flag] rest hcontent 1 rfl
  rw [readPayload, hread₁, bind_ok] at h
  obtain ⟨payloadSize, hless, h⟩ := bind_eq_ok h
  have hone := less_of_ok hless
  refine ⟨hone, fun hflag => ?_⟩
  rw [if_neg (by simpa using hflag)] at h
  obtain ⟨uncompressed, -, h⟩ := bind_eq_ok h
  obtain ⟨payloadSize', hless', -⟩ := bind_eq_ok h
  have hfour := less_of_ok hless'
  rw [less, if_neg (by omega)] at hless
  cases hless
  omega

/-- The length in front of a batch is read and skipped. -/
theorem receiveOne_length (hvalid : b.Valid) (hlarge : 4 < b.size_) {payload rest : Bytes}
    (hlength : payload.length < 2 ^ 32)
    (hcontent : b.content = leBytes 4 payload.length ++ (payload ++ rest)) (scratch : Bytes) :
    ∃ b₁ : CircularBuffer UInt8, b₁.Valid ∧ b₁.content = payload ++ rest ∧ b₁.size_ < b.size_ ∧
      receiveOne z scratch b =
        (readPayload z scratch b₁ payload.length).map fun (batch, scratch, b) =>
          (some batch, scratch, b) := by
  have hsize : b.size_ = 4 + payload.length + rest.length := by
    rw [← hvalid.length_content, hcontent, List.length_append, List.length_append,
      length_leBytes, Nat.add_assoc]
  have hpeek : b.peek (List.replicate 4 0) = some (leBytes 4 payload.length) := by
    rw [CircularBuffer.peek_eq hvalid (by rw [List.length_replicate]; omega) (by simp), hcontent,
      List.length_replicate, List.take_left' (length_leBytes ..)]
  obtain ⟨b₁, hskip, hskips⟩ := @CircularBuffer.skip_eq _ b hvalid 4 (by omega)
  have hsize₁ := hskips.size_eq
  refine ⟨b₁, hskips.valid hvalid, ?_, by omega, ?_⟩
  · rw [hskips.content_eq hvalid, hcontent, List.drop_left' (length_leBytes ..)]
  · rw [receiveOne, if_neg (by omega), hpeek]
    dsimp only
    rw [leNat_leBytes hlength, if_neg (by omega), hskip]

/-- Bytes without a whole batch are left alone. -/
theorem receiveOne_incomplete (hvalid : b.Valid) (scratch : Bytes)
    (h : b.content.length ≤ 4 ∨ b.content.length < leNat (b.content.take 4) + 4) :
    receiveOne z scratch b = .ok (none, scratch, b) := by
  rw [hvalid.length_content] at h
  rw [receiveOne]
  split
  · rfl
  next hlarge =>
    rw [CircularBuffer.peek_eq hvalid (by rw [List.length_replicate]; omega) (by simp),
      List.length_replicate]
    exact if_pos (by omega)

/-- `scratch[1]` has the announced size. -/
theorem length_unpack {scratch' source batch : Bytes} {n : ℕ}
    (h : unpack z scratch source n = .ok (batch, scratch')) : batch.length = n := by
  rw [unpack] at h
  split at h
  · cases h
  · cases h
    simp only [List.length_append, List.length_drop, List.length_take, List.length_replicate]
    omega

/-- A batch is taken apart, and the loop goes on behind it. -/
theorem receiveLoop_batch {b' : CircularBuffer UInt8} {scratch' batch : Bytes}
    (hone : receiveOne z scratch b = .ok (some batch, scratch', b')) (fuel : ℕ) :
    receiveLoop z (fuel + 1) scratch b =
      (onWirePacket batch).bind fun (messages, _) =>
        (receiveLoop z fuel scratch' b').map fun (messages', scratch, b) =>
          (messages ++ messages', scratch, b) := by
  rw [receiveLoop, hone, bind_ok]

/-- Behind a safe batch the loop goes on. -/
theorem receiveLoop_of_batch {b' : CircularBuffer UInt8} {scratch' batch : Bytes}
    (hone : receiveOne z scratch b = .ok (some batch, scratch', b')) (hrecords : WholeRecords batch)
    (hlength : batch.length < 2 ^ 32) {fuel : ℕ}
    (hloop : ∃ out, receiveLoop z fuel scratch' b' = .ok out ∧ out.2.2.Valid) :
    ∃ out, receiveLoop z (fuel + 1) scratch b = .ok out ∧ out.2.2.Valid := by
  obtain ⟨found, hfound⟩ := onWirePacket_of_whole hrecords hlength
  obtain ⟨out, hout, hvalid⟩ := hloop
  rw [receiveLoop_batch hone, hfound, bind_ok, hout]
  exact ⟨_, rfl, hvalid⟩

/-- **The loop of `proxy_tick` is safe** on receivable bytes. -/
theorem receiveLoop_of_receivable {content : Bytes} (h : Receivable z scratch content) :
    ∀ {b : CircularBuffer UInt8} {fuel : ℕ}, b.Valid → b.size_ ≤ 2 ^ 31 → b.content = content →
      b.size_ < fuel → ∃ out, receiveLoop z fuel scratch b = .ok out ∧ out.2.2.Valid := by
  induction h with
  | incomplete h =>
      intro b fuel hvalid _ hcontent hfuel
      obtain ⟨fuel, rfl⟩ : ∃ n, fuel = n + 1 := ⟨fuel - 1, by omega⟩
      subst hcontent
      rw [receiveLoop, receiveOne_incomplete hvalid _ h, bind_ok]
      exact ⟨_, rfl, hvalid⟩
  | @stored scratch batch rest hlength hrecords _ ih =>
      intro b fuel hvalid hserves hcontent hfuel
      obtain ⟨fuel, rfl⟩ : ∃ n, fuel = n + 1 := ⟨fuel - 1, by omega⟩
      have hpayload : (0 :: batch).length = 1 + batch.length := by
        rw [List.length_cons, Nat.add_comm]
      have hsize : b.size_ = 4 + (1 + batch.length + rest.length) := by
        rw [← hvalid.length_content, hcontent, List.length_append, List.length_append,
          length_leBytes, hpayload]
      obtain ⟨b₁, hvalid₁, hcontent₁, hsize₁, hone⟩ :=
        @receiveOne_length z b hvalid (by omega) (0 :: batch) rest (by omega)
          (by rw [hcontent, hpayload]) scratch
      obtain ⟨b₂, hread, hvalid₂, hcontent₂, hsize₂⟩ :=
        @readPayload_stored z b₁ hvalid₁ (by omega) batch rest scratch hcontent₁
      rw [hpayload, hread] at hone
      exact receiveLoop_of_batch hone hrecords (by omega)
        (ih hvalid₂ (by omega) hcontent₂ (by omega))
  | @compressed scratch scratch' source batch rest flag n hflag hlength hsize hbatch hrecords _ ih =>
      intro b fuel hvalid hserves hcontent hfuel
      obtain ⟨fuel, rfl⟩ : ∃ n, fuel = n + 1 := ⟨fuel - 1, by omega⟩
      have hpayload : (flag :: leBytes 4 n ++ source).length = 5 + source.length := by
        rw [List.length_append, List.length_cons, length_leBytes]
      have hsize' : b.size_ = 4 + (5 + source.length + rest.length) := by
        rw [← hvalid.length_content, hcontent, List.length_append, List.length_append,
          length_leBytes, hpayload]
      obtain ⟨b₁, hvalid₁, hcontent₁, hsize₁, hone⟩ :=
        @receiveOne_length z b hvalid (by omega) (flag :: leBytes 4 n ++ source) rest (by omega)
          (by rw [hcontent, hpayload]) scratch
      obtain ⟨b₂, hread, hvalid₂, hcontent₂, hsize₂⟩ :=
        @readPayload_compressed z b₁ scratch hvalid₁ (by omega) source rest flag hflag n hsize
          hcontent₁
      rw [hpayload, hread, hbatch] at hone
      have hshort : batch.length < 2 ^ 32 := by rwa [length_unpack hbatch]
      exact receiveLoop_of_batch hone hrecords hshort
        (ih hvalid₂ (by omega) hcontent₂ (by omega))

/-- The converse of `receiveLoop_of_batch`. -/
theorem ok_of_receiveLoop {b' : CircularBuffer UInt8} {scratch' batch : Bytes}
    (hone : receiveOne z scratch b = .ok (some batch, scratch', b'))
    (hlength : batch.length < 2 ^ 32) {fuel : ℕ}
    (h : ∃ out, receiveLoop z (fuel + 1) scratch b = .ok out) :
    WholeRecords batch ∧ ∃ out, receiveLoop z fuel scratch' b' = .ok out := by
  obtain ⟨out, hout⟩ := h
  rw [receiveLoop_batch hone] at hout
  obtain ⟨found, hfound, hout⟩ := bind_eq_ok hout
  obtain ⟨out', hout', -⟩ := map_eq_ok hout
  exact ⟨(onWirePacket_ok_iff hlength).mp ⟨found, hfound⟩, out', hout'⟩

/-- **The loop of `proxy_tick` is not safe** on other bytes. -/
theorem receivable_of_receiveLoop {fuel : ℕ} (hvalid : b.Valid) (hserves : b.size_ ≤ 2 ^ 31)
    (h : ∃ out, receiveLoop z fuel scratch b = .ok out) : Receivable z scratch b.content := by
  induction fuel generalizing scratch b with
  | zero =>
      obtain ⟨out, hout⟩ := h
      cases hout
  | succ fuel ih =>
      by_cases hincomplete :
          b.content.length ≤ 4 ∨ b.content.length < leNat (b.content.take 4) + 4
      · exact .incomplete hincomplete
      rw [not_or, not_le, not_lt] at hincomplete
      obtain ⟨hlarge, hwhole⟩ := hincomplete
      obtain ⟨payload, rest, hlength, hcontent⟩ := exists_payload hlarge.le hwhole
      have hsize : b.size_ = 4 + (payload.length + rest.length) := by
        rw [← hvalid.length_content, hcontent, List.length_append, List.length_append,
          length_leBytes]
      rw [hvalid.length_content] at hlarge
      obtain ⟨b₁, hvalid₁, hcontent₁, hsize₁, hone⟩ :=
        @receiveOne_length z b hvalid hlarge payload rest hlength hcontent scratch
      obtain ⟨flag, bytes, hfirst⟩ : ∃ flag bytes, payload ++ rest = flag :: bytes :=
        List.exists_cons_of_length_pos (by rw [List.length_append]; omega)
      -- The batch has room for its fields.
      have hroom : 1 ≤ payload.length ∧ (flag ≠ 0 → 5 ≤ payload.length) := by
        obtain ⟨out, hout⟩ := h
        rw [receiveLoop] at hout
        obtain ⟨found, hfound, -⟩ := bind_eq_ok hout
        rw [hone] at hfound
        obtain ⟨read, hread, -⟩ := map_eq_ok hfound
        exact room_of_readPayload hvalid₁ (by omega) (hcontent₁.trans hfirst) hread
      obtain ⟨flag', batch, rfl⟩ := List.exists_cons_of_length_pos hroom.1
      obtain rfl : flag' = flag := (List.cons.inj hfirst).1
      rw [hcontent]
      by_cases hflag : flag' = 0
      · subst hflag
        obtain ⟨b₂, hread, hvalid₂, hcontent₂, hsize₂⟩ :=
          @readPayload_stored z b₁ hvalid₁ (by omega) batch rest scratch hcontent₁
        rw [List.length_cons, Nat.add_comm] at hone hlength ⊢
        rw [hread] at hone
        obtain ⟨hrecords, hrest⟩ := ok_of_receiveLoop hone (by omega) h
        rw [← hcontent₂]
        exact .stored hlength hrecords (ih hvalid₂ (by omega) hrest)
      · have hfive := hroom.2 hflag
        rw [List.length_cons] at hfive
        obtain ⟨n, source, hn, rfl⟩ := exists_length (show 4 ≤ batch.length by omega)
        obtain ⟨b₂, hread, hvalid₂, hcontent₂, hsize₂⟩ :=
          @readPayload_compressed z b₁ scratch hvalid₁ (by omega) source rest flag' hflag n hn
            hcontent₁
        have hpayload : (flag' :: (leBytes 4 n ++ source)).length = 5 + source.length := by
          rw [List.length_cons, List.length_append, length_leBytes]
          omega
        rw [hpayload] at hone hlength ⊢
        rw [hread] at hone
        -- The loop has gone on, so the batch was unpacked.
        obtain ⟨⟨unpacked, scratch'⟩, hbatch⟩ : ∃ out, unpack z scratch source n = .ok out := by
          obtain ⟨out, hout⟩ := h
          rw [receiveLoop, hone] at hout
          obtain ⟨found, hfound, -⟩ := bind_eq_ok hout
          obtain ⟨read, hread, -⟩ := map_eq_ok hfound
          obtain ⟨unpacked, hbatch, -⟩ := map_eq_ok hread
          exact ⟨unpacked, hbatch⟩
        rw [hbatch] at hone
        obtain ⟨hrecords, hrest⟩ := ok_of_receiveLoop hone (by rwa [length_unpack hbatch]) h
        rw [← hcontent₂]
        exact .compressed hflag hlength hn hbatch hrecords (ih hvalid₂ (by omega) hrest)

/-- **The loop of `proxy_tick` is safe exactly on receivable bytes.** -/
theorem receiveLoop_ok_iff (hvalid : b.Valid) (hserves : b.size_ ≤ 2 ^ 31) (scratch : Bytes) :
    (∃ out, receiveLoop z (b.size_ + 1) scratch b = .ok out) ↔
      Receivable z scratch b.content := by
  refine ⟨receivable_of_receiveLoop hvalid hserves, fun h => ?_⟩
  obtain ⟨out, hout, -⟩ := receiveLoop_of_receivable h hvalid hserves rfl (Nat.lt_succ_self _)
  exact ⟨out, hout⟩

end

/-! ## What the code does where nothing goes wrong -/

/-- The `switch` takes nothing back. -/
theorem remaining_dispatch {header : PacketHeader} {input input' : DataIn}
    {message : Option Message} (h : dispatch header input = some (message, input')) :
    input'.remaining ≤ input.remaining := by
  have hread : ∀ {i i' : DataIn} {size : ℕ} {bytes : Bytes},
      i.read size = some (bytes, i') → i'.remaining ≤ i.remaining := by
    intro i i' size bytes h
    rw [DataIn.read] at h
    split at h
    · cases h
    · cases h
      dsimp only
      omega
  rw [dispatch] at h
  split at h
  · obtain ⟨⟨address, i⟩, haddress, heq⟩ := Option.map_eq_some_iff.mp h
    obtain rfl : i = input' := (Prod.mk.inj heq).2
    rw [DataIn.readAddress] at haddress
    split at haddress
    · cases haddress
    next h₁ =>
      split at haddress
      · split at haddress
        · cases haddress
        next h₂ =>
          obtain ⟨⟨port, i₃⟩, h₃, heq⟩ := Option.map_eq_some_iff.mp haddress
          obtain rfl : i₃ = i := (Prod.mk.inj heq).2
          exact (hread h₃).trans ((hread h₂).trans (hread h₁))
      · cases haddress
  · split at h
    · cases h
      exact le_rfl
    · split at h
      · cases h
        rw [DataIn.skip]
        split
        · exact le_rfl
        · dsimp only
          omega
      · cases h
        exact le_rfl

/-- What is done safely is what `on_wire_packet` does. -/
theorem onWirePacketLoop_eq {fuel : ℕ} {input : DataIn} {messages : List Message} {ended : Bool}
    (h : onWirePacketLoop fuel input = .ok (messages, ended)) {n : ℕ} (hn : input.remaining ≤ n) :
    ∃ rest, Proxy.onWirePacketLoop n input = (messages, ended, rest) := by
  induction fuel generalizing input messages ended n with
  | zero => cases h
  | succ fuel ih =>
      rw [onWirePacketLoop] at h
      split at h
      next hzero =>
        cases h
        refine ⟨input, ?_⟩
        cases n with
        | zero => rw [Proxy.onWirePacketLoop, decide_eq_true hzero]
        | succ n => rw [Proxy.onWirePacketLoop, if_pos hzero]
      next hnonzero =>
      split at h
      · cases h
      split at h
      next hheader =>
        cases h
        refine ⟨input, ?_⟩
        cases n with
        | zero => rw [Proxy.onWirePacketLoop, decide_eq_false hnonzero]
        | succ n =>
            rw [Proxy.onWirePacketLoop, if_neg hnonzero, nextMessage, hheader]
            rfl
      next header input₁ hheader =>
      split at h
      · cases h
      -- A header is only read where there are seven bytes.
      have hseven : input₁.remaining = input.remaining - 7 ∧ 7 ≤ input.remaining := by
        rw [DataIn.readHeader, DataIn.read] at hheader
        split at hheader
        · cases hheader
        next hlarge =>
          cases hheader
          exact ⟨rfl, not_lt.mp hlarge⟩
      obtain ⟨n, rfl⟩ : ∃ k, n = k + 1 := ⟨n - 1, by omega⟩
      have hnext : nextMessage input = dispatch header input₁ := by
        rw [nextMessage, hheader]
        rfl
      split at h
      next hdispatch =>
        cases h
        exact ⟨input, by rw [Proxy.onWirePacketLoop, if_neg hnonzero, hnext, hdispatch]⟩
      next message input₂ hdispatch =>
        obtain ⟨⟨found, ended'⟩, hloop, heq⟩ := map_eq_ok h
        cases heq
        have hle := remaining_dispatch hdispatch
        obtain ⟨rest, hrest⟩ := ih hloop (show input₂.remaining ≤ n by push_cast at hn; omega)
        refine ⟨rest, ?_⟩
        rw [Proxy.onWirePacketLoop, if_neg hnonzero, hnext, hdispatch]
        dsimp only
        rw [hrest]

/-- What is read safely is what `proxy_tick` reads, up to the bytes that `uncompress` has not
written. -/
theorem readPayload_eq {z : Zlib} {scratch scratch' batch : Bytes} {b b' : CircularBuffer UInt8}
    {n : ℕ} (hn : n < 2 ^ 32) (h : readPayload z scratch b n = .ok (batch, scratch', b')) :
    ∃ written, Proxy.readPayload z b n = some (written, b') ∧ written <+: batch := by
  have hread : ∀ {b b' : CircularBuffer UInt8} {size : ℕ} {bytes : Bytes},
      read b size = .ok (bytes, b') → b.read (List.replicate size 0) = some (bytes, b') := by
    intro b b' size bytes h
    rw [read] at h
    split at h
    · cases h
    next heq =>
      cases h
      exact heq
  have hless : ∀ {size k payloadSize : ℕ}, less size k = .ok payloadSize → size < 2 ^ 32 →
      (size + 2 ^ 32 - k) % 2 ^ 32 = payloadSize ∧ payloadSize < 2 ^ 32 := by
    intro size k payloadSize h hsize
    rw [less] at h
    split at h
    · cases h
    · cases h
      omega
  rw [readPayload] at h
  obtain ⟨⟨flag, b₁⟩, h₁, h⟩ := bind_eq_ok h
  obtain ⟨size₁, hsize₁, h⟩ := bind_eq_ok h
  obtain ⟨hsize₁, hlt₁⟩ := hless hsize₁ hn
  rw [Proxy.readPayload, show [0] = List.replicate 1 (0 : UInt8) from rfl, hread h₁,
    Option.bind_some]
  dsimp only at h ⊢
  rw [hsize₁]
  by_cases hflag : flag = [0]
  · rw [if_pos hflag] at h
    obtain ⟨⟨bytes, b₂⟩, h₂, heq⟩ := map_eq_ok h
    cases heq
    rw [show List.replicate 1 (0 : UInt8) = [0] from rfl, if_pos hflag, hread h₂]
    exact ⟨_, rfl, List.prefix_rfl⟩
  · rw [if_neg hflag] at h
    obtain ⟨⟨uncompressedSize, b₂⟩, h₂, h⟩ := bind_eq_ok h
    obtain ⟨size₂, hsize₂, h⟩ := bind_eq_ok h
    obtain ⟨⟨source, b₃⟩, h₃, h⟩ := bind_eq_ok h
    obtain ⟨⟨unpacked, scratch₂⟩, hunpack, heq⟩ := map_eq_ok h
    cases heq
    rw [show List.replicate 1 (0 : UInt8) = [0] from rfl, if_neg hflag, hread h₂,
      Option.bind_some]
    dsimp only
    rw [(hless hsize₂ hlt₁).1, hread h₃]
    refine ⟨_, rfl, ?_⟩
    rw [unpack] at hunpack
    split at hunpack
    · cases hunpack
    next hle =>
      cases hunpack
      exact List.prefix_take_iff.mpr ⟨List.prefix_append _ _, not_lt.mp hle⟩

/-! ## Runs -/

theorem run_error (z : Zlib) (fault : ParseFault) (events : List WireEvent) :
    run (receiveStep z) (.error fault) events = .error fault := by
  induction events with
  | nil => rfl
  | cons event events ih => exact ih

/-- From any state. -/
theorem run_ok_iff {z : Zlib} {events : List WireEvent} {s : Intake} (hvalid : s.buffer.Valid)
    (hserves : Along (receiveStep z) Serves (.ok s) events) :
    (∃ s', run (receiveStep z) (.ok s) events = .ok s') ↔
      Along (receiveStep z) (Parses z) (.ok s) events := by
  induction events generalizing s with
  | nil => exact ⟨fun _ => trivial, fun _ => ⟨s, rfl⟩⟩
  | cons event events ih =>
      rw [along_cons] at hserves ⊢
      rw [run_cons]
      obtain ⟨hevent, hserves⟩ := hserves
      cases event with
      | chunk data =>
          obtain ⟨b', hwrite, hvalid', -⟩ :=
            @CircularBuffer.write_eq _ s.buffer _ (.data data) hvalid (by simp) (hevent s rfl)
          have hstep : receiveStep z (.ok s) (.chunk data) = .ok { s with buffer := b' } := by
            rw [receiveStep, bind_ok]
            dsimp only
            rw [hwrite]
          rw [hstep] at hserves ⊢
          rw [ih hvalid' hserves]
          exact ⟨fun h => ⟨nofun, h⟩, fun h => h.2⟩
      | tick =>
          have hsize : s.buffer.size_ ≤ 2 ^ 31 := hevent s rfl
          have hparses : Parses z (.ok s) .tick ↔ Receivable z s.scratch s.buffer.content := by
            refine ⟨fun h => h s rfl rfl, fun h s' hs' _ => ?_⟩
            cases hs'
            exact h
          rw [hparses, ← receiveLoop_ok_iff hvalid hsize]
          cases hloop : receiveLoop z (s.buffer.size_ + 1) s.scratch s.buffer with
          | error fault =>
              have hstep : receiveStep z (.ok s) .tick = .error fault := by
                rw [receiveStep, bind_ok]
                dsimp only
                rw [hloop]
                rfl
              rw [hstep, run_error]
              constructor
              · rintro ⟨s', hs'⟩
                cases hs'
              · rintro ⟨⟨out, hout⟩, -⟩
                cases hout
          | ok out =>
              have hstep : receiveStep z (.ok s) .tick =
                  .ok ⟨out.2.2, out.2.1, s.messages ++ out.1⟩ := by
                rw [receiveStep, bind_ok]
                dsimp only
                rw [hloop]
                rfl
              -- The buffer is valid afterwards, as the bytes were receivable.
              obtain ⟨out', hout', hvalid'⟩ := receiveLoop_of_receivable
                ((receiveLoop_ok_iff hvalid hsize s.scratch).mp ⟨out, hloop⟩) hvalid hsize rfl
                (Nat.lt_succ_self _)
              rw [hloop] at hout'
              cases hout'
              rw [hstep] at hserves ⊢
              rw [ih hvalid' hserves]
              exact ⟨fun h => ⟨⟨out, rfl⟩, h⟩, fun h => h.2⟩

end Checked

/-- **Nothing goes wrong on the wire** exactly if the bytes are receivable at every tick, as long as
the ring buffer serves: the batches have room for their fields, and no record of data announces
more than what remains of its batch. -/
theorem wire_parsing (z : Zlib) (events : List WireEvent)
    (hserves : Along (Checked.receiveStep z) Serves (.ok {}) events) :
    (∃ s, run (Checked.receiveStep z) (.ok {}) events = .ok s) ↔
      Along (Checked.receiveStep z) (Parses z) (.ok {}) events :=
  Checked.run_ok_iff CircularBuffer.valid_empty hserves

/-- A stored batch with a record of data, cut in pieces, and a compressed one with a `CLOSE`. -/
def recordStream : List WireEvent :=
  [.chunk [11, 0, 0, 0, 0, 3, 0, 1, 0, 0], .tick,
    .chunk [0, 2, 7, 8, 9, 12, 0, 0, 0, 1, 7, 0, 0, 0, 0, 0, 1, 0, 0, 0, 1], .tick]

/-- Both batches are received. -/
theorem wire_parsing_recordStream :
    Along (Checked.receiveStep copying) Serves (.ok {}) recordStream ∧
      (run (Checked.receiveStep copying) (.ok {}) recordStream).toOption.map Intake.messages =
        some [.data 1 true [7, 8, 9], .close 1] ∧
      Along (Checked.receiveStep copying) (Parses copying) (.ok {}) recordStream := by
  have hserves : Along (Checked.receiveStep copying) Serves (.ok {}) recordStream := by
    decide +kernel
  have hrun : (run (Checked.receiveStep copying) (.ok {}) recordStream).toOption.map
      Intake.messages = some [.data 1 true [7, 8, 9], .close 1] := by decide +kernel
  refine ⟨hserves, hrun, (wire_parsing copying recordStream hserves).mp ?_⟩
  cases h : run (Checked.receiveStep copying) (.ok {}) recordStream with
  | error fault =>
      rw [h] at hrun
      cases hrun
  | ok s => exact ⟨s, rfl⟩

/-- The length of a batch that has no room for its first byte wraps around; and of a record that
announces five bytes and has none, the five bytes behind the batch are sent. -/
theorem wire_parsing_fails :
    (run (Checked.receiveStep copying) (.ok {}) [.chunk [0, 0, 0, 0, 0], .tick]).map
        Intake.messages = .error .underflow ∧
      (run (Checked.receiveStep copying) (.ok {})
        [.chunk [8, 0, 0, 0, 0, 5, 0, 1, 0, 0, 0, 2], .tick]).map Intake.messages =
          .error .overlong ∧
      (onWirePacket ([5, 0, 1, 0, 0, 0, 2] ++ [9, 9, 9, 9, 9]) 7).1 =
        [.data 1 true [9, 9, 9, 9, 9]] := by
  decide +kernel

end Proxy
end MrUDP
