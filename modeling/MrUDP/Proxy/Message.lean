import MrUDP.Lib.Wire

/-!
# The messages of a proxy

`mrudp/Proxy.cpp`.  Two proxies share one connection, the wire, for all the connections they
forward.  `proxy_send_queue` puts messages one behind the other, each with a header that says how
long it is and which connection it is for, and `on_wire_packet` takes them apart again.

The length in the header has 16 bits, but the data it is about need not: a client whose connection
is compressed hands over blocks of any length.

## Main definitions

* `Proxy.Message`: what the proxies tell each other.
* `Proxy.sendQueue`, `Proxy.onWirePacket`: messages to bytes and back.
* `Proxy.multiplexing`: what is taken apart is what was put together, if the lengths fit.
-/

namespace MrUDP
open Wire

/-- `ProxyID`. -/
abbrev ProxyID := BitVec 32

/-- The connections of a proxy are in order. -/
instance transOrd_proxyID : Std.TransOrd ProxyID := BitVec.instTransOrd

namespace Proxy

/-! ## Reading -/

/-- `DataIn`.  `data` is the memory from the pointer on, also that behind the packet. -/
structure DataIn where
  data : Bytes
  remaining : ℤ
  deriving DecidableEq, Repr

/-- `read(DataIn &, char *, int)`. -/
def DataIn.read (input : DataIn) (size : ℕ) : Option (Bytes × DataIn) :=
  if input.remaining < size then none
  else some (input.data.take size, ⟨input.data.drop size, input.remaining - size⟩)

/-- `skip(DataIn &, int)`. -/
def DataIn.skip (input : DataIn) (size : ℕ) : DataIn :=
  if input.remaining < size then input
  else ⟨input.data.drop size, input.remaining - size⟩

/-! ## Messages -/

/-- `ProxyPacketMode`. -/
abbrev PacketMode := UInt8

namespace PacketMode

/-- `OPEN`. -/
def «open» : PacketMode := 0
/-- `CLOSE`. -/
def close : PacketMode := 1
/-- `RELIABLE`. -/
def reliable : PacketMode := 2
/-- `UNRELIABLE`. -/
def unreliable : PacketMode := 3

end PacketMode

/-- `ProxyPacketHeader`. -/
structure PacketHeader where
  size : ℕ
  id : ProxyID
  type : PacketMode
  deriving DecidableEq, Repr

/-- The bytes of a header.  The size is cut to 16 bits. -/
def PacketHeader.bytes (header : PacketHeader) : Bytes :=
  leBytes 2 header.size ++ (leBytes 4 header.id.toNat ++ [header.type])

/-- `read(in, header)`. -/
def DataIn.readHeader (input : DataIn) : Option (PacketHeader × DataIn) :=
  (input.read 7).map fun (bytes, input) =>
    (⟨leNat (bytes.take 2), BitVec.ofNat 32 (leNat ((bytes.drop 2).take 4)),
      (bytes.drop 6).headD 0⟩, input)

/-- The part of an IPv4 `mrudp_addr_t` that is passed on. -/
structure ProxyAddress where
  sinAddr : BitVec 32
  sinPort : BitVec 16
  deriving DecidableEq, Repr

/-- `write(v, const mrudp_addr_t &)`: the character `4`, the address and the port. -/
def ProxyAddress.bytes (address : ProxyAddress) : Bytes :=
  52 :: (leBytes 4 address.sinAddr.toNat ++ leBytes 2 address.sinPort.toNat)

/-- `read(v, mrudp_addr_t &)`. -/
def DataIn.readAddress (input : DataIn) : Option (ProxyAddress × DataIn) :=
  match input.read 1 with
  | none => none
  | some (type, input) =>
      if type = [52] then
        match input.read 4 with
        | none => none
        | some (sinAddr, input) =>
            (input.read 2).map fun (sinPort, input) =>
              (⟨BitVec.ofNat 32 (leNat sinAddr), BitVec.ofNat 16 (leNat sinPort)⟩, input)
      else none

/-- What one proxy tells the other: a call of `proxy_send_queue`, and what `on_wire_packet` does
about it. -/
inductive Message
  | open (id : ProxyID) (address : ProxyAddress)
  | close (id : ProxyID)
  | data (id : ProxyID) (isReliable : Bool) (bytes : Bytes)
  deriving DecidableEq, Repr

namespace Message

/-- The identifier of the connection. -/
def id : Message → ProxyID
  | .open id _ | .close id | .data id _ _ => id

/-- `ProxyPacketMode`. -/
def mode : Message → PacketMode
  | .open _ _ => PacketMode.open
  | .close _ => PacketMode.close
  | .data _ isReliable _ => if isReliable then PacketMode.reliable else PacketMode.unreliable

/-- The data that goes with the header. -/
def payload : Message → Bytes
  | .open _ address => address.bytes
  | .close _ => []
  | .data _ _ bytes => bytes

/-- The bytes of a message. -/
def bytes (message : Message) : Bytes :=
  (PacketHeader.mk message.payload.length message.id message.mode).bytes ++ message.payload

end Message

/-- `proxy_send_queue`. -/
def sendQueue (out : Bytes) (message : Message) : Bytes := out ++ message.bytes

/-- The `switch` of `on_wire_packet`. -/
def dispatch (header : PacketHeader) (input : DataIn) : Option (Option Message × DataIn) :=
  if header.type = PacketMode.open then
    input.readAddress.map fun (address, input) => (some (.open header.id address), input)
  else if header.type = PacketMode.close then some (some (.close header.id), input)
  else if header.type = PacketMode.reliable ∨ header.type = PacketMode.unreliable then
    -- What is sent is not checked against what remains.
    some (some (.data header.id (header.type = PacketMode.reliable)
      (input.data.take header.size)), input.skip header.size)
  else some (none, input)

/-- One round of the loop of `on_wire_packet`, which may do something. -/
def nextMessage (input : DataIn) : Option (Option Message × DataIn) :=
  input.readHeader.bind fun (header, input) => dispatch header input

/-- The loop of `on_wire_packet`: what it does, whether it ends without an error, and where.  Every
round takes off a header. -/
def onWirePacketLoop : ℕ → DataIn → List Message × Bool × DataIn
  | 0, input => ([], input.remaining = 0, input)
  | fuel + 1, input =>
      if input.remaining = 0 then ([], true, input)
      else
        match nextMessage input with
        | none => ([], false, input)
        | some (message, input) =>
            let (messages, rest) := onWirePacketLoop fuel input
            (message.toList ++ messages, rest)

/-- `on_wire_packet`, on a packet at the beginning of the memory.  Its size is an `int`. -/
def onWirePacket (memory : Bytes) (size : BitVec 32) : List Message × Bool × DataIn :=
  onWirePacketLoop size.toInt.toNat ⟨memory, size.toInt⟩

/-! ## What was written is read -/

theorem read_append (bytes rest : Bytes) (remaining : ℤ) {n : ℕ} (hn : bytes.length = n)
    (h : n ≤ remaining) :
    DataIn.read ⟨bytes ++ rest, remaining⟩ n = some (bytes, ⟨rest, remaining - n⟩) := by
  rw [DataIn.read, if_neg (by dsimp only; omega), List.take_left' hn, List.drop_left' hn]

theorem length_header (header : PacketHeader) : header.bytes.length = 7 := by
  simp [PacketHeader.bytes]

theorem length_address (address : ProxyAddress) : address.bytes.length = 7 := by
  simp [ProxyAddress.bytes]

variable {remaining : ℤ} {messages : List Message}

/-- The size of a header is read modulo `2 ^ 16`. -/
theorem readHeader_append (header : PacketHeader) (rest : Bytes) (h : 7 ≤ remaining) :
    DataIn.readHeader ⟨header.bytes ++ rest, remaining⟩ =
      some ({ header with size := header.size % 2 ^ 16 }, ⟨rest, remaining - 7⟩) := by
  have hread := read_append header.bytes rest remaining (length_header header) h
  have hsize : header.bytes.take 2 = leBytes 2 header.size := List.take_left' (length_leBytes ..)
  have hrest : header.bytes.drop 2 = leBytes 4 header.id.toNat ++ [header.type] :=
    List.drop_left' (length_leBytes ..)
  have hid : (header.bytes.drop 2).take 4 = leBytes 4 header.id.toNat := by
    rw [hrest]
    exact List.take_left' (length_leBytes ..)
  have htype : header.bytes.drop 6 = [header.type] := by
    rw [show 6 = 2 + 4 by rfl, ← List.drop_drop, hrest]
    exact List.drop_left' (length_leBytes ..)
  rw [DataIn.readHeader, hread, Option.map_some]
  dsimp only
  rw [hsize, hid, htype, leNat_leBytes_mod, ofNat_leNat_leBytes header.id (by norm_num)]
  rfl

theorem readAddress_append (address : ProxyAddress) (rest : Bytes) (h : 7 ≤ remaining) :
    DataIn.readAddress ⟨address.bytes ++ rest, remaining⟩ =
      some (address, ⟨rest, remaining - 7⟩) := by
  have hbytes : address.bytes ++ rest = [52] ++ (leBytes 4 address.sinAddr.toNat ++
      (leBytes 2 address.sinPort.toNat ++ rest)) := by
    simp [ProxyAddress.bytes]
  rw [DataIn.readAddress, hbytes, read_append [52] _ _ (n := 1) rfl (by omega)]
  dsimp only
  rw [if_pos rfl, read_append _ _ _ (length_leBytes ..) (by omega)]
  dsimp only
  rw [read_append _ _ _ (length_leBytes ..) (by omega), Option.map_some,
    ofNat_leNat_leBytes _ (by norm_num), ofNat_leNat_leBytes _ (by norm_num)]
  dsimp only
  congr 3
  omega

theorem length_message (message : Message) : message.bytes.length = 7 + message.payload.length := by
  rw [Message.bytes, List.length_append, length_header]

theorem dispatch_open {header : PacketHeader} (h : header.type = PacketMode.open)
    (input : DataIn) :
    dispatch header input =
      input.readAddress.map fun (address, input) => (some (.open header.id address), input) :=
  if_pos h

theorem dispatch_close {header : PacketHeader} (h : header.type = PacketMode.close)
    (input : DataIn) : dispatch header input = some (some (.close header.id), input) := by
  rw [dispatch, if_neg (by rw [h]; decide), if_pos h]

theorem dispatch_data {header : PacketHeader} {isReliable : Bool}
    (h : header.type = if isReliable then PacketMode.reliable else PacketMode.unreliable)
    (input : DataIn) :
    dispatch header input =
      some (some (.data header.id isReliable (input.data.take header.size)),
        input.skip header.size) := by
  cases isReliable with
  | true =>
      have htype : header.type = PacketMode.reliable := h
      rw [dispatch, if_neg (by rw [htype]; decide), if_neg (by rw [htype]; decide),
        if_pos (.inl htype), decide_eq_true htype]
  | false =>
      have htype : header.type = PacketMode.unreliable := h
      rw [dispatch, if_neg (by rw [htype]; decide), if_neg (by rw [htype]; decide),
        if_pos (.inr htype), decide_eq_false (by rw [htype]; decide)]

theorem nextMessage_bytes (message : Message) (rest : Bytes) (h : 7 ≤ remaining) :
    nextMessage ⟨message.bytes ++ rest, remaining⟩ =
      dispatch ⟨message.payload.length % 2 ^ 16, message.id, message.mode⟩
        ⟨message.payload ++ rest, remaining - 7⟩ := by
  rw [nextMessage, Message.bytes, List.append_assoc, readHeader_append _ _ h]
  rfl

/-- **A message whose length fits is read as it was written.** -/
theorem nextMessage_append {message : Message} (hsize : message.payload.length < 2 ^ 16)
    (rest : Bytes) (h : message.bytes.length ≤ remaining) :
    nextMessage ⟨message.bytes ++ rest, remaining⟩ =
      some (some message, ⟨rest, remaining - message.bytes.length⟩) := by
  rw [length_message] at h ⊢
  rw [nextMessage_bytes message rest (by omega)]
  cases message with
  | «open» id address =>
      rw [dispatch_open rfl]
      dsimp only [Message.payload] at h ⊢
      rw [length_address] at h ⊢
      rw [readAddress_append _ _ (by omega), Option.map_some]
      dsimp only [Message.id]
      congr 3
      omega
  | close id =>
      rw [dispatch_close rfl]
      rfl
  | data id isReliable bytes =>
      rw [dispatch_data rfl]
      dsimp only [Message.payload, Message.id] at h hsize ⊢
      have hskip : DataIn.skip ⟨bytes ++ rest, remaining - 7⟩ bytes.length =
          ⟨rest, remaining - (7 + bytes.length : ℕ)⟩ := by
        rw [DataIn.skip, if_neg (by dsimp only; omega), List.drop_left]
        congr 1
        push_cast
        ring
      rw [Nat.mod_eq_of_lt hsize, hskip, List.take_left]

/-- Of data whose length does not fit, something shorter is sent on. -/
theorem nextMessage_long {id : ProxyID} {isReliable : Bool} {bytes : Bytes}
    (hsize : 2 ^ 16 ≤ bytes.length) (rest : Bytes) (h : 7 ≤ remaining) :
    ∃ shorter input, nextMessage ⟨(Message.data id isReliable bytes).bytes ++ rest, remaining⟩ =
      some (some (.data id isReliable shorter), input) ∧ shorter.length < bytes.length := by
  rw [nextMessage_bytes _ rest h, dispatch_data rfl]
  refine ⟨_, _, rfl, ?_⟩
  dsimp only [Message.payload]
  rw [List.length_take]
  omega

/-! ## All messages -/

theorem foldl_sendQueue (messages : List Message) (out : Bytes) :
    messages.foldl sendQueue out = out ++ messages.flatMap Message.bytes := by
  induction messages generalizing out with
  | nil => simp
  | cons message messages ih =>
      rw [List.foldl_cons, ih, sendQueue, List.flatMap_cons, List.append_assoc]

/-- The loop reads all messages, if their lengths fit. -/
theorem onWirePacketLoop_append (hsize : ∀ m ∈ messages, m.payload.length < 2 ^ 16) (rest : Bytes)
    {fuel : ℕ} (hfuel : (messages.flatMap Message.bytes).length ≤ fuel) :
    onWirePacketLoop fuel ⟨messages.flatMap Message.bytes ++ rest,
      (messages.flatMap Message.bytes).length⟩ = (messages, true, ⟨rest, 0⟩) := by
  induction messages generalizing fuel with
  | nil =>
      cases fuel with
      | zero => rfl
      | succ fuel => rfl
  | cons message messages ih =>
      have hlength := length_message message
      rw [List.flatMap_cons, List.length_append] at hfuel ⊢
      obtain ⟨fuel, rfl⟩ : ∃ n, fuel = n + 1 := ⟨fuel - 1, by omega⟩
      rw [onWirePacketLoop, if_neg (by dsimp only; omega), List.append_assoc,
        nextMessage_append (hsize message List.mem_cons_self) _ (by push_cast; omega)]
      have hremaining : ((message.bytes.length + (messages.flatMap Message.bytes).length : ℕ) : ℤ) -
          message.bytes.length = (messages.flatMap Message.bytes).length := by
        push_cast
        ring
      dsimp only
      rw [hremaining, ih (fun m hm => hsize m (List.mem_cons_of_mem _ hm)) (by omega)]
      rfl

/-- The loop does not read all messages, if a length does not fit. -/
theorem lengths_of_onWirePacketLoop {rest : Bytes} {fuel : ℕ}
    (hremaining : (messages.flatMap Message.bytes).length ≤ remaining)
    (h : (onWirePacketLoop fuel ⟨messages.flatMap Message.bytes ++ rest, remaining⟩).1 = messages) :
    ∀ m ∈ messages, m.payload.length < 2 ^ 16 := by
  induction messages generalizing fuel remaining with
  | nil => simp
  | cons message messages ih =>
      have hlength := length_message message
      rw [List.flatMap_cons, List.length_append] at hremaining
      rw [List.flatMap_cons, List.append_assoc] at h
      cases fuel with
      | zero => cases h
      | succ fuel =>
          rw [onWirePacketLoop, if_neg (by dsimp only; omega)] at h
          by_cases hsize : message.payload.length < 2 ^ 16
          · rw [nextMessage_append hsize _ (by omega)] at h
            have hrest := ih (by omega) (List.cons.inj h).2
            intro m hm
            rcases List.mem_cons.mp hm with rfl | hm
            · exact hsize
            · exact hrest m hm
          · -- Only data can be that long, and less of it is sent on.
            cases message with
            | «open» id address =>
                rw [Message.payload, length_address] at hsize
                omega
            | close id => exact absurd (by norm_num [Message.payload]) hsize
            | data id isReliable bytes =>
                obtain ⟨shorter, input, hnext, hshorter⟩ :=
                  @nextMessage_long remaining id isReliable bytes (not_lt.mp hsize)
                    (messages.flatMap Message.bytes ++ rest) (by omega)
                rw [hnext] at h
                have hsame : Message.data id isReliable shorter = .data id isReliable bytes :=
                  (List.cons.inj h).1
                rw [(Message.data.inj hsame).2.2] at hshorter
                exact absurd hshorter (lt_irrefl _)

theorem toInt_ofNat_length {bytes : Bytes} (h : bytes.length < 2 ^ 31) :
    (BitVec.ofNat 32 bytes.length).toInt = bytes.length := by
  rw [BitVec.toInt_ofNat', Int.bmod_eq_of_le (by omega) (by omega)]

/-- `on_wire_packet` reads all messages, if their lengths fit. -/
theorem onWirePacket_append (hsize : (messages.flatMap Message.bytes).length < 2 ^ 31)
    (h : ∀ m ∈ messages, m.payload.length < 2 ^ 16) (rest : Bytes) :
    onWirePacket (messages.flatMap Message.bytes ++ rest)
      (BitVec.ofNat 32 (messages.flatMap Message.bytes).length) = (messages, true, ⟨rest, 0⟩) := by
  rw [onWirePacket, toInt_ofNat_length hsize]
  exact onWirePacketLoop_append h rest le_rfl

/-- **What is taken apart is what was put together**, whatever lies behind it in memory, and nothing
remains, exactly if every length fits in 16 bits. -/
theorem multiplexing (messages : List Message)
    (hsize : (messages.foldl sendQueue []).length < 2 ^ 31) :
    (∀ rest, onWirePacket (messages.foldl sendQueue [] ++ rest)
        (BitVec.ofNat 32 (messages.foldl sendQueue []).length) = (messages, true, ⟨rest, 0⟩)) ↔
      ∀ m ∈ messages, m.payload.length < 2 ^ 16 := by
  have hout : messages.foldl sendQueue [] = messages.flatMap Message.bytes := by
    rw [foldl_sendQueue, List.nil_append]
  rw [hout] at hsize ⊢
  refine ⟨fun h => ?_, fun h rest => onWirePacket_append hsize h rest⟩
  have hfirst := congrArg Prod.fst (h [])
  rw [onWirePacket, toInt_ofNat_length hsize] at hfirst
  exact lengths_of_onWirePacketLoop le_rfl hfirst

/-- A connection is opened, used and closed. -/
def forwarded : List Message :=
  [.open 1 ⟨0x0100007f, 0x5000⟩, .data 1 true [7, 8], .data 1 false [9], .close 1]

theorem multiplexing_forwarded :
    onWirePacket (forwarded.foldl sendQueue [] ++ [255]) 38 = (forwarded, true, ⟨[255], 0⟩) :=
  (multiplexing forwarded (by decide)).mpr (by decide) [255]

/-- A block as long as `2 ^ 16` bytes. -/
def block : Message := .data 1 true (List.replicate (2 ^ 16) 0)

/-- **A block of `2 ^ 16` bytes does not arrive.** -/
theorem block_lost :
    (onWirePacket ([block].foldl sendQueue []) (BitVec.ofNat 32 (2 ^ 16 + 7))).1 ≠ [block] := by
  intro h
  have hout : [block].foldl sendQueue [] = [block].flatMap Message.bytes ++ [] := by
    rw [foldl_sendQueue, List.nil_append, List.append_nil]
  have hpayload : block.payload.length = 2 ^ 16 := List.length_replicate
  have hlength : ([block].flatMap Message.bytes).length = 2 ^ 16 + 7 := by
    rw [List.flatMap_singleton, length_message, hpayload, Nat.add_comm]
  have hint : (BitVec.ofNat 32 (2 ^ 16 + 7)).toInt = 2 ^ 16 + 7 := by decide
  rw [onWirePacket, hout, hint] at h
  have hsize := lengths_of_onWirePacketLoop (by rw [hlength]; norm_num) h block (by simp)
  omega

end Proxy
end MrUDP
