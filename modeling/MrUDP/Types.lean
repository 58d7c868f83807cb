import MrUDP.Lib.Rounding
import MrUDP.Lib.Wire

/-!
# Identifiers, options and status values

`mrudp/Types.h` and the option records of `mrudp/mrudp.h`.  Unsigned integers of
fixed width are bit vectors.  The two signed options that travel in the handshake
are bit vectors read in two's complement; the others are integers.

Time is `std::chrono::steady_clock`: a time point is a number of nanoseconds, a
`Duration` a number of milliseconds.  Where the source computes with `float`, the
definition takes the arithmetic as its last argument, and rounds every result as IEEE
754 does unless it is told otherwise.
-/

namespace MrUDP

/-! ## Identifiers -/

abbrev PacketID := BitVec 16
abbrev FrameID := BitVec 16
abbrev ShortConnectionID := BitVec 16

/-- `LongConnectionID::bytes`, read as one little-endian number. -/
abbrev LongConnectionID := BitVec 128

/-- Maps with short identifiers as their keys are in order. -/
instance transOrd_shortID : Std.TransOrd (BitVec 16) := BitVec.instTransOrd

instance transOrd_longID : Std.TransOrd LongConnectionID := BitVec.instTransOrd

/-- `mrudp_addr_t`, compared by its 28 bytes: they are read as one little-endian
number. -/
abbrev Address := BitVec 224

/-- `Reliability`. -/
inductive Reliability
  | unreliable
  | reliable
  deriving DecidableEq, Repr

/-! ## Status values -/

/-- `Sender::Status` and `Receiver::Status`, in their order. -/
inductive Status
  | uninitialized
  | open
  | closed
  deriving DecidableEq, Repr

/-- The status of a component that is open from the start. -/
inductive OpenStatus
  | open
  | closed
  deriving DecidableEq, Repr

/-- `mrudp_event_t`. -/
inductive Event
  | notAccepted
  | timeout
  | closed
  deriving DecidableEq, Repr

/-- `ErrorCode`.  The source gives `ERROR_CONNECTION_CLOSED` the value of
`ERROR_PACKET_SIZE_TOO_LARGE`. -/
abbrev ErrorCode := ℕ

namespace ErrorCode
abbrev ok : ErrorCode := 0
abbrev generalFailure : ErrorCode := 1
abbrev packetSizeTooLarge : ErrorCode := 2
abbrev connectionClosed : ErrorCode := 2
end ErrorCode

/-! ## Time -/

/-- A time point in nanoseconds. -/
abbrev Timepoint := ℤ

/-- The nanoseconds in a number of milliseconds. -/
def milliseconds (n : ℤ) : ℤ := n * 1000000

/-- `toDuration`: seconds to whole milliseconds, cut towards zero.  They are taken to fit in
an `int`. -/
def toDuration (v : ℚ) (fp : Arithmetic := .ieee) : ℤ :=
  let ms := fp.single (v * 1000)
  if ms < 0 then -(-ms).floor else ms.floor

/-! ## Options -/

/-- `mrudp_coalesce_mode_t`, and the `-1` that leaves the choice to `merge`. -/
inductive CoalesceMode
  | unset
  | none
  | packet
  | stream
  | streamCompressed
  deriving DecidableEq, Repr

/-- `mrudp_coalesce_options_t`. -/
structure CoalesceOptions where
  mode : CoalesceMode
  delayMS : ℤ
  compressionLevel : ℤ
  deriving DecidableEq, Repr

/-- `mrudp_connection_options_t`. -/
structure ConnectionOptions where
  coalesceReliable : CoalesceOptions
  coalesceUnreliable : CoalesceOptions
  probeDelayMS : BitVec 32
  maximumRetryAttempts : BitVec 16
  deriving DecidableEq, Repr

/-- The coalesce options for one kind of traffic. -/
def ConnectionOptions.coalesce (o : ConnectionOptions) : Reliability → CoalesceOptions
  | .reliable => o.coalesceReliable
  | .unreliable => o.coalesceUnreliable

/-- `merge`: the fields of `lhs` that are `-1` are taken from `rhs`.  The compression
level for reliable traffic is not among them. -/
def merge (lhs rhs : ConnectionOptions) : ConnectionOptions :=
  let mode (l r : CoalesceMode) := if l = .unset then r else l
  let number (l r : ℤ) := if l = -1 then r else l
  { coalesceReliable :=
      { mode := mode lhs.coalesceReliable.mode rhs.coalesceReliable.mode
        delayMS := number lhs.coalesceReliable.delayMS rhs.coalesceReliable.delayMS
        compressionLevel := lhs.coalesceReliable.compressionLevel }
    coalesceUnreliable :=
      { mode := mode lhs.coalesceUnreliable.mode rhs.coalesceUnreliable.mode
        delayMS := number lhs.coalesceUnreliable.delayMS rhs.coalesceUnreliable.delayMS
        compressionLevel :=
          number lhs.coalesceUnreliable.compressionLevel
            rhs.coalesceUnreliable.compressionLevel }
    probeDelayMS := if lhs.probeDelayMS = -1 then rhs.probeDelayMS else lhs.probeDelayMS
    maximumRetryAttempts :=
      if lhs.maximumRetryAttempts = -1 then rhs.maximumRetryAttempts
      else lhs.maximumRetryAttempts }

/-- `getDefaultConnectionOptions`. -/
def getDefaultConnectionOptions : ConnectionOptions where
  coalesceReliable := ⟨.stream, 5, 0⟩
  coalesceUnreliable := ⟨.packet, 5, -1⟩
  probeDelayMS := -1
  maximumRetryAttempts := 5

end MrUDP
