import MrUDP.Types

/-!
# Layers of options

Options are given at three levels: for a connection, for a service, and for the system.  A field that
is `-1` is not set, and is taken from the next level: by `merge` of `mrudp/Types.cpp`, which
`ServiceImp` and `Connection::openUser` call.

The records are here as they are in memory, with any numbers in their fields; `merge` of
`MrUDP.Types` is the same function on the modes there are.

`merge` does not look at the compression level of reliable traffic.

## Main definitions

* `OptionsRecord`, `OptionsImp`: the options of a connection and of a service.
* `OptionsRecord.merge`, `effective`: one level over another, and all three.
* `Field`: the fields of a connection's options.
* `Layered`: every field is taken from the first level that sets it.
-/

namespace MrUDP

/-! ## The records -/

/-- `mrudp_coalesce_options_t`. -/
structure CoalesceRecord where
  mode : BitVec 8
  delayMS : BitVec 32
  compressionLevel : BitVec 8
  deriving DecidableEq, Repr

/-- `mrudp_connection_options_t`. -/
structure OptionsRecord where
  coalesceReliable : CoalesceRecord
  coalesceUnreliable : CoalesceRecord
  probeDelayMS : BitVec 32
  maximumRetryAttempts : BitVec 16
  deriving DecidableEq, Repr

/-- `mrudp_options_asio_t`. -/
structure OptionsImp where
  connection : OptionsRecord
  overlappedIO : BitVec 8
  sendViaQueue : BitVec 8
  threadQuantity : BitVec 8
  deriving DecidableEq, Repr

/-- A field that is `-1` is taken from the other record. -/
def unlessSet {w : ℕ} (lhs rhs : BitVec w) : BitVec w := if lhs = -1 then rhs else lhs

namespace OptionsRecord

/-- `merge`.  There is no line for the compression level of reliable traffic. -/
def merge (lhs rhs : OptionsRecord) : OptionsRecord where
  coalesceReliable :=
    { mode := unlessSet lhs.coalesceReliable.mode rhs.coalesceReliable.mode
      delayMS := unlessSet lhs.coalesceReliable.delayMS rhs.coalesceReliable.delayMS
      compressionLevel := lhs.coalesceReliable.compressionLevel }
  coalesceUnreliable :=
    { mode := unlessSet lhs.coalesceUnreliable.mode rhs.coalesceUnreliable.mode
      delayMS := unlessSet lhs.coalesceUnreliable.delayMS rhs.coalesceUnreliable.delayMS
      compressionLevel :=
        unlessSet lhs.coalesceUnreliable.compressionLevel rhs.coalesceUnreliable.compressionLevel }
  probeDelayMS := unlessSet lhs.probeDelayMS rhs.probeDelayMS
  maximumRetryAttempts := unlessSet lhs.maximumRetryAttempts rhs.maximumRetryAttempts

/-- `mrudp_default_connection_options`. -/
def defaultConnectionOptions : OptionsRecord where
  coalesceReliable := ⟨-1, -1, -1⟩
  coalesceUnreliable := ⟨-1, -1, -1⟩
  probeDelayMS := -1
  maximumRetryAttempts := -1

end OptionsRecord

namespace OptionsImp

/-- `imp::merge`. -/
def merge (lhs rhs : OptionsImp) : OptionsImp where
  connection := lhs.connection.merge rhs.connection
  overlappedIO := unlessSet lhs.overlappedIO rhs.overlappedIO
  sendViaQueue := unlessSet lhs.sendViaQueue rhs.sendViaQueue
  threadQuantity := unlessSet lhs.threadQuantity rhs.threadQuantity

/-- `systemDefaultOptions` on Linux. -/
def systemDefaultOptions : OptionsImp where
  connection :=
    { coalesceReliable := ⟨2, 5, 0⟩
      coalesceUnreliable := ⟨1, 5, -1⟩
      probeDelayMS := -1
      maximumRetryAttempts := 5 }
  overlappedIO := 0
  sendViaQueue := 1
  threadQuantity := 1

/-- The options of a `ServiceImp`, which may be constructed without any. -/
def ofService (options : Option OptionsImp) (systemDefault : OptionsImp) : OptionsImp :=
  (options.getD systemDefault).merge systemDefault

end OptionsImp

/-- The options of a connection: its constructor copies those of the service, and
`Connection::openUser` puts the user's over them, if there are any. -/
def effective (options : Option OptionsRecord) (service : Option OptionsImp)
    (systemDefault : OptionsImp) : OptionsRecord :=
  let inherited := (OptionsImp.ofService service systemDefault).connection
  match options with
  | some options => options.merge inherited
  | none => inherited

/-! ## Fields -/

/-- The fields of `mrudp_connection_options_t`. -/
inductive Field
  | reliableMode
  | reliableDelay
  | reliableCompression
  | unreliableMode
  | unreliableDelay
  | unreliableCompression
  | probeDelay
  | retryAttempts
  deriving DecidableEq, Repr

/-- The number in a field. -/
def Field.get : Field → OptionsRecord → ℤ
  | .reliableMode, o => o.coalesceReliable.mode.toInt
  | .reliableDelay, o => o.coalesceReliable.delayMS.toInt
  | .reliableCompression, o => o.coalesceReliable.compressionLevel.toInt
  | .unreliableMode, o => o.coalesceUnreliable.mode.toInt
  | .unreliableDelay, o => o.coalesceUnreliable.delayMS.toInt
  | .unreliableCompression, o => o.coalesceUnreliable.compressionLevel.toInt
  | .probeDelay, o => o.probeDelayMS.toInt
  | .retryAttempts, o => o.maximumRetryAttempts.toInt

/-- The first number that is not `-1`, or else `-1`. -/
def firstSet : List ℤ → ℤ
  | [] => -1
  | x :: xs => if x = -1 then firstSet xs else x

/-- Every field is taken from the first level that sets it. -/
def Layered (options : OptionsRecord) (service systemDefault : OptionsImp) : Prop :=
  ∀ field : Field, field.get (effective (some options) (some service) systemDefault) =
    firstSet [field.get options, field.get service.connection, field.get systemDefault.connection]

/-- Records with the same numbers are the same. -/
theorem OptionsRecord.ext_get {o o' : OptionsRecord} (h : ∀ field : Field, field.get o = field.get o') :
    o = o' := by
  have hfields : ∀ {w : ℕ} {x y : BitVec w}, x.toInt = y.toInt → x = y := BitVec.eq_of_toInt_eq
  obtain ⟨⟨_, _, _⟩, ⟨_, _, _⟩, _, _⟩ := o
  obtain ⟨⟨_, _, _⟩, ⟨_, _, _⟩, _, _⟩ := o'
  rw [OptionsRecord.mk.injEq, CoalesceRecord.mk.injEq, CoalesceRecord.mk.injEq]
  exact ⟨⟨hfields (h .reliableMode), hfields (h .reliableDelay), hfields (h .reliableCompression)⟩,
    ⟨hfields (h .unreliableMode), hfields (h .unreliableDelay), hfields (h .unreliableCompression)⟩,
    hfields (h .probeDelay), hfields (h .retryAttempts)⟩

theorem toInt_neg_one {w : ℕ} (hw : 0 < w) : (-1 : BitVec w).toInt = -1 := by
  rw [show (-1 : BitVec w) = BitVec.allOnes w from BitVec.neg_one_eq_allOnes, BitVec.toInt_allOnes,
    if_pos hw]

theorem toInt_unlessSet {w : ℕ} (hw : 0 < w) (lhs rhs : BitVec w) :
    (unlessSet lhs rhs).toInt = if lhs.toInt = -1 then rhs.toInt else lhs.toInt := by
  have hneg := toInt_neg_one hw
  rw [unlessSet]
  by_cases h : lhs = -1
  · rw [if_pos h, if_pos (by rw [h, hneg])]
  · rw [if_neg h, if_neg fun heq => h (BitVec.eq_of_toInt_eq (heq.trans hneg.symm))]

/-- A field of merged options: the left one if it is set, except that the compression level of
reliable traffic is the left one in any case. -/
theorem Field.get_merge (field : Field) (lhs rhs : OptionsRecord) :
    field.get (lhs.merge rhs) =
      if field ≠ .reliableCompression ∧ field.get lhs = -1 then field.get rhs else field.get lhs := by
  have hother : ∀ {w : ℕ} (_ : 0 < w) (l r : BitVec w), field ≠ .reliableCompression →
      (unlessSet l r).toInt =
        if field ≠ .reliableCompression ∧ l.toInt = -1 then r.toInt else l.toInt := by
    intro w hw l r hne
    rw [toInt_unlessSet hw]
    simp only [ne_eq, hne, not_false_eq_true, true_and]
  cases field with
  | reliableCompression => rw [if_neg fun h => h.1 rfl]; rfl
  | reliableMode => exact hother (by decide) _ _ (by decide)
  | reliableDelay => exact hother (by decide) _ _ (by decide)
  | unreliableMode => exact hother (by decide) _ _ (by decide)
  | unreliableDelay => exact hother (by decide) _ _ (by decide)
  | unreliableCompression => exact hother (by decide) _ _ (by decide)
  | probeDelay => exact hother (by decide) _ _ (by decide)
  | retryAttempts => exact hother (by decide) _ _ (by decide)

theorem Field.get_default (field : Field) :
    field.get OptionsRecord.defaultConnectionOptions = -1 := by
  cases field <;> decide

/-! ## The laws of `merge` -/

namespace OptionsRecord

theorem merge_assoc (a b c : OptionsRecord) : (a.merge b).merge c = a.merge (b.merge c) := by
  apply ext_get
  intro field
  simp only [Field.get_merge]
  by_cases hfield : field = .reliableCompression
  · simp only [hfield, ne_eq, not_true_eq_false, false_and, if_false]
  · by_cases ha : field.get a = -1 <;> simp only [hfield, ha, ne_eq, not_false_eq_true, true_and,
      and_true, if_true, if_false]

/-- The record with nothing set is neutral on the left, but for the field `merge` does not look
at. -/
theorem default_merge_eq_iff (x : OptionsRecord) :
    defaultConnectionOptions.merge x = x ↔ Field.reliableCompression.get x = -1 := by
  constructor
  · intro h
    have hfield := congrArg Field.reliableCompression.get h
    rw [Field.get_merge, if_neg fun h => h.1 rfl, Field.get_default] at hfield
    exact hfield.symm
  · intro h
    apply ext_get
    intro field
    rw [Field.get_merge, Field.get_default]
    by_cases hfield : field = .reliableCompression
    · rw [if_neg fun h => h.1 hfield, hfield, h]
    · rw [if_pos ⟨hfield, rfl⟩]

end OptionsRecord

/-- With options at every level they are merged from the left. -/
theorem effective_eq (options : OptionsRecord) (service systemDefault : OptionsImp) :
    effective (some options) (some service) systemDefault =
      options.merge (service.connection.merge systemDefault.connection) := rfl

/-- A field that `merge` looks at is taken from the first level that sets it. -/
theorem Field.get_effective {field : Field} (h : field ≠ .reliableCompression)
    (options : OptionsRecord) (service systemDefault : OptionsImp) :
    field.get (effective (some options) (some service) systemDefault) =
      firstSet [field.get options, field.get service.connection,
        field.get systemDefault.connection] := by
  have hlast : ∀ x : ℤ, firstSet [x] = x := by
    intro x
    by_cases hx : x = -1
    · rw [firstSet, if_pos hx, firstSet, hx]
    · rw [firstSet, if_neg hx]
  rw [effective_eq, Field.get_merge, Field.get_merge, firstSet, firstSet, hlast]
  simp only [ne_eq, h, not_false_eq_true, true_and]

/-- **Where the levels are respected.**  Every field is taken from the first level that sets it,
exactly if the connection's options set the compression level of reliable traffic or no level below
does: nothing else is wrong with `merge`, which is associative, and for which the record with
nothing set is neutral exactly on the records that leave that level out. -/
theorem layered_iff (options : OptionsRecord) (service systemDefault : OptionsImp)
    (a b x : OptionsRecord) :
    (Layered options service systemDefault ↔
      Field.reliableCompression.get options ≠ -1 ∨
        Field.reliableCompression.get service.connection = -1 ∧
          Field.reliableCompression.get systemDefault.connection = -1) ∧
    (a.merge b).merge x = a.merge (b.merge x) ∧
    (OptionsRecord.defaultConnectionOptions.merge x = x ↔
      Field.reliableCompression.get x = -1) := by
  refine ⟨?_, OptionsRecord.merge_assoc a b x, OptionsRecord.default_merge_eq_iff x⟩
  have hcompression : Field.reliableCompression.get
      (effective (some options) (some service) systemDefault) =
        Field.reliableCompression.get options := rfl
  have hlayered : Layered options service systemDefault ↔
      Field.reliableCompression.get options =
        firstSet [Field.reliableCompression.get options,
          Field.reliableCompression.get service.connection,
          Field.reliableCompression.get systemDefault.connection] := by
    constructor
    · intro h
      rw [← h .reliableCompression, hcompression]
    · intro h field
      by_cases hfield : field = .reliableCompression
      · rw [hfield, hcompression, ← h]
      · exact Field.get_effective hfield options service systemDefault
  rw [hlayered]
  simp only [firstSet]
  split_ifs <;> omega

/-- With nothing set but by the system, a connection has no compression level for its reliable
traffic, though the system default sets one. -/
theorem compression_not_layered :
    Field.reliableCompression.get
        (effective (some OptionsRecord.defaultConnectionOptions)
          (some ⟨OptionsRecord.defaultConnectionOptions, -1, -1, -1⟩)
          OptionsImp.systemDefaultOptions) = -1 ∧
      Field.reliableCompression.get OptionsImp.systemDefaultOptions.connection = 0 ∧
      ¬ Layered OptionsRecord.defaultConnectionOptions
        ⟨OptionsRecord.defaultConnectionOptions, -1, -1, -1⟩ OptionsImp.systemDefaultOptions ∧
      OptionsRecord.defaultConnectionOptions.merge OptionsImp.systemDefaultOptions.connection ≠
        OptionsImp.systemDefaultOptions.connection := by
  refine ⟨by decide, by decide, fun h => ?_, by decide⟩
  exact absurd (h .reliableCompression) (by decide)

/-! ## The options of the model of a connection -/

/-- The number of a mode. -/
def CoalesceMode.number : CoalesceMode → BitVec 8
  | .unset => -1
  | .none => 0
  | .packet => 1
  | .stream => 2
  | .streamCompressed => 3

/-- The record in memory. -/
def CoalesceOptions.record (o : CoalesceOptions) : CoalesceRecord :=
  ⟨o.mode.number, BitVec.ofInt 32 o.delayMS, BitVec.ofInt 8 o.compressionLevel⟩

/-- The record in memory. -/
def ConnectionOptions.record (o : ConnectionOptions) : OptionsRecord :=
  ⟨o.coalesceReliable.record, o.coalesceUnreliable.record, o.probeDelayMS, o.maximumRetryAttempts⟩

/-- The numbers are in the range of their fields. -/
structure CoalesceOptions.Fits (o : CoalesceOptions) : Prop where
  delayMS : -2 ^ 31 ≤ o.delayMS ∧ o.delayMS < 2 ^ 31
  compressionLevel : -2 ^ 7 ≤ o.compressionLevel ∧ o.compressionLevel < 2 ^ 7

theorem unlessSet_number (l r : CoalesceMode) :
    unlessSet l.number r.number = (if l = .unset then r else l).number := by
  cases l <;> cases r <;> rfl

theorem unlessSet_ofInt {w : ℕ} (hw : 0 < w) {l : ℤ} (r : ℤ)
    (hl : -2 ^ (w - 1) ≤ l ∧ l < 2 ^ (w - 1)) :
    unlessSet (BitVec.ofInt w l) (BitVec.ofInt w r) = BitVec.ofInt w (if l = -1 then r else l) := by
  apply BitVec.eq_of_toInt_eq
  rw [toInt_unlessSet hw, BitVec.toInt_ofInt_eq_self hw hl.1 hl.2]
  by_cases h : l = -1
  · rw [if_pos h, if_pos h]
  · rw [if_neg h, if_neg h, BitVec.toInt_ofInt_eq_self hw hl.1 hl.2]

/-- `merge` on the options of the model is `merge` on their records. -/
theorem record_merge {lhs : ConnectionOptions} (hreliable : lhs.coalesceReliable.Fits)
    (hunreliable : lhs.coalesceUnreliable.Fits) (rhs : ConnectionOptions) :
    (MrUDP.merge lhs rhs).record = lhs.record.merge rhs.record := by
  simp only [ConnectionOptions.record, CoalesceOptions.record, OptionsRecord.merge, MrUDP.merge,
    unlessSet_number, unlessSet_ofInt (w := 32) (by decide) _ hreliable.delayMS,
    unlessSet_ofInt (w := 32) (by decide) _ hunreliable.delayMS,
    unlessSet_ofInt (w := 8) (by decide) _ hunreliable.compressionLevel]
  rfl

/-- The system's options are those of the model. -/
theorem record_getDefaultConnectionOptions :
    getDefaultConnectionOptions.record = OptionsImp.systemDefaultOptions.connection := by
  decide

end MrUDP
