import L2Flow.SnapshotDecoder

/-!
# Routes

What `Admit` and the workers read of a message without decoding it : the key that chooses the
decoder lane (`ExtractAdmissionRoute`), and the native position of a tick
(`ExtractTickNativeDescriptor`). Ticks are routed by their channel and snapshots by a hash of
their identity.
-/

namespace L2Flow

/-- `HashRouteBytes`. -/
def hashRouteBytes (first second : List UInt8) : BitVec 64 :=
  second.foldl appendByte (appendByte (first.foldl appendByte hashOffset) 0xff)

/-- `ReadText` outside a decoding call, where no range is protected. -/
def routeText (body : List UInt8) (descriptorOffset fixedBytes : ℕ) : Option (List UInt8) :=
  match readText body descriptorOffset fixedBytes kMaximumIdentityBytes true {} with
  | .ok text _ => some text
  | .error _ _ => none

/-- The channel in the body of a Shanghai tick. -/
def shanghaiChannel (body : List UInt8) : Option ℕ := do
  let wire ← if body.length < kShanghaiTickBytes then none else loadUnsigned body 8 4
  let channel := LittleEndian.signed 32 wire
  if channel ≤ 0 then none else some channel.toNat

/-- The channel in the body of a Shenzhen order or transaction. -/
def shenzhenChannel (body : List UInt8) (fixedBytes : ℕ) : Option ℕ :=
  if body.length < fixedBytes then none else loadUnsigned body 0 4

/-- `ExtractAdmissionRoute`. -/
def extractAdmissionRoute (messageClass : MessageClass) (body : List UInt8) : Option ℕ :=
  match messageClass with
  | .kShanghaiTick => (shanghaiChannel body).map (0x0400000000 ||| ·)
  | .kShenzhenOrder => (shenzhenChannel body kShenzhenOrderBytes).map (0x0600000000 ||| ·)
  | .kShenzhenTransaction =>
    (shenzhenChannel body kShenzhenTransactionBytes).map (0x0600000000 ||| ·)
  | .kShanghaiSnapshot => do
    let security ← routeText body 4 kShanghaiSnapshotBytes
    return (hashRouteBytes [] security).toNat
  | .kShenzhenSnapshot => do
    let security ← routeText body 14 kShenzhenSnapshotBytes
    let source ← routeText body 20 kShenzhenSnapshotBytes
    return (hashRouteBytes source security).toNat
  | .kUnsupported => none

/-- The sequence at an offset, if it is positive. -/
def nativeSequence (body : List UInt8) (offset : ℕ) : Option ℕ := do
  let wire ← loadUnsigned body offset 8
  let sequence := LittleEndian.signed 64 wire
  if sequence ≤ 0 then none else some sequence.toNat

/-- `ExtractTickNativeDescriptor`. -/
def extractTickNativeDescriptor (messageClass : MessageClass) (body : List UInt8) :
    Option (Market × ℕ × ℕ) :=
  match messageClass with
  | .kShanghaiTick => do
    let sequence ← if body.length < kShanghaiTickBytes then none else nativeSequence body 0
    let channel ← shanghaiChannel body
    return (.kShanghai, channel, sequence)
  | .kShenzhenOrder => do
    let channel ← shenzhenChannel body kShenzhenOrderBytes
    let sequence ← nativeSequence body 4
    return (.kShenzhen, channel, sequence)
  | .kShenzhenTransaction => do
    let channel ← shenzhenChannel body kShenzhenTransactionBytes
    let sequence ← nativeSequence body 4
    return (.kShenzhen, channel, sequence)
  | _ => none

end L2Flow
