import L2Flow.Bytes
import L2Flow.Canonical

/-!
# Messages

The MDL header, and the message families the engine knows. `loadUnsigned` is the one load of
the source (`LoadUnsigned` and `LoadHeaderUnsigned` are the same function) : it reads a
little-endian number, or nothing if the bytes are not all there.
-/

namespace L2Flow

/-! ## Loads -/

/-- `LoadUnsigned`, for an unsigned type of `width` bytes. -/
def loadUnsigned (body : List UInt8) (offset width : ℕ) : Option ℕ :=
  if body.length < offset ∨ body.length - offset < width then none
  else
    some ((List.range width).foldl
      (fun value index => value ||| (body.getD (offset + index) 0).toNat <<< (8 * index)) 0)

/-- The number in the `width` bytes at `offset`. -/
def wire (body : List UInt8) (width offset : ℕ) : ℕ :=
  LittleEndian.value (Bytes.slice body offset width)

/-- A load inside the body gives the number that is there. -/
theorem loadUnsigned_of_le {body : List UInt8} {offset width : ℕ}
    (h : offset + width ≤ body.length) :
    loadUnsigned body offset width = some (wire body width offset) := by
  have hlen : (Bytes.slice body offset width).length = width := Bytes.length_slice h
  rw [loadUnsigned, if_neg (by omega), wire, ← LittleEndian.foldl_or_eq_value, hlen]
  refine congrArg some (List.foldl_ext _ _ _ fun value index hindex => ?_)
  rw [List.mem_range] at hindex
  have hoctet : (Bytes.slice body offset width).getD index 0 = body.getD (offset + index) 0 := by
    rw [Bytes.slice, List.getD_eq_getElem?_getD, List.getD_eq_getElem?_getD,
      List.getElem?_take_of_lt hindex, List.getElem?_drop]
  rw [hoctet]

theorem loadUnsigned_eq_none {body : List UInt8} {offset width : ℕ}
    (h : body.length < offset + width) : loadUnsigned body offset width = none := by
  rw [loadUnsigned, if_pos (by omega)]

theorem wire_lt (body : List UInt8) (width offset : ℕ) : wire body width offset < 256 ^ width := by
  refine lt_of_lt_of_le (LittleEndian.value_lt _) (Nat.pow_le_pow_right (by decide) ?_)
  rw [Bytes.slice, List.length_take]
  exact Nat.min_le_left _ _

/-! ## Families -/

def kMdlHeaderBytes : ℕ := 23

def kBinaryEncoding : ℕ := 1

def kSupportedMessageKeys : List MessageKey :=
  [⟨4, 101, 4⟩, ⟨4, 101, 24⟩, ⟨6, 101, 28⟩, ⟨6, 101, 33⟩, ⟨6, 101, 36⟩]

abbrev StreamMask := BitVec 32

def kSupportedStreamMask : StreamMask :=
  (1#32 <<< kSupportedMessageKeys.length) - 1

def kDefaultAShareL2StreamMask : StreamMask :=
  kSupportedStreamMask

inductive MessageClass where
  | kShanghaiSnapshot
  | kShanghaiTick
  | kShenzhenSnapshot
  | kShenzhenOrder
  | kShenzhenTransaction
  | kUnsupported
  deriving DecidableEq, Repr

/-- `StreamBit`. -/
def streamBit (key : MessageKey) : StreamMask :=
  if key ∈ kSupportedMessageKeys then 1#32 <<< kSupportedMessageKeys.idxOf key else 0

def streamEnabled (mask : StreamMask) (key : MessageKey) : Bool :=
  let bit := streamBit key
  bit != 0 && mask &&& bit != 0

def classifyMessage (key : MessageKey) : MessageClass :=
  if key = ⟨4, 101, 4⟩ then .kShanghaiSnapshot
  else if key = ⟨4, 101, 24⟩ then .kShanghaiTick
  else if key = ⟨6, 101, 28⟩ then .kShenzhenSnapshot
  else if key = ⟨6, 101, 33⟩ then .kShenzhenOrder
  else if key = ⟨6, 101, 36⟩ then .kShenzhenTransaction
  else .kUnsupported

/-! ## Headers -/

structure ParsedHeader where
  headSize : ℕ := 0
  messageSize : ℕ := 0
  encoding : ℕ := 0
  key : MessageKey := {}
  localTimeRaw : ℕ := 0
  vendorSequenceId : ℕ := 0
  deriving DecidableEq, Repr

/-- `ParseMdlHeader`. -/
def parseMdlHeader (bytes : List UInt8) : Option ParsedHeader :=
  if bytes.length < kMdlHeaderBytes then none
  else do
    let headSize ← loadUnsigned bytes 0 1
    let messageSize ← loadUnsigned bytes 1 4
    let encoding ← loadUnsigned bytes 5 1
    let serviceId ← loadUnsigned bytes 6 1
    let serviceVersion ← loadUnsigned bytes 7 2
    let messageId ← loadUnsigned bytes 9 2
    let localTimeRaw ← loadUnsigned bytes 11 4
    let vendorSequenceId ← loadUnsigned bytes 15 8
    return { headSize, messageSize, encoding, key := { serviceId, serviceVersion, messageId },
             localTimeRaw, vendorSequenceId }

/-- A header is refused only if it is short, and what is read is what is there. -/
theorem parseMdlHeader_of_le {bytes : List UInt8} (h : kMdlHeaderBytes ≤ bytes.length) :
    parseMdlHeader bytes = some
      { headSize := wire bytes 1 0
        messageSize := wire bytes 4 1
        encoding := wire bytes 1 5
        key :=
          { serviceId := wire bytes 1 6
            serviceVersion := wire bytes 2 7
            messageId := wire bytes 2 9 }
        localTimeRaw := wire bytes 4 11
        vendorSequenceId := wire bytes 8 15 } := by
  have hlen : 23 ≤ bytes.length := h
  have hload : ∀ offset width, offset + width ≤ 23 →
      loadUnsigned bytes offset width = some (wire bytes width offset) :=
    fun offset width hle => loadUnsigned_of_le (hle.trans hlen)
  rw [parseMdlHeader, if_neg (Nat.not_lt.2 h), hload 0 1 (by omega), hload 1 4 (by omega),
    hload 5 1 (by omega), hload 6 1 (by omega), hload 7 2 (by omega), hload 9 2 (by omega),
    hload 11 4 (by omega), hload 15 8 (by omega)]
  rfl

/-- A message in a lane slot : what `TryConsume` hands to a worker. -/
structure OwnedMessageView where
  header : ParsedHeader := {}
  ingressSequence : ℕ := 0
  receiveMonotonicNs : ℕ := 0
  body : List UInt8 := []
  deriving DecidableEq, Repr

end L2Flow
