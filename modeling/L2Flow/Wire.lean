import L2Flow.Hoare
import L2Flow.Message

/-!
# Reading a body

The state of a decoding call (`Scan`), the loads, and the two dynamic fields of the wire
format : texts and lists, each named by a descriptor with a length and an offset relative to
the descriptor. The table of protected ranges is per call; it refuses a range that overlaps
one already read.

The state also records what the call did to memory : the bytes it loaded, and the queue
totals it subtracted from the limit. No function reads these two fields.
-/

namespace L2Flow

/-- `std::numeric_limits<std::size_t>::max()`. -/
def sizeMax : ℕ := 2 ^ 64 - 1

inductive DecodeError where
  | kUnsupported
  | kTruncated
  | kInvalidOffset
  | kRangeOverlap
  | kCountExceeded
  | kCountMismatch
  | kInvalidText
  | kInvalidNativeSequence
  | kFixedPointOverflow
  | kResourceExhausted
  deriving DecidableEq, Repr

/-- Limits of type `std::size_t`. -/
structure DecoderLimits where
  maximumTextBytes : ℕ := kMaximumIdentityBytes
  maximumDepthItems : ℕ := 4096
  maximumQueueItems : ℕ := 1000000
  depth_le : maximumDepthItems ≤ sizeMax := by decide
  queue_le : maximumQueueItems ≤ sizeMax := by decide

/-! ## The state of a call -/

/-- `protecting` and `ranges` are `g_protect_dynamic_ranges` and `g_protected_ranges`;
`capacity` is the number of ranges the table has room for, and `grows` says to what
numbers the allocator can extend it. `quality` is `quality_flags` of the record. -/
structure Scan where
  protecting : Bool := false
  capacity : ℕ := 0
  grows : ℕ → Bool := fun _ => true
  ranges : List Bytes.Range := []
  quality : Flags := 0
  loads : List Bytes.Range := []
  totals : List ℕ := []

abbrev Decoder := EStateM DecodeError Scan

namespace Scan

def load (s : Scan) (offset size : ℕ) : Scan :=
  { s with loads := s.loads ++ [⟨offset, offset + size⟩] }

def mark (s : Scan) (flags : Flags) : Scan :=
  { s with quality := s.quality ||| flags }

def protect (s : Scan) (start size : ℕ) : Scan :=
  { s with ranges := s.ranges ++ [⟨start, start + size⟩] }

def subtract (s : Scan) (total : ℕ) : Scan :=
  { s with totals := s.totals ++ [total] }

end Scan

/-- `quality |= flags`. -/
def mark (flags : Flags) : Decoder Unit :=
  modify fun s => s.mark flags

/-! ## Functions of the decoder -/

/-- `ProtectDynamicRange`. -/
def protectDynamicRange (start size : ℕ) : Decoder Unit := do
  let s ← get
  if s.protecting = false ∨ size = 0 then pure ()
  else
    require .kInvalidOffset (start ≤ sizeMax - size)
    require .kRangeOverlap (∀ r ∈ s.ranges, r.Apart ⟨start, start + size⟩)
    require .kResourceExhausted
      (s.ranges.length < s.capacity ∨ s.grows (s.ranges.length + 1) = true)
    set (s.protect start size)

/-- `LoadUnsigned`, with the error the caller returns where it returns false. -/
def load (body : List UInt8) (width offset : ℕ) (failure : DecodeError) : Decoder ℕ := do
  modify fun s => s.load offset width
  match loadUnsigned body offset width with
  | none => throw failure
  | some value => return value

def loadI32 (body : List UInt8) (offset : ℕ) (failure : DecodeError) : Decoder ℤ := do
  let wire ← load body 4 offset failure
  return LittleEndian.signed 32 wire

def loadI64 (body : List UInt8) (offset : ℕ) (failure : DecodeError) : Decoder ℤ := do
  let wire ← load body 8 offset failure
  return LittleEndian.signed 64 wire

def isPrintableAscii (value : List UInt8) : Bool :=
  value.all fun octet => 0x20 ≤ octet && octet ≤ 0x7e

/-- The offset of a descriptor with count zero : it is not used, but checked. -/
def EmptyOffset (body : List UInt8) (descriptorOffset relativeOffset : ℕ) : Prop :=
  relativeOffset = 0 ∨
    relativeOffset ≤ sizeMax - descriptorOffset ∧ descriptorOffset + relativeOffset ≤ body.length

instance (body : List UInt8) (descriptorOffset relativeOffset : ℕ) :
    Decidable (EmptyOffset body descriptorOffset relativeOffset) :=
  inferInstanceAs (Decidable (_ ∨ _))

def readText (body : List UInt8) (descriptorOffset fixedBytes maximumBytes : ℕ)
    (requireNonempty : Bool) : Decoder (List UInt8) := do
  require .kTruncated (fixedBytes ≤ body.length)
  let size ← load body 2 descriptorOffset .kTruncated
  let relativeOffset ← load body 4 (descriptorOffset + 2) .kTruncated
  require .kCountExceeded (size ≤ maximumBytes)
  if size = 0 then
    require .kInvalidOffset (EmptyOffset body descriptorOffset relativeOffset)
    require .kInvalidText (requireNonempty = false)
    return []
  else
    require .kInvalidOffset (6 ≤ relativeOffset ∧ relativeOffset ≤ sizeMax - descriptorOffset)
    let start := descriptorOffset + relativeOffset
    require .kInvalidOffset
      (fixedBytes ≤ start ∧ start ≤ body.length ∧ size ≤ body.length - start)
    modify fun s => s.load start size
    let value := Bytes.slice body start size
    require .kInvalidText (isPrintableAscii value = true)
    protectDynamicRange start size
    return value

structure ListView where
  start : ℕ := 0
  count : ℕ := 0
  itemSize : ℕ := 0

def readList (body : List UInt8) (descriptorOffset itemSize fixedBytes maximumItems : ℕ) :
    Decoder ListView := do
  require .kTruncated (fixedBytes ≤ body.length)
  let count ← load body 4 descriptorOffset .kTruncated
  let relativeOffset ← load body 4 (descriptorOffset + 4) .kTruncated
  require .kCountExceeded (count ≤ maximumItems)
  if count = 0 then
    require .kInvalidOffset (EmptyOffset body descriptorOffset relativeOffset)
    return { start := 0, count := 0, itemSize := itemSize }
  else
    require .kInvalidOffset (8 ≤ relativeOffset ∧ itemSize ≠ 0 ∧ count ≤ sizeMax / itemSize ∧
      relativeOffset ≤ sizeMax - descriptorOffset)
    let start := descriptorOffset + relativeOffset
    let bytes := count * itemSize
    require .kInvalidOffset
      (fixedBytes ≤ start ∧ start ≤ body.length ∧ bytes ≤ body.length - start)
    protectDynamicRange start bytes
    return { start := start, count := count, itemSize := itemSize }

end L2Flow
