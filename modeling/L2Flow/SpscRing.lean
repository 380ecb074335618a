import L2Flow.Interleaving
import L2Flow.Lane
import Mathlib.Order.Bounds.Basic

/-!
# The single-producer single-consumer ring

`SpscRing` keeps its elements in a masked array. `head_` counts the elements pushed and
`tail_` the elements popped, both modulo `2 ^ 64`; each side keeps a copy of the other's
counter and loads it afresh only when the copy makes the ring look full, or empty.

The member functions come first, each as one step on the ring (`tryPush`, `tryPop`). Then
follow the loads, copies and stores they consist of, as steps of two threads. A call made
of these steps with no other thread in between is the function (`runFrom_tryPush`,
`runFrom_tryPop`).
-/

namespace L2Flow

/-! ## Capacity -/

/-- `RoundUpPowerOfTwo`. The doubling stays below `2 ^ 64`, as `requested` is below `2 ^ 63`. -/
def roundUpPowerOfTwo (requested : ℕ) : Option ℕ :=
  if requested = 0 ∨ uint64Max >>> 1 < requested then none
  else some (doubleUntil requested requested 1)

/-- Doubling from a power of two stops at the first one that reaches the target. -/
theorem doubleUntil_le {target j : ℕ} (hj : target ≤ 2 ^ j) : ∀ (fuel k : ℕ), k ≤ j →
    doubleUntil target fuel (2 ^ k) ≤ 2 ^ j
  | 0, k, h => Nat.pow_le_pow_right Nat.zero_lt_two h
  | fuel + 1, k, h => by
    rw [doubleUntil]
    split_ifs with hlt
    · rw [← Nat.pow_succ]
      have hne : k ≠ j := fun he => by
        rw [he] at hlt
        omega
      exact doubleUntil_le hj fuel (k + 1) (by omega)
    · exact Nat.pow_le_pow_right Nat.zero_lt_two h

/-- `RoundUpPowerOfTwo` gives the least power of two that is at least what is requested. -/
theorem roundUpPowerOfTwo_isLeast {requested capacity : ℕ}
    (h : roundUpPowerOfTwo requested = some capacity) :
    IsLeast {n | ∃ k, n = 2 ^ k ∧ requested ≤ n} capacity := by
  rw [roundUpPowerOfTwo] at h
  split_ifs at h
  obtain rfl := Option.some.inj h
  refine ⟨?_, ?_⟩
  · obtain ⟨k, hk⟩ := exists_pow_of_isPowerOfTwo (isPowerOfTwo_doubleUntil requested requested 0)
    exact ⟨k, hk, le_doubleUntil one_pos (by omega)⟩
  · rintro n ⟨j, rfl, hj⟩
    exact doubleUntil_le hj requested 0 (Nat.zero_le j)

/-- What `RoundUpPowerOfTwo` gives fits in 63 bits. -/
theorem roundUpPowerOfTwo_pow {requested capacity : ℕ}
    (h : roundUpPowerOfTwo requested = some capacity) : ∃ k ≤ 63, capacity = 2 ^ k := by
  obtain ⟨⟨k, rfl, -⟩, hleast⟩ := roundUpPowerOfTwo_isLeast h
  refine ⟨k, ?_, rfl⟩
  have hbound : requested ≤ 2 ^ 63 := by
    rw [roundUpPowerOfTwo] at h
    split_ifs at h with hsmall
    have : uint64Max >>> 1 = 2 ^ 63 - 1 := rfl
    omega
  exact (Nat.pow_le_pow_iff_right (by decide)).1 (hleast ⟨63, rfl, hbound⟩)

/-- The capacity of a ring : a power of two, so that it masks a 64-bit counter. -/
structure RingCapacity where
  size : ℕ
  pow : ∃ k ≤ 63, size = 2 ^ k

/-- `CheckedRingCapacity`. The second check of the source compares with the maximum of a
64-bit `std::size_t` and never fails. -/
def checkedRingCapacity (requested : ℕ) : Option RingCapacity :=
  match h : roundUpPowerOfTwo requested with
  | none => none
  | some capacity => some ⟨capacity, roundUpPowerOfTwo_pow h⟩

theorem checkedRingCapacity_isLeast {requested : ℕ} {capacity : RingCapacity}
    (h : checkedRingCapacity requested = some capacity) :
    IsLeast {n | ∃ k, n = 2 ^ k ∧ requested ≤ n} capacity.size := by
  rw [checkedRingCapacity] at h
  split at h
  · cases h
  · next hround =>
    obtain rfl := Option.some.inj h
    exact roundUpPowerOfTwo_isLeast hround

namespace RingCapacity

variable (capacity : RingCapacity)

theorem pos : 0 < capacity.size := by
  obtain ⟨k, -, hsize⟩ := capacity.pow
  rw [hsize]
  exact Nat.two_pow_pos k

theorem lt_word : capacity.size < 2 ^ 64 := by
  obtain ⟨k, hk, hsize⟩ := capacity.pow
  rw [hsize]
  exact Nat.pow_lt_pow_right (by decide) (by omega)

theorem dvd_word : capacity.size ∣ 2 ^ 64 := by
  obtain ⟨k, hk, hsize⟩ := capacity.pow
  rw [hsize]
  exact Nat.pow_dvd_pow 2 (by omega)

theorem and_mask (n : ℕ) : n &&& (capacity.size - 1) = n % capacity.size := by
  obtain ⟨k, -, hsize⟩ := capacity.pow
  rw [hsize]
  exact Nat.and_two_pow_sub_one_eq_mod n k

/-- `static_cast<std::size_t>(counter) & mask_`. -/
def slot (counter : BitVec 64) : Fin capacity.size :=
  ⟨counter.toNat &&& (capacity.size - 1),
    lt_of_le_of_lt Nat.and_le_right (Nat.sub_lt capacity.pos one_pos)⟩

/-- The slot of a counter that has gone round any number of times. -/
theorem slot_ofNat (n : ℕ) : (capacity.slot (BitVec.ofNat 64 n) : ℕ) = n % capacity.size := by
  show (BitVec.ofNat 64 n).toNat &&& (capacity.size - 1) = n % capacity.size
  rw [and_mask, BitVec.toNat_ofNat, Nat.mod_mod_of_dvd n capacity.dvd_word]

/-- Counters closer than the capacity have different slots. -/
theorem slot_ne {i j : ℕ} (hlt : i < j) (hclose : j < i + capacity.size) :
    capacity.slot (BitVec.ofNat 64 i) ≠ capacity.slot (BitVec.ofNat 64 j) := by
  intro heq
  have hmod : i % capacity.size = j % capacity.size := by
    rw [← slot_ofNat, ← slot_ofNat, heq]
  have hdvd : capacity.size ∣ j - i :=
    Nat.dvd_of_mod_eq_zero (Nat.sub_mod_eq_zero_of_mod_eq hmod.symm)
  have := Nat.le_of_dvd (by omega) hdvd
  omega

end RingCapacity

/-! ## The ring -/

/-- `SpscRing<T>`. A cell that was never stored holds whatever the array was allocated
with. -/
structure SpscRing (α : Type*) (capacity : RingCapacity) where
  storage : Fin capacity.size → α
  head : BitVec 64 := 0
  cachedTail : BitVec 64 := 0
  tail : BitVec 64 := 0
  cachedHead : BitVec 64 := 0

namespace SpscRing

variable {α : Type*} {capacity : RingCapacity}

/-- `head - tail >= capacity_`, on 64 bits. -/
def full (capacity : RingCapacity) (head tail : BitVec 64) : Bool :=
  capacity.size ≤ (head - tail).toNat

def tryPush (ring : SpscRing α capacity) (value : α) : Bool × SpscRing α capacity :=
  let head := ring.head
  let ring :=
    if full capacity head ring.cachedTail then { ring with cachedTail := ring.tail } else ring
  if full capacity head ring.cachedTail then (false, ring)
  else
    (true,
      { ring with
        storage := Function.update ring.storage (capacity.slot head) value
        head := head + 1 })

def tryPop (ring : SpscRing α capacity) : Option α × SpscRing α capacity :=
  let tail := ring.tail
  let ring := if ring.cachedHead = tail then { ring with cachedHead := ring.head } else ring
  if ring.cachedHead = tail then (none, ring)
  else (some (ring.storage (capacity.slot tail)), { ring with tail := tail + 1 })

def empty (ring : SpscRing α capacity) : Bool :=
  ring.tail == ring.head

end SpscRing

/-! ## The steps of two threads -/

namespace Ring

variable {α : Type*} {capacity : RingCapacity}

/-- The producer, by what it does next. -/
inductive Producer (α : Type*) where
  | idle
  /-- `head_` is loaded next. -/
  | called (value : α)
  /-- `tail_` is loaded next. -/
  | full (value : α) (head : BitVec 64)
  /-- The value is stored next. -/
  | storing (value : α) (head : BitVec 64)
  /-- `head_` is stored next. -/
  | stored (value : α) (head : BitVec 64)

/-- The consumer, by what it does next. -/
inductive Consumer (α : Type*) where
  | idle
  /-- `tail_` is loaded next. -/
  | called
  /-- `head_` is loaded next. -/
  | drained (tail : BitVec 64)
  /-- The value is copied next. -/
  | loading (tail : BitVec 64)
  /-- `tail_` is stored next. -/
  | loaded (tail : BitVec 64) (value : α)

structure State (α : Type*) (capacity : RingCapacity) where
  ring : SpscRing α capacity
  producer : Producer α := .idle
  consumer : Consumer α := .idle

/-- What the calls report. `pushed` and `popped` come with the store of the counter. -/
inductive Event (α : Type*) where
  | callPush (value : α)
  | pushed (value : α)
  | refused (value : α)
  | callPop
  | popped (value : α)
  | nothing
  deriving DecidableEq

inductive Action (α : Type*) where
  | tryPush (value : α)
  | produce
  | tryPop
  | consume

def produceStep (s : State α capacity) : Option (State α capacity × List (Event α)) :=
  match s.producer with
  | .idle => none
  | .called value =>
    let head := s.ring.head
    if SpscRing.full capacity head s.ring.cachedTail then
      some ({ s with producer := .full value head }, [])
    else some ({ s with producer := .storing value head }, [])
  | .full value head =>
    let ring := { s.ring with cachedTail := s.ring.tail }
    if SpscRing.full capacity head ring.cachedTail then
      some ({ s with ring := ring, producer := .idle }, [.refused value])
    else some ({ s with ring := ring, producer := .storing value head }, [])
  | .storing value head =>
    some ({ s with
        ring := { s.ring with
          storage := Function.update s.ring.storage (capacity.slot head) value }
        producer := .stored value head },
      [])
  | .stored value head =>
    some ({ s with ring := { s.ring with head := head + 1 }, producer := .idle }, [.pushed value])

def consumeStep (s : State α capacity) : Option (State α capacity × List (Event α)) :=
  match s.consumer with
  | .idle => none
  | .called =>
    let tail := s.ring.tail
    if s.ring.cachedHead = tail then some ({ s with consumer := .drained tail }, [])
    else some ({ s with consumer := .loading tail }, [])
  | .drained tail =>
    let ring := { s.ring with cachedHead := s.ring.head }
    if ring.cachedHead = tail then
      some ({ s with ring := ring, consumer := .idle }, [.nothing])
    else some ({ s with ring := ring, consumer := .loading tail }, [])
  | .loading tail =>
    some ({ s with consumer := .loaded tail (s.ring.storage (capacity.slot tail)) }, [])
  | .loaded tail value =>
    some ({ s with ring := { s.ring with tail := tail + 1 }, consumer := .idle }, [.popped value])

def step (s : State α capacity) : Action α → Option (State α capacity × List (Event α))
  | .tryPush value =>
    match s.producer with
    | .idle => some ({ s with producer := .called value }, [.callPush value])
    | _ => none
  | .produce => produceStep s
  | .tryPop =>
    match s.consumer with
    | .idle => some ({ s with consumer := .called }, [.callPop])
    | _ => none
  | .consume => consumeStep s

/-- A new ring, whose array holds `garbage`. -/
def machine (capacity : RingCapacity) (garbage : Fin capacity.size → α) :
    Machine (State α capacity) (Action α) (Event α) where
  start := { ring := { storage := garbage } }
  step := step

/-! ## Calls without interference -/

variable {garbage : Fin capacity.size → α}

/-- `TryPush`, alone, is `tryPush`. -/
theorem runFrom_tryPush (s : State α capacity) (value : α) (hp : s.producer = .idle) :
    ∃ actions, (machine capacity garbage).runFrom s actions =
      some ({ s with ring := (s.ring.tryPush value).2 },
        [.callPush value, if (s.ring.tryPush value).1 then .pushed value else .refused value]) := by
  obtain ⟨ring, producer, consumer⟩ := s
  obtain rfl : producer = .idle := hp
  by_cases hcached : SpscRing.full capacity ring.head ring.cachedTail = true
  · by_cases hfull : SpscRing.full capacity ring.head ring.tail = true
    · refine ⟨[.tryPush value, .produce, .produce], ?_⟩
      simp [Machine.runFrom, machine, step, produceStep, SpscRing.tryPush, hcached, hfull]
    · refine ⟨[.tryPush value, .produce, .produce, .produce, .produce], ?_⟩
      simp [Machine.runFrom, machine, step, produceStep, SpscRing.tryPush, hcached, hfull]
  · refine ⟨[.tryPush value, .produce, .produce, .produce], ?_⟩
    simp [Machine.runFrom, machine, step, produceStep, SpscRing.tryPush, hcached]

/-- `TryPop`, alone, is `tryPop`. -/
theorem runFrom_tryPop (s : State α capacity) (hc : s.consumer = .idle) :
    ∃ actions, (machine capacity garbage).runFrom s actions =
      some ({ s with ring := s.ring.tryPop.2 },
        [.callPop, s.ring.tryPop.1.elim .nothing .popped]) := by
  obtain ⟨ring, producer, consumer⟩ := s
  obtain rfl : consumer = .idle := hc
  by_cases hcached : ring.cachedHead = ring.tail
  · by_cases hempty : ring.head = ring.tail
    · refine ⟨[.tryPop, .consume, .consume], ?_⟩
      simp [Machine.runFrom, machine, step, consumeStep, SpscRing.tryPop, hcached, hempty]
    · refine ⟨[.tryPop, .consume, .consume, .consume, .consume], ?_⟩
      simp [Machine.runFrom, machine, step, consumeStep, SpscRing.tryPop, hcached, hempty]
  · refine ⟨[.tryPop, .consume, .consume, .consume], ?_⟩
    simp [Machine.runFrom, machine, step, consumeStep, SpscRing.tryPop, hcached]

end Ring

end L2Flow
