import L2Flow.SpscRing

/-!
# The ring is a bounded queue

What a ring holds is read off its counters : the cells from `tail_` up to `head_`, modulo
`2 ^ 64` (`SpscRing.contents`). As one step, `TryPush` appends to it unless it is full, and
`TryPop` takes its first element (`tryPush_spec`, `tryPop_spec`). Taken apart into loads,
copies and stores, and interleaved in any way, the calls pop exactly what they push, in
order; a push is refused only if the ring was full at some moment of the call, and a pop
finds nothing only if it was empty (`ring_fifo`).

The counters may go round any number of times : every fact about them is a difference.
-/

namespace L2Flow

namespace SpscRing

variable {α : Type*} {capacity : RingCapacity}

/-! ## Contents -/

/-- The cells of `count` elements from `tail` on. -/
def cellsFrom (storage : Fin capacity.size → α) (tail : BitVec 64) (count : ℕ) : List α :=
  (List.range count).map fun i => storage (capacity.slot (tail + BitVec.ofNat 64 i))

/-- The elements pushed and not yet popped. -/
def contents (ring : SpscRing α capacity) : List α :=
  cellsFrom ring.storage ring.tail (ring.head - ring.tail).toNat

@[simp] theorem length_cellsFrom (storage : Fin capacity.size → α) (tail : BitVec 64)
    (count : ℕ) : (cellsFrom storage tail count).length = count := by
  simp [cellsFrom]

theorem cellsFrom_succ (storage : Fin capacity.size → α) (tail : BitVec 64) (count : ℕ) :
    cellsFrom storage tail (count + 1) =
      storage (capacity.slot tail) :: cellsFrom storage (tail + 1) count := by
  rw [cellsFrom, List.range_succ_eq_map, List.map_cons, List.map_map]
  have hfirst : tail + BitVec.ofNat 64 0 = tail := by bv_omega
  have hrest : ∀ i : ℕ, tail + BitVec.ofNat 64 (i + 1) = tail + 1 + BitVec.ofNat 64 i := by
    intro i
    rw [Nat.add_comm i 1, BitVec.ofNat_add, BitVec.add_assoc]
    rfl
  rw [hfirst]
  refine congrArg _ (List.map_congr_left fun i _ => ?_)
  show storage (capacity.slot (tail + BitVec.ofNat 64 (i + 1))) = _
  rw [hrest]

theorem cellsFrom_snoc (storage : Fin capacity.size → α) (tail : BitVec 64) (count : ℕ) :
    cellsFrom storage tail (count + 1) = cellsFrom storage tail count ++
      [storage (capacity.slot (tail + BitVec.ofNat 64 count))] := by
  rw [cellsFrom, List.range_succ, List.map_append]
  rfl

/-- Within the capacity, positions counted from `tail` have different slots. -/
theorem slot_add_ne (capacity : RingCapacity) (tail : BitVec 64) {i j : ℕ} (hlt : i < j)
    (hj : j < i + capacity.size) :
    capacity.slot (tail + BitVec.ofNat 64 i) ≠ capacity.slot (tail + BitVec.ofNat 64 j) := by
  have hadd : ∀ n : ℕ, tail + BitVec.ofNat 64 n = BitVec.ofNat 64 (tail.toNat + n) := by
    intro n
    rw [BitVec.ofNat_add, BitVec.ofNat_toNat, BitVec.setWidth_eq]
  rw [hadd, hadd]
  exact capacity.slot_ne (by omega) (by omega)

/-- A store beyond the elements, within the capacity, touches none of them. -/
theorem cellsFrom_update (storage : Fin capacity.size → α) (tail : BitVec 64) {count : ℕ}
    (hcount : count < capacity.size) (value : α) :
    cellsFrom (Function.update storage (capacity.slot (tail + BitVec.ofNat 64 count)) value) tail
      count = cellsFrom storage tail count := by
  refine List.map_congr_left fun i hi => Function.update_of_ne ?_ _ _
  rw [List.mem_range] at hi
  exact slot_add_ne capacity tail hi (by omega)

/-! ## Counters -/

/-- The counters of a ring : neither copy is ahead of what it copies, and no more than the
capacity is unread. -/
structure Wf (ring : SpscRing α capacity) : Prop where
  unread_le : (ring.head - ring.tail).toNat ≤ (ring.head - ring.cachedTail).toNat
  cached_le : (ring.head - ring.cachedTail).toNat ≤ capacity.size
  seen_le : (ring.cachedHead - ring.tail).toNat ≤ (ring.head - ring.tail).toNat

theorem wf_new (storage : Fin capacity.size → α) :
    Wf ({ storage := storage } : SpscRing α capacity) where
  unread_le := le_refl _
  cached_le := by
    show (0#64 - 0#64).toNat ≤ capacity.size
    simp
  seen_le := le_refl _

/-- An empty ring holds nothing. -/
theorem contents_eq_nil {ring : SpscRing α capacity} (h : ring.head = ring.tail) :
    ring.contents = [] := by
  rw [contents, h, BitVec.sub_self]
  rfl

theorem contents_new (storage : Fin capacity.size → α) :
    contents ({ storage := storage } : SpscRing α capacity) = [] :=
  contents_eq_nil rfl

@[simp] theorem contents_loadTail (ring : SpscRing α capacity) (tail : BitVec 64) :
    contents { ring with cachedTail := tail } = ring.contents :=
  rfl

@[simp] theorem contents_loadHead (ring : SpscRing α capacity) (head : BitVec 64) :
    contents { ring with cachedHead := head } = ring.contents :=
  rfl

/-- `empty` says whether the ring holds nothing. -/
theorem empty_iff {ring : SpscRing α capacity} : ring.empty = true ↔ ring.contents = [] := by
  rw [empty, beq_iff_eq]
  refine ⟨fun h => contents_eq_nil h.symm, fun h => ?_⟩
  have hlen : (ring.head - ring.tail).toNat = 0 := by
    rw [← length_cellsFrom ring.storage ring.tail (ring.head - ring.tail).toNat]
    exact congrArg List.length h
  bv_omega

theorem Wf.length_le {ring : SpscRing α capacity} (h : ring.Wf) :
    ring.contents.length ≤ capacity.size := by
  rw [contents, length_cellsFrom]
  exact h.unread_le.trans h.cached_le

theorem full_iff {head tail : BitVec 64} :
    full capacity head tail = true ↔ capacity.size ≤ (head - tail).toNat := by
  rw [full, decide_eq_true_eq]

/-- The producer loads `tail_`. -/
theorem Wf.loadTail {ring : SpscRing α capacity} (h : ring.Wf) :
    Wf { ring with cachedTail := ring.tail } where
  unread_le := le_refl _
  cached_le := h.unread_le.trans h.cached_le
  seen_le := h.seen_le

/-- The consumer loads `head_`. -/
theorem Wf.loadHead {ring : SpscRing α capacity} (h : ring.Wf) :
    Wf { ring with cachedHead := ring.head } where
  unread_le := h.unread_le
  cached_le := h.cached_le
  seen_le := le_refl _

theorem Wf.store {ring : SpscRing α capacity} (h : ring.Wf) (storage : Fin capacity.size → α) :
    Wf { ring with storage := storage } where
  unread_le := h.unread_le
  cached_le := h.cached_le
  seen_le := h.seen_le

/-- The producer stores `head_`. -/
theorem Wf.storeHead {ring : SpscRing α capacity} (h : ring.Wf)
    (hroom : (ring.head - ring.cachedTail).toNat < capacity.size) :
    Wf { ring with head := ring.head + 1 } ∧
      (ring.head + 1 - ring.tail).toNat = (ring.head - ring.tail).toNat + 1 := by
  have hword := capacity.lt_word
  have hcached : (ring.head + 1 - ring.cachedTail).toNat =
      (ring.head - ring.cachedTail).toNat + 1 := by bv_omega
  have hunread := h.unread_le
  have hseen := h.seen_le
  have hunread' : (ring.head + 1 - ring.tail).toNat = (ring.head - ring.tail).toNat + 1 := by
    bv_omega
  refine ⟨⟨?_, ?_, ?_⟩, hunread'⟩
  · show (ring.head + 1 - ring.tail).toNat ≤ (ring.head + 1 - ring.cachedTail).toNat
    omega
  · show (ring.head + 1 - ring.cachedTail).toNat ≤ capacity.size
    omega
  · show (ring.cachedHead - ring.tail).toNat ≤ (ring.head + 1 - ring.tail).toNat
    omega

/-- The consumer stores `tail_`. -/
theorem Wf.storeTail {ring : SpscRing α capacity} (h : ring.Wf)
    (hsome : ring.cachedHead ≠ ring.tail) :
    Wf { ring with tail := ring.tail + 1 } ∧
      (ring.head - ring.tail).toNat = (ring.head - (ring.tail + 1)).toNat + 1 := by
  have hseen := h.seen_le
  have hunread := h.unread_le
  have hpos : 0 < (ring.cachedHead - ring.tail).toNat := by bv_omega
  have hunread' : (ring.head - ring.tail).toNat = (ring.head - (ring.tail + 1)).toNat + 1 := by
    bv_omega
  have hseen' : (ring.cachedHead - ring.tail).toNat =
      (ring.cachedHead - (ring.tail + 1)).toNat + 1 := by bv_omega
  refine ⟨⟨?_, h.cached_le, ?_⟩, hunread'⟩
  · show (ring.head - (ring.tail + 1)).toNat ≤ (ring.head - ring.cachedTail).toNat
    omega
  · show (ring.cachedHead - (ring.tail + 1)).toNat ≤ (ring.head - (ring.tail + 1)).toNat
    omega

/-- The head is as far from the tail as the elements are many. -/
theorem tail_add_unread (ring : SpscRing α capacity) :
    ring.tail + BitVec.ofNat 64 (ring.head - ring.tail).toNat = ring.head := by
  rw [BitVec.ofNat_toNat, BitVec.setWidth_eq]
  bv_omega

/-- Storing a value and then `head_` appends the value. -/
theorem contents_push {ring : SpscRing α capacity} (h : ring.Wf)
    (hroom : (ring.head - ring.cachedTail).toNat < capacity.size) {value : α}
    (hcell : ring.storage (capacity.slot ring.head) = value) :
    contents { ring with head := ring.head + 1 } = ring.contents ++ [value] := by
  show cellsFrom ring.storage ring.tail (ring.head + 1 - ring.tail).toNat = _
  rw [(h.storeHead hroom).2, cellsFrom_snoc, tail_add_unread, hcell]
  rfl

/-- A value stored at the head is not yet an element, and destroys none. -/
theorem contents_store {ring : SpscRing α capacity} (h : ring.Wf)
    (hroom : (ring.head - ring.cachedTail).toNat < capacity.size) (value : α) :
    contents
        { ring with storage := Function.update ring.storage (capacity.slot ring.head) value } =
      ring.contents := by
  have hupdate := cellsFrom_update ring.storage ring.tail
    (lt_of_le_of_lt h.unread_le hroom) value
  rw [tail_add_unread] at hupdate
  exact hupdate

/-- Storing `tail_` removes the first element. -/
theorem contents_pop {ring : SpscRing α capacity} (h : ring.Wf)
    (hsome : ring.cachedHead ≠ ring.tail) :
    ring.contents = ring.storage (capacity.slot ring.tail) ::
      contents { ring with tail := ring.tail + 1 } := by
  rw [contents, (h.storeTail hsome).2, cellsFrom_succ]
  rfl

/-- With room and an unread element, the next cell to be stored is not the next to be
read. -/
theorem slot_head_ne {ring : SpscRing α capacity} {i : ℕ}
    (hroom : ring.contents.length < capacity.size) (hi : i < ring.contents.length) :
    capacity.slot (ring.tail + BitVec.ofNat 64 i) ≠ capacity.slot ring.head := by
  rw [contents, length_cellsFrom] at hroom hi
  have hne := slot_add_ne capacity ring.tail hi (by omega)
  rwa [tail_add_unread] at hne

theorem Wf.room {ring : SpscRing α capacity} (h : ring.Wf)
    (hroom : full capacity ring.head ring.cachedTail = false) :
    (ring.head - ring.cachedTail).toNat < capacity.size ∧
      ring.contents.length < capacity.size := by
  rw [full, decide_eq_false_iff_not, not_le] at hroom
  rw [contents, length_cellsFrom]
  exact ⟨hroom, lt_of_le_of_lt h.unread_le hroom⟩

/-! ## The functions -/

/-- The producer's way to a store. -/
theorem push_spec {ring : SpscRing α capacity} (h : ring.Wf)
    (hroom : full capacity ring.head ring.cachedTail = false) (value : α) :
    let pushed : SpscRing α capacity :=
      { ring with
        storage := Function.update ring.storage (capacity.slot ring.head) value
        head := ring.head + 1 }
    pushed.Wf ∧ ring.contents.length < capacity.size ∧
      pushed.contents = ring.contents ++ [value] := by
  obtain ⟨hlt, hlen⟩ := h.room hroom
  have hstored := h.store (Function.update ring.storage (capacity.slot ring.head) value)
  refine ⟨(hstored.storeHead hlt).1, hlen, ?_⟩
  rw [contents_push hstored hlt (Function.update_self _ _ _), contents_store h hlt]

/-- As one step, `TryPush` appends unless the ring is full. -/
theorem tryPush_spec {ring : SpscRing α capacity} (h : ring.Wf) (value : α) :
    (ring.tryPush value).2.Wf ∧
      ((ring.contents.length < capacity.size ∧ (ring.tryPush value).1 = true ∧
          (ring.tryPush value).2.contents = ring.contents ++ [value]) ∨
        (ring.contents.length = capacity.size ∧ (ring.tryPush value).1 = false ∧
          (ring.tryPush value).2.contents = ring.contents)) := by
  unfold tryPush
  by_cases hcached : full capacity ring.head ring.cachedTail = true
  · by_cases hfull : full capacity ring.head ring.tail = true
    · simp only [hcached, hfull, if_true]
      refine ⟨h.loadTail, Or.inr ⟨?_, trivial, rfl⟩⟩
      have hlen := h.length_le
      rw [contents, length_cellsFrom] at hlen ⊢
      exact le_antisymm hlen (full_iff.1 hfull)
    · simp only [hcached, hfull, if_true, Bool.false_eq_true, if_false]
      obtain ⟨hwf, hroom, hcontents⟩ := push_spec h.loadTail (Bool.eq_false_iff.2 hfull) value
      exact ⟨hwf, Or.inl ⟨hroom, trivial, hcontents⟩⟩
  · simp only [hcached, Bool.false_eq_true, if_false]
    obtain ⟨hwf, hroom, hcontents⟩ := push_spec h (Bool.eq_false_iff.2 hcached) value
    exact ⟨hwf, Or.inl ⟨hroom, trivial, hcontents⟩⟩

/-- As one step, `TryPop` takes the first element, if there is one. -/
theorem tryPop_spec {ring : SpscRing α capacity} (h : ring.Wf) :
    ring.tryPop.2.Wf ∧
      ((ring.contents = [] ∧ ring.tryPop.1 = none ∧ ring.tryPop.2.contents = []) ∨
        ∃ value, ring.tryPop.1 = some value ∧ ring.contents = value :: ring.tryPop.2.contents) := by
  unfold tryPop
  by_cases hcached : ring.cachedHead = ring.tail
  · by_cases hempty : ring.head = ring.tail
    · simp only [if_pos hcached, if_pos hempty]
      exact ⟨h.loadHead, Or.inl ⟨contents_eq_nil hempty, trivial, contents_eq_nil hempty⟩⟩
    · simp only [if_pos hcached, if_neg hempty]
      have hpop := contents_pop h.loadHead hempty
      exact ⟨(h.loadHead.storeTail hempty).1, Or.inr ⟨_, rfl, hpop⟩⟩
  · simp only [hcached, if_false]
    exact ⟨(h.storeTail hcached).1, Or.inr ⟨_, rfl, contents_pop h hcached⟩⟩

end SpscRing

namespace Ring

open SpscRing

variable {α : Type*} {capacity : RingCapacity} {garbage : Fin capacity.size → α}
  {s s' : State α capacity} {log new : List (Event α)}

/-! ## The log -/

/-- The values pushed, in order. -/
def pushedOf (log : List (Event α)) : List α :=
  log.filterMap fun
    | .pushed value => some value
    | _ => none

/-- The values popped, in order. -/
def poppedOf (log : List (Event α)) : List α :=
  log.filterMap fun
    | .popped value => some value
    | _ => none

/-- The values `TryPush` was called with, in order. -/
def calledOf (log : List (Event α)) : List α :=
  log.filterMap fun
    | .callPush value => some value
    | _ => none

/-- The values of the calls that returned, true or false, in order. -/
def answeredOf (log : List (Event α)) : List α :=
  log.filterMap fun
    | .pushed value => some value
    | .refused value => some value
    | _ => none

def CallsPush : Event α → Prop
  | .callPush _ => True
  | _ => False

def CallsPop : Event α → Prop
  | .callPop => True
  | _ => False

/-- What the log says of a call that returns false : at some moment of the call the ring was
full, or empty. -/
def Why (capacity : RingCapacity) (log : List (Event α)) : Event α → Prop
  | .refused _ => Machine.During CallsPush
      (fun log => (pushedOf log).length = (poppedOf log).length + capacity.size) log
  | .nothing => Machine.During CallsPop (fun log => pushedOf log = poppedOf log) log
  | _ => True

/-! ## The threads -/

/-- The value of the call in progress. -/
def Producer.pending : Producer α → List α
  | .idle => []
  | .called value | .full value _ | .storing value _ | .stored value _ => [value]

/-- What the producer knows of the ring. -/
def Producer.Sound (ring : SpscRing α capacity) : Producer α → Prop
  | .idle => True
  | .called _ => True
  | .full _ head => head = ring.head
  | .storing _ head => head = ring.head ∧ SpscRing.full capacity head ring.cachedTail = false
  | .stored value head => head = ring.head ∧
      SpscRing.full capacity head ring.cachedTail = false ∧
      ring.storage (capacity.slot head) = value

/-- What the consumer knows of the ring. -/
def Consumer.Sound (ring : SpscRing α capacity) : Consumer α → Prop
  | .idle => True
  | .called => True
  | .drained tail => tail = ring.tail
  | .loading tail => tail = ring.tail ∧ ring.cachedHead ≠ tail
  | .loaded tail value => tail = ring.tail ∧ ring.cachedHead ≠ tail ∧
      ring.storage (capacity.slot tail) = value

structure Inv (s : State α capacity) (log : List (Event α)) : Prop where
  wf : s.ring.Wf
  conserved : pushedOf log = poppedOf log ++ s.ring.contents
  answered : calledOf log = answeredOf log ++ s.producer.pending
  producer : s.producer.Sound s.ring
  consumer : s.consumer.Sound s.ring
  pushing : s.producer ≠ .idle → Machine.Open CallsPush log
  popping : s.consumer ≠ .idle → Machine.Open CallsPop log
  justified : Machine.Justified (Why capacity) log

theorem inv_start : Inv (machine capacity garbage).start [] where
  wf := wf_new garbage
  conserved := (contents_new garbage).symm
  answered := rfl
  producer := trivial
  consumer := trivial
  pushing := fun h => absurd rfl h
  popping := fun h => absurd rfl h
  justified := Machine.justified_nil _

/-! ## What a step can do -/

/-- The steps of the producer. -/
inductive Produces (s : State α capacity) : State α capacity → List (Event α) → Prop where
  /-- By the copy of `tail_` the ring is full. -/
  | recheck {value : α} (calling : s.producer = .called value) :
      Produces s { s with producer := .full value s.ring.head } []
  | room {value : α} (calling : s.producer = .called value)
      (room : SpscRing.full capacity s.ring.head s.ring.cachedTail = false) :
      Produces s { s with producer := .storing value s.ring.head } []
  | refuse {value : α} {head : BitVec 64} (checking : s.producer = .full value head)
      (full : SpscRing.full capacity head s.ring.tail = true) :
      Produces s
        { s with ring := { s.ring with cachedTail := s.ring.tail }, producer := .idle }
        [.refused value]
  | reload {value : α} {head : BitVec 64} (checking : s.producer = .full value head)
      (room : SpscRing.full capacity head s.ring.tail = false) :
      Produces s
        { s with
          ring := { s.ring with cachedTail := s.ring.tail }
          producer := .storing value head }
        []
  | store {value : α} {head : BitVec 64} (storing : s.producer = .storing value head) :
      Produces s
        { s with
          ring := { s.ring with
            storage := Function.update s.ring.storage (capacity.slot head) value }
          producer := .stored value head }
        []
  | push {value : α} {head : BitVec 64} (stored : s.producer = .stored value head) :
      Produces s { s with ring := { s.ring with head := head + 1 }, producer := .idle }
        [.pushed value]

/-- The steps of the consumer. -/
inductive Consumes (s : State α capacity) : State α capacity → List (Event α) → Prop where
  /-- By the copy of `head_` the ring is empty. -/
  | recheck (calling : s.consumer = .called) :
      Consumes s { s with consumer := .drained s.ring.tail } []
  | unread (calling : s.consumer = .called) (unread : s.ring.cachedHead ≠ s.ring.tail) :
      Consumes s { s with consumer := .loading s.ring.tail } []
  | nothing {tail : BitVec 64} (checking : s.consumer = .drained tail)
      (empty : s.ring.head = tail) :
      Consumes s
        { s with ring := { s.ring with cachedHead := s.ring.head }, consumer := .idle } [.nothing]
  | reload {tail : BitVec 64} (checking : s.consumer = .drained tail)
      (unread : s.ring.head ≠ tail) :
      Consumes s
        { s with ring := { s.ring with cachedHead := s.ring.head }, consumer := .loading tail } []
  | load {tail : BitVec 64} (loading : s.consumer = .loading tail) :
      Consumes s { s with consumer := .loaded tail (s.ring.storage (capacity.slot tail)) } []
  | pop {tail : BitVec 64} {value : α} (loaded : s.consumer = .loaded tail value) :
      Consumes s { s with ring := { s.ring with tail := tail + 1 }, consumer := .idle }
        [.popped value]

theorem produceStep_produces (h : produceStep s = some (s', new)) : Produces s s' new := by
  rw [produceStep] at h
  split at h
  · cases h
  · next value hp =>
    dsimp only at h
    split_ifs at h with hfull
    · obtain ⟨rfl, rfl⟩ := Prod.mk.inj (Option.some.inj h)
      exact .recheck hp
    · obtain ⟨rfl, rfl⟩ := Prod.mk.inj (Option.some.inj h)
      exact .room hp (Bool.eq_false_iff.2 hfull)
  · next value head hp =>
    dsimp only at h
    split_ifs at h with hfull
    · obtain ⟨rfl, rfl⟩ := Prod.mk.inj (Option.some.inj h)
      exact .refuse hp hfull
    · obtain ⟨rfl, rfl⟩ := Prod.mk.inj (Option.some.inj h)
      exact .reload hp (Bool.eq_false_iff.2 hfull)
  · next value head hp =>
    obtain ⟨rfl, rfl⟩ := Prod.mk.inj (Option.some.inj h)
    exact .store hp
  · next value head hp =>
    obtain ⟨rfl, rfl⟩ := Prod.mk.inj (Option.some.inj h)
    exact .push hp

theorem consumeStep_consumes (h : consumeStep s = some (s', new)) : Consumes s s' new := by
  rw [consumeStep] at h
  split at h
  · cases h
  · next hc =>
    dsimp only at h
    split_ifs at h with hempty
    · obtain ⟨rfl, rfl⟩ := Prod.mk.inj (Option.some.inj h)
      exact .recheck hc
    · obtain ⟨rfl, rfl⟩ := Prod.mk.inj (Option.some.inj h)
      exact .unread hc hempty
  · next tail hc =>
    dsimp only at h
    split_ifs at h with hempty
    · obtain ⟨rfl, rfl⟩ := Prod.mk.inj (Option.some.inj h)
      exact .nothing hc hempty
    · obtain ⟨rfl, rfl⟩ := Prod.mk.inj (Option.some.inj h)
      exact .reload hc hempty
  · next tail hc =>
    obtain ⟨rfl, rfl⟩ := Prod.mk.inj (Option.some.inj h)
    exact .load hc
  · next tail value hc =>
    obtain ⟨rfl, rfl⟩ := Prod.mk.inj (Option.some.inj h)
    exact .pop hc

/-! ## What the steps keep -/

theorem inv_callPush (h : Inv s log) (hp : s.producer = .idle) (value : α) :
    Inv { s with producer := .called value } (log ++ [.callPush value]) where
  wf := h.wf
  conserved := by simpa [pushedOf, poppedOf] using h.conserved
  answered := by simpa [calledOf, answeredOf, Producer.pending, hp] using h.answered
  producer := trivial
  consumer := h.consumer
  pushing := fun _ => Machine.open_snoc (by trivial) log
  popping := fun hc => (h.popping hc).append (by simp [CallsPop])
  justified := h.justified.snoc trivial

theorem inv_callPop (h : Inv s log) :
    Inv { s with consumer := .called } (log ++ [.callPop]) where
  wf := h.wf
  conserved := by simpa [pushedOf, poppedOf] using h.conserved
  answered := by simpa [calledOf, answeredOf] using h.answered
  producer := h.producer
  consumer := trivial
  pushing := fun hp => (h.pushing hp).append (by simp [CallsPush])
  popping := fun _ => Machine.open_snoc (by trivial) log
  justified := h.justified.snoc trivial

/-- A step of the producer that neither returns nor stores. -/
theorem Inv.produce_quiet (h : Inv s log) {ring : SpscRing α capacity} {producer : Producer α}
    (hwf : ring.Wf) (hcontents : ring.contents = s.ring.contents)
    (hpending : producer.pending = s.producer.pending) (hsound : producer.Sound ring)
    (hconsumer : s.consumer.Sound ring) (hbusy : s.producer ≠ .idle) :
    Inv { s with ring := ring, producer := producer } log where
  wf := hwf
  conserved := h.conserved.trans (by rw [hcontents])
  answered := h.answered.trans (by rw [hpending])
  producer := hsound
  consumer := hconsumer
  pushing := fun _ => h.pushing hbusy
  popping := h.popping
  justified := h.justified

/-- A step of the consumer that neither returns nor stores. -/
theorem Inv.consume_quiet (h : Inv s log) {ring : SpscRing α capacity} {consumer : Consumer α}
    (hwf : ring.Wf) (hcontents : ring.contents = s.ring.contents)
    (hsound : s.producer.Sound ring) (hconsumer : consumer.Sound ring)
    (hbusy : s.consumer ≠ .idle) :
    Inv { s with ring := ring, consumer := consumer } log where
  wf := hwf
  conserved := h.conserved.trans (by rw [hcontents])
  answered := h.answered
  producer := hsound
  consumer := hconsumer
  pushing := h.pushing
  popping := fun _ => h.popping hbusy
  justified := h.justified

/-- The consumer keeps what it knows when the producer stores where nothing is unread. -/
theorem Consumer.Sound.store {consumer : Consumer α} (h : consumer.Sound s.ring)
    (hwf : s.ring.Wf) (hroom : s.ring.contents.length < capacity.size) (value : α) :
    consumer.Sound { s.ring with
      storage := Function.update s.ring.storage (capacity.slot s.ring.head) value } := by
  rcases consumer with - | - | tail | tail | ⟨tail, read⟩
  · trivial
  · trivial
  · exact h
  · exact h
  · obtain ⟨rfl, hsome, hcell⟩ := h
    refine ⟨rfl, hsome, ?_⟩
    have hlen : 0 < s.ring.contents.length := by
      rw [contents_pop hwf hsome, List.length_cons]
      exact Nat.succ_pos _
    have hne := slot_head_ne hroom hlen
    rw [show s.ring.tail + BitVec.ofNat 64 0 = s.ring.tail by bv_omega] at hne
    exact (Function.update_of_ne hne _ _).trans hcell

theorem inv_produce (h : Inv s log) (hstep : produceStep s = some (s', new)) :
    Inv s' (log ++ new) := by
  have hproducer := h.producer
  rcases produceStep_produces hstep with ⟨hp⟩ | ⟨hp, hroom⟩ | ⟨hp, hfull⟩ | ⟨hp, hroom⟩ | ⟨hp⟩ |
    ⟨hp⟩
  · rw [List.append_nil]
    exact h.produce_quiet h.wf rfl (by rw [hp]; rfl) rfl h.consumer (by simp [hp])
  · rw [List.append_nil]
    exact h.produce_quiet h.wf rfl (by rw [hp]; rfl) ⟨rfl, hroom⟩ h.consumer (by simp [hp])
  · -- `tail_` is loaded, and everything is unread
    rw [hp] at hproducer
    obtain rfl : _ = s.ring.head := hproducer
    have hlen : s.ring.contents.length = capacity.size := by
      refine le_antisymm h.wf.length_le ?_
      rw [contents, length_cellsFrom]
      exact full_iff.1 hfull
    have hmoment : (pushedOf log).length = (poppedOf log).length + capacity.size := by
      rw [h.conserved, List.length_append, hlen]
    have hwhy : Machine.During CallsPush
        (fun log => (pushedOf log).length = (poppedOf log).length + capacity.size) log :=
      (h.pushing (by simp [hp])).during hmoment
    exact {
      wf := h.wf.loadTail
      conserved := by simpa [pushedOf, poppedOf] using h.conserved
      answered := by simpa [calledOf, answeredOf, Producer.pending, hp] using h.answered
      producer := trivial
      consumer := h.consumer
      pushing := fun hidle => absurd rfl hidle
      popping := fun hc => (h.popping hc).append (by simp [CallsPop])
      justified := h.justified.snoc hwhy }
  · rw [hp] at hproducer
    obtain rfl : _ = s.ring.head := hproducer
    rw [List.append_nil]
    exact h.produce_quiet h.wf.loadTail rfl (by rw [hp]; rfl) ⟨rfl, hroom⟩ h.consumer (by simp [hp])
  · -- the value is stored, in a cell that holds nothing unread
    rw [hp] at hproducer
    obtain ⟨rfl, hfull⟩ := hproducer
    obtain ⟨hlt, hroom⟩ := h.wf.room hfull
    rw [List.append_nil]
    exact h.produce_quiet (h.wf.store _) (contents_store h.wf hlt _) (by rw [hp]; rfl)
      ⟨rfl, hfull, Function.update_self _ _ _⟩ (h.consumer.store h.wf hroom _) (by simp [hp])
  · next value head =>
    -- `head_` is stored : from now on the consumer may see the value
    rw [hp] at hproducer
    obtain ⟨rfl, hfull, hcell⟩ := hproducer
    obtain ⟨hlt, -⟩ := h.wf.room hfull
    have hpushed : pushedOf log ++ [value] =
        poppedOf log ++ contents { s.ring with head := s.ring.head + 1 } := by
      rw [h.conserved, contents_push h.wf hlt hcell, List.append_assoc]
    exact {
      wf := (h.wf.storeHead hlt).1
      conserved := by simpa [pushedOf, poppedOf] using hpushed
      answered := by simpa [calledOf, answeredOf, Producer.pending, hp] using h.answered
      producer := trivial
      consumer := h.consumer
      pushing := fun hidle => absurd rfl hidle
      popping := fun hc => (h.popping hc).append (by simp [CallsPop])
      justified := h.justified.snoc trivial }

theorem inv_consume (h : Inv s log) (hstep : consumeStep s = some (s', new)) :
    Inv s' (log ++ new) := by
  have hconsumer := h.consumer
  rcases consumeStep_consumes hstep with ⟨hc⟩ | ⟨hc, hunread⟩ | ⟨hc, hempty⟩ | ⟨hc, hunread⟩ |
    ⟨hc⟩ | ⟨hc⟩
  · rw [List.append_nil]
    exact h.consume_quiet h.wf rfl h.producer rfl (by simp [hc])
  · rw [List.append_nil]
    exact h.consume_quiet h.wf rfl h.producer ⟨rfl, hunread⟩ (by simp [hc])
  · -- `head_` is loaded, and nothing is unread
    rw [hc] at hconsumer
    obtain rfl : _ = s.ring.tail := hconsumer
    have hmoment : pushedOf log = poppedOf log := by
      rw [h.conserved, contents_eq_nil hempty, List.append_nil]
    have hwhy : Machine.During CallsPop (fun log => pushedOf log = poppedOf log) log :=
      (h.popping (by simp [hc])).during hmoment
    exact {
      wf := h.wf.loadHead
      conserved := by simpa [pushedOf, poppedOf] using h.conserved
      answered := by simpa [calledOf, answeredOf] using h.answered
      producer := h.producer
      consumer := trivial
      pushing := fun hp => (h.pushing hp).append (by simp [CallsPush])
      popping := fun hidle => absurd rfl hidle
      justified := h.justified.snoc hwhy }
  · rw [hc] at hconsumer
    obtain rfl : _ = s.ring.tail := hconsumer
    rw [List.append_nil]
    exact h.consume_quiet h.wf.loadHead rfl h.producer ⟨rfl, hunread⟩ (by simp [hc])
  · -- the value is copied out of its cell
    rw [hc] at hconsumer
    obtain ⟨rfl, hsome⟩ := hconsumer
    rw [List.append_nil]
    exact h.consume_quiet h.wf rfl h.producer ⟨rfl, hsome, rfl⟩ (by simp [hc])
  · next tail value =>
    -- `tail_` is stored : from now on the producer may reuse the cell
    rw [hc] at hconsumer
    obtain ⟨rfl, hsome, hcell⟩ := hconsumer
    have hpopped : pushedOf log =
        (poppedOf log ++ [value]) ++ contents { s.ring with tail := s.ring.tail + 1 } := by
      rw [h.conserved, contents_pop h.wf hsome, hcell, List.append_assoc]
      rfl
    exact {
      wf := (h.wf.storeTail hsome).1
      conserved := by simpa [pushedOf, poppedOf] using hpopped
      answered := by simpa [calledOf, answeredOf] using h.answered
      producer := h.producer
      consumer := trivial
      pushing := fun hp => (h.pushing hp).append (by simp [CallsPush])
      popping := fun hidle => absurd rfl hidle
      justified := h.justified.snoc trivial }

theorem inv_step {action : Action α} (h : Inv s log) (hstep : step s action = some (s', new)) :
    Inv s' (log ++ new) := by
  rcases action with value | - | - | -
  · rw [step] at hstep
    split at hstep
    · next hp =>
      obtain ⟨rfl, rfl⟩ := Prod.mk.inj (Option.some.inj hstep)
      exact inv_callPush h hp value
    · cases hstep
  · exact inv_produce h hstep
  · rw [step] at hstep
    split at hstep
    · obtain ⟨rfl, rfl⟩ := Prod.mk.inj (Option.some.inj hstep)
      exact inv_callPop h
    · cases hstep
  · exact inv_consume h hstep

theorem inv_reaches (h : (machine capacity garbage).Reaches s log) : Inv s log :=
  Machine.invariant inv_start inv_step h

/-! ## The ring is a queue -/

/-- Over every interleaving of the steps of one producer and one consumer, from a new ring on
and however often the counters go round : what was popped, followed by what the ring holds,
is what was pushed, in order; every call is answered in order; a store never hits an unread
cell; a push is refused only if the ring held its capacity at some moment of the call, and a
pop finds nothing only if the ring was empty at some moment of the call. -/
theorem ring_fifo {requested : ℕ} (hcap : checkedRingCapacity requested = some capacity)
    (garbage : Fin capacity.size → α) {s : State α capacity} {log : List (Event α)}
    (h : (machine capacity garbage).Reaches s log) :
    IsLeast {n | ∃ k, n = 2 ^ k ∧ requested ≤ n} capacity.size ∧
      pushedOf log = poppedOf log ++ s.ring.contents ∧
      calledOf log = answeredOf log ++ s.producer.pending ∧
      s.ring.contents.length ≤ capacity.size ∧
      (∀ value head, s.producer = .storing value head → ∀ i < s.ring.contents.length,
        capacity.slot (s.ring.tail + BitVec.ofNat 64 i) ≠ capacity.slot head) ∧
      (∀ before value after, log = before ++ .refused value :: after →
        Machine.During CallsPush
          (fun log => (pushedOf log).length = (poppedOf log).length + capacity.size) before) ∧
      (∀ before after, log = before ++ .nothing :: after →
        Machine.During CallsPop (fun log => pushedOf log = poppedOf log) before) := by
  have hinv := inv_reaches h
  refine ⟨checkedRingCapacity_isLeast hcap, hinv.conserved, hinv.answered, hinv.wf.length_le,
    ?_, fun before value after => hinv.justified before (.refused value) after,
    fun before after => hinv.justified before .nothing after⟩
  intro value head hp i hi
  have hproducer := hinv.producer
  rw [hp] at hproducer
  obtain ⟨rfl, hfull⟩ := hproducer
  exact slot_head_ne (hinv.wf.room hfull).2 hi

def oneCell : RingCapacity :=
  ⟨1, 0, by decide, rfl⟩

/-- A push, a push that finds the ring full, a pop, and a pop that finds it empty. -/
def sampleActions : List (Action ℕ) :=
  [.tryPush 7, .produce, .produce, .produce, .tryPush 8, .produce, .produce,
    .tryPop, .consume, .consume, .consume, .consume, .tryPop, .consume, .consume]

def sampleLog : List (Event ℕ) :=
  [.callPush 7, .pushed 7, .callPush 8, .refused 8, .callPop, .popped 7, .callPop, .nothing]

theorem ring_fifo_sample : ∃ s : State ℕ oneCell,
    (machine oneCell fun _ => 0).Reaches s sampleLog ∧ s.ring.contents = [] ∧
      Machine.During CallsPush
        (fun log => (pushedOf log).length = (poppedOf log).length + oneCell.size)
        (sampleLog.take 3) := by
  have hcap : checkedRingCapacity 1 = some oneCell := rfl
  have hrun : ∃ s, (machine oneCell fun _ => 0).Reaches s sampleLog := ⟨_, sampleActions, rfl⟩
  obtain ⟨s, hrun⟩ := hrun
  obtain ⟨-, hconserved, -, -, -, hrefused, -⟩ := ring_fifo hcap _ hrun
  have hcontents : [7] ++ s.ring.contents = [7] ++ [] := hconserved.symm
  exact ⟨s, hrun, List.append_cancel_left hcontents, hrefused _ 8 _ rfl⟩

end Ring

end L2Flow
