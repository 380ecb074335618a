import L2Flow.AdmissionCalls

/-!
# Who owns a slot

Every slot of a lane is in one place : on the free list, with the admission that fills it, in
the ready ring, with the worker, or in the recycled ring (`LaneSound.slots`). So nobody writes
to a slot whose message is not read yet, and what the worker finds in its slot is what `Admit`
was called with, until the worker releases it (`admission_exactly_once`).
-/

namespace L2Flow

open LittleEndian (bytes)

variable {cfg : AdmissionConfig} {threads stops : ℕ}

/-! ## Places -/

/-- The slot that the admission is filling. -/
def AdmitStage.filling (lane : Lane cfg) : AdmitStage cfg → List ℕ
  | .publishing publication (.storing index) => if publication.lane = lane then [index] else []
  | .publishing publication (.copying index _) => if publication.lane = lane then [index] else []
  | _ => []

/-- A stage in which the call has no slot. -/
def AdmitStage.slotless : AdmitStage cfg → Bool
  | .publishing _ (.storing _) | .publishing _ (.copying _ _) => false
  | _ => true

/-- The slot that the worker has popped. -/
def WorkerStage.slot : WorkerStage → List ℕ
  | .popped index => [index]
  | .holding index _ => [index]
  | _ => []

/-- The slot that the worker has popped and not read. -/
def WorkerStage.unread : WorkerStage → List ℕ
  | .popped index => [index]
  | _ => []

/-- The slots of a lane, place by place. -/
def LaneStorage.slots {capacity : RingCapacity} (storage : LaneStorage capacity)
    (filling : List ℕ) (worker : WorkerStage) : List ℕ :=
  storage.free ++ filling ++ storage.ready.contents ++ worker.slot ++ storage.recycled.contents

/-- What `LaneMessageMetadata` keeps of a message. -/
def metadataOf (message : OwnedMessageView) : LaneMessageMetadata where
  header := message.header
  ingressSequence := message.ingressSequence
  receiveMonotonicNs := message.receiveMonotonicNs
  bodySize := message.body.length

/-- The message is in the slot. -/
structure Stored {capacity : RingCapacity} (storage : LaneStorage capacity)
    (maximumBodyBytes index : ℕ) (message : OwnedMessageView) : Prop where
  metadata : storage.metadata index = metadataOf message
  fits : message.body.length ≤ maximumBodyBytes
  body : storage.bytesAt (index * maximumBodyBytes) message.body.length = message.body

namespace Stored

variable {capacity : RingCapacity} {storage storage' : LaneStorage capacity}
  {maximumBodyBytes index : ℕ} {message : OwnedMessageView}

theorem viewAt (h : Stored storage maximumBodyBytes index message) :
    storage.viewAt maximumBodyBytes index (metadataOf message) = message := by
  rw [LaneStorage.viewAt]
  exact congrArg (fun body => { message with body := body }) h.body

/-- Only the metadata and the bytes matter. -/
theorem congr (h : Stored storage maximumBodyBytes index message)
    (hmetadata : storage'.metadata = storage.metadata) (harena : storage'.arena = storage.arena) :
    Stored storage' maximumBodyBytes index message where
  metadata := by rw [hmetadata, h.metadata]
  fits := h.fits
  body := by
    rw [LaneStorage.bytesAt, harena]
    exact h.body

/-- The metadata of another slot. -/
theorem storeMetadata (h : Stored storage maximumBodyBytes index message) {other : ℕ}
    (hne : index ≠ other) (metadata : LaneMessageMetadata) :
    Stored (storage.storeMetadata other metadata) maximumBodyBytes index message where
  metadata := (Function.update_of_ne hne _ _).trans h.metadata
  fits := h.fits
  body := h.body

/-- A byte of another slot. -/
theorem storeByte (h : Stored storage maximumBodyBytes index message) {other offset : ℕ}
    (hne : index ≠ other) (hoffset : offset < maximumBodyBytes) (octet : UInt8) :
    Stored (storage.storeByte (other * maximumBodyBytes + offset) octet) maximumBodyBytes index
      message where
  metadata := h.metadata
  fits := h.fits
  body := by
    refine Eq.trans (List.map_congr_left fun i hi => ?_) h.body
    have hlt : i < maximumBodyBytes := lt_of_lt_of_le (List.mem_range.1 hi) h.fits
    refine Function.update_of_ne (fun heq => hne ?_) _ _
    have hdiv := congrArg (· / maximumBodyBytes) heq
    have hpos : 0 < maximumBodyBytes := by omega
    simpa only [Nat.mul_comm _ maximumBodyBytes, Nat.mul_add_div hpos, Nat.div_eq_of_lt hlt,
      Nat.div_eq_of_lt hoffset, Nat.add_zero] using hdiv

end Stored

/-! ## A lane -/

theorem forall₂_imp_mem {α β : Type} {R S : α → β → Prop} :
    ∀ {l : List α} {m : List β}, List.Forall₂ R l m → (∀ a ∈ l, ∀ b, R a b → S a b) →
      List.Forall₂ S l m
  | _, _, .nil, _ => .nil
  | _, _, .cons h hs, himp =>
    .cons (himp _ List.mem_cons_self _ h)
      (forall₂_imp_mem hs fun a ha => himp a (List.mem_cons_of_mem _ ha))

theorem unread_subset {worker : WorkerStage} {index : ℕ} (h : index ∈ worker.unread) :
    index ∈ worker.slot := by
  rcases worker with - | other | ⟨other, metadata⟩ | - | - | - | -
  all_goals first | exact h | cases h

/-- The rings, the places of the slots, and the messages in them. -/
structure LaneSound (lane : Lane cfg) (storage : LaneStorage lane.ring) (filling : List ℕ)
    (worker : WorkerStage) (published consumed : List OwnedMessageView) : Prop where
  ready_wf : storage.ready.Wf
  recycled_wf : storage.recycled.Wf
  slots : (storage.slots filling worker).Perm (List.range lane.slotCount)
  queue : ∃ waiting, published = consumed ++ waiting ∧
    List.Forall₂ (Stored storage lane.maximumBodyBytes) (worker.unread ++ storage.ready.contents)
      waiting
  holding : ∀ index metadata, worker = .holding index metadata → ∃ message,
    consumed.getLast? = some message ∧ metadata = metadataOf message ∧
      Stored storage lane.maximumBodyBytes index message

namespace LaneSound

variable {lane : Lane cfg} {storage : LaneStorage lane.ring} {filling : List ℕ}
  {worker : WorkerStage} {published consumed : List OwnedMessageView}

theorem nodup (h : LaneSound lane storage filling worker published consumed) :
    (storage.slots filling worker).Nodup :=
  h.slots.nodup_iff.2 List.nodup_range

theorem length (h : LaneSound lane storage filling worker published consumed) :
    storage.free.length + filling.length + storage.ready.contents.length + worker.slot.length +
      storage.recycled.contents.length ≤ lane.ring.size := by
  have hlen := h.slots.length_eq
  have hle := lane.slotCount_le
  simp only [LaneStorage.slots, List.length_append, List.length_range] at hlen
  omega

/-- A step that moves no message : the slots may change their places, and the slots with
messages keep them. -/
theorem congr (h : LaneSound lane storage filling worker published consumed)
    {storage' : LaneStorage lane.ring} {filling' : List ℕ} (hready_wf : storage'.ready.Wf)
    (hrecycled_wf : storage'.recycled.Wf)
    (hready : storage'.ready.contents = storage.ready.contents)
    (hcount : ∀ a, (storage'.free ++ filling' ++ storage'.recycled.contents).count a =
      (storage.free ++ filling ++ storage.recycled.contents).count a)
    (hstored : ∀ index ∈ worker.slot ++ storage.ready.contents, ∀ message,
      Stored storage lane.maximumBodyBytes index message →
        Stored storage' lane.maximumBodyBytes index message) :
    LaneSound lane storage' filling' worker published consumed where
  ready_wf := hready_wf
  recycled_wf := hrecycled_wf
  slots := by
    refine (List.perm_iff_count.2 fun a => ?_).trans h.slots
    have := hcount a
    simp only [LaneStorage.slots, List.count_append, hready] at this ⊢
    omega
  queue := by
    obtain ⟨waiting, hpublished, hwaiting⟩ := h.queue
    refine ⟨waiting, hpublished, ?_⟩
    rw [hready]
    refine forall₂_imp_mem hwaiting fun index hindex => hstored index ?_
    rcases List.mem_append.1 hindex with hindex | hindex
    · exact List.mem_append_left _ (unread_subset hindex)
    · exact List.mem_append_right _ hindex
  holding := by
    rintro index metadata rfl
    obtain ⟨message, hlast, hmetadata, hmessage⟩ := h.holding index metadata rfl
    exact ⟨message, hlast, hmetadata,
      hstored index (List.mem_append_left _ List.mem_cons_self) message hmessage⟩

/-- A pass of `DrainRecycled`. -/
theorem drainOne (h : LaneSound lane storage filling worker published consumed) :
    LaneSound lane storage.drainOne.2 filling worker published consumed := by
  obtain ⟨hwf, hpop⟩ := SpscRing.tryPop_spec h.recycled_wf
  rw [LaneStorage.drainOne]
  rcases hring : storage.recycled.tryPop with ⟨- | index, recycled⟩
  · rw [hring] at hwf hpop
    obtain ⟨hnil, -, hnil'⟩ | ⟨value, hvalue, -⟩ := hpop
    · refine h.congr h.ready_wf hwf rfl (fun a => ?_) fun _ _ _ hm => hm.congr rfl rfl
      dsimp only at hnil' ⊢
      rw [hnil, hnil']
    · cases hvalue
  · rw [hring] at hwf hpop
    obtain ⟨-, hnone, -⟩ | ⟨value, hvalue, hcontents⟩ := hpop
    · cases hnone
    · obtain rfl := Option.some.inj hvalue
      refine h.congr h.ready_wf hwf rfl (fun a => ?_) fun _ _ _ hm => hm.congr rfl rfl
      dsimp only at hcontents ⊢
      simp only [hcontents, List.count_append, List.count_cons]
      omega

/-- A slot is taken from the free list. -/
theorem take (h : LaneSound lane storage [] worker published consumed) {index : ℕ}
    {rest : List ℕ} (hfree : storage.free = index :: rest) :
    LaneSound lane { storage with free := rest } [index] worker published consumed := by
  refine h.congr h.ready_wf h.recycled_wf rfl (fun a => ?_) fun _ _ _ hm => hm.congr rfl rfl
  simp only [hfree, List.count_append, List.count_cons, List.count_nil]
  omega

/-- The slot that is filled has no message in it. -/
theorem ne_of_mem {index other : ℕ}
    (h : LaneSound lane storage [index] worker published consumed)
    (hother : other ∈ worker.slot ++ storage.ready.contents) : other ≠ index := by
  rintro rfl
  have hcount := List.nodup_iff_count_le_one.1 h.nodup other
  have hpos : 0 < (worker.slot ++ storage.ready.contents).count other :=
    List.count_pos_iff.2 hother
  simp only [LaneStorage.slots, List.count_append, List.count_cons, List.count_nil,
    beq_self_eq_true, if_true] at hcount hpos
  omega

theorem storeMetadata {index : ℕ} (h : LaneSound lane storage [index] worker published consumed)
    (metadata : LaneMessageMetadata) :
    LaneSound lane (storage.storeMetadata index metadata) [index] worker published consumed :=
  h.congr h.ready_wf h.recycled_wf rfl (fun _ => rfl) fun _ hother _ hm =>
    hm.storeMetadata (h.ne_of_mem hother) metadata

theorem storeByte {index offset : ℕ}
    (h : LaneSound lane storage [index] worker published consumed)
    (hoffset : offset < lane.maximumBodyBytes) (octet : UInt8) :
    LaneSound lane (storage.storeByte (index * lane.maximumBodyBytes + offset) octet) [index]
      worker published consumed :=
  h.congr h.ready_wf h.recycled_wf rfl (fun _ => rfl) fun _ hother _ hm =>
    hm.storeByte (h.ne_of_mem hother) hoffset octet

/-- There is room in the ready ring for the slot that was filled. -/
theorem pushReady {index : ℕ} (h : LaneSound lane storage [index] worker published consumed)
    {message : OwnedMessageView} (hmessage : Stored storage lane.maximumBodyBytes index message) :
    (storage.pushReady index).1 = true ∧ LaneSound lane (storage.pushReady index).2 [] worker
      (published ++ [message]) consumed := by
  obtain ⟨hwf, hpush⟩ := SpscRing.tryPush_spec h.ready_wf index
  have hlen := h.length
  rw [List.length_singleton] at hlen
  rw [LaneStorage.pushReady]
  rcases hring : storage.ready.tryPush index with ⟨pushed, ready⟩
  rw [hring] at hwf hpush
  obtain ⟨-, rfl, hcontents⟩ | ⟨hfull, -, -⟩ := hpush
  · refine ⟨rfl, hwf, h.recycled_wf, ?_, ?_, ?_⟩
    · refine (List.perm_iff_count.2 fun a => ?_).trans h.slots
      dsimp only at hcontents
      simp only [LaneStorage.slots, hcontents, List.count_append, List.count_cons, List.count_nil]
      omega
    · obtain ⟨waiting, hpublished, hwaiting⟩ := h.queue
      refine ⟨waiting ++ [message], by rw [hpublished, List.append_assoc], ?_⟩
      dsimp only at hcontents ⊢
      rw [hcontents, ← List.append_assoc]
      exact List.rel_append (hwaiting.imp fun _ _ hm => hm.congr rfl rfl)
        (.cons (hmessage.congr rfl rfl) .nil)
    · rintro held metadata rfl
      obtain ⟨last, hlast, hmetadata, hstored⟩ := h.holding held metadata rfl
      exact ⟨last, hlast, hmetadata, hstored.congr rfl rfl⟩
  · omega

/-- The worker pops an index, if there is one. -/
theorem popReady (h : LaneSound lane storage filling worker published consumed)
    (hslot : worker.slot = []) :
    LaneSound lane storage.popReady.2 filling (storage.popReady.1.elim .missed .popped) published
      consumed := by
  obtain ⟨hwf, hpop⟩ := SpscRing.tryPop_spec h.ready_wf
  have hunread : worker.unread = [] := List.eq_nil_of_subset_nil fun index hindex => by
    rw [← hslot]
    exact unread_subset hindex
  obtain ⟨waiting, hpublished, hwaiting⟩ := h.queue
  rw [hunread, List.nil_append] at hwaiting
  have hstored : List.Forall₂ (Stored storage.popReady.2 lane.maximumBodyBytes)
      storage.ready.contents waiting := hwaiting.imp fun _ _ hm => hm.congr rfl rfl
  have hslots := h.slots
  simp only [LaneStorage.slots, hslot] at hslots
  obtain ⟨hnil, hnone, hnil'⟩ | ⟨index, hsome, hcontents⟩ := hpop
  · have hpopped : storage.popReady.1 = none := hnone
    rw [hpopped]
    refine ⟨hwf, h.recycled_wf, ?_, ⟨waiting, hpublished, ?_⟩, by rintro _ _ ⟨⟩⟩
    · refine (List.perm_iff_count.2 fun a => ?_).trans hslots
      simp only [LaneStorage.slots, LaneStorage.popReady, hnil, hnil', Option.elim_none,
        WorkerStage.slot]
    · rw [hnil] at hstored
      simp only [LaneStorage.popReady, hnil', Option.elim_none, WorkerStage.unread]
      exact hstored
  · have hpopped : storage.popReady.1 = some index := hsome
    rw [hpopped]
    refine ⟨hwf, h.recycled_wf, ?_, ⟨waiting, hpublished, ?_⟩, by rintro _ _ ⟨⟩⟩
    · refine (List.perm_iff_count.2 fun a => ?_).trans hslots
      simp only [LaneStorage.slots, LaneStorage.popReady, hcontents, Option.elim_some,
        WorkerStage.slot, List.count_append, List.count_cons, List.count_nil]
      omega
    · rw [hcontents] at hstored
      exact hstored

/-- The worker finds the first message that is waiting. -/
theorem read {index : ℕ} (h : LaneSound lane storage filling (.popped index) published consumed) :
    ∃ message, storage.viewAt lane.maximumBodyBytes index (storage.metadata index) = message ∧
      LaneSound lane storage filling (.holding index (storage.metadata index)) published
        (consumed ++ [message]) := by
  obtain ⟨waiting, hpublished, hwaiting⟩ := h.queue
  rcases hwaiting with - | ⟨hmessage, hrest⟩
  next message rest =>
  refine ⟨message, ?_, h.ready_wf, h.recycled_wf, h.slots, ⟨rest, ?_, hrest⟩, ?_⟩
  · rw [hmessage.metadata]
    exact hmessage.viewAt
  · rw [hpublished, List.append_assoc]
    rfl
  · rintro held metadata hheld
    obtain ⟨rfl, rfl⟩ := WorkerStage.holding.inj hheld
    exact ⟨message, List.getLast?_concat, hmessage.metadata, hmessage⟩

/-- There is room in the recycled ring for the slot that the worker has. -/
theorem release {index : ℕ} {metadata : LaneMessageMetadata}
    (h : LaneSound lane storage filling (.holding index metadata) published consumed) :
    (storage.release lane.slotCount index).1 = true ∧
      LaneSound lane (storage.release lane.slotCount index).2 filling .polling published
        consumed := by
  obtain ⟨hwf, hpush⟩ := SpscRing.tryPush_spec h.recycled_wf index
  have hlen := h.length
  have hindex : index < lane.slotCount := by
    have hmem : index ∈ storage.slots filling (.holding index metadata) := by
      simp [LaneStorage.slots, WorkerStage.slot]
    exact List.mem_range.1 (h.slots.subset hmem)
  rw [LaneStorage.release, if_pos hindex]
  obtain ⟨-, hpushed, hcontents⟩ | ⟨hfull, -, -⟩ := hpush
  · obtain ⟨waiting, hpublished, hwaiting⟩ := h.queue
    refine ⟨hpushed, h.ready_wf, hwf, ?_, ⟨waiting, hpublished, ?_⟩, by rintro _ _ ⟨⟩⟩
    · refine (List.perm_iff_count.2 fun a => ?_).trans h.slots
      simp only [LaneStorage.slots, hcontents, WorkerStage.slot, List.count_append,
        List.count_cons, List.count_nil]
      omega
    · exact hwaiting.imp fun _ _ hm => hm.congr rfl rfl
  · simp only [WorkerStage.slot, List.length_singleton] at hlen
    omega

/-- Where the worker has no slot, it may do anything else. -/
theorem turn (h : LaneSound lane storage filling worker published consumed)
    (hslot : worker.slot = []) {worker' : WorkerStage} (hslot' : worker'.slot = []) :
    LaneSound lane storage filling worker' published consumed where
  ready_wf := h.ready_wf
  recycled_wf := h.recycled_wf
  slots := by
    have hslots := h.slots
    rw [LaneStorage.slots, hslot] at hslots
    rw [LaneStorage.slots, hslot']
    exact hslots
  queue := by
    have hunread : ∀ {w : WorkerStage}, w.slot = [] → w.unread = [] := fun hw =>
      List.eq_nil_of_subset_nil fun index hindex => hw ▸ unread_subset hindex
    rw [hunread hslot']
    have hqueue := h.queue
    rwa [hunread hslot] at hqueue
  holding := by
    rintro index metadata rfl
    cases hslot'

end LaneSound

/-! ## The engine -/

namespace Admission

/-- The messages that were published for a lane, in order. -/
def publishedOn (lane : Lane cfg) (log : List (Event cfg threads)) : List OwnedMessageView :=
  log.filterMap fun
    | .published _ lane' message => if lane' = lane then some message else none
    | _ => none

/-- The messages that the worker of a lane consumed, in order. -/
def consumedOn (lane : Lane cfg) (log : List (Event cfg threads)) : List OwnedMessageView :=
  log.filterMap fun
    | .consumed lane' message => if lane' = lane then some message else none
    | _ => none

theorem publishedOn_append (lane : Lane cfg) (log new : List (Event cfg threads)) :
    publishedOn lane (log ++ new) = publishedOn lane log ++ publishedOn lane new :=
  List.filterMap_append ..

theorem consumedOn_append (lane : Lane cfg) (log new : List (Event cfg threads)) :
    consumedOn lane (log ++ new) = consumedOn lane log ++ consumedOn lane new :=
  List.filterMap_append ..

/-- The slot of a lane that an admission is filling. -/
def State.filling (s : State cfg threads stops) (lane : Lane cfg) : List ℕ :=
  (List.finRange threads).flatMap fun thread => (s.admits thread).elim [] (·.2.filling lane)

/-- What the call has written to its slot so far. -/
def Writes (lanes : (lane : Lane cfg) → LaneStorage lane.ring) (call : AdmitCall) :
    AdmitStage cfg → Prop
  | .publishing publication (.copying index copied) =>
    (lanes publication.lane).metadata index = publication.metadata call ∧
      copied ≤ call.body.length ∧
      (lanes publication.lane).bytesAt (index * publication.lane.maximumBodyBytes) copied =
        call.body.take copied
  | _ => True

/-- All lanes are sound. -/
structure SlotsKept (s : State cfg threads stops) (log : List (Event cfg threads)) : Prop where
  lanes : ∀ lane, LaneSound lane (s.lanes lane) (s.filling lane) (s.workers lane)
    (publishedOn lane log) (consumedOn lane log)
  writing : ∀ thread, ∀ ongoing ∈ s.admits thread, Writes s.lanes ongoing.1 ongoing.2

theorem flatMap_eq_single {α β : Type} {f : α → List β} {a : α} :
    ∀ {l : List α}, l.Nodup → a ∈ l → (∀ b ≠ a, f b = []) → l.flatMap f = f a
  | b :: l, hnodup, hmem, hothers => by
    obtain ⟨hb, hl⟩ := List.nodup_cons.1 hnodup
    rw [List.flatMap_cons]
    rcases List.mem_cons.1 hmem with rfl | hmem
    · have hrest : l.flatMap f = [] := List.flatMap_eq_nil_iff.2 fun c hc =>
        hothers c fun h => hb (h ▸ hc)
      rw [hrest, List.append_nil]
    · rw [hothers b fun h => hb (h ▸ hmem), List.nil_append]
      exact flatMap_eq_single hl hmem hothers

theorem filling_of_not_guarded {stage : AdmitStage cfg} (h : stage.guarded = false)
    (lane : Lane cfg) : stage.filling lane = [] := by
  rcases stage with _ | _ | _ | _ | _ | _ | _ | _ | _ | _
  all_goals first | rfl | exact absurd h (by simp [AdmitStage.guarded])

theorem writes_of_not_guarded {lanes : (lane : Lane cfg) → LaneStorage lane.ring}
    {call : AdmitCall} {stage : AdmitStage cfg} (h : stage.guarded = false) :
    Writes lanes call stage := by
  rcases stage with _ | _ | _ | _ | _ | _ | _ | _ | _ | _
  all_goals trivial

section Kept

variable {s s' : State cfg threads stops} {log new : List (Event cfg threads)}
  {thread : Fin threads} {call : AdmitCall} {stage : AdmitStage cfg}

/-- The other threads are not past the lock. -/
theorem CallsKept.not_guarded (h : CallsKept s log) (hguards : s.guards thread = true)
    {t : Fin threads} (ht : t ≠ thread) {ongoing : AdmitCall × AdmitStage cfg}
    (hongoing : ongoing ∈ s.admits t) : ongoing.2.guarded = false := by
  by_contra hheld
  refine ht (h.exclusive t thread ?_ hguards)
  rw [State.guards, hongoing]
  exact Bool.eq_true_of_not_eq_false hheld

/-- The slot that is being filled is that of the thread past the lock. -/
theorem CallsKept.filling_eq (h : CallsKept s log) (hguards : s.guards thread = true)
    (hadmits : ∀ t ≠ thread, s'.admits t = s.admits t) (lane : Lane cfg) :
    s'.filling lane = (s'.admits thread).elim [] (·.2.filling lane) := by
  refine flatMap_eq_single (List.nodup_finRange _) (List.mem_finRange _) fun t ht => ?_
  rw [hadmits t ht]
  rcases hongoing : s.admits t with - | ongoing
  · rfl
  · exact filling_of_not_guarded (h.not_guarded hguards ht hongoing) lane

/-- Steps that leave the lanes, the workers and the slots being filled as they are. -/
theorem SlotsKept.aside (h : SlotsKept s log) (hlanes : s'.lanes = s.lanes)
    (hworkers : s'.workers = s.workers) (hfilling : ∀ lane, s'.filling lane = s.filling lane)
    (hpublished : ∀ lane, publishedOn lane new = []) (hconsumed : ∀ lane, consumedOn lane new = [])
    (hwriting : ∀ thread, ∀ ongoing ∈ s'.admits thread, Writes s.lanes ongoing.1 ongoing.2) :
    SlotsKept s' (log ++ new) where
  lanes := fun lane => by
    rw [hlanes, hworkers, hfilling, publishedOn_append, consumedOn_append, hpublished, hconsumed,
      List.append_nil, List.append_nil]
    exact h.lanes lane
  writing := by
    rw [hlanes]
    exact hwriting

/-- A step of the thread past the lock, on the lane of its message. -/
theorem SlotsKept.publishing (h : SlotsKept s log) (hcalls : CallsKept s log)
    {publication : Publication cfg} {now : PublishStage} {next : AdmitStage cfg}
    {storage : LaneStorage publication.lane.ring}
    (hongoing : s.admits thread = some (call, .publishing publication now))
    (hlanes : s'.lanes = Function.update s.lanes publication.lane storage)
    (hworkers : s'.workers = s.workers)
    (hadmits : s'.admits = Function.update s.admits thread (some (call, next)))
    (hothers : ∀ lane ≠ publication.lane, AdmitStage.filling lane (.publishing publication now) =
      [] ∧ next.filling lane = [] ∧ publishedOn lane new = [])
    (hconsumed : ∀ lane, consumedOn lane new = [])
    (hlane : LaneSound publication.lane (s.lanes publication.lane)
        (AdmitStage.filling publication.lane (.publishing publication now))
        (s.workers publication.lane) (publishedOn publication.lane log)
        (consumedOn publication.lane log) →
      LaneSound publication.lane storage (next.filling publication.lane)
        (s.workers publication.lane)
        (publishedOn publication.lane log ++ publishedOn publication.lane new)
        (consumedOn publication.lane log))
    (hwrites : Writes s'.lanes call next) : SlotsKept s' (log ++ new) := by
  have hguards : s.guards thread = true := by
    rw [State.guards, hongoing]
    rfl
  have hkeep : ∀ t ≠ thread, s'.admits t = s.admits t := fun t ht => by
    rw [hadmits, Function.update_of_ne ht]
  have hnow : ∀ lane, s.filling lane =
      AdmitStage.filling lane (.publishing publication now) := fun lane => by
    rw [hcalls.filling_eq hguards (fun _ _ => rfl) lane, hongoing]
    rfl
  have hnext : ∀ lane, s'.filling lane = next.filling lane := fun lane => by
    rw [hcalls.filling_eq hguards hkeep lane, hadmits, Function.update_self]
    rfl
  constructor
  · intro lane
    rw [hworkers, hnext, publishedOn_append, consumedOn_append, hconsumed, List.append_nil]
    by_cases hsame : lane = publication.lane
    · subst hsame
      rw [hlanes, Function.update_self]
      exact hlane (hnow _ ▸ h.lanes _)
    · obtain ⟨hfilling, hfilling', hpublished⟩ := hothers lane hsame
      rw [hlanes, Function.update_of_ne hsame, hfilling', hpublished, List.append_nil, ← hfilling,
        ← hnow]
      exact h.lanes lane
  · intro t ongoing hmem
    by_cases ht : t = thread
    · subst ht
      rw [hadmits, Function.update_self] at hmem
      obtain rfl := Option.mem_some_iff.1 hmem
      exact hwrites
    · rw [hkeep t ht] at hmem
      exact writes_of_not_guarded (hcalls.not_guarded hguards ht hmem)

theorem filling_storing (publication : Publication cfg) (index : ℕ) :
    AdmitStage.filling publication.lane (.publishing publication (.storing index)) = [index] :=
  if_pos rfl

theorem filling_copying (publication : Publication cfg) (index copied : ℕ) :
    AdmitStage.filling publication.lane (.publishing publication (.copying index copied)) =
      [index] :=
  if_pos rfl

theorem bytesAt_succ {capacity : RingCapacity} (storage : LaneStorage capacity) (start size : ℕ) :
    storage.bytesAt start (size + 1) =
      storage.bytesAt start size ++ [storage.arena (start + size)] := by
  rw [LaneStorage.bytesAt, List.range_succ, List.map_append]
  rfl

/-- Storing the next byte. -/
theorem bytesAt_storeByte {capacity : RingCapacity} (storage : LaneStorage capacity)
    (start size : ℕ) (octet : UInt8) :
    (storage.storeByte (start + size) octet).bytesAt start (size + 1) =
      storage.bytesAt start size ++ [octet] := by
  rw [bytesAt_succ]
  refine congrArg₂ _ (List.map_congr_left fun i hi => ?_) ?_
  · exact Function.update_of_ne (by have := List.mem_range.1 hi; omega) _ _
  · exact congrArg (fun octet => [octet]) (Function.update_self _ _ _)

/-- The slot that was filled is pushed. -/
theorem SlotsKept.pushReady (h : SlotsKept s log) (hcalls : CallsKept s log)
    {publication : Publication cfg} {index copied : ℕ}
    (hongoing : s.admits thread = some (call, .publishing publication (.copying index copied)))
    (hall : call.body.length ≤ copied) :
    ((s.lanes publication.lane).pushReady index).1 = true ∧
      LaneSound publication.lane ((s.lanes publication.lane).pushReady index).2 []
        (s.workers publication.lane)
        (publishedOn publication.lane log ++ [publication.message call])
        (consumedOn publication.lane log) := by
  have hguards : s.guards thread = true := by
    rw [State.guards, hongoing]
    rfl
  obtain ⟨hmetadata, hcopied, hbytes⟩ := h.writing thread _ hongoing
  dsimp only at hcopied hbytes
  obtain rfl : copied = call.body.length := le_antisymm hcopied hall
  have hstored : Stored (s.lanes publication.lane) publication.lane.maximumBodyBytes index
      (publication.message call) := by
    refine ⟨hmetadata, (hcalls.publishes thread _ hongoing).1.fits, ?_⟩
    rw [List.take_length] at hbytes
    exact hbytes
  have hlane := h.lanes publication.lane
  rw [hcalls.filling_eq hguards (fun _ _ => rfl) publication.lane, hongoing] at hlane
  dsimp only [Option.elim_some] at hlane
  rw [filling_copying] at hlane
  exact hlane.pushReady hstored

/-- The steps of `TryPublish` and what follows it. -/
theorem SlotsKept.publishStep (h : SlotsKept s log) (hcalls : CallsKept s log)
    {publication : Publication cfg} {now : PublishStage}
    (hongoing : s.admits thread = some (call, .publishing publication now)) :
    SlotsKept (publishStep s thread call publication now).1
      (log ++ (publishStep s thread call publication now).2) := by
  have hfits : call.body.length ≤ publication.lane.maximumBodyBytes :=
    (hcalls.publishes thread _ hongoing).1.fits
  have hwriting := h.writing thread _ hongoing
  have hself := (Function.update_eq_self publication.lane s.lanes).symm
  rcases now with - | - | index | ⟨index, copied⟩ | - | -
  · rw [Admission.publishStep]
    refine h.publishing hcalls hongoing rfl rfl rfl (fun lane hne => ⟨rfl, ?_, rfl⟩) (fun _ => rfl)
      (fun hlane => ?_) ?_
    · rcases (s.lanes publication.lane).drainOne.1 with - | - <;> rfl
    · have hfilling : AdmitStage.filling publication.lane
          (.publishing publication (if (s.lanes publication.lane).drainOne.1 then .draining
            else .taking)) = [] := by
        rcases (s.lanes publication.lane).drainOne.1 with - | - <;> rfl
      rw [hfilling]
      exact (List.append_nil (publishedOn publication.lane log)).symm ▸ hlane.drainOne
    · rcases (s.lanes publication.lane).drainOne.1 with - | - <;> trivial
  · have hnil : publishedOn publication.lane log ++ [] = publishedOn publication.lane log :=
      List.append_nil _
    rcases hfree : (s.lanes publication.lane).free with - | ⟨index, rest⟩
    · rw [Admission.publishStep, hfree]
      exact h.publishing hcalls hongoing hself rfl rfl (fun _ _ => ⟨rfl, rfl, rfl⟩) (fun _ => rfl)
        (fun hlane => hnil.symm ▸ hlane) trivial
    · rw [Admission.publishStep, hfree]
      refine h.publishing hcalls hongoing rfl rfl rfl
        (fun lane hne => ⟨rfl, if_neg hne.symm, rfl⟩) (fun _ => rfl) (fun hlane => ?_) trivial
      rw [filling_storing]
      exact hnil.symm ▸ hlane.take hfree
  · rw [Admission.publishStep]
    refine h.publishing hcalls hongoing rfl rfl rfl
      (fun lane hne => ⟨if_neg hne.symm, if_neg hne.symm, rfl⟩) (fun _ => rfl) (fun hlane => ?_) ?_
    · rw [filling_storing] at hlane
      rw [filling_copying]
      exact (List.append_nil (publishedOn publication.lane log)).symm ▸ hlane.storeMetadata _
    · refine ⟨?_, Nat.zero_le _, rfl⟩
      show (Function.update s.lanes publication.lane _ publication.lane).metadata index = _
      rw [Function.update_self]
      exact Function.update_self _ _ _
  · obtain ⟨hmetadata, hcopied, hbytes⟩ := hwriting
    rcases hoctet : call.body[copied]? with - | octet
    · obtain ⟨hpushed, hsound⟩ := h.pushReady hcalls hongoing (List.getElem?_eq_none_iff.1 hoctet)
      rw [Admission.publishStep, hoctet]
      dsimp only
      rw [hpushed, if_pos rfl]
      refine h.publishing hcalls hongoing rfl rfl rfl
        (fun lane hne => ⟨if_neg hne.symm, rfl, ?_⟩) (fun _ => rfl) (fun _ => ?_) trivial
      · simp [publishedOn, hne.symm]
      · have hnew : publishedOn publication.lane
            [Event.published thread publication.lane (publication.message call)] =
              [publication.message call] := by
          simp [publishedOn]
        rw [hnew]
        exact hsound
    · have hlt : copied < call.body.length := (List.getElem?_eq_some_iff.1 hoctet).1
      rw [Admission.publishStep, hoctet]
      refine h.publishing hcalls hongoing rfl rfl rfl
        (fun lane hne => ⟨if_neg hne.symm, if_neg hne.symm, rfl⟩) (fun _ => rfl)
        (fun hlane => ?_) ?_
      · rw [filling_copying] at hlane ⊢
        exact (List.append_nil (publishedOn publication.lane log)).symm ▸
          hlane.storeByte (by omega) octet
      · show Writes (Function.update s.lanes publication.lane _) _ _
        dsimp only [Writes]
        rw [Function.update_self]
        refine ⟨hmetadata, hlt, ?_⟩
        rw [bytesAt_storeByte, hbytes, List.take_add_one, hoctet]
        rfl
  · rw [Admission.publishStep]
    exact h.publishing hcalls hongoing hself rfl rfl (fun _ _ => ⟨rfl, rfl, rfl⟩) (fun _ => rfl)
      (fun hlane => (List.append_nil (publishedOn publication.lane log)).symm ▸ hlane) trivial
  · rw [Admission.publishStep]
    exact h.publishing hcalls hongoing hself rfl rfl (fun _ _ => ⟨rfl, rfl, rfl⟩) (fun _ => rfl)
      (fun hlane => (List.append_nil (publishedOn publication.lane log)).symm ▸ hlane) trivial

theorem filling_of_slotless (h : stage.slotless = true) (lane : Lane cfg) :
    stage.filling lane = [] := by
  rcases stage with _ | _ | _ | _ | _ | ⟨publication, now⟩ | _ | _ | _ | _
  all_goals first | rfl | skip
  rcases now with _ | _ | _ | _ | _ | _
  all_goals first | rfl | cases h

theorem writes_of_slotless {lanes : (lane : Lane cfg) → LaneStorage lane.ring}
    (h : stage.slotless = true) : Writes lanes call stage := by
  rcases stage with _ | _ | _ | _ | _ | ⟨publication, now⟩ | _ | _ | _ | _
  all_goals first | trivial | skip
  rcases now with _ | _ | _ | _ | _ | _
  all_goals trivial

/-- What a step outside `TryPublish` does. -/
structure Outside (s : State cfg threads stops) (thread : Fin threads) (call : AdmitCall)
    (out : Outcome cfg threads stops) (next : Option (AdmitStage cfg)) : Prop where
  lanes : out.1.lanes = s.lanes
  workers : out.1.workers = s.workers
  admits : out.1.admits = Function.update s.admits thread (next.map (call, ·))
  slotless : ∀ stage ∈ next, stage.slotless = true
  reports : out.2 = [] ∨ ∃ result, out.2 = [.returned thread result]

theorem callStep_outside (s : State cfg threads stops) (thread : Fin threads) (call : AdmitCall)
    {stage : AdmitStage cfg} (hstage : ∀ publication now, stage ≠ .publishing publication now) :
    ∃ next, Outside s thread call (callStep s thread call stage) next := by
  have hslotless : ∀ {stage next : AdmitStage cfg}, stage.slotless = true → next ∈ some stage →
      next.slotless = true := fun h hmem => Option.mem_some_iff.1 hmem ▸ h
  rcases stage with - | - | - | - | - | ⟨publication, now⟩ | ⟨stage, after⟩ | result | result |
    result
  · rw [callStep]
    rcases s.flags.callbackActive with - | -
    · exact ⟨some .gate, rfl, rfl, rfl, fun _ => hslotless rfl, Or.inl rfl⟩
    · exact ⟨some .concurrent, rfl, rfl, rfl, fun _ => hslotless rfl, Or.inl rfl⟩
  · exact ⟨some _, rfl, rfl, rfl, fun _ => hslotless rfl, Or.inl rfl⟩
  · rw [callStep]
    rcases s.flags.accepting with - | -
    · exact ⟨some _, rfl, rfl, rfl, fun _ => hslotless rfl, Or.inl rfl⟩
    · exact ⟨some _, rfl, rfl, rfl, fun _ => hslotless rfl, Or.inl rfl⟩
  · rw [callStep]
    rcases s.flags.running with - | -
    · exact ⟨some _, rfl, rfl, rfl, fun _ => hslotless rfl, Or.inl rfl⟩
    · exact ⟨some _, rfl, rfl, rfl, fun _ => hslotless rfl, Or.inl rfl⟩
  · rcases hhealthy : s.flags.healthy with - | -
    · simp only [callStep, hhealthy]
      exact ⟨some _, rfl, rfl, rfl, fun _ => hslotless rfl, Or.inl rfl⟩
    · rcases hcheck : checkCall cfg call with result | - | ⟨header, lane⟩
      · simp only [callStep, hhealthy, hcheck]
        exact ⟨some _, rfl, rfl, rfl, fun _ => hslotless rfl, Or.inl rfl⟩
      · simp only [callStep, hhealthy, hcheck]
        exact ⟨some _, rfl, rfl, rfl, fun _ => hslotless rfl, Or.inl rfl⟩
      · simp only [callStep, hhealthy, hcheck, if_true]
        split_ifs
        · exact ⟨some _, rfl, rfl, rfl, fun _ => hslotless rfl, Or.inl rfl⟩
        · exact ⟨some _, rfl, rfl, rfl, fun _ => hslotless rfl, Or.inl rfl⟩
  · exact absurd rfl (hstage publication now)
  · rcases hdone : (setFatalStep s.flags stage).2 with - | next
    · rcases after with - | result
      · simp only [callStep, hdone]
        exact ⟨none, rfl, rfl, rfl, by simp, Or.inr ⟨_, rfl⟩⟩
      · simp only [callStep, hdone]
        exact ⟨some _, rfl, rfl, rfl, fun _ => hslotless rfl, Or.inl rfl⟩
    · simp only [callStep, hdone]
      exact ⟨some _, rfl, rfl, rfl, fun _ => hslotless rfl, Or.inl rfl⟩
  · rw [callStep]
    split_ifs
    · exact ⟨some _, rfl, rfl, rfl, fun _ => hslotless rfl, Or.inl rfl⟩
    · exact ⟨some _, rfl, rfl, rfl, fun _ => hslotless rfl, Or.inl rfl⟩
  · exact ⟨some _, rfl, rfl, rfl, fun _ => hslotless rfl, Or.inl rfl⟩
  · exact ⟨none, rfl, rfl, rfl, by simp, Or.inr ⟨_, rfl⟩⟩

/-- Steps that change what one thread does, where it has no slot before or after. -/
theorem SlotsKept.slotless (h : SlotsKept s log) {next : Option (AdmitCall × AdmitStage cfg)}
    (hlanes : s'.lanes = s.lanes) (hworkers : s'.workers = s.workers)
    (hadmits : s'.admits = Function.update s.admits thread next)
    (hbefore : ∀ ongoing ∈ s.admits thread, ongoing.2.slotless = true)
    (hafter : ∀ ongoing ∈ next, ongoing.2.slotless = true)
    (hpublished : ∀ lane, publishedOn lane new = [])
    (hconsumed : ∀ lane, consumedOn lane new = []) :
    SlotsKept s' (log ++ new) := by
  refine h.aside hlanes hworkers (fun lane => ?_) hpublished hconsumed fun t ongoing hmem => ?_
  · refine List.flatMap_congr fun t _ => ?_
    rw [hadmits, Function.update_apply]
    split_ifs with ht
    · subst ht
      have hnil : ∀ {x : Option (AdmitCall × AdmitStage cfg)},
          (∀ ongoing ∈ x, ongoing.2.slotless = true) → x.elim [] (·.2.filling lane) = [] := by
        rintro (- | ongoing) hx
        · rfl
        · exact filling_of_slotless (hx ongoing rfl) lane
      rw [hnil hbefore, hnil hafter]
    · rfl
  · rw [hadmits, Function.update_apply] at hmem
    split_ifs at hmem
    · exact writes_of_slotless (hafter ongoing hmem)
    · exact h.writing t ongoing hmem

/-- A step of the worker of a lane, which writes to no slot. -/
theorem SlotsKept.worked (h : SlotsKept s log) {lane : Lane cfg} {storage : LaneStorage lane.ring}
    {worker : WorkerStage} (hlanes : s'.lanes = Function.update s.lanes lane storage)
    (hworkers : s'.workers = Function.update s.workers lane worker)
    (hadmits : s'.admits = s.admits) (hmetadata : storage.metadata = (s.lanes lane).metadata)
    (harena : storage.arena = (s.lanes lane).arena)
    (hpublished : ∀ lane, publishedOn lane new = [])
    (hconsumed : ∀ other ≠ lane, consumedOn other new = [])
    (hlane : LaneSound lane (s.lanes lane) (s.filling lane) (s.workers lane)
        (publishedOn lane log) (consumedOn lane log) →
      LaneSound lane storage (s.filling lane) worker (publishedOn lane log)
        (consumedOn lane log ++ consumedOn lane new)) : SlotsKept s' (log ++ new) := by
  have hfilling : ∀ other, s'.filling other = s.filling other := fun other => by
    rw [State.filling, State.filling, hadmits]
  constructor
  · intro other
    rw [hfilling, publishedOn_append, consumedOn_append, hpublished, List.append_nil]
    by_cases hsame : other = lane
    · subst hsame
      rw [hlanes, hworkers, Function.update_self, Function.update_self]
      exact hlane (h.lanes other)
    · rw [hlanes, hworkers, Function.update_of_ne hsame, Function.update_of_ne hsame,
        hconsumed other hsame, List.append_nil]
      exact h.lanes other
  · intro t ongoing hmem
    rw [hadmits] at hmem
    have hwrites := h.writing t ongoing hmem
    obtain ⟨call, stage⟩ := ongoing
    rcases stage with _ | _ | _ | _ | _ | ⟨publication, now⟩ | _ | _ | _ | _
    all_goals first | trivial | skip
    rcases now with _ | _ | _ | ⟨index, copied⟩ | _ | _
    all_goals first | trivial | skip
    dsimp only [Writes] at hwrites ⊢
    rw [hlanes]
    by_cases hsame : publication.lane = lane
    · subst hsame
      rw [Function.update_self, LaneStorage.bytesAt, hmetadata, harena]
      exact hwrites
    · rw [Function.update_of_ne hsame]
      exact hwrites

/-- The steps of a worker. -/
theorem SlotsKept.work (h : SlotsKept s log) {lane : Lane cfg}
    (hwork : workStep s lane = some (s', new)) : SlotsKept s' (log ++ new) := by
  have hself := (Function.update_eq_self lane s.lanes).symm
  have hnil : consumedOn lane log ++ [] = consumedOn lane log := List.append_nil _
  rw [workStep] at hwork
  dsimp only at hwork
  split at hwork
  · next hworker =>
    obtain ⟨rfl, rfl⟩ := Prod.mk.inj (Option.some.inj hwork)
    refine h.worked rfl rfl rfl rfl rfl (fun _ => rfl) (fun _ _ => rfl) fun hlane => ?_
    rw [hworker] at hlane
    exact hnil.symm ▸ hlane.popReady rfl
  · next index hworker =>
    obtain ⟨rfl, rfl⟩ := Prod.mk.inj (Option.some.inj hwork)
    refine h.worked hself rfl rfl rfl rfl (fun _ => rfl) (fun other hne => ?_) fun hlane => ?_
    · simp [consumedOn, hne.symm]
    · rw [hworker] at hlane
      obtain ⟨message, hview, hsound⟩ := hlane.read
      rw [hview]
      have hnew : consumedOn lane [(Event.consumed lane message : Event cfg threads)] =
          [message] := by
        simp [consumedOn]
      rw [hnew]
      exact hsound
  · next index metadata hworker =>
    obtain ⟨rfl, rfl⟩ := Prod.mk.inj (Option.some.inj hwork)
    refine h.worked rfl rfl rfl ?_ ?_ (fun _ => rfl) (fun _ _ => rfl) fun hlane => ?_
    · rw [LaneStorage.release]
      split_ifs <;> rfl
    · rw [LaneStorage.release]
      split_ifs <;> rfl
    · rw [hworker] at hlane
      exact hnil.symm ▸ hlane.release.2
  · next hworker =>
    obtain ⟨rfl, rfl⟩ := Prod.mk.inj (Option.some.inj hwork)
    refine h.worked hself rfl rfl rfl rfl (fun _ => rfl) (fun _ _ => rfl) fun hlane => ?_
    rw [hworker] at hlane
    refine hnil.symm ▸ hlane.turn rfl ?_
    split_ifs <;> rfl
  · next hworker =>
    obtain ⟨rfl, rfl⟩ := Prod.mk.inj (Option.some.inj hwork)
    refine h.worked hself rfl rfl rfl rfl (fun _ => rfl) (fun _ _ => rfl) fun hlane => ?_
    rw [hworker] at hlane
    refine hnil.symm ▸ hlane.turn rfl ?_
    split_ifs <;> rfl
  · next hworker =>
    obtain ⟨rfl, rfl⟩ := Prod.mk.inj (Option.some.inj hwork)
    refine h.worked hself rfl rfl rfl rfl (fun _ => rfl) (fun _ _ => rfl) fun hlane => ?_
    rw [hworker] at hlane
    exact hnil.symm ▸ hlane.turn rfl rfl
  · cases hwork

theorem startStep_frame (h : startStep s = some s') :
    s'.lanes = s.lanes ∧ s'.workers = s.workers ∧ s'.admits = s.admits := by
  rw [startStep] at h
  split at h <;> simp only [Option.some.injEq, reduceCtorEq] at h <;> subst h <;>
    exact ⟨rfl, rfl, rfl⟩

theorem stopStep_frame {stopper : Fin stops} {now : StopStage}
    (h : stopStep s stopper now = some s') :
    s'.lanes = s.lanes ∧ s'.workers = s.workers ∧ s'.admits = s.admits := by
  rcases now with - | - | - | - <;>
    simp only [stopStep, Option.some.injEq, reduceCtorEq] at h <;> subst h <;>
    exact ⟨rfl, rfl, rfl⟩

/-- Steps of threads that neither admit nor work. -/
theorem SlotsKept.beside (h : SlotsKept s log)
    (hsame : s'.lanes = s.lanes ∧ s'.workers = s.workers ∧ s'.admits = s.admits) :
    SlotsKept s' (log ++ []) := by
  obtain ⟨hlanes, hworkers, hadmits⟩ := hsame
  refine h.aside hlanes hworkers (fun lane => ?_) (fun _ => rfl) (fun _ => rfl) ?_
  · rw [State.filling, State.filling, hadmits]
  · rw [hadmits]
    exact h.writing

end Kept

theorem slotsKept_step {s s' : State cfg threads stops} {log new : List (Event cfg threads)}
    {action : Action cfg threads stops} (h : SlotsKept s log) (hcalls : CallsKept s log)
    (hstep : step s action = some (s', new)) : SlotsKept s' (log ++ new) := by
  rcases moves_of_step hstep with ⟨thread, call, hongoing⟩ | ⟨thread, call, stage, hongoing⟩ |
    ⟨s', hstart⟩ | ⟨thread, success, hstart, -⟩ | ⟨thread, stage, s', hstage, hstop⟩ |
    ⟨lane, s', new, hwork⟩ | ⟨lane, flags, stage, hfatal⟩
  · refine h.slotless rfl rfl rfl (fun ongoing hmem => ?_) (fun ongoing hmem => ?_) (fun _ => rfl)
      fun _ => rfl
    · rw [hongoing] at hmem
      cases hmem
    · obtain rfl := Option.mem_some_iff.1 hmem
      rfl
  · by_cases hstage : ∃ publication now, stage = .publishing publication now
    · obtain ⟨publication, now, rfl⟩ := hstage
      exact h.publishStep hcalls hongoing
    · have hno : ∀ publication now, stage ≠ .publishing publication now :=
        fun publication now heq => hstage ⟨publication, now, heq⟩
      obtain ⟨next, hlanes, hworkers, hadmits, hslotless, hreports⟩ :=
        callStep_outside s thread call hno
      refine h.slotless hlanes hworkers hadmits (fun ongoing hmem => ?_)
        (fun ongoing hmem => ?_) ?_ ?_
      · rw [hongoing] at hmem
        obtain rfl := Option.mem_some_iff.1 hmem
        rcases stage with _ | _ | _ | _ | _ | ⟨publication, now⟩ | _ | _ | _ | _
        all_goals first | rfl | exact absurd rfl (hno publication now)
      · obtain ⟨after, hafter, rfl⟩ := Option.map_eq_some_iff.1 hmem
        exact hslotless after hafter
      · rcases hreports with hnew | ⟨result, hnew⟩ <;> rw [hnew] <;> exact fun _ => rfl
      · rcases hreports with hnew | ⟨result, hnew⟩ <;> rw [hnew] <;> exact fun _ => rfl
  · exact h.beside (startStep_frame hstart)
  · exact h.beside ⟨rfl, rfl, rfl⟩
  · exact h.beside (stopStep_frame hstop)
  · exact h.work hwork
  · exact h.beside ⟨rfl, rfl, rfl⟩

variable {memory : (lane : Lane cfg) → LaneStorage lane.ring}

theorem slotsKept_start :
    SlotsKept (machine cfg threads stops memory).start [] := by
  constructor
  · intro lane
    have hfilling : (machine cfg threads stops memory).start.filling lane = [] :=
      List.flatMap_eq_nil_iff.2 fun _ _ => rfl
    have hready : ((machine cfg threads stops memory).start.lanes lane).ready.contents = [] :=
      SpscRing.contents_new _
    have hrecycled : ((machine cfg threads stops memory).start.lanes lane).recycled.contents =
        [] :=
      SpscRing.contents_new _
    rw [hfilling]
    refine ⟨SpscRing.wf_new _, SpscRing.wf_new _, ?_, ⟨[], rfl, ?_⟩, by rintro _ _ ⟨⟩⟩
    · rw [LaneStorage.slots, hready, hrecycled]
      show (List.range lane.slotCount ++ [] ++ [] ++ [] ++ []).Perm _
      simp
    · rw [hready]
      exact .nil
  · intro t ongoing hmem
    cases hmem

theorem slotsKept {s : State cfg threads stops} {log : List (Event cfg threads)}
    (h : (machine cfg threads stops memory).Reaches s log) : CallsKept s log ∧ SlotsKept s log := by
  refine Machine.invariant (I := fun s log => CallsKept s log ∧ SlotsKept s log)
    ⟨callsKept Machine.Reaches.start, slotsKept_start⟩ (fun hkept hstep => ?_) h
  exact ⟨callsKept_step hkept.1 hstep, slotsKept_step hkept.2 hkept.1 hstep⟩

/-! ## Exactly once -/

/-- The messages of a lane are numbered in order. -/
theorem publishedOn_sublist (lane : Lane cfg) (log : List (Event cfg threads)) :
    (publishedOn lane log).Sublist (publishedOf log) := by
  induction log with
  | nil => exact .slnil
  | cons event log ih =>
    rcases event with _ | ⟨thread, lane', message⟩ | _ | _ | _ | _
    case published =>
      rw [publishedOn, publishedOf, List.filterMap_cons, List.filterMap_cons]
      dsimp only
      split_ifs
      · exact ih.cons_cons message
      · exact ih.cons message
    all_goals exact ih

theorem CallsKept.increasing {s : State cfg threads stops} {log : List (Event cfg threads)}
    (h : CallsKept s log) (lane : Lane cfg) :
    (publishedOn lane log).Pairwise (·.ingressSequence < ·.ingressSequence) := by
  have hall : ((publishedOf log).map (·.ingressSequence)).Pairwise (· < ·) := by
    rw [h.numbers]
    exact List.pairwise_lt_range'
  exact (List.pairwise_map.1 hall).sublist (publishedOn_sublist lane log)

/-- A published message is the argument of a call of the thread. -/
theorem CallsKept.origin {s : State cfg threads stops} {log : List (Event cfg threads)}
    (h : CallsKept s log) {thread : Fin threads} {lane : Lane cfg} {message : OwnedMessageView}
    (hmem : .published thread lane message ∈ log) :
    ∃ call, .called thread call ∈ log ∧ FromCall call lane message := by
  obtain ⟨done, current, hlog, hdone, hdoing⟩ := h.reported thread
  have hown : ∀ event ∈ done.flatten ++ current, event ∈ log := fun event hevent =>
    (List.mem_filter.1 (hlog ▸ hevent)).1
  have hthread : .published thread lane message ∈ done.flatten ++ current :=
    hlog ▸ List.mem_filter.2 ⟨hmem, by simp⟩
  suffices hcall : ∃ call, .called thread call ∈ done.flatten ++ current ∧
      FromCall call lane message by
    obtain ⟨call, hcalled, hfrom⟩ := hcall
    exact ⟨call, hown _ hcalled, hfrom⟩
  rcases List.mem_append.1 hthread with hin | hin
  · obtain ⟨events, hevents, hmember⟩ := List.mem_flatten.1 hin
    have hcomplete := hdone events hevents
    have hsub : ∀ event ∈ events, event ∈ done.flatten ++ current := fun event hevent =>
      List.mem_append_left _ (List.mem_flatten.2 ⟨events, hevents, hevent⟩)
    rcases hcomplete with ⟨call, result, -⟩ | ⟨call, lane', message', hfrom⟩
    · simp at hmember
    · have hsame : lane = lane' ∧ message = message' := by simpa using hmember
      obtain ⟨rfl, rfl⟩ := hsame
      exact ⟨call, hsub _ (by simp), hfrom⟩
  · rcases hongoing : s.admits thread with - | ⟨call, stage⟩
    · rw [hongoing] at hdoing
      obtain rfl : current = [] := hdoing
      cases hin
    · rw [hongoing] at hdoing
      have hprogress : Progress thread call stage current := hdoing
      rcases hprogress with - | ⟨-, lane', message', hfrom⟩
      · simp at hin
      · have hsame : lane = lane' ∧ message = message' := by simpa using hin
        obtain ⟨rfl, rfl⟩ := hsame
        exact ⟨call, List.mem_append_right _ (by simp), hfrom⟩

/-- The messages of a lane are consumed in order. -/
theorem SlotsKept.increasing {s : State cfg threads stops} {log : List (Event cfg threads)}
    (h : SlotsKept s log) (hcalls : CallsKept s log) (lane : Lane cfg) :
    (consumedOn lane log).Pairwise (·.ingressSequence < ·.ingressSequence) := by
  obtain ⟨waiting, hpublished, -⟩ := (h.lanes lane).queue
  exact (List.pairwise_append.1 (hpublished ▸ hcalls.increasing lane)).1

/-- The message that a worker holds is the last that it has consumed. -/
theorem SlotsKept.held {s : State cfg threads stops} {log : List (Event cfg threads)}
    (h : SlotsKept s log) {lane : Lane cfg} {index : ℕ} {metadata : LaneMessageMetadata}
    (hworker : s.workers lane = .holding index metadata) : (consumedOn lane log).getLast? =
      some ((s.lanes lane).viewAt lane.maximumBodyBytes index metadata) := by
  obtain ⟨message, hlast, rfl, hstored⟩ := (h.lanes lane).holding index metadata hworker
  rw [hstored.viewAt]
  exact hlast

/-- What admission promises of a run. The slot that `TryPublish` is filling has left the free
list and is not in the ready ring yet; it is in `filling`. -/
structure ExactlyOnce (s : State cfg threads stops) (log : List (Event cfg threads)) : Prop where
  /-- Accepted messages are numbered without gap or repeat. -/
  numbers : (publishedOf log).map (·.ingressSequence) = List.range' 1 (publishedOf log).length
  numbered : s.nextIngressSequence + ∑ t, (s.admits t).elim 0 (·.2.unnumbered) =
    (publishedOf log).length
  /-- A call that is accepted publishes one message, and a call that is rejected none. -/
  calls : ∀ t, ∃ (done : List (List (Event cfg threads))) (current : List (Event cfg threads)),
    threadLog t log = done.flatten ++ current ∧ (∀ events ∈ done, Complete t events) ∧
      Doing t (s.admits t) current
  origin : ∀ thread lane message, .published thread lane message ∈ log → ∃ call,
    .called thread call ∈ log ∧ checkCall cfg call = .publish message.header lane ∧
      parseMdlHeader call.header = some message.header ∧ message.body = call.body ∧
      message.receiveMonotonicNs = call.receiveMonotonicNs
  /-- A worker consumes what was published for its lane, from the first message on, and what it
  has not consumed is in the slots that it has not read. -/
  consumed : ∀ lane, ∃ waiting, publishedOn lane log = consumedOn lane log ++ waiting ∧
    List.Forall₂ (Stored (s.lanes lane) lane.maximumBodyBytes)
      ((s.workers lane).unread ++ (s.lanes lane).ready.contents) waiting
  increasing : ∀ lane, (consumedOn lane log).Pairwise (·.ingressSequence < ·.ingressSequence)
  /-- Until the worker releases the slot, it sees the message that it consumed. -/
  held : ∀ lane index metadata, s.workers lane = .holding index metadata →
    (consumedOn lane log).getLast? =
      some ((s.lanes lane).viewAt lane.maximumBodyBytes index metadata)
  slots : ∀ lane,
    ((s.lanes lane).slots (s.filling lane) (s.workers lane)).Perm (List.range lane.slotCount)
  filled : (∀ t, ∀ ongoing ∈ s.admits t, ongoing.2.slotless = true) → ∀ lane, s.filling lane = []
  pushed : ∀ t call publication index copied,
    s.admits t = some (call, .publishing publication (.copying index copied)) →
      call.body.length ≤ copied → ((s.lanes publication.lane).pushReady index).1 = true
  released : ∀ lane index metadata, s.workers lane = .holding index metadata →
    ((s.lanes lane).release lane.slotCount index).1 = true
  counters : (∀ t, s.admits t = none) → s.callbacks = s.admitted + s.rejected

/-- Over every interleaving of any number of threads that call `Admit` and `Stop` with the
workers of the lanes. -/
theorem admission_exactly_once {s : State cfg threads stops} {log : List (Event cfg threads)}
    (h : (machine cfg threads stops memory).Reaches s log) : ExactlyOnce s log := by
  obtain ⟨hcalls, hslots⟩ := slotsKept h
  constructor
  · exact hcalls.numbers
  · exact hcalls.numbered
  · exact hcalls.reported
  · intro thread lane message hmem
    obtain ⟨call, hcalled, hfrom⟩ := hcalls.origin hmem
    exact ⟨call, hcalled, hfrom.check, (checkCall_publish hfrom.check).1, hfrom.body,
      hfrom.receiveMonotonicNs⟩
  · exact fun lane => (hslots.lanes lane).queue
  · exact hslots.increasing hcalls
  · exact fun lane index metadata => hslots.held
  · exact fun lane => (hslots.lanes lane).slots
  · intro hidle lane
    refine List.flatMap_eq_nil_iff.2 fun t _ => ?_
    rcases hongoing : s.admits t with - | ongoing
    · rfl
    · exact filling_of_slotless (hidle t ongoing hongoing) lane
  · intro t call publication index copied hongoing hcopied
    exact (hslots.pushReady hcalls hongoing hcopied).1
  · intro lane index metadata hworker
    exact (hworker ▸ hslots.lanes lane).release.1
  · intro hidle
    have hcounted := hcalls.counted
    simp only [hidle, Option.elim_none, Finset.sum_const_zero, Nat.add_zero] at hcounted
    exact hcounted

/-! ### Two messages through one slot -/

/-- A lane of either kind, with one slot. -/
def sampleConfig : AdmissionConfig where
  enabledStreams := 31
  tickDecoderLanes := 1
  snapshotDecoderLanes := 1
  tickSlotsPerLane := 1
  snapshotSlotsPerLane := 1
  maximumTickBodyBytes := 70
  maximumSnapshotBodyBytes := 224
  tickRing := Ring.oneCell
  snapshotRing := Ring.oneCell
  tick_pos := by decide
  snapshot_pos := by decide
  tickRing_eq := rfl
  snapshotRing_eq := rfl

/-- The only thread. -/
def sampleThread : Fin 1 :=
  Fin.last 0

/-- A tick of Shanghai, from channel 1. -/
def sampleCall : AdmitCall where
  header := List.flatten [bytes 1 23, bytes 4 93, bytes 1 kBinaryEncoding, bytes 1 4, bytes 2 101,
    bytes 2 24, bytes 4 93000000, bytes 8 1]
  body := List.flatten [bytes 8 1, bytes 4 1, bytes 58 0]
  receiveMonotonicNs := 5

def sampleLane : Lane sampleConfig :=
  .tick ⟨0, by decide⟩

def sampleAdmitted : OwnedMessageView where
  header := ⟨23, 93, kBinaryEncoding, ⟨4, 101, 24⟩, 93000000, 1⟩
  ingressSequence := 1
  receiveMonotonicNs := 5
  body := sampleCall.body

/-- The message again, which is the second to be admitted. -/
def secondAdmitted : OwnedMessageView :=
  { sampleAdmitted with ingressSequence := 2 }

def sampleMemory (lane : Lane sampleConfig) : LaneStorage lane.ring where
  free := []
  metadata := fun _ => {}
  arena := fun _ => 0
  ready := { storage := fun _ => 0 }
  recycled := { storage := fun _ => 0 }

def firstCaller : Fin 2 :=
  Fin.castSucc (Fin.last 0)

def secondCaller : Fin 2 :=
  Fin.last 1

/-- The first caller's message is admitted and consumed. It calls again, with the same slot, and the
second caller finds it inside. -/
def sampleActions : List (Action sampleConfig 2 0) :=
  [.start, .start, .call firstCaller sampleCall] ++ List.replicate 81 (.resume firstCaller) ++
    List.replicate 3 (.work sampleLane) ++ [.call firstCaller sampleCall] ++
    List.replicate 10 (.resume firstCaller) ++ [.call secondCaller sampleCall] ++
    List.replicate 5 (.resume secondCaller) ++ List.replicate 72 (.resume firstCaller) ++
    List.replicate 3 (.work sampleLane)

def sampleLog : List (Event sampleConfig 2) :=
  [.called firstCaller sampleCall, .published firstCaller sampleLane sampleAdmitted,
    .returned firstCaller .kAccepted, .consumed sampleLane sampleAdmitted, .released sampleLane,
    .called firstCaller sampleCall, .called secondCaller sampleCall,
    .returned secondCaller .kConcurrentCallback, .published firstCaller sampleLane secondAdmitted,
    .returned firstCaller .kAccepted, .consumed sampleLane secondAdmitted, .released sampleLane]

theorem sampleRun : (((machine sampleConfig 2 0 sampleMemory).run sampleActions).map (·.2)) =
    some sampleLog := by
  decide +kernel

theorem admission_exactly_once_sample : ∃ s,
    (machine sampleConfig 2 0 sampleMemory).Reaches s sampleLog ∧ ExactlyOnce s sampleLog := by
  obtain ⟨⟨s, log⟩, hrun, rfl⟩ := Option.map_eq_some_iff.1 sampleRun
  exact ⟨s, ⟨_, hrun⟩, admission_exactly_once ⟨_, hrun⟩⟩

end Admission

end L2Flow
