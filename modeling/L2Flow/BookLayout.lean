import L2Flow.Layout

/-!
# Books laid out as they should be

A side of a book is a list of levels, and each level has a list of orders. The levels of a side
lie one after the other in one block; the orders of a level lie in a block of their own, which
the level names by a descriptor. `BookValues.LaidIn` is such a layout; the decoder reads the
levels back, and keeps the first ten of each side (`Yields.readBook`). The two markets have
their own level heads, which are parameters here.
-/

namespace L2Flow

open LittleEndian (bytes signed unsigned)

variable {α : Type} {body : List UInt8} {fixedBytes : ℕ}

/-! ## Lists -/

/-- A list of `count` items, the offset of its descriptor, and its distance from the
descriptor. -/
structure ListPlace where
  offset : ℕ
  count : ℕ
  itemSize : ℕ
  relative : ℕ

namespace ListPlace

def start (place : ListPlace) : ℕ :=
  place.offset + place.relative

/-- The range of a list, if it is not empty. -/
def ranges (place : ListPlace) : List Bytes.Range :=
  named place.start (place.count * place.itemSize)

end ListPlace

/-- The descriptor of a list points to it, and the list follows it. -/
structure ListAt (body : List UInt8) (fixedBytes : ℕ) (place : ListPlace) : Prop where
  item : 0 < place.itemSize
  counted : place.count < 2 ^ 32
  near : place.relative < 2 ^ 32
  descriptor : Bytes.At body place.offset (bytes 4 place.count ++ bytes 4 place.relative)
  block : 0 < place.count → 8 ≤ place.relative ∧ fixedBytes ≤ place.start ∧
    place.start + place.count * place.itemSize ≤ body.length
  empty : place.count = 0 → place.relative = 0 ∨ place.start ≤ body.length

/-- What is read of a list. -/
structure ListRead (place : ListPlace) (view : ListView) : Prop where
  count : view.count = place.count
  itemSize : view.itemSize = place.itemSize
  start : 0 < place.count → view.start = place.start

namespace Yields

variable {new : ℕ → List Bytes.Range}

/-- A loop : every pass keeps the invariant. -/
theorem foldlM {f : α → ℕ → Decoder α} (I : ℕ → α → Prop) :
    ∀ count : ℕ, (∀ index < count, ∀ a, I index a →
        Yields (f a index) (new index) (I (index + 1))) →
      ∀ {a : α}, I 0 a →
        Yields ((List.range count).foldlM f a) ((List.range count).flatMap new) (I count)
  | 0, _, _, ha => pure ha
  | count + 1, hf, a, ha => by
    rw [List.range_succ, List.foldlM_append, List.flatMap_append, List.flatMap_singleton]
    refine bind (foldlM I count (fun index hi => hf index (by omega)) ha) fun b hb => ?_
    rw [List.foldlM_cons, ← List.append_nil (new count)]
    exact (hf count (Nat.lt_succ_self count) b hb).bind fun _ h => pure h

theorem readList {place : ListPlace} {maximumItems : ℕ} (hlaid : ListAt body fixedBytes place)
    (hcount : place.count ≤ maximumItems) (hfixed : fixedBytes ≤ body.length)
    (hsize : body.length ≤ sizeMax) :
    Yields (readList body place.offset place.itemSize fixedBytes maximumItems) place.ranges
      (ListRead place) := by
  obtain ⟨hitem, hcounted, hnear, hdescriptor, hblock, hnone⟩ := hlaid
  obtain ⟨hcountField, hoffsetField⟩ := hdescriptor.append
  rw [LittleEndian.length_bytes] at hoffsetField
  rw [L2Flow.readList, ListPlace.ranges]
  refine (require hfixed _).next fun _ _ => ?_
  refine (load hcountField hcounted _).next fun count hcountEq => ?_
  refine (load hoffsetField hnear _).next fun relativeOffset hrelativeEq => ?_
  subst hcountEq hrelativeEq
  refine (require hcount _).next fun _ _ => ?_
  have hmax : sizeMax = 2 ^ 64 - 1 := rfl
  by_cases hzero : place.count = 0
  · have hoffset : EmptyOffset body place.offset place.relative := by
      refine (hnone hzero).imp_right fun hle => ?_
      rw [ListPlace.start] at hle
      exact ⟨by omega, hle⟩
    rw [if_pos hzero, named, if_pos (by rw [hzero, Nat.zero_mul])]
    refine (require hoffset _).next fun _ _ => pure ?_
    exact ⟨hzero.symm, rfl, fun hpos => absurd hzero hpos.ne'⟩
  · have hpos : 0 < place.count := Nat.pos_of_ne_zero hzero
    obtain ⟨hafter, hstart, hend⟩ := hblock hpos
    have hbytes : 0 < place.count * place.itemSize := Nat.mul_pos hpos hitem
    have hmul : place.count ≤ sizeMax / place.itemSize :=
      (Nat.le_div_iff_mul_le hitem).2 (by omega)
    rw [ListPlace.start] at hstart hend
    rw [if_neg hzero, named, if_neg hbytes.ne', ← List.append_nil [_]]
    refine (require ⟨hafter, hitem.ne', hmul, by omega⟩ _).next fun _ _ => ?_
    refine (require ⟨hstart, by omega, by omega⟩ _).next fun _ _ => ?_
    exact (protectDynamicRange hbytes).bind fun _ _ => pure ⟨rfl, rfl, fun _ => rfl⟩

end Yields

/-! ## Levels -/

/-- A level, and the quantities of its orders. -/
structure LevelValues where
  price : ℤ
  quantity : ℤ
  sourceOrderCount : ℕ
  orders : List ℤ

def LevelValues.queuePlace (v : LevelValues) (layout : QueueLayout) (levelOffset queueAt : ℕ) :
    ListPlace :=
  ⟨levelOffset + 20, v.orders.length, layout.itemSize, queueAt⟩

/-- The descriptor and the orders of a level. -/
structure OrdersAt (body : List UInt8) (fixedBytes : ℕ) (layout : QueueLayout)
    (levelOffset queueAt : ℕ) (v : LevelValues) : Prop where
  list : ListAt body fixedBytes (v.queuePlace layout levelOffset queueAt)
  quantity : ∀ index (h : index < v.orders.length),
    Bytes.At body ((v.queuePlace layout levelOffset queueAt).start + index * layout.itemSize +
      layout.quantityOffset) (bytes 8 (unsigned 64 v.orders[index]))

/-- What the decoder asks of a level. -/
structure LevelValues.Ok (v : LevelValues) : Prop where
  quantity : InI64 v.quantity
  sourceOrderCount : v.sourceOrderCount < 2 ^ 32
  few : v.orders.length ≤ v.sourceOrderCount
  orders : ∀ order ∈ v.orders, InI64 order

namespace Yields

theorem readQueue {layout : QueueLayout} {limits : DecoderLimits} {v : LevelValues}
    {levelOffset queueAt total : ℕ} (hok : v.Ok)
    (hat : OrdersAt body fixedBytes layout levelOffset queueAt v)
    (hfixed : fixedBytes ≤ body.length) (hsize : body.length ≤ sizeMax)
    (htotal : total + v.orders.length ≤ limits.maximumQueueItems) :
    Yields (readQueue body layout fixedBytes limits levelOffset v.sourceOrderCount total)
      (v.queuePlace layout levelOffset queueAt).ranges
      fun total' => total' = total + v.orders.length := by
  have hcount : (v.queuePlace layout levelOffset queueAt).count = v.orders.length := rfl
  rw [L2Flow.readQueue, ← List.append_nil (ListPlace.ranges _)]
  refine (readList hat.list (by omega) hfixed hsize).bind fun queue hqueue => ?_
  refine (require (hqueue.count ▸ hok.few) _).next fun _ _ => ?_
  refine (modify (f := fun s => s.subtract total) fun _ => ⟨rfl, rfl, rfl⟩).next fun _ _ => ?_
  rw [Decodes.sizeSub_of_le (by omega) limits.queue_le]
  refine (require (by rw [hqueue.count]; omega) _).next fun _ _ => ?_
  have hloop : Yields ((List.range queue.count).foldlM (fun (_ : Unit) index => do
      let _ignored ← L2Flow.decodeQuantity body
        (queue.start + index * queue.itemSize + layout.quantityOffset) layout.scale layout.nullable
      return ()) ()) ((List.range queue.count).flatMap fun _ => []) fun _ => True := by
    refine foldlM (fun _ _ => True) _ (fun index hindex _ _ => ?_) trivial
    rw [hqueue.count] at hindex
    have horder := hok.orders _ (List.getElem_mem hindex)
    rw [hqueue.start (Nat.zero_lt_of_lt hindex), hqueue.itemSize]
    exact (decodeQuantity _ _ (hat.quantity index hindex) horder.1 horder.2).next
      fun _ _ => pure trivial
  rw [List.flatMap_eq_nil_iff.2 fun _ _ => rfl] at hloop
  exact hloop.next fun _ _ => pure (by rw [hqueue.count]; rfl)

end Yields

/-! ## Sides -/

/-- The level at a position of a side. -/
def levelAt (levels : List LevelValues) (index : ℕ) : LevelValues :=
  levels.getD index ⟨0, 0, 0, []⟩

/-- The number of orders of a side. -/
def orderCount (levels : List LevelValues) : ℕ :=
  (levels.map (·.orders.length)).sum

/-- The ranges of the orders of a side. -/
def orderRanges (layout : QueueLayout) (start : ℕ) (levels : List LevelValues)
    (queueAt : ℕ → ℕ) : List Bytes.Range :=
  (List.range levels.length).flatMap fun index =>
    ((levelAt levels index).queuePlace layout (start + index * kLevelItemBytes)
      (queueAt index)).ranges

/-- The first ten levels of a side, as they are retained. -/
def retainedLevels (levelOf : LevelValues → CanonicalBookLevel) (levels : List LevelValues) :
    BookLevels :=
  Vector.ofFn fun index => (levels.map levelOf).getD index {}

/-- Where a side is : the distance of its levels from their descriptor, and of the orders of
each level from theirs. -/
structure SidePlace where
  relative : ℕ
  queueAt : ℕ → ℕ

def SidePlace.list (place : SidePlace) (offset : ℕ) (levels : List LevelValues) : ListPlace :=
  ⟨offset, levels.length, kLevelItemBytes, place.relative⟩

section Side

variable {layout : QueueLayout} {limits : DecoderLimits}
  {head : ℕ → Decoder CanonicalBookLevel} {HeadAt : ℕ → LevelValues → Prop}
  {levelOf : LevelValues → CanonicalBookLevel} {levels : List LevelValues} {place : SidePlace}
  {offset total : ℕ}

/-- The levels of a side and their orders are laid out. `HeadAt` is the head of a level. -/
structure SideAt (body : List UInt8) (fixedBytes : ℕ) (layout : QueueLayout)
    (HeadAt : ℕ → LevelValues → Prop) (offset : ℕ) (levels : List LevelValues)
    (place : SidePlace) : Prop where
  list : ListAt body fixedBytes (place.list offset levels)
  head : ∀ index < levels.length,
    HeadAt ((place.list offset levels).start + index * kLevelItemBytes) (levelAt levels index)
  orders : ∀ index < levels.length, OrdersAt body fixedBytes layout
    ((place.list offset levels).start + index * kLevelItemBytes) (place.queueAt index)
    (levelAt levels index)

/-- What reading the head of a level gives. -/
def ReadsHead (head : ℕ → Decoder CanonicalBookLevel) (HeadAt : ℕ → LevelValues → Prop)
    (levelOf : LevelValues → CanonicalBookLevel) : Prop :=
  ∀ levelOffset v, v.Ok → HeadAt levelOffset v →
    Yields (head levelOffset) [] (fun level => level = levelOf v) ∧
      (levelOf v).sourceOrderCount = v.sourceOrderCount

theorem mem_levelAt {index : ℕ} (h : index < levels.length) : levelAt levels index ∈ levels := by
  rw [levelAt, List.getD_eq_getElem _ _ h]
  exact List.getElem_mem h

theorem orderCount_take_succ {index : ℕ} (h : index < levels.length) :
    orderCount (levels.take (index + 1)) =
      orderCount (levels.take index) + (levelAt levels index).orders.length := by
  rw [levelAt, List.getD_eq_getElem _ _ h, List.take_succ_eq_append_getElem h, orderCount,
    List.map_append, List.sum_append]
  rfl

theorem orderCount_take_le (index : ℕ) : orderCount (levels.take index) ≤ orderCount levels := by
  conv_rhs => rw [← List.take_append_drop index levels]
  rw [orderCount, orderCount, List.map_append, List.sum_append]
  exact Nat.le_add_right _ _

theorem retainedLevels_nil : retainedLevels levelOf [] = Vector.replicate _ {} := by
  ext1 j hj
  rw [retainedLevels, Vector.getElem_ofFn, Vector.getElem_replicate]
  rfl

/-- A level that is read goes to its place, if that is one of the first ten. -/
theorem retainedLevels_take_succ {index : ℕ} (h : index < levels.length) :
    (retainedLevels levelOf (levels.take index)).setIfInBounds index
        (levelOf (levelAt levels index)) =
      retainedLevels levelOf (levels.take (index + 1)) := by
  have hmap : (levels.take (index + 1)).map levelOf =
      (levels.take index).map levelOf ++ [levelOf (levelAt levels index)] := by
    rw [levelAt, List.getD_eq_getElem _ _ h, List.take_succ_eq_append_getElem h, List.map_append]
    rfl
  have hlen : ((levels.take index).map levelOf).length = index := by
    rw [List.length_map, List.length_take]
    omega
  ext1 j hj
  rw [Vector.getElem_setIfInBounds, retainedLevels, retainedLevels, Vector.getElem_ofFn,
    Vector.getElem_ofFn, hmap]
  dsimp only
  rcases lt_trichotomy j index with hlt | heq | hgt
  · rw [if_neg hlt.ne', List.getD_append _ _ _ _ (by omega)]
  · subst heq
    rw [if_pos rfl, List.getD_append_right _ _ _ _ (by omega), hlen, Nat.sub_self]
    rfl
  · rw [if_neg hgt.ne, List.getD_eq_default _ _ (by omega), List.getD_eq_default]
    rw [List.length_append, hlen]
    exact hgt

theorem Yields.decodeLevel {view : ListView} {index levelOffset queueAt : ℕ} {v : LevelValues}
    (hhead : ReadsHead head HeadAt levelOf) (hok : v.Ok)
    (hoffset : view.start + index * view.itemSize = levelOffset) (hheadAt : HeadAt levelOffset v)
    (hat : OrdersAt body fixedBytes layout levelOffset queueAt v)
    (hfixed : fixedBytes ≤ body.length) (hsize : body.length ≤ sizeMax)
    (htotal : total + v.orders.length ≤ limits.maximumQueueItems) :
    Yields (decodeLevel body layout fixedBytes limits head view index total)
      (v.queuePlace layout levelOffset queueAt).ranges
      fun result => result = (total + v.orders.length, levelOf v) := by
  obtain ⟨hlevel, hcount⟩ := hhead levelOffset v hok hheadAt
  rw [L2Flow.decodeLevel, hoffset, ← List.append_nil (ListPlace.ranges _)]
  refine hlevel.next fun level hlevelEq => ?_
  subst hlevelEq
  rw [hcount]
  refine (readQueue hok hat hfixed hsize htotal).bind fun total' htotal' => pure ?_
  rw [htotal']

theorem Yields.readSide {view : ListView} (hhead : ReadsHead head HeadAt levelOf)
    (hok : ∀ v ∈ levels, v.Ok)
    (hat : SideAt body fixedBytes layout HeadAt offset levels place)
    (hview : ListRead (place.list offset levels) view) (hfixed : fixedBytes ≤ body.length)
    (hsize : body.length ≤ sizeMax)
    (htotal : total + orderCount levels ≤ limits.maximumQueueItems) :
    Yields (readSide (L2Flow.decodeLevel body layout fixedBytes limits head) view total)
      (orderRanges layout (place.list offset levels).start levels place.queueAt)
      fun result => result = (total + orderCount levels, retainedLevels levelOf levels) := by
  rw [L2Flow.readSide, orderRanges, hview.count]
  refine Yields.mono (Yields.foldlM (fun index result =>
    result = (total + orderCount (levels.take index), retainedLevels levelOf (levels.take index)))
    levels.length (fun index hindex result hresult => ?_) ?_) fun result hresult => ?_
  · subst hresult
    have hlevel := mem_levelAt hindex
    have hle : orderCount (levels.take (index + 1)) ≤ orderCount levels := orderCount_take_le _
    rw [orderCount_take_succ hindex] at hle
    have hstart : view.start + index * view.itemSize =
        (place.list offset levels).start + index * kLevelItemBytes := by
      rw [hview.start (Nat.zero_lt_of_lt hindex), hview.itemSize]
      rfl
    rw [← List.append_nil (ListPlace.ranges _)]
    refine Yields.bind (Yields.decodeLevel hhead (hok _ hlevel) hstart (hat.head index hindex)
      (hat.orders index hindex) hfixed hsize (by dsimp only; omega)) fun next hnext => ?_
    subst hnext
    refine Yields.pure ?_
    rw [retainedLevels_take_succ hindex, orderCount_take_succ hindex, Nat.add_assoc]
  · rw [List.take_zero, retainedLevels_nil]
    rfl
  · rw [hresult, List.take_length]

end Side

/-! ## Books -/

/-- The levels of both sides. -/
structure BookValues where
  bids : List LevelValues
  asks : List LevelValues

/-- The two sides keep the limits. -/
structure BookValues.Ok (v : BookValues) (limits : DecoderLimits) : Prop where
  bids : ∀ level ∈ v.bids, level.Ok
  asks : ∀ level ∈ v.asks, level.Ok
  bids_le : v.bids.length ≤ limits.maximumDepthItems
  asks_le : v.asks.length ≤ limits.maximumDepthItems
  orders_le : orderCount v.bids + orderCount v.asks ≤ limits.maximumQueueItems

/-- Where the two sides are. -/
structure BookPlace where
  bids : SidePlace
  asks : SidePlace

/-- The ranges of a book, in the order they are protected in. -/
def BookValues.ranges (v : BookValues) (layout : QueueLayout) (bidsOffset asksOffset : ℕ)
    (place : BookPlace) : List Bytes.Range :=
  let bids := place.bids.list bidsOffset v.bids
  let asks := place.asks.list asksOffset v.asks
  bids.ranges ++ (asks.ranges ++ (orderRanges layout bids.start v.bids place.bids.queueAt ++
    orderRanges layout asks.start v.asks place.asks.queueAt))

/-- The book that is read. -/
def bookOf (levelOf : LevelValues → CanonicalBookLevel) (v : BookValues) : Book where
  bidCount := v.bids.length
  askCount := v.asks.length
  bids := retainedLevels levelOf v.bids
  asks := retainedLevels levelOf v.asks

theorem Yields.readBook {layout : QueueLayout} {limits : DecoderLimits}
    {head : ℕ → Decoder CanonicalBookLevel} {HeadAt : ℕ → LevelValues → Prop}
    {levelOf : LevelValues → CanonicalBookLevel} {bidsOffset asksOffset : ℕ} {v : BookValues}
    {place : BookPlace} (hhead : ReadsHead head HeadAt levelOf) (hok : v.Ok limits)
    (hbids : SideAt body fixedBytes layout HeadAt bidsOffset v.bids place.bids)
    (hasks : SideAt body fixedBytes layout HeadAt asksOffset v.asks place.asks)
    (hfixed : fixedBytes ≤ body.length) (hsize : body.length ≤ sizeMax) :
    Yields
      (readBook body fixedBytes limits bidsOffset asksOffset
        (L2Flow.decodeLevel body layout fixedBytes limits head))
      (v.ranges layout bidsOffset asksOffset place) fun book => book = bookOf levelOf v := by
  have horders := hok.orders_le
  rw [L2Flow.readBook, BookValues.ranges, ← List.append_nil (orderRanges layout _ v.asks _)]
  refine (Yields.readList hbids.list hok.bids_le hfixed hsize).bind fun bids hbidsRead => ?_
  refine (Yields.readList hasks.list hok.asks_le hfixed hsize).bind fun asks hasksRead => ?_
  refine (Yields.markIf _ _).next fun _ _ => ?_
  refine (Yields.readSide hhead hok.bids hbids hbidsRead hfixed hsize (by omega)).bind
    fun bidSide hbidSide => ?_
  subst hbidSide
  refine (Yields.readSide hhead hok.asks hasks hasksRead hfixed hsize (by omega)).bind
    fun askSide haskSide => Yields.pure ?_
  subst haskSide
  rw [hbidsRead.count, hasksRead.count]
  rfl

/-! ## The blocks of a book -/

namespace BlocksIn

theorem flatMap {new : ℕ → List Bytes.Range} :
    ∀ {count : ℕ}, (∀ index < count, BlocksIn body 1 (new index)) →
      BlocksIn body count ((List.range count).flatMap new)
  | 0, _ => ⟨le_of_eq rfl, by simp⟩
  | count + 1, h => by
    rw [List.range_succ, List.flatMap_append, List.flatMap_singleton]
    exact (flatMap fun index hindex => h index (by omega)).append (h count (Nat.lt_succ_self _))

theorem list {place : ListPlace} (h : ListAt body fixedBytes place) :
    BlocksIn body 1 place.ranges :=
  named fun hpos => (h.block (Nat.pos_of_mul_pos_right hpos)).2.2

theorem side {layout : QueueLayout} {HeadAt : ℕ → LevelValues → Prop} {offset : ℕ}
    {levels : List LevelValues} {place : SidePlace}
    (h : SideAt body fixedBytes layout HeadAt offset levels place) :
    BlocksIn body levels.length
      (orderRanges layout (place.list offset levels).start levels place.queueAt) :=
  flatMap fun index hindex => list (h.orders index hindex).list

end BlocksIn

end L2Flow
