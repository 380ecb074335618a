import L2Flow.EngineOrder
import L2Flow.Ingestd
import Mathlib.Tactic.IntervalCases

/-!
# The configuration

`ValidateConfig`, and what the constructors of the engine, the dispatcher, the lanes and the
recovery compute from what it accepts. The machine words of the source are machine words here; the
rest of the development counts in `ℕ`.

`Accepted` says in numbers what is accepted (`validateConfig_iff`), and that is enough for all that
the engine is assumed to be constructed with elsewhere, but for the capacities of the queues
(`create_iff`). No index, address or size that the constructors and the queues compute from it wraps
(`sizes_fit`).
-/

namespace L2Flow

/-- `std::size_t` and `std::uint64_t`. -/
abbrev Word := BitVec 64

/-! ## Dates -/

def isLeapYear (year : ℕ) : Bool :=
  year % 4 == 0 && (year % 100 != 0 || year % 400 == 0)

/-- The table of `IsTradeDateValid`. -/
def kDaysOfMonth : List ℕ :=
  [31, 28, 31, 30, 31, 30, 31, 31, 30, 31, 30, 31]

/-- `maximum`. -/
def maximumDay (year month : ℕ) : ℕ :=
  if month = 2 ∧ isLeapYear year then 29 else kDaysOfMonth.getD (month - 1) 0

def isTradeDateValid (value : ℕ) : Bool :=
  let year := value / 10000
  let month := value / 100 % 100
  let day := value % 100
  if year < 1992 ∨ 2200 < year ∨ month = 0 ∨ 12 < month ∨ day = 0 then false
  else decide (day ≤ maximumDay year month)

/-- The number of days of a month, in the Gregorian calendar. -/
def daysIn (year month : ℕ) : ℕ :=
  if month = 2 then if 4 ∣ year ∧ (100 ∣ year → 400 ∣ year) then 29 else 28
  else if month = 4 ∨ month = 6 ∨ month = 9 ∨ month = 11 then 30
  else 31

/-- A date of the Gregorian calendar. -/
structure CalendarDate where
  year : ℕ
  month : ℕ
  day : ℕ
  month_pos : 1 ≤ month
  month_le : month ≤ 12
  day_pos : 1 ≤ day
  day_le : day ≤ daysIn year month

namespace CalendarDate

/-- The date as `YYYYMMDD`. -/
def number (date : CalendarDate) : ℕ :=
  date.year * 10000 + date.month * 100 + date.day

theorem daysIn_le (year month : ℕ) : daysIn year month ≤ 31 := by
  rw [daysIn]
  split_ifs <;> decide

theorem number_parts (date : CalendarDate) : date.number / 10000 = date.year ∧
    date.number / 100 % 100 = date.month ∧ date.number % 100 = date.day := by
  have hmonth := date.month_le
  have hday := date.day_le.trans (daysIn_le _ _)
  rw [number]
  omega

end CalendarDate

theorem isLeapYear_iff (year : ℕ) :
    isLeapYear year = true ↔ 4 ∣ year ∧ (100 ∣ year → 400 ∣ year) := by
  simp only [isLeapYear, Bool.and_eq_true, Bool.or_eq_true, bne_iff_ne, beq_iff_eq, ne_eq]
  omega

theorem maximumDay_eq {month : ℕ} (hpos : 1 ≤ month) (hle : month ≤ 12) (year : ℕ) :
    maximumDay year month = daysIn year month := by
  simp only [maximumDay, isLeapYear_iff, daysIn]
  interval_cases month <;> simp [kDaysOfMonth]

/-- A number is accepted when it is a date between 1992 and 2200. -/
theorem isTradeDateValid_iff (value : ℕ) : isTradeDateValid value = true ↔
    ∃ date : CalendarDate, date.number = value ∧ 1992 ≤ date.year ∧ date.year ≤ 2200 := by
  simp only [isTradeDateValid]
  constructor
  · intro h
    split_ifs at h with hrange
    simp only [not_or, not_lt] at hrange
    obtain ⟨hmin, hmax, hmonth, hmonth', hday⟩ := hrange
    rw [maximumDay_eq (by omega) (by omega), decide_eq_true_iff] at h
    refine ⟨⟨value / 10000, value / 100 % 100, value % 100, by omega, by omega, by omega, h⟩, ?_,
      hmin, hmax⟩
    show value / 10000 * 10000 + value / 100 % 100 * 100 + value % 100 = value
    omega
  · rintro ⟨date, rfl, hmin, hmax⟩
    obtain ⟨hyear, hmonth, hday⟩ := date.number_parts
    have hmonth_pos := date.month_pos
    have hmonth_le := date.month_le
    have hday_pos := date.day_pos
    rw [hyear, hmonth, hday, if_neg (by omega), maximumDay_eq hmonth_pos hmonth_le]
    exact decide_eq_true date.day_le

/-! ## The checks -/

/-- `EngineConfig`, as it is handed to `Create`. -/
structure ConfigRequest where
  tradeDate : BitVec 32 := 0
  startMode : StartMode := .kFromOpen
  enabledStreams : StreamMask := kDefaultAShareL2StreamMask
  tickDecoderLanes : Word := 12
  snapshotDecoderLanes : Word := 4
  instrumentWorkers : Word := 16
  tickSlotsPerLane : Word := 32768
  snapshotSlotsPerLane : Word := 512
  maximumTickBodyBytes : Word := 512
  maximumSnapshotBodyBytes : Word := 65536
  dispatchQueueCapacity : Word := 1024
  diagnosticQueueCapacity : Word := 4096
  lateRecoveryQueueCapacity : Word := 4096
  maximumChannelsPerTickLane : Word := 256
  reorderEntriesPerChannel : Word := 4096
  maximumReorderSpan : Word := 4096
  partialInitialHoldNs : Word := 200000
  partialGapWaitNs : Word := 500000
  fromOpenGapWaitNs : Word := 500000
  recoveryTimerScanNs : Word := 25000
  maximumTextBytes : Word := 32
  maximumDepthItems : Word := 4096
  maximumQueueItems : Word := 1000000
  firstDecoderCpu : ℤ := -1
  deriving DecidableEq

/-- The maximum of `std::size_t`. -/
def kSizeMax : Word :=
  BitVec.allOnes 64

/-- The maximum of `std::uint32_t`. -/
def kUint32Max : Word :=
  0xffffffff

/-- `ValidateConfig`. -/
def validateConfig (config : ConfigRequest) (catalog : InstrumentCatalog) : Except String Unit :=
  if isTradeDateValid config.tradeDate.toNat = false then
    .error "trade_date is not a supported valid calendar date"
  else if catalog.entries.length = 0 then .error "instrument catalog is empty"
  else if config.enabledStreams = 0 ∨ config.enabledStreams &&& ~~~kSupportedStreamMask ≠ 0 then
    .error "enabled_streams contains no stream or an unknown bit"
  else if config.tickDecoderLanes = 0 ∨ config.snapshotDecoderLanes = 0 ∨
      config.instrumentWorkers = 0 then
    .error "lane and instrument worker counts must be positive"
  else if config.tickSlotsPerLane < 2 ∨ config.snapshotSlotsPerLane < 2 ∨
      config.maximumTickBodyBytes < 70 ∨ config.maximumSnapshotBodyBytes < 248 ∨
      config.dispatchQueueCapacity < 2 ∨ config.diagnosticQueueCapacity < 2 ∨
      config.lateRecoveryQueueCapacity < 2 then
    .error "slot, body, or dispatch capacity is too small"
  else if config.maximumChannelsPerTickLane = 0 then
    .error "maximum_channels_per_tick_lane must be positive"
  else if kUint32Max < config.tickSlotsPerLane ∨ kUint32Max < config.snapshotSlotsPerLane ∨
      kSizeMax / config.maximumTickBodyBytes < config.tickSlotsPerLane ∨
      kSizeMax / config.maximumSnapshotBodyBytes < config.snapshotSlotsPerLane ∨
      kSizeMax / config.instrumentWorkers < config.tickDecoderLanes ∨
      kSizeMax / config.instrumentWorkers < config.snapshotDecoderLanes ∨
      kSizeMax / config.maximumChannelsPerTickLane < config.tickDecoderLanes then
    .error "configured bounded storage size overflows size_t"
  else if kUint32Max - 1 < config.maximumChannelsPerTickLane ∨
      kSizeMax / 2 < config.maximumChannelsPerTickLane ∨
      isPowerOfTwo config.reorderEntriesPerChannel.toNat = false ∨
      config.reorderEntriesPerChannel < 2 ∨
      config.reorderEntriesPerChannel < config.maximumReorderSpan then
    .error "reorder entries must be a power of two and be at least the maximum reorder span"
  else if config.maximumTextBytes = 0 ∨ kMaximumIdentityBytes < config.maximumTextBytes.toNat ∨
      config.maximumDepthItems = 0 ∨ config.maximumQueueItems = 0 ∨
      config.recoveryTimerScanNs = 0 then
    .error "decoder or recovery timer limits are invalid"
  else if config.firstDecoderCpu < -1 then .error "first_decoder_cpu must be -1 or nonnegative"
  else .ok ()

/-- What `ValidateConfig` accepts, in numbers. -/
structure Accepted (config : ConfigRequest) (catalog : InstrumentCatalog) : Prop where
  date : ∃ date : CalendarDate, date.number = config.tradeDate.toNat ∧ 1992 ≤ date.year ∧
    date.year ≤ 2200
  catalog : catalog.entries ≠ []
  streams : 0 < config.enabledStreams.toNat ∧
    config.enabledStreams.toNat < 2 ^ kSupportedMessageKeys.length
  ticks_pos : 0 < config.tickDecoderLanes.toNat
  snapshots_pos : 0 < config.snapshotDecoderLanes.toNat
  workers_pos : 0 < config.instrumentWorkers.toNat
  tickSlots : config.tickSlotsPerLane.toNat ∈ Set.Ico 2 (2 ^ 32)
  snapshotSlots : config.snapshotSlotsPerLane.toNat ∈ Set.Ico 2 (2 ^ 32)
  tickBody : 70 ≤ config.maximumTickBodyBytes.toNat
  snapshotBody : 248 ≤ config.maximumSnapshotBodyBytes.toNat
  dispatch : 2 ≤ config.dispatchQueueCapacity.toNat
  diagnostic : 2 ≤ config.diagnosticQueueCapacity.toNat
  lateRecovery : 2 ≤ config.lateRecoveryQueueCapacity.toNat
  tickArena : config.tickSlotsPerLane.toNat * config.maximumTickBodyBytes.toNat < 2 ^ 64
  snapshotArena :
    config.snapshotSlotsPerLane.toNat * config.maximumSnapshotBodyBytes.toNat < 2 ^ 64
  tickQueues : config.tickDecoderLanes.toNat * config.instrumentWorkers.toNat < 2 ^ 64
  snapshotQueues : config.snapshotDecoderLanes.toNat * config.instrumentWorkers.toNat < 2 ^ 64
  mailboxes : config.tickDecoderLanes.toNat * config.maximumChannelsPerTickLane.toNat < 2 ^ 64
  channels : config.maximumChannelsPerTickLane.toNat ∈ Set.Ico 1 (2 ^ 32 - 1)
  entries : ∃ k, 1 ≤ k ∧ config.reorderEntriesPerChannel.toNat = 2 ^ k
  span : config.maximumReorderSpan.toNat ≤ config.reorderEntriesPerChannel.toNat
  text : config.maximumTextBytes.toNat ∈ Set.Icc 1 kMaximumIdentityBytes
  depth : 0 < config.maximumDepthItems.toNat
  queue : 0 < config.maximumQueueItems.toNat
  scan : 0 < config.recoveryTimerScanNs.toNat
  cpu : -1 ≤ config.firstDecoderCpu

section Checks

variable {config : ConfigRequest} {catalog : InstrumentCatalog}

theorem word_eq_zero_iff (value : Word) : value = 0 ↔ value.toNat = 0 :=
  BitVec.toNat_inj.symm

theorem streams_iff (mask : StreamMask) :
    ¬(mask = 0 ∨ mask &&& ~~~kSupportedStreamMask ≠ 0) ↔
      0 < mask.toNat ∧ mask.toNat < 2 ^ kSupportedMessageKeys.length := by
  have hbits : ∀ i, kSupportedStreamMask.getLsbD i = decide (i < kSupportedMessageKeys.length) :=
    fun i => by
    have hsupported : kSupportedStreamMask.toNat = 2 ^ kSupportedMessageKeys.length - 1 := by decide
    rw [← BitVec.testBit_toNat, hsupported, Nat.testBit_two_pow_sub_one]
  have hzero : ∀ i, BitVec.getLsbD (0 : StreamMask) i = false := fun _ => BitVec.getLsbD_zero
  rw [not_or, not_not, Nat.pos_iff_ne_zero]
  refine and_congr (not_congr BitVec.toNat_inj.symm) ⟨fun h => ?_, fun h => ?_⟩
  · refine Nat.lt_pow_two_of_testBit _ fun i hi => ?_
    rw [BitVec.testBit_toNat]
    by_cases hwidth : i < 32
    · have hbit : (mask &&& ~~~kSupportedStreamMask).getLsbD i = false := by
        rw [h, hzero]
      rwa [BitVec.getLsbD_and, BitVec.getLsbD_not, hbits, decide_eq_true hwidth,
        decide_eq_false (not_lt.2 hi), Bool.not_false, Bool.and_true, Bool.and_true] at hbit
    · exact BitVec.getLsbD_of_ge mask i (not_lt.1 hwidth)
  · refine BitVec.eq_of_getLsbD_eq fun i hwidth => ?_
    rw [BitVec.getLsbD_and, BitVec.getLsbD_not, hbits, hzero]
    by_cases hi : i < kSupportedMessageKeys.length
    · simp [hi]
    · have hbit : mask.getLsbD i = false := by
        rw [← BitVec.testBit_toNat]
        exact Nat.testBit_lt_two_pow (h.trans_le (Nat.pow_le_pow_right two_pos (not_lt.1 hi)))
      rw [hbit, Bool.false_and]

theorem entries_iff (entries : ℕ) : isPowerOfTwo entries = true ∧ 2 ≤ entries ↔
    ∃ k, 1 ≤ k ∧ entries = 2 ^ k := by
  constructor
  · rintro ⟨hpow, hge⟩
    obtain ⟨k, rfl⟩ := exists_pow_of_isPowerOfTwo hpow
    refine ⟨k, ?_, rfl⟩
    by_contra hk
    obtain rfl : k = 0 := by omega
    omega
  · rintro ⟨k, hk, rfl⟩
    exact ⟨isPowerOfTwo_pow k, Nat.le_pow hk⟩

/-- A check is passed, and what follows as well. -/
theorem check_iff {check : Prop} [Decidable check] {message : String} {rest : Except String Unit} :
    (if check then .error message else rest) = .ok () ↔ ¬check ∧ rest = .ok () := by
  split_ifs with h
  · exact ⟨nofun, fun hboth => absurd h hboth.1⟩
  · exact ⟨fun heq => ⟨h, heq⟩, fun hboth => hboth.2⟩

/-- `ValidateConfig` accepts what is `Accepted`. -/
theorem validateConfig_iff : validateConfig config catalog = .ok () ↔ Accepted config catalog := by
  have htwo : (2 : Word).toNat = 2 := rfl
  have hseventy : (70 : Word).toNat = 70 := rfl
  have hsmallest : (248 : Word).toNat = 248 := rfl
  have hmax : kUint32Max.toNat = 2 ^ 32 - 1 := rfl
  have hmax' : (kUint32Max - 1).toNat = 2 ^ 32 - 2 := rfl
  have hhalf : (kSizeMax / 2).toNat = 2 ^ 63 - 1 := rfl
  have hsize : kSizeMax.toNat = 2 ^ 64 - 1 := rfl
  have hfits : ∀ {count size : ℕ}, 0 < size →
      (¬(2 ^ 64 - 1) / size < count ↔ count * size < 2 ^ 64) := fun hpos => by
    rw [Nat.div_lt_iff_lt_mul hpos]
    omega
  simp only [validateConfig, check_iff, not_or, BitVec.lt_def, htwo, hseventy,
    hsmallest, hmax, hmax', hhalf, word_eq_zero_iff, and_true]
  constructor
  · rintro ⟨hdate, hcatalog, hstreams, ⟨hticks, hsnapshots, hworkers⟩,
      ⟨htickSlots, hsnapshotSlots, htickBody, hsnapshotBody, hdispatch, hdiagnostic, hlate⟩,
      hchannels, ⟨htickMax, hsnapshotMax, htickArena, hsnapshotArena, htickQueues, hsnapshotQueues,
      hmailboxes⟩, ⟨hchannelsMax, -, hpow, hentriesMin, hspan⟩,
      ⟨htext, htextMax, hdepth, hqueue, hscan⟩, hcpu⟩
    rw [BitVec.toNat_udiv, hsize, hfits (by omega)] at htickArena hsnapshotArena htickQueues
    rw [BitVec.toNat_udiv, hsize, hfits (by omega)] at hsnapshotQueues hmailboxes
    exact
      { date := (isTradeDateValid_iff _).1 (Bool.eq_true_of_not_eq_false hdate)
        catalog := fun hnil => hcatalog (List.length_eq_zero_iff.2 hnil)
        streams := (streams_iff _).1 (not_or.2 hstreams)
        ticks_pos := Nat.pos_of_ne_zero hticks
        snapshots_pos := Nat.pos_of_ne_zero hsnapshots
        workers_pos := Nat.pos_of_ne_zero hworkers
        tickSlots := ⟨not_lt.1 htickSlots, by omega⟩
        snapshotSlots := ⟨not_lt.1 hsnapshotSlots, by omega⟩
        tickBody := not_lt.1 htickBody
        snapshotBody := not_lt.1 hsnapshotBody
        dispatch := not_lt.1 hdispatch
        diagnostic := not_lt.1 hdiagnostic
        lateRecovery := not_lt.1 hlate
        tickArena := htickArena
        snapshotArena := hsnapshotArena
        tickQueues := htickQueues
        snapshotQueues := hsnapshotQueues
        mailboxes := hmailboxes
        channels := ⟨Nat.pos_of_ne_zero hchannels, by omega⟩
        entries := (entries_iff _).1 ⟨Bool.eq_true_of_not_eq_false hpow, not_lt.1 hentriesMin⟩
        span := not_lt.1 hspan
        text := ⟨Nat.pos_of_ne_zero htext, not_lt.1 htextMax⟩
        depth := Nat.pos_of_ne_zero hdepth
        queue := Nat.pos_of_ne_zero hqueue
        scan := Nat.pos_of_ne_zero hscan
        cpu := not_lt.1 hcpu }
  · intro h
    obtain ⟨hpow, hentriesMin⟩ := (entries_iff _).2 h.entries
    have htickSlots := h.tickSlots
    have hsnapshotSlots := h.snapshotSlots
    have hchannels := h.channels
    have htext := h.text
    simp only [Set.mem_Ico, Set.mem_Icc] at htickSlots hsnapshotSlots hchannels htext
    have htickBody := h.tickBody
    have hsnapshotBody := h.snapshotBody
    have hworkers := h.workers_pos
    have hdispatch := h.dispatch
    have hdiagnostic := h.diagnostic
    have hlate := h.lateRecovery
    have hticks := h.ticks_pos
    have hsnapshots := h.snapshots_pos
    refine ⟨?_, fun hnil => h.catalog (List.length_eq_zero_iff.1 hnil),
      not_or.1 ((streams_iff _).2 h.streams), by omega, by omega, by omega,
      ⟨by omega, by omega, ?_⟩, ⟨by omega, by omega, ?_, by omega, ?_⟩, ?_, not_lt.2 h.cpu⟩
    · rw [(isTradeDateValid_iff _).2 h.date]
      exact nofun
    · rw [BitVec.toNat_udiv, BitVec.toNat_udiv, BitVec.toNat_udiv, BitVec.toNat_udiv, hsize,
        hfits (by omega), hfits (by omega), hfits (by omega), hfits (by omega), hfits (by omega)]
      exact ⟨h.tickArena, h.snapshotArena, h.tickQueues, h.snapshotQueues, h.mailboxes⟩
    · rw [hpow]
      exact nofun
    · exact not_lt.2 h.span
    · have hdepth := h.depth
      have hqueue := h.queue
      have hscan := h.scan
      omega

end Checks

/-! ## The constructors -/

/-- What comes of the allocations of the constructors. -/
inductive Allocation where
  | succeeds
  /-- `std::bad_alloc` is thrown. -/
  | badAlloc
  /-- Another exception is thrown. -/
  | throws (what : String)

/-- A ring with room for what is requested. -/
structure RingFor (requested : Word) where
  ring : RingCapacity
  ring_eq : checkedRingCapacity requested.toNat = some ring

/-- The constructor of a ring. -/
def ringFor (requested : Word) : Except String (RingFor requested) :=
  match h : checkedRingCapacity requested.toNat with
  | none => .error "invalid SPSC ring capacity"
  | some ring => .ok ⟨ring, h⟩

/-- The rings of the dispatcher and of the lanes. -/
structure Rings (config : ConfigRequest) where
  dispatch : RingFor config.dispatchQueueCapacity
  fault : RingFor config.diagnosticQueueCapacity
  lateRecovery : RingFor config.lateRecoveryQueueCapacity
  tickSlots : RingFor config.tickSlotsPerLane
  snapshotSlots : RingFor config.snapshotSlotsPerLane

/-- The rings, in the order in which they are constructed. -/
def ringsFor (config : ConfigRequest) : Except String (Rings config) := do
  let dispatch ← ringFor config.dispatchQueueCapacity
  let fault ← ringFor config.diagnosticQueueCapacity
  let lateRecovery ← ringFor config.lateRecoveryQueueCapacity
  let tickSlots ← ringFor config.tickSlotsPerLane
  let snapshotSlots ← ringFor config.snapshotSlotsPerLane
  return { dispatch, fault, lateRecovery, tickSlots, snapshotSlots }

section Constructors

variable {config : ConfigRequest} {definitions : List InstrumentDefinition}
  {catalog : InstrumentCatalog}

def Accepted.admission (h : Accepted config catalog) (rings : Rings config) : AdmissionConfig where
  enabledStreams := config.enabledStreams
  tickDecoderLanes := config.tickDecoderLanes.toNat
  snapshotDecoderLanes := config.snapshotDecoderLanes.toNat
  tickSlotsPerLane := config.tickSlotsPerLane.toNat
  snapshotSlotsPerLane := config.snapshotSlotsPerLane.toNat
  maximumTickBodyBytes := config.maximumTickBodyBytes.toNat
  maximumSnapshotBodyBytes := config.maximumSnapshotBodyBytes.toNat
  tickRing := rings.tickSlots.ring
  snapshotRing := rings.snapshotSlots.ring
  tick_pos := h.ticks_pos
  snapshot_pos := h.snapshots_pos
  tickRing_eq := rings.tickSlots.ring_eq
  snapshotRing_eq := rings.snapshotSlots.ring_eq

theorem Accepted.channels_le (h : Accepted config catalog) :
    config.maximumChannelsPerTickLane.toNat ≤ 2 ^ 32 - 1 - 1 :=
  Nat.le_pred_of_lt h.channels.2

theorem Accepted.entries_pow (h : Accepted config catalog) :
    isPowerOfTwo config.reorderEntriesPerChannel.toNat = true :=
  ((entries_iff _).2 h.entries).1

theorem Accepted.entries_ge (h : Accepted config catalog) :
    2 ≤ config.reorderEntriesPerChannel.toNat :=
  ((entries_iff _).2 h.entries).2

def Accepted.recovery (h : Accepted config catalog) : RecoveryConfig where
  mode := config.startMode
  maximumChannels := config.maximumChannelsPerTickLane.toNat
  entriesPerChannel := config.reorderEntriesPerChannel.toNat
  maximumReorderSpan := config.maximumReorderSpan.toNat
  initialHoldNs := config.partialInitialHoldNs.toNat
  gapWaitNs :=
    if config.startMode = .kFromOpen then config.fromOpenGapWaitNs.toNat
    else config.partialGapWaitNs.toNat
  channels_pos := h.channels.1
  channels_le := h.channels_le
  entries_pow := h.entries_pow
  entries_ge := h.entries_ge
  span_le := h.span

theorem word_le_sizeMax (value : Word) : value.toNat ≤ sizeMax :=
  Nat.le_pred_of_lt value.isLt

def ConfigRequest.limits (config : ConfigRequest) : DecoderLimits where
  maximumTextBytes := config.maximumTextBytes.toNat
  maximumDepthItems := config.maximumDepthItems.toNat
  maximumQueueItems := config.maximumQueueItems.toNat
  depth_le := word_le_sizeMax _
  queue_le := word_le_sizeMax _

def Accepted.configured (h : Accepted config catalog) (rings : Rings config)
    (built : InstrumentCatalog.build definitions = .ok catalog) : IngestdConfig where
  engine :=
    { admission := h.admission rings
      recovery := h.recovery
      settings := { tradeDate := config.tradeDate.toNat, limits := config.limits }
      recoveryTimerScanNs := config.recoveryTimerScanNs.toNat
      instrumentWorkers := config.instrumentWorkers.toNat
      dispatchRing := rings.dispatch.ring
      definitions := definitions
      catalog := catalog
      text_le := h.text.2
      workers_pos := h.workers_pos
      catalog_eq := built }
  faultRing := rings.fault.ring
  lateRecoveryRing := rings.lateRecovery.ring

/-- `IngestEngine::Create`. -/
def create (config : ConfigRequest) (built : InstrumentCatalog.build definitions = .ok catalog)
    (allocation : Allocation) : Except String IngestdConfig :=
  match h : validateConfig config catalog with
  | .error message => .error message
  | .ok () =>
    match allocation with
    | .badAlloc => .error "engine preallocation failed"
    | .throws what => .error ("engine creation failed: " ++ what)
    | .succeeds =>
      match ringsFor config with
      | .ok rings => .ok ((validateConfig_iff.1 h).configured rings built)
      | .error what => .error ("engine creation failed: " ++ what)

/-! ## What is created -/

/-- A queue can have any capacity below `2 ^ 63`. -/
theorem checkedRingCapacity_isSome {requested : ℕ} (hpos : 0 < requested) :
    (checkedRingCapacity requested).isSome = true ↔ requested < 2 ^ 63 := by
  have hmax : uint64Max >>> 1 = 2 ^ 63 - 1 := rfl
  rw [checkedRingCapacity]
  split
  · next h =>
    rw [roundUpPowerOfTwo] at h
    split_ifs at h
    simp only [Option.isSome_none, Bool.false_eq_true, false_iff]
    omega
  · next h =>
    rw [roundUpPowerOfTwo] at h
    split_ifs at h
    simp only [Option.isSome_some, true_iff]
    omega

theorem ringFor_ok_iff {requested : Word} (hpos : 0 < requested.toNat) :
    (∃ ring, ringFor requested = .ok ring) ↔ requested.toNat < 2 ^ 63 := by
  rw [← checkedRingCapacity_isSome hpos]
  constructor
  · rintro ⟨ring, -⟩
    rw [ring.ring_eq]
    rfl
  · intro h
    rw [ringFor]
    split
    · next hnone =>
      rw [hnone] at h
      cases h
    · next ring hsome => exact ⟨⟨ring, hsome⟩, rfl⟩

theorem ringFor_error {requested : Word} {what : String} (h : ringFor requested = .error what) :
    what = "invalid SPSC ring capacity" := by
  rw [ringFor] at h
  split at h
  · exact (Except.error.inj h).symm
  · cases h

/-- The capacities of the queues of the dispatcher are below `2 ^ 63`. -/
def ConfigRequest.Queueable (config : ConfigRequest) : Prop :=
  config.dispatchQueueCapacity.toNat < 2 ^ 63 ∧ config.diagnosticQueueCapacity.toNat < 2 ^ 63 ∧
    config.lateRecoveryQueueCapacity.toNat < 2 ^ 63

/-- The rings of the lanes are always constructed, those of the dispatcher if they can be. -/
theorem ringsFor_iff (h : Accepted config catalog) :
    ((∃ rings, ringsFor config = .ok rings) ↔ config.Queueable) ∧
      ∀ what, ringsFor config = .error what → what = "invalid SPSC ring capacity" := by
  have htick := (ringFor_ok_iff (by have := h.tickSlots.1; omega)).2
    (h.tickSlots.2.trans (by decide))
  have hsnapshot := (ringFor_ok_iff (by have := h.snapshotSlots.1; omega)).2
    (h.snapshotSlots.2.trans (by decide))
  rw [ConfigRequest.Queueable, ← ringFor_ok_iff (by have := h.dispatch; omega),
    ← ringFor_ok_iff (by have := h.diagnostic; omega),
    ← ringFor_ok_iff (by have := h.lateRecovery; omega)]
  obtain ⟨tick, htick⟩ := htick
  obtain ⟨snapshot, hsnapshot⟩ := hsnapshot
  rw [ringsFor, htick, hsnapshot]
  rcases hdispatch : ringFor config.dispatchQueueCapacity with what | dispatch
  · simp [bind, Except.bind, ringFor_error hdispatch]
  rcases hfault : ringFor config.diagnosticQueueCapacity with what | fault
  · simp [bind, Except.bind, ringFor_error hfault]
  rcases hlate : ringFor config.lateRecoveryQueueCapacity with what | late
  · simp [bind, Except.bind, ringFor_error hlate]
  · simp [bind, Except.bind, pure, Except.pure]

/-- The ring is the least that has room for what is requested. -/
def RoomFor (requested : Word) (ring : RingCapacity) : Prop :=
  IsLeast {n | ∃ k, n = 2 ^ k ∧ requested.toNat ≤ n} ring.size

theorem RingFor.room {requested : Word} (ring : RingFor requested) : RoomFor requested ring.ring :=
  checkedRingCapacity_isLeast ring.ring_eq

/-- The engine is constructed as it was requested, over this catalog. -/
structure Configures (config : ConfigRequest) (definitions : List InstrumentDefinition)
    (catalog : InstrumentCatalog) (cfg : IngestdConfig) : Prop where
  instruments : cfg.engine.definitions = definitions ∧ cfg.engine.catalog = catalog
  mode : cfg.engine.recovery.mode = config.startMode
  streams : cfg.engine.admission.enabledStreams = config.enabledStreams
  lanes : cfg.engine.admission.tickDecoderLanes = config.tickDecoderLanes.toNat ∧
    cfg.engine.admission.snapshotDecoderLanes = config.snapshotDecoderLanes.toNat
  workers : cfg.engine.instrumentWorkers = config.instrumentWorkers.toNat
  slotCounts : cfg.engine.admission.tickSlotsPerLane = config.tickSlotsPerLane.toNat ∧
    cfg.engine.admission.snapshotSlotsPerLane = config.snapshotSlotsPerLane.toNat
  bodies : cfg.engine.admission.maximumTickBodyBytes = config.maximumTickBodyBytes.toNat ∧
    cfg.engine.admission.maximumSnapshotBodyBytes = config.maximumSnapshotBodyBytes.toNat
  slots : RoomFor config.tickSlotsPerLane cfg.engine.admission.tickRing ∧
    RoomFor config.snapshotSlotsPerLane cfg.engine.admission.snapshotRing
  queues : RoomFor config.dispatchQueueCapacity cfg.engine.dispatchRing ∧
    RoomFor config.diagnosticQueueCapacity cfg.faultRing ∧
    RoomFor config.lateRecoveryQueueCapacity cfg.lateRecoveryRing
  channels : cfg.engine.recovery.maximumChannels = config.maximumChannelsPerTickLane.toNat
  reorder : cfg.engine.recovery.entriesPerChannel = config.reorderEntriesPerChannel.toNat ∧
    cfg.engine.recovery.maximumReorderSpan = config.maximumReorderSpan.toNat
  waits : cfg.engine.recovery.initialHoldNs = config.partialInitialHoldNs.toNat ∧
    cfg.engine.recovery.gapWaitNs =
      (match config.startMode with
        | .kFromOpen => config.fromOpenGapWaitNs
        | .kPartial => config.partialGapWaitNs).toNat
  settings : cfg.engine.settings.tradeDate = config.tradeDate.toNat ∧
    cfg.engine.settings.limits = config.limits
  scan : cfg.engine.recoveryTimerScanNs = config.recoveryTimerScanNs.toNat

theorem Accepted.configures (h : Accepted config catalog) (rings : Rings config)
    (built : InstrumentCatalog.build definitions = .ok catalog) :
    Configures config definitions catalog (h.configured rings built) where
  instruments := ⟨rfl, rfl⟩
  mode := rfl
  streams := rfl
  lanes := ⟨rfl, rfl⟩
  workers := rfl
  slotCounts := ⟨rfl, rfl⟩
  bodies := ⟨rfl, rfl⟩
  slots := ⟨rings.tickSlots.room, rings.snapshotSlots.room⟩
  queues := ⟨rings.dispatch.room, rings.fault.room, rings.lateRecovery.room⟩
  channels := rfl
  reorder := ⟨rfl, rfl⟩
  waits := ⟨rfl, by
    show (if config.startMode = .kFromOpen then _ else _) = _
    rcases config.startMode with - | - <;> rfl⟩
  settings := ⟨rfl, rfl⟩
  scan := rfl

theorem create_eq (h : Accepted config catalog)
    (built : InstrumentCatalog.build definitions = .ok catalog) :
    create config built .succeeds =
      match ringsFor config with
      | .ok rings => .ok (h.configured rings built)
      | .error what => .error ("engine creation failed: " ++ what) := by
  have hvalid := validateConfig_iff.2 h
  rw [create]
  split
  · next message hmessage =>
    rw [hvalid] at hmessage
    cases hmessage
  · rfl

/-- When the allocations succeed, an engine is created exactly if the configuration is accepted
and the capacities of the queues of the dispatcher are below `2 ^ 63`, which `ValidateConfig` does
not check. It is then the engine that was requested, and each ring is the least that has room. -/
theorem create_iff (built : InstrumentCatalog.build definitions = .ok catalog) :
    ((∃ cfg, create config built .succeeds = .ok cfg) ↔
      Accepted config catalog ∧ config.Queueable) ∧
    (Accepted config catalog → ¬config.Queueable →
      create config built .succeeds =
        .error "engine creation failed: invalid SPSC ring capacity") ∧
    ∀ cfg, create config built .succeeds = .ok cfg → Configures config definitions catalog cfg := by
  have haccepted : ∀ cfg, create config built .succeeds = .ok cfg → Accepted config catalog := by
    intro cfg h
    rw [create] at h
    split at h
    · cases h
    · next hvalid => exact validateConfig_iff.1 hvalid
  refine ⟨⟨fun ⟨cfg, h⟩ => ?_, fun ⟨h, hqueueable⟩ => ?_⟩, fun h hqueueable => ?_, fun cfg h => ?_⟩
  · have haccept := haccepted cfg h
    refine ⟨haccept, (ringsFor_iff haccept).1.1 ?_⟩
    rw [create_eq haccept built] at h
    rcases hrings : ringsFor config with what | rings
    · rw [hrings] at h
      cases h
    · exact ⟨rings, rfl⟩
  · obtain ⟨rings, hrings⟩ := (ringsFor_iff h).1.2 hqueueable
    exact ⟨h.configured rings built, by rw [create_eq h built, hrings]⟩
  · rcases hrings : ringsFor config with what | rings
    · rw [create_eq h built, hrings, (ringsFor_iff h).2 what hrings]
      rfl
    · exact absurd ((ringsFor_iff h).1.1 ⟨rings, hrings⟩) hqueueable
  · have haccept := haccepted cfg h
    rw [create_eq haccept built] at h
    rcases hrings : ringsFor config with what | rings
    · rw [hrings] at h
      cases h
    · rw [hrings] at h
      obtain rfl := Except.ok.inj h
      exact haccept.configures rings built

end Constructors

/-! ## The sizes fit -/

/-- The index of a cell, computed in machine words, is the index of the cell, and is in bounds. -/
structure IndexFits (rows columns : Word) : Prop where
  size : (rows * columns).toNat = rows.toNat * columns.toNat
  index : ∀ row column : Word, row < rows → column < columns →
    (row * columns + column).toNat = row.toNat * columns.toNat + column.toNat ∧
      row * columns + column < rows * columns

theorem indexFits {rows columns : Word} (h : rows.toNat * columns.toNat < 2 ^ 64) :
    IndexFits rows columns := by
  have hsize : (rows * columns).toNat = rows.toNat * columns.toNat := by
    rw [BitVec.toNat_mul, Nat.mod_eq_of_lt h]
  refine ⟨hsize, fun row column hrow hcolumn => ?_⟩
  rw [BitVec.lt_def] at hrow hcolumn
  have hcell : row.toNat * columns.toNat + column.toNat < rows.toNat * columns.toNat := by
    calc row.toNat * columns.toNat + column.toNat
        < row.toNat * columns.toNat + columns.toNat := Nat.add_lt_add_left hcolumn _
      _ = (row.toNat + 1) * columns.toNat := (Nat.succ_mul _ _).symm
      _ ≤ rows.toNat * columns.toNat := Nat.mul_le_mul_right _ hrow
  have hindex : (row * columns + column).toNat = row.toNat * columns.toNat + column.toNat := by
    rw [BitVec.toNat_add, BitVec.toNat_mul, Nat.mod_add_mod, Nat.mod_eq_of_lt (hcell.trans h)]
  rw [BitVec.lt_def, hindex, hsize]
  exact ⟨rfl, hcell⟩

/-- The loop that computes `table_capacity`, from a capacity. -/
def shiftUntil (target : Word) : ℕ → Word → Word
  | 0, capacity => capacity
  | fuel + 1, capacity =>
    if capacity < target then shiftUntil target fuel (capacity <<< 1) else capacity

/-- As long as the target is below `2 ^ 63`, no bit is shifted out. -/
theorem shiftUntil_toNat {target : Word} (h : target.toNat < 2 ^ 63) :
    ∀ (fuel : ℕ) (capacity : Word),
      (shiftUntil target fuel capacity).toNat = doubleUntil target.toNat fuel capacity.toNat
  | 0, _ => rfl
  | fuel + 1, capacity => by
    rw [shiftUntil, doubleUntil]
    by_cases hlt : capacity.toNat < target.toNat
    · have hshift : (capacity <<< 1).toNat = capacity.toNat * 2 := by
        rw [BitVec.toNat_shiftLeft, Nat.shiftLeft_eq, pow_one, Nat.mod_eq_of_lt (by omega)]
      rw [if_pos (BitVec.lt_def.2 hlt), if_pos hlt, shiftUntil_toNat h fuel, hshift]
    · rw [if_neg fun hword => hlt (BitVec.lt_def.1 hword), if_neg hlt]

/-- The sizes, indices and addresses of the constructors and of the queues. -/
structure SizesFit (config : ConfigRequest) : Prop where
  /-- `arena_` of a tick lane, by slot and byte. -/
  tickArena : IndexFits config.tickSlotsPerLane config.maximumTickBodyBytes
  snapshotArena : IndexFits config.snapshotSlotsPerLane config.maximumSnapshotBodyBytes
  /-- `tick_queues_`, by producer and owner. -/
  tickQueues : IndexFits config.tickDecoderLanes config.instrumentWorkers
  snapshotQueues : IndexFits config.snapshotDecoderLanes config.instrumentWorkers
  /-- `gap_slots_`, by producer and channel. -/
  mailboxes : IndexFits config.tickDecoderLanes config.maximumChannelsPerTickLane
  /-- `gap_words_per_producer_`. -/
  words : ((config.maximumChannelsPerTickLane + 63) / 64).toNat =
    (config.maximumChannelsPerTickLane.toNat + 63) / 64
  /-- `gap_dirty_words_`, by producer and word. -/
  dirty : IndexFits config.tickDecoderLanes ((config.maximumChannelsPerTickLane + 63) / 64)
  /-- `table_capacity`, a doubling for each channel that it has to have room for at most. -/
  table : (shiftUntil (config.maximumChannelsPerTickLane * 2)
      (config.maximumChannelsPerTickLane * 2).toNat 1).toNat =
    doubleUntil (config.maximumChannelsPerTickLane.toNat * 2)
      (config.maximumChannelsPerTickLane.toNat * 2) 1
  /-- The number of a slot fits in the 32 bits in which the rings keep it. -/
  slots : ∀ slot : Word, slot < config.tickSlotsPerLane ∨ slot < config.snapshotSlotsPerLane →
    (slot.setWidth 32).toNat = slot.toNat
  /-- So does `channel_count_ + 1`, which the channel table keeps. -/
  channels : ∀ count : Word, count < config.maximumChannelsPerTickLane →
    ((count + 1).setWidth 32).toNat = count.toNat + 1

/-- What is accepted is small enough for every computation with sizes. -/
theorem sizes_fit {config : ConfigRequest} {catalog : InstrumentCatalog}
    (h : Accepted config catalog) : SizesFit config := by
  have hchannels := h.channels.2
  have hpos := h.channels.1
  have hwords : ((config.maximumChannelsPerTickLane + 63) / 64).toNat =
      (config.maximumChannelsPerTickLane.toNat + 63) / 64 := by
    have h63 : (63 : Word).toNat = 63 := rfl
    have h64 : (64 : Word).toNat = 64 := rfl
    rw [BitVec.toNat_udiv, BitVec.toNat_add, h63, h64, Nat.mod_eq_of_lt (by omega)]
  have htwo : (2 : Word).toNat = 2 := rfl
  have htarget : (config.maximumChannelsPerTickLane * 2).toNat =
      config.maximumChannelsPerTickLane.toNat * 2 := by
    rw [BitVec.toNat_mul, htwo, Nat.mod_eq_of_lt (by omega)]
  refine ⟨indexFits h.tickArena, indexFits h.snapshotArena, indexFits h.tickQueues,
    indexFits h.snapshotQueues, indexFits h.mailboxes, hwords, indexFits ?_, ?_, ?_, ?_⟩
  · rw [hwords]
    refine lt_of_le_of_lt (Nat.mul_le_mul_left _ ?_) h.mailboxes
    omega
  · rw [shiftUntil_toNat (by omega), htarget]
    rfl
  · intro slot hslot
    have htick := h.tickSlots.2
    have hsnapshot := h.snapshotSlots.2
    simp only [BitVec.lt_def] at hslot
    rw [BitVec.toNat_setWidth, Nat.mod_eq_of_lt (by omega)]
  · intro count hcount
    have hone : (1 : Word).toNat = 1 := rfl
    rw [BitVec.lt_def] at hcount
    rw [BitVec.toNat_setWidth, BitVec.toNat_add, hone, Nat.mod_eq_of_lt (a := count.toNat + 1)
      (by omega), Nat.mod_eq_of_lt (by omega)]

/-! ### The defaults, on a leap day -/

def sampleRequest : ConfigRequest where
  tradeDate := 20240229

theorem sampleRequest_accepted : Accepted sampleRequest Engine.sampleCatalog :=
  validateConfig_iff.1 (by decide +kernel)

theorem create_iff_sample :
    ∃ cfg, create sampleRequest Engine.sampleCatalog_eq .succeeds = .ok cfg :=
  (create_iff Engine.sampleCatalog_eq).1.2 ⟨sampleRequest_accepted, by decide, by decide, by decide⟩

theorem sizes_fit_sample : SizesFit sampleRequest :=
  sizes_fit sampleRequest_accepted

end L2Flow
