import L2Flow.Lane

/-!
# The instrument catalog

`InstrumentCatalog::Build` checks the definitions and enters their identities into an
open-addressing table; `Find` walks it. What `Find` returns for an identity is the
definition with exactly that identity, under its position in the list (`find_build`).
-/

namespace L2Flow

structure InstrumentDefinition where
  instrumentId : ℕ := 0
  market : Market := .kUnknown
  securityIdSource : List UInt8 := []
  securityId : List UInt8 := []
  deriving DecidableEq, Repr

structure InstrumentMatch where
  instrumentId : ℕ := 0
  ordinal : ℕ := kInvalidInstrumentOrdinal
  deriving DecidableEq, Repr

/-! ## Hashing -/

/-- `Mix`. -/
def mix (value : BitVec 64) : BitVec 64 :=
  let value := value ^^^ (value >>> 30)
  let value := value * 0xbf58476d1ce4e5b9#64
  let value := value ^^^ (value >>> 27)
  let value := value * 0x94d049bb133111eb#64
  value ^^^ (value >>> 31)

/-- One byte of the hash of the source, FNV-1a on 64 bits. -/
def appendByte (hash : BitVec 64) (octet : UInt8) : BitVec 64 :=
  (hash ^^^ BitVec.ofNat 64 octet.toNat) * 1099511628211#64

/-- The initial value of the hashes of the source. -/
def hashOffset : BitVec 64 :=
  1469598103934665603#64

/-- `HashIdentity`. -/
def hashIdentity (market : Market) (source security : List UInt8) : BitVec 64 :=
  let hash := appendByte hashOffset (UInt8.ofNat market.value)
  let hash := appendByte hash (UInt8.ofNat source.length)
  let hash := source.foldl appendByte hash
  let hash := appendByte hash (UInt8.ofNat security.length)
  mix (security.foldl appendByte hash)

/-! ## The catalog -/

structure CatalogEntry where
  found : InstrumentMatch
  identity : ExactIdentity
  hash : BitVec 64

/-- A cell of the table holds the index of an entry, where the source stores the index plus
one and zero for an empty cell. A catalog that was not built has no table. -/
structure InstrumentCatalog where
  capacity : ℕ := 0
  entries : List CatalogEntry := []
  table : Fin capacity → Option ℕ := fun _ => none

namespace InstrumentCatalog

/-- `value & mask`. -/
def slot {capacity : ℕ} (hpos : 0 < capacity) (value : ℕ) : Fin capacity :=
  ⟨value &&& (capacity - 1), lt_of_le_of_lt Nat.and_le_right (Nat.sub_lt hpos one_pos)⟩

/-- The entry has this hash and exactly these bytes. -/
def CatalogEntry.matches_ (entry : CatalogEntry) (hash : BitVec 64) (market : Market)
    (source security : List UInt8) : Bool :=
  entry.hash == hash && entry.identity.market == market &&
    entry.identity.securityIdSourceSize == source.length &&
    entry.identity.securityIdSize == security.length &&
    entry.identity.securityIdSource.toList.take source.length == source &&
    entry.identity.securityId.toList.take security.length == security

/-- The walk from the home slot of a hash. -/
def probe (catalog : InstrumentCatalog) (hpos : 0 < catalog.capacity) (hash : BitVec 64)
    (market : Market) (source security : List UInt8) : LinearProbing.Probe catalog.capacity :=
  LinearProbing.walk (fun at_ => slot hpos (at_ + 1)) catalog.table
    (fun index => (catalog.entries[index]?).any fun entry =>
      CatalogEntry.matches_ entry hash market source security)
    catalog.capacity (slot hpos hash.toNat)

/-- `Find`. -/
def find (catalog : InstrumentCatalog) (market : Market) (source security : List UInt8) :
    Option InstrumentMatch :=
  if hpos : 0 < catalog.capacity then
    if security = [] ∨ kMaximumIdentityBytes < source.length ∨
        kMaximumIdentityBytes < security.length then none
    else
      match catalog.probe hpos (hashIdentity market source security) market source security with
      | .found index => (catalog.entries[index]?).map (·.found)
      | _ => none
  else none

/-! ## Building -/

/-- `IsPrintableAscii`. -/
def isPrintable (value : List UInt8) : Bool :=
  value.all fun octet => 0x20 ≤ octet && octet ≤ 0x7e

/-- What `Build` says of a definition it refuses, apart from duplicates. -/
def definitionError (definition : InstrumentDefinition) : Option String :=
  if definition.market ≠ .kShanghai ∧ definition.market ≠ .kShenzhen then
    some "catalog market must be SH or SZ"
  else if definition.securityId = [] ∨
      kMaximumIdentityBytes < definition.securityId.length ∨
      kMaximumIdentityBytes < definition.securityIdSource.length ∨
      isPrintable definition.securityId = false ∨
      isPrintable definition.securityIdSource = false then
    some "catalog identity must be nonempty printable ASCII within the fixed identity bound"
  else if definition.market = .kShanghai ∧ definition.securityIdSource ≠ [] then
    some "Shanghai catalog identities require an empty security_id_source"
  else if definition.market = .kShenzhen ∧ definition.securityIdSource = [] then
    some "Shenzhen catalog identities require an exact nonempty security_id_source"
  else none

/-- The entry of a definition. -/
def entryOf (definition : InstrumentDefinition) (index : ℕ) : CatalogEntry where
  found := { instrumentId := definition.instrumentId, ordinal := index }
  identity :=
    { market := definition.market
      securityIdSourceSize := definition.securityIdSource.length
      securityIdSize := definition.securityId.length
      securityIdSource := identityBytes definition.securityIdSource
      securityId := identityBytes definition.securityId }
  hash := hashIdentity definition.market definition.securityIdSource definition.securityId

/-- One definition is entered. The `instrument_id`s seen are those of the entries. The table
of `build` has more cells than there are definitions, so that the walk ends in an empty cell
unless the identity is there. -/
def enter (catalog : InstrumentCatalog) (definition : InstrumentDefinition) :
    Except String InstrumentCatalog :=
  if definition.instrumentId = 0 ∨
      catalog.entries.any fun entry => entry.found.instrumentId == definition.instrumentId then
    .error "instrument_id must be nonzero and unique"
  else
    match definitionError definition with
    | some error => .error error
    | none =>
      if hpos : 0 < catalog.capacity then
        let entry := entryOf definition catalog.entries.length
        match catalog.probe hpos entry.hash definition.market definition.securityIdSource
            definition.securityId with
        | .vacant at_ =>
          .ok { catalog with
            entries := catalog.entries ++ [entry]
            table := Function.update catalog.table at_ (some catalog.entries.length) }
        | _ => .error "duplicate exact instrument identity"
      else .error "duplicate exact instrument identity"

/-- `Build`. -/
def build (definitions : List InstrumentDefinition) : Except String InstrumentCatalog :=
  if definitions = [] then .error "catalog must contain at least one instrument"
  else if 2 ^ 32 - 1 ≤ definitions.length then .error "catalog contains too many instruments"
  else
    definitions.foldlM enter
      { capacity := doubleUntil (definitions.length * 2) (definitions.length * 2) 1 }

/-! ## What is found -/

/-- The entries are those of the definitions, in order. -/
def Describes (catalog : InstrumentCatalog) (definitions : List InstrumentDefinition) : Prop :=
  catalog.entries = definitions.mapIdx (fun index definition => entryOf definition index) ∧
    ∀ definition ∈ definitions, definitionError definition = none

theorem describes_enter {catalog catalog' : InstrumentCatalog}
    {definitions : List InstrumentDefinition} {definition : InstrumentDefinition}
    (h : catalog.Describes definitions) (henter : catalog.enter definition = .ok catalog') :
    catalog'.Describes (definitions ++ [definition]) := by
  obtain ⟨hentries, hvalid⟩ := h
  have hlen : catalog.entries.length = definitions.length := by rw [hentries, List.length_mapIdx]
  rw [enter] at henter
  rcases herror : definitionError definition with - | error
  · simp only [herror] at henter
    split_ifs at henter with hid hpos
    rcases hprobe : catalog.probe hpos (entryOf definition catalog.entries.length).hash
      definition.market definition.securityIdSource definition.securityId with index | at_ | -
    · rw [hprobe] at henter
      cases henter
    · rw [hprobe] at henter
      obtain rfl := Except.ok.inj henter
      refine ⟨?_, fun d hd => ?_⟩
      · show catalog.entries ++ [_] = _
        rw [List.mapIdx_append, hlen, hentries, List.mapIdx_cons, List.mapIdx_nil, Nat.zero_add]
      · rcases List.mem_append.1 hd with hd | hd
        · exact hvalid d hd
        · obtain rfl := List.mem_singleton.1 hd
          exact herror
    · rw [hprobe] at henter
      cases henter
  · simp only [herror] at henter
    split_ifs at henter

theorem describes_foldlM : ∀ {definitions earlier : List InstrumentDefinition}
    {catalog catalog' : InstrumentCatalog}, catalog.Describes earlier →
      definitions.foldlM enter catalog = .ok catalog' →
      catalog'.Describes (earlier ++ definitions)
  | [], earlier, catalog, catalog', h, hfold => by
    obtain rfl := Except.ok.inj hfold
    rwa [List.append_nil]
  | definition :: rest, earlier, catalog, catalog', h, hfold => by
    rw [List.foldlM_cons] at hfold
    rcases henter : catalog.enter definition with error | entered
    · rw [henter] at hfold
      cases hfold
    · rw [henter] at hfold
      rw [List.append_cons]
      exact describes_foldlM (describes_enter h henter) hfold

theorem describes_build {definitions : List InstrumentDefinition} {catalog : InstrumentCatalog}
    (h : build definitions = .ok catalog) : catalog.Describes definitions := by
  rw [build] at h
  split_ifs at h
  exact List.nil_append definitions ▸ describes_foldlM ⟨rfl, by simp⟩ h

/-- What a walk finds satisfies its test. -/
theorem hit_of_walk {m : ℕ} {next : Fin m → Fin m} {cells : Fin m → Option ℕ} {hit : ℕ → Bool}
    {fuel : ℕ} {at_ : Fin m} {index : ℕ}
    (h : LinearProbing.walk next cells hit fuel at_ = .found index) : hit index = true := by
  rcases LinearProbing.walk_cases next cells hit fuel at_ with ⟨d, -, -, hend⟩ | ⟨-, hend⟩
  · rcases hend with ⟨-, hend⟩ | ⟨i, -, hi, hend⟩
    · rw [h] at hend
      cases hend
    · rw [h] at hend
      cases hend
      exact hi
  · rw [h] at hend
    cases hend

/-- An entry that matches has exactly these bytes. -/
theorem identity_of_matches {entry : CatalogEntry} {hash : BitVec 64} {market : Market}
    {source security : List UInt8}
    (h : CatalogEntry.matches_ entry hash market source security = true) :
    entry.identity.market = market ∧ entry.identity.securityIdSourceSize = source.length ∧
      entry.identity.securityIdSize = security.length ∧
      entry.identity.securityIdSource.toList.take source.length = source ∧
      entry.identity.securityId.toList.take security.length = security := by
  simp only [CatalogEntry.matches_, Bool.and_eq_true, beq_iff_eq] at h
  obtain ⟨⟨⟨⟨⟨-, hmarket⟩, hsourceSize⟩, hsecuritySize⟩, hsource⟩, hsecurity⟩ := h
  exact ⟨hmarket, hsourceSize, hsecuritySize, hsource, hsecurity⟩

/-- What `Find` returns is the definition with exactly this identity, and its position. -/
theorem find_build {definitions : List InstrumentDefinition} {catalog : InstrumentCatalog}
    (h : build definitions = .ok catalog) {market : Market} {source security : List UInt8}
    {found : InstrumentMatch} (hfind : catalog.find market source security = some found) :
    ∃ definition, definitions[found.ordinal]? = some definition ∧
      definition.instrumentId = found.instrumentId ∧ definition.market = market ∧
      definition.securityIdSource = source ∧ definition.securityId = security := by
  obtain ⟨hentries, hvalid⟩ := describes_build h
  rw [find] at hfind
  split_ifs at hfind with hpos hbounds
  split at hfind
  · next index hprobe =>
    rw [probe] at hprobe
    have hhit := hit_of_walk hprobe
    obtain ⟨entry, hentry, rfl⟩ := Option.map_eq_some_iff.1 hfind
    have hmapped := hentry
    rw [hentries, List.getElem?_mapIdx] at hmapped
    obtain ⟨definition, hdefinition, rfl⟩ := Option.map_eq_some_iff.1 hmapped
    rw [hentry, Option.any_some] at hhit
    obtain ⟨hmarket, hsourceSize, hsecuritySize, hsource, hsecurity⟩ := identity_of_matches hhit
    change definition.securityIdSource.length = source.length at hsourceSize
    change definition.securityId.length = security.length at hsecuritySize
    change (identityBytes definition.securityIdSource).toList.take source.length = source at hsource
    change (identityBytes definition.securityId).toList.take security.length = security at hsecurity
    have hsmall : source.length ≤ kMaximumIdentityBytes ∧
        security.length ≤ kMaximumIdentityBytes := by
      simp only [not_or, not_lt] at hbounds
      exact hbounds.2
    rw [← hsourceSize, take_identityBytes (hsourceSize ▸ hsmall.1)] at hsource
    rw [← hsecuritySize, take_identityBytes (hsecuritySize ▸ hsmall.2)] at hsecurity
    exact ⟨definition, hdefinition, rfl, hmarket, hsource, hsecurity⟩
  · cases hfind

end InstrumentCatalog

end L2Flow
