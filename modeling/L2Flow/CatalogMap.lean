import L2Flow.Catalog

/-!
# The catalog as a map

`InstrumentCatalog::Build` and `Find` with the hash function as a parameter. Whatever it is,
`Build` accepts exactly the lists of well-formed definitions with distinct ids and distinct
identities, and the catalog that it makes of them finds exactly their identities
(`catalog_exact_map`).

Every table on the way holds at most half as many entries as it has cells, and every entry is
reached from its home cell through occupied cells. So the probe for a free cell ends, although
the source does not bound it.
-/

namespace L2Flow

namespace LinearProbing

variable {m : ℕ} {κ : Type*} {next : Fin m → Fin m} {home : κ → Fin m}
  {cells : Fin m → Option ℕ} {keys : List κ}

/-- With fewer keys than cells a search meets an empty cell, whatever it looks for. -/
theorem Chained.walk_ne_exhausted (h : Chained next home cells keys)
    (hcycle : ∀ slot target : Fin m, ∃ d < m, next^[d] slot = target) (hlt : keys.length < m)
    (hit : ℕ → Bool) (slot : Fin m) : walk next cells hit m slot ≠ .exhausted := by
  rcases walk_cases next cells hit m slot with ⟨d, -, -, ⟨-, hw⟩ | ⟨i, -, -, hw⟩⟩ | ⟨hall, -⟩
  · rw [hw]
    exact fun he => by cases he
  · rw [hw]
    exact fun he => by cases he
  · obtain ⟨target, ht⟩ := h.exists_vacant hlt
    obtain ⟨d, hd, rfl⟩ := hcycle slot target
    obtain ⟨i, hi, -⟩ := hall d hd
    rw [ht] at hi
    cases hi

end LinearProbing

/-- A market, a source and a security id. -/
abbrev IdentityKey := Market × List UInt8 × List UInt8

def InstrumentDefinition.identityKey (definition : InstrumentDefinition) : IdentityKey :=
  (definition.market, definition.securityIdSource, definition.securityId)

namespace InstrumentCatalog

/-! ## The hash function as a parameter -/

/-- `Find`, for a hash function. -/
def findBy (hash : IdentityKey → BitVec 64) (catalog : InstrumentCatalog) (market : Market)
    (source security : List UInt8) : Option InstrumentMatch :=
  if hpos : 0 < catalog.capacity then
    if security = [] ∨ kMaximumIdentityBytes < source.length ∨
        kMaximumIdentityBytes < security.length then none
    else
      match catalog.probe hpos (hash (market, source, security)) market source security with
      | .found index => (catalog.entries[index]?).map (·.found)
      | _ => none
  else none

/-- The entry of a definition, for a hash function. -/
def entryBy (hash : IdentityKey → BitVec 64) (definition : InstrumentDefinition) (index : ℕ) :
    CatalogEntry :=
  { entryOf definition index with hash := hash definition.identityKey }

/-- One definition is entered, for a hash function. -/
def enterBy (hash : IdentityKey → BitVec 64) (catalog : InstrumentCatalog)
    (definition : InstrumentDefinition) : Except String InstrumentCatalog :=
  if definition.instrumentId = 0 ∨
      catalog.entries.any fun entry => entry.found.instrumentId == definition.instrumentId then
    .error "instrument_id must be nonzero and unique"
  else
    match definitionError definition with
    | some error => .error error
    | none =>
      if hpos : 0 < catalog.capacity then
        let entry := entryBy hash definition catalog.entries.length
        match catalog.probe hpos entry.hash definition.market definition.securityIdSource
            definition.securityId with
        | .vacant at_ =>
          .ok { catalog with
            entries := catalog.entries ++ [entry]
            table := Function.update catalog.table at_ (some catalog.entries.length) }
        | _ => .error "duplicate exact instrument identity"
      else .error "duplicate exact instrument identity"

/-- The empty catalog of `Build`, with a table for so many definitions. -/
def sized (count : ℕ) : InstrumentCatalog where
  capacity := doubleUntil (count * 2) (count * 2) 1

/-- `Build`, for a hash function : whether it failed, and `output` afterwards. -/
def buildBy (hash : IdentityKey → BitVec 64) (definitions : List InstrumentDefinition)
    (output : InstrumentCatalog) : Option String × InstrumentCatalog :=
  if definitions = [] then (some "catalog must contain at least one instrument", output)
  else if 2 ^ 32 - 1 ≤ definitions.length then
    (some "catalog contains too many instruments", output)
  else
    match definitions.foldlM (enterBy hash) (sized definitions.length) with
    | .ok built => (none, built)
    | .error error => (some error, output)

/-- The hash function of the source. -/
def hashKey (key : IdentityKey) : BitVec 64 :=
  hashIdentity key.1 key.2.1 key.2.2

theorem find_eq_findBy (catalog : InstrumentCatalog) (market : Market)
    (source security : List UInt8) :
    catalog.find market source security = findBy hashKey catalog market source security :=
  rfl

theorem enter_eq_enterBy : enter = enterBy hashKey :=
  rfl

/-- `Build` of the source is `buildBy` with its hash function. -/
theorem build_eq_buildBy (definitions : List InstrumentDefinition) (output : InstrumentCatalog) :
    buildBy hashKey definitions output =
      match build definitions with
      | .ok built => (none, built)
      | .error error => (some error, output) := by
  rw [buildBy, build, enter_eq_enterBy]
  split_ifs <;> rfl

/-! ## What is accepted -/

/-- A definition that `Build` refuses for no reason of its own. -/
structure WellFormed (definition : InstrumentDefinition) : Prop where
  market : definition.market = .kShanghai ∨ definition.market = .kShenzhen
  nonempty : definition.securityId ≠ []
  security_le : definition.securityId.length ≤ 32
  source_le : definition.securityIdSource.length ≤ 32
  printable : ∀ octet ∈ definition.securityId ++ definition.securityIdSource,
    0x20 ≤ octet ∧ octet ≤ 0x7e
  shanghai : definition.market = .kShanghai → definition.securityIdSource = []
  shenzhen : definition.market = .kShenzhen → definition.securityIdSource ≠ []

theorem isPrintable_iff {text : List UInt8} :
    isPrintable text = true ↔ ∀ octet ∈ text, 0x20 ≤ octet ∧ octet ≤ 0x7e := by
  simp [isPrintable]

theorem definitionError_eq_none_iff {definition : InstrumentDefinition} :
    definitionError definition = none ↔ WellFormed definition := by
  rw [definitionError]
  constructor
  · intro h
    split_ifs at h with hmarket htext hshanghai hshenzhen
    simp only [not_or, not_lt, Bool.not_eq_false, isPrintable_iff] at htext
    obtain ⟨hnonempty, hsecurity, hsource, hsecurityText, hsourceText⟩ := htext
    refine ⟨by tauto, hnonempty, hsecurity, hsource, fun octet hoctet => ?_, by tauto, by tauto⟩
    exact (List.mem_append.1 hoctet).elim (hsecurityText octet) (hsourceText octet)
  · intro h
    have hsecurityText : isPrintable definition.securityId = true :=
      isPrintable_iff.2 fun octet hoctet => h.printable octet (List.mem_append_left _ hoctet)
    have hsourceText : isPrintable definition.securityIdSource = true :=
      isPrintable_iff.2 fun octet hoctet => h.printable octet (List.mem_append_right _ hoctet)
    rw [if_neg fun hmarket => h.market.elim hmarket.1 hmarket.2, if_neg, if_neg, if_neg]
    · exact fun hshenzhen => h.shenzhen hshenzhen.1 hshenzhen.2
    · exact fun hshanghai => hshanghai.2 (h.shanghai hshanghai.1)
    · simp only [hsecurityText, hsourceText, not_or, not_lt]
      exact ⟨h.nonempty, h.security_le, h.source_le, by simp, by simp⟩

/-- Ids and identities are distinct, and the definitions are well formed. -/
structure Proper (definitions : List InstrumentDefinition) : Prop where
  ids : (definitions.map (·.instrumentId)).Nodup
  nonzero : ∀ definition ∈ definitions, definition.instrumentId ≠ 0
  wellFormed : ∀ definition ∈ definitions, WellFormed definition
  identities : (definitions.map (·.identityKey)).Nodup

/-- The list can be continued with this definition. -/
structure Admissible (earlier : List InstrumentDefinition) (definition : InstrumentDefinition) :
    Prop where
  nonzero : definition.instrumentId ≠ 0
  id : definition.instrumentId ∉ earlier.map (·.instrumentId)
  wellFormed : WellFormed definition
  identity : definition.identityKey ∉ earlier.map (·.identityKey)

theorem proper_snoc {earlier : List InstrumentDefinition} {definition : InstrumentDefinition} :
    Proper (earlier ++ [definition]) ↔ Proper earlier ∧ Admissible earlier definition := by
  constructor
  · intro h
    have hids := h.ids
    have hidentities := h.identities
    rw [List.map_append, List.map_singleton, ← List.concat_eq_append, List.nodup_concat]
      at hids hidentities
    have hlast : definition ∈ earlier ++ [definition] := by simp
    exact ⟨⟨hids.2, fun d hd => h.nonzero d (List.mem_append_left _ hd),
        fun d hd => h.wellFormed d (List.mem_append_left _ hd), hidentities.2⟩,
      ⟨h.nonzero _ hlast, hids.1, h.wellFormed _ hlast, hidentities.1⟩⟩
  · rintro ⟨h, hnext⟩
    constructor
    · rw [List.map_append, List.map_singleton, ← List.concat_eq_append, List.nodup_concat]
      exact ⟨hnext.id, h.ids⟩
    · intro d hd
      rcases List.mem_append.1 hd with hd | hd
      · exact h.nonzero d hd
      · exact List.mem_singleton.1 hd ▸ hnext.nonzero
    · intro d hd
      rcases List.mem_append.1 hd with hd | hd
      · exact h.wellFormed d hd
      · exact List.mem_singleton.1 hd ▸ hnext.wellFormed
    · rw [List.map_append, List.map_singleton, ← List.concat_eq_append, List.nodup_concat]
      exact ⟨hnext.identity, h.identities⟩

/-! ## The table -/

variable {hash : IdentityKey → BitVec 64} {catalog catalog' : InstrumentCatalog}
  {definitions earlier : List InstrumentDefinition} {definition : InstrumentDefinition}

/-- An entry matches its own identity and no other. -/
theorem matches_entryBy (hvalid : WellFormed definition) (index : ℕ) (market : Market)
    (source security : List UInt8) :
    CatalogEntry.matches_ (entryBy hash definition index) (hash (market, source, security)) market
      source security = decide (definition.identityKey = (market, source, security)) := by
  have hsource := take_identityBytes hvalid.source_le
  have hsecurity := take_identityBytes hvalid.security_le
  rw [Bool.eq_iff_iff, decide_eq_true_iff]
  constructor
  · intro h
    obtain ⟨hmarket, hsourceSize, hsecuritySize, hsourceBytes, hsecurityBytes⟩ :=
      identity_of_matches h
    change definition.securityIdSource.length = source.length at hsourceSize
    change definition.securityId.length = security.length at hsecuritySize
    change (identityBytes definition.securityIdSource).toList.take source.length = source
      at hsourceBytes
    change (identityBytes definition.securityId).toList.take security.length = security
      at hsecurityBytes
    rw [← hsourceSize, hsource] at hsourceBytes
    rw [← hsecuritySize, hsecurity] at hsecurityBytes
    exact Prod.ext hmarket (Prod.ext hsourceBytes hsecurityBytes)
  · rintro h
    obtain ⟨rfl, hrest⟩ := Prod.mk.inj h
    obtain ⟨rfl, rfl⟩ := Prod.mk.inj hrest
    simp only [CatalogEntry.matches_, entryBy, entryOf, InstrumentDefinition.identityKey,
      beq_self_eq_true, Bool.and_self, hsource, hsecurity]

/-- The catalog holds the definitions, and its table leads to them. -/
structure Entered (hash : IdentityKey → BitVec 64) (catalog : InstrumentCatalog)
    (definitions : List InstrumentDefinition) : Prop where
  pos : 0 < catalog.capacity
  pow : isPowerOfTwo catalog.capacity = true
  entries : catalog.entries =
    definitions.mapIdx fun index definition => entryBy hash definition index
  proper : Proper definitions
  chained : LinearProbing.Chained (fun cell => slot pos (cell + 1))
    (fun key => slot pos (hash key).toNat) catalog.table (definitions.map (·.identityKey))

theorem entered_sized (hash : IdentityKey → BitVec 64) {count : ℕ} (hcount : 0 < count) :
    Entered hash (sized count) [] where
  pos := by
    have hle : count * 2 ≤ doubleUntil (count * 2) (count * 2) 1 :=
      le_doubleUntil one_pos (by omega)
    exact Nat.lt_of_lt_of_le (by omega) hle
  pow := isPowerOfTwo_doubleUntil _ _ 0
  entries := rfl
  proper := ⟨List.nodup_nil, by simp, by simp, List.nodup_nil⟩
  chained := LinearProbing.Chained.nil _ _

theorem Entered.length (h : Entered hash catalog definitions) :
    catalog.entries.length = definitions.length := by
  rw [h.entries, List.length_mapIdx]

theorem Entered.cycle (h : Entered hash catalog definitions) (at_ target : Fin catalog.capacity) :
    ∃ d < catalog.capacity,
      (fun cell : Fin catalog.capacity => slot h.pos (cell + 1))^[d] at_ = target :=
  LinearProbing.exists_iterate_eq (fun _ => and_pred_eq_mod h.pow _) at_ target

/-- The test of a probe compares identities. -/
theorem Entered.test (h : Entered hash catalog definitions) (market : Market)
    (source security : List UInt8) :
    (fun index => (catalog.entries[index]?).any fun entry =>
      CatalogEntry.matches_ entry (hash (market, source, security)) market source security) =
      LinearProbing.isKey (definitions.map (·.identityKey)) (market, source, security) := by
  funext index
  rw [LinearProbing.isKey, h.entries, List.getElem?_mapIdx, List.getElem?_map]
  rcases hdefinition : definitions[index]? with - | definition
  · rfl
  · have hvalid := h.proper.wellFormed definition (List.mem_of_getElem? hdefinition)
    rw [Option.map_some, Option.any_some, matches_entryBy hvalid, Option.map_some]
    simp only [Option.some.injEq]

/-- The probe for an identity that is there finds it, the probe for any other ends at a free
cell, and neither goes round the table. -/
theorem Entered.probe_cases (h : Entered hash catalog definitions)
    (hlt : definitions.length < catalog.capacity) (market : Market) (source security : List UInt8) :
    (∃ index definition, definitions[index]? = some definition ∧
        definition.identityKey = (market, source, security) ∧
        catalog.probe h.pos (hash (market, source, security)) market source security =
          .found index) ∨
      ((market, source, security) ∉ definitions.map (·.identityKey) ∧ ∃ at_,
        catalog.probe h.pos (hash (market, source, security)) market source security = .vacant at_ ∧
        LinearProbing.Chained (fun cell => slot h.pos (cell + 1))
          (fun key => slot h.pos (hash key).toNat)
          (Function.update catalog.table at_ (some definitions.length))
          (definitions.map (·.identityKey) ++ [(market, source, security)])) := by
  have hlen : (definitions.map (·.identityKey)).length < catalog.capacity := by
    rwa [List.length_map]
  by_cases hkey : (market, source, security) ∈ definitions.map (·.identityKey)
  · obtain ⟨index, hindex, hget⟩ := List.getElem_of_mem hkey
    have hwalk := h.chained.walk_found hindex
    rw [hget] at hwalk
    have hdefinition := List.getElem?_eq_getElem hindex
    rw [List.getElem?_map, hget, Option.map_eq_some_iff] at hdefinition
    obtain ⟨definition, hdefinition, hidentity⟩ := hdefinition
    refine Or.inl ⟨index, definition, hdefinition, hidentity, ?_⟩
    rw [probe, h.test]
    exact hwalk
  · obtain ⟨d, hd, hcell, hbefore, hwalk⟩ := h.chained.walk_vacant h.cycle hlen hkey
    have hput := h.chained.put hkey hd hcell hbefore
    rw [List.length_map] at hput
    refine Or.inr ⟨hkey, _, ?_, hput⟩
    rw [probe, h.test]
    exact hwalk

/-- One definition is entered if and only if the list can be continued with it. -/
theorem Entered.enter (h : Entered hash catalog earlier) (hlt : earlier.length < catalog.capacity)
    (definition : InstrumentDefinition) :
    (Admissible earlier definition ∧ ∃ catalog', enterBy hash catalog definition = .ok catalog' ∧
        catalog'.capacity = catalog.capacity ∧ Entered hash catalog' (earlier ++ [definition])) ∨
      (¬Admissible earlier definition ∧
        ∃ error, enterBy hash catalog definition = .error error) := by
  have hids : (catalog.entries.any fun entry =>
      entry.found.instrumentId == definition.instrumentId) =
      decide (definition.instrumentId ∈ earlier.map (·.instrumentId)) := by
    rw [h.entries, Bool.eq_iff_iff, List.any_eq_true, decide_eq_true_iff, List.mem_map]
    constructor
    · rintro ⟨entry, hentry, hid⟩
      obtain ⟨i, hi, rfl⟩ := List.mem_mapIdx.1 hentry
      exact ⟨_, List.getElem_mem hi, beq_iff_eq.1 hid⟩
    · rintro ⟨d, hd, hid⟩
      obtain ⟨i, hi, rfl⟩ := List.getElem_of_mem hd
      exact ⟨_, List.mem_mapIdx.2 ⟨i, hi, rfl⟩, beq_iff_eq.2 hid⟩
  have hhash : (entryBy hash definition catalog.entries.length).hash =
      hash (definition.market, definition.securityIdSource, definition.securityId) := rfl
  rw [enterBy, hids]
  by_cases hid : definition.instrumentId = 0 ∨
      decide (definition.instrumentId ∈ earlier.map (·.instrumentId)) = true
  · rw [if_pos hid]
    refine Or.inr ⟨fun hnext => ?_, _, rfl⟩
    exact hid.elim hnext.nonzero fun hmem => hnext.id (of_decide_eq_true hmem)
  · obtain ⟨hnonzero, hfresh⟩ := not_or.1 hid
    rw [if_neg hid]
    rcases herror : definitionError definition with - | error
    · have hvalid := definitionError_eq_none_iff.1 herror
      simp only [dif_pos h.pos, hhash]
      rcases h.probe_cases hlt definition.market definition.securityIdSource definition.securityId
        with ⟨index, found, hfound, hidentity, hprobe⟩ | ⟨hnew, at_, hprobe, hchained⟩
      · refine Or.inr ⟨fun hnext => hnext.identity ?_, "duplicate exact instrument identity", ?_⟩
        · exact List.mem_map.2 ⟨found, List.mem_of_getElem? hfound, hidentity⟩
        · rw [hprobe]
      · have hnext : Admissible earlier definition :=
          ⟨hnonzero, fun hmem => hfresh (decide_eq_true hmem), hvalid, hnew⟩
        refine Or.inl ⟨hnext,
          { catalog with
            entries := catalog.entries ++ [entryBy hash definition catalog.entries.length]
            table := Function.update catalog.table at_ (some catalog.entries.length) },
          by rw [hprobe], rfl, h.pos, h.pow, ?_, proper_snoc.2 ⟨h.proper, hnext⟩, ?_⟩
        · show catalog.entries ++ [_] = _
          rw [List.mapIdx_append, h.length, h.entries, List.mapIdx_cons, List.mapIdx_nil,
            Nat.zero_add]
        · rw [List.map_append, List.map_singleton, h.length]
          exact hchained
    · refine Or.inr ⟨fun hnext => ?_, error, rfl⟩
      rw [definitionError_eq_none_iff.2 hnext.wellFormed] at herror
      cases herror

/-- The definitions are entered one by one, as far as the list is proper. -/
theorem entered_foldlM (h : Entered hash catalog [])
    (hlt : definitions.length < catalog.capacity) :
    (Proper definitions ∧ ∃ catalog', definitions.foldlM (enterBy hash) catalog = .ok catalog' ∧
        catalog'.capacity = catalog.capacity ∧ Entered hash catalog' definitions) ∨
      (¬Proper definitions ∧
        ∃ error, definitions.foldlM (enterBy hash) catalog = .error error) := by
  induction definitions using List.reverseRecOn with
  | nil => exact Or.inl ⟨h.proper, catalog, rfl, rfl, h⟩
  | append_singleton earlier definition ih =>
    rw [List.length_append, List.length_singleton] at hlt
    rw [proper_snoc, List.foldlM_append]
    rcases ih (by omega) with ⟨hproper, before, hbefore, hcapacity, hentered⟩ |
      ⟨hbad, error, herror⟩
    · rw [hbefore]
      rcases hentered.enter (by omega) definition with
        ⟨hnext, after, hafter, hsame, hentered'⟩ | ⟨hbad, error, herror⟩
      · refine Or.inl ⟨⟨hproper, hnext⟩, after, ?_, hsame.trans hcapacity, hentered'⟩
        show [definition].foldlM (enterBy hash) before = _
        rw [List.foldlM_cons, hafter]
        rfl
      · refine Or.inr ⟨fun hall => hbad hall.2, error, ?_⟩
        show [definition].foldlM (enterBy hash) before = _
        rw [List.foldlM_cons, herror]
        rfl
    · rw [herror]
      exact Or.inr ⟨fun hall => hbad hall.1, error, rfl⟩

theorem length_lt_sized (hne : definitions ≠ []) :
    definitions.length < (sized definitions.length).capacity := by
  have hpos := List.length_pos_of_ne_nil hne
  have hle : definitions.length * 2 ≤ (sized definitions.length).capacity :=
    le_doubleUntil one_pos (by omega)
  omega

/-- What the catalog finds is exactly what it was built of. -/
theorem Entered.findBy (h : Entered hash catalog definitions)
    (hlt : definitions.length < catalog.capacity) (market : Market) (source security : List UInt8)
    (found : InstrumentMatch) :
    findBy hash catalog market source security = some found ↔
      ∃ definition, definitions[found.ordinal]? = some definition ∧
        definition.identityKey = (market, source, security) ∧
        definition.instrumentId = found.instrumentId := by
  have hheld : ∀ definition ∈ definitions, definition.identityKey = (market, source, security) →
      ¬(security = [] ∨ kMaximumIdentityBytes < source.length ∨
        kMaximumIdentityBytes < security.length) := by
    rintro definition hmem hkey
    have hvalid := h.proper.wellFormed definition hmem
    obtain ⟨-, hrest⟩ := Prod.mk.inj hkey
    obtain ⟨rfl, rfl⟩ := Prod.mk.inj hrest
    rw [not_or, not_or, not_lt, not_lt]
    exact ⟨hvalid.nonempty, hvalid.source_le, hvalid.security_le⟩
  rw [InstrumentCatalog.findBy, dif_pos h.pos]
  rcases h.probe_cases hlt market source security with
    ⟨index, definition, hdefinition, hkey, hprobe⟩ | ⟨hnew, at_, hprobe, -⟩
  · rw [if_neg (hheld definition (List.mem_of_getElem? hdefinition) hkey), hprobe]
    simp only [h.entries, List.getElem?_mapIdx, hdefinition, Option.map_some, Option.some.injEq]
    constructor
    · rintro rfl
      exact ⟨definition, hdefinition, hkey, rfl⟩
    · rintro ⟨definition', hdefinition', hkey', hid⟩
      have hidentity : (definitions.map (·.identityKey))[index]? =
          (definitions.map (·.identityKey))[found.ordinal]? := by
        rw [List.getElem?_map, List.getElem?_map, hdefinition, hdefinition', Option.map_some,
          Option.map_some, hkey, hkey']
      have hindex : index < (definitions.map (·.identityKey)).length := by
        rw [List.length_map]
        exact (List.getElem?_eq_some_iff.1 hdefinition).1
      obtain rfl := (List.getElem?_inj hindex h.proper.identities).1 hidentity
      obtain rfl := Option.some.inj (hdefinition.symm.trans hdefinition')
      obtain ⟨id, ordinal⟩ := found
      exact congrArg (InstrumentMatch.mk · ordinal) hid
  · constructor
    · intro hfind
      rw [hprobe] at hfind
      split_ifs at hfind
    · rintro ⟨definition, hdefinition, hkey, -⟩
      exact absurd (List.mem_map.2 ⟨definition, List.mem_of_getElem? hdefinition, hkey⟩) hnew

/-- `Build` either makes the catalog of a proper list or leaves the output alone. -/
theorem buildBy_cases (hash : IdentityKey → BitVec 64) {definitions : List InstrumentDefinition}
    (hlength : definitions.length < 2 ^ 32 - 1) (output : InstrumentCatalog) :
    ((definitions ≠ [] ∧ Proper definitions) ∧ ∃ built,
        buildBy hash definitions output = (none, built) ∧ Entered hash built definitions ∧
          definitions.length < built.capacity) ∨
      (¬(definitions ≠ [] ∧ Proper definitions) ∧
        ∃ error, buildBy hash definitions output = (some error, output)) := by
  rcases eq_or_ne definitions [] with rfl | hne
  · exact Or.inr ⟨fun h => h.1 rfl, _, if_pos rfl⟩
  · rw [buildBy, if_neg hne, if_neg (Nat.not_le.2 hlength)]
    have hlt := length_lt_sized hne
    rcases entered_foldlM (entered_sized hash (List.length_pos_of_ne_nil hne)) hlt with
      ⟨hproper, catalog, hok, hcapacity, hentered⟩ | ⟨hbad, error, herror⟩
    · exact Or.inl ⟨⟨hne, hproper⟩, catalog, by rw [hok], hentered, hcapacity ▸ hlt⟩
    · exact Or.inr ⟨fun h => hbad h.2, error, by rw [herror]⟩

theorem buildBy_output {hash : IdentityKey → BitVec 64} {definitions : List InstrumentDefinition}
    {output : InstrumentCatalog} (h : (buildBy hash definitions output).1 ≠ none) :
    (buildBy hash definitions output).2 = output := by
  rcases Nat.lt_or_ge definitions.length (2 ^ 32 - 1) with hlength | hlength
  · rcases buildBy_cases hash hlength output with ⟨-, built, hbuilt, -⟩ | ⟨-, error, herror⟩
    · rw [hbuilt] at h
      exact absurd rfl h
    · rw [herror]
  · rw [buildBy]
    split_ifs <;> rfl

theorem proper_of_buildBy {hash : IdentityKey → BitVec 64}
    {definitions : List InstrumentDefinition} {output : InstrumentCatalog}
    (h : (buildBy hash definitions output).1 = none) : Proper definitions := by
  rcases Nat.lt_or_ge definitions.length (2 ^ 32 - 1) with hlength | hlength
  · rcases buildBy_cases hash hlength output with ⟨hproper, -⟩ | ⟨-, error, herror⟩
    · exact hproper.2
    · rw [herror] at h
      cases h
  · rw [buildBy, if_pos hlength] at h
    split_ifs at h

/-! ## The map -/

/-- For every hash function : no probe of `Build` goes on for ever, `Build` succeeds for the lists
of distinct well-formed definitions and no others and otherwise leaves its output alone, and
`Find` returns the definition of an identity and its position. -/
theorem catalog_exact_map (hash : IdentityKey → BitVec 64)
    (definitions : List InstrumentDefinition) (hlength : definitions.length < 2 ^ 32 - 1)
    (output : InstrumentCatalog) :
    (∀ earlier definition rest, definitions = earlier ++ definition :: rest →
      ∀ catalog, earlier.foldlM (enterBy hash) (sized definitions.length) = .ok catalog →
        ∃ hpos : 0 < catalog.capacity, catalog.probe hpos (hash definition.identityKey)
          definition.market definition.securityIdSource definition.securityId ≠ .exhausted) ∧
    ((buildBy hash definitions output).1 = none ↔ definitions ≠ [] ∧ Proper definitions) ∧
    ((buildBy hash definitions output).1 ≠ none → (buildBy hash definitions output).2 = output) ∧
    ((buildBy hash definitions output).1 = none → ∀ market source security found,
      findBy hash (buildBy hash definitions output).2 market source security = some found ↔
        ∃ definition, definitions[found.ordinal]? = some definition ∧
          (definition.market = market ∧ definition.securityIdSource = source ∧
            definition.securityId = security) ∧
          definition.instrumentId = found.instrumentId) := by
  have hkey : ∀ (definition : InstrumentDefinition) (market : Market)
      (source security : List UInt8),
      definition.identityKey = (market, source, security) ↔ definition.market = market ∧
        definition.securityIdSource = source ∧ definition.securityId = security := by
    intro definition market source security
    rw [InstrumentDefinition.identityKey, Prod.mk.injEq, Prod.mk.injEq]
  refine ⟨fun earlier definition rest hsplit catalog hearlier => ?_, ?_, buildBy_output,
    fun h market source security found => ?_⟩
  · have hshort : earlier.length < definitions.length := by rw [hsplit]; simp
    have hsized := entered_sized hash (Nat.zero_lt_of_lt hshort)
    have hroom :=
      hshort.trans (length_lt_sized (List.ne_nil_of_length_pos (Nat.zero_lt_of_lt hshort)))
    rcases entered_foldlM hsized hroom with ⟨-, catalog', hok, hcapacity, hentered⟩ |
      ⟨-, error, herror⟩
    · rw [hearlier] at hok
      obtain rfl := Except.ok.inj hok
      refine ⟨hentered.pos, hentered.chained.walk_ne_exhausted hentered.cycle ?_ _ _⟩
      rw [List.length_map, hcapacity]
      exact hroom
    · rw [hearlier] at herror
      cases herror
  · rcases buildBy_cases hash hlength output with ⟨hproper, built, hbuilt, -⟩ |
      ⟨hbad, error, herror⟩
    · rw [hbuilt]
      exact ⟨fun _ => hproper, fun _ => rfl⟩
    · rw [herror]
      refine ⟨fun h => ?_, fun h => absurd h hbad⟩
      cases h
  · rcases buildBy_cases hash hlength output with ⟨-, built, hbuilt, hentered, hroom⟩ |
      ⟨-, error, herror⟩
    · rw [hbuilt, hentered.findBy hroom]
      simp only [hkey]
    · rw [herror] at h
      cases h

/-- Two definitions with one home cell. -/
def sampleDefinitions : List InstrumentDefinition :=
  [⟨3, .kShanghai, [], [0x36, 0x30]⟩, ⟨7, .kShenzhen, [0x31, 0x30, 0x32], [0x36, 0x30]⟩]

theorem catalog_exact_map_sample : sampleDefinitions.length < 2 ^ 32 - 1 ∧
    findBy (fun _ => 0) (buildBy (fun _ => 0) sampleDefinitions {}).2 .kShenzhen
      [0x31, 0x30, 0x32] [0x36, 0x30] = some ⟨7, 1⟩ := by
  have hlength : sampleDefinitions.length < 2 ^ 32 - 1 := by decide
  obtain ⟨-, -, -, hfind⟩ := catalog_exact_map (fun _ => 0) sampleDefinitions hlength {}
  refine ⟨hlength, (hfind (by decide +kernel) _ _ _ _).2 ⟨_, rfl, ?_, rfl⟩⟩
  exact ⟨rfl, rfl, rfl⟩

end InstrumentCatalog

end L2Flow
