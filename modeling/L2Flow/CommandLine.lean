import L2Flow.CatalogCsv
import L2Flow.Configuration
import L2Flow.LastWrite

/-!
# The command line

`ParseOptions` of `mdl_ingestd`. An argument is the list of its bytes. The loop goes through the
arguments with the options that were parsed so far; most options take the argument that follows, and
those of one kind differ in their name and in what they assign.

What is accepted is a sequence of settings (`Reads`), of which only the last one for each option
matters (`parse_lastWrite`), and every configuration that the options can express has a command line
(`parse_render`).
-/

namespace L2Flow

namespace CommandLine

abbrev Argument := List UInt8

/-! ## Options -/

/-- `Options`, with the part of `PhysicalSdkConfig` that the command line assigns. -/
structure Options where
  engine : ConfigRequest := {}
  sharedLibrary : Argument := []
  serverAddress : Argument := []
  userName : Argument := []
  workThreads : ℤ := 1
  sdkConsoleLog : Bool := false
  catalogPath : Argument := []
  streamConfigPath : Argument := asciiBytes "config/production.streams.conf"
  allowDiscardAfterDispatch : Bool := false
  validateOnly : Bool := false
  deriving DecidableEq

/-- The options that take an unsigned number. -/
inductive NumberOption where
  | tradeDate
  | tickLanes
  | snapshotLanes
  | instrumentWorkers
  | partialInitialHoldNs
  | partialGapWaitNs
  | fromOpenGapWaitNs
  deriving DecidableEq

/-- The options that take an `int`. -/
inductive SignedOption where
  | firstDecoderCpu
  | sdkWorkThreads
  deriving DecidableEq

/-- The options that take a text. -/
inductive TextOption where
  | catalog
  | streamConfig
  | sdkLibrary
  | server
  | user
  deriving DecidableEq

/-- The options that take nothing. -/
inductive FlagOption where
  | sdkConsoleLog
  | allowDiscardAfterDispatch
  | validateOnly
  deriving DecidableEq

/-- An option other than `--help`. -/
inductive Key where
  | mode
  | number (option : NumberOption)
  | signed (option : SignedOption)
  | text (option : TextOption)
  | flag (option : FlagOption)
  deriving DecidableEq

namespace Key

def name : Key → Argument
  | mode => asciiBytes "--mode"
  | number .tradeDate => asciiBytes "--trade-date"
  | number .tickLanes => asciiBytes "--tick-lanes"
  | number .snapshotLanes => asciiBytes "--snapshot-lanes"
  | number .instrumentWorkers => asciiBytes "--instrument-workers"
  | number .partialInitialHoldNs => asciiBytes "--partial-initial-hold-ns"
  | number .partialGapWaitNs => asciiBytes "--partial-gap-wait-ns"
  | number .fromOpenGapWaitNs => asciiBytes "--from-open-gap-wait-ns"
  | signed .firstDecoderCpu => asciiBytes "--first-decoder-cpu"
  | signed .sdkWorkThreads => asciiBytes "--sdk-work-threads"
  | text .catalog => asciiBytes "--catalog"
  | text .streamConfig => asciiBytes "--stream-config"
  | text .sdkLibrary => asciiBytes "--sdk-library"
  | text .server => asciiBytes "--server"
  | text .user => asciiBytes "--user"
  | flag .sdkConsoleLog => asciiBytes "--sdk-console-log"
  | flag .allowDiscardAfterDispatch => asciiBytes "--allow-discard-after-dispatch"
  | flag .validateOnly => asciiBytes "--validate-only"

/-- The options in the order in which the argument is compared with them. -/
def all : List Key :=
  [mode, number .tradeDate, text .catalog, text .streamConfig, text .sdkLibrary, text .server,
    text .user, number .tickLanes, number .snapshotLanes, number .instrumentWorkers,
    signed .firstDecoderCpu, number .partialInitialHoldNs, number .partialGapWaitNs,
    number .fromOpenGapWaitNs, signed .sdkWorkThreads, flag .sdkConsoleLog,
    flag .allowDiscardAfterDispatch, flag .validateOnly]

end Key

/-- What is assigned to an option. -/
inductive Setting where
  | mode (value : StartMode)
  | number (option : NumberOption) (value : ℕ)
  | signed (option : SignedOption) (value : ℤ)
  | text (option : TextOption) (value : Argument)
  | flag (option : FlagOption)
  deriving DecidableEq

namespace Setting

def key : Setting → Key
  | mode _ => .mode
  | number option _ => .number option
  | signed option _ => .signed option
  | text option _ => .text option
  | flag option => .flag option

/-- The assignment. -/
def assign (parsed : Options) : Setting → Options
  | .mode value => { parsed with engine := { parsed.engine with startMode := value } }
  | .number .tradeDate value =>
    { parsed with engine := { parsed.engine with tradeDate := .ofNat 32 value } }
  | .number .tickLanes value =>
    { parsed with engine := { parsed.engine with tickDecoderLanes := .ofNat 64 value } }
  | .number .snapshotLanes value =>
    { parsed with engine := { parsed.engine with snapshotDecoderLanes := .ofNat 64 value } }
  | .number .instrumentWorkers value =>
    { parsed with engine := { parsed.engine with instrumentWorkers := .ofNat 64 value } }
  | .number .partialInitialHoldNs value =>
    { parsed with engine := { parsed.engine with partialInitialHoldNs := .ofNat 64 value } }
  | .number .partialGapWaitNs value =>
    { parsed with engine := { parsed.engine with partialGapWaitNs := .ofNat 64 value } }
  | .number .fromOpenGapWaitNs value =>
    { parsed with engine := { parsed.engine with fromOpenGapWaitNs := .ofNat 64 value } }
  | .signed .firstDecoderCpu value =>
    { parsed with engine := { parsed.engine with firstDecoderCpu := value } }
  | .signed .sdkWorkThreads value => { parsed with workThreads := value }
  | .text .catalog value => { parsed with catalogPath := value }
  | .text .streamConfig value => { parsed with streamConfigPath := value }
  | .text .sdkLibrary value => { parsed with sharedLibrary := value }
  | .text .server value => { parsed with serverAddress := value }
  | .text .user value => { parsed with userName := value }
  | .flag .sdkConsoleLog => { parsed with sdkConsoleLog := true }
  | .flag .allowDiscardAfterDispatch => { parsed with allowDiscardAfterDispatch := true }
  | .flag .validateOnly => { parsed with validateOnly := true }

end Setting

/-! ## Parsing -/

/-- The maximum of the type that the number is parsed into. -/
def NumberOption.maximum : NumberOption → ℕ
  | .tradeDate => 2 ^ 32 - 1
  | _ => 2 ^ 64 - 1

def kMinus : UInt8 := 0x2d

/-- `ParseInteger`, into an unsigned integer. -/
def parseUnsigned (maximum : ℕ) (text : Argument) : Option ℕ :=
  match fromChars maximum text with
  | (some value, []) => some value
  | _ => none

/-- `ParseInteger`, into an `int`. -/
def parseSigned (text : Argument) : Option ℤ :=
  match text with
  | [] => none
  | octet :: digits =>
    if octet = kMinus then (parseUnsigned (2 ^ 31) digits).map fun value : ℕ => -(value : ℤ)
    else (parseUnsigned (2 ^ 31 - 1) text).map fun value : ℕ => (value : ℤ)

/-- What comes of `ParseOptions`. -/
inductive Parsed where
  /-- The usage is printed, and the process exits. -/
  | help
  | failed (error : Argument)
  | parsed (options : Options)
  deriving DecidableEq

/-- The value of an option, from the argument that follows it. -/
def readValue (key : Key) (value : Argument) : Except Argument Setting :=
  match key with
  | .mode =>
    if value = asciiBytes "from-open" then .ok (.mode .kFromOpen)
    else if value = asciiBytes "partial" then .ok (.mode .kPartial)
    else .error (asciiBytes "--mode must be from-open or partial")
  | .number option =>
    match parseUnsigned option.maximum value with
    | some value => .ok (.number option value)
    | none => .error (asciiBytes "invalid " ++ key.name)
  | .signed option =>
    match parseSigned value with
    | some value => .ok (.signed option value)
    | none => .error (asciiBytes "invalid " ++ key.name)
  | .text option => .ok (.text option value)
  | .flag option => .ok (.flag option)

/-- The error of an option that nothing follows. The empty value that it is given is no number, and
no mode. -/
def missingValue : Key → Argument
  | .mode => asciiBytes "--mode must be from-open or partial"
  | .number option => asciiBytes "invalid " ++ (Key.number option).name
  | .signed option => asciiBytes "invalid " ++ (Key.signed option).name
  | key => key.name ++ asciiBytes " requires a value"

/-- The checks after the loop. -/
def finish (parsed : Options) (modeSet : Bool) : Parsed :=
  if modeSet = false ∨ parsed.engine.tradeDate = 0 ∨ parsed.catalogPath = [] then
    .failed (asciiBytes "--mode, --trade-date, and --catalog are required")
  else if parsed.validateOnly = false ∧
      (parsed.sharedLibrary = [] ∨ parsed.serverAddress = [] ∨ parsed.userName = []) then
    .failed (asciiBytes "physical mode requires --sdk-library, --server, and --user")
  else if parsed.validateOnly = false ∧ parsed.allowDiscardAfterDispatch = false then
    .failed (asciiBytes ("this milestone requires --allow-discard-after-dispatch; no " ++
      "durable/Event sink has been connected yet"))
  else .parsed parsed

/-- The loop. -/
def parseFrom : List Argument → Options → Bool → Parsed
  | [], parsed, modeSet => finish parsed modeSet
  | argument :: rest, parsed, modeSet =>
    if argument = asciiBytes "--help" then .help
    else
      match Key.all.find? (·.name = argument) with
      | none => .failed (asciiBytes "unknown option: " ++ argument)
      | some (.flag option) => parseFrom rest (Setting.assign parsed (.flag option)) modeSet
      | some key =>
        match rest with
        | [] => .failed (missingValue key)
        | value :: rest =>
          match readValue key value with
          | .ok setting => parseFrom rest (setting.assign parsed) (modeSet || key = .mode)
          | .error error => .failed error

/-- `ParseOptions`, of the arguments that follow the name of the program. -/
def parseOptions (arguments : List Argument) : Parsed :=
  parseFrom arguments {} false

example : parseOptions ([ "--mode", "partial", "--trade-date", "20260105", "--catalog", "c",
    "--first-decoder-cpu", "-1", "--validate-only"].map asciiBytes) =
      .parsed { engine := { startMode := .kPartial, tradeDate := 20260105 },
                catalogPath := asciiBytes "c", validateOnly := true } := by
  decide +kernel

example : parseOptions [asciiBytes "--catalog"] =
    .failed (asciiBytes "--catalog requires a value") := by
  decide +kernel

/-! ## What is accepted -/

/-- The argument stands for the value of the setting. -/
def Denotes (argument : Argument) : Setting → Prop
  | .mode .kFromOpen => argument = asciiBytes "from-open"
  | .mode .kPartial => argument = asciiBytes "partial"
  | .number option value => argument ≠ [] ∧ (∀ octet ∈ argument, isDigit octet = true) ∧
      value = digitsValue argument ∧ value ≤ option.maximum
  | .signed _ value => ∃ digits, digits ≠ [] ∧ (∀ octet ∈ digits, isDigit octet = true) ∧
      ((argument = digits ∧ value = digitsValue digits ∧ value ≤ 2 ^ 31 - 1) ∨
        (argument = kMinus :: digits ∧ value = -digitsValue digits ∧ -2 ^ 31 ≤ value))
  | .text _ value => argument = value
  | .flag _ => False

/-- The arguments are the settings, one after the other. -/
inductive Reads : List Argument → List Setting → Prop where
  | nil : Reads [] []
  | flag (option : FlagOption) {arguments : List Argument} {settings : List Setting}
      (rest : Reads arguments settings) :
    Reads ((Key.flag option).name :: arguments) (.flag option :: settings)
  | value (setting : Setting) (argument : Argument) {arguments : List Argument}
      {settings : List Setting} (denotes : Denotes argument setting)
      (rest : Reads arguments settings) :
    Reads (setting.key.name :: argument :: arguments) (setting :: settings)

/-- Nothing is missing. -/
structure Complete (options : Options) : Prop where
  tradeDate : options.engine.tradeDate ≠ 0
  catalog : options.catalogPath ≠ []
  physical : options.validateOnly = true ∨ (options.sharedLibrary ≠ [] ∧
    options.serverAddress ≠ [] ∧ options.userName ≠ [] ∧ options.allowDiscardAfterDispatch = true)

theorem find_name (key : Key) : Key.all.find? (·.name = key.name) = some key := by
  rcases key with - | (_ | _ | _ | _ | _ | _ | _) | (_ | _) | (_ | _ | _ | _ | _) | (_ | _ | _)
  all_goals decide +kernel

theorem name_ne_help (key : Key) : key.name ≠ asciiBytes "--help" := by
  rcases key with - | (_ | _ | _ | _ | _ | _ | _) | (_ | _) | (_ | _ | _ | _ | _) | (_ | _ | _)
  all_goals decide +kernel

theorem finish_iff {parsed options : Options} {modeSet : Bool} :
    finish parsed modeSet = .parsed options ↔
      options = parsed ∧ modeSet = true ∧ Complete options := by
  rw [finish]
  split_ifs with hrequired hphysical hdiscard
  · refine iff_of_false (by simp) fun ⟨heq, hmode, hcomplete⟩ => ?_
    rcases hrequired with hunset | hdate | hcatalog
    · rw [hmode] at hunset
      cases hunset
    · exact hcomplete.tradeDate (heq ▸ hdate)
    · exact hcomplete.catalog (heq ▸ hcatalog)
  · refine iff_of_false (by simp) fun ⟨heq, _, hcomplete⟩ => ?_
    subst heq
    rcases hcomplete.physical with hvalidate | ⟨hlibrary, hserver, huser, -⟩
    · rw [hvalidate] at hphysical
      cases hphysical.1
    · rcases hphysical.2 with hnil | hnil | hnil
      · exact hlibrary hnil
      · exact hserver hnil
      · exact huser hnil
  · refine iff_of_false (by simp) fun ⟨heq, _, hcomplete⟩ => ?_
    subst heq
    rcases hcomplete.physical with hvalidate | ⟨-, -, -, hallow⟩
    · rw [hvalidate] at hdiscard
      cases hdiscard.1
    · rw [hallow] at hdiscard
      cases hdiscard.2
  · simp only [not_or, not_and, ← ne_eq, Bool.ne_false_iff] at hrequired hphysical hdiscard
    rw [Parsed.parsed.injEq]
    refine ⟨fun heq => ⟨heq.symm, hrequired.1, ?_⟩, fun h => h.1.symm⟩
    subst heq
    refine ⟨hrequired.2.1, hrequired.2.2, ?_⟩
    rcases hvalidate : parsed.validateOnly with - | -
    · obtain ⟨hlibrary, hserver, huser⟩ := hphysical hvalidate
      exact Or.inr ⟨hlibrary, hserver, huser, hdiscard hvalidate⟩
    · exact Or.inl rfl

theorem parseUnsigned_iff {maximum value : ℕ} {text : Argument} :
    parseUnsigned maximum text = some value ↔ text ≠ [] ∧
      (∀ octet ∈ text, isDigit octet = true) ∧ value = digitsValue text ∧ value ≤ maximum := by
  have hiff : parseUnsigned maximum text = some value ↔
      fromChars maximum text = (some value, []) := by
    rw [parseUnsigned]
    split
    · next parsed heq =>
      rw [heq, Option.some.injEq, Prod.mk.injEq, Option.some.injEq, and_iff_left rfl]
    · next hne => exact iff_of_false (by simp) fun heq => hne value heq
  rw [hiff, fromChars_eq_iff]
  constructor
  · rintro ⟨hne, hdigits, hle, rfl⟩
    exact ⟨hne, hdigits, rfl, hle⟩
  · rintro ⟨hne, hdigits, rfl, hle⟩
    exact ⟨hne, hdigits, hle, rfl⟩

theorem isDigit_minus : isDigit kMinus = false := by
  decide

theorem parseSigned_iff {text : Argument} {value : ℤ} {option : SignedOption} :
    parseSigned text = some value ↔ Denotes text (.signed option value) := by
  rw [Denotes]
  cases text with
  | nil =>
    refine iff_of_false (by simp [parseSigned]) ?_
    rintro ⟨digits, hne, -, ⟨hnil, -⟩ | ⟨hcons, -⟩⟩
    · exact hne hnil.symm
    · cases hcons
  | cons octet digits =>
    rw [parseSigned]
    split_ifs with hminus
    · subst hminus
      simp only [Option.map_eq_some_iff, parseUnsigned_iff]
      constructor
      · rintro ⟨n, ⟨hne, hdigits, rfl, hle⟩, rfl⟩
        exact ⟨digits, hne, hdigits, Or.inr ⟨rfl, rfl, by omega⟩⟩
      · rintro ⟨other, hne, hdigits, ⟨rfl, -⟩ | ⟨heq, rfl, hle⟩⟩
        · cases isDigit_minus.symm.trans (hdigits kMinus List.mem_cons_self)
        · obtain ⟨-, rfl⟩ := List.cons.inj heq
          exact ⟨_, ⟨hne, hdigits, rfl, by omega⟩, rfl⟩
    · simp only [Option.map_eq_some_iff, parseUnsigned_iff]
      constructor
      · rintro ⟨n, ⟨hne, hdigits, rfl, hle⟩, rfl⟩
        exact ⟨_, hne, hdigits, Or.inl ⟨rfl, rfl, by omega⟩⟩
      · rintro ⟨other, hne, hdigits, ⟨rfl, rfl, hle⟩ | ⟨heq, -⟩⟩
        · exact ⟨_, ⟨hne, hdigits, rfl, by omega⟩, rfl⟩
        · exact absurd (List.cons.inj heq).1 hminus

/-- What follows an option is its value if it stands for one. -/
theorem readValue_iff {key : Key} {argument : Argument} {setting : Setting}
    (hvalue : ∀ option, key ≠ .flag option) :
    readValue key argument = .ok setting ↔ setting.key = key ∧ Denotes argument setting := by
  cases key with
  | mode =>
    have hmode : readValue .mode argument = .ok setting ↔
        (argument = asciiBytes "from-open" ∧ setting = .mode .kFromOpen) ∨
          (argument = asciiBytes "partial" ∧ setting = .mode .kPartial) := by
      rw [readValue]
      split_ifs with hopen hlate
      · rw [Except.ok.injEq]
        refine ⟨fun h => Or.inl ⟨hopen, h.symm⟩, ?_⟩
        rintro (⟨-, rfl⟩ | ⟨hlate, -⟩)
        · rfl
        · exact absurd (hopen.symm.trans hlate) (by decide +kernel)
      · rw [Except.ok.injEq]
        refine ⟨fun h => Or.inr ⟨hlate, h.symm⟩, ?_⟩
        rintro (⟨heq, -⟩ | ⟨-, rfl⟩)
        · exact absurd heq hopen
        · rfl
      · refine iff_of_false (by simp) ?_
        rintro (⟨heq, -⟩ | ⟨heq, -⟩)
        · exact hopen heq
        · exact hlate heq
    rw [hmode]
    constructor
    · rintro (⟨hopen, rfl⟩ | ⟨hlate, rfl⟩)
      · exact ⟨rfl, hopen⟩
      · exact ⟨rfl, hlate⟩
    · rintro ⟨hkey, hdenotes⟩
      rcases setting with (_ | _) | _ | _ | _ | _
      · exact Or.inl ⟨hdenotes, rfl⟩
      · exact Or.inr ⟨hdenotes, rfl⟩
      all_goals cases hkey
  | number option =>
    have hnumber : readValue (.number option) argument = .ok setting ↔
        ∃ value, parseUnsigned option.maximum argument = some value ∧
          setting = .number option value := by
      rw [readValue]
      rcases parseUnsigned option.maximum argument with - | value
      · simp
      · simp [eq_comm]
    rw [hnumber]
    constructor
    · rintro ⟨value, hparsed, rfl⟩
      exact ⟨rfl, parseUnsigned_iff.1 hparsed⟩
    · rintro ⟨hkey, hdenotes⟩
      rcases setting with _ | ⟨_, value⟩ | _ | _ | _
      all_goals cases hkey
      exact ⟨value, parseUnsigned_iff.2 hdenotes, rfl⟩
  | signed option =>
    have hsigned : readValue (.signed option) argument = .ok setting ↔
        ∃ value, parseSigned argument = some value ∧ setting = .signed option value := by
      rw [readValue]
      rcases parseSigned argument with - | value
      · simp
      · simp [eq_comm]
    rw [hsigned]
    constructor
    · rintro ⟨value, hparsed, rfl⟩
      exact ⟨rfl, parseSigned_iff.1 hparsed⟩
    · rintro ⟨hkey, hdenotes⟩
      rcases setting with _ | _ | ⟨_, value⟩ | _ | _
      all_goals cases hkey
      exact ⟨value, parseSigned_iff.2 hdenotes, rfl⟩
  | text option =>
    rw [readValue, Except.ok.injEq]
    constructor
    · rintro rfl
      exact ⟨rfl, rfl⟩
    · rintro ⟨hkey, hdenotes⟩
      rcases setting with _ | _ | _ | ⟨_, value⟩ | _
      all_goals cases hkey
      rw [show argument = value from hdenotes]
  | flag option => exact absurd rfl (hvalue option)

/-- Flags take nothing, and stand for nothing. -/
theorem Denotes.key_ne_flag {argument : Argument} {setting : Setting}
    (h : Denotes argument setting) (option : FlagOption) : setting.key ≠ .flag option := by
  cases setting with
  | flag option => exact h.elim
  | _ => nofun

/-! ## One step of the loop -/

theorem parseFrom_flag (option : FlagOption) (rest : List Argument) (parsed : Options)
    (modeSet : Bool) :
    parseFrom ((Key.flag option).name :: rest) parsed modeSet =
      parseFrom rest (Setting.assign parsed (.flag option)) modeSet := by
  rw [parseFrom, if_neg (name_ne_help _), find_name]

theorem parseFrom_value {key : Key} (hvalue : ∀ option, key ≠ .flag option) (value : Argument)
    (rest : List Argument) (parsed : Options) (modeSet : Bool) :
    parseFrom (key.name :: value :: rest) parsed modeSet =
      match readValue key value with
      | .ok setting => parseFrom rest (setting.assign parsed) (modeSet || key = .mode)
      | .error error => .failed error := by
  rw [parseFrom, if_neg (name_ne_help _), find_name]
  cases key with
  | flag option => exact absurd rfl (hvalue option)
  | _ => rfl

/-- Every command line that is accepted starts with an option and its value. -/
theorem parseFrom_cases {argument : Argument} {rest : List Argument} {parsed options : Options}
    {modeSet : Bool} (h : parseFrom (argument :: rest) parsed modeSet = .parsed options) :
    (∃ option, argument = (Key.flag option).name ∧
      parseFrom rest (Setting.assign parsed (.flag option)) modeSet = .parsed options) ∨
    (∃ setting value rest', argument = setting.key.name ∧ rest = value :: rest' ∧
      Denotes value setting ∧
      parseFrom rest' (setting.assign parsed) (modeSet || setting.key = .mode) =
        .parsed options) := by
  by_cases hhelp : argument = asciiBytes "--help"
  · rw [parseFrom, if_pos hhelp] at h
    cases h
  rcases hfind : Key.all.find? (·.name = argument) with - | key
  · rw [parseFrom, if_neg hhelp, hfind] at h
    cases h
  have hname : key.name = argument := by
    simpa using List.find?_some hfind
  subst hname
  by_cases hflag : ∃ option, key = .flag option
  · obtain ⟨option, rfl⟩ := hflag
    rw [parseFrom_flag] at h
    exact Or.inl ⟨option, rfl, h⟩
  have hvalue : ∀ option, key ≠ .flag option := fun option heq => hflag ⟨option, heq⟩
  cases rest with
  | nil =>
    rw [parseFrom, if_neg hhelp, hfind] at h
    cases key with
    | flag option => exact absurd rfl (hvalue option)
    | _ => cases h
  | cons value rest =>
    rw [parseFrom_value hvalue] at h
    rcases hread : readValue key value with error | setting
    · rw [hread] at h
      cases h
    · rw [hread] at h
      obtain ⟨rfl, hdenotes⟩ := (readValue_iff hvalue).1 hread
      exact Or.inr ⟨setting, value, rest, rfl, rfl, hdenotes, h⟩

/-- The loop assigns the settings that it reads, one after the other. -/
theorem parseFrom_of_reads {arguments : List Argument} {settings : List Setting}
    (h : Reads arguments settings) (parsed : Options) (modeSet : Bool) :
    parseFrom arguments parsed modeSet =
      finish (settings.foldl Setting.assign parsed)
        (modeSet || settings.any fun setting => setting.key = .mode) := by
  induction h generalizing parsed modeSet with
  | nil => rw [parseFrom, List.any_nil, Bool.or_false, List.foldl_nil]
  | flag option rest ih =>
    rw [parseFrom_flag, ih, List.any_cons, List.foldl_cons]
    rfl
  | value setting argument denotes rest ih =>
    have hread : readValue setting.key argument = .ok setting :=
      (readValue_iff denotes.key_ne_flag).2 ⟨rfl, denotes⟩
    rw [parseFrom_value denotes.key_ne_flag, hread, List.any_cons, List.foldl_cons,
      ← Bool.or_assoc]
    exact ih _ _

/-- What is accepted is read. -/
theorem reads_of_parseFrom {arguments : List Argument} {parsed options : Options} {modeSet : Bool}
    (h : parseFrom arguments parsed modeSet = .parsed options) :
    ∃ settings, Reads arguments settings := by
  induction hlength : arguments.length using Nat.strong_induction_on
    generalizing arguments parsed modeSet with
  | _ length ih =>
    cases arguments with
    | nil => exact ⟨[], .nil⟩
    | cons argument rest =>
      rw [List.length_cons] at hlength
      rcases parseFrom_cases h with ⟨option, rfl, hrest⟩ |
        ⟨setting, value, rest', rfl, rfl, hdenotes, hrest⟩
      · obtain ⟨settings, hreads⟩ := ih rest.length (by omega) hrest rfl
        exact ⟨_, .flag option hreads⟩
      · rw [List.length_cons] at hlength
        obtain ⟨settings, hreads⟩ := ih rest'.length (by omega) hrest rfl
        exact ⟨_, .value setting value hdenotes hreads⟩

/-- Settings are accepted if the mode is among them and nothing is missing. -/
theorem Reads.parseOptions_iff {arguments : List Argument} {settings : List Setting}
    (h : Reads arguments settings) {options : Options} :
    parseOptions arguments = .parsed options ↔ (∃ setting ∈ settings, setting.key = .mode) ∧
      options = settings.foldl Setting.assign {} ∧ Complete options := by
  rw [parseOptions, parseFrom_of_reads h, finish_iff, Bool.false_or, List.any_eq_true]
  simp only [decide_eq_true_eq]
  exact and_left_comm

/-- The options that are accepted are those that a sequence of settings comes to, with the mode
among them and nothing missing. -/
theorem parse_iff {arguments : List Argument} {options : Options} :
    parseOptions arguments = .parsed options ↔
      ∃ settings, Reads arguments settings ∧ (∃ setting ∈ settings, setting.key = .mode) ∧
        options = settings.foldl Setting.assign {} ∧ Complete options := by
  constructor
  · intro h
    obtain ⟨settings, hreads⟩ := reads_of_parseFrom h
    exact ⟨settings, hreads, hreads.parseOptions_iff.1 h⟩
  · rintro ⟨settings, hreads, hsettings⟩
    exact hreads.parseOptions_iff.2 hsettings

/-! ## The last setting for each option -/

theorem lawful_assign : LastWrite.Lawful Setting.key Setting.assign where
  commute := by
    rintro s (_ | ⟨_ | _ | _ | _ | _ | _ | _, _⟩ | ⟨_ | _, _⟩ | ⟨_ | _ | _ | _ | _, _⟩ |
      (_ | _ | _)) b hkey
    all_goals
      rcases b with _ | ⟨_ | _ | _ | _ | _ | _ | _, _⟩ | ⟨_ | _, _⟩ | ⟨_ | _ | _ | _ | _, _⟩ |
        (_ | _ | _)
    all_goals first | rfl | exact absurd rfl hkey
  absorb := by
    rintro s (_ | ⟨_ | _ | _ | _ | _ | _ | _, _⟩ | ⟨_ | _, _⟩ | ⟨_ | _ | _ | _ | _, _⟩ |
      (_ | _ | _)) b hkey
    all_goals
      rcases b with _ | ⟨_ | _ | _ | _ | _ | _ | _, _⟩ | ⟨_ | _, _⟩ | ⟨_ | _ | _ | _ | _, _⟩ |
        (_ | _ | _)
    all_goals first | rfl | cases hkey

/-- Of the settings of one option only the last one matters, and the order of the options does
not. -/
theorem parse_lastWrite {arguments arguments' : List Argument} {settings settings' : List Setting}
    (hreads : Reads arguments settings) (hreads' : Reads arguments' settings')
    (hlast : ∀ key, LastWrite.lastWrite Setting.key settings key =
      LastWrite.lastWrite Setting.key settings' key) :
    parseOptions arguments = parseOptions arguments' := by
  have hmode : (settings.any fun setting => setting.key = .mode) =
      settings'.any fun setting => setting.key = .mode := by
    have hnone : LastWrite.lastWrite Setting.key settings .mode = none ↔
        ∀ setting ∈ settings, setting.key ≠ .mode := LastWrite.lastWrite_eq_none_iff
    rw [hlast, LastWrite.lastWrite_eq_none_iff] at hnone
    rw [Bool.eq_iff_iff, ← not_iff_not]
    simpa using hnone.symm
  rw [parseOptions, parseOptions, parseFrom_of_reads hreads, parseFrom_of_reads hreads', hmode,
    LastWrite.foldl_eq_of_lastWrite lawful_assign hlast]

/-- The mode and the date are set twice. -/
def twiceSet : List Argument :=
  ["--mode", "partial", "--trade-date", "20240102", "--catalog", "a.csv", "--validate-only",
    "--trade-date", "20240103", "--mode", "from-open"].map asciiBytes

def onceSet : List Argument :=
  ["--catalog", "a.csv", "--mode", "from-open", "--trade-date", "20240103",
    "--validate-only"].map asciiBytes

theorem reads_twiceSet : Reads twiceSet
    [.mode .kPartial, .number .tradeDate 20240102, .text .catalog (asciiBytes "a.csv"),
      .flag .validateOnly, .number .tradeDate 20240103, .mode .kFromOpen] :=
  .value (.mode .kPartial) _ rfl <|
    .value (.number .tradeDate 20240102) _
      ⟨by decide, List.all_eq_true.1 rfl, by decide, by decide⟩ <|
    .value (.text .catalog _) _ rfl <| .flag .validateOnly <|
    .value (.number .tradeDate 20240103) _
      ⟨by decide, List.all_eq_true.1 rfl, by decide, by decide⟩ <|
    .value (.mode .kFromOpen) _ rfl .nil

theorem reads_onceSet : Reads onceSet
    [.text .catalog (asciiBytes "a.csv"), .mode .kFromOpen, .number .tradeDate 20240103,
      .flag .validateOnly] :=
  .value (.text .catalog _) _ rfl <| .value (.mode .kFromOpen) _ rfl <|
    .value (.number .tradeDate 20240103) _
      ⟨by decide, List.all_eq_true.1 rfl, by decide, by decide⟩ <|
    .flag .validateOnly .nil

theorem parse_lastWrite_sample :
    parseOptions twiceSet = parseOptions onceSet ∧
      ∃ options, parseOptions onceSet = .parsed options := by
  refine ⟨parse_lastWrite reads_twiceSet reads_onceSet ?_, _, reads_onceSet.parseOptions_iff.2
    ⟨⟨_, List.mem_cons_of_mem _ List.mem_cons_self, rfl⟩, rfl, ?_⟩⟩
  · rintro (_ | (_ | _ | _ | _ | _ | _ | _) | (_ | _) | (_ | _ | _ | _ | _) | (_ | _ | _))
    all_goals rfl
  · exact ⟨by decide, by decide, Or.inl rfl⟩

/-! ## The command line of a configuration -/

/-- The decimal representation. -/
def numberText (value : ℕ) : Argument :=
  if value = 0 then asciiBytes "0" else InstrumentCatalog.decimalBytes value

def signedText (value : ℤ) : Argument :=
  if value < 0 then kMinus :: numberText value.natAbs else numberText value.natAbs

/-- The arguments after the name of the option. -/
def valueText : Setting → List Argument
  | .mode .kFromOpen => [asciiBytes "from-open"]
  | .mode .kPartial => [asciiBytes "partial"]
  | .number _ value => [numberText value]
  | .signed _ value => [signedText value]
  | .text _ value => [value]
  | .flag _ => []

/-- The settings of the options that take a value. -/
def valuesOf (options : Options) : List Setting :=
  [.mode options.engine.startMode,
    .number .tradeDate options.engine.tradeDate.toNat,
    .number .tickLanes options.engine.tickDecoderLanes.toNat,
    .number .snapshotLanes options.engine.snapshotDecoderLanes.toNat,
    .number .instrumentWorkers options.engine.instrumentWorkers.toNat,
    .number .partialInitialHoldNs options.engine.partialInitialHoldNs.toNat,
    .number .partialGapWaitNs options.engine.partialGapWaitNs.toNat,
    .number .fromOpenGapWaitNs options.engine.fromOpenGapWaitNs.toNat,
    .signed .firstDecoderCpu options.engine.firstDecoderCpu,
    .signed .sdkWorkThreads options.workThreads,
    .text .catalog options.catalogPath,
    .text .streamConfig options.streamConfigPath,
    .text .sdkLibrary options.sharedLibrary,
    .text .server options.serverAddress,
    .text .user options.userName]

/-- The flags that are set. -/
def flagsOf (options : Options) : List Setting :=
  (if options.sdkConsoleLog then [.flag .sdkConsoleLog] else []) ++
    (if options.allowDiscardAfterDispatch then [.flag .allowDiscardAfterDispatch] else []) ++
    (if options.validateOnly then [.flag .validateOnly] else [])

/-- Settings that come to the options. -/
def settingsOf (options : Options) : List Setting :=
  valuesOf options ++ flagsOf options

/-- A command line for the options. -/
def render (options : Options) : List Argument :=
  (settingsOf options).flatMap fun setting => setting.key.name :: valueText setting

/-- An argument is a C string, so that no byte of it is zero. -/
def IsArgument (argument : Argument) : Prop :=
  (0 : UInt8) ∉ argument

/-- The value fits an `int`. -/
def IsInt (value : ℤ) : Prop :=
  -2 ^ 31 ≤ value ∧ value ≤ 2 ^ 31 - 1

/-- What the command line can set, and nothing else, differs from the defaults. -/
structure Expressible (options : Options) : Prop where
  engine : options.engine =
    { startMode := options.engine.startMode
      tradeDate := options.engine.tradeDate
      tickDecoderLanes := options.engine.tickDecoderLanes
      snapshotDecoderLanes := options.engine.snapshotDecoderLanes
      instrumentWorkers := options.engine.instrumentWorkers
      partialInitialHoldNs := options.engine.partialInitialHoldNs
      partialGapWaitNs := options.engine.partialGapWaitNs
      fromOpenGapWaitNs := options.engine.fromOpenGapWaitNs
      firstDecoderCpu := options.engine.firstDecoderCpu }
  firstDecoderCpu : IsInt options.engine.firstDecoderCpu
  workThreads : IsInt options.workThreads
  catalogPath : IsArgument options.catalogPath
  streamConfigPath : IsArgument options.streamConfigPath
  sharedLibrary : IsArgument options.sharedLibrary
  serverAddress : IsArgument options.serverAddress
  userName : IsArgument options.userName

theorem numberText_digits (value : ℕ) :
    numberText value ≠ [] ∧ (∀ octet ∈ numberText value, isDigit octet = true) ∧
      digitsValue (numberText value) = value := by
  rw [numberText]
  split_ifs with hzero
  · rw [hzero]
    decide +kernel
  · exact ⟨InstrumentCatalog.decimalBytes_ne_nil hzero,
      InstrumentCatalog.isDigit_decimalBytes value,
      InstrumentCatalog.digitsValue_decimalBytes value⟩

theorem isArgument_numberText (value : ℕ) : IsArgument (numberText value) :=
  fun hmem => by cases (numberText_digits value).2.1 0 hmem

theorem denotes_signedText {value : ℤ} (hvalue : IsInt value) (option : SignedOption) :
    Denotes (signedText value) (.signed option value) := by
  obtain ⟨hne, hdigits, heq⟩ := numberText_digits value.natAbs
  obtain ⟨hlow, hhigh⟩ := hvalue
  refine ⟨numberText value.natAbs, hne, hdigits, ?_⟩
  rw [signedText, heq]
  split_ifs with hneg
  · exact Or.inr ⟨rfl, by omega, hlow⟩
  · exact Or.inl ⟨rfl, by omega, hhigh⟩

theorem isArgument_signedText (value : ℤ) : IsArgument (signedText value) := by
  rw [signedText]
  split_ifs
  · exact fun hmem => (List.mem_cons.1 hmem).elim (by decide) (isArgument_numberText _)
  · exact isArgument_numberText _

/-- The setting can be written. -/
def Writable : Setting → Prop
  | .number option value => value ≤ option.maximum
  | .signed _ value => IsInt value
  | .text _ value => IsArgument value
  | _ => True

theorem reads_flatMap {settings : List Setting} (h : ∀ setting ∈ settings, Writable setting) :
    Reads (settings.flatMap fun setting => setting.key.name :: valueText setting) settings := by
  induction settings with
  | nil => exact .nil
  | cons setting settings ih =>
    have hrest := ih fun other hmem => h other (List.mem_cons_of_mem _ hmem)
    have hwritable := h setting List.mem_cons_self
    rw [List.flatMap_cons]
    rcases setting with (_ | _) | ⟨option, value⟩ | ⟨option, value⟩ | ⟨option, value⟩ | option
    · exact .value _ _ rfl hrest
    · exact .value _ _ rfl hrest
    · obtain ⟨hne, hdigits, heq⟩ := numberText_digits value
      exact .value (.number option value) (numberText value)
        ⟨hne, hdigits, heq.symm, hwritable⟩ hrest
    · exact .value (.signed option value) _ (denotes_signedText hwritable option) hrest
    · exact .value (.text option value) value rfl hrest
    · exact .flag option hrest

theorem isArgument_name (key : Key) : IsArgument key.name := by
  rcases key with _ | (_ | _ | _ | _ | _ | _ | _) | (_ | _) | (_ | _ | _ | _ | _) | (_ | _ | _)
  all_goals
    rw [IsArgument]
    decide +kernel

theorem isArgument_valueText {setting : Setting} (h : Writable setting) :
    ∀ argument ∈ valueText setting, IsArgument argument := by
  rcases setting with (_ | _) | ⟨option, value⟩ | ⟨option, value⟩ | ⟨option, value⟩ | option
  · exact List.forall_mem_singleton.2 (by rw [IsArgument]; decide +kernel)
  · exact List.forall_mem_singleton.2 (by rw [IsArgument]; decide +kernel)
  · exact List.forall_mem_singleton.2 (isArgument_numberText value)
  · exact List.forall_mem_singleton.2 (isArgument_signedText value)
  · exact List.forall_mem_singleton.2 h
  · exact List.forall_mem_nil _

theorem writable_settingsOf {options : Options} (h : Expressible options) :
    ∀ setting ∈ settingsOf options, Writable setting := by
  have htext {option : TextOption} {value : Argument} (hvalue : IsArgument value) :
      Writable (.text option value) := hvalue
  have hword (option : NumberOption) (value : Word) (hoption : option ≠ .tradeDate) :
      Writable (.number option value.toNat) := by
    have := value.isLt
    cases option with
    | tradeDate => exact absurd rfl hoption
    | _ => exact Nat.le_sub_one_of_lt this
  have hflag {flag : Bool} {setting : Setting} {option : FlagOption}
      (hmem : setting ∈ if flag then [Setting.flag option] else []) : Writable setting := by
    split_ifs at hmem
    · rw [List.mem_singleton.1 hmem]
      trivial
    · cases hmem
  intro setting hmem
  rw [settingsOf, List.mem_append] at hmem
  rcases hmem with hmem | hmem
  · simp only [valuesOf, List.mem_cons, List.not_mem_nil, or_false] at hmem
    rcases hmem with rfl | rfl | rfl | rfl | rfl | rfl | rfl | rfl | rfl | rfl | rfl | rfl | rfl |
      rfl | rfl
    · trivial
    · exact Nat.le_sub_one_of_lt options.engine.tradeDate.isLt
    iterate 6 exact hword _ _ nofun
    · exact h.firstDecoderCpu
    · exact h.workThreads
    · exact htext h.catalogPath
    · exact htext h.streamConfigPath
    · exact htext h.sharedLibrary
    · exact htext h.serverAddress
    · exact htext h.userName
  · rw [flagsOf, List.mem_append, List.mem_append] at hmem
    rcases hmem with (hmem | hmem) | hmem
    · exact hflag hmem
    · exact hflag hmem
    · exact hflag hmem

theorem isArgument_render {options : Options} (h : Expressible options) :
    ∀ argument ∈ render options, IsArgument argument := by
  intro argument hmem
  obtain ⟨setting, hsetting, hargument⟩ := List.mem_flatMap.1 hmem
  rcases List.mem_cons.1 hargument with rfl | hargument
  · exact isArgument_name setting.key
  · exact isArgument_valueText (writable_settingsOf h setting hsetting) argument hargument

theorem foldl_valuesOf {options : Options} (h : Expressible options) :
    (valuesOf options).foldl Setting.assign {} =
      { options with
        sdkConsoleLog := false, allowDiscardAfterDispatch := false, validateOnly := false } := by
  have hword {width : ℕ} (value : BitVec width) : BitVec.ofNat width value.toNat = value :=
    BitVec.eq_of_toNat_eq (by rw [BitVec.toNat_ofNat, Nat.mod_eq_of_lt value.isLt])
  calc (valuesOf options).foldl Setting.assign {}
    _ = { engine :=
            { startMode := options.engine.startMode
              tradeDate := .ofNat 32 options.engine.tradeDate.toNat
              tickDecoderLanes := .ofNat 64 options.engine.tickDecoderLanes.toNat
              snapshotDecoderLanes := .ofNat 64 options.engine.snapshotDecoderLanes.toNat
              instrumentWorkers := .ofNat 64 options.engine.instrumentWorkers.toNat
              partialInitialHoldNs := .ofNat 64 options.engine.partialInitialHoldNs.toNat
              partialGapWaitNs := .ofNat 64 options.engine.partialGapWaitNs.toNat
              fromOpenGapWaitNs := .ofNat 64 options.engine.fromOpenGapWaitNs.toNat
              firstDecoderCpu := options.engine.firstDecoderCpu }
          sharedLibrary := options.sharedLibrary
          serverAddress := options.serverAddress
          userName := options.userName
          workThreads := options.workThreads
          catalogPath := options.catalogPath
          streamConfigPath := options.streamConfigPath } := rfl
    _ = _ := by
      simp only [hword]
      rw [← h.engine]

/-- The settings of the options come to the options. -/
theorem foldl_settingsOf {options : Options} (h : Expressible options) :
    (settingsOf options).foldl Setting.assign {} = options := by
  rw [settingsOf, List.foldl_append, foldl_valuesOf h, flagsOf]
  obtain ⟨engine, library, server, user, threads, console, catalog, stream, allow, validate⟩ :=
    options
  cases console <;> cases allow <;> cases validate <;> rfl

theorem parse_render {options : Options} (h : Expressible options) (hcomplete : Complete options) :
    parseOptions (render options) = .parsed options :=
  (reads_flatMap (writable_settingsOf h)).parseOptions_iff.2
    ⟨⟨_, List.mem_cons_self, rfl⟩, (foldl_settingsOf h).symm, hcomplete⟩

theorem Denotes.writable {argument : Argument} {setting : Setting} (h : Denotes argument setting)
    (hargument : IsArgument argument) : Writable setting := by
  rcases setting with _ | ⟨option, value⟩ | ⟨option, value⟩ | ⟨option, value⟩ | option
  · trivial
  · exact h.2.2.2
  · obtain ⟨digits, -, -, ⟨-, rfl, hle⟩ | ⟨-, rfl, hle⟩⟩ := h
    · exact ⟨by omega, hle⟩
    · exact ⟨hle, by omega⟩
  · rw [Writable, ← show argument = value from h]
    exact hargument
  · exact h.elim

theorem Expressible.assign {parsed : Options} {setting : Setting} (h : Expressible parsed)
    (hwritable : Writable setting) : Expressible (setting.assign parsed) := by
  rcases setting with value | ⟨option, value⟩ | ⟨option, value⟩ | ⟨option, value⟩ | option
  · exact { h with
      engine := congrArg (fun engine => { engine with startMode := value }) h.engine }
  · cases option with
    | tradeDate =>
      exact { h with
        engine := congrArg (fun engine => { engine with tradeDate := .ofNat 32 value }) h.engine }
    | tickLanes =>
      exact { h with
        engine := congrArg (fun engine =>
          { engine with tickDecoderLanes := .ofNat 64 value }) h.engine }
    | snapshotLanes =>
      exact { h with
        engine := congrArg (fun engine =>
          { engine with snapshotDecoderLanes := .ofNat 64 value }) h.engine }
    | instrumentWorkers =>
      exact { h with
        engine := congrArg (fun engine =>
          { engine with instrumentWorkers := .ofNat 64 value }) h.engine }
    | partialInitialHoldNs =>
      exact { h with
        engine := congrArg (fun engine =>
          { engine with partialInitialHoldNs := .ofNat 64 value }) h.engine }
    | partialGapWaitNs =>
      exact { h with
        engine := congrArg (fun engine =>
          { engine with partialGapWaitNs := .ofNat 64 value }) h.engine }
    | fromOpenGapWaitNs =>
      exact { h with
        engine := congrArg (fun engine =>
          { engine with fromOpenGapWaitNs := .ofNat 64 value }) h.engine }
  · cases option with
    | firstDecoderCpu =>
      exact { h with
        engine := congrArg (fun engine => { engine with firstDecoderCpu := value }) h.engine
        firstDecoderCpu := hwritable }
    | sdkWorkThreads => exact { h with workThreads := hwritable }
  · cases option with
    | catalog => exact { h with catalogPath := hwritable }
    | streamConfig => exact { h with streamConfigPath := hwritable }
    | sdkLibrary => exact { h with sharedLibrary := hwritable }
    | server => exact { h with serverAddress := hwritable }
    | user => exact { h with userName := hwritable }
  · cases option with
    | _ => exact { h with }

theorem expressible_default : Expressible {} where
  engine := rfl
  firstDecoderCpu := by constructor <;> decide
  workThreads := by constructor <;> decide
  catalogPath := List.not_mem_nil
  streamConfigPath := by
    rw [IsArgument]
    decide +kernel
  sharedLibrary := List.not_mem_nil
  serverAddress := List.not_mem_nil
  userName := List.not_mem_nil

theorem Reads.expressible {arguments : List Argument} {settings : List Setting}
    (h : Reads arguments settings) (harguments : ∀ argument ∈ arguments, IsArgument argument)
    {parsed : Options} (hparsed : Expressible parsed) :
    Expressible (settings.foldl Setting.assign parsed) := by
  induction h generalizing parsed with
  | nil => exact hparsed
  | flag option rest ih =>
    exact ih (fun argument hmem => harguments argument (List.mem_cons_of_mem _ hmem))
      (hparsed.assign trivial)
  | value setting argument denotes rest ih =>
    obtain ⟨-, hargument, hrest⟩ := List.forall_mem_cons.1 harguments |>.imp_right
      List.forall_mem_cons.1
    exact ih hrest (hparsed.assign (denotes.writable hargument))

/-- The configurations that a command line comes to are those that the options can express, with
nothing missing. -/
theorem expressible_iff {options : Options} :
    (∃ arguments, (∀ argument ∈ arguments, IsArgument argument) ∧
        parseOptions arguments = .parsed options) ↔ Expressible options ∧ Complete options := by
  constructor
  · rintro ⟨arguments, harguments, hparsed⟩
    obtain ⟨settings, hreads⟩ := reads_of_parseFrom hparsed
    obtain ⟨-, rfl, hcomplete⟩ := hreads.parseOptions_iff.1 hparsed
    exact ⟨hreads.expressible harguments expressible_default, hcomplete⟩
  · rintro ⟨h, hcomplete⟩
    exact ⟨render options, isArgument_render h, parse_render h hcomplete⟩

end CommandLine

end L2Flow
