import HandHistory.Settings

/-!
# Layers of settings

What the layers set is a function of the layer, and a setting is to have the value of the
highest layer that sets it and to name that layer: `Sourced.IsTopmost`. There is just one such
value, so all layers together have one `Settings` to them, `Layers.settings`. A run comes to
these unless there is a fault, and `Layers.resolved_eq` tells which fault it is.

The settings below the command line are judged first, and those of all layers at last.
-/

namespace HandHistory

/-- How high a layer is; a higher one overrides a lower one. -/
def Layer.height : Layer → Nat
  | .default => 0
  | .file => 1
  | .environment => 2
  | .commandLine => 3

theorem Layer.eq_of_height_eq {layer other : Layer} (same : layer.height = other.height) :
    layer = other := by
  cases layer <;> cases other <;> first | rfl | cases same

namespace Sourced

variable {α : Type} {sets : Layer → Option α} {setting other : Sourced α}

/-- The setting has the value of the highest layer that sets it, and names this layer. -/
structure IsTopmost (sets : Layer → Option α) (setting : Sourced α) : Prop where
  isSet : sets setting.source = some setting.value
  silent : ∀ layer : Layer, setting.source.height < layer.height → sets layer = none

theorem IsTopmost.source_le (top : setting.IsTopmost sets) (another : other.IsTopmost sets) :
    setting.source.height ≤ other.source.height := by
  by_cases above : other.source.height < setting.source.height
  · have unset := another.silent _ above
    rw [top.isSet] at unset
    cases unset
  · omega

theorem IsTopmost.unique (top : setting.IsTopmost sets) (another : other.IsTopmost sets) :
    setting = other := by
  have same : setting.source = other.source :=
    Layer.eq_of_height_eq (Nat.le_antisymm (top.source_le another) (another.source_le top))
  have value := top.isSet
  rw [same, another.isSet] at value
  cases setting
  cases other
  cases same
  cases value
  rfl

/-- The same among the layers up to one of them. -/
structure IsTopmostUpTo (top : Layer) (sets : Layer → Option α) (setting : Sourced α) :
    Prop where
  isSet : sets setting.source = some setting.value
  source_le : setting.source.height ≤ top.height
  silent : ∀ layer : Layer, setting.source.height < layer.height →
    layer.height ≤ top.height → sets layer = none

theorem IsTopmostUpTo.overriddenBy {lower : Layer} (top : setting.IsTopmostUpTo lower sets)
    (upper : Layer) (next : upper.height = lower.height + 1) :
    (setting.overriddenBy upper (sets upper)).IsTopmostUpTo upper sets := by
  have source_le := top.source_le
  cases set : sets upper with
  | some value =>
    refine ⟨set, Nat.le_refl _, fun layer above within => ?_⟩
    exact absurd within (Nat.not_le_of_lt above)
  | none =>
    rw [overriddenBy_none]
    refine ⟨top.isSet, by omega, fun layer above within => ?_⟩
    by_cases same : layer.height = upper.height
    · rw [Layer.eq_of_height_eq same]
      exact set
    · exact top.silent layer above (by omega)

/-- A default with what the other layers set on top of it, layer by layer. -/
def topmost (default : α) (sets : Layer → Option α) : Sourced α :=
  (((⟨default, .default⟩ : Sourced α).overriddenBy .file (sets .file)).overriddenBy
    .environment (sets .environment)).overriddenBy .commandLine (sets .commandLine)

theorem isTopmost_topmost {default : α} (spoken : sets .default = some default) :
    (topmost default sets).IsTopmost sets := by
  have bottom : (⟨default, .default⟩ : Sourced α).IsTopmostUpTo .default sets :=
    ⟨spoken, Nat.le_refl _, fun layer above within => absurd within (Nat.not_le_of_lt above)⟩
  have file := bottom.overriddenBy .file rfl
  have environment := file.overriddenBy .environment rfl
  have commandLine := environment.overriddenBy .commandLine rfl
  refine ⟨commandLine.isSet, fun layer above => commandLine.silent layer above ?_⟩
  cases layer <;> decide

/-- What the command line sets stands in the place of all else. -/
theorem topmost_of_commandLine {default value : α} (isSet : sets .commandLine = some value) :
    topmost default sets = ⟨value, .commandLine⟩ := by
  rw [topmost, isSet, overriddenBy_some]

end Sourced

/-! ## What the layers set -/

namespace Environment

variable {α : Type}

/-- The value of a variable that is given, if it can be read. -/
def value? (read : Text → Except SettingsError α) (text? : Option Text) : Option α :=
  (given text?).bind fun value => (read value).toOption

/-- The fault of a variable that is given and cannot be read. -/
def fault? (read : Text → Except SettingsError α) (text? : Option Text) :
    Option SettingsError :=
  (given text?).bind fun value =>
    match read value with
    | .ok _ => none
    | .error fault => some fault

theorem mapM_given (read : Text → Except SettingsError α) (text? : Option Text) :
    (given text?).mapM read =
      (fault? read text?).elim (.ok (value? read text?)) .error := by
  rw [fault?, value?]
  cases given text? with
  | none => rfl
  | some value =>
    rw [Option.mapM_some, Option.bind_some, Option.bind_some]
    cases read value <;> rfl

theorem given_eq_some_iff {text? : Option Text} {value : Text} :
    given text? = some value ↔ text? = some value ∧ value ≠ [] := by
  simp [given, Option.filter_eq_some_iff]

theorem fault?_eq_none_iff {read : Text → Except SettingsError α} {text? : Option Text} :
    fault? read text? = none ↔
      ∀ value, text? = some value → value ≠ [] → ∃ a, read value = .ok a := by
  simp only [fault?, Option.bind_eq_none_iff, given_eq_some_iff, and_imp]
  refine forall₃_congr fun value _ _ => ?_
  cases read value <;> simp

end Environment

/-- What each layer sets. -/
def Layer.sets {α : Type} (default : α) (file? environment? commandLine? : Option α) :
    Layer → Option α
  | .default => some default
  | .file => file?
  | .environment => environment?
  | .commandLine => commandLine?

/-- The layers above the defaults. -/
structure Layers where
  file? : Option FileSettings := none
  environment : Environment := {}
  overrides : Overrides := {}

namespace Layers

variable (layers : Layers)

def roomOf : Layer → Option Room :=
  Layer.sets .winamax (layers.file?.bind FileSettings.room?)
    (Environment.value? Environment.readRoom layers.environment.site) layers.overrides.room?

def historyDirOf : Layer → Option (Option Text) :=
  Layer.sets none ((layers.file?.bind FileSettings.historyDir?).map some)
    ((Environment.given layers.environment.historyDir).map some)
    (layers.overrides.historyDir?.map some)

def workersOf : Layer → Option (Option Nat) :=
  Layer.sets none ((layers.file?.bind FileSettings.workers?).map some)
    ((Environment.value? Environment.readWorkers layers.environment.workers).map some)
    (layers.overrides.workers?.map some)

/-- The environment does not set the flag. -/
def jsonOf : Layer → Option Bool :=
  Layer.sets false (layers.file?.bind FileSettings.json?) none
    (if layers.overrides.json then some true else none)

/-- The settings of the layers, if there is no fault. -/
def settings : Settings where
  room := .topmost .winamax layers.roomOf
  historyDir := .topmost none layers.historyDirOf
  workers := .topmost none layers.workersOf
  json := .topmost false layers.jsonOf

/-- The layers without the command line. -/
def below : Layers := { layers with overrides := {} }

/-- What a run makes of the layers. -/
def resolved : Except SettingsError Settings :=
  Settings.resolved layers.file? layers.environment layers.overrides

/-- What a run makes of the layers below the command line. -/
def layered : Except SettingsError Settings :=
  Settings.layered layers.file? layers.environment

end Layers

/-! ## Faults -/

namespace Settings

def fault? (settings : Settings) : Option SettingsError :=
  if settings.workers.value = some 0 then some .noWorkers
  else if settings.historyDir.value = some [] then some .emptyHistoryDir
  else none

theorem fault?_congr {settings other : Settings}
    (workers : settings.workers.value = some 0 ↔ other.workers.value = some 0)
    (historyDir : settings.historyDir.value = some [] ↔ other.historyDir.value = some []) :
    settings.fault? = other.fault? := by
  simp only [fault?, workers, historyDir]

theorem check_eq (settings : Settings) :
    settings.check = settings.fault?.elim (.ok settings) .error := by
  rw [check, fault?]
  split
  · rfl
  · split <;> rfl

end Settings

namespace Layers

variable (layers : Layers)

/-- The fault of a name in the environment that chooses no room. -/
def siteFault? : Option SettingsError :=
  Environment.fault? Environment.readRoom layers.environment.site

/-- The fault of a number in the environment that is none. -/
def workersFault? : Option SettingsError :=
  Environment.fault? Environment.readWorkers layers.environment.workers

theorem withEnvironment_eq :
    (layers.file?.elim {} ({} : Settings).withFile).withEnvironment layers.environment =
      (layers.siteFault?.or layers.workersFault?).elim (.ok layers.below.settings) .error := by
  rw [Settings.withEnvironment, Environment.mapM_given, Environment.mapM_given, siteFault?,
    workersFault?]
  cases Environment.fault? Environment.readRoom layers.environment.site with
  | some fault => rfl
  | none =>
    cases Environment.fault? Environment.readWorkers layers.environment.workers with
    | some fault => rfl
    | none =>
      obtain ⟨file?, environment, overrides⟩ := layers
      cases file? <;> rfl

theorem layered_eq :
    layers.layered = ((layers.siteFault?.or layers.workersFault?).or
      layers.below.settings.fault?).elim (.ok layers.below.settings) .error := by
  rw [layered, Settings.layered, withEnvironment_eq]
  cases layers.siteFault?.or layers.workersFault? with
  | some fault => rfl
  | none => exact Settings.check_eq _

/-- The settings of the layers, or else the first fault: of the names and numbers in the
environment, of the settings below the command line, of all settings. -/
theorem resolved_eq :
    layers.resolved = (((layers.siteFault?.or layers.workersFault?).or
      layers.below.settings.fault?).or layers.settings.fault?).elim
        (.ok layers.settings) .error := by
  have first := layers.layered_eq
  rw [layered] at first
  rw [resolved, Settings.resolved, first]
  cases (layers.siteFault?.or layers.workersFault?).or layers.below.settings.fault? with
  | some fault => rfl
  | none => exact Settings.check_eq _

theorem elim_eq_ok_iff {α ε : Type} {fault? : Option ε} {value other : α} :
    fault?.elim (Except.ok value) Except.error = .ok other ↔ fault? = none ∧ other = value := by
  cases fault? with
  | none => simp [eq_comm]
  | some fault => simp

end Layers

/-! ## The settings of all layers -/

/-- The names and numbers that the environment gives can be read. -/
structure Environment.Readable (environment : Environment) : Prop where
  site : ∀ name, environment.site = some name → name ≠ [] → ∃ room, readRoom name = .ok room
  workers : ∀ value, environment.workers = some value → value ≠ [] →
    ∃ n, readWorkers value = .ok n

theorem Layers.faults_eq_none_iff {layers : Layers} :
    layers.siteFault?.or layers.workersFault? = none ↔ layers.environment.Readable := by
  rw [Option.or_eq_none_iff, siteFault?, workersFault?, Environment.fault?_eq_none_iff,
    Environment.fault?_eq_none_iff]
  exact ⟨fun both => ⟨both.1, both.2⟩, fun readable => ⟨readable.site, readable.workers⟩⟩

namespace Settings

/-- There are workers, and the directory has a name, if they are set at all. -/
structure Usable (settings : Settings) : Prop where
  workers_ne : settings.workers.value ≠ some 0
  historyDir_ne : settings.historyDir.value ≠ some []

theorem fault?_eq_none_iff {settings : Settings} : settings.fault? = none ↔ settings.Usable := by
  rw [fault?]
  constructor
  · intro faultless
    split at faultless
    · cases faultless
    · next workers =>
      split at faultless
      · cases faultless
      · next historyDir => exact ⟨workers, historyDir⟩
  · intro usable
    rw [if_neg usable.workers_ne, if_neg usable.historyDir_ne]

/-- Every setting has the value of the highest layer that sets it, and names this layer. So
the flag is raised just if it is given, or else as the file has it. -/
structure AreOf (layers : Layers) (settings : Settings) : Prop where
  room : settings.room.IsTopmost layers.roomOf
  historyDir : settings.historyDir.IsTopmost layers.historyDirOf
  workers : settings.workers.IsTopmost layers.workersOf
  json : settings.json.IsTopmost layers.jsonOf
  json_value : settings.json.value =
    (layers.overrides.json || (layers.file?.bind FileSettings.json?).getD false)

theorem areOf_settings (layers : Layers) : layers.settings.AreOf layers where
  room := Sourced.isTopmost_topmost rfl
  historyDir := Sourced.isTopmost_topmost rfl
  workers := Sourced.isTopmost_topmost rfl
  json := Sourced.isTopmost_topmost rfl
  json_value := by
    simp only [Layers.settings, Sourced.topmost, Layers.jsonOf, Layer.sets]
    cases layers.overrides.json with
    | true => rfl
    | false => cases layers.file?.bind FileSettings.json? <;> rfl

theorem areOf_iff {layers : Layers} {settings : Settings} :
    settings.AreOf layers ↔ settings = layers.settings := by
  have these := areOf_settings layers
  constructor
  · intro areOf
    have room := areOf.room.unique these.room
    have historyDir := areOf.historyDir.unique these.historyDir
    have workers := areOf.workers.unique these.workers
    have json := areOf.json.unique these.json
    cases settings
    cases room
    cases historyDir
    cases workers
    cases json
    rfl
  · rintro rfl
    exact these

end Settings

namespace Layers

variable (layers : Layers)

theorem layered_eq_ok_iff {settings : Settings} :
    layers.layered = .ok settings ↔
      layers.environment.Readable ∧ settings.AreOf layers.below ∧ settings.Usable := by
  rw [layered_eq, elim_eq_ok_iff, Option.or_eq_none_iff, faults_eq_none_iff,
    Settings.fault?_eq_none_iff, Settings.areOf_iff]
  constructor
  · rintro ⟨⟨readable, usable⟩, rfl⟩
    exact ⟨readable, rfl, usable⟩
  · rintro ⟨readable, rfl, usable⟩
    exact ⟨⟨readable, usable⟩, rfl⟩

theorem resolved_eq_ok_iff {settings : Settings} :
    layers.resolved = .ok settings ↔
      (∃ below, layers.layered = .ok below) ∧ settings.AreOf layers ∧ settings.Usable := by
  rw [resolved_eq, elim_eq_ok_iff, Option.or_eq_none_iff, Settings.fault?_eq_none_iff,
    Settings.areOf_iff]
  simp only [layered_eq, elim_eq_ok_iff]
  constructor
  · rintro ⟨⟨faultless, usable⟩, rfl⟩
    exact ⟨⟨layers.below.settings, faultless, rfl⟩, rfl, usable⟩
  · rintro ⟨⟨_, faultless, _⟩, rfl, usable⟩
    exact ⟨⟨faultless, usable⟩, rfl⟩

theorem resolved_below : layers.below.resolved = layers.layered := by
  have twice : ∀ fault? other? : Option SettingsError,
      (fault?.or other?).or other? = fault?.or other? := by
    intro fault? other?
    rw [Option.or_assoc, Option.or_self]
  rw [layered_eq, ← twice]
  exact layers.below.resolved_eq

/-- A run comes to settings just if the environment can be read and the settings below the
command line and those of all layers are usable. Then every setting has the value of the
highest layer that sets it, and names this layer. -/
theorem resolved_iff_layered :
    (∀ settings, layers.resolved = .ok settings ↔
      layers.environment.Readable ∧
      (∃ below : Settings, below.AreOf layers.below ∧ below.Usable) ∧
      settings.AreOf layers ∧ settings.Usable) ∧
    (∀ settings, layers.layered = .ok settings ↔
      layers.environment.Readable ∧ settings.AreOf layers.below ∧ settings.Usable) ∧
    layers.below.resolved = layers.layered ∧
    ∀ reader tree, Settings.resolve reader tree layers.environment {} =
      Settings.load reader tree layers.environment := by
  refine ⟨fun settings => ?_, fun settings => layers.layered_eq_ok_iff, layers.resolved_below, ?_⟩
  · rw [resolved_eq_ok_iff]
    simp only [layered_eq_ok_iff]
    constructor
    · rintro ⟨⟨below, readable, areOf, usable⟩, these⟩
      exact ⟨readable, ⟨below, areOf, usable⟩, these⟩
    · rintro ⟨readable, ⟨below, areOf, usable⟩, these⟩
      exact ⟨⟨below, readable, areOf, usable⟩, these⟩
  · intro reader tree
    rw [Settings.resolve, Settings.load]
    refine congrArg (layers.environment.readFile reader tree >>= ·) (funext fun file? => ?_)
    exact ({ file?, environment := layers.environment } : Layers).resolved_below

end Layers

end HandHistory
