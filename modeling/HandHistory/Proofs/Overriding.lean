import HandHistory.Proofs.Layers

/-!
# Values of the command line

A value that the command line gives is the one that its setting has in the end, whatever the
file and the environment say about the setting. Two runs that differ only there come to the
same settings or to the same error, if what is said there would do by itself.

Otherwise they need not. The settings below the command line are judged before its values take
their place, so that a room that nobody knows, a number of workers that is none, zero workers
and an empty directory fail a run for which the command line has another value. The file and
the environment are judged together: zero workers of the file pass if the environment has more.
-/

namespace HandHistory

/-- The settings to which the command line gives values. -/
inductive Setting where
  | room
  | historyDir
  | workers

/-- The command line gives the setting a value that can be used. -/
def Overrides.Gives (overrides : Overrides) : Setting → Prop
  | .room => ∃ room, overrides.room? = some room
  | .historyDir => ∃ dir, overrides.historyDir? = some dir ∧ dir ≠ []
  | .workers => ∃ n, overrides.workers? = some n ∧ 1 ≤ n

namespace Layers

/-- The layers differ at most in what the file and the environment say about one setting. -/
structure SameBeside (setting : Setting) (layers others : Layers) : Prop where
  room : setting ≠ .room →
    layers.file?.bind FileSettings.room? = others.file?.bind FileSettings.room? ∧
    layers.environment.site = others.environment.site
  historyDir : setting ≠ .historyDir →
    layers.file?.bind FileSettings.historyDir? = others.file?.bind FileSettings.historyDir? ∧
    layers.environment.historyDir = others.environment.historyDir
  workers : setting ≠ .workers →
    layers.file?.bind FileSettings.workers? = others.file?.bind FileSettings.workers? ∧
    layers.environment.workers = others.environment.workers
  json : layers.file?.bind FileSettings.json? = others.file?.bind FileSettings.json?
  overrides : layers.overrides = others.overrides

/-- What the file and the environment say about a setting would do without the command line. -/
def Accepted (layers : Layers) : Setting → Prop
  | .room => ∀ name, layers.environment.site = some name → name ≠ [] →
      ∃ room, Environment.readRoom name = .ok room
  | .historyDir => layers.below.settings.historyDir.value ≠ some []
  | .workers => (∀ value, layers.environment.workers = some value → value ≠ [] →
      ∃ n, Environment.readWorkers value = .ok n) ∧ layers.below.settings.workers.value ≠ some 0

variable {layers others : Layers} {setting : Setting}

namespace SameBeside

theorem below (same : SameBeside setting layers others) :
    SameBeside setting layers.below others.below :=
  ⟨same.room, same.historyDir, same.workers, same.json, rfl⟩

theorem roomOf_eq (same : SameBeside setting layers others) (another : setting ≠ .room) :
    layers.roomOf = others.roomOf := by
  obtain ⟨file, environment⟩ := same.room another
  rw [roomOf, roomOf, file, environment, same.overrides]

theorem historyDirOf_eq (same : SameBeside setting layers others)
    (another : setting ≠ .historyDir) : layers.historyDirOf = others.historyDirOf := by
  obtain ⟨file, environment⟩ := same.historyDir another
  rw [historyDirOf, historyDirOf, file, environment, same.overrides]

theorem workersOf_eq (same : SameBeside setting layers others)
    (another : setting ≠ .workers) : layers.workersOf = others.workersOf := by
  obtain ⟨file, environment⟩ := same.workers another
  rw [workersOf, workersOf, file, environment, same.overrides]

theorem jsonOf_eq (same : SameBeside setting layers others) :
    layers.jsonOf = others.jsonOf := by
  rw [jsonOf, jsonOf, same.json, same.overrides]

end SameBeside

/-! ## What is given hides what is below -/

theorem room_settings {room : Room} (given : layers.overrides.room? = some room) :
    layers.settings.room = ⟨room, .commandLine⟩ :=
  Sourced.topmost_of_commandLine given

theorem historyDir_settings {dir : Text} (given : layers.overrides.historyDir? = some dir) :
    layers.settings.historyDir = ⟨some dir, .commandLine⟩ :=
  Sourced.topmost_of_commandLine (congrArg (Option.map some) given)

theorem workers_settings {n : Nat} (given : layers.overrides.workers? = some n) :
    layers.settings.workers = ⟨some n, .commandLine⟩ :=
  Sourced.topmost_of_commandLine (congrArg (Option.map some) given)

/-- A value that is given hides all in which the layers differ. -/
theorem SameBeside.settings_eq (same : SameBeside setting layers others)
    (given : layers.overrides.Gives setting) : layers.settings = others.settings := by
  have room : layers.settings.room = others.settings.room := by
    cases setting with
    | room =>
      obtain ⟨room, here⟩ := given
      rw [room_settings here, room_settings (same.overrides ▸ here)]
    | historyDir | workers => simp only [settings, same.roomOf_eq (by simp)]
  have historyDir : layers.settings.historyDir = others.settings.historyDir := by
    cases setting with
    | historyDir =>
      obtain ⟨dir, here, -⟩ := given
      rw [historyDir_settings here, historyDir_settings (same.overrides ▸ here)]
    | room | workers => simp only [settings, same.historyDirOf_eq (by simp)]
  have workers : layers.settings.workers = others.settings.workers := by
    cases setting with
    | workers =>
      obtain ⟨n, here, -⟩ := given
      rw [workers_settings here, workers_settings (same.overrides ▸ here)]
    | room | historyDir => simp only [settings, same.workersOf_eq (by simp)]
  have json : layers.settings.json = others.settings.json := by
    simp only [settings, same.jsonOf_eq]
  calc layers.settings
      = ⟨layers.settings.room, layers.settings.historyDir, layers.settings.workers,
          layers.settings.json⟩ := rfl
    _ = others.settings := by rw [room, historyDir, workers, json]

/-! ## What is judged below the command line -/

section

variable (same : SameBeside setting layers others) (here : layers.Accepted setting)
  (there : others.Accepted setting)

include same here there

theorem siteFault?_eq : layers.siteFault? = others.siteFault? := by
  rw [siteFault?, siteFault?]
  cases setting with
  | room => rw [Environment.fault?_eq_none_iff.2 here, Environment.fault?_eq_none_iff.2 there]
  | historyDir | workers => rw [(same.room (by simp)).2]

theorem workersFault?_eq : layers.workersFault? = others.workersFault? := by
  rw [workersFault?, workersFault?]
  cases setting with
  | workers =>
    rw [Environment.fault?_eq_none_iff.2 here.1, Environment.fault?_eq_none_iff.2 there.1]
  | room | historyDir => rw [(same.workers (by simp)).2]

theorem belowFault?_eq : layers.below.settings.fault? = others.below.settings.fault? := by
  have below := same.below
  apply Settings.fault?_congr
  · cases setting with
    | workers => exact iff_of_false here.2 there.2
    | room | historyDir => simp only [settings, below.workersOf_eq (by simp)]
  · cases setting with
    | historyDir => exact iff_of_false here there
    | room | workers => simp only [settings, below.historyDirOf_eq (by simp)]

end

/-- A run that comes to settings has accepted all that the layers below the command line say. -/
theorem accepted_of_resolved {settings : Settings} (resolved : layers.resolved = .ok settings)
    (setting : Setting) : layers.Accepted setting := by
  obtain ⟨⟨below, layered⟩, -⟩ := layers.resolved_eq_ok_iff.1 resolved
  obtain ⟨readable, areOf, usable⟩ := layers.layered_eq_ok_iff.1 layered
  rw [Settings.areOf_iff.1 areOf] at usable
  cases setting with
  | room => exact readable.site
  | historyDir => exact usable.historyDir_ne
  | workers => exact ⟨readable.workers, usable.workers_ne⟩

/-- If the command line gives a setting a value that can be used, runs that differ only in
what the file and the environment say about the setting come to the same end, provided that
this would do without the command line. If it would not, the run fails. -/
theorem resolved_of_overridden (given : layers.overrides.Gives setting)
    (same : SameBeside setting layers others) :
    (layers.Accepted setting → others.Accepted setting → layers.resolved = others.resolved) ∧
    (¬ layers.Accepted setting → ∃ cause, layers.resolved = .error cause) := by
  constructor
  · intro here there
    rw [resolved_eq, resolved_eq, siteFault?_eq same here there,
      workersFault?_eq same here there, belowFault?_eq same here there, same.settings_eq given]
  · intro refused
    cases outcome : layers.resolved with
    | error cause => exact ⟨cause, rfl⟩
    | ok settings => exact absurd (accepted_of_resolved outcome setting) refused

/-- Four workers instead of two or three, and instead of none at all. -/
theorem resolved_of_overridden_workers :
    let overrides : Overrides := { workers? := some 4 }
    let layers : Layers :=
      { file? := some { workers? := some 3, json? := some true },
        environment := { workers := some "2" }, overrides }
    let others : Layers := { file? := some { json? := some true }, overrides }
    let refused : Layers :=
      { file? := some { json? := some true }, environment := { workers := some "0" }, overrides }
    layers.resolved = others.resolved ∧ others.resolved = .ok others.settings ∧
      ∃ cause, refused.resolved = .error cause := by
  intro overrides layers others refused
  have given : overrides.Gives .workers := ⟨4, rfl, by decide⟩
  have same : SameBeside .workers layers others :=
    ⟨fun _ => ⟨rfl, rfl⟩, fun _ => ⟨rfl, rfl⟩, fun other => absurd rfl other, rfl, rfl⟩
  have sameToo : SameBeside .workers refused others :=
    ⟨fun _ => ⟨rfl, rfl⟩, fun _ => ⟨rfl, rfl⟩, fun other => absurd rfl other, rfl, rfl⟩
  refine ⟨(resolved_of_overridden given same).1 ⟨?_, by decide⟩ ⟨?_, by decide⟩, rfl,
    (resolved_of_overridden given sameToo).2 fun accepted => accepted.2 rfl⟩
  · intro value read _
    cases read
    exact ⟨2, rfl⟩
  · intro value unread
    cases unread

end Layers

end HandHistory
