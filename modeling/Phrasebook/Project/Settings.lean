import Phrasebook.Yaml.Value

/-!
# Settings

What a user or a project can set: where the store lies, who changes are
attributed to, what is logged and how output is formatted. Settings come in
layers, and a later layer wins where it says something.

## Main definitions

* `Settings.read`: the settings that a YAML text spells
* `Settings.override`: one layer over another
* `Settings.actorIn`: who changes are attributed to
-/
namespace Phrasebook

/-- Settings, each of which may be left open. -/
structure Settings where
  database? : Option String := none
  actor? : Option String := none
  log? : Option String := none
  defaultFormat? : Option String := none
  deriving DecidableEq, Repr, Inhabited

/-- Why a text spells no settings. -/
inductive SettingsError where
  | notYaml (problem : Yaml.Problem)
  | notAMapping
  | notAText (name : String)
  deriving DecidableEq, Repr

/-- Environment variables and their values. -/
abbrev Environment := List (String × String)

/-- The value of a variable. -/
def Environment.get? (env : Environment) (name : String) : Option String :=
  (env.find? fun entry => entry.1 == name).map Prod.snd

namespace Settings

/-- The text that an entry sets; `null` leaves it open. -/
def textEntry (fields : Fields) (name : String) : Except SettingsError (Option String) :=
  match fields.get? name with
  | none | some .null => .ok none
  | some (.str s) => .ok (some s)
  | some _ => .error (.notAText name)

/-- The settings that a YAML text spells. -/
def read (text : String) : Except SettingsError Settings := do
  match ← (Yaml.read text).mapError .notYaml with
  | .obj fields =>
    .ok {
      database? := ← textEntry fields "database"
      actor? := ← textEntry fields "actor"
      log? := ← textEntry fields "log"
      defaultFormat? := ← textEntry fields "default_format" }
  | _ => .error .notAMapping

/-- Put a layer over settings. -/
def override (base layer : Settings) : Settings where
  database? := layer.database?.or base.database?
  actor? := layer.actor?.or base.actor?
  log? := layer.log?.or base.log?
  defaultFormat? := layer.defaultFormat?.or base.defaultFormat?

/-- The settings that environment variables make. -/
def ofEnvironment (env : Environment) : Settings where
  database? := env.get? "MOUTH_DATABASE"
  actor? := env.get? "MOUTH_ACTOR"
  log? := env.get? "MOUTH_LOG"

/-- Who changes are attributed to: the one set, else the user logged in. -/
def actorIn (settings : Settings) (env : Environment) : String :=
  (((settings.actor?).or (env.get? "USER")).or (env.get? "USERNAME")).getD "unknown"

/-- What is logged. -/
def logFilter (settings : Settings) : String := settings.log?.getD "warn"

end Settings
end Phrasebook
