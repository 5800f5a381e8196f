import RowQuery.Fault.Failure
import RowQuery.Toml.Parser

/-!
# Settings

How keys are matched and how large a page is where a query does not say.
Settings are written as a toml document whose two entries, `key_comparer` and
`default_page_size`, may both be left out. `Settings.ofText` reads one;
`Settings.validate` is what every use of settings asks for.
-/

namespace RowQuery

/-- What queries for one projection have in common. -/
structure Settings where
  keyMatching : KeyMatching
  defaultPageSize : UInt32
deriving Repr, DecidableEq

inductive SettingsFault where
  | malformed
  | pageSizeZero
deriving Repr, DecidableEq

def SettingsFault.message : SettingsFault → String
  | .malformed => "invalid TOML config"
  | .pageSizeZero => "default_page_size must be positive"

def Failure.ofSettingsFault (e : SettingsFault) : Failure :=
  { kind := .config, origin := .config, message := e.message }

namespace Settings

/-- Keys match regardless of case, and a page has twenty rows. -/
def default : Settings := { keyMatching := .ignoreCase, defaultPageSize := Page.defaultSize }

def validate (settings : Settings) : Except SettingsFault Settings :=
  if settings.defaultPageSize = 0 then .error .pageSizeZero else .ok settings

def isEmptyValue : Toml → Bool
  | .array [] | .table _ [] => true
  | _ => false

/-- A key matching by its name, or by a table in which the name is the only key and
holds nothing. -/
def matchingOf? : Toml → Option KeyMatching
  | .string name => KeyMatching.ofSettingName? name
  | .table _ [(name, value)] =>
      if isEmptyValue value then KeyMatching.ofSettingName? name else none
  | _ => none

def pageSizeOf? : Toml → Option UInt32
  | .integer n => if 0 ≤ n ∧ n < 0x100000000 then some n.toNat.toUInt32 else none
  | _ => none

/-- Settings with one entry replaced. -/
def withEntry? (settings : Settings) (key : String) (value : Toml) : Option Settings :=
  match key with
  | "key_comparer" => (matchingOf? value).map fun keyMatching => { settings with keyMatching }
  | "default_page_size" =>
      (pageSizeOf? value).map fun defaultPageSize => { settings with defaultPageSize }
  | _ => none

def withEntries? (settings : Settings) : Toml.Entries → Option Settings
  | [] => some settings
  | (key, value) :: rest =>
      (settings.withEntry? key value).bind fun settings => settings.withEntries? rest

def ofText (text : String) : Except SettingsFault Settings :=
  match (Toml.parse? text).bind default.withEntries? with
  | some settings => settings.validate
  | none => .error .malformed

def toJson (settings : Settings) : Json :=
  .object [("key_comparer", .string settings.keyMatching.settingName),
    ("default_page_size", .number (.ofUInt32 settings.defaultPageSize))]

end Settings

end RowQuery
