/-!
# Faults of Settings

Why settings could not be loaded: a file that was asked for is missing, a file
is no configuration, or a value is not of the type that its setting has.

## Main definitions

* `SettingsFault`: A cause.
* `SettingsFault.message`: The wording of a cause.
-/

namespace PanelSketch

/-- Why settings could not be loaded. -/
inductive SettingsFault where
  /-- The file at a path is no configuration. -/
  | malformedFile (path : String)
  /-- The file that was asked for does not exist. -/
  | missingFile (name : String)
  /-- The file that was asked for has an ending that tells no format. -/
  | unknownFormat (name : String)
  /-- A value does not have the type of its setting. The source is left out when
      the value was of the right type and only too large. -/
  | wrongType (found wanted key : String) (source? : Option String)
  /-- A value stands in the place of a table. -/
  | notTable (found wanted : String)
  deriving DecidableEq, Repr

namespace SettingsFault

/-- The wording of a cause. -/
def message : SettingsFault → String
  | malformedFile path => "TOML parse error in " ++ path
  | missingFile name => "configuration file \"" ++ name ++ "\" not found"
  | unknownFormat name =>
    "configuration file \"" ++ name ++ "\" is not of a registered file format"
  | wrongType found wanted key source? =>
    "invalid type: " ++ found ++ ", expected " ++ wanted ++ " for key `" ++ key ++ "`"
      ++ (source?.map (" in " ++ ·)).getD ""
  | notTable found wanted => "invalid type: " ++ found ++ ", expected struct " ++ wanted

end SettingsFault

end PanelSketch
