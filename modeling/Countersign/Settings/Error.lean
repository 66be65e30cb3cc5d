/-!
# Settings errors

Why settings are not loaded.
-/

set_option autoImplicit false

namespace Countersign

inductive SettingsError where
  | notFound (path : String)
  | unsupportedFormat
  | unreadable
deriving DecidableEq, Repr

def SettingsError.message : SettingsError → String
  | notFound path => "Configuration file not found: " ++ path
  | unsupportedFormat => "Unsupported configuration file format. Use .toml, .yaml, .yml, or .json"
  | unreadable => "Failed to parse configuration"

end Countersign
