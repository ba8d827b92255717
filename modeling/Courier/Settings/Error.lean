import Courier.Crash
import Courier.Files.Tree
import Courier.Url.Basic

set_option autoImplicit false

/-! # Errors in settings

Settings may be refused because a file cannot be read or written, because the file is not of the
right form, or because a setting is missing, contradicts another one or has no use. Where one
setting is to blame the message names it by its key in the settings file. -/

namespace Courier

/-- A setting that can be missing or refused. -/
inductive Setting
  | url
  | method
  | header
  | expectedStatus
  | retryAttempts
  | retryDelay
  | retryMaxDelay
  | retryMultiplier
  | pollingDelay
  | pollingDuration
  | pollingStatus
  deriving DecidableEq

/-- The key of a setting in the settings file. -/
def Setting.key : Setting → String
  | .url => "request.url"
  | .method => "request.method"
  | .header => "request.headers"
  | .expectedStatus => "request.expect"
  | .retryAttempts => "retry.max_attempts"
  | .retryDelay => "retry.initial_delay"
  | .retryMaxDelay => "retry.max_delay"
  | .retryMultiplier => "retry.multiplier"
  | .pollingDelay => "polling.delay"
  | .pollingDuration => "polling.duration"
  | .pollingStatus => "polling.codes"

/-- What is wrong with the value of a setting. -/
inductive Unusable
  | url (e : Url.Error)
  | method
  /-- It has nothing that parts a header's name and value. -/
  | headerForm
  | headerName
  | headerValue (name : String)
  | status
  | zero
  | multiplier
  | belowInitialDelay (seconds : Nat)
  deriving DecidableEq

/-- The wording of what is wrong. -/
def Unusable.message : Unusable → String
  | .url e => e.message
  | .method => "not an HTTP method"
  | .headerForm => "expected 'Key=Value' or 'Key: Value'"
  | .headerName => "invalid HTTP header name"
  | .headerValue name => "failed to parse header value for '" ++ name ++ "'"
  | .status => "not a status code (100-999)"
  | .zero => "must be greater than 0"
  | .multiplier => "must be a finite number of at least 1.0"
  | .belowInitialDelay seconds =>
    "must not be below the initial delay of " ++ toString seconds ++ "s"

/-- What is done to a settings file. -/
inductive FileAccess
  | read
  | write
  deriving DecidableEq

/-- The word for an access. -/
def FileAccess.text : FileAccess → String
  | .read => "read"
  | .write => "write"

/-- Why there are no settings. -/
inductive SettingsError
  | file (access : FileAccess) (path : String) (cause : FileError)
  /-- The settings file is no TOML, or not made of the known settings. -/
  | malformed
  | missingUrl
  | invalid (setting : Setting) (value : String) (reason : Unusable)
  | conflictingCredentials
  /-- The settings ask for something that ends the program. -/
  | crash (c : Crash)
  deriving DecidableEq

/-- The wording of an error. -/
def SettingsError.message : SettingsError → String
  | .file access path e =>
    "could not " ++ access.text ++ " config file '" ++ path ++ "': " ++ e.message
  | .malformed => "config file is not valid"
  | .missingUrl =>
    "request.url is not set. Pass the URL as an argument or set it in the config file."
  | .invalid setting value reason =>
    setting.key ++ " = '" ++ value ++ "' rejected: " ++ reason.message
  | .conflictingCredentials => "auth.bearer and auth.token_file cannot both be set"
  | .crash c => c.message

/-- The setting that an error is about. -/
def SettingsError.setting? : SettingsError → Option Setting
  | .missingUrl => some .url
  | .invalid setting _ _ => some setting
  | _ => none

/-- The advice for an error that a template of a settings file would help with. -/
def SettingsError.hint? : SettingsError → Option String
  | .missingUrl => some "Run 'restwire init' to generate a configuration template."
  | .file .read _ _ => some "Run 'restwire init' to generate a configuration template."
  | _ => none

end Courier
