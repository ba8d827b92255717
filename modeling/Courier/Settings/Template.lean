import Courier.Settings.Error

set_option autoImplicit false

/-! # A template of a settings file

The template names every setting with its default, all of them commented out, so that it says
nothing until it is changed. -/

namespace Courier

/-- The lines of the template. -/
def templateLines : List String :=
  [
    "# restwire configuration file",
    "",
    "[request]",
    "# Request URL (required unless passed on the command line)",
    "# url = \"https://management.example.com/subscriptions/sub/jobs?api-version=2024-01-01\"",
    "",
    "# HTTP method (default: GET, can be overridden by --method CLI flag)",
    "# method = \"PUT\"",
    "",
    "# HTTP headers",
    "# [request.headers]",
    "# Content-Type = \"application/json\"",
    "",
    "# Request body",
    "# data = '\x7b\"name\": \"nightly\"\x7d'",
    "",
    "# Accepted status codes (default: 200, 201, 202, 204)",
    "# expect = [200, 201]",
    "",
    "# Client request id, echoed back by the service",
    "# client_request_id = \"00000000-0000-0000-0000-000000000000\"",
    "",
    "[auth]",
    "# Bearer token for Authorization header",
    "# bearer = \"your-token-here\"",
    "",
    "# JSON token file (access_token, refresh_token, expires_on, ...)",
    "# Use either bearer or token_file, not both",
    "# token_file = \"/home/me/.restwire/token.json\"",
    "",
    "[retry]",
    "# Maximum number of attempts (default: 3)",
    "# max_attempts = 3",
    "",
    "# Initial retry delay in seconds (default: 5)",
    "# initial_delay = 5",
    "",
    "# Maximum retry delay in seconds (default: 60)",
    "# max_delay = 60",
    "",
    "# Backoff multiplier (default: 2.0)",
    "# multiplier = 2.0",
    "",
    "[polling]",
    "# Poll long-running operations until they finish",
    "# enabled = false",
    "",
    "# Seconds between polls when the service sends no Retry-After (default: 60)",
    "# delay = 60",
    "",
    "# Total polling budget in seconds (default: 900)",
    "# duration = 900",
    "",
    "# Status codes that mean \"still running\" (default: 202)",
    "# codes = [202]"]

/-- The text of the template. -/
def templateText : String := String.join (templateLines.map fun line => line ++ "\n")

/-- Writes the template to a file. -/
def writeTemplate (path : String) (t : FileTree) : Except SettingsError FileTree :=
  match t.write path (Utf8.encode templateText) with
  | .ok t => .ok t
  | .error e => .error (.file .write path e)

end Courier
