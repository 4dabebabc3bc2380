import ServiceDesk.Json.Printer
import ServiceDesk.Json.Tree
import ServiceDesk.Settings
import ServiceDesk.Store.Disk
import ServiceDesk.Web.Api

/-!
The server as a program. It reads its settings, and then one request a line from standard input,
each a JSON record with its method, its target, the time of its arrival and perhaps a content type
and a body. Each is answered by one line with the status and the body of the response.
-/

namespace ServiceDesk.Console

/-- The path of the settings file that the arguments name, if they are understood. -/
def configPath? : List String → Option String
  | [] => some "config.toml"
  | ["-c", path] => some path
  | ["--config", path] => some path
  | _ => none

def variableNames : List String := ["HELPDESK_HOST", "HELPDESK_PORT", "HELPDESK_STORE_PATH"]

def request? (json : Json) : Option (Web.Request × Time.Instant) := do
  let method ← (json.field "method").toText?
  let target ← (json.field "target").toText?
  let now ← (json.field "now").toText?.bind Time.Instant.ofText?
  let contentType ← (json.field "content_type").nullable? Json.toText?
  let body ← (json.field "body").nullable? Json.toText?
  some ({ method, target, contentType, body := body.getD "" }, now)

def responseJson (response : Web.Response) : Json :=
  .record (("status", .ofNat response.status) ::
    (response.body.map fun body => ("body", body)).toList)

/-- Answer one line. A line that is no request is answered by status 400. -/
def answerLine (disk : Disk) (id : Uuid) (line : String) : Json × Disk :=
  match (Json.ofText? line).bind request? with
  | none => (responseJson (.refusal 400), disk)
  | some (request, now) =>
    let (response, disk) := (Web.respond ⟨now, id⟩ request).run Disk.answer disk
    (responseJson response, disk)

def readConfig (path : String) : IO (Option String) := do
  match ← (IO.FS.readFile path).toBaseIO with
  | .ok source => pure (some source)
  | .error (.noFileOrDirectory _ _ _) => pure none
  | .error error => throw error

def readEnvironment : IO (List (String × String)) :=
  variableNames.filterMapM fun name => do
    return (← IO.getEnv name).map (name, ·)

def randomId : IO Uuid := do
  return Uuid.ofRandom (← IO.rand 0 0xffffffffffff) (← IO.rand 0 0xfff)
    (← IO.rand 0 0x3fffffffffffffff)

partial def answerAll (input output : IO.FS.Stream) (disk : Disk) : IO Unit := do
  let line ← input.getLine
  if line.isEmpty then return
  let (answer, disk) := answerLine disk (← randomId) line
  output.putStrLn answer.compress
  output.flush
  answerAll input output disk

end ServiceDesk.Console

open ServiceDesk in
def main (arguments : List String) : IO UInt32 := do
  let some path := Console.configPath? arguments
    | IO.eprintln "usage: servicedesk [--config PATH]"
      return 2
  let some settings := Settings.ofSources? (← Console.readConfig path) (← Console.readEnvironment)
    | IO.eprintln s!"failed to load configuration from {path}"
      return 1
  let storePath := Settings.expandHome (← IO.getEnv "HOME") settings.storePath
  IO.eprintln s!"serving {storePath} as http://{settings.address}"
  Console.answerAll (← IO.getStdin) (← IO.getStdout) .fresh
  return 0
