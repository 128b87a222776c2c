import MonitorOperator.Deployment.Launch
import MonitorOperator.Json.Writer

/-!
The command line: reads the environment, the arguments and the manifest, starts a deployment and
prints its log, one entry a line.
-/

namespace MonitorOperator.Main

def usage : String :=
  "PodMonitor operator\n\n" ++
  "Usage: podmonitor-operator [OPTIONS]\n\n" ++
  "Options:\n" ++
  "      --workers <WORKERS>    Number of concurrent reconcile workers\n" ++
  "      --api-port <API_PORT>  Port for health and metrics endpoints\n" ++
  "      --manifest <MANIFEST>  JSON manifest used to seed the in-memory store\n" ++
  "  -h, --help                 Print help\n" ++
  "  -V, --version              Print version\n"

def environment : IO Config.Environment :=
  Config.variableNames.filterMapM (fun name => do
    return (← IO.getEnv name).map (name, ·))

def stampOf (nanos : Nat) : Recorder.Stamp :=
  let millis := nanos / 1000000
  ⟨String.ofList (Nat.toDigits 16 millis), toString millis ++ "ms"⟩

def secondsOf (nanos : Nat) : Int64 := .ofNat (nanos / nanosPerSecond)

def storeOf : Option String → IO (Except Seed.Fault Store)
  | none => return .ok {}
  | some path => do
    let content ← (some <$> IO.FS.readBinFile path) <|> pure none
    return (Seed.load path content).map (({} : Store).seed ·)

def period : UInt32 := 50

partial def live (d : Deployment) (start printed : Nat) : IO Unit := do
  for entry in d.entriesFrom printed do
    IO.println entry.toJson.render
  (← IO.getStdout).flush
  IO.sleep period
  let now ← IO.monoNanosNow
  live (d.continueTo (now - start) (stampOf now) (secondsOf now)) start d.journal.size

def fail (message : String) : IO UInt32 := do
  IO.eprintln ("Error: " ++ message)
  return 1

def run (a : Arguments) : IO UInt32 := do
  match Config.ofEnvironment (← environment) with
  | .error fault => fail fault.message
  | .ok c =>
    let c := c.override a
    match ← storeOf c.manifestPath with
    | .error fault => fail fault.message
    | .ok store =>
      let start ← IO.monoNanosNow
      live (.launch c store (stampOf start) (secondsOf start)) start 0
      return 0

end MonitorOperator.Main

open MonitorOperator in
def main (args : List String) : IO UInt32 := do
  match Arguments.parse args with
  | .ok a => Main.run a
  | .error .help => IO.print Main.usage; return 0
  | .error .version =>
    IO.println ("podmonitor-operator " ++ Deployment.version)
    return 0
  | .error stop =>
    IO.eprintln ("error: " ++ stop.name)
    return 2
