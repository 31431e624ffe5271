import Std.Time.DateTime.Timestamp
import PushFeed.Watch
/-!
# The watcher's command line

Reads the settings from the environment and a recording from standard input, and
writes what the watcher has to say.
-/

namespace PushFeed.Watch

/-- Writes lines, but for the finest. -/
def write (output : IO.FS.Stream) (lines : List LogLine) : IO Unit := do
  for line in lines do
    if line.level ≠ .trace then output.putStrLn (line.level.name ++ " " ++ line.text)
  output.flush

/-- Follows the recording to its end. -/
partial def followAll (input output : IO.FS.Stream) (w : Watch) : IO Watch := do
  let line ← input.getLine
  if line.isEmpty then return w
  match RecordedEvent.parse? line with
  | none =>
    write output [⟨.warn, "[Watch] Not an entry of a recording: " ++ Text.quoted (Text.trim line)⟩]
    followAll input output w
  | some event =>
    let now ← Std.Time.Timestamp.now
    let (lines, w) := w.follow event ⟨now.toSecondsSinceUnixEpoch.val, 0⟩
    write output lines
    followAll input output w

/-- The variables the watcher reads. -/
def variableNames : List String :=
  [Settings.urlVariable, Settings.delayVariable, Settings.attemptsVariable, marketVariable,
    rootVariable]

/-- Runs the watcher. -/
def watch : IO UInt32 := do
  let output ← IO.getStdout
  let entries ← variableNames.mapM fun name => do return (name, ← IO.getEnv name)
  let valueOf := fun name => (entries.lookup name).join
  match Settings.ofVariables valueOf, valueOf marketVariable with
  | .error fault, _ =>
    IO.eprintln "Error: Failed to load push-feed configuration"
    IO.eprintln ("\nCaused by:\n    " ++ fault.message)
    return 1
  | .ok _, none =>
    IO.eprintln ("Error: " ++ marketVariable ++ " is not set")
    return 1
  | .ok settings, some market =>
    let root := (valueOf rootVariable).getD defaultRoot
    let (lines, w) := (start settings market root).collect ⟨0, 0⟩
    write output lines
    let w ← followAll (← IO.getStdin) output w
    write output (⟨.info, "Shutting down"⟩ :: w.stop)
    return 0

end PushFeed.Watch

/-- The watcher. -/
def main : IO UInt32 := PushFeed.Watch.watch
