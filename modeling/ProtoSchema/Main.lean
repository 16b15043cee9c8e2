import ProtoSchema.CommandLine

/-!
# The program

Standard input to standard output; log events and complaints go to standard error.
-/

open ProtoSchema

/-- The line of a log event. -/
def logLine (e : Event) : String :=
  e.level.label ++ " " ++ e.message
    ++ String.join (e.fields.map fun (key, value) => " " ++ key ++ "=" ++ value)

/-- Reads a stream to its end. -/
partial def readToEnd (stream : IO.FS.Stream) (read : ByteArray) : IO ByteArray := do
  let chunk ← stream.read 65536
  if chunk.isEmpty then return read else readToEnd stream (read ++ chunk)

def main : IO UInt32 := do
  let setting ← IO.getEnv CommandLine.logVariable
  let input ← readToEnd (← IO.getStdin) ByteArray.empty
  let result := CommandLine.run setting input.data.toList
  let err ← IO.getStderr
  for event in result.events do
    err.putStrLn (logLine event)
  for line in result.complaints do
    err.putStrLn line
  let out ← IO.getStdout
  out.write ⟨result.output.toArray⟩
  out.flush
  return result.exitCode.toUInt32
