import Nominal.Command
import Std.Time.Format
import Std.Time.Zoned

/-!
# The program

Runs the command line on the arguments of the process, with the time of its start in the log.
-/

/-- Prints what the command line prints, and ends as it ends. -/
def main (args : List String) : IO UInt32 := do
  let now ← Std.Time.PlainDateTime.now
  let output := Nominal.Command.run (now.format "uuuu-MM-dd HH:mm:ss") args
  IO.print output.stdout
  IO.eprint output.stderr
  return UInt32.ofNat output.exit
