import DecisionRules.Command

/-!
# The program

The program runs the command on its arguments, writes what the command leaves behind and exits
with its status.
-/

open DecisionRules

/-- Runs the command on the arguments of the program. -/
def main (arguments : List String) : IO UInt32 := do
  let result := Command.run arguments
  IO.print result.output
  IO.eprint result.errors
  return result.status.toUInt32
