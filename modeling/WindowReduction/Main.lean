import WindowReduction.CommandLine

/-- Runs the command on its arguments and environment. -/
def main (args : List String) : IO UInt32 := do
  let value? ← IO.getEnv WindowReduction.CommandLine.verbosityVariable
  let outcome := WindowReduction.CommandLine.run args value?
  IO.print outcome.stdout
  IO.eprint outcome.stderr
  return outcome.exitCode
