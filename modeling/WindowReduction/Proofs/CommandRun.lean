import WindowReduction.CommandLine
import WindowReduction.Proofs.CacheHistory
import WindowReduction.Proofs.CellValue
import WindowReduction.Proofs.DecimalReading

/-!
# Runs of the command

A run of the command can only fail for its arguments. Once these ask for a reduction that is
accepted, the sample input has the shape that the program takes, and the program reduces every
matrix of that shape.

Main statements: `CommandLine.parse_append_defaults` and `CommandLine.parse_written` (what arguments
ask for), `CommandLine.run_of_parse` and `CommandLine.exitCode_run` (how a run ends).
-/

namespace WindowReduction

/-! ## Sizes -/

namespace Text

theorem afterPlus_of_allDigits {text : List Char} (h : AllDigits text) : afterPlus text = text := by
  unfold afterPlus
  split
  · exact absurd (h '+' List.mem_cons_self) (by decide)
  · rfl

/-- A size is read back from its digits. -/
theorem parseSize?_toString {n : Nat} (h : n < sizeLimit) : parseSize? (toString n) = some n := by
  have hdigits := allDigits_toDigits n
  have htext : afterPlus (toString n).toList = Nat.toDigits 10 n := by
    rw [Nat.toString_eq_repr, Nat.toList_repr, afterPlus_of_allDigits hdigits]
  have hvalue : digitsValue (Nat.toDigits 10 n) = n := Nat.ofDigitChars_ten_toDigits
  have hne : Nat.toDigits 10 n ≠ [] := Nat.toDigits_ne_nil
  have hall : (Nat.toDigits 10 n).all Char.isDigit = true := List.all_eq_true.2 hdigits
  simp only [parseSize?, htext, hvalue]
  exact if_pos ⟨hne, hall, h⟩

end Text

namespace CommandLine

/-! ## Arguments -/

/-- What the arguments are when they are left out. -/
def defaultArguments : List String :=
  ["sum", "4", "1", "8"]

theorem sizeArgument_none (default : Nat) : sizeArgument default none = .ok default := rfl

theorem sizeArgument_toString {n : Nat} (h : n < sizeLimit) (default : Nat) :
    sizeArgument default (some (toString n)) = .ok n := by
  rw [sizeArgument, Text.parseSize?_toString h]

/-- Leaving out the last arguments is writing their defaults. -/
theorem parse_append_defaults (args : List String) :
    parse (args ++ defaultArguments.drop args.length) = parse args := by
  have hkind : Kind.parse "sum" = .ok .sum := Kind.parse_name .sum
  have hwindow : sizeArgument 4 (some "4") = .ok 4 := by decide
  have hbatch : sizeArgument 1 (some "1") = .ok 1 := by decide
  have hrow : sizeArgument 8 (some "8") = .ok 8 := by decide
  -- How many arguments are given decides which defaults stand in.
  rcases args with _ | ⟨kind, _ | ⟨window, _ | ⟨batch, _ | ⟨rowLength, further⟩⟩⟩⟩ <;>
    simp [defaultArguments, parse, sizeArgument_none, hkind, hwindow, hbatch, hrow]

/-- Arguments after the fourth are ignored. -/
theorem parse_take (args : List String) : parse (args.take 4) = parse args := by
  simp [parse]

/-- A kind and sizes that are written in digits are what the command goes by. -/
theorem parse_written (k : Kind) {w b n : Nat} (hw : w < sizeLimit) (hb : b < sizeLimit)
    (hn : n < sizeLimit) (further : List String) :
    parse (k.name :: toString w :: toString b :: toString n :: further)
      = Descriptor.new k w b n := by
  simp only [parse, List.getElem?_cons_zero, List.getElem?_cons_succ, Kind.parse_name,
    sizeArgument_toString hw, sizeArgument_toString hb, sizeArgument_toString hn]
  rfl

/-! ## Runs -/

variable {args : List String} {d : Descriptor}

/-- Arguments that are accepted lead to the program of their reduction and its result. -/
theorem run_of_parse (h : parse args = .ok d) (value? : Option String) :
    run args value? =
      { exitCode := 0
        stdout := programText (Program.build d) ++ "// input:\n" ++ Text.matrix (sampleInput d)
          ++ "\n" ++ "// output:\n" ++ Text.matrix (d.reduce (sampleInput d)) ++ "\n"
        stderr := logText (verbosity value?) (.cacheMiss d :: (Building.of d).events) } := by
  have hprogram : (Cache.empty.request d).entry.program = Program.build d :=
    Cache.sound_empty.program_request
  have hevents : (Cache.empty.request d).events = .cacheMiss d :: (Building.of d).events := by
    rcases Cache.empty.request_cases d with ⟨entry, hget, -⟩ | ⟨-, -, -, hevents⟩
    · rw [Cache.get?_empty] at hget
      cases hget
    · exact hevents
  have hshape : (sampleInput d).shape = d.inputShape := rfl
  simp only [run, h, hprogram, Program.execute_build hshape, hevents]

/-- The command succeeds exactly when its arguments ask for a reduction that is accepted, and ends
with a report otherwise; no run of it is ended by an overflow. -/
theorem exitCode_run (args : List String) (value? : Option String) :
    (run args value?).exitCode = if (parse args).isOk then 0 else 1 := by
  cases h : parse args with
  | ok d =>
      rw [run_of_parse h]
      rfl
  | error f =>
      rw [run, h]
      rfl

end CommandLine

end WindowReduction
