import WindowReduction.Program
import WindowReduction.Proofs.ExprReading

/-!
# Reading the source of a kernel

The source of a kernel is read line by line. The first word of a line tells what kind of statement
it is, closing braces end the bodies of loops and blocks, and indentation is skipped. Reading gives
the kernel back, so different kernels have different sources.

Main statements: `Kernel.readKernel_source` and `Kernel.source_injective`.
-/

namespace WindowReduction

/-! ## The reader -/

section Reader

/-- The text after its leading blanks. -/
def skipBlanks (text : List Char) : List Char :=
  text.dropWhile (· = ' ')

variable (expr : Reader Expr) (body : Reader (List Stmt))

/-- An expression and what closes its line. -/
def readUpTo (closing : String) (text : List Char) : Option (Expr × List Char) := do
  let (e, rest) ← expr text
  some (e, ← expect closing rest)

/-- A declaration after its type. -/
def readDeclaration (ty : Ty) (text : List Char) : Option (Stmt × List Char) := do
  let (name, rest) := readWord (← expect " " text)
  let v ← Var.ofName? name
  let (e, rest) ← readUpTo expr ";\n" (← expect " = " rest)
  some (.declare v ty e, rest)

/-- An assignment after its variable. -/
def readAssignment (v : Var) (text : List Char) : Option (Stmt × List Char) := do
  let (e, rest) ← readUpTo expr ";\n" (← expect " = " text)
  some (.assign v e, rest)

/-- A loop after its first word. -/
def readLoop (text : List Char) : Option (Stmt × List Char) := do
  let (name, rest) := readWord (← expect " (int " text)
  let v ← Var.ofName? name
  let (count, rest) := readNat (← expect (" = 0; " ++ v.name ++ " < ") rest)
  let (step, rest) := readNat (← expect ("; " ++ v.name ++ " += ") rest)
  let (ss, rest) ← body (← expect ") \x7b\n" rest)
  some (.loop v count step ss, rest)

/-- A statement whose first word has been read. -/
def readStmtAfter (word text : List Char) : Option (Stmt × List Char) :=
  if word = "for".toList then readLoop body text
  else if word = "setOutput".toList then do
    let (e, rest) ← readUpTo expr ");\n" (← expect "(" text)
    some (.output e, rest)
  else
    match Ty.ofName? word with
    | some ty => readDeclaration expr ty text
    | none => do readAssignment expr (← Var.ofName? word) text

/-- A statement. -/
def readStmt (text : List Char) : Option (Stmt × List Char) :=
  match expect "\x7b\n" text with
  | some rest => (body rest).map fun r => (.block r.1, r.2)
  | none => readStmtAfter expr body (readWord text).1 (readWord text).2

end Reader

/-- The statements up to a closing brace. -/
def readStmts (literal : List Char → Option Float32) : Nat → Reader (List Stmt)
  | 0, _ => none
  | fuel + 1, text =>
    match expect "\x7d\n" (skipBlanks text) with
    | some rest => some ([], rest)
    | none => do
      let (s, rest) ← readStmt (readExpr literal fuel) (readStmts literal fuel) (skipBlanks text)
      let (ss, rest) ← readStmts literal fuel rest
      some (s :: ss, rest)

/-- The row length that the fetch helper checks indices against, if it does. -/
def readGuard (text : List Char) : Option (Option Nat × List Char) :=
  match expect "  if (inIdx < 0 || inIdx >= " text with
  | some rest => do
    let (rowLength, rest) := readNat rest
    let rest ← expect (") \x7b\n    return " ++ neutralName ++ ";\n  \x7d\n") rest
    some (some rowLength, rest)
  | none => some (none, text)

/-- The source before the bounds check, from the end of the first line on. -/
def helperStart : String :=
  "\n\nfloat " ++ fetchName ++ "(int batch, int inIdx) \x7b\n"

/-- The source from the bounds check to the body of `main`. -/
def helperEnd (binding : String) : String :=
  "  return " ++ accessorName binding ++ "(batch, inIdx);\n\x7d\n\nvoid main() \x7b\n"

/-- A kernel that reads the input `binding`. -/
def readKernel (literal : List Char → Option Float32) (binding : String) (fuel : Nat)
    (text : List Char) : Option Kernel := do
  let rest ← expect ("const float " ++ neutralName ++ " = ") text
  let neutral ← literal (textBefore ';' rest)
  let (guard?, rest) ← readGuard (← expect helperStart (textAfter ';' rest))
  let (body, _) ← readStmts literal fuel (← expect (helperEnd binding) rest)
  some ⟨neutral, guard?, body⟩

/-! ## Lines -/

/-- The text of lines. -/
def linesText (ls : List SourceLine) : List Char :=
  ls.flatMap fun l => l.render.toList

theorem linesText_append (ls ls' : List SourceLine) :
    linesText (ls ++ ls') = linesText ls ++ linesText ls' :=
  List.flatMap_append

theorem linesText_cons (depth : Nat) (text : String) (ls : List SourceLine) :
    linesText (⟨depth, text⟩ :: ls)
      = List.replicate (2 * depth) ' ' ++ (text.toList ++ '\n' :: linesText ls) := by
  have hrender : (SourceLine.mk depth text).render.toList
      = List.replicate (2 * depth) ' ' ++ (text.toList ++ ['\n']) := by
    simp [SourceLine.render, String.toList_append]
  rw [linesText, List.flatMap_cons, hrender]
  simp [linesText]

theorem skipBlanks_append (n : Nat) {c : Char} (hc : c ≠ ' ') (rest : List Char) :
    skipBlanks (List.replicate n ' ' ++ c :: rest) = c :: rest := by
  have hblank : ∀ a ∈ List.replicate n ' ', decide (a = ' ') = true := fun a ha =>
    decide_eq_true (List.eq_of_mem_replicate ha)
  rw [skipBlanks, List.dropWhile_append_of_pos hblank,
    List.dropWhile_cons_of_neg (by simpa using hc)]

theorem expect_eq_none {expected : String} {c d : Char} {tail : List Char}
    (hexpected : expected.toList = c :: tail) (hne : c ≠ d) (rest : List Char) :
    expect expected (d :: rest) = none := by
  have hnot : (c == d) = false := beq_eq_false_iff_ne.2 hne
  rw [expect, hexpected, List.isPrefixOf, hnot]
  rfl

/-! ## Statements -/

theorem Var.isWord_name (v : Var) : IsWord v.name.toList := by
  cases v <;> decide

/-- A word before a text that begins with a separator. -/
theorem readWord_string {word : List Char} (hword : IsWord word) (separator : String) {c : Char}
    {tail : List Char} (hseparator : separator.toList = c :: tail) (hc : isSeparator c = true)
    (rest : List Char) :
    readWord (word ++ (separator.toList ++ rest)) = (word, separator.toList ++ rest) := by
  rw [hseparator, List.cons_append, readWord_append hword hc]

/-- A number before a text that does not begin with a digit. -/
theorem readNat_string (n : Nat) (separator : String) {c : Char} {tail : List Char}
    (hseparator : separator.toList = c :: tail) (hc : c.isDigit = false) (rest : List Char) :
    readNat ((toString n).toList ++ (separator.toList ++ rest))
      = (n, separator.toList ++ rest) := by
  rw [hseparator, List.cons_append, readNat_append n hc]

section Statements

variable {expr : Reader Expr} {body : Reader (List Stmt)} {e : Expr}

/-- A reader of expressions that reads an expression before anything that may follow one. -/
def ReadsExpr (expr : Reader Expr) (e : Expr) : Prop :=
  ∀ rest, StartsIn exprStops rest → expr (e.glsl.toList ++ rest) = some (e, rest)

theorem readUpTo_append (he : ReadsExpr expr e) (closing : String) {c : Char} {tail : List Char}
    (hclosing : closing.toList = c :: tail) (hc : c ∈ exprStops) (rest : List Char) :
    readUpTo expr closing (e.glsl.toList ++ (closing.toList ++ rest)) = some (e, rest) := by
  have hstop : StartsIn exprStops (closing.toList ++ rest) :=
    ⟨c, tail ++ rest, by rw [hclosing, List.cons_append], hc⟩
  simp only [readUpTo, he _ hstop, expect_append, Option.bind_eq_bind, Option.bind_some]

theorem readAssignment_append (he : ReadsExpr expr e) (v : Var) (rest : List Char) :
    readAssignment expr v (" = ".toList ++ (e.glsl.toList ++ (";\n".toList ++ rest)))
      = some (.assign v e, rest) := by
  simp only [readAssignment, expect_append, readUpTo_append he ";\n" rfl (by decide),
    Option.bind_eq_bind, Option.bind_some]

theorem readDeclaration_append (he : ReadsExpr expr e) (v : Var) (ty : Ty) (rest : List Char) :
    readDeclaration expr ty (" ".toList ++ (v.name.toList
        ++ (" = ".toList ++ (e.glsl.toList ++ (";\n".toList ++ rest)))))
      = some (.declare v ty e, rest) := by
  simp only [readDeclaration, expect_append, readWord_string v.isWord_name " = " rfl (by decide),
    Var.ofName?_name, readUpTo_append he ";\n" rfl (by decide), Option.bind_eq_bind,
    Option.bind_some]

/-- The first line of a loop from its variable on, and the text of its body. -/
def loopText (v : Var) (count step : Nat) (text : List Char) : List Char :=
  v.name.toList ++ ((" = 0; " ++ v.name ++ " < ").toList ++ ((toString count).toList
    ++ (("; " ++ v.name ++ " += ").toList ++ ((toString step).toList
    ++ (") \x7b\n".toList ++ text)))))

theorem readLoop_append {ss : List Stmt} {text rest : List Char}
    (hbody : body text = some (ss, rest)) (v : Var) (count step : Nat) :
    readLoop body (" (int ".toList ++ loopText v count step text)
      = some (.loop v count step ss, rest) := by
  have hname : (" = 0; " ++ v.name ++ " < ").toList
      = ' ' :: ("= 0; " ++ v.name ++ " < ").toList := by
    simp [String.toList_append]
  have hcount : ("; " ++ v.name ++ " += ").toList
      = ';' :: (" " ++ v.name ++ " += ").toList := by
    simp [String.toList_append]
  simp only [readLoop, loopText, expect_append, readWord_string v.isWord_name _ hname (by decide),
    Var.ofName?_name, readNat_string count _ hcount (by decide),
    readNat_string step ") \x7b\n" rfl (by decide), hbody, Option.bind_eq_bind, Option.bind_some]

end Statements

/-! ### First words -/

/-- A word that can begin a statement. -/
def IsName (word : List Char) : Prop :=
  word ≠ [] ∧ IsWord word ∧ '\x7b' ∉ word ∧ '\x7d' ∉ word

instance (word : List Char) : Decidable (IsName word) :=
  inferInstanceAs (Decidable (_ ∧ _))

theorem Var.isName_name (v : Var) : IsName v.name.toList := by
  cases v <;> decide

theorem Ty.isName_name (ty : Ty) : IsName ty.name.toList := by
  cases ty <;> decide

/-- The text goes on with a statement, not with a blank or a closing brace. -/
def BeginsStmt (text : List Char) : Prop :=
  ∃ c rest, text = c :: rest ∧ c ≠ ' ' ∧ c ≠ '\x7d'

section FirstWords

variable {word : List Char} {expr : Reader Expr} {body : Reader (List Stmt)}

theorem IsName.beginsStmt (h : IsName word) (rest : List Char) : BeginsStmt (word ++ rest) := by
  obtain ⟨hne, hword, -, hclose⟩ := h
  obtain ⟨first, tail, rfl⟩ := List.exists_cons_of_ne_nil hne
  refine ⟨first, tail ++ rest, rfl, ?_, ?_⟩
  · rintro rfl
    exact absurd (isWord_iff.1 hword ' ' List.mem_cons_self) (by decide)
  · rintro rfl
    exact hclose List.mem_cons_self

/-- A statement that does not begin with a brace begins with a word. -/
theorem IsName.readStmt_eq (h : IsName word) (separator : String) {c : Char} {tail : List Char}
    (hseparator : separator.toList = c :: tail) (hc : isSeparator c = true) (rest : List Char) :
    readStmt expr body (word ++ (separator.toList ++ rest))
      = readStmtAfter expr body word (separator.toList ++ rest) := by
  have hopen : expect "\x7b\n" (word ++ (separator.toList ++ rest)) = none := by
    obtain ⟨hne, -, hopen, -⟩ := h
    obtain ⟨first, tail, rfl⟩ := List.exists_cons_of_ne_nil hne
    refine expect_eq_none rfl ?_ _
    rintro rfl
    exact hopen List.mem_cons_self
  rw [readStmt, hopen, readWord_string h.2.1 separator hseparator hc]

end FirstWords

/-! ### Lists of statements -/

section Lists

variable {literal : List Char → Option Float32} {fuel : Nat}

theorem readStmts_nil (n : Nat) (rest : List Char) :
    readStmts literal (fuel + 1) (List.replicate n ' ' ++ ("\x7d\n".toList ++ rest))
      = some ([], rest) := by
  have hskip : skipBlanks (List.replicate n ' ' ++ ("\x7d\n".toList ++ rest))
      = "\x7d\n".toList ++ rest := skipBlanks_append n (by decide) _
  rw [readStmts, hskip, expect_append]

theorem readStmts_cons {s : Stmt} {ss : List Stmt} {text later rest : List Char}
    (htext : BeginsStmt text)
    (hs : readStmt (readExpr literal fuel) (readStmts literal fuel) text = some (s, later))
    (hss : readStmts literal fuel later = some (ss, rest)) (n : Nat) :
    readStmts literal (fuel + 1) (List.replicate n ' ' ++ text) = some (s :: ss, rest) := by
  obtain ⟨c, tail, rfl, hblank, hclose⟩ := htext
  rw [readStmts, skipBlanks_append n hblank, expect_eq_none rfl hclose.symm]
  simp only [hs, hss, Option.bind_eq_bind, Option.bind_some]

end Lists

/-! ### Statements from their lines -/

/-- Reading the lines of a statement gives the statement back, given fuel for its size. -/
def Stmt.Readable (literal : List Char → Option Float32) (s : Stmt) : Prop :=
  ∀ fuel, sizeOf s ≤ fuel → ∀ depth rest, ∃ text, BeginsStmt text
    ∧ linesText (s.lines depth) ++ rest = List.replicate (2 * depth) ' ' ++ text
    ∧ readStmt (readExpr literal fuel) (readStmts literal fuel) text = some (s, rest)

/-- Reading the lines of statements up to a closing brace gives the statements back. -/
def Stmt.ReadableAll (literal : List Char → Option Float32) (ss : List Stmt) : Prop :=
  ∀ fuel, sizeOf ss ≤ fuel → ∀ depth n rest,
    readStmts literal fuel (linesText (Stmt.linesAll depth ss)
        ++ (List.replicate n ' ' ++ ("\x7d\n".toList ++ rest)))
      = some (ss, rest)

section Readable

variable {literal : List Char → Option Float32} {e : Expr}

theorem Expr.Readable.readsExpr (h : e.Readable literal) {fuel : Nat} (hfuel : sizeOf e < fuel) :
    ReadsExpr (readExpr literal fuel) e :=
  h.expr fuel hfuel

/-- A statement that begins with a word, followed by a separator. -/
theorem Stmt.readable_of_word {s : Stmt} {word : List Char} (hname : IsName word)
    (separator : String) {c : Char} {tail : List Char} (hseparator : separator.toList = c :: tail)
    (hc : isSeparator c = true)
    (h : ∀ fuel, sizeOf s ≤ fuel → ∀ depth rest, ∃ later,
      linesText (s.lines depth) ++ rest
          = List.replicate (2 * depth) ' ' ++ (word ++ (separator.toList ++ later))
        ∧ readStmtAfter (readExpr literal fuel) (readStmts literal fuel) word
            (separator.toList ++ later) = some (s, rest)) : s.Readable literal := by
  intro fuel hfuel depth rest
  obtain ⟨later, htext, hread⟩ := h fuel hfuel depth rest
  exact ⟨_, hname.beginsStmt _, htext, by rw [hname.readStmt_eq separator hseparator hc, hread]⟩

theorem linesText_singleton_append (depth : Nat) (text : String) (rest : List Char) :
    linesText [⟨depth, text⟩] ++ rest
      = List.replicate (2 * depth) ' ' ++ (text.toList ++ '\n' :: rest) := by
  rw [linesText_cons]
  simp [linesText]

theorem Stmt.readable_declare (he : e.Readable literal) (v : Var) (ty : Ty) :
    (Stmt.declare v ty e).Readable literal := by
  apply Stmt.readable_of_word ty.isName_name " " rfl (by decide)
  intro fuel hfuel depth rest
  have hsize : sizeOf e < fuel := by
    simp only [Stmt.declare.sizeOf_spec] at hfuel
    omega
  refine ⟨v.name.toList ++ (" = ".toList ++ (e.glsl.toList ++ (";\n".toList ++ rest))), ?_, ?_⟩
  · rw [Stmt.lines, linesText_singleton_append]
    simp [String.toList_append]
  · rw [readStmtAfter, if_neg (by cases ty <;> decide), if_neg (by cases ty <;> decide),
      Ty.ofName?_name]
    exact readDeclaration_append (he.readsExpr hsize) v ty rest

theorem Stmt.readable_assign (he : e.Readable literal) (v : Var) :
    (Stmt.assign v e).Readable literal := by
  apply Stmt.readable_of_word v.isName_name " = " rfl (by decide)
  intro fuel hfuel depth rest
  have hsize : sizeOf e < fuel := by
    simp only [Stmt.assign.sizeOf_spec] at hfuel
    omega
  have hty : Ty.ofName? v.name.toList = none := by
    cases v <;> decide
  refine ⟨e.glsl.toList ++ (";\n".toList ++ rest), ?_, ?_⟩
  · rw [Stmt.lines, linesText_singleton_append]
    simp [String.toList_append]
  · rw [readStmtAfter, if_neg (by cases v <;> decide), if_neg (by cases v <;> decide), hty]
    dsimp only
    rw [Var.ofName?_name]
    exact readAssignment_append (he.readsExpr hsize) v rest

theorem Stmt.readable_output (he : e.Readable literal) : (Stmt.output e).Readable literal := by
  apply Stmt.readable_of_word (show IsName "setOutput".toList by decide) "(" rfl (by decide)
  intro fuel hfuel depth rest
  have hsize : sizeOf e < fuel := by
    simp only [Stmt.output.sizeOf_spec] at hfuel
    omega
  refine ⟨e.glsl.toList ++ (");\n".toList ++ rest), ?_, ?_⟩
  · rw [Stmt.lines, linesText_singleton_append]
    simp [String.toList_append]
  · rw [readStmtAfter, if_neg (by decide), if_pos rfl]
    simp only [expect_append, readUpTo_append (he.readsExpr hsize) ");\n" rfl (by decide),
      Option.bind_eq_bind, Option.bind_some]

variable {ss : List Stmt}

/-- The lines of a body and of the brace that closes it. -/
def bodyText (ss : List Stmt) (depth : Nat) (rest : List Char) : List Char :=
  linesText (Stmt.linesAll (depth + 1) ss)
    ++ (List.replicate (2 * depth) ' ' ++ ("\x7d\n".toList ++ rest))

theorem linesText_body (depth : Nat) (header : String) (rest : List Char) :
    linesText (⟨depth, header⟩ :: (Stmt.linesAll (depth + 1) ss ++ [⟨depth, "\x7d"⟩])) ++ rest
      = List.replicate (2 * depth) ' ' ++ (header.toList ++ '\n' :: bodyText ss depth rest) := by
  rw [linesText_cons, linesText_append, List.append_assoc, List.append_assoc, List.cons_append,
    List.append_assoc, linesText_singleton_append]
  rfl

theorem Stmt.readable_loop (hss : Stmt.ReadableAll literal ss) (v : Var) (count step : Nat) :
    (Stmt.loop v count step ss).Readable literal := by
  apply Stmt.readable_of_word (show IsName "for".toList by decide) " (int " rfl (by decide)
  intro fuel hfuel depth rest
  have hsize : sizeOf ss ≤ fuel := by
    simp only [Stmt.loop.sizeOf_spec] at hfuel
    omega
  refine ⟨loopText v count step (bodyText ss depth rest), ?_, ?_⟩
  · rw [Stmt.lines, linesText_body, loopText]
    simp [String.toList_append]
  · rw [readStmtAfter, if_pos rfl]
    exact readLoop_append (hss fuel hsize (depth + 1) (2 * depth) rest) v count step

theorem Stmt.readable_block (hss : Stmt.ReadableAll literal ss) :
    (Stmt.block ss).Readable literal := by
  intro fuel hfuel depth rest
  have hsize : sizeOf ss ≤ fuel := by
    simp only [Stmt.block.sizeOf_spec] at hfuel
    omega
  have hbody : readStmts literal fuel (bodyText ss depth rest) = some (ss, rest) :=
    hss fuel hsize (depth + 1) (2 * depth) rest
  refine ⟨"\x7b\n".toList ++ bodyText ss depth rest, ⟨'\x7b', _, rfl, by decide, by decide⟩,
    linesText_body depth "\x7b" rest, ?_⟩
  rw [readStmt, expect_append]
  dsimp only
  rw [hbody]
  rfl

end Readable

mutual

theorem Stmt.readable {literal : List Char → Option Float32} (hliteral : ReadsLiterals literal) :
    ∀ s : Stmt, (∀ t ∈ s.exprs, t.isLegible = true) → s.Readable literal
  | .declare v ty _, h => Stmt.readable_declare (Expr.readable hliteral h) v ty
  | .assign v _, h => Stmt.readable_assign (Expr.readable hliteral h) v
  | .loop v count step body, h =>
    Stmt.readable_loop (Stmt.readableAll hliteral body h) v count step
  | .block body, h => Stmt.readable_block (Stmt.readableAll hliteral body h)
  | .output _, h => Stmt.readable_output (Expr.readable hliteral h)

theorem Stmt.readableAll {literal : List Char → Option Float32} (hliteral : ReadsLiterals literal) :
    ∀ ss : List Stmt, (∀ t ∈ Stmt.exprsAll ss, t.isLegible = true) →
      Stmt.ReadableAll literal ss
  | [], _ => by
    rintro (_ | fuel) hfuel depth n rest
    · simp at hfuel
    · exact readStmts_nil n rest
  | s :: ss, h => by
    rintro (_ | fuel) hfuel depth n rest
    · simp at hfuel
    · have hs : ∀ t ∈ s.exprs, t.isLegible = true := fun t ht =>
        h t (List.mem_append_left _ ht)
      have hss : ∀ t ∈ Stmt.exprsAll ss, t.isLegible = true := fun t ht =>
        h t (List.mem_append_right _ ht)
      have hsize : sizeOf s ≤ fuel ∧ sizeOf ss ≤ fuel := by
        simp only [List.cons.sizeOf_spec] at hfuel
        omega
      -- What follows the first statement is the text of the others up to the closing brace.
      obtain ⟨text, hbegins, htext, hread⟩ := Stmt.readable hliteral s hs fuel hsize.1 depth
        (linesText (Stmt.linesAll depth ss) ++ (List.replicate n ' ' ++ ("\x7d\n".toList ++ rest)))
      rw [Stmt.linesAll, linesText_append, List.append_assoc, htext]
      exact readStmts_cons hbegins hread
        (Stmt.readableAll hliteral ss hss fuel hsize.2 depth n rest) _

end

/-! ## Kernels -/

/-- All constants and expressions of the kernel can be told from its source. -/
def Kernel.Legible (k : Kernel) : Prop :=
  k.neutral.isNaN = false ∧ ∀ e ∈ k.exprs, e.isLegible = true

namespace Kernel

variable (k : Kernel) (binding : String)

/-- The source of the body of `main`. -/
def bodySource : List Char :=
  linesText (Stmt.linesAll 1 k.body) ++ (List.replicate 0 ' ' ++ ("\x7d\n".toList ++ []))

theorem toList_source_eq_linesText :
    (k.source binding).toList = linesText (k.headerLines binding ++ k.mainLines) := by
  rw [source, String.toList_join, List.flatMap_map]
  rfl

theorem toList_source :
    (k.source binding).toList
      = ("const float " ++ neutralName ++ " = ").toList
        ++ ((floatLiteral k.neutral).toList ++ ';' :: (helperStart.toList
        ++ (linesText k.guardLines ++ ((helperEnd binding).toList ++ k.bodySource)))) := by
  rw [toList_source_eq_linesText]
  unfold headerLines mainLines helperStart helperEnd bodySource
  simp only [linesText_append, linesText_cons, List.append_assoc, List.cons_append,
    List.nil_append, Nat.mul_zero, Nat.mul_one, List.replicate_zero]
  simp [linesText, List.replicate_succ]

/-- The bounds check is told from what follows it. -/
theorem readGuard_guardLines (later : List Char) :
    readGuard (linesText k.guardLines ++ ((helperEnd binding).toList ++ later))
      = some (k.guard?, (helperEnd binding).toList ++ later) := by
  unfold guardLines
  cases k.guard? with
  | none =>
      have hend : (helperEnd binding).toList = "  return ".toList
          ++ (accessorName binding ++ "(batch, inIdx);\n\x7d\n\nvoid main() \x7b\n").toList := by
        unfold helperEnd
        simp only [String.toList_append, List.append_assoc]
      rw [hend]
      rfl
  | some rowLength =>
      have htext : linesText
            [⟨1, "if (inIdx < 0 || inIdx >= " ++ toString rowLength ++ ") \x7b"⟩,
              ⟨2, "return " ++ neutralName ++ ";"⟩, ⟨1, "\x7d"⟩]
            ++ ((helperEnd binding).toList ++ later)
          = "  if (inIdx < 0 || inIdx >= ".toList ++ ((toString rowLength).toList
            ++ ((") \x7b\n    return " ++ neutralName ++ ";\n  \x7d\n").toList
            ++ ((helperEnd binding).toList ++ later))) := by
        simp only [linesText_cons]
        simp [linesText, List.replicate_succ]
      have hclose : (") \x7b\n    return " ++ neutralName ++ ";\n  \x7d\n").toList
          = ')' :: (" \x7b\n    return " ++ neutralName ++ ";\n  \x7d\n").toList := by
        simp
      dsimp only
      rw [htext]
      simp only [readGuard, expect_append, readNat_string rowLength _ hclose (by decide),
        Option.bind_eq_bind, Option.bind_some]

theorem not_mem_floatLiteral {x : Float32} (h : x.isNaN = false) :
    ';' ∉ (floatLiteral x).toList := by
  rcases isFinite_or_infinite h with hfinite | rfl | rfl
  · intro hmem
    rcases isNumberChar_floatLiteral hfinite ';' hmem with h | h | h | h <;> revert h <;> decide
  · decide +kernel
  · decide +kernel

variable {k}

/-- Reading the source of a kernel gives the kernel back, given fuel for its body. -/
theorem readKernel_source {literal : List Char → Option Float32} (hliteral : ReadsLiterals literal)
    (h : k.Legible) {fuel : Nat} (hfuel : sizeOf k.body ≤ fuel) :
    readKernel literal binding fuel (k.source binding).toList = some k := by
  have hneutral := not_mem_floatLiteral h.1
  have hbody : readStmts literal fuel k.bodySource = some (k.body, []) :=
    Stmt.readableAll hliteral k.body h.2 fuel hfuel 1 0 []
  rw [toList_source]
  simp only [readKernel, expect_append, textBefore_append hneutral, textAfter_append hneutral,
    hliteral _ h.1, readGuard_guardLines, hbody, Option.bind_eq_bind, Option.bind_some]

end Kernel

/-- Literals determine numbers, so there is a way to read them. -/
theorem exists_readsLiterals : ∃ literal, ReadsLiterals literal := by
  classical
  refine ⟨fun text => if h : ∃ x : Float32, x.isNaN = false ∧ (floatLiteral x).toList = text then
    some h.choose else none, ?_⟩
  intro x hx
  have h : ∃ y : Float32, y.isNaN = false ∧ (floatLiteral y).toList = (floatLiteral x).toList :=
    ⟨x, hx, rfl⟩
  dsimp only
  rw [dif_pos h, floatLiteral_inj h.choose_spec.1 hx (String.toList_inj.1 h.choose_spec.2)]

/-- One way of reading gives both of two kernels back from their sources. -/
theorem Kernel.exists_reader (binding : String) {k k' : Kernel} (hk : k.Legible)
    (hk' : k'.Legible) :
    ∃ read : List Char → Option Kernel,
      read (k.source binding).toList = some k ∧ read (k'.source binding).toList = some k' := by
  obtain ⟨literal, hliteral⟩ := exists_readsLiterals
  -- One amount of fuel is enough for both bodies.
  have hfuel := Nat.le_max_left (sizeOf k.body) (sizeOf k'.body)
  have hfuel' := Nat.le_max_right (sizeOf k.body) (sizeOf k'.body)
  exact ⟨readKernel literal binding (max (sizeOf k.body) (sizeOf k'.body)),
    Kernel.readKernel_source binding hliteral hk hfuel,
    Kernel.readKernel_source binding hliteral hk' hfuel'⟩

/-- Kernels with one source are the same, whatever the name of their input, if they have no NaN and
no splat of a floating-point number. -/
theorem Kernel.source_injective (binding : String) {k k' : Kernel} (hk : k.Legible)
    (hk' : k'.Legible) (h : k.source binding = k'.source binding) : k = k' := by
  obtain ⟨read, hread, hread'⟩ := Kernel.exists_reader binding hk hk'
  rw [h, hread'] at hread
  exact (Option.some.inj hread).symm

/-- A built kernel with a bounds check, a padded group and operators in parentheses, and the same
kernel written out. -/
theorem Kernel.source_injective_all :
    ∃ d, Descriptor.new .all 2 1 3 = .ok d ∧ ∃ k : Kernel, (Program.build d).kernel.Legible
      ∧ k.Legible ∧ (Program.build d).kernel.source "x" = k.source "x"
      ∧ (Program.build d).kernel = k := by
  let k : Kernel :=
    { neutral := 1.0
      guard? := some 3
      body :=
        [.declare .batch .int (.coord 0),
          .declare .outIdx .int (.coord 1),
          .declare .inOffset .int (.binary .mul (.var .outIdx) (.int 2)),
          .declare .accumulator .float .neutral,
          .block
            [.declare .inIdx .int (.binary .add (.var .inOffset) (.int 0)),
              .declare .values .bvec4
                (.pack .bvec4 (.fetch (.var .batch) (.var .inIdx))
                  (.fetch (.var .batch) (.binary .add (.var .inIdx) (.int 1))) .neutral .neutral),
              .declare .groupAll .bool (.allLanes (.var .values)),
              .assign .accumulator
                (.toFloat (.binary .and
                  (.binary .atLeast (.var .accumulator) (.float 1.0))
                  (.binary .atLeast (.toFloat (.var .groupAll)) (.float 1.0))))],
          .output (.var .accumulator)] }
  have hd : Descriptor.new .all 2 1 3
      = .ok ⟨.all, 2, 1, 3, by decide, by decide, by decide⟩ := rfl
  have hbuilt : (Program.build ⟨.all, 2, 1, 3, by decide, by decide, by decide⟩).kernel.Legible :=
    ⟨by decide +kernel, by decide +kernel⟩
  have hk : k.Legible := ⟨by decide +kernel, by decide +kernel⟩
  have hsource : (Program.build ⟨.all, 2, 1, 3, by decide, by decide, by decide⟩).kernel.source "x"
      = k.source "x" := by
    decide +kernel
  exact ⟨_, hd, k, hbuilt, hk, hsource, Kernel.source_injective "x" hbuilt hk hsource⟩

end WindowReduction
