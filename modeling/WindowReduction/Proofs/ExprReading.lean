import WindowReduction.Proofs.FloatLiteral

/-!
# Reading expressions

The text of an expression is read from left to right. A word is what stands between separators, and
the character after it tells a call from a name or a number; lane selections are collected after the
operand that they belong to; an operator stands between two operands and is recognised by the blank
before it. Reading the text of an expression gives the expression back and leaves what follows it.

The reader is told which number a literal stands for. It works with fuel, of which an expression
needs no more than its size.

Main statement: `Expr.readable`.
-/

namespace WindowReduction

open Text

/-! ## Words and separators -/

/-- The characters that end a word. -/
def isSeparator (c : Char) : Bool :=
  [' ', '(', ')', '[', ']', ',', ';'].contains c

/-- The longest word at the front of a text, and the rest. -/
def readWord (text : List Char) : List Char × List Char :=
  (text.takeWhile fun c => !isSeparator c, text.dropWhile fun c => !isSeparator c)

/-- A text without separators. -/
def IsWord (word : List Char) : Prop :=
  (word.all fun c => !isSeparator c) = true

instance (word : List Char) : Decidable (IsWord word) :=
  inferInstanceAs (Decidable (_ = true))

theorem isWord_iff {word : List Char} : IsWord word ↔ ∀ c ∈ word, isSeparator c = false := by
  simp [IsWord]

/-- The text goes on with one of the given characters. -/
def StartsIn (stops text : List Char) : Prop :=
  ∃ c rest, text = c :: rest ∧ c ∈ stops

theorem readWord_append {word : List Char} (hword : IsWord word) {c : Char}
    (hc : isSeparator c = true) (rest : List Char) :
    readWord (word ++ c :: rest) = (word, c :: rest) := by
  have hall : ∀ a ∈ word, (!isSeparator a) = true := List.all_eq_true.1 hword
  rw [readWord, List.takeWhile_append_of_pos hall, List.dropWhile_append_of_pos hall,
    List.takeWhile_cons_of_neg (by simp [hc]), List.dropWhile_cons_of_neg (by simp [hc]),
    List.append_nil]

/-- What is left of a text after the expected beginning. -/
def expect (expected : String) (text : List Char) : Option (List Char) :=
  if expected.toList.isPrefixOf text then some (text.drop expected.toList.length) else none

@[simp] theorem expect_append (expected : String) (rest : List Char) :
    expect expected (expected.toList ++ rest) = some rest := by
  rw [expect, if_pos (List.isPrefixOf_iff_prefix.2 (List.prefix_append _ _)), List.drop_left]

/-- The number at the front of a text, and the rest. -/
def readNat (text : List Char) : Nat × List Char :=
  (digitsValue (text.takeWhile Char.isDigit), text.dropWhile Char.isDigit)

theorem readNat_append (n : Nat) {c : Char} (hc : c.isDigit = false) (rest : List Char) :
    readNat ((toString n).toList ++ c :: rest) = (n, c :: rest) := by
  have hdigits : (toString n).toList = Nat.toDigits 10 n := by
    rw [Nat.toString_eq_repr, Nat.toList_repr]
  have hall : ∀ a ∈ Nat.toDigits 10 n, a.isDigit = true := allDigits_toDigits n
  rw [hdigits, readNat, List.takeWhile_append_of_pos hall, List.dropWhile_append_of_pos hall,
    List.takeWhile_cons_of_neg (by simp [hc]), List.dropWhile_cons_of_neg (by simp [hc]),
    List.append_nil, digitsValue_toDigits]

/-! ## The reader -/

/-- Takes something off the front of a text. -/
abbrev Reader (α : Type) : Type :=
  List Char → Option (α × List Char)

/-- The type with a name. -/
def Ty.ofName? (name : List Char) : Option Ty :=
  [Ty.int, .float, .bool, .vec4, .bvec4].find? fun ty => ty.name.toList = name

/-- The variable with a name. -/
def Var.ofName? (name : List Char) : Option Var :=
  [Var.batch, .outIdx, .inOffset, .i, .inIdx, .accumulator, .values, .groupAll].find? fun v =>
    v.name.toList = name

/-- The two-argument function with a name. -/
def Builtin.ofName? (name : List Char) : Option Builtin :=
  [Builtin.dot, .min, .max].find? fun fn => fn.name.toList = name

/-- The operator with a symbol. -/
def BinaryOp.ofSymbol? (symbol : List Char) : Option BinaryOp :=
  [BinaryOp.add, .mul, .atLeast, .and].find? fun op => op.symbol.toList = symbol

theorem Ty.ofName?_name (ty : Ty) : Ty.ofName? ty.name.toList = some ty := by
  cases ty <;> decide

theorem Var.ofName?_name (v : Var) : Var.ofName? v.name.toList = some v := by
  cases v <;> decide

theorem BinaryOp.ofSymbol?_symbol (op : BinaryOp) :
    BinaryOp.ofSymbol? op.symbol.toList = some op := by
  cases op <;> decide

section Reader

/-- What a name or a number stands for. Numbers begin with a digit or a minus sign, and a point or
an exponent tells floating-point numbers from whole ones. -/
def readAtom (literal : List Char → Option Float32) (word : List Char) : Option Expr :=
  match word with
  | [] => none
  | c :: _ =>
    if c.isDigit || c == '-' then
      if word.contains '.' || word.contains 'e' then (literal word).map Expr.float
      else some (.int (readInt word))
    else if word = neutralName.toList then some .neutral
    else (Var.ofName? word).map Expr.var

/-- What a call stands for. The number of arguments tells apart calls of one name. -/
def readCall (name : List Char) (args : List Expr) : Option Expr :=
  match args with
  | [a] =>
    if name = "all".toList then some (.allLanes a)
    else if name = "float".toList then some (.toFloat a)
    else (Ty.ofName? name).map fun ty => .splat ty a
  | [a, b] =>
    if name = fetchName.toList then some (.fetch a b)
    else (Builtin.ofName? name).map fun fn => .builtin fn a b
  | [a, b, c, d] => (Ty.ofName? name).map fun ty => .pack ty a b c d
  | _ => none

/-- What an operator between two operands stands for. Divisions stand for constants. -/
def readBinary (symbol : List Char) (a b : Expr) : Option Expr :=
  match symbol, a, b with
  | ['/'], .float x, .float y => some (.float (x / y))
  | _, _, _ => (BinaryOp.ofSymbol? symbol).map fun op => .binary op a b

/-- The lane selections after an operand. -/
def readLanes (e : Expr) (text : List Char) : Expr × List Char :=
  match text with
  | '[' :: rest =>
    match _ : rest.dropWhile Char.isDigit with
    | ']' :: rest' => readLanes (.lane e (digitsValue (rest.takeWhile Char.isDigit))) rest'
    | _ => (e, text)
  | _ => (e, text)
termination_by text.length
decreasing_by
  rename_i h
  have hlength := List.length_dropWhile_le Char.isDigit rest
  rw [h] at hlength
  simp only [List.length_cons] at hlength ⊢
  omega

/-- The arguments of a call, at most `n` of them, up to the closing parenthesis. -/
def readArgs (expr : Reader Expr) : Nat → Reader (List Expr)
  | 0, _ => none
  | n + 1, text =>
    match expr text with
    | some (e, ')' :: rest) => some ([e], rest)
    | some (e, ',' :: ' ' :: rest) => (readArgs expr n rest).map fun r => (e :: r.1, r.2)
    | _ => none

variable (literal : List Char → Option Float32)

/-- An operand without its lane selections. -/
def readPrimary (expr : Reader Expr) (text : List Char) : Option (Expr × List Char) :=
  match text with
  | '(' :: rest =>
    match expr rest with
    | some (e, ')' :: rest) => some (e, rest)
    | _ => none
  | _ =>
    let (word, rest) := readWord text
    -- A coordinate looks like a lane of a call without arguments.
    if word = "getOutputCoords".toList then do
      let (axis, rest) := readNat (← expect "()[" rest)
      some (.coord axis, ← expect "]" rest)
    else
      match rest with
      | '(' :: rest => do
        let (args, rest) ← readArgs expr 4 rest
        some (← readCall word args, rest)
      | _ => (readAtom literal word).map fun e => (e, rest)

/-- An operand. -/
def readOperand (expr : Reader Expr) (text : List Char) : Option (Expr × List Char) :=
  (readPrimary literal expr text).map fun r => readLanes r.1 r.2

/-- An expression. -/
def readExpr : Nat → Reader Expr
  | 0, _ => none
  | fuel + 1, text =>
    match readOperand literal (readExpr fuel) text with
    | some (a, ' ' :: rest) => do
      let (symbol, rest) := readWord rest
      let (b, rest) ← readOperand literal (readExpr fuel) (← expect " " rest)
      some (← readBinary symbol a b, rest)
    | r => r

end Reader

/-! ## Texts of expressions -/

/-- The texts of arguments, with what stands between them. -/
def argsText (args : List Expr) : List Char :=
  ", ".toList.intercalate (args.map fun a => a.glsl.toList)

theorem argsText_singleton (a : Expr) : argsText [a] = a.glsl.toList := by
  simp [argsText, List.intercalate]

theorem argsText_cons_cons (a b : Expr) (args : List Expr) :
    argsText (a :: b :: args) = a.glsl.toList ++ ',' :: ' ' :: argsText (b :: args) := by
  simp [argsText, List.intercalate]

theorem toList_callText (name : String) (args : List Expr) :
    (callText name (args.map Expr.glsl)).toList
      = name.toList ++ '(' :: (argsText args ++ [')']) := by
  simp [callText, argsText, String.toList_append, String.toList_intercalate, Function.comp_def]

/-- An operand stands as it is or in parentheses. -/
theorem toList_operandText (e : Expr) (text : String) :
    (operandText e text).toList = text.toList
      ∨ (operandText e text).toList = '(' :: (text.toList ++ [')']) := by
  unfold operandText
  split
  · exact Or.inr (by simp [String.toList_append])
  · exact Or.inl rfl

theorem toList_glsl_binary (op : BinaryOp) (a b : Expr) :
    (Expr.binary op a b).glsl.toList = (operandText a a.glsl).toList
      ++ ' ' :: (op.symbol.toList ++ ' ' :: (operandText b b.glsl).toList) := by
  have hglsl : (Expr.binary op a b).glsl = operandText a a.glsl ++ " " ++ op.symbol ++ " "
      ++ operandText b b.glsl := rfl
  rw [hglsl]
  simp [String.toList_append]

theorem toList_glsl_lane (e : Expr) (k : Nat) :
    (Expr.lane e k).glsl.toList
      = (operandText e e.glsl).toList ++ '[' :: ((toString k).toList ++ [']']) := by
  have hglsl : (Expr.lane e k).glsl = operandText e e.glsl ++ "[" ++ toString k ++ "]" := rfl
  rw [hglsl]
  simp [String.toList_append]

theorem toList_glsl_coord (axis : Nat) :
    (Expr.coord axis).glsl.toList
      = "getOutputCoords()".toList ++ '[' :: ((toString axis).toList ++ [']']) := by
  have hglsl : (Expr.coord axis).glsl = "getOutputCoords()[" ++ toString axis ++ "]" := rfl
  rw [hglsl]
  simp [String.toList_append]

/-- A literal stands as it is, or in parentheses if it is a division. -/
theorem toList_glsl_float (x : Float32) :
    (Expr.float x).glsl.toList = (floatLiteral x).toList
      ∨ (Expr.float x).glsl.toList = '(' :: ((floatLiteral x).toList ++ [')']) := by
  by_cases hx : x.isFinite = true
  · exact Or.inl (congrArg String.toList (if_pos hx))
  · have hglsl : (Expr.float x).glsl = "(" ++ floatLiteral x ++ ")" := if_neg hx
    exact Or.inr (by rw [hglsl]; simp [String.toList_append])

/-! ## Parts of expressions -/

theorem readLanes_lane (e : Expr) (k : Nat) (rest : List Char) :
    readLanes e ('[' :: ((toString k).toList ++ ']' :: rest)) = readLanes (.lane e k) rest := by
  have hnat := readNat_append k (show ']'.isDigit = false by decide) rest
  rw [readNat, Prod.mk.injEq] at hnat
  rw [readLanes]
  split
  · rename_i rest' hrest
    rw [hnat.2] at hrest
    rw [hnat.1, (List.cons.inj hrest).2]
  · rename_i hne
    exact absurd hnat.2 (hne rest)

theorem readLanes_of_ne {c : Char} (hc : c ≠ '[') (e : Expr) (rest : List Char) :
    readLanes e (c :: rest) = (e, c :: rest) := by
  rw [readLanes]
  intro rest' heq
  exact hc (List.cons.inj heq).1

/-- The characters that may follow an operand. -/
def operandStops : List Char :=
  [' ', ')', '[', ',', ';']

/-- The characters that may follow an expression. -/
def exprStops : List Char :=
  [')', ',', ';']

theorem StartsIn.operandStops_of_exprStops {rest : List Char} (h : StartsIn exprStops rest) :
    StartsIn operandStops rest := by
  obtain ⟨c, rest, rfl, hc⟩ := h
  have hstops : (exprStops.all fun c => operandStops.contains c) = true := by
    decide
  exact ⟨c, rest, rfl, List.contains_iff_mem.1 (List.all_eq_true.1 hstops c hc)⟩

theorem readLanes_of_exprStops {rest : List Char} (h : StartsIn exprStops rest) (e : Expr) :
    readLanes e rest = (e, rest) := by
  obtain ⟨c, rest, rfl, hc⟩ := h
  apply readLanes_of_ne
  rintro rfl
  revert hc
  decide

/-- Reading an expression's text gives the expression back, given fuel for its size. Lane selections
that follow belong to an operand. -/
structure Expr.Readable (literal : List Char → Option Float32) (e : Expr) : Prop where
  operand : e.isBinary = false → ∀ fuel, sizeOf e ≤ fuel → ∀ rest, StartsIn operandStops rest →
    readOperand literal (readExpr literal fuel) (e.glsl.toList ++ rest) = some (readLanes e rest)
  expr : ∀ fuel, sizeOf e < fuel → ∀ rest, StartsIn exprStops rest →
    readExpr literal fuel (e.glsl.toList ++ rest) = some (e, rest)

section Parts

variable {literal : List Char → Option Float32} {e : Expr}

/-- What is read as an operand is read as an expression. -/
theorem Expr.Readable.of_operand
    (h : ∀ fuel, sizeOf e ≤ fuel → ∀ rest, StartsIn operandStops rest →
      readOperand literal (readExpr literal fuel) (e.glsl.toList ++ rest)
        = some (readLanes e rest)) : e.Readable literal where
  operand := fun _ => h
  expr := by
    rintro (_ | fuel) hfuel rest hrest
    · exact absurd hfuel (Nat.not_lt_zero _)
    · rw [readExpr, h fuel (Nat.le_of_lt_succ hfuel) _ hrest.operandStops_of_exprStops,
        readLanes_of_exprStops hrest]
      -- An operator would be announced by a blank.
      obtain ⟨c, rest, rfl, hc⟩ := hrest
      have hblank : c ≠ ' ' := by
        rintro rfl
        revert hc
        decide
      split
      · rename_i heq
        exact absurd (List.cons.inj (Prod.mk.inj (Option.some.inj heq)).2).1 hblank
      · rfl

/-- An operand with or without its parentheses. -/
theorem Expr.Readable.operandText (h : e.Readable literal) {fuel : Nat} (hfuel : sizeOf e < fuel)
    {rest : List Char} (hrest : StartsIn operandStops rest) :
    readOperand literal (readExpr literal fuel) ((operandText e e.glsl).toList ++ rest)
      = some (readLanes e rest) := by
  unfold WindowReduction.operandText
  split
  · have htext : ("(" ++ e.glsl ++ ")").toList ++ rest = '(' :: (e.glsl.toList ++ ')' :: rest) := by
      simp [String.toList_append]
    rw [htext, readOperand, readPrimary, h.expr fuel hfuel _ ⟨')', rest, rfl, by decide⟩]
    rfl
  · rename_i hbinary
    exact h.operand (Bool.eq_false_iff.2 hbinary) fuel hfuel.le rest hrest

/-! ### Names, numbers and calls -/

section Words

variable {expr : Reader Expr} {word : List Char}

/-- A text that is not in parentheses begins with a word. -/
theorem readPrimary_of_word (hword : IsWord word) (hne : word ≠ []) {c : Char}
    (hc : isSeparator c = true) (rest : List Char) :
    readPrimary literal expr (word ++ c :: rest)
      = if word = "getOutputCoords".toList then do
          let (axis, rest) := readNat (← expect "()[" (c :: rest))
          some (.coord axis, ← expect "]" rest)
        else
          match c :: rest with
          | '(' :: rest => do
            let (args, rest) ← readArgs expr 4 rest
            some (← readCall word args, rest)
          | _ => (readAtom literal word).map fun e => (e, c :: rest) := by
  obtain ⟨first, tail, rfl⟩ := List.exists_cons_of_ne_nil hne
  have hfirst : first ≠ '(' := by
    rintro rfl
    exact absurd (isWord_iff.1 hword '(' List.mem_cons_self) (by decide)
  rw [readPrimary]
  · rw [readWord_append hword hc]
  · intro rest' heq
    exact hfirst (List.cons.inj heq).1

theorem readPrimary_of_call (hword : IsWord word) (hne : word ≠ [])
    (hcoord : word ≠ "getOutputCoords".toList) (rest : List Char) :
    readPrimary literal expr (word ++ '(' :: rest) = (do
      let (args, rest) ← readArgs expr 4 rest
      some (← readCall word args, rest)) := by
  rw [readPrimary_of_word hword hne (by decide), if_neg hcoord]
  rfl

theorem readPrimary_of_atom (hword : IsWord word) (hne : word ≠ [])
    (hcoord : word ≠ "getOutputCoords".toList) {c : Char} (hc : isSeparator c = true)
    (hcall : c ≠ '(') (rest : List Char) :
    readPrimary literal expr (word ++ c :: rest)
      = (readAtom literal word).map fun e => (e, c :: rest) := by
  rw [readPrimary_of_word hword hne hc, if_neg hcoord]
  split
  · rename_i heq
    exact absurd (List.cons.inj heq).1 hcall
  · rfl

theorem readArgs_last {text rest : List Char} (h : expr text = some (e, ')' :: rest)) (n : Nat) :
    readArgs expr (n + 1) text = some ([e], rest) := by
  rw [readArgs, h]
  rfl

theorem readArgs_more {text rest : List Char} (h : expr text = some (e, ',' :: ' ' :: rest))
    (n : Nat) :
    readArgs expr (n + 1) text = (readArgs expr n rest).map fun r => (e :: r.1, r.2) := by
  rw [readArgs, h]
  rfl

/-- Arguments that are read back one by one are read back together. -/
theorem readArgs_argsText {args : List Expr} (hne : args ≠ []) {n : Nat}
    (hlength : args.length ≤ n)
    (hargs : ∀ a ∈ args, ∀ rest, StartsIn exprStops rest →
      expr (a.glsl.toList ++ rest) = some (a, rest)) (rest : List Char) :
    readArgs expr n (argsText args ++ ')' :: rest) = some (args, rest) := by
  induction args generalizing n with
  | nil => exact absurd rfl hne
  | cons a args ih =>
      cases n with
      | zero => exact absurd hlength (Nat.not_succ_le_zero _)
      | succ n =>
          have ha := hargs a List.mem_cons_self
          cases args with
          | nil =>
              rw [argsText_singleton]
              exact readArgs_last (ha _ ⟨')', rest, rfl, by decide⟩) n
          | cons b args =>
              have hrest := ih (List.cons_ne_nil b args) (Nat.le_of_succ_le_succ hlength)
                fun c hc => hargs c (List.mem_cons_of_mem a hc)
              rw [argsText_cons_cons, List.append_assoc, List.cons_append, List.cons_append,
                readArgs_more (ha _ ⟨',', _, rfl, by decide⟩), hrest]
              rfl

end Words

/-- A word that stands for an expression. -/
structure IsAtom (literal : List Char → Option Float32) (word : List Char) (e : Expr) : Prop where
  isWord : IsWord word
  ne_nil : word ≠ []
  ne_coord : word ≠ "getOutputCoords".toList
  readAtom_eq : readAtom literal word = some e

theorem IsAtom.readOperand_eq {word : List Char} (h : IsAtom literal word e) (expr : Reader Expr)
    {rest : List Char} (hrest : StartsIn operandStops rest) :
    readOperand literal expr (word ++ rest) = some (readLanes e rest) := by
  obtain ⟨c, rest, rfl, hc⟩ := hrest
  have hstops : (operandStops.all fun c => isSeparator c && c != '(') = true := by
    decide
  have hseparator : isSeparator c = true ∧ c ≠ '(' := by
    simpa using List.all_eq_true.1 hstops c hc
  rw [readOperand,
    readPrimary_of_atom h.isWord h.ne_nil h.ne_coord hseparator.1 hseparator.2, h.readAtom_eq]
  rfl

theorem IsAtom.readable (h : IsAtom literal e.glsl.toList e) : e.Readable literal :=
  .of_operand fun _ _ _ hrest => h.readOperand_eq _ hrest

/-- A call on at most four arguments that are read back. -/
theorem Expr.readable_of_call (name : String) (args : List Expr)
    (htext : e.glsl = callText name (args.map Expr.glsl)) (hword : IsWord name.toList)
    (hne : name.toList ≠ []) (hcoord : name.toList ≠ "getOutputCoords".toList)
    (hargs : args ≠ []) (hlength : args.length ≤ 4) (hcall : readCall name.toList args = some e)
    (hsize : ∀ a ∈ args, sizeOf a < sizeOf e) (hread : ∀ a ∈ args, a.Readable literal) :
    e.Readable literal := by
  apply Expr.Readable.of_operand
  intro fuel hfuel rest _
  have hargsText := readArgs_argsText hargs hlength
    (fun a ha => (hread a ha).expr fuel (Nat.lt_of_lt_of_le (hsize a ha) hfuel)) rest
  have hsplit : e.glsl.toList ++ rest = name.toList ++ '(' :: (argsText args ++ ')' :: rest) := by
    rw [htext, toList_callText]
    simp
  rw [hsplit, readOperand, readPrimary_of_call hword hne hcoord, hargsText]
  dsimp only [bind, Option.bind]
  rw [hcall]
  rfl

/-! ### Lanes and operators -/

theorem Expr.readable_coord (axis : Nat) : (Expr.coord axis).Readable literal := by
  apply Expr.Readable.of_operand
  intro fuel _ rest _
  have htext : (Expr.coord axis).glsl.toList ++ rest
      = "getOutputCoords".toList
        ++ '(' :: (')' :: '[' :: ((toString axis).toList ++ ']' :: rest)) := by
    simp [toList_glsl_coord]
  have hopen : expect "()[" ('(' :: ')' :: '[' :: ((toString axis).toList ++ ']' :: rest))
      = some ((toString axis).toList ++ ']' :: rest) := expect_append "()[" _
  have hclose : expect "]" (']' :: rest) = some rest := expect_append "]" rest
  rw [htext, readOperand, readPrimary_of_word (by decide) (by decide) (by decide), if_pos rfl,
    hopen]
  dsimp only [bind, Option.bind]
  rw [readNat_append axis (by decide), hclose]
  rfl

theorem Expr.Readable.lane (h : e.Readable literal) (k : Nat) :
    (Expr.lane e k).Readable literal := by
  apply Expr.Readable.of_operand
  intro fuel hfuel rest _
  have hsize : sizeOf e < fuel := by
    simp only [Expr.lane.sizeOf_spec] at hfuel
    omega
  have htext : (Expr.lane e k).glsl.toList ++ rest
      = (WindowReduction.operandText e e.glsl).toList
        ++ '[' :: ((toString k).toList ++ ']' :: rest) := by
    simp [toList_glsl_lane]
  rw [htext, h.operandText hsize ⟨'[', _, rfl, by decide⟩, readLanes_lane]

theorem readBinary_symbol (op : BinaryOp) (a b : Expr) :
    readBinary op.symbol.toList a b = some (.binary op a b) := by
  have hne : op.symbol.toList ≠ ['/'] := by
    cases op <;> decide
  unfold readBinary
  split
  · rename_i hsymbol
    exact absurd hsymbol hne
  · rw [BinaryOp.ofSymbol?_symbol]
    rfl

/-- An operator with its operands. -/
theorem readExpr_operator {a b : Expr} {left symbol right rest : List Char} {fuel : Nat}
    (ha : ∀ rest, StartsIn operandStops rest →
      readOperand literal (readExpr literal fuel) (left ++ rest) = some (readLanes a rest))
    (hb : ∀ rest, StartsIn operandStops rest →
      readOperand literal (readExpr literal fuel) (right ++ rest) = some (readLanes b rest))
    (hword : IsWord symbol) (he : readBinary symbol a b = some e)
    (hrest : StartsIn exprStops rest) :
    readExpr literal (fuel + 1) (left ++ ' ' :: (symbol ++ ' ' :: (right ++ rest)))
      = some (e, rest) := by
  have hblank : expect " " (' ' :: (right ++ rest)) = some (right ++ rest) := expect_append " " _
  rw [readExpr, ha _ ⟨' ', _, rfl, by decide⟩, readLanes_of_ne (by decide)]
  change (do
    let (symbol, rest) := readWord (symbol ++ ' ' :: (right ++ rest))
    let (b, rest) ← readOperand literal (readExpr literal fuel) (← expect " " rest)
    some (← readBinary symbol a b, rest)) = _
  rw [readWord_append hword (by decide)]
  dsimp only [bind, Option.bind]
  rw [hblank]
  dsimp only
  rw [hb rest hrest.operandStops_of_exprStops, readLanes_of_exprStops hrest]
  dsimp only
  rw [he]

theorem Expr.Readable.binary {a b : Expr} (ha : a.Readable literal) (hb : b.Readable literal)
    (op : BinaryOp) : (Expr.binary op a b).Readable literal where
  operand := fun hbinary => by cases hbinary
  expr := by
    rintro (_ | fuel) hfuel rest hrest
    · exact absurd hfuel (Nat.not_lt_zero _)
    · have hsize : sizeOf a < fuel ∧ sizeOf b < fuel := by
        simp only [Expr.binary.sizeOf_spec] at hfuel
        omega
      have htext : (Expr.binary op a b).glsl.toList ++ rest
          = (WindowReduction.operandText a a.glsl).toList ++ ' ' :: (op.symbol.toList
            ++ ' ' :: ((WindowReduction.operandText b b.glsl).toList ++ rest)) := by
        simp [toList_glsl_binary]
      rw [htext]
      exact readExpr_operator (fun _ => ha.operandText hsize.1) (fun _ => hb.operandText hsize.2)
        (by cases op <;> decide) (readBinary_symbol op a b) hrest

end Parts

/-! ### Numbers -/

section Numbers

variable {literal : List Char → Option Float32}

theorem isSeparator_of_isNumberChar {c : Char} (h : IsNumberChar c) : isSeparator c = false := by
  rw [Bool.eq_false_iff]
  intro hseparator
  exact h.not_mem (by decide) (List.contains_iff_mem.1 hseparator)

/-- A number is told from a name by its first character. -/
theorem isAtom_of_number {word : List Char} {e : Expr} (hchars : ∀ c ∈ word, IsNumberChar c)
    (hfirst : ∃ first rest, word = first :: rest ∧ (first.isDigit = true ∨ first = '-'))
    (hread : (if word.contains '.' || word.contains 'e' then (literal word).map Expr.float
      else some (.int (readInt word))) = some e) : IsAtom literal word e := by
  obtain ⟨first, rest, rfl, hfirst⟩ := hfirst
  refine ⟨isWord_iff.2 fun c hc => isSeparator_of_isNumberChar (hchars c hc),
    List.cons_ne_nil _ _, ?_, ?_⟩
  · intro heq
    rw [(List.cons.inj heq).1] at hfirst
    revert hfirst
    decide
  · rw [readAtom, if_pos (by simpa using hfirst)]
    exact hread

theorem Expr.readable_int (n : Int) : (Expr.int n).Readable literal := by
  apply IsAtom.readable
  change IsAtom literal (toString n).toList (.int n)
  obtain ⟨first, rest, htext, hfirst, hrest⟩ := exists_toString_int n
  have hnot : ∀ c : Char, c.isDigit = false → c ≠ '-' → (toString n).toList.contains c = false := by
    intro c hc hne
    rw [Bool.eq_false_iff]
    intro hmem
    rw [htext] at hmem
    rcases List.mem_cons.1 (List.contains_iff_mem.1 hmem) with rfl | hmem
    · rcases hfirst with hfirst | rfl
      · rw [hfirst] at hc
        cases hc
      · exact hne rfl
    · exact hrest.not_mem hc hmem
  apply isAtom_of_number (isNumberChar_toString n) ⟨first, rest, htext, hfirst⟩
  rw [hnot '.' (by decide) (by decide), hnot 'e' (by decide) (by decide), readInt_toString]
  rfl

/-- What a reader is told about literals. -/
def ReadsLiterals (literal : List Char → Option Float32) : Prop :=
  ∀ x : Float32, x.isNaN = false → literal (floatLiteral x).toList = some x

theorem isAtom_floatLiteral (hliteral : ReadsLiterals literal) {x : Float32}
    (hfinite : x.isFinite = true) : IsAtom literal (floatLiteral x).toList (.float x) := by
  have hnan : x.isNaN = false := by
    obtain ⟨_, _, _, hx⟩ := isFinite_iff_ofFloat.1 hfinite
    rw [Bool.eq_false_iff, Ne, isNaN_iff_ofFloat, hx]
    rintro ⟨⟩
  apply isAtom_of_number (isNumberChar_floatLiteral hfinite) (exists_first_floatLiteral hfinite)
  rw [if_pos, hliteral x hnan]
  · rfl
  · rw [Bool.or_eq_true, List.contains_iff_mem, List.contains_iff_mem]
    exact mem_mark_floatLiteral hfinite

/-- A number is finite or one of the infinities. -/
theorem isFinite_or_infinite {x : Float32} (h : x.isNaN = false) :
    x.isFinite = true ∨ x = 1.0 / 0.0 ∨ x = -1.0 / 0.0 := by
  cases hx : Binary32.ofFloat x with
  | nan =>
      rw [isNaN_iff_ofFloat.2 hx] at h
      cases h
  | infinite negative =>
      have hne : Binary32.ofFloat x ≠ .nan := by
        rw [hx]
        rintro ⟨⟩
      cases negative
      · have hinf : Binary32.ofFloat (1.0 / 0.0) = .infinite false := by decide +kernel
        exact Or.inr (Or.inl (Binary32.ofFloat_inj (hx.trans hinf.symm) hne))
      · have hinf : Binary32.ofFloat (-1.0 / 0.0) = .infinite true := by decide +kernel
        exact Or.inr (Or.inr (Binary32.ofFloat_inj (hx.trans hinf.symm) hne))
  | finite negative m e => exact Or.inl (isFinite_iff_ofFloat.2 ⟨negative, m, e, hx⟩)

/-- A constant that is written as a division. -/
theorem Expr.readable_division (hliteral : ReadsLiterals literal) {x y : Float32}
    (hx : x.isFinite = true) (hy : y.isFinite = true)
    (hglsl : (Expr.float (x / y)).glsl = "(" ++ floatLiteral x ++ " / " ++ floatLiteral y ++ ")") :
    (Expr.float (x / y)).Readable literal := by
  apply Expr.Readable.of_operand
  rintro (_ | fuel) hfuel rest _
  · simp at hfuel
  · have htext : (Expr.float (x / y)).glsl.toList ++ rest
        = '(' :: ((floatLiteral x).toList ++ ' ' :: (['/'] ++ ' ' ::
          ((floatLiteral y).toList ++ ')' :: rest))) := by
      simp [hglsl, String.toList_append]
    have hinner : readExpr literal (fuel + 1) ((floatLiteral x).toList ++ ' ' :: (['/'] ++ ' ' ::
          ((floatLiteral y).toList ++ ')' :: rest))) = some (.float (x / y), ')' :: rest) :=
      readExpr_operator
        (fun _ => (isAtom_floatLiteral hliteral hx).readOperand_eq _)
        (fun _ => (isAtom_floatLiteral hliteral hy).readOperand_eq _)
        (by decide) rfl ⟨')', rest, rfl, by decide⟩
    rw [htext, readOperand, readPrimary, hinner]
    rfl

theorem Expr.readable_float (hliteral : ReadsLiterals literal) {x : Float32}
    (h : x.isNaN = false) : (Expr.float x).Readable literal := by
  rcases isFinite_or_infinite h with hfinite | rfl | rfl
  · have hglsl : (Expr.float x).glsl = floatLiteral x := if_pos hfinite
    apply IsAtom.readable
    rw [hglsl]
    exact isAtom_floatLiteral hliteral hfinite
  · exact Expr.readable_division hliteral (by decide +kernel) (by decide +kernel)
      (by decide +kernel)
  · exact Expr.readable_division hliteral (by decide +kernel) (by decide +kernel)
      (by decide +kernel)

end Numbers

/-! ## Expressions -/

/-- Whether the outermost constructor can be told from the text. A NaN is written as one division
whatever its bits, and a `float` splat is written like a conversion. -/
def Expr.isLegible : Expr → Bool
  | .float x => !x.isNaN
  | .splat .float _ => false
  | _ => true

/-- All parts of the expression can be told from the text. -/
def Expr.Legible (e : Expr) : Prop :=
  ∀ t ∈ e.subterms, t.isLegible = true

/-- Reading the text of an expression gives the expression back. -/
theorem Expr.readable {literal : List Char → Option Float32} (hliteral : ReadsLiterals literal)
    {e : Expr} (h : e.Legible) : e.Readable literal := by
  induction e with
  | int n => exact Expr.readable_int n
  | float x =>
      have hx : (!x.isNaN) = true := h _ List.mem_cons_self
      exact Expr.readable_float hliteral (by simpa using hx)
  | neutral => exact IsAtom.readable ⟨by decide, by decide, by decide, rfl⟩
  | var v =>
      apply IsAtom.readable
      cases v <;> exact ⟨by decide, by decide, by decide, rfl⟩
  | coord axis => exact Expr.readable_coord axis
  | fetch r k ihr ihk =>
      have hr : r.Legible := fun t ht => h t (by simp [Expr.subterms, ht])
      have hk : k.Legible := fun t ht => h t (by simp [Expr.subterms, ht])
      exact Expr.readable_of_call fetchName [r, k] rfl (by decide) (by decide) (by decide)
        (by simp) (by simp) rfl (by simp; omega) (by simp [ihr hr, ihk hk])
  | binary op a b iha ihb =>
      have ha : a.Legible := fun t ht => h t (by simp [Expr.subterms, ht])
      have hb : b.Legible := fun t ht => h t (by simp [Expr.subterms, ht])
      exact (iha ha).binary (ihb hb) op
  | builtin fn a b iha ihb =>
      have ha : a.Legible := fun t ht => h t (by simp [Expr.subterms, ht])
      have hb : b.Legible := fun t ht => h t (by simp [Expr.subterms, ht])
      exact Expr.readable_of_call fn.name [a, b] rfl (by cases fn <;> decide)
        (by cases fn <;> decide) (by cases fn <;> decide) (by simp) (by simp)
        (by cases fn <;> rfl) (by simp; omega) (by simp [iha ha, ihb hb])
  | lane v k ih => exact (ih fun t ht => h t (by simp [Expr.subterms, ht])).lane k
  | pack ty a b c d iha ihb ihc ihd =>
      have ha : a.Legible := fun t ht => h t (by simp [Expr.subterms, ht])
      have hb : b.Legible := fun t ht => h t (by simp [Expr.subterms, ht])
      have hc : c.Legible := fun t ht => h t (by simp [Expr.subterms, ht])
      have hd : d.Legible := fun t ht => h t (by simp [Expr.subterms, ht])
      exact Expr.readable_of_call ty.name [a, b, c, d] rfl (by cases ty <;> decide)
        (by cases ty <;> decide) (by cases ty <;> decide) (by simp) (by simp)
        (by cases ty <;> rfl) (by simp; omega) (by simp [iha ha, ihb hb, ihc hc, ihd hd])
  | splat ty e ih =>
      have he : e.Legible := fun t ht => h t (by simp [Expr.subterms, ht])
      have hty : (Expr.splat ty e).isLegible = true := h _ List.mem_cons_self
      refine Expr.readable_of_call ty.name [e] rfl (by cases ty <;> decide)
        (by cases ty <;> decide) (by cases ty <;> decide) (by simp) (by simp) ?_ (by simp)
        (by simp [ih he])
      cases ty with
      | float => cases hty
      | int => rfl
      | bool => rfl
      | vec4 => rfl
      | bvec4 => rfl
  | allLanes v ih =>
      have hv : v.Legible := fun t ht => h t (by simp [Expr.subterms, ht])
      exact Expr.readable_of_call "all" [v] rfl (by decide) (by decide) (by decide)
        (by simp) (by simp) rfl (by simp) (by simp [ih hv])
  | toFloat e ih =>
      have he : e.Legible := fun t ht => h t (by simp [Expr.subterms, ht])
      exact Expr.readable_of_call "float" [e] rfl (by decide) (by decide) (by decide)
        (by simp) (by simp) rfl (by simp) (by simp [ih he])

end WindowReduction
