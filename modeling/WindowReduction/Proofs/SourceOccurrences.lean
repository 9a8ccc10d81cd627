import WindowReduction.Proofs.SourceReading

/-!
# Fetches and operators in a kernel's source

Calls of the fetch helper and operators are printed for expressions of their own kind and for
nothing else, once for each of them. How often their texts occur in a kernel's source is therefore
how often the walk over the kernel's expressions meets them; the declaration of the fetch helper
adds one occurrence of its name.

Names, numbers and literals are written without the characters of these texts, and whatever stands
next to a blank begins and ends without one, so that none comes about where two parts meet.

Main statements: `occurrences_append` (counting on both sides of a boundary),
`Expr.occurrences_glsl`, `Stmt.occurrences_lines` and `Kernel.occurrences_source`.
-/

namespace WindowReduction

/-! ## Occurrences -/

/-- The number of places in a text where another one begins. -/
def occurrences (needle text : List Char) : Nat :=
  text.tails.countP needle.isPrefixOf

/-- The part of a text from the first occurrence of another one on. -/
def textFrom (needle text : List Char) : List Char :=
  (text.tails.find? needle.isPrefixOf).getD []

section Occurrences

variable {needle left right text : List Char} {c : Char}

theorem occurrences_cons (needle : List Char) (c : Char) (text : List Char) :
    occurrences needle (c :: text)
      = occurrences needle text + if needle.isPrefixOf (c :: text) then 1 else 0 := by
  rw [occurrences, List.tails, List.countP_cons]
  rfl

theorem occurrences_nil (hne : needle ≠ []) : occurrences needle [] = 0 := by
  cases needle with
  | nil => exact absurd rfl hne
  | cons c needle => rfl

/-- A text does not occur where one of its characters is missing. -/
theorem occurrences_eq_zero (hc : c ∈ needle) (htext : c ∉ text) : occurrences needle text = 0 := by
  rw [occurrences, List.countP_eq_zero]
  intro tail htail hprefix
  have hsuffix : tail <:+ text := (List.mem_tails tail text).1 htail
  exact htext (hsuffix.subset ((List.isPrefixOf_iff_prefix.1 hprefix).subset hc))

/-- A boundary between two texts that no occurrence lies across: its two sides are not neighbours in
the text that is looked for. -/
def Separate (needle left right : List Char) : Prop :=
  ∀ x ∈ left.getLast?, ∀ y ∈ right.head?, (x, y) ∉ needle.zip needle.tail

theorem mem_zip_tail (before : List Char) (x y : Char) (later : List Char) :
    (x, y) ∈ (before ++ x :: y :: later).zip (before ++ x :: y :: later).tail := by
  induction before with
  | nil => simp
  | cons c before ih =>
      cases before with
      | nil => simp
      | cons d before => exact List.mem_cons_of_mem _ ih

theorem Separate.prefix_append_iff (h : Separate needle left right) (hne : left ≠ []) :
    needle <+: left ++ right ↔ needle <+: left := by
  constructor
  · intro hprefix
    rcases List.prefix_or_prefix_of_prefix hprefix (List.prefix_append left right) with
      hleft | ⟨later, rfl⟩
    · exact hleft
    · cases later with
      | nil => rw [List.append_nil]
      | cons y later =>
          -- The last character on the left and the first one on the right are neighbours.
          obtain ⟨rest, rfl⟩ := (List.prefix_append_right_inj left).1 hprefix
          obtain ⟨before, x, rfl⟩ := (List.eq_nil_or_concat' left).resolve_left hne
          have hpair := mem_zip_tail before x y later
          rw [List.append_cons] at hpair
          exact absurd hpair (h x (by simp) y rfl)
  · intro hleft
    exact hleft.trans (List.prefix_append left right)

/-- Occurrences on both sides of a boundary add up. -/
theorem occurrences_append (hne : needle ≠ []) (h : Separate needle left right) :
    occurrences needle (left ++ right) = occurrences needle left + occurrences needle right := by
  induction left with
  | nil => rw [List.nil_append, occurrences_nil hne, Nat.zero_add]
  | cons c left ih =>
      have hrest : Separate needle left right := by
        intro x hx y hy
        refine h x ?_ y hy
        cases left with
        | nil => simp at hx
        | cons _ _ => simpa using hx
      have hfirst : needle.isPrefixOf (c :: (left ++ right)) = needle.isPrefixOf (c :: left) := by
        rw [Bool.eq_iff_iff, List.isPrefixOf_iff_prefix, List.isPrefixOf_iff_prefix]
        exact h.prefix_append_iff (List.cons_ne_nil c left)
      rw [List.cons_append, occurrences_cons, occurrences_cons, ih hrest, hfirst]
      omega

/-- A character that a text does not have separates its occurrences. -/
theorem occurrences_append_cons (hne : needle ≠ []) (hc : c ∉ needle) :
    occurrences needle (left ++ c :: right)
      = occurrences needle left + occurrences needle right := by
  have hbefore : Separate needle left (c :: right) := by
    rintro x - _ ⟨⟩ hpair
    exact hc (List.mem_of_mem_tail (List.of_mem_zip hpair).2)
  have hfirst : ¬needle.isPrefixOf (c :: right) = true := by
    obtain ⟨d, needle, rfl⟩ := List.exists_cons_of_ne_nil hne
    rw [List.isPrefixOf_iff_prefix, List.cons_prefix_cons]
    rintro ⟨rfl, -⟩
    exact hc List.mem_cons_self
  rw [occurrences_append hne hbefore, occurrences_cons, if_neg hfirst, Nat.add_zero]

theorem textFrom_cons (needle : List Char) (c : Char) (text : List Char) :
    textFrom needle (c :: text)
      = if needle.isPrefixOf (c :: text) then c :: text else textFrom needle text := by
  rw [textFrom, List.tails, List.find?_cons]
  split <;> simp_all [textFrom]

/-- What precedes the first occurrence is cut off. -/
theorem textFrom_append (hleft : c ∉ left) (hright : c :: needle <+: right) :
    textFrom (c :: needle) (left ++ right) = right := by
  induction left with
  | nil =>
      have hfirst := List.isPrefixOf_iff_prefix.2 hright
      obtain ⟨rest, rfl⟩ := hright
      rw [List.nil_append, List.cons_append, textFrom_cons]
      exact if_pos hfirst
  | cons x left ih =>
      obtain ⟨hx, hleft⟩ := List.ne_and_not_mem_of_not_mem_cons hleft
      have hnot : ¬(c :: needle).isPrefixOf (x :: (left ++ right)) = true := by
        simp [List.isPrefixOf, hx]
      rw [List.cons_append, textFrom_cons, if_neg hnot, ih hleft]

end Occurrences

/-! ## Marks -/

/-- The texts that show what an expression is: the call of the fetch helper and the operators. -/
inductive Mark where
  | fetch
  | operator (op : BinaryOp)
  deriving DecidableEq, Repr

/-- How a mark is written. -/
def Mark.text : Mark → List Char
  | .fetch => fetchName.toList ++ ['(']
  | .operator op => ' ' :: (op.symbol.toList ++ [' '])

/-- The mark that an expression is printed with, besides those of its operands. -/
def Expr.mark? : Expr → Option Mark
  | .fetch _ _ => some .fetch
  | .binary op _ _ => some (.operator op)
  | _ => none

theorem Mark.forall_iff {P : Mark → Prop} :
    (∀ m, P m) ↔ P .fetch ∧ ∀ op ∈ [BinaryOp.add, .mul, .atLeast, .and], P (.operator op) := by
  constructor
  · intro h
    exact ⟨h .fetch, fun op _ => h (.operator op)⟩
  · rintro ⟨hfetch, hoperator⟩ (_ | op)
    · exact hfetch
    · exact hoperator op (by cases op <;> decide)

instance {P : Mark → Prop} [DecidablePred P] : Decidable (∀ m, P m) :=
  decidable_of_iff' _ Mark.forall_iff

/-- The characters that operators are written with. -/
def symbolChars : List Char :=
  ['+', '*', '>', '=', '&']

/-- Characters that stand between the parts of a line and have no place in a mark. -/
def stopChars : List Char :=
  [',', ')', '[', ']', ';', '\n']

/-- A text that does not begin or end with a character of an operator. -/
def Clear (text : List Char) : Prop :=
  (text.head?.all fun c => c ∉ symbolChars) = true
    ∧ (text.getLast?.all fun c => c ∉ symbolChars) = true

instance (text : List Char) : Decidable (Clear text) :=
  inferInstanceAs (Decidable (_ ∧ _))

/-- A text without characters of operators and without opening parentheses. -/
def IsPlain (text : List Char) : Prop :=
  (text.all fun c => c ∉ '(' :: symbolChars) = true

instance (text : List Char) : Decidable (IsPlain text) :=
  inferInstanceAs (Decidable (_ = true))

section Clear

variable {left right text : List Char}

theorem clear_iff :
    Clear text ↔ (∀ c ∈ text.head?, c ∉ symbolChars) ∧ ∀ c ∈ text.getLast?, c ∉ symbolChars := by
  simp only [Clear, Option.all_eq_true, decide_eq_true_eq, Option.mem_def]

theorem isPlain_iff : IsPlain text ↔ ∀ c ∈ text, c ∉ '(' :: symbolChars := by
  simp only [IsPlain, List.all_eq_true, decide_eq_true_eq]

theorem Clear.append (hleft : Clear left) (hright : Clear right) : Clear (left ++ right) := by
  rw [clear_iff] at hleft hright ⊢
  constructor
  · intro c hc
    cases left with
    | nil => exact hright.1 c hc
    | cons x left => exact hleft.1 c hc
  · intro c hc
    rw [List.getLast?_append] at hc
    cases hlast : right.getLast? with
    | none => exact hleft.2 c (by simpa [hlast] using hc)
    | some y => exact hright.2 c (by simpa [hlast] using hc)

theorem IsPlain.append (hleft : IsPlain left) (hright : IsPlain right) :
    IsPlain (left ++ right) := by
  rw [isPlain_iff] at hleft hright ⊢
  exact List.forall_mem_append.2 ⟨hleft, hright⟩

theorem Clear.toList_append {s t : String} (hs : Clear s.toList) (ht : Clear t.toList) :
    Clear (s ++ t).toList := by
  rw [String.toList_append]
  exact hs.append ht

theorem IsPlain.toList_append {s t : String} (hs : IsPlain s.toList) (ht : IsPlain t.toList) :
    IsPlain (s ++ t).toList := by
  rw [String.toList_append]
  exact hs.append ht

theorem IsPlain.clear (h : IsPlain text) : Clear text := by
  have hplain : ∀ c ∈ text, c ∉ symbolChars := fun c hc hsymbol =>
    isPlain_iff.1 h c hc (List.mem_cons_of_mem _ hsymbol)
  exact clear_iff.2 ⟨fun c hc => hplain c (List.mem_of_mem_head? hc),
    fun c hc => hplain c (List.mem_of_mem_getLast? hc)⟩

/-- A text in parentheses or brackets. -/
theorem clear_enclosed {c d : Char} (hc : c ∉ symbolChars) (hd : d ∉ symbolChars) :
    Clear (c :: (text ++ [d])) := by
  rw [clear_iff]
  constructor
  · rintro _ ⟨⟩
    exact hc
  · intro x hx
    rw [← List.cons_append, List.getLast?_concat] at hx
    obtain rfl := Option.some.inj hx
    exact hd

theorem IsNumberChar.not_mem_symbolChars {c : Char} (h : IsNumberChar c) :
    c ∉ '(' :: symbolChars :=
  h.not_mem (by decide)

theorem isPlain_toString_int (n : Int) : IsPlain (toString n).toList :=
  isPlain_iff.2 fun c hc => (isNumberChar_toString n c hc).not_mem_symbolChars

theorem isPlain_toString_nat (n : Nat) : IsPlain (toString n).toList :=
  isPlain_toString_int n

/-- A literal has the characters of numbers and those of a division. -/
theorem mem_floatLiteral (x : Float32) :
    ∀ c ∈ (floatLiteral x).toList, IsNumberChar c ∨ c = ' ' ∨ c = '/' := by
  have hconstant : ∀ text : String,
      (text.toList.all fun c => IsNumberChar c ∨ c = ' ' ∨ c = '/') = true →
      ∀ c ∈ text.toList, IsNumberChar c ∨ c = ' ' ∨ c = '/' := by
    intro text h c hc
    exact of_decide_eq_true (List.all_eq_true.1 h c hc)
  cases hx : Text.Binary32.ofFloat x with
  | nan =>
      rw [floatLiteral, hx]
      exact hconstant _ (by decide)
  | infinite negative =>
      rw [floatLiteral, hx]
      cases negative <;> exact hconstant _ (by decide)
  | finite negative m e =>
      intro c hc
      have hfinite : x.isFinite = true := isFinite_iff_ofFloat.2 ⟨negative, m, e, hx⟩
      exact Or.inl (isNumberChar_floatLiteral hfinite c hc)

theorem isPlain_floatLiteral (x : Float32) : IsPlain (floatLiteral x).toList := by
  rw [isPlain_iff]
  intro c hc
  rcases mem_floatLiteral x c hc with h | rfl | rfl
  · exact h.not_mem_symbolChars
  · decide
  · decide

theorem Ty.isPlain_name (ty : Ty) : IsPlain ty.name.toList := by
  cases ty <;> decide

theorem Var.isPlain_name (v : Var) : IsPlain v.name.toList := by
  cases v <;> decide

theorem Builtin.isPlain_name (fn : Builtin) : IsPlain fn.name.toList := by
  cases fn <;> decide

end Clear

namespace Mark

variable (m : Mark) {left right text : List Char} {c : Char}

theorem text_ne_nil : m.text ≠ [] := by
  revert m
  decide

/-- The neighbours in a mark: nothing follows a parenthesis, and a blank stands beside a character
of an operator. -/
theorem mem_zip_tail_text {x y : Char} (h : (x, y) ∈ m.text.zip m.text.tail) :
    x ≠ '(' ∧ (x = ' ' → y ∈ symbolChars) ∧ (y = ' ' → x ∈ symbolChars) := by
  have hall : ∀ m : Mark, ((m.text.zip m.text.tail).all fun pair => pair.1 ≠ '('
      ∧ (pair.1 = ' ' → pair.2 ∈ symbolChars) ∧ (pair.2 = ' ' → pair.1 ∈ symbolChars)) = true := by
    decide
  exact of_decide_eq_true (List.all_eq_true.1 (hall m) (x, y) h)

/-- No mark occurs in another one. -/
theorem occurrences_text (m' : Mark) :
    occurrences m.text m'.text = if m' = m then 1 else 0 := by
  revert m m'
  decide

theorem occurrences_nil : occurrences m.text [] = 0 :=
  WindowReduction.occurrences_nil m.text_ne_nil

/-- No mark is plain. -/
theorem occurrences_of_isPlain (h : IsPlain text) : occurrences m.text text = 0 := by
  have hkey : ∀ m : Mark, (m.text.any fun c => c ∈ '(' :: symbolChars) = true := by
    decide
  obtain ⟨c, hmark, hc⟩ := List.any_eq_true.1 (hkey m)
  exact occurrences_eq_zero hmark fun htext => isPlain_iff.1 h c htext (of_decide_eq_true hc)

/-- Marks on both sides of a character that none of them has. -/
theorem occurrences_append_cons (hc : c ∈ stopChars) :
    occurrences m.text (left ++ c :: right)
      = occurrences m.text left + occurrences m.text right := by
  have hnone : ∀ m : Mark, (stopChars.all fun c => c ∉ m.text) = true := by
    decide
  have hmark : c ∉ m.text := of_decide_eq_true (List.all_eq_true.1 (hnone m) c hc)
  exact WindowReduction.occurrences_append_cons m.text_ne_nil hmark

theorem occurrences_concat (hc : c ∈ stopChars) :
    occurrences m.text (text ++ [c]) = occurrences m.text text := by
  rw [m.occurrences_append_cons hc, m.occurrences_nil, Nat.add_zero]

/-- Marks on both sides of the end of an opening parenthesis. -/
theorem occurrences_append_paren (left right : List Char) :
    occurrences m.text (left ++ '(' :: right)
      = occurrences m.text (left ++ ['(']) + occurrences m.text right := by
  have hseparate : Separate m.text (left ++ ['(']) right := by
    intro x hx y _ hpair
    rw [List.getLast?_concat] at hx
    exact (m.mem_zip_tail_text hpair).1 (Option.some.inj hx).symm
  rw [← occurrences_append m.text_ne_nil hseparate, List.append_assoc, List.singleton_append]

theorem occurrences_before_blank (hleft : Clear left) :
    occurrences m.text (left ++ ' ' :: right)
      = occurrences m.text left + occurrences m.text (' ' :: right) := by
  apply occurrences_append m.text_ne_nil
  rintro x hx _ ⟨⟩ hpair
  exact (clear_iff.1 hleft).2 x hx ((m.mem_zip_tail_text hpair).2.2 rfl)

theorem occurrences_after_blank (left : List Char) (hright : Clear right) :
    occurrences m.text (left ++ ' ' :: right)
      = occurrences m.text (left ++ [' ']) + occurrences m.text right := by
  have hseparate : Separate m.text (left ++ [' ']) right := by
    intro x hx y hy hpair
    rw [List.getLast?_concat] at hx
    exact (clear_iff.1 hright).1 y hy ((m.mem_zip_tail_text hpair).2.1 (Option.some.inj hx).symm)
  rw [← occurrences_append m.text_ne_nil hseparate, List.append_assoc, List.singleton_append]

/-- Marks before, in and after a text between two blanks. -/
theorem occurrences_between (hleft : Clear left) (hright : Clear right) :
    occurrences m.text (left ++ ' ' :: (text ++ ' ' :: right))
      = occurrences m.text left + occurrences m.text (' ' :: (text ++ [' ']))
        + occurrences m.text right := by
  have hafter := m.occurrences_after_blank (' ' :: text) hright
  rw [m.occurrences_before_blank hleft, ← List.cons_append, hafter, List.cons_append,
    Nat.add_assoc]

/-- Plain texts have no marks, so only what stands between them counts. -/
theorem occurrences_between_plain (hleft : IsPlain left) (hright : IsPlain right) :
    occurrences m.text (left ++ ' ' :: (text ++ ' ' :: right))
      = occurrences m.text (' ' :: (text ++ [' '])) := by
  rw [m.occurrences_between hleft.clear hright.clear, m.occurrences_of_isPlain hleft,
    m.occurrences_of_isPlain hright, Nat.zero_add, Nat.add_zero]

/-- A lone equals sign is no mark, although it belongs to one. -/
theorem occurrences_equals : occurrences m.text (' ' :: (['='] ++ [' '])) = 0 := by
  revert m
  decide

theorem occurrences_cons_blank (h : Clear text) :
    occurrences m.text (' ' :: text) = occurrences m.text text := by
  have hafter := m.occurrences_after_blank [] h
  have hblank : occurrences m.text [' '] = 0 := m.occurrences_of_isPlain (by decide)
  rw [List.nil_append, List.nil_append, hblank, Nat.zero_add] at hafter
  exact hafter

end Mark

/-! ## Expressions -/

theorem clear_callText (name : String) (hname : IsPlain name.toList) (args : List Expr) :
    Clear (callText name (args.map Expr.glsl)).toList := by
  rw [toList_callText]
  exact hname.clear.append (clear_enclosed (by decide) (by decide))

theorem clear_operandText {e : Expr} (h : Clear e.glsl.toList) :
    Clear (operandText e e.glsl).toList := by
  rcases toList_operandText e e.glsl with htext | htext <;> rw [htext]
  · exact h
  · exact clear_enclosed (by decide) (by decide)

/-- The text of an expression does not touch what is around it with a character of an operator. -/
theorem Expr.clear_glsl (e : Expr) : Clear e.glsl.toList := by
  induction e with
  | int n => exact (isPlain_toString_int n).clear
  | float x =>
      rcases toList_glsl_float x with htext | htext <;> rw [htext]
      · exact (isPlain_floatLiteral x).clear
      · exact clear_enclosed (by decide) (by decide)
  | neutral => exact (by decide : Clear neutralName.toList)
  | var v => exact v.isPlain_name.clear
  | coord axis =>
      rw [toList_glsl_coord]
      exact Clear.append (by decide) (clear_enclosed (by decide) (by decide))
  | fetch row index => exact clear_callText fetchName (by decide) [row, index]
  | binary op a b iha ihb =>
      have hsymbol : Clear (' ' :: (op.symbol.toList ++ [' '])) :=
        clear_enclosed (by decide) (by decide)
      have hall := ((clear_operandText iha).append hsymbol).append (clear_operandText ihb)
      rw [toList_glsl_binary]
      simpa using hall
  | builtin fn a b => exact clear_callText fn.name fn.isPlain_name [a, b]
  | lane e k ih =>
      rw [toList_glsl_lane]
      exact (clear_operandText ih).append (clear_enclosed (by decide) (by decide))
  | pack ty a b c d => exact clear_callText ty.name ty.isPlain_name [a, b, c, d]
  | splat ty e => exact clear_callText ty.name ty.isPlain_name [e]
  | allLanes e => exact clear_callText "all" (by decide) [e]
  | toFloat e => exact clear_callText "float" (by decide) [e]

theorem clear_argsText (args : List Expr) : Clear (argsText args) := by
  induction args with
  | nil => decide
  | cons a args ih =>
      cases args with
      | nil =>
          rw [argsText_singleton]
          exact a.clear_glsl
      | cons b args =>
          have hcomma : Clear [',', ' '] := by
            decide
          rw [argsText_cons_cons]
          exact a.clear_glsl.append (hcomma.append ih)

section Expressions

variable (m : Mark)

/-- Parentheses are no marks. -/
theorem Mark.occurrences_parentheses (text : List Char) :
    occurrences m.text ('(' :: (text ++ [')'])) = occurrences m.text text := by
  have hopen : ∀ m : Mark, occurrences m.text ['('] = 0 := by
    decide
  have hsplit := m.occurrences_append_paren [] (text ++ [')'])
  rw [List.nil_append, List.nil_append, hopen m, m.occurrences_concat (by decide),
    Nat.zero_add] at hsplit
  exact hsplit

theorem occurrences_operandText (e : Expr) :
    occurrences m.text (operandText e e.glsl).toList = occurrences m.text e.glsl.toList := by
  rcases toList_operandText e e.glsl with htext | htext <;> rw [htext]
  exact m.occurrences_parentheses _

/-- A lane or an axis in brackets has no mark. -/
theorem Mark.occurrences_brackets (text : List Char) (k : Nat) :
    occurrences m.text (text ++ '[' :: ((toString k).toList ++ [']']))
      = occurrences m.text text := by
  rw [m.occurrences_append_cons (by decide), m.occurrences_concat (by decide),
    m.occurrences_of_isPlain (isPlain_toString_nat k), Nat.add_zero]

theorem occurrences_argsText (args : List Expr) :
    occurrences m.text (argsText args)
      = (args.map fun a => occurrences m.text a.glsl.toList).sum := by
  induction args with
  | nil => exact m.occurrences_nil
  | cons a args ih =>
      rw [List.map_cons, List.sum_cons]
      cases args with
      | nil => rw [argsText_singleton]; rfl
      | cons b args =>
          rw [argsText_cons_cons, m.occurrences_append_cons (by decide),
            m.occurrences_cons_blank (clear_argsText _), ih]

/-- A call has the marks of its arguments besides that of its name. -/
theorem occurrences_callText (name : String) (args : List Expr) :
    occurrences m.text (callText name (args.map Expr.glsl)).toList
      = occurrences m.text (name.toList ++ ['('])
        + (args.map fun a => occurrences m.text a.glsl.toList).sum := by
  rw [toList_callText, m.occurrences_append_paren, m.occurrences_concat (c := ')') (by decide),
    occurrences_argsText]

/-- The names of functions are no marks, the fetch helper apart. -/
theorem Ty.occurrences_name (ty : Ty) : occurrences m.text (ty.name.toList ++ ['(']) = 0 := by
  revert m
  cases ty <;> decide

@[inherit_doc Ty.occurrences_name]
theorem Builtin.occurrences_name (fn : Builtin) :
    occurrences m.text (fn.name.toList ++ ['(']) = 0 := by
  revert m
  cases fn <;> decide

/-- The text of an expression has its own mark and those of the texts of its operands. -/
theorem Expr.occurrences_glsl_operands (e : Expr) :
    occurrences m.text e.glsl.toList = (if e.mark? = some m then 1 else 0)
      + (e.operands.map fun a => occurrences m.text a.glsl.toList).sum := by
  have hnone : ∀ {e : Expr}, e.mark? = none →
      occurrences m.text e.glsl.toList
        = (e.operands.map fun a => occurrences m.text a.glsl.toList).sum →
      occurrences m.text e.glsl.toList = (if e.mark? = some m then 1 else 0)
        + (e.operands.map fun a => occurrences m.text a.glsl.toList).sum := by
    intro e hmark htext
    rw [hmark, if_neg (by simp), htext, Nat.zero_add]
  have hcall : ∀ {name : String} (args : List Expr), occurrences m.text (name.toList ++ ['(']) = 0 →
      occurrences m.text (callText name (args.map Expr.glsl)).toList
        = (args.map fun a => occurrences m.text a.glsl.toList).sum := by
    intro name args hname
    rw [occurrences_callText, hname, Nat.zero_add]
  cases e with
  | int n => exact hnone rfl (m.occurrences_of_isPlain (isPlain_toString_int n))
  | float x =>
      apply hnone rfl
      rcases toList_glsl_float x with htext | htext <;> rw [htext]
      · exact m.occurrences_of_isPlain (isPlain_floatLiteral x)
      · rw [m.occurrences_parentheses]
        exact m.occurrences_of_isPlain (isPlain_floatLiteral x)
  | neutral => exact hnone rfl (m.occurrences_of_isPlain (by decide))
  | var v => exact hnone rfl (m.occurrences_of_isPlain v.isPlain_name)
  | coord axis =>
      have hname : ∀ m : Mark, occurrences m.text "getOutputCoords()".toList = 0 := by
        decide
      apply hnone rfl
      rw [toList_glsl_coord, m.occurrences_brackets, hname m]
      rfl
  | fetch row index =>
      have hname : occurrences m.text (fetchName.toList ++ ['('])
          = if (Expr.fetch row index).mark? = some m then 1 else 0 := by
        simp only [Expr.mark?, Option.some.injEq]
        exact m.occurrences_text .fetch
      rw [← hname]
      exact occurrences_callText m fetchName [row, index]
  | binary op a b =>
      have hsymbol : occurrences m.text (' ' :: (op.symbol.toList ++ [' ']))
          = if (Expr.binary op a b).mark? = some m then 1 else 0 := by
        simp only [Expr.mark?, Option.some.injEq]
        exact m.occurrences_text (.operator op)
      rw [toList_glsl_binary, m.occurrences_between (clear_operandText a.clear_glsl)
        (clear_operandText b.clear_glsl), occurrences_operandText, occurrences_operandText, hsymbol]
      simp only [Expr.operands, List.map_cons, List.map_nil, List.sum_cons, List.sum_nil]
      omega
  | builtin fn a b => exact hnone rfl (hcall [a, b] (fn.occurrences_name m))
  | lane e k =>
      apply hnone rfl
      rw [toList_glsl_lane, m.occurrences_brackets, occurrences_operandText]
      rfl
  | pack ty a b c d => exact hnone rfl (hcall [a, b, c, d] (ty.occurrences_name m))
  | splat ty e => exact hnone rfl (hcall [e] (ty.occurrences_name m))
  | allLanes e =>
      have hname : ∀ m : Mark, occurrences m.text ("all".toList ++ ['(']) = 0 := by
        decide
      exact hnone rfl (hcall [e] (hname m))
  | toFloat e => exact hnone rfl (hcall [e] (Ty.float.occurrences_name m))

/-- A mark occurs in the text of an expression once for each part that is printed with it. -/
theorem Expr.occurrences_glsl (e : Expr) :
    occurrences m.text e.glsl.toList = e.subterms.countP (·.mark? = some m) := by
  induction e <;>
    rw [Expr.occurrences_glsl_operands, Expr.subterms_eq, List.countP_cons] <;>
    simp [Expr.operands, List.countP_append, *] <;> omega

end Expressions

/-! ## Lines and statements -/

section Lines

variable (m : Mark)

theorem occurrences_linesText_cons (depth : Nat) {text : String} (h : Clear text.toList)
    (ls : List SourceLine) :
    occurrences m.text (linesText (⟨depth, text⟩ :: ls))
      = occurrences m.text text.toList + occurrences m.text (linesText ls) := by
  have hblanks : ∀ n, Clear (List.replicate n ' ' ++ text.toList)
      ∧ occurrences m.text (List.replicate n ' ' ++ text.toList)
        = occurrences m.text text.toList := by
    intro n
    induction n with
    | zero => exact ⟨h, rfl⟩
    | succ n ih =>
        have hblank : Clear [' '] := by
          decide
        exact ⟨hblank.append ih.1, (m.occurrences_cons_blank ih.1).trans ih.2⟩
  rw [linesText_cons, ← List.append_assoc, m.occurrences_append_cons (by decide),
    (hblanks _).2]

theorem not_mem_linesText {c : Char} (hc : c ≠ ' ' ∧ c ≠ '\n') {ls : List SourceLine}
    (h : ∀ l ∈ ls, c ∉ l.text.toList) : c ∉ linesText ls := by
  induction ls with
  | nil => exact List.not_mem_nil
  | cons l ls ih =>
      rw [List.forall_mem_cons] at h
      rw [linesText_cons]
      simp [hc, h.1, ih h.2]

theorem occurrences_line (depth : Nat) {text : String} (h : Clear text.toList) :
    occurrences m.text (linesText [⟨depth, text⟩]) = occurrences m.text text.toList := by
  have hnil : occurrences m.text (linesText []) = 0 := m.occurrences_nil
  rw [occurrences_linesText_cons m depth h, hnil, Nat.add_zero]

theorem occurrences_linesText_append (ls ls' : List SourceLine) :
    occurrences m.text (linesText (ls ++ ls'))
      = occurrences m.text (linesText ls) + occurrences m.text (linesText ls') := by
  induction ls with
  | nil =>
      have hnil : occurrences m.text (linesText []) = 0 := m.occurrences_nil
      rw [List.nil_append, hnil, Nat.zero_add]
  | cons l ls ih =>
      -- The end of the first line is the same boundary on both sides.
      rw [List.cons_append, linesText_cons, linesText_cons, ← List.append_assoc,
        ← List.append_assoc, m.occurrences_append_cons (by decide),
        m.occurrences_append_cons (by decide), ih, Nat.add_assoc]

/-- The brace that closes a body is no mark. -/
theorem occurrences_bodyLines (depth : Nat) {header : String} (h : Clear header.toList)
    (ls : List SourceLine) :
    occurrences m.text (linesText (⟨depth, header⟩ :: (ls ++ [⟨depth, "\x7d"⟩])))
      = occurrences m.text header.toList + occurrences m.text (linesText ls) := by
  have hclose : occurrences m.text (linesText [⟨depth, "\x7d"⟩]) = 0 :=
    (occurrences_line m depth (by decide)).trans (m.occurrences_of_isPlain (by decide))
  rw [occurrences_linesText_cons m depth h, occurrences_linesText_append, hclose, Nat.add_zero]

/-- A line that stores a value has the marks of the value. -/
theorem occurrences_store {target value : String} (htarget : IsPlain target.toList)
    (hvalue : Clear value.toList) :
    Clear (target ++ " = " ++ value ++ ";").toList
      ∧ occurrences m.text (target ++ " = " ++ value ++ ";").toList
        = occurrences m.text value.toList := by
  have htext : (target ++ " = " ++ value ++ ";").toList
      = target.toList ++ ' ' :: (['='] ++ ' ' :: (value.toList ++ [';'])) := by
    simp [String.toList_append]
  have hright : Clear (value.toList ++ [';']) := hvalue.append (by decide)
  have hmiddle : Clear [' ', '=', ' '] := by
    decide
  rw [htext]
  constructor
  · exact htarget.clear.append (hmiddle.append hright)
  · rw [m.occurrences_between htarget.clear hright, m.occurrences_of_isPlain htarget,
      m.occurrences_equals, m.occurrences_concat (by decide), Nat.zero_add]

/-- A line that writes the output has the marks of what is written. -/
theorem occurrences_setOutput (e : Expr) :
    Clear ("setOutput(" ++ e.glsl ++ ");").toList
      ∧ occurrences m.text ("setOutput(" ++ e.glsl ++ ");").toList
        = occurrences m.text e.glsl.toList := by
  have htext : ("setOutput(" ++ e.glsl ++ ");").toList
      = "setOutput".toList ++ '(' :: (e.glsl.toList ++ ')' :: [';']) := by
    simp [String.toList_append]
  have hname : ∀ m : Mark, occurrences m.text ("setOutput".toList ++ ['(']) = 0 := by
    decide
  have hclose : occurrences m.text [';'] = 0 := m.occurrences_of_isPlain (by decide)
  constructor
  · have hopen : Clear "setOutput(".toList := by
      decide
    exact (hopen.toList_append e.clear_glsl).toList_append (by decide)
  · rw [htext, m.occurrences_append_paren, hname m, m.occurrences_append_cons (by decide), hclose,
      Nat.zero_add, Nat.add_zero]

/-- The first line of a loop has no marks. -/
theorem occurrences_loopHeader (v : Var) (count step : Nat) :
    Clear ("for (int " ++ v.name ++ " = 0; " ++ v.name ++ " < " ++ toString count ++ "; "
        ++ v.name ++ " += " ++ toString step ++ ") \x7b").toList
      ∧ occurrences m.text ("for (int " ++ v.name ++ " = 0; " ++ v.name ++ " < "
        ++ toString count ++ "; " ++ v.name ++ " += " ++ toString step ++ ") \x7b").toList = 0 := by
  have hv := v.isPlain_name
  have hcount := isPlain_toString_nat count
  have hstep := isPlain_toString_nat step
  constructor
  · have hfor : Clear "for (int ".toList := by
      decide
    have hinit := (hfor.toList_append hv.clear).toList_append (by decide : Clear " = 0; ".toList)
    have hbound := (hinit.toList_append hv.clear).toList_append (by decide : Clear " < ".toList)
    have hnext := (hbound.toList_append hcount.clear).toList_append (by decide : Clear "; ".toList)
    have hadd := (hnext.toList_append hv.clear).toList_append (by decide : Clear " += ".toList)
    exact (hadd.toList_append hstep.clear).toList_append (by decide)
  · have htext : ("for (int " ++ v.name ++ " = 0; " ++ v.name ++ " < " ++ toString count ++ "; "
          ++ v.name ++ " += " ++ toString step ++ ") \x7b").toList
        = "for ".toList ++ '(' :: ("int ".toList ++ v.name.toList ++ ' ' :: (['='] ++ ' ' :: ['0'])
          ++ ';' :: ([' '] ++ v.name.toList ++ " < ".toList ++ (toString count).toList
          ++ ';' :: ([' '] ++ v.name.toList ++ ' ' :: (['+', '='] ++ ' ' :: (toString step).toList)
          ++ ')' :: " \x7b".toList))) := by
      simp [String.toList_append]
    have hfor : ∀ m : Mark, occurrences m.text ("for ".toList ++ ['(']) = 0 := by
      decide
    have hplus : ∀ m : Mark, occurrences m.text (' ' :: (['+', '='] ++ [' '])) = 0 := by
      decide
    have hdeclared : IsPlain ("int ".toList ++ v.name.toList) := IsPlain.append (by decide) hv
    have hcounter : IsPlain ([' '] ++ v.name.toList) := IsPlain.append (by decide) hv
    have hcondition : IsPlain ([' '] ++ v.name.toList ++ " < ".toList ++ (toString count).toList) :=
      (hcounter.append (by decide)).append hcount
    have hzero : IsPlain ['0'] := by
      decide
    have hopen : IsPlain " \x7b".toList := by
      decide
    rw [htext, m.occurrences_append_paren, hfor m, m.occurrences_append_cons (c := ';') (by decide),
      m.occurrences_append_cons (c := ';') (by decide),
      m.occurrences_append_cons (c := ')') (by decide),
      m.occurrences_between_plain hdeclared hzero, m.occurrences_equals,
      m.occurrences_of_isPlain hcondition, m.occurrences_between_plain hcounter hstep, hplus m,
      m.occurrences_of_isPlain hopen]

end Lines

mutual

/-- A mark occurs in the lines of a statement once for each expression that is printed with it. -/
theorem Stmt.occurrences_lines (m : Mark) :
    ∀ (s : Stmt) (depth : Nat),
      occurrences m.text (linesText (s.lines depth)) = s.exprs.countP (·.mark? = some m)
  | .declare v ty e, depth => by
      have htarget : IsPlain (ty.name ++ " " ++ v.name).toList :=
        (ty.isPlain_name.toList_append (by decide)).toList_append v.isPlain_name
      obtain ⟨hclear, hcount⟩ := occurrences_store m htarget e.clear_glsl
      rw [Stmt.lines, occurrences_line m depth hclear, hcount, e.occurrences_glsl, Stmt.exprs]
  | .assign v e, depth => by
      obtain ⟨hclear, hcount⟩ := occurrences_store m v.isPlain_name e.clear_glsl
      rw [Stmt.lines, occurrences_line m depth hclear, hcount, e.occurrences_glsl, Stmt.exprs]
  | .loop v count step body, depth => by
      obtain ⟨hclear, hcount⟩ := occurrences_loopHeader m v count step
      rw [Stmt.lines, occurrences_bodyLines m depth hclear, hcount,
        Stmt.occurrences_linesAll m body, Stmt.exprs, Nat.zero_add]
  | .block body, depth => by
      have hopen : occurrences m.text "\x7b".toList = 0 := m.occurrences_of_isPlain (by decide)
      rw [Stmt.lines, occurrences_bodyLines m depth (by decide), hopen,
        Stmt.occurrences_linesAll m body, Stmt.exprs, Nat.zero_add]
  | .output e, depth => by
      obtain ⟨hclear, hcount⟩ := occurrences_setOutput m e
      rw [Stmt.lines, occurrences_line m depth hclear, hcount, e.occurrences_glsl, Stmt.exprs]

theorem Stmt.occurrences_linesAll (m : Mark) :
    ∀ (body : List Stmt) (depth : Nat),
      occurrences m.text (linesText (Stmt.linesAll depth body))
        = (Stmt.exprsAll body).countP (·.mark? = some m)
  | [], _ => m.occurrences_nil
  | s :: rest, depth => by
      rw [Stmt.linesAll, Stmt.exprsAll, occurrences_linesText_append, List.countP_append,
        Stmt.occurrences_lines m s, Stmt.occurrences_linesAll m rest]

end

/-! ## Kernels -/

theorem accessorName_x : accessorName "x" = "getX" := by
  have hupper : Text.uppercase 'x' = ['X'] := Text.uppercase_ascii 120
  have htext : accessorName "x" = "get" ++ String.ofList (Text.uppercase 'x' ++ []) := rfl
  rw [htext, hupper]
  rfl

namespace Kernel

variable (k : Kernel)

theorem fetchCount_eq : k.fetchCount = k.exprs.countP (·.mark? = some .fetch) := by
  apply List.countP_congr
  intro e _
  cases e <;> simp [Expr.isFetch, Expr.mark?]

theorem binaryCount_eq :
    k.binaryCount = ([BinaryOp.add, .mul, .atLeast, .and].map fun op =>
      k.exprs.countP (·.mark? = some (.operator op))).sum := by
  -- An expression with an operator is counted for its own one.
  have hone : ∀ e : Expr, (if e.isBinary then 1 else 0)
      = ([BinaryOp.add, .mul, .atLeast, .and].map fun op =>
        if e.mark? = some (.operator op) then 1 else 0).sum := by
    intro e
    cases e with
    | binary op a b => cases op <;> rfl
    | _ => rfl
  rw [binaryCount]
  induction k.exprs with
  | nil => rfl
  | cons e es ih =>
      have he := hone e
      simp only [List.map_cons, List.map_nil, List.sum_cons, List.sum_nil] at he ih ⊢
      simp only [List.countP_cons, decide_eq_true_eq, ih, he]
      omega

theorem occurrences_mainLines (m : Mark) :
    occurrences m.text (linesText k.mainLines) = k.exprs.countP (·.mark? = some m) := by
  have hopen : ∀ m : Mark, occurrences m.text "void main() \x7b".toList = 0 := by
    decide
  rw [mainLines, occurrences_bodyLines m 0 (by decide), hopen m, Stmt.occurrences_linesAll,
    exprs, Nat.zero_add]

/-- The bounds check is written without the letters that a call of the fetch helper and `main` begin
with. -/
theorem not_mem_guardLines : ∀ l ∈ k.guardLines, 'g' ∉ l.text.toList ∧ 'v' ∉ l.text.toList := by
  unfold guardLines
  cases k.guard? with
  | none => exact List.forall_mem_nil _
  | some rowLength =>
      have hnumber : AllDigits (Nat.toDigits 10 rowLength) := allDigits_toDigits rowLength
      have hg := hnumber.not_mem (c := 'g') rfl
      have hv := hnumber.not_mem (c := 'v') rfl
      simp [String.toList_append, hg, hv, neutralName]

theorem occurrences_headerLines :
    occurrences Mark.fetch.text (linesText (k.headerLines "x")) = 1 := by
  have hliteral := isPlain_floatLiteral k.neutral
  have hneutral : IsPlain ("const float " ++ neutralName).toList := by
    decide
  obtain ⟨hclear, hconstant⟩ := occurrences_store .fetch hneutral hliteral.clear
  have hdeclaration : occurrences Mark.fetch.text
      (linesText [⟨0, ""⟩, ⟨0, "float " ++ fetchName ++ "(int batch, int inIdx) \x7b"⟩]) = 1 := by
    decide
  have hguard : occurrences Mark.fetch.text (linesText k.guardLines) = 0 :=
    occurrences_eq_zero (c := 'g') (by decide) <|
      not_mem_linesText (by decide) fun l hl => (k.not_mem_guardLines l hl).1
  have hreturn : occurrences Mark.fetch.text
      (linesText [⟨1, "return " ++ accessorName "x" ++ "(batch, inIdx);"⟩, ⟨0, "\x7d"⟩, ⟨0, ""⟩])
        = 0 := by
    rw [accessorName_x]
    decide
  rw [headerLines, occurrences_linesText_append, occurrences_linesText_append,
    occurrences_linesText_cons _ _ hclear, hconstant, Mark.fetch.occurrences_of_isPlain hliteral,
    hdeclaration, hguard, hreturn]

theorem textFrom_source :
    textFrom "void main() \x7b".toList (k.source "x").toList = linesText k.mainLines := by
  have hheader : 'v' ∉ linesText (k.headerLines "x") := by
    have hliteral : 'v' ∉ (floatLiteral k.neutral).toList := fun hmem =>
      absurd (mem_floatLiteral k.neutral 'v' hmem) (by decide)
    have hreturn : 'v' ∉ ("return " ++ accessorName "x" ++ "(batch, inIdx);").toList := by
      rw [accessorName_x]
      decide
    apply not_mem_linesText (by decide)
    rw [headerLines, List.forall_mem_append, List.forall_mem_append]
    refine ⟨⟨?_, fun l hl => (k.not_mem_guardLines l hl).2⟩, ?_⟩
    · simp [String.toList_append, hliteral, neutralName, fetchName]
    · simpa using hreturn
  have hmain : "void main() \x7b".toList <+: linesText k.mainLines := by
    rw [mainLines, linesText_cons]
    exact List.prefix_append _ _
  rw [toList_source_eq_linesText, linesText_append]
  exact textFrom_append hheader hmain

/-- The fetch helper is called in the source once for each fetch, after its declaration, and `main`
has one symbol of an operator for each operator. -/
theorem occurrences_source :
    occurrences "getValue(".toList (k.source "x").toList = k.fetchCount + 1
      ∧ ([" + ", " * ", " >= ", " && "].map fun symbol => occurrences symbol.toList
          (textFrom "void main() \x7b".toList (k.source "x").toList)).sum = k.binaryCount := by
  constructor
  · have hcalls := k.occurrences_mainLines .fetch
    have hfetch : "getValue(".toList = Mark.fetch.text := rfl
    rw [hfetch, toList_source_eq_linesText, occurrences_linesText_append,
      k.occurrences_headerLines, hcalls, ← fetchCount_eq, Nat.add_comm]
  · rw [textFrom_source, binaryCount_eq]
    simp only [← occurrences_mainLines]
    rfl

end Kernel

end WindowReduction
