import ScenarioScript.Proofs.Expr.Reparse

/-!
# Paths in trees that have been read

A chain of operators and a conditional give the levels that they have taken back when they end. So
what comes first in them is read with the whole budget again, although it stands below them in the
tree. The budget bounds a path from the root to a leaf except for such turns.
-/

namespace ScenarioScript

namespace Expr

/-! ## Paths -/

/-- `e.Path nodes turns`: a way from the root of the tree to a leaf passes through `nodes` calls,
operators and conditionals. From `turns` of them it goes on to the left operand or to the condition, and
does not end there. -/
inductive Path : Expr → Nat → Nat → Prop
  | literal {value : Value} : Path (.literal value) 0 0
  | var {name : String} : Path (.var name) 0 0
  | noArguments {name : String} : Path (.call name []) 1 0
  | argument {name : String} {args : List Expr} {e : Expr} {nodes turns : Nat} (he : e ∈ args)
      (h : Path e nodes turns) : Path (.call name args) (nodes + 1) turns
  | operand {op : UnaryOp} {e : Expr} {nodes turns : Nat} (h : Path e nodes turns) :
      Path (.unary op e) (nodes + 1) turns
  | left {op : BinaryOp} {left right : Expr} {nodes turns : Nat} (h : Path left nodes turns) :
      Path (.binary op left right) (nodes + 1) (turns + min nodes 1)
  | right {op : BinaryOp} {left right : Expr} {nodes turns : Nat} (h : Path right nodes turns) :
      Path (.binary op left right) (nodes + 1) turns
  | condition {condition yes no : Expr} {nodes turns : Nat} (h : Path condition nodes turns) :
      Path (.conditional condition yes no) (nodes + 1) (turns + min nodes 1)
  | yes {condition yes no : Expr} {nodes turns : Nat} (h : Path yes nodes turns) :
      Path (.conditional condition yes no) (nodes + 1) turns
  | no {condition yes no : Expr} {nodes turns : Nat} (h : Path no nodes turns) :
      Path (.conditional condition yes no) (nodes + 1) turns

/-- No path is longer than some levels, turns apart. -/
def FitsIn (levels : Nat) (e : Expr) : Prop :=
  ∀ nodes turns, e.Path nodes turns → nodes ≤ levels + turns

section
variable {levels : Nat}

theorem fitsIn_literal (value : Value) : (literal value).FitsIn levels := by
  rintro _ _ ⟨⟩
  exact Nat.zero_le _

theorem fitsIn_var (name : String) : (var name).FitsIn levels := by
  rintro _ _ ⟨⟩
  exact Nat.zero_le _

theorem fitsIn_call {args : List Expr} (hargs : ∀ e ∈ args, e.FitsIn levels) (name : String) :
    (call name args).FitsIn (levels + 1) := by
  intro nodes turns hpath
  cases hpath with
  | noArguments => omega
  | argument he h =>
    have hle := hargs _ he _ _ h
    omega

theorem FitsIn.unary {e : Expr} (h : e.FitsIn levels) (op : UnaryOp) : (Expr.unary op e).FitsIn (levels + 1) := by
  rintro _ _ ⟨⟩
  rename_i nodes hpath
  have hle := h nodes _ hpath
  omega

/-- The left operand has all levels of the whole, but if it is not a leaf it takes a turn. -/
theorem FitsIn.binary {left right : Expr} (hleft : left.FitsIn (levels + 1)) (hright : right.FitsIn levels)
    (op : BinaryOp) : (Expr.binary op left right).FitsIn (levels + 1) := by
  intro nodes turns hpath
  cases hpath with
  | left h =>
    have hle := hleft _ _ h
    omega
  | right h =>
    have hle := hright _ _ h
    omega

theorem FitsIn.conditional {condition yes no : Expr} (hcondition : condition.FitsIn (levels + 1))
    (hyes : yes.FitsIn levels) (hno : no.FitsIn levels) : (Expr.conditional condition yes no).FitsIn (levels + 1) := by
  intro nodes turns hpath
  cases hpath with
  | condition h =>
    have hle := hcondition _ _ h
    omega
  | yes h =>
    have hle := hyes _ _ h
    omega
  | no h =>
    have hle := hno _ _ h
    omega

theorem FitsIn.mono {e : Expr} (h : e.FitsIn levels) {more : Nat} (hle : levels ≤ more) : e.FitsIn more := by
  intro nodes turns hpath
  have := h nodes turns hpath
  omega

end

end Expr

/-! ## Paths and the budget -/

def Phrase.FitsIn (levels : Nat) : Phrase → Prop
  | .expression e | .chain _ e | .joined _ _ _ e | .operand e => e.FitsIn levels
  | .arguments args => ∀ e ∈ args, e.FitsIn levels

theorem Derives.fitsIn {charge : Nat} {phrase : Phrase} {tokens : List Token}
    (h : Derives charge phrase tokens) : phrase.FitsIn (maxDepth - charge) := by
  -- a level is taken where there is one
  have hlevels {charge count : Nat} (hcharge : charge + (count + 1) ≤ maxDepth) :
      maxDepth - (charge + (count + 1)) ≤ maxDepth - charge - 1 ∧ maxDepth - charge - 1 + 1 = maxDepth - charge := by
    omega
  induction h with
  | number htoken => exact Expr.fitsIn_literal _
  | string htoken => exact Expr.fitsIn_literal _
  | var htoken => exact Expr.fitsIn_var _
  | call hname hopening hcharge hargs hclosing ih =>
    obtain ⟨hle, heq⟩ := hlevels hcharge
    exact heq ▸ Expr.fitsIn_call (fun e he => (ih e he).mono hle) _
  | parenthesis hopening hcharge he hclosing ih => exact Expr.FitsIn.mono ih (by omega)
  | noArguments => simp [Phrase.FitsIn]
  | lastArgument he ih => simpa [Phrase.FitsIn] using ih
  | argument he hcomma hargs ihe ihargs => exact List.forall_mem_cons.2 ⟨ihe, ihargs⟩
  | operand he ih | first he ih | chain he ih | plain he ih => exact ih
  | unary htoken hcharge he ih =>
    obtain ⟨hle, heq⟩ := hlevels hcharge
    exact heq ▸ (Expr.FitsIn.mono ih hle).unary _
  | next hleft htoken hcharge hright ihleft ihright =>
    obtain ⟨hle, heq⟩ := hlevels hcharge
    exact heq ▸ Expr.FitsIn.binary (heq.symm ▸ ihleft) (Expr.FitsIn.mono ihright hle) _
  | conditional hcondition hquestion hcharge hyes hcolon hno ihc ihy ihn =>
    obtain ⟨hle, heq⟩ := hlevels hcharge
    exact heq ▸ Expr.FitsIn.conditional (heq.symm ▸ ihc) (Expr.FitsIn.mono ihy hle) (Expr.FitsIn.mono ihn hle)

/-! ## Texts with long paths -/

namespace Expr

/-! `!!!x * x * x`: the signs are read before the products, so they can take every level, and each
product is one more node above them. -/

def negated : (count : Nat) → Expr → Expr
  | 0, e => e
  | count + 1, e => .unary .not (negated count e)

def multiplied : (count : Nat) → Expr → Expr
  | 0, e => e
  | count + 1, e => .binary .mul (multiplied count e) (.var "x")

/-- A tree with some more operators, each with the variable `x` behind it. -/
def extended (op : BinaryOp) : (count : Nat) → Expr → Expr
  | 0, e => e
  | count + 1, e => .binary op (extended op count e) (.var "x")

theorem multiplied_eq_extended (count : Nat) (e : Expr) : multiplied count e = extended .mul count e := by
  induction count with
  | zero => rfl
  | succ count ih => rw [multiplied, ih, extended]

theorem path_negated (count : Nat) : (negated count (.var "x")).Path count 0 := by
  induction count with
  | zero => exact .var
  | succ count ih => exact .operand ih

theorem Path.multiplied {e : Expr} {nodes : Nat} (h : e.Path (nodes + 1) 0) (count : Nat) :
    (Expr.multiplied count e).Path (nodes + 1 + count) count := by
  induction count with
  | zero => exact h
  | succ count ih =>
    have hturn : min (nodes + 1 + count) 1 = 1 := by omega
    have hleft : (Expr.binary .mul (Expr.multiplied count e) (.var "x")).Path _ _ := .left ih
    rwa [hturn] at hleft

section
variable {line : UInt32} {file : String}

def factorTokens (line : UInt32) (file : String) (count : Nat) : List Token :=
  (List.replicate count [sign line file .star, word line file .name ['x']]).flatten

def extendedWords (line : UInt32) (file : String) (op : BinaryOp) (count : Nat) : List Token :=
  (List.replicate count [sign line file op.symbol, word line file .name ['x']]).flatten

def factorChars (count : Nat) : List Char := (List.replicate count [' ', '*', ' ', 'x']).flatten

theorem isName_x : IsName ['x'] := ⟨'x', [], rfl, by decide, rfl⟩

theorem endsWord_factorChars (count : Nat) : EndsWord (factorChars count) := by
  cases count with
  | zero => simp [EndsWord, factorChars]
  | succ count => exact endsWord_cons (by decide) _

theorem lexes_factorChars (count : Nat) :
    Lexes line file (factorChars count) (factorTokens line file count ++ [word line file .done []]) := by
  induction count with
  | zero => exact .nil
  | succ count ih =>
    have hname := ih.lexeme (isLexeme_name isName_x (endsWord_factorChars count))
    exact (hname.space.sign .star rfl).space

theorem lexes_bangs {text : List Char} {tokens : List Token} (h : Lexes line file text tokens)
    (htext : EndsSymbol text) (count : Nat) :
    Lexes line file (List.replicate count '!' ++ text) (List.replicate count (sign line file .bang) ++ tokens) := by
  have hends (count : Nat) : EndsSymbol (List.replicate count '!' ++ text) := by
    cases count with
    | zero => exact htext
    | succ count => exact endsSymbol_cons (by decide) _
  induction count with
  | zero => exact h
  | succ count ih => exact ih.sign .bang (symbol?_of_endsSymbol (hends count))

end

end Expr

namespace Derives

section
variable {charge : Nat} {tokens : List Token} {e : Expr}

theorem factor (line : UInt32) (file : String) : Derives charge (.operand (.var "x")) [word line file .name ['x']] := by
  have htext : (word line file .name ['x']).text.toString = "x" := StoredText.toString_ofString "x"
  exact htext ▸ .var rfl

theorem of_product (h : Derives charge (.chain [.product] e) tokens) : Derives charge (.expression e) tokens :=
  .plain (.chain (.first (.chain (.first (.chain (.first (.chain (.first (.chain (.first h))))))))))

theorem negated (line : UInt32) (file : String) {count : Nat} (hcharge : charge + count ≤ maxDepth)
    (h : Derives (charge + count) (.chain [] e) tokens) :
    Derives charge (.chain [] (Expr.negated count e)) (List.replicate count (sign line file .bang) ++ tokens) := by
  induction count generalizing charge with
  | zero => exact h
  | succ count ih =>
    have heq : charge + 1 + count = charge + (count + 1) := by omega
    exact .unary rfl (by omega) (ih (by omega) (heq.symm ▸ h))

theorem chain_var (line : UInt32) (file : String) (tiers : List Tier) :
    Derives charge (.chain tiers (.var "x")) [word line file .name ['x']] := by
  induction tiers with
  | nil => exact .operand (factor line file)
  | cons tier tiers ih => exact .chain (.first ih)

theorem extended (line : UInt32) (file : String) (op : BinaryOp) {tighter : List Tier} {count : Nat}
    (hcount : charge + count ≤ maxDepth) (h : Derives charge (.chain tighter e) tokens) :
    Derives charge (.joined op.tier tighter count (Expr.extended op count e))
      (tokens ++ Expr.extendedWords line file op count) := by
  induction count with
  | zero =>
    rw [Expr.extendedWords, List.replicate_zero, List.flatten_nil, List.append_nil]
    exact .first h
  | succ count ih =>
    have hwords : tokens ++ Expr.extendedWords line file op (count + 1) =
        (tokens ++ Expr.extendedWords line file op count) ++
          [sign line file op.symbol, word line file .name ['x']] := by
      simp [Expr.extendedWords, List.replicate_succ']
    rw [hwords]
    exact .next (ih (by omega)) rfl hcount (chain_var line file tighter)

theorem multiplied (line : UInt32) (file : String) {count : Nat} (hcount : charge + count ≤ maxDepth)
    (h : Derives charge (.chain [] e) tokens) :
    Derives charge (.joined .product [] count (Expr.multiplied count e))
      (tokens ++ Expr.factorTokens line file count) :=
  Expr.multiplied_eq_extended count e ▸ h.extended line file .mul hcount

end

end Derives

namespace Expr

/-- `!!...!x * x * ... * x` with a sign for every level. -/
def turningText (turns : Nat) : String :=
  String.ofList (List.replicate maxDepth '!' ++ 'x' :: factorChars turns)

theorem ofText_turningText (turns : Nat) (file : String) : Token.ofText (turningText turns) file =
    List.replicate maxDepth (sign 1 file .bang) ++ [word 1 file .name ['x']] ++ factorTokens 1 file turns ++
      [word 1 file .done []] := by
  have hfactors : Lexes 1 file (factorChars turns) _ := lexes_factorChars turns
  have hname := hfactors.lexeme (isLexeme_name isName_x (endsWord_factorChars turns))
  have hlexes := lexes_bangs hname (endsSymbol_name isName_x _) maxDepth 0
  unfold Token.ofText Cursor.start turningText
  rw [String.toList_ofList]
  refine hlexes.trans ?_
  simp

theorem exists_parse_turningText (file : String) {turns : Nat} (hturns : turns ≤ maxDepth) :
    ∃ e, parse (turningText turns) file = .ok e ∧ e.Path (maxDepth + turns) turns := by
  have hname : Derives (0 + maxDepth) (.chain [] (.var "x")) _ := .operand (.factor 1 file)
  have hsigns : Derives 0 (.chain [] _) _ := hname.negated 1 file (by omega)
  have hcount : 0 + turns ≤ maxDepth := by omega
  have he := (hsigns.multiplied 1 file hcount).chain.of_product
  refine ⟨_, ?_, (path_negated maxDepth).multiplied turns⟩
  unfold parse
  rw [ofText_turningText, ofTokens?_concat rfl]
  · exact he
  · intro token htoken
    simpa using he.not_isDone token htoken

/-- A path in a tree that was read has at most as many nodes as there are levels and turns. For each
number of turns up to a whole budget there is a text with such a path. -/
theorem nodes_le_of_parse (file : String) :
    (∀ text e, parse text file = .ok e → ∀ nodes turns, e.Path nodes turns → nodes ≤ maxDepth + turns) ∧
      ∀ turns ≤ maxDepth, ∃ text e, parse text file = .ok e ∧ e.Path (maxDepth + turns) turns := by
  constructor
  · intro text e h
    obtain ⟨words, he, -⟩ := exists_derives_of_parse h
    exact he.fitsIn
  · intro turns hturns
    exact ⟨_, exists_parse_turningText file hturns⟩

theorem nodes_le_of_parse_turningText :
    (∃ e, parse (turningText 2) "s.scn" = .ok e ∧ e.Path (maxDepth + 2) 2 ∧ maxDepth + 2 ≤ maxDepth + 2) ∧
      2 ≤ maxDepth ∧ ∃ text e, parse text "s.scn" = .ok e ∧ e.Path (maxDepth + 2) 2 := by
  have hturns : 2 ≤ maxDepth := by decide
  obtain ⟨hbound, hattained⟩ := nodes_le_of_parse "s.scn"
  obtain ⟨e, hread, hpath⟩ := exists_parse_turningText "s.scn" hturns
  exact ⟨⟨e, hread, hpath, hbound _ e hread _ _ hpath⟩, hturns, hattained 2 hturns⟩

/-- All levels are taken by the signs, and the product stands above them. -/
theorem not_nodes_le_maxDepth :
    let text := String.ofList (List.replicate 64 '!') ++ "x * x"
    ∃ e nodes turns, parse text "s.scn" = .ok e ∧ e.Path nodes turns ∧ maxDepth < nodes := by
  intro text
  have htext : text = turningText 1 := by decide +kernel
  obtain ⟨e, hread, hpath⟩ := exists_parse_turningText "s.scn" (by decide : 1 ≤ maxDepth)
  exact ⟨e, _, _, htext ▸ hread, hpath, Nat.lt_succ_self _⟩

end Expr

end ScenarioScript
