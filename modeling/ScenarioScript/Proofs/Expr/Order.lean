import ScenarioScript.Proofs.Expr.Reparse

/-!
# The words of a tree

Reading loses no word, adds none and puts none in another place. The literals and names of a tree are those of its text
in the same order, and its operators are those of the text.
-/

namespace ScenarioScript

/-! ## Literals and names -/

inductive Atom where
  | number (x : Float)
  | text (s : String)
  | var (name : String)
  /-- The name of a call. -/
  | call (name : String)

namespace Atom

def varName? : Atom → Option String
  | var name => some name
  | _ => none

/-- The literals and names among some tokens. A name right before an opening parenthesis is the name of a call. -/
def ofTokens : List Token → List Atom
  | [] => []
  | token :: rest =>
    match token.kind with
    | .number x => .number x :: ofTokens rest
    | .string => .text token.text.toString :: ofTokens rest
    | .name =>
      let isCall := rest.head?.any fun next => next.kind = .symbol .openParen
      (if isCall then .call token.text.toString else .var token.text.toString) :: ofTokens rest
    | _ => ofTokens rest

section
variable {token : Token} {rest : List Token}

theorem ofTokens_number {x : Float} (h : token.kind = .number x) :
    ofTokens (token :: rest) = .number x :: ofTokens rest := by
  simp [ofTokens, h]

theorem ofTokens_string (h : token.kind = .string) :
    ofTokens (token :: rest) = .text token.text.toString :: ofTokens rest := by
  simp [ofTokens, h]

theorem ofTokens_call {opening : Token} (h : token.kind = .name) (hopening : opening.kind = .symbol .openParen) :
    ofTokens (token :: opening :: rest) = .call token.text.toString :: ofTokens (opening :: rest) := by
  simp [ofTokens, h, hopening]

theorem ofTokens_var (h : token.kind = .name) (hrest : ¬ Begins .openParen rest) :
    ofTokens (token :: rest) = .var token.text.toString :: ofTokens rest := by
  cases rest with
  | nil => simp [ofTokens, h]
  | cons next rest => simp [ofTokens, h, mt begins_cons.2 hrest]

theorem ofTokens_symbol {symbol : Symbol} (h : token.kind = .symbol symbol) :
    ofTokens (token :: rest) = ofTokens rest := by
  simp [ofTokens, h]

theorem ofTokens_done (h : token.isDone) : ofTokens [token] = [] := by
  have hkind : token.kind = .done := of_decide_eq_true h
  simp [ofTokens, hkind]

end

end Atom

/-! ## Signs -/

/-- A unary or a binary operator as it is written. -/
structure Sign where
  isUnary : Bool
  symbol : Symbol
deriving DecidableEq

def Symbol.isOperator : Symbol → Bool
  | question | colon | comma | semicolon | openParen | closeParen => false
  | _ => true

/-- The operator that a token is, whether it is unary or binary. -/
def Token.operator? (token : Token) : Option Symbol :=
  match token.kind with
  | .symbol symbol => if symbol.isOperator then some symbol else none
  | _ => none

namespace Sign

/-- The operators among some tokens. An operator is binary if it stands right behind an operand: a literal, a name or a
closing parenthesis. -/
def ofTokens : (behindOperand : Bool) → List Token → List Sign
  | _, [] => []
  | behindOperand, token :: rest =>
    match token.kind with
    | .symbol symbol =>
      if symbol.isOperator then ⟨!behindOperand, symbol⟩ :: ofTokens false rest
      else ofTokens (symbol = .closeParen) rest
    | _ => ofTokens true rest

section
variable {behindOperand : Bool} {token : Token} {rest : List Token}

theorem ofTokens_operand (h : ∀ symbol, token.kind ≠ .symbol symbol) :
    ofTokens behindOperand (token :: rest) = ofTokens true rest := by
  rw [ofTokens]
  split
  · exact absurd ‹_› (h _)
  · rfl

theorem ofTokens_operator {symbol : Symbol} (h : token.kind = .symbol symbol) (hsymbol : symbol.isOperator) :
    ofTokens behindOperand (token :: rest) = ⟨!behindOperand, symbol⟩ :: ofTokens false rest := by
  simp [ofTokens, h, hsymbol]

theorem ofTokens_symbol {symbol : Symbol} (h : token.kind = .symbol symbol) (hsymbol : symbol.isOperator = false) :
    ofTokens behindOperand (token :: rest) = ofTokens (symbol = .closeParen) rest := by
  simp [ofTokens, h, hsymbol]

end

theorem map_symbol_ofTokens (behindOperand : Bool) (tokens : List Token) :
    (ofTokens behindOperand tokens).map symbol = tokens.filterMap Token.operator? := by
  induction tokens generalizing behindOperand with
  | nil => rfl
  | cons token rest ih =>
    rw [ofTokens, List.filterMap_cons, Token.operator?]
    split
    · split
      · exact congrArg _ (ih false)
      · exact ih _
    · exact ih true

end Sign

theorem UnaryOp.isOperator_symbol (op : UnaryOp) : op.symbol.isOperator := by
  cases op <;> rfl

theorem BinaryOp.isOperator_symbol (op : BinaryOp) : op.symbol.isOperator := by
  cases op <;> rfl

/-! ## Words of trees -/

namespace Expr

mutual

/-- The literals and names of a tree. The name of a call comes before those of its arguments. -/
def atoms : Expr → List Atom
  | literal (.number x) => [.number x]
  | literal (.text s) => [.text s]
  | var name => [.var name]
  | call name args => .call name :: atomsOfAll args
  | unary _ operand => operand.atoms
  | binary _ left right => left.atoms ++ right.atoms
  | conditional condition yes no => condition.atoms ++ yes.atoms ++ no.atoms

def atomsOfAll : List Expr → List Atom
  | [] => []
  | e :: es => e.atoms ++ atomsOfAll es

end

mutual

/-- The operators of a tree, each before those below it. -/
def signs : Expr → List Sign
  | literal _ => []
  | var _ => []
  | call _ args => signsOfAll args
  | unary op operand => ⟨true, op.symbol⟩ :: operand.signs
  | binary op left right => ⟨false, op.symbol⟩ :: (left.signs ++ right.signs)
  | conditional condition yes no => condition.signs ++ yes.signs ++ no.signs

def signsOfAll : List Expr → List Sign
  | [] => []
  | e :: es => e.signs ++ signsOfAll es

end

mutual

theorem variableNames_eq : (e : Expr) → e.variableNames = e.atoms.filterMap Atom.varName?
  | literal (.number x) => rfl
  | literal (.text s) => rfl
  | var name => rfl
  | call name args => variableNamesOfAll_eq args
  | unary op operand => variableNames_eq operand
  | binary op left right => by
    rw [variableNames, atoms, List.filterMap_append, variableNames_eq left, variableNames_eq right]
  | conditional condition yes no => by
    rw [variableNames, atoms, List.filterMap_append, List.filterMap_append, variableNames_eq condition,
      variableNames_eq yes, variableNames_eq no]

theorem variableNamesOfAll_eq : (es : List Expr) → variableNamesOfAll es = (atomsOfAll es).filterMap Atom.varName?
  | [] => rfl
  | e :: es => by
    rw [variableNamesOfAll, atomsOfAll, List.filterMap_append, variableNames_eq e, variableNamesOfAll_eq es]

end

end Expr

/-! ## Words of phrases -/

namespace Phrase

def atoms : Phrase → List Atom
  | .expression e | .chain _ e | .joined _ _ _ e | .operand e => e.atoms
  | .arguments args => Expr.atomsOfAll args

def signs : Phrase → List Sign
  | .expression e | .chain _ e | .joined _ _ _ e | .operand e => e.signs
  | .arguments args => Expr.signsOfAll args

/-- Whether the phrase has an operand to stand behind. -/
def hasOperand : Phrase → Bool
  | .arguments [] => false
  | _ => true

end Phrase

namespace Derives

theorem not_begins_openParen {symbol : Symbol} {token : Token} (h : token.kind = .symbol symbol)
    (hsymbol : symbol ≠ .openParen) (rest : List Token) : ¬ Begins .openParen (token :: rest) := by
  simpa [h] using hsymbol

/-- The literals and names of a phrase stand in its tokens, in their order. A parenthesis behind the phrase would make
its last name the name of a call. -/
theorem atoms {charge : Nat} {phrase : Phrase} {tokens : List Token} (h : Derives charge phrase tokens)
    {rest : List Token} (hrest : ¬ Begins .openParen rest) :
    Atom.ofTokens (tokens ++ rest) = phrase.atoms ++ Atom.ofTokens rest := by
  induction h generalizing rest with
  | number htoken => exact Atom.ofTokens_number htoken
  | string htoken => exact Atom.ofTokens_string htoken
  | var htoken => exact Atom.ofTokens_var htoken hrest
  | call hname hopening hcharge hargs hclosing ih =>
    have hbehind := not_begins_openParen hclosing (by decide) rest
    simp only [List.cons_append, List.append_assoc, List.nil_append]
    rw [Atom.ofTokens_call hname hopening, Atom.ofTokens_symbol hopening, ih hbehind, Atom.ofTokens_symbol hclosing]
    rfl
  | parenthesis hopening hcharge he hclosing ih =>
    have hbehind := not_begins_openParen hclosing (by decide) rest
    simp only [List.cons_append, List.append_assoc, List.nil_append]
    rw [Atom.ofTokens_symbol hopening, ih hbehind, Atom.ofTokens_symbol hclosing]
    rfl
  | noArguments => rfl
  | lastArgument he ih =>
    rw [ih hrest]
    simp [Phrase.atoms, Expr.atomsOfAll]
  | @argument charge e next args comma tokens more he hcomma hargs ihe ihargs =>
    have hbehind := not_begins_openParen hcomma (by decide) (more ++ rest)
    rw [List.append_assoc, List.cons_append, ihe hbehind, Atom.ofTokens_symbol hcomma, ihargs hrest]
    simp [Phrase.atoms, Expr.atomsOfAll]
  | operand he ih | first he ih | chain he ih | plain he ih => exact ih hrest
  | unary htoken hcharge he ih =>
    rw [List.cons_append, Atom.ofTokens_symbol htoken]
    exact ih hrest
  | @next charge count tighter op left right token tokens more hleft htoken hcharge hright ihleft ihright =>
    have hop : op.symbol ≠ .openParen := by cases op <;> decide
    rw [List.append_assoc, List.cons_append, ihleft (not_begins_openParen htoken hop _), Atom.ofTokens_symbol htoken,
      ihright hrest, ← List.append_assoc]
    rfl
  | @conditional charge condition yes no question colon tokens tokensYes tokensNo hcondition hquestion hcharge hyes
      hcolon hno ihc ihy ihn =>
    simp only [List.append_assoc, List.cons_append]
    rw [ihc (not_begins_openParen hquestion (by decide) _), Atom.ofTokens_symbol hquestion,
      ihy (not_begins_openParen hcolon (by decide) _), Atom.ofTokens_symbol hcolon, ihn hrest]
    simp [Phrase.atoms, Expr.atoms]

theorem signs {charge : Nat} {phrase : Phrase} {tokens : List Token} (h : Derives charge phrase tokens)
    (rest : List Token) :
    (Sign.ofTokens false (tokens ++ rest)).Perm (phrase.signs ++ Sign.ofTokens phrase.hasOperand rest) := by
  induction h generalizing rest with
  | number htoken | string htoken | var htoken => exact .of_eq (Sign.ofTokens_operand (by simp [htoken]))
  | @call charge args name opening closing tokens hname hopening hcharge hargs hclosing ih =>
    simp only [List.cons_append, List.append_assoc, List.nil_append]
    rw [Sign.ofTokens_operand (by simp [hname]), Sign.ofTokens_symbol hopening rfl]
    have hargs := ih (closing :: rest)
    rwa [Sign.ofTokens_symbol hclosing rfl] at hargs
  | @parenthesis charge e opening closing tokens hopening hcharge he hclosing ih =>
    simp only [List.cons_append, List.append_assoc, List.nil_append]
    rw [Sign.ofTokens_symbol hopening rfl]
    have hinner := ih (closing :: rest)
    rwa [Sign.ofTokens_symbol hclosing rfl] at hinner
  | noArguments => exact .refl _
  | lastArgument he ih => simpa [Phrase.signs, Phrase.hasOperand, Expr.signsOfAll] using ih rest
  | @argument charge e next args comma tokens more he hcomma hargs ihe ihargs =>
    have hfirst := ihe (comma :: (more ++ rest))
    rw [Sign.ofTokens_symbol hcomma rfl] at hfirst
    have hall := hfirst.trans ((ihargs rest).append_left e.signs)
    simpa [Phrase.signs, Phrase.hasOperand, Expr.signsOfAll] using hall
  | operand he ih | first he ih | chain he ih | plain he ih => exact ih rest
  | unary htoken hcharge he ih =>
    rw [List.cons_append, Sign.ofTokens_operator htoken (UnaryOp.isOperator_symbol _)]
    exact (ih rest).cons _
  | @next charge count tighter op left right token tokens more hleft htoken hcharge hright ihleft ihright =>
    have hfirst : (Sign.ofTokens false (tokens ++ token :: (more ++ rest))).Perm
        (left.signs ++ Sign.ofTokens true (token :: (more ++ rest))) := ihleft _
    rw [Sign.ofTokens_operator htoken op.isOperator_symbol] at hfirst
    have hboth := hfirst.trans (((ihright rest).cons _).append_left left.signs)
    -- the operator goes from between its operands to the front
    have hfront := hboth.trans List.perm_middle
    simpa [Phrase.signs, Phrase.hasOperand, Expr.signs] using hfront
  | @conditional charge condition yes no question colon tokens tokensYes tokensNo hcondition hquestion hcharge hyes
      hcolon hno ihc ihy ihn =>
    have hc := ihc (question :: (tokensYes ++ colon :: (tokensNo ++ rest)))
    have hy := ihy (colon :: (tokensNo ++ rest))
    rw [Sign.ofTokens_symbol hquestion rfl] at hc
    rw [Sign.ofTokens_symbol hcolon rfl] at hy
    have hbranches := hy.trans ((ihn rest).append_left yes.signs)
    have hall := hc.trans (hbranches.append_left condition.signs)
    simpa [Phrase.signs, Phrase.hasOperand, Expr.signs] using hall

end Derives

/-! ## Whole texts -/

namespace Expr

/-- The tree that a text is read as has the literals and names of the text in their order, the names of its variables
are those before no parenthesis, and it has the operators of the text, the unary ones as such. -/
theorem atoms_of_parse {text file : String} {e : Expr} (h : parse text file = .ok e) :
    e.atoms = Atom.ofTokens (Token.ofText text file) ∧
      e.variableNames = (Atom.ofTokens (Token.ofText text file)).filterMap Atom.varName? ∧
      e.signs.Perm (Sign.ofTokens false (Token.ofText text file)) ∧
      (e.signs.map Sign.symbol).Perm ((Token.ofText text file).filterMap Token.operator?) := by
  obtain ⟨words, final, htext, hfinal, he⟩ := exists_words_of_parse h
  have hkind : final.kind = .done := of_decide_eq_true hfinal
  have hatoms : Atom.ofTokens (words ++ [final]) = e.atoms ++ Atom.ofTokens [final] := he.atoms (by simp [hkind])
  have hsigns : (Sign.ofTokens false (words ++ [final])).Perm (e.signs ++ Sign.ofTokens true [final]) :=
    he.signs [final]
  rw [Atom.ofTokens_done hfinal, List.append_nil] at hatoms
  rw [Sign.ofTokens_operand (by simp [hkind]), Sign.ofTokens, List.append_nil] at hsigns
  rw [htext, variableNames_eq, hatoms, ← Sign.map_symbol_ofTokens false]
  exact ⟨rfl, rfl, hsigns.symm, hsigns.symm.map Sign.symbol⟩

/-- In `a - f(-b, 'c') ? !d : a` the name `f` is no variable, and the first minus is the one that is binary. -/
theorem atoms_of_parse_signs :
    let text := "a - f(-b, 'c') ? !d : a"
    ∃ e, parse text "s.scn" = .ok e ∧ e.variableNames = ["a", "b", "d", "a"] ∧
      e.signs.Perm [⟨false, .minus⟩, ⟨true, .minus⟩, ⟨true, .bang⟩] := by
  intro text
  have hread : (parse text "s.scn").toOption.map need = some 6 := by decide +kernel
  obtain ⟨e, hread, -⟩ := exists_of_need hread
  obtain ⟨-, hnames, hsigns, -⟩ := atoms_of_parse hread
  refine ⟨e, hread, hnames.trans ?_, hsigns.trans (.of_eq ?_)⟩
  · decide +kernel
  · decide +kernel

end Expr

end ScenarioScript
