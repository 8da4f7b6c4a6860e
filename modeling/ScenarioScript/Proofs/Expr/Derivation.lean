import ScenarioScript.Expr.Grammar

/-!
# What a row of tokens spells

The grammar as a relation between tokens and trees. It says nothing about the order of reading and
looks at no token behind the row. A charge counts the levels of the budget that are taken already.
-/

namespace ScenarioScript

/-! ## Operators and their tiers -/

def BinaryOp.tier : BinaryOp → Tier
  | or => .or
  | and => .and
  | eq | ne | globMatch | patternMatch | notGlobMatch | notPatternMatch => .equality
  | lt | le | gt | ge => .order
  | add | sub => .sum
  | mul | div | rem => .product

theorem BinaryOp.operator?_symbol (op : BinaryOp) : op.tier.operator? op.symbol = some op := by
  cases op <;> rfl

theorem Tier.operator?_eq_some_iff {tier : Tier} {symbol : Symbol} {op : BinaryOp} :
    tier.operator? symbol = some op ↔ op.tier = tier ∧ symbol = op.symbol := by
  constructor
  · intro h
    cases tier <;> cases symbol <;> simp only [Tier.operator?, reduceCtorEq, Option.some.injEq] at h
    all_goals
      subst h
      exact ⟨rfl, rfl⟩
  · rintro ⟨rfl, rfl⟩
    exact op.operator?_symbol

/-! ## Phrases -/

/-- What a row of tokens may stand for. -/
inductive Phrase where
  | expression (e : Expr)
  /-- Operands joined by operators of the given tiers, the loosest first. Without tiers it is one
  operand with its unary operators. -/
  | chain (tiers : List Tier) (e : Expr)
  /-- A chain with `count` operators of its loosest tier. -/
  | joined (tier : Tier) (tighter : List Tier) (count : Nat) (e : Expr)
  | operand (e : Expr)
  | arguments (args : List Expr)

/-- `Derives charge phrase tokens`: the tokens spell the phrase behind `charge` levels of nesting. An
opening parenthesis, a call, a unary operator and a conditional take one more level for what they
enclose. In a chain the right operand of the operator number `k` is `k` levels deeper. -/
inductive Derives : Nat → Phrase → List Token → Prop
  | number {charge : Nat} {x : Float} {token : Token} (htoken : token.kind = .number x) :
      Derives charge (.operand (.literal (.number x))) [token]
  | string {charge : Nat} {token : Token} (htoken : token.kind = .string) :
      Derives charge (.operand (.literal (.text token.text.toString))) [token]
  | var {charge : Nat} {token : Token} (htoken : token.kind = .name) :
      Derives charge (.operand (.var token.text.toString)) [token]
  | call {charge : Nat} {args : List Expr} {name opening closing : Token} {tokens : List Token}
      (hname : name.kind = .name) (hopening : opening.kind = .symbol .openParen)
      (hcharge : charge + 1 ≤ maxDepth) (hargs : Derives (charge + 1) (.arguments args) tokens)
      (hclosing : closing.kind = .symbol .closeParen) :
      Derives charge (.operand (.call name.text.toString args))
        (name :: opening :: (tokens ++ [closing]))
  | parenthesis {charge : Nat} {e : Expr} {opening closing : Token} {tokens : List Token}
      (hopening : opening.kind = .symbol .openParen) (hcharge : charge + 1 ≤ maxDepth)
      (he : Derives (charge + 1) (.expression e) tokens)
      (hclosing : closing.kind = .symbol .closeParen) :
      Derives charge (.operand e) (opening :: (tokens ++ [closing]))
  | noArguments {charge : Nat} : Derives charge (.arguments []) []
  | lastArgument {charge : Nat} {e : Expr} {tokens : List Token}
      (he : Derives charge (.expression e) tokens) : Derives charge (.arguments [e]) tokens
  | argument {charge : Nat} {e next : Expr} {args : List Expr} {comma : Token}
      {tokens more : List Token} (he : Derives charge (.expression e) tokens)
      (hcomma : comma.kind = .symbol .comma) (hargs : Derives charge (.arguments (next :: args)) more) :
      Derives charge (.arguments (e :: next :: args)) (tokens ++ comma :: more)
  | operand {charge : Nat} {e : Expr} {tokens : List Token}
      (he : Derives charge (.operand e) tokens) : Derives charge (.chain [] e) tokens
  | unary {charge : Nat} {op : UnaryOp} {e : Expr} {token : Token} {tokens : List Token}
      (htoken : token.kind = .symbol op.symbol) (hcharge : charge + 1 ≤ maxDepth)
      (he : Derives (charge + 1) (.chain [] e) tokens) :
      Derives charge (.chain [] (.unary op e)) (token :: tokens)
  | first {charge : Nat} {tier : Tier} {tighter : List Tier} {e : Expr} {tokens : List Token}
      (he : Derives charge (.chain tighter e) tokens) : Derives charge (.joined tier tighter 0 e) tokens
  | next {charge count : Nat} {tighter : List Tier} {op : BinaryOp} {left right : Expr}
      {token : Token} {tokens more : List Token}
      (hleft : Derives charge (.joined op.tier tighter count left) tokens)
      (htoken : token.kind = .symbol op.symbol) (hcharge : charge + (count + 1) ≤ maxDepth)
      (hright : Derives (charge + (count + 1)) (.chain tighter right) more) :
      Derives charge (.joined op.tier tighter (count + 1) (.binary op left right))
        (tokens ++ token :: more)
  | chain {charge count : Nat} {tier : Tier} {tighter : List Tier} {e : Expr} {tokens : List Token}
      (he : Derives charge (.joined tier tighter count e) tokens) :
      Derives charge (.chain (tier :: tighter) e) tokens
  | plain {charge : Nat} {e : Expr} {tokens : List Token}
      (he : Derives charge (.chain Tier.all e) tokens) : Derives charge (.expression e) tokens
  | conditional {charge : Nat} {condition yes no : Expr} {question colon : Token}
      {tokens tokensYes tokensNo : List Token}
      (hcondition : Derives charge (.chain Tier.all condition) tokens)
      (hquestion : question.kind = .symbol .question) (hcharge : charge + 1 ≤ maxDepth)
      (hyes : Derives (charge + 1) (.expression yes) tokensYes)
      (hcolon : colon.kind = .symbol .colon)
      (hno : Derives (charge + 1) (.expression no) tokensNo) :
      Derives charge (.expression (.conditional condition yes no))
        (tokens ++ question :: (tokensYes ++ colon :: tokensNo))

/-! ## The tokens of a phrase -/

/-- Whether a token can be part of an expression. -/
def Token.isWord (token : Token) : Bool :=
  match token.kind with
  | .number _ | .string | .name => true
  | .symbol symbol => symbol ≠ .semicolon
  | .fault _ | .done => false

theorem Token.isWord_of_symbol {token : Token} {symbol : Symbol} (h : token.kind = .symbol symbol)
    (hne : symbol ≠ .semicolon) : token.isWord := by
  simp [isWord, h, hne]

theorem Token.isWord_of_name {token : Token} (h : token.kind = .name) : token.isWord := by
  simp [isWord, h]

theorem Token.isDone_eq_false_of_isWord {token : Token} (h : token.isWord) :
    token.isDone = false := by
  rw [isDone, decide_eq_false_iff_not]
  intro hdone
  simp [isWord, hdone] at h

theorem BinaryOp.symbol_ne_semicolon (op : BinaryOp) : op.symbol ≠ .semicolon := by
  cases op <;> decide

theorem UnaryOp.symbol_ne_semicolon (op : UnaryOp) : op.symbol ≠ .semicolon := by
  cases op <;> decide

namespace Derives

theorem isWord_of_mem {charge : Nat} {phrase : Phrase} {tokens : List Token}
    (h : Derives charge phrase tokens) : ∀ token ∈ tokens, token.isWord := by
  induction h with
  | number htoken | string htoken | var htoken => simp [Token.isWord, htoken]
  | call hname hopening hcharge hargs hclosing ih =>
    have hname := Token.isWord_of_name hname
    have hopening := Token.isWord_of_symbol hopening (by decide)
    have hclosing := Token.isWord_of_symbol hclosing (by decide)
    simpa [hname, hopening, hclosing, or_imp, forall_and] using ih
  | parenthesis hopening hcharge he hclosing ih =>
    have hopening := Token.isWord_of_symbol hopening (by decide)
    have hclosing := Token.isWord_of_symbol hclosing (by decide)
    simpa [hopening, hclosing, or_imp, forall_and] using ih
  | noArguments => simp
  | lastArgument he ih | operand he ih | first he ih | chain he ih | plain he ih => exact ih
  | argument he hcomma hargs ihe ihargs =>
    have hcomma := Token.isWord_of_symbol hcomma (by decide)
    simp only [List.forall_mem_cons, List.forall_mem_append]
    exact ⟨ihe, hcomma, ihargs⟩
  | unary htoken hcharge he ih =>
    have htoken := Token.isWord_of_symbol htoken (UnaryOp.symbol_ne_semicolon _)
    exact List.forall_mem_cons.2 ⟨htoken, ih⟩
  | next hleft htoken hcharge hright ihleft ihright =>
    have htoken := Token.isWord_of_symbol htoken (BinaryOp.symbol_ne_semicolon _)
    simp only [List.forall_mem_cons, List.forall_mem_append]
    exact ⟨ihleft, htoken, ihright⟩
  | conditional hcondition hquestion hcharge hyes hcolon hno ihc ihy ihn =>
    have hquestion := Token.isWord_of_symbol hquestion (by decide)
    have hcolon := Token.isWord_of_symbol hcolon (by decide)
    simp only [List.forall_mem_cons, List.forall_mem_append]
    exact ⟨ihc, hquestion, ihy, hcolon, ihn⟩

theorem ne_nil {charge : Nat} {phrase : Phrase} {tokens : List Token}
    (h : Derives charge phrase tokens) (hphrase : phrase ≠ .arguments []) : tokens ≠ [] := by
  induction h with
  | noArguments => exact absurd rfl hphrase
  | lastArgument he ih | operand he ih | first he ih | chain he ih | plain he ih =>
    exact ih (by simp)
  | _ => simp

theorem length_arguments_le {charge : Nat} {phrase : Phrase} {tokens : List Token}
    (h : Derives charge phrase tokens) :
    ∀ args, phrase = .arguments args → args.length ≤ tokens.length := by
  induction h with
  | noArguments => simp
  | lastArgument he =>
    rintro _ ⟨⟩
    exact List.length_pos_iff.2 (he.ne_nil (by simp))
  | argument he hcomma hargs ihe ihargs =>
    rintro _ ⟨⟩
    have := ihargs _ rfl
    simp only [List.length_cons, List.length_append] at this ⊢
    omega
  | _ => simp

end Derives

end ScenarioScript
