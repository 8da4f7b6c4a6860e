import ScenarioScript.Proofs.Expr.Paths

/-!
# The height of trees that have been read

Each of the six tiers can spend the whole budget above its first operand, and so can every level below. So a tree can
be much higher than the budget, but not higher than a bound that the budget gives, however long the text is.
-/

namespace ScenarioScript

namespace Expr

/-! ## Heights -/

mutual

/-- How many nodes the longest path from the root to a leaf has. -/
def height : Expr → Nat
  | literal _ => 1
  | var _ => 1
  | call _ args => 1 + heightOfAll args
  | unary _ operand => 1 + operand.height
  | binary _ left right => 1 + max left.height right.height
  | conditional condition yes no => 1 + max condition.height (max yes.height no.height)

def heightOfAll : List Expr → Nat
  | [] => 0
  | e :: es => max e.height (heightOfAll es)

end

/-- The height that a budget allows. -/
def heightBound : (budget : Nat) → Nat
  | 0 => 1
  | budget + 1 => heightBound budget + 6 * (budget + 1) + 2

theorem height_pos (e : Expr) : 0 < e.height := by
  cases e <;> simp only [height] <;> omega

theorem heightOfAll_le {args : List Expr} {bound : Nat} (h : ∀ e ∈ args, e.height ≤ bound) :
    heightOfAll args ≤ bound := by
  induction args with
  | nil => exact Nat.zero_le _
  | cons e es ih =>
    obtain ⟨he, hes⟩ := List.forall_mem_cons.1 h
    exact Nat.max_le.2 ⟨he, ih hes⟩

end Expr

/-! ## Readers and their bounds -/

namespace Grammar

open Reader ScenarioScript.Expr

/-- The height of an operand with its unary operators. A call adds a node to the highest argument. -/
def unaryBound : (budget : Nat) → Nat
  | 0 => 1
  | budget + 1 => heightBound budget + 1

/-- The height of a chain of some tiers. Each of them can have as many operators as the budget has levels. -/
def chainBound (tiers budget : Nat) : Nat := unaryBound budget + tiers * budget

theorem heightBound_succ (budget : Nat) : heightBound (budget + 1) = chainBound 6 (budget + 1) + 1 := by
  simp only [heightBound, chainBound, unaryBound]
  omega

theorem chainBound_le (budget : Nat) : chainBound 6 budget ≤ heightBound budget := by
  cases budget with
  | zero => exact Nat.le_refl 1
  | succ budget => simp [heightBound_succ]

theorem unaryBound_le (budget : Nat) : unaryBound budget ≤ heightBound budget :=
  Nat.le_trans (Nat.le_add_right _ _) (chainBound_le budget)

theorem unaryBound_pos (budget : Nat) : 0 < unaryBound budget := by
  cases budget <;> exact Nat.succ_pos _

theorem chainBound_le_succ (tiers budget : Nat) : chainBound tiers budget ≤ chainBound tiers (budget + 1) := by
  have hunary : unaryBound budget ≤ unaryBound (budget + 1) := Nat.le_succ_of_le (unaryBound_le budget)
  exact Nat.add_le_add hunary (Nat.mul_le_mul_left tiers (Nat.le_succ budget))

/-- No tree that the reader returns is higher than the bound. -/
def Below (r : Reader Expr) (bound : Nat) : Prop := ∀ ⦃tokens e rest⦄, r tokens = .ok e rest → e.height ≤ bound

/-- The rest of a chain can put as many nodes above its left part and above each operand as the budget has levels. -/
structure BoundedBy (g : Grammar) (budget : Nat) : Prop where
  expression : Below g.expression (heightBound budget)
  unary : Below g.unary (unaryBound budget)
  chain : ∀ tiers, Below (g.chain tiers) (chainBound tiers.length budget)
  more : ∀ tier tighter left,
    Below (g.more tier tighter left) (max left.height (chainBound tighter.length budget) + budget)

section
variable {last : Option Token} {smaller : Option Grammar} {budget : Nat} {tokens rest : List Token} {e : Expr}

theorem readArguments_below {expression : Reader Expr} {bound : Nat} (h : Below expression bound) {count : Nat}
    {args : List Expr} (hargs : readArguments expression count tokens = .ok args rest) :
    ∀ e ∈ args, e.height ≤ bound := by
  induction count generalizing tokens rest args with
  | zero =>
    obtain ⟨rfl, -⟩ := pure_eq_ok_iff.1 hargs
    simp
  | succ count ih =>
    obtain ⟨first, afterFirst, hfirst, h₁⟩ := bind_eq_ok_iff.1 hargs
    obtain ⟨hasMore, afterComma, -, h₂⟩ := bind_eq_ok_iff.1 h₁
    cases hasMore with
    | true =>
      obtain ⟨others, final, hothers, h₃⟩ := bind_eq_ok_iff.1 h₂
      obtain ⟨rfl, -⟩ := pure_eq_ok_iff.1 h₃
      exact List.forall_mem_cons.2 ⟨h hfirst, ih hothers⟩
    | false =>
      obtain ⟨rfl, -⟩ := pure_eq_ok_iff.1 h₂
      simpa using h hfirst

variable (hsmaller : ∀ inner ∈ smaller, ∃ less, budget = less + 1 ∧ inner.BoundedBy less)
include hsmaller

theorem readParenthesis_below : Below (readParenthesis smaller) (unaryBound budget) := by
  intro tokens e rest h
  cases smaller with
  | none => cases h
  | some inner =>
    obtain ⟨less, rfl, hinner⟩ := hsmaller inner rfl
    rw [readParenthesis_some] at h
    obtain ⟨e', middle, hread, h₁⟩ := bind_eq_ok_iff.1 h
    obtain ⟨_, _, -, h₂⟩ := bind_eq_ok_iff.1 h₁
    obtain ⟨rfl, -⟩ := pure_eq_ok_iff.1 h₂
    exact Nat.le_succ_of_le (hinner.expression hread)

theorem readCall_below (name : String) : Below (readCall smaller name) (unaryBound budget) := by
  intro tokens e rest h
  cases smaller with
  | none => cases h
  | some inner =>
    obtain ⟨less, rfl, hinner⟩ := hsmaller inner rfl
    by_cases hbegins : Begins .closeParen tokens
    · obtain ⟨closing, more, rfl, hclosing⟩ := hbegins
      cases (readCall_noArguments hclosing).symm.trans h
      exact unaryBound_pos _
    · rw [readCall_arguments hbegins] at h
      obtain ⟨args, middle, hread, h₁⟩ := bind_eq_ok_iff.1 h
      obtain ⟨_, _, -, h₂⟩ := bind_eq_ok_iff.1 h₁
      obtain ⟨rfl, -⟩ := pure_eq_ok_iff.1 h₂
      have hargs := heightOfAll_le (readArguments_below hinner.expression hread)
      simp only [height, unaryBound]
      omega

theorem readOperand_cons_below {token : Token} (h : readOperand last smaller (token :: tokens) = .ok e rest) :
    e.height ≤ unaryBound budget := by
  cases hkind : token.kind with
  | number x =>
    cases (readOperand_number hkind).symm.trans h
    exact unaryBound_pos budget
  | string =>
    cases (readOperand_string hkind).symm.trans h
    exact unaryBound_pos budget
  | name =>
    by_cases hbegins : Begins .openParen tokens
    · obtain ⟨opening, more, rfl, hopening⟩ := hbegins
      rw [readOperand_call hkind hopening] at h
      exact readCall_below hsmaller _ h
    · cases (readOperand_var hkind hbegins).symm.trans h
      exact unaryBound_pos budget
  | symbol symbol =>
    by_cases hopening : symbol = .openParen
    · subst hopening
      rw [readOperand_openParen hkind] at h
      exact readParenthesis_below hsmaller h
    · cases (readOperand_symbol hkind hopening).symm.trans h
  | fault fault => cases (readOperand_fault hkind).symm.trans h
  | done => cases (readOperand_done hkind).symm.trans h

theorem readOperand_below : Below (readOperand last smaller) (unaryBound budget) := by
  intro tokens e rest h
  match tokens, last with
  | [], none => cases h
  | [], some token =>
    have hread : readOperand none smaller [token] = .ok e rest := readOperand_past.1 h
    exact readOperand_cons_below hsmaller hread
  | token :: tokens, _ => exact readOperand_cons_below hsmaller h

theorem readUnary_below : Below (readUnary last smaller) (unaryBound budget) := by
  intro tokens e rest h
  cases hop : UnaryOp.next? tokens with
  | none =>
    rw [readUnary_operand hop] at h
    exact readOperand_below hsmaller h
  | some op =>
    obtain ⟨token, tokens, rfl, htoken⟩ := UnaryOp.next?_eq_some_iff.1 hop
    cases smaller with
    | none => cases (readUnary_deep htoken).symm.trans h
    | some inner =>
      obtain ⟨less, rfl, hinner⟩ := hsmaller inner rfl
      rw [readUnary_some htoken] at h
      obtain ⟨operand, final, hread, h₁⟩ := bind_eq_ok_iff.1 h
      obtain ⟨rfl, -⟩ := pure_eq_ok_iff.1 h₁
      have hoperand := Nat.le_trans (hinner.unary hread) (unaryBound_le less)
      simp only [height, unaryBound]
      omega

theorem readMore_below (tier : Tier) (tighter : List Tier) (left : Expr) :
    Below (readMore smaller tier tighter left) (max left.height (chainBound tighter.length budget) + budget) := by
  intro tokens e rest h
  cases hop : tier.next? tokens with
  | none =>
    cases (readMore_left hop).symm.trans h
    exact Nat.le_trans (Nat.le_max_left _ _) (Nat.le_add_right _ _)
  | some op =>
    obtain ⟨rfl, token, tokens, rfl, htoken⟩ := Tier.next?_eq_some_iff.1 hop
    cases smaller with
    | none => cases (readMore_deep htoken).symm.trans h
    | some inner =>
      obtain ⟨less, rfl, hinner⟩ := hsmaller inner rfl
      rw [readMore_some htoken] at h
      obtain ⟨right, middle, hread, hrest⟩ := bind_eq_ok_iff.1 h
      have hright := hinner.chain tighter hread
      have he := hinner.more _ tighter _ hrest
      have hbound := chainBound_le_succ tighter.length less
      simp only [height] at he
      omega

theorem readChain_below (tiers : List Tier) :
    Below (readChain last smaller tiers) (chainBound tiers.length budget) := by
  induction tiers with
  | nil =>
    intro tokens e rest h
    exact Nat.le_add_right_of_le (readUnary_below hsmaller h)
  | cons tier tighter ih =>
    intro tokens e rest h
    rw [readChain_cons] at h
    obtain ⟨left, middle, hread, hrest⟩ := bind_eq_ok_iff.1 h
    have hleft := ih hread
    have he := readMore_below hsmaller tier tighter left hrest
    rw [Nat.max_eq_right hleft] at he
    rwa [List.length_cons, chainBound, Nat.succ_mul, ← Nat.add_assoc]

theorem readExpression_below : Below (readExpression last smaller) (heightBound budget) := by
  intro tokens e rest h
  obtain ⟨condition, middle, hread, h₁⟩ := bind_eq_ok_iff.1 h
  have hcondition : condition.height ≤ chainBound 6 budget := readChain_below hsmaller Tier.all hread
  obtain ⟨hasBranches, behind, -, h₂⟩ := bind_eq_ok_iff.1 h₁
  cases hasBranches with
  | false =>
    obtain ⟨rfl, -⟩ := pure_eq_ok_iff.1 h₂
    exact Nat.le_trans hcondition (chainBound_le budget)
  | true =>
    obtain ⟨inner, _, hdeeper, h₃⟩ := bind_eq_ok_iff.1 h₂
    cases smaller with
    | none => cases hdeeper
    | some inner =>
      obtain ⟨less, rfl, hinner⟩ := hsmaller inner rfl
      cases hdeeper
      obtain ⟨yes, _, hreadYes, h₄⟩ := bind_eq_ok_iff.1 h₃
      obtain ⟨_, _, -, h₅⟩ := bind_eq_ok_iff.1 h₄
      obtain ⟨no, _, hreadNo, h₆⟩ := bind_eq_ok_iff.1 h₅
      obtain ⟨rfl, -⟩ := pure_eq_ok_iff.1 h₆
      have hyes := hinner.expression hreadYes
      have hno := hinner.expression hreadNo
      have hless : heightBound less + 1 ≤ chainBound 6 (less + 1) := Nat.le_add_right _ _
      rw [heightBound_succ]
      simp only [height]
      omega

theorem build_boundedBy : (build last smaller).BoundedBy budget where
  expression := readExpression_below hsmaller
  unary := readUnary_below hsmaller
  chain := readChain_below hsmaller
  more := readMore_below hsmaller

end

theorem ofBudget_boundedBy (last : Option Token) (budget : Nat) : (ofBudget last budget).BoundedBy budget := by
  induction budget with
  | zero => exact build_boundedBy (by simp)
  | succ budget ih =>
    refine build_boundedBy ?_
    rintro inner ⟨⟩
    exact ⟨budget, rfl, ih⟩

end Grammar

/-! ## Trees as high as the bound

`f(...) * x + x < x == x && x || x ? x : x` with as many operators of each tier as there are levels left, around the
same text for one level less. -/

namespace Expr

/-- A tree with more operators of several tiers, the loosest first. -/
def extendedAll : List BinaryOp → (count : Nat) → Expr → Expr
  | [], _, e => e
  | op :: ops, count, e => extended op count (extendedAll ops count e)

/-- One operator of each tier. -/
def tierOps : List BinaryOp := [.or, .and, .eq, .lt, .add, .mul]

def tall : (budget : Nat) → Expr
  | 0 => .var "x"
  | budget + 1 => .conditional (extendedAll tierOps (budget + 1) (.call "f" [tall budget])) (.var "x") (.var "x")

theorem height_extended (op : BinaryOp) (count : Nat) (e : Expr) : (extended op count e).height = count + e.height := by
  induction count with
  | zero => exact (Nat.zero_add _).symm
  | succ count ih =>
    have hpos := e.height_pos
    simp only [extended, height, ih]
    omega

theorem height_extendedAll (ops : List BinaryOp) (count : Nat) (e : Expr) :
    (extendedAll ops count e).height = ops.length * count + e.height := by
  induction ops with
  | nil => simp [extendedAll]
  | cons op ops ih =>
    rw [extendedAll, height_extended, ih, List.length_cons, Nat.succ_mul]
    omega

theorem height_tall (budget : Nat) : (tall budget).height = heightBound budget := by
  induction budget with
  | zero => rfl
  | succ budget ih =>
    have hpos := (tall budget).height_pos
    have hops : tierOps.length = 6 := rfl
    simp only [tall, height, heightOfAll, height_extendedAll, hops, ih, heightBound]
    omega

section
variable (line : UInt32) (file : String)

def tallWords : (budget : Nat) → List Token
  | 0 => [word line file .name ['x']]
  | budget + 1 =>
    word line file .name ['f'] :: sign line file .openParen :: (tallWords budget ++ [sign line file .closeParen]) ++
      tierOps.reverse.flatMap (extendedWords line file · (budget + 1)) ++
      [sign line file .question, word line file .name ['x'], sign line file .colon, word line file .name ['x']]

end

end Expr

namespace Derives

open ScenarioScript.Expr

variable {charge : Nat} {tokens : List Token} {e : Expr} (line : UInt32) (file : String)

theorem expression_var : Derives charge (.expression (.var "x")) [word line file .name ['x']] :=
  .plain (chain_var line file Tier.all)

theorem extendedAll (ops : List BinaryOp) {count : Nat} (hcount : charge + count ≤ maxDepth)
    (h : Derives charge (.chain [] e) tokens) :
    Derives charge (.chain (ops.map BinaryOp.tier) (Expr.extendedAll ops count e))
      (tokens ++ ops.reverse.flatMap (extendedWords line file · count)) := by
  induction ops with
  | nil => simpa [Expr.extendedAll] using h
  | cons op ops ih =>
    have hjoined := ih.extended line file op hcount
    simpa [Expr.extendedAll] using hjoined.chain

/-- Each level of the budget is spent by the call, and above it by every tier and the conditional again. -/
theorem tall {budget : Nat} (hbudget : charge + budget ≤ maxDepth) :
    Derives charge (.expression (Expr.tall budget)) (tallWords line file budget) := by
  induction budget generalizing charge with
  | zero => exact expression_var line file
  | succ budget ih =>
    have htext : (word line file .name ['f']).text.toString = "f" := StoredText.toString_ofString "f"
    have hinner : Derives (charge + 1) (.arguments [Expr.tall budget]) (tallWords line file budget) :=
      .lastArgument (ih (by omega))
    have hcall : Derives charge (.operand (.call "f" [Expr.tall budget]))
        (word line file .name ['f'] :: sign line file .openParen ::
          (tallWords line file budget ++ [sign line file .closeParen])) :=
      htext ▸ .call rfl rfl (by omega) hinner rfl
    have hcondition := (Derives.operand hcall).extendedAll line file tierOps hbudget
    exact .conditional hcondition rfl (by omega) (expression_var line file) rfl (expression_var line file)

end Derives

namespace Expr

/-! ## The text of a high tree -/

section
variable {line : UInt32} {file : String} {token : Token}

theorem isName_f : IsName ['f'] := ⟨'f', [], rfl, by decide, rfl⟩

theorem isPlain_x : (word line file .name ['x']).IsPlain line file := .inr ⟨['x'], isName_x, rfl⟩

theorem isPlain_sign (symbol : Symbol) : (sign line file symbol).IsPlain line file := .inl ⟨symbol, rfl⟩

theorem isPlain_of_mem_extendedWords {op : BinaryOp} {count : Nat} (h : token ∈ extendedWords line file op count) :
    token.IsPlain line file := by
  simp only [extendedWords, List.mem_flatten, List.mem_replicate] at h
  obtain ⟨_, ⟨-, rfl⟩, hmem⟩ := h
  simp only [List.mem_cons, List.not_mem_nil, or_false] at hmem
  rcases hmem with rfl | rfl
  · exact isPlain_sign _
  · exact isPlain_x

theorem isPlain_of_mem_tallWords (budget : Nat) :
    ∀ token ∈ tallWords line file budget, token.IsPlain line file := by
  induction budget with
  | zero => exact List.forall_mem_singleton.2 isPlain_x
  | succ budget ih =>
    have hname : (word line file .name ['f']).IsPlain line file := .inr ⟨['f'], isName_f, rfl⟩
    simp only [tallWords, List.forall_mem_append, List.forall_mem_cons, List.mem_flatMap]
    refine ⟨⟨⟨hname, isPlain_sign _, ih, isPlain_sign _, by simp⟩, ?_⟩, isPlain_sign _, isPlain_x, isPlain_sign _,
      isPlain_x, by simp⟩
    rintro token ⟨op, -, hmem⟩
    exact isPlain_of_mem_extendedWords hmem

end

def tallText (file : String) (budget : Nat) : String := String.ofList (spaced (tallWords 1 file budget))

theorem parse_tallText (file : String) {budget : Nat} (hbudget : budget ≤ maxDepth) :
    parse (tallText file budget) file = .ok (tall budget) := by
  have hcharge : 0 + budget ≤ maxDepth := by omega
  have he := Derives.tall 1 file hcharge
  have htext : Token.ofText (tallText file budget) file = tallWords 1 file budget ++ [word 1 file .done []] := by
    unfold Token.ofText Cursor.start tallText
    rw [String.toList_ofList]
    exact lexes_spaced (isPlain_of_mem_tallWords budget) 0
  rw [parse, htext, ofTokens?_concat rfl]
  · exact he
  · intro token htoken
    simpa using he.not_isDone token htoken

/-- What is read with some levels left is no higher than the bound for them, wherever it is read. For a whole text the
bound is 12609, and there are texts that reach it. -/
theorem height_le_of_parse (file : String) :
    (∀ last budget tokens e rest, (Grammar.ofBudget last budget).expression tokens = .ok e rest →
      e.height ≤ heightBound budget) ∧
    heightBound maxDepth = 12609 ∧ (∀ text e, parse text file = .ok e → e.height ≤ heightBound maxDepth) ∧
      ∃ text e, parse text file = .ok e ∧ e.height = heightBound maxDepth := by
  refine ⟨fun last budget tokens e rest h => ?_, by decide, fun text e h => ?_, ?_⟩
  · exact (Grammar.ofBudget_boundedBy last budget).expression h
  · obtain ⟨rest, hread, -⟩ := ofTokens?_eq_ok.1 h
    exact (Grammar.ofBudget_boundedBy _ maxDepth).expression hread
  · exact ⟨_, _, parse_tallText file (Nat.le_refl _), height_tall maxDepth⟩

/-- One level is enough for a height of nine, and a text that takes all of them reaches the bound. -/
theorem height_le_of_parse_tallText :
    (∃ e, parse (tallText "s.scn" 1) "s.scn" = .ok e ∧ e.height = 9 ∧ e.height ≤ heightBound maxDepth) ∧
      ∃ e rest, (Grammar.ofBudget none 1).expression (tallWords 1 "s.scn" 1) = .ok e rest ∧ e.height = 9 ∧
        e.height ≤ heightBound 1 := by
  obtain ⟨hlevels, -, htext, -⟩ := height_le_of_parse "s.scn"
  have hread := parse_tallText "s.scn" (by decide : 1 ≤ maxDepth)
  have hheight : (tall 1).height = 9 := height_tall 1
  have hone : (Grammar.ofBudget none 1).expression (tallWords 1 "s.scn" 1) = .ok (tall 1) [] := by
    have hcharge : 63 + 1 ≤ maxDepth := by decide
    have hbudget : 63 + 1 = maxDepth := rfl
    have hlevel := (Derives.tall 1 "s.scn" hcharge).readsBack none hbudget [] (endsExpression_of_atEnd rfl)
    rwa [List.append_nil] at hlevel
  exact ⟨⟨tall 1, hread, hheight, htext _ _ hread⟩, tall 1, [], hone, hheight, hlevels _ _ _ _ _ hone⟩

end Expr

end ScenarioScript
