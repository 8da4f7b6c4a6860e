import ScenarioScript.Proofs.Expr.Completeness
import ScenarioScript.Proofs.Text.Stored
import ScenarioScript.Proofs.Token.Layout

/-!
# Reading the words of a printed tree

The printer puts every operator between parentheses, and each of them takes a level of its own. So
the words of a tree are read if the budget covers the levels that the tree needs in print, and any
smaller budget ends in the middle of them.
-/

namespace ScenarioScript

namespace Expr

/-! ## Words -/

section
variable (line : UInt32) (file : String)

mutual

/-- The tokens of the text of a tree. -/
def words : Expr → List Token
  | literal (.number x) => [word line file (.number x) (Number.unsigned (Number.rank x))]
  | literal (.text s) => [word line file .string s.toList]
  | var name => [word line file .name name.toList]
  | call name args =>
    word line file .name name.toList :: sign line file .openParen ::
      (argumentWords args ++ [sign line file .closeParen])
  | unary op operand =>
    sign line file .openParen :: sign line file op.symbol ::
      (operand.words ++ [sign line file .closeParen])
  | binary op left right =>
    sign line file .openParen ::
      (left.words ++ sign line file op.symbol :: right.words ++ [sign line file .closeParen])
  | conditional condition yes no =>
    sign line file .openParen ::
      (condition.words ++ sign line file .question :: (yes.words ++ sign line file .colon :: no.words) ++
        [sign line file .closeParen])

def argumentWords : List Expr → List Token
  | [] => []
  | [arg] => arg.words
  | arg :: next :: args => arg.words ++ sign line file .comma :: argumentWords (next :: args)

end

end

/-! ## Levels -/

mutual

/-- How many levels of nesting the text of a tree takes. -/
def need : Expr → Nat
  | literal _ => 0
  | var _ => 0
  | call _ args => 1 + argumentsNeed args
  | unary _ operand => 2 + operand.need
  | binary _ left right => max (1 + left.need) (2 + right.need)
  | conditional condition yes no => max (1 + condition.need) (max (2 + yes.need) (2 + no.need))

def argumentsNeed : List Expr → Nat
  | [] => 0
  | arg :: args => max arg.need (argumentsNeed args)

end

end Expr

/-! ## Reading within a budget -/

/-- A reader takes all of some tokens if they fit. If they do not, it stops because it is too deep. -/
structure ReadsIf {α : Type} (fits : Prop) (r : Reader α) (tokens rest : List Token) (a : α) : Prop where
  ok : fits → r (tokens ++ rest) = .ok a rest
  deep : ¬ fits → ∃ stop, stop <:+ tokens ++ rest ∧ r (tokens ++ rest) = .error .tooDeep stop

namespace ReadsIf

variable {α β : Type} {p q : Prop} {r : Reader α} {f : α → Reader β} {a : α} {b : β}
  {tokens more rest : List Token}

theorem congr (h : ReadsIf p r tokens rest a) (hpq : q ↔ p) : ReadsIf q r tokens rest a := by
  rwa [hpq]

theorem of_ok (h : r (tokens ++ rest) = .ok a rest) : ReadsIf True r tokens rest a :=
  ⟨fun _ => h, fun hno => absurd trivial hno⟩

theorem bind (hr : ReadsIf p r tokens (more ++ rest) a) (hf : ReadsIf q (f a) more rest b) :
    ReadsIf (p ∧ q) (r >>= f) (tokens ++ more) rest b := by
  constructor
  · rintro ⟨hp, hq⟩
    rw [List.append_assoc, Reader.bind_of_ok (hr.ok hp), hf.ok hq]
  · intro h
    rw [List.append_assoc]
    by_cases hp : p
    · obtain ⟨stop, hsuffix, hread⟩ := hf.deep fun hq => h ⟨hp, hq⟩
      rw [Reader.bind_of_ok (hr.ok hp), hread]
      exact ⟨stop, hsuffix.trans (List.suffix_append _ _), rfl⟩
    · obtain ⟨stop, hsuffix, hread⟩ := hr.deep hp
      exact ⟨stop, hsuffix, Reader.bind_of_error hread⟩

theorem bind_ok (hr : ReadsIf p r tokens rest a) (hf : f a rest = .ok b rest) :
    ReadsIf p (r >>= f) tokens rest b := by
  have hpure : ReadsIf True (f a) [] rest b := of_ok hf
  have h := ReadsIf.bind hr hpure
  rw [List.append_nil] at h
  exact h.congr (and_iff_left trivial).symm

theorem of_eq {s : Reader α} (hs : s (tokens ++ rest) = r (tokens ++ rest))
    (hr : ReadsIf p r tokens rest a) : ReadsIf p s tokens rest a := by
  constructor
  · intro hp
    rw [hs, hr.ok hp]
  · intro hp
    rw [hs]
    exact hr.deep hp

theorem of_tail {s : Reader α} {token : Token} (hs : s (token :: (tokens ++ rest)) = r (tokens ++ rest))
    (hr : ReadsIf p r tokens rest a) : ReadsIf p s (token :: tokens) rest a := by
  constructor
  · intro hp
    rw [List.cons_append, hs, hr.ok hp]
  · intro hp
    obtain ⟨stop, hsuffix, hread⟩ := hr.deep hp
    exact ⟨stop, hsuffix.trans (List.suffix_cons _ _), hs.trans hread⟩

theorem deeper {s : Option Grammar → Reader α} {last : Option Token} {token : Token} {need budget : Nat}
    (hnone : s none (token :: (tokens ++ rest)) = .error .tooDeep (tokens ++ rest))
    (hsome : ∀ budget, ReadsIf (need ≤ budget) (s (some (Grammar.ofBudget last budget)))
      (token :: tokens) rest a) :
    ReadsIf (1 + need ≤ budget) (s (Grammar.oneLess last budget)) (token :: tokens) rest a := by
  cases budget with
  | zero =>
    refine ⟨fun h => by omega, fun _ => ?_⟩
    exact ⟨_, List.suffix_cons token _, hnone⟩
  | succ budget => exact (hsome budget).congr (by omega)

end ReadsIf

/-! ## Words in a chain -/

namespace Grammar

variable {p : Prop} {last : Option Token} {smaller : Option Grammar} {tokens rest : List Token} {e : Expr}

theorem readChain_append {before tiers : List Tier} (hstops : Stops before rest)
    (h : ReadsIf p (readChain last smaller tiers) tokens rest e) :
    ReadsIf p (readChain last smaller (before ++ tiers)) tokens rest e := by
  induction before with
  | nil => exact h
  | cons tier before ih =>
    exact (ih hstops.of_cons).bind_ok (readMore_left (hstops.next?_eq_none List.mem_cons_self))

/-- The rest of an expression whose condition has been read. -/
def readBranches (smaller : Option Grammar) (condition : Expr) : Reader Expr := do
  if ← Reader.accept .question then
    let inner ← Grammar.deeper smaller
    let yes ← inner.expression
    Reader.expect .colon .missingColon
    let no ← inner.expression
    return .conditional condition yes no
  else return condition

theorem readExpression_eq :
    readExpression last smaller = readChain last smaller Tier.all >>= readBranches smaller := rfl

theorem readExpression_of_chain (hquestion : ¬ Begins .question rest)
    (h : ReadsIf p (readChain last smaller Tier.all) tokens rest e) :
    ReadsIf p (readExpression last smaller) tokens rest e :=
  h.bind_ok (Reader.bind_of_ok (Reader.accept_of_not_begins hquestion))

end Grammar

namespace Expr

open Grammar Reader

/-- How the words of a tree are read where an operand is expected. -/
def ReadsWords (line : UInt32) (file : String) (last : Option Token) (e : Expr) : Prop :=
  ∀ budget rest, ¬ Begins .openParen rest →
    ReadsIf (e.need ≤ budget) (readOperand last (oneLess last budget)) (e.words line file) rest e

variable {line : UInt32} {file : String} {last : Option Token}

theorem words_begin (e : Expr) (rest : List Token) :
    e.words line file ≠ [] ∧ UnaryOp.next? (e.words line file ++ rest) = none ∧
      ¬ Begins .closeParen (e.words line file ++ rest) := by
  unfold words
  split <;> simp [word, sign, UnaryOp.next?]

section
variable {e : Expr} {budget : Nat} {rest : List Token}

theorem ReadsWords.chain (h : e.ReadsWords line file last) {tiers : List Tier} (hstops : Stops tiers rest) :
    ReadsIf (e.need ≤ budget) (readChain last (oneLess last budget) tiers) (e.words line file) rest e := by
  have hunary : readChain last (oneLess last budget) [] (e.words line file ++ rest) =
      readOperand last (oneLess last budget) (e.words line file ++ rest) :=
    readUnary_operand (words_begin e rest).2.1
  have hread := (h budget rest hstops.1).of_eq hunary
  have happend := readChain_append hstops hread
  rwa [List.append_nil] at happend

theorem ReadsWords.expression (h : e.ReadsWords line file last) (hends : EndsExpression rest) :
    ReadsIf (e.need ≤ budget) (ofBudget last budget).expression (e.words line file) rest e := by
  rw [expression_eq]
  exact readExpression_of_chain hends.2 (h.chain hends.1)

end

/-! ## One lemma for each kind of tree -/

section
variable (line : UInt32) (file : String) (last : Option Token)

theorem readsWords_literal (value : Value) : (literal value).ReadsWords line file last := by
  intro budget rest _
  refine ReadsIf.congr (ReadsIf.of_ok ?_) (iff_of_true (Nat.zero_le _) trivial)
  cases value with
  | number x => exact readOperand_number rfl
  | text s =>
    refine (readOperand_string rfl).trans ?_
    rw [word, StoredText.toString_ofString, String.ofList_toList]
    rfl

theorem readsWords_var (name : String) : (var name).ReadsWords line file last := by
  intro budget rest hrest
  refine ReadsIf.congr (ReadsIf.of_ok ?_) (iff_of_true (Nat.zero_le _) trivial)
  refine (readOperand_var rfl hrest).trans ?_
  rw [word, StoredText.toString_ofString, String.ofList_toList]

end

theorem readsIf_closing {α : Type} (fault : ParseFault) (a : α) (rest : List Token) :
    ReadsIf True (do expect .closeParen fault; return a : Reader α) [sign line file .closeParen] rest a :=
  .of_ok (bind_of_ok (expect_of_kind rfl))

theorem readsWords_of_inside {e : Expr} {tokens : List Token} {levels : Nat}
    (hwords : e.words line file =
      sign line file .openParen :: (tokens ++ [sign line file .closeParen]))
    (hneed : e.need = 1 + levels)
    (h : ∀ budget rest, EndsExpression rest →
      ReadsIf (levels ≤ budget) (readExpression last (oneLess last budget)) tokens rest e) :
    e.ReadsWords line file last := by
  intro budget rest _
  rw [hwords, hneed]
  refine ReadsIf.deeper ((readOperand_openParen rfl).trans readParenthesis_deep) fun budget => ?_
  have hends : EndsExpression ([sign line file .closeParen] ++ rest) :=
    endsExpression_of_symbol rfl (by decide)
  have hinside := (h budget _ hends).bind (f := fun e => do
    expect .closeParen .openParenthesis
    return e) (readsIf_closing .openParenthesis e rest)
  rw [← expression_eq] at hinside
  exact .of_tail (readOperand_openParen rfl) (hinside.congr (and_iff_left trivial).symm)

section
variable {condition yes no left right operand : Expr}

theorem ReadsWords.signed (h : operand.ReadsWords line file last) (op : UnaryOp) :
    (unary op operand).ReadsWords line file last := by
  have hwords : (unary op operand).words line file = sign line file .openParen ::
      ((sign line file op.symbol :: operand.words line file) ++ [sign line file .closeParen]) := rfl
  have hneed : (unary op operand).need = 1 + (1 + operand.need) := by
    rw [need]
    omega
  refine readsWords_of_inside hwords hneed fun budget rest hends => ?_
  have hchain : ReadsIf (1 + operand.need ≤ budget) (readChain last (oneLess last budget) [])
      (sign line file op.symbol :: operand.words line file) rest (unary op operand) := by
    refine ReadsIf.deeper (readUnary_deep rfl) fun budget => ?_
    refine .of_tail (readUnary_some rfl) ?_
    rw [unary_eq, chain_eq]
    exact (h.chain ⟨hends.1.1, by simp⟩).bind_ok rfl
  have happend := readChain_append hends.1 hchain
  rw [List.append_nil] at happend
  exact readExpression_of_chain hends.2 happend

theorem exists_tiers (op : BinaryOp) :
    ∃ before tighter, Tier.all = before ++ op.tier :: tighter ∧ op.tier ∉ tighter := by
  have hmem : op.tier ∈ Tier.all := by cases op <;> decide
  have hnodup : Tier.all.Nodup := by decide
  obtain ⟨before, tighter, hall⟩ := List.append_of_mem hmem
  rw [hall] at hnodup
  exact ⟨before, tighter, hall, (List.nodup_cons.1 (List.nodup_append.1 hnodup).2.1).1⟩

theorem ReadsWords.joined (hleft : left.ReadsWords line file last) (hright : right.ReadsWords line file last)
    (op : BinaryOp) : (binary op left right).ReadsWords line file last := by
  have hwords : (binary op left right).words line file = sign line file .openParen ::
      ((left.words line file ++ sign line file op.symbol :: right.words line file) ++
        [sign line file .closeParen]) := rfl
  have hneed : (binary op left right).need = 1 + max left.need (1 + right.need) := by
    rw [need]
    omega
  refine readsWords_of_inside hwords hneed fun budget rest hends => ?_
  obtain ⟨before, tighter, hall, htighter⟩ := exists_tiers op
  have hstops := hends.1
  rw [hall] at hstops
  have hbefore : Stops before rest := ⟨hstops.1, fun op hop => hstops.2 op (List.mem_append_left _ hop)⟩
  have htiers : Stops (op.tier :: tighter) rest :=
    ⟨hstops.1, fun op hop => hstops.2 op (List.mem_append_right _ hop)⟩
  -- only the right operand stands behind the operator, which takes a level
  have hmore : ReadsIf (1 + right.need ≤ budget) (readMore (oneLess last budget) op.tier tighter left)
      (sign line file op.symbol :: right.words line file) rest (binary op left right) := by
    let more (smaller : Option Grammar) : Reader Expr := readMore smaller op.tier tighter left
    refine ReadsIf.deeper (s := more) (readMore_deep rfl) fun budget => ?_
    refine .of_tail (readMore_some rfl) ?_
    rw [chain_eq]
    refine (hright.chain htiers.of_cons).bind_ok ?_
    rw [more_eq]
    exact readMore_left (htiers.next?_eq_none List.mem_cons_self)
  have hchain : ReadsIf (left.need ≤ budget ∧ 1 + right.need ≤ budget)
      (readChain last (oneLess last budget) (op.tier :: tighter)) _ rest (binary op left right) :=
    (hleft.chain (stops_of_operator rfl htighter)).bind hmore
  have happend := readChain_append hbefore hchain
  rw [← hall] at happend
  exact (readExpression_of_chain hends.2 happend).congr (by omega)

theorem ReadsWords.branched (hcondition : condition.ReadsWords line file last)
    (hyes : yes.ReadsWords line file last) (hno : no.ReadsWords line file last) :
    (conditional condition yes no).ReadsWords line file last := by
  have hwords : (conditional condition yes no).words line file = sign line file .openParen ::
      ((condition.words line file ++ sign line file .question ::
        (yes.words line file ++ sign line file .colon :: no.words line file)) ++
        [sign line file .closeParen]) := rfl
  have hneed : (conditional condition yes no).need =
      1 + max condition.need (1 + max yes.need no.need) := by
    rw [need]
    omega
  refine readsWords_of_inside hwords hneed fun budget rest hends => ?_
  have hbranches : ReadsIf (1 + max yes.need no.need ≤ budget) (readBranches (oneLess last budget) condition)
      (sign line file .question :: (yes.words line file ++ sign line file .colon :: no.words line file)) rest
      (conditional condition yes no) := by
    let branches (smaller : Option Grammar) : Reader Expr := readBranches smaller condition
    refine ReadsIf.deeper (s := branches) (bind_of_ok (accept_of_kind rfl)) fun budget => ?_
    let second (yes : Expr) : Reader Expr := do
      expect .colon .missingColon
      return conditional condition yes (← (ofBudget last budget).expression)
    have hsecond : ReadsIf (no.need ≤ budget) (second yes) (sign line file .colon :: no.words line file)
        rest (conditional condition yes no) :=
      .of_tail (bind_of_ok (expect_of_kind rfl)) ((hno.expression hends).bind_ok rfl)
    have hfirst : EndsExpression (sign line file .colon :: no.words line file ++ rest) :=
      endsExpression_of_symbol rfl (by decide)
    have hyes : ReadsIf (yes.need ≤ budget) (ofBudget last budget).expression (yes.words line file) _ yes :=
      hyes.expression hfirst
    exact .of_tail (bind_of_ok (accept_of_kind rfl)) ((hyes.bind hsecond).congr (by omega))
  rw [readExpression_eq]
  exact ((hcondition.chain (stops_of_question rfl)).bind hbranches).congr (by omega)

end

/-! ## Calls -/

/-- How the words of the arguments of a call are read. -/
def ReadsArguments (line : UInt32) (file : String) (last : Option Token) (args : List Expr) : Prop :=
  args ≠ [] → ∀ budget count rest, args.length ≤ count → EndsExpression rest → ¬ Begins .comma rest →
    ReadsIf (argumentsNeed args ≤ budget) (readArguments (ofBudget last budget).expression count)
      (argumentWords line file args) rest args

theorem length_le_argumentWords : (args : List Expr) → args.length ≤ (argumentWords line file args).length
  | [] => Nat.le_refl 0
  | [arg] => List.length_pos_iff.2 (words_begin arg []).1
  | arg :: next :: args => by
    have hnext := length_le_argumentWords (next :: args)
    rw [argumentWords, List.length_append]
    simp only [List.length_cons] at hnext ⊢
    omega

theorem argumentWords_begin {args : List Expr} (hargs : args ≠ []) (rest : List Token) :
    ¬ Begins .closeParen (argumentWords line file args ++ rest) := by
  match args with
  | [arg] => exact (words_begin arg rest).2.2
  | arg :: next :: args =>
    rw [argumentWords, List.append_assoc]
    exact (words_begin arg _).2.2

theorem readsArguments_cons {arg next : Expr} {args : List Expr} (harg : arg.ReadsWords line file last)
    (hargs : ReadsArguments line file last (next :: args)) :
    ReadsArguments line file last (arg :: next :: args) := by
  intro _ budget count rest hcount hends hcomma
  obtain ⟨count, rfl⟩ : ∃ more, count = more + 1 := ⟨count - 1, by simp at hcount; omega⟩
  have hrest := hargs (List.cons_ne_nil _ _) budget count rest (by simpa using hcount) hends hcomma
  let second (first : Expr) : Reader (List Expr) := do
    if ← accept .comma then return first :: (← readArguments (ofBudget last budget).expression count)
    else return [first]
  have hsecond : ReadsIf (argumentsNeed (next :: args) ≤ budget) (second arg)
      (sign line file .comma :: argumentWords line file (next :: args)) rest (arg :: next :: args) :=
    .of_tail (bind_of_ok (accept_of_kind rfl)) (hrest.bind_ok rfl)
  have hfirst : EndsExpression (sign line file .comma :: argumentWords line file (next :: args) ++ rest) :=
    endsExpression_of_symbol rfl (by decide)
  have harg : ReadsIf (arg.need ≤ budget) (ofBudget last budget).expression (arg.words line file) _ arg :=
    harg.expression hfirst
  exact (harg.bind hsecond).congr Nat.max_le

theorem readsArguments_singleton {arg : Expr} (harg : arg.ReadsWords line file last) :
    ReadsArguments line file last [arg] := by
  intro _ budget count rest hcount hends hcomma
  obtain ⟨count, rfl⟩ : ∃ more, count = more + 1 := ⟨count - 1, by simp at hcount; omega⟩
  refine ((harg.expression hends).bind_ok (bind_of_ok (accept_of_not_begins hcomma))).congr ?_
  exact Nat.max_le.trans (and_iff_left (Nat.zero_le _))

theorem readsWords_call {args : List Expr} (name : String) (hargs : ReadsArguments line file last args) :
    (call name args).ReadsWords line file last := by
  intro budget rest _
  have hname : (word line file .name name.toList).text.toString = name := by
    rw [word, StoredText.toString_ofString, String.ofList_toList]
  let behindName (smaller : Option Grammar) : Reader Expr := fun tokens =>
    readOperand last smaller (word line file .name name.toList :: tokens)
  refine ReadsIf.of_tail (r := behindName (oneLess last budget)) rfl ?_
  rw [need]
  refine ReadsIf.deeper (s := behindName) ((readOperand_call rfl rfl).trans readCall_deep) fun budget => ?_
  refine .of_tail (readOperand_call rfl rfl) ?_
  rw [hname]
  by_cases hnil : args = []
  · subst hnil
    exact (ReadsIf.of_ok (readCall_noArguments rfl)).congr (iff_of_true (Nat.zero_le _) trivial)
  · let closing := [sign line file .closeParen]
    have hcount : args.length ≤ (argumentWords line file args ++ closing ++ rest).length + 1 := by
      have hlength := @length_le_argumentWords line file args
      simp only [List.length_append]
      omega
    have hends : EndsExpression (closing ++ rest) := endsExpression_of_symbol rfl (by decide)
    have hcomma : ¬ Begins .comma (closing ++ rest) := by simp [closing, sign, word]
    have hread := (hargs hnil budget _ (closing ++ rest) hcount hends hcomma).bind (f := fun args => do
      expect .closeParen (.openArguments name)
      return call name args) (readsIf_closing (.openArguments name) (call name args) rest)
    refine .of_eq (readCall_arguments ?_) (hread.congr (and_iff_left trivial).symm)
    rw [List.append_assoc]
    exact argumentWords_begin hnil _

mutual

/-- The words of a tree are read as that tree if the budget covers what it needs. -/
theorem readsWords : (e : Expr) → e.ReadsWords line file last
  | literal value => readsWords_literal line file last value
  | var name => readsWords_var line file last name
  | call name args => readsWords_call name (readsArguments args)
  | unary op operand => (readsWords operand).signed op
  | binary op left right => (readsWords left).joined (readsWords right) op
  | conditional condition yes no => (readsWords condition).branched (readsWords yes) (readsWords no)

theorem readsArguments : (args : List Expr) → ReadsArguments line file last args
  | [] => fun hnil => absurd rfl hnil
  | [arg] => readsArguments_singleton (readsWords arg)
  | arg :: next :: args => readsArguments_cons (readsWords arg) (readsArguments (next :: args))

end

end Expr

end ScenarioScript
