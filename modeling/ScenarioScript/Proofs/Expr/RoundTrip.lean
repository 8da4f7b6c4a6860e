import ScenarioScript.Proofs.Expr.Grammar
import ScenarioScript.Proofs.Expr.Words

/-!
# The text of a tree reads back

The tokens of a printed tree are its words, and the words are read as that tree. The one thing that
can go wrong is the depth.
-/

namespace ScenarioScript

namespace Expr

/-! ## Trees with a text of their own -/

mutual

/-- Numbers are finite and without a sign, names are names. A string can be anything. -/
def Printable : Expr → Prop
  | literal (.number x) => x.isFinite ∧ Number.isNegative x = false
  | literal (.text _) => True
  | var name => IsName name.toList
  | call name args => IsName name.toList ∧ AllPrintable args
  | unary _ operand => operand.Printable
  | binary _ left right => left.Printable ∧ right.Printable
  | conditional condition yes no => condition.Printable ∧ yes.Printable ∧ no.Printable

def AllPrintable : List Expr → Prop
  | [] => True
  | arg :: args => arg.Printable ∧ AllPrintable args

end

/-! ## Tokens of the text -/

/-- The text of a tree is cut into its words, if a word can end behind it. -/
def LexesChars (line : UInt32) (file : String) (e : Expr) : Prop :=
  ∀ more tokens, EndsWord more → Lexes line file more tokens →
    Lexes line file (e.chars ++ more) (e.words line file ++ tokens)

def LexesArguments (line : UInt32) (file : String) (args : List Expr) : Prop :=
  ∀ more tokens, EndsWord more → Lexes line file more tokens →
    Lexes line file (argumentChars args ++ more) (argumentWords line file args ++ tokens)

theorem endsSymbol_of_continuesName {c : Char} (h : continuesName c) (text : List Char) :
    EndsSymbol (c :: text) := by
  refine endsSymbol_cons ?_ text
  intro hmem
  simp only [List.mem_cons, List.not_mem_nil, or_false] at hmem
  rcases hmem with rfl | rfl | rfl <;> exact absurd h (by decide)

theorem endsSymbol_name {name : List Char} (h : IsName name) (more : List Char) :
    EndsSymbol (name ++ more) := by
  obtain ⟨c, text, rfl, hc, -⟩ := h
  exact endsSymbol_of_continuesName (continuesName_of_startsName hc) _

theorem chars_number {x : Float} (hfinite : x.isFinite) (hsign : Number.isNegative x = false) :
    (literal (.number x)).chars = Number.unsigned (Number.rank x) := by
  change (Number.render x).toList = _
  rw [Number.render_of_isFinite hfinite hsign, String.toList_ofList]

theorem endsSymbol_chars {e : Expr} (h : e.Printable) (more : List Char) : EndsSymbol (e.chars ++ more) := by
  match e with
  | literal (.number x) =>
    obtain ⟨hfinite, hsign⟩ := h
    obtain ⟨whole, fraction, htext, hpointed, -⟩ := Number.exists_unsigned ((Number.isFinite_iff x).1 hfinite)
    rw [chars_number hfinite hsign, htext]
    obtain ⟨c, digits, rfl⟩ := List.exists_cons_of_ne_nil hpointed.whole_ne_nil
    exact endsSymbol_of_continuesName (continuesName_of_isPointed hpointed c (by simp [Number.pointed])) _
  | literal (.text s) => exact endsSymbol_cons (by decide) _
  | var name => exact endsSymbol_name h more
  | call name args =>
    rw [chars, List.append_assoc, List.append_assoc]
    exact endsSymbol_name h.1 _
  | unary op operand => exact endsSymbol_cons (by decide) _
  | binary op left right => exact endsSymbol_cons (by decide) _
  | conditional condition yes no => exact endsSymbol_cons (by decide) _

section
variable {line : UInt32} {file : String}

theorem lexesChars_number {x : Float} (hfinite : x.isFinite) (hsign : Number.isNegative x = false) :
    (literal (.number x)).LexesChars line file := by
  intro more tokens hmore h
  rw [chars_number hfinite hsign]
  exact h.lexeme (isLexeme_number hfinite hsign hmore)

theorem lexesChars_text (s : String) : (literal (.text s)).LexesChars line file := by
  intro more tokens _ h
  exact h.lexeme (isLexeme_string s.toList more)

theorem lexesChars_var {name : String} (hname : IsName name.toList) : (var name).LexesChars line file := by
  intro more tokens hmore h
  exact h.lexeme (isLexeme_name hname hmore)

theorem LexesArguments.called {args : List Expr} (hargs : LexesArguments line file args) {name : String}
    (hname : IsName name.toList) : (call name args).LexesChars line file := by
  intro more tokens _ h
  -- words are put in front of the text, the last one first
  have hclose := h.sign .closeParen rfl
  have hinside := hargs _ _ (endsWord_cons (by decide) more) hclose
  have hopen := hinside.sign .openParen rfl
  have hcall := hopen.lexeme (isLexeme_name hname (endsWord_cons (by decide) _))
  simp only [chars, words, List.append_assoc, List.cons_append, List.nil_append]
  exact hcall

theorem LexesChars.signed {operand : Expr} (hoperand : operand.LexesChars line file)
    (hprint : operand.Printable) (op : UnaryOp) : (unary op operand).LexesChars line file := by
  intro more tokens _ h
  have hclose := h.sign .closeParen rfl
  have hinside := hoperand _ _ (endsWord_cons (by decide) more) hclose
  have hsign := hinside.sign op.symbol (symbol?_of_endsSymbol (endsSymbol_chars hprint _))
  have hopen := hsign.sign .openParen rfl
  simp only [chars, words, List.append_assoc, List.cons_append, List.nil_append]
  exact hopen

theorem LexesChars.joined {left right : Expr} (hleft : left.LexesChars line file)
    (hright : right.LexesChars line file) (op : BinaryOp) : (binary op left right).LexesChars line file := by
  intro more tokens _ h
  have hclose := h.sign .closeParen rfl
  have hright := hright _ _ (endsWord_cons (by decide) more) hclose
  have hsign := hright.space.sign op.symbol (symbol?_of_endsSymbol (endsSymbol_cons (by decide) _))
  have hleft := hleft _ _ (endsWord_cons (by decide) _) hsign.space
  have hopen := hleft.sign .openParen rfl
  simp only [chars, words, List.append_assoc, List.cons_append, List.nil_append]
  exact hopen

theorem LexesChars.branched {condition yes no : Expr} (hcondition : condition.LexesChars line file)
    (hyes : yes.LexesChars line file) (hno : no.LexesChars line file) :
    (conditional condition yes no).LexesChars line file := by
  intro more tokens _ h
  have hclose := h.sign .closeParen rfl
  have hno := hno _ _ (endsWord_cons (by decide) more) hclose
  have hcolon := hno.space.sign .colon rfl
  have hyes := hyes _ _ (endsWord_cons (by decide) _) hcolon.space
  have hquestion := hyes.space.sign .question rfl
  have hcondition := hcondition _ _ (endsWord_cons (by decide) _) hquestion.space
  have hopen := hcondition.sign .openParen rfl
  simp only [chars, words, List.append_assoc, List.cons_append, List.nil_append]
  exact hopen

theorem LexesChars.listed {arg next : Expr} {args : List Expr} (harg : arg.LexesChars line file)
    (hargs : LexesArguments line file (next :: args)) : LexesArguments line file (arg :: next :: args) := by
  intro more tokens hmore h
  have hnext := hargs more tokens hmore h
  have hcomma := hnext.space.sign .comma rfl
  have harg := harg _ _ (endsWord_cons (by decide) _) hcomma
  simp only [argumentChars, argumentWords, List.append_assoc, List.cons_append]
  exact harg

end

section
variable (line : UInt32) (file : String)

mutual

theorem lexesChars : (e : Expr) → e.Printable → e.LexesChars line file
  | literal (.number _), h => lexesChars_number h.1 h.2
  | literal (.text s), _ => lexesChars_text s
  | var _, h => lexesChars_var h
  | call _ args, h => (lexesArguments args h.2).called h.1
  | unary op operand, h => (lexesChars operand h).signed h op
  | binary op left right, h => (lexesChars left h.1).joined (lexesChars right h.2) op
  | conditional condition yes no, h =>
    (lexesChars condition h.1).branched (lexesChars yes h.2.1) (lexesChars no h.2.2)

theorem lexesArguments : (args : List Expr) → AllPrintable args → LexesArguments line file args
  | [], _ => fun _ _ _ h => h
  | [arg], h => lexesChars arg h.1
  | arg :: next :: args, h => (lexesChars arg h.1).listed (lexesArguments (next :: args) h.2)

end

/-! ## Words are no faults -/

theorem isWord_sign {symbol : Symbol} (h : symbol ≠ .semicolon) : (sign line file symbol).isWord :=
  Token.isWord_of_symbol rfl h

theorem isWord_of_mem_parenthesis {tokens : List Token} (h : ∀ token ∈ tokens, token.isWord) :
    ∀ token ∈ sign line file .openParen :: (tokens ++ [sign line file .closeParen]), token.isWord := by
  have hopen : (sign line file .openParen).isWord := isWord_sign line file (by decide)
  have hclose : (sign line file .closeParen).isWord := isWord_sign line file (by decide)
  refine List.forall_mem_cons.2 ⟨hopen, List.forall_mem_append.2 ⟨h, ?_⟩⟩
  simpa using hclose

mutual

theorem isWord_of_mem_words : (e : Expr) → ∀ token ∈ e.words line file, token.isWord
  | literal (.number _) | literal (.text _) | var _ => by simp [words, word, Token.isWord]
  | call _ args => by
    have hargs := isWord_of_mem_argumentWords args
    exact List.forall_mem_cons.2 ⟨rfl, isWord_of_mem_parenthesis line file hargs⟩
  | unary op operand => by
    have hoperand := isWord_of_mem_words operand
    have hsign := isWord_sign line file op.symbol_ne_semicolon
    exact isWord_of_mem_parenthesis line file (List.forall_mem_cons.2 ⟨hsign, hoperand⟩)
  | binary op left right => by
    have hleft := isWord_of_mem_words left
    have hright := isWord_of_mem_words right
    have hsign := isWord_sign line file op.symbol_ne_semicolon
    refine isWord_of_mem_parenthesis line file (List.forall_mem_append.2 ⟨hleft, ?_⟩)
    exact List.forall_mem_cons.2 ⟨hsign, hright⟩
  | conditional condition yes no => by
    have hcondition := isWord_of_mem_words condition
    have hyes := isWord_of_mem_words yes
    have hno := isWord_of_mem_words no
    have hquestion : (sign line file .question).isWord := isWord_sign line file (by decide)
    have hcolon : (sign line file .colon).isWord := isWord_sign line file (by decide)
    refine isWord_of_mem_parenthesis line file (List.forall_mem_append.2 ⟨hcondition, ?_⟩)
    simp only [List.forall_mem_cons, List.forall_mem_append]
    exact ⟨hquestion, hyes, hcolon, hno⟩

theorem isWord_of_mem_argumentWords :
    (args : List Expr) → ∀ token ∈ argumentWords line file args, token.isWord
  | [] => by simp [argumentWords]
  | [arg] => isWord_of_mem_words arg
  | arg :: next :: args => by
    have harg := isWord_of_mem_words arg
    have hargs := isWord_of_mem_argumentWords (next :: args)
    simp only [argumentWords, List.forall_mem_cons, List.forall_mem_append]
    exact ⟨harg, isWord_sign line file (by decide), hargs⟩

end

end

/-! ## Reading the text -/

theorem ofText_render {e : Expr} (h : e.Printable) (file : String) :
    Token.ofText e.render file = e.words 1 file ++ [word 1 file .done []] := by
  have hlexes := lexesChars 1 file e h [] _ (by simp [EndsWord]) .nil
  have htokens := hlexes 0
  rw [List.append_nil] at htokens
  rw [← htokens]
  unfold Token.ofText Cursor.tokens Cursor.start render
  rw [String.toList_ofList]

theorem atToken_words {e : Expr} {line : UInt32} {file : String} {final : Token} (hfinal : final.isDone)
    {stop : List Token} (hstop : stop <:+ e.words line file ++ [final]) (fault : ParseFault) :
    (ParseError.atToken fault (stop.head?.or (e.words line file ++ [final]).getLast?)).fault = fault := by
  have hkind : ∀ token ∈ e.words line file ++ [final], ∀ lexical, token.kind ≠ .fault lexical := by
    intro token htoken lexical hlexical
    rcases List.mem_append.1 htoken with hword | hlast
    · have hword := isWord_of_mem_words line file e token hword
      simp [Token.isWord, hlexical] at hword
    · obtain rfl := List.mem_singleton.1 hlast
      simp [Token.isDone, hlexical] at hfinal
  have hsight : ∃ token ∈ e.words line file ++ [final],
      stop.head?.or (e.words line file ++ [final]).getLast? = some token := by
    cases stop with
    | nil => exact ⟨final, by simp, by simp⟩
    | cons token stop => exact ⟨token, hstop.subset List.mem_cons_self, rfl⟩
  obtain ⟨token, hmem, hsight⟩ := hsight
  rw [hsight]
  unfold ParseError.atToken
  dsimp only
  split
  · rename_i lexical hlexical
    exact absurd hlexical (hkind token hmem lexical)
  · rfl

theorem readsIf_reader (e : Expr) (line : UInt32) (file : String) (last : Option Token) {final : Token}
    (hfinal : final.isDone) :
    ReadsIf (e.need ≤ maxDepth) (reader last) (e.words line file) [final] e :=
  (readsWords e).expression (endsExpression_of_atEnd hfinal)

section
variable {e : Expr}

theorem parse_render_of_le (h : e.Printable) (file : String) (hneed : e.need ≤ maxDepth) :
    parse e.render file = .ok e := by
  have hfinal : (word 1 file .done []).isDone := rfl
  have hread := readsIf_reader e 1 file (e.words 1 file ++ [word 1 file .done []]).getLast? hfinal
  unfold parse
  rw [ofText_render h file]
  exact ofTokens?_of_ok (wholeReader_ok (hread.ok hneed) hfinal)

theorem parse_render_of_lt (h : e.Printable) (file : String) (hneed : maxDepth < e.need) :
    ∃ error, parse e.render file = .error error ∧ error.isLexical = false ∧
      error.detail = "expression nested too deeply" := by
  have hfinal : (word 1 file .done []).isDone := rfl
  have hread := readsIf_reader e 1 file (e.words 1 file ++ [word 1 file .done []]).getLast? hfinal
  obtain ⟨stop, hstop, hdeep⟩ := hread.deep (Nat.not_le.2 hneed)
  have hfault := atToken_words hfinal hstop .tooDeep
  unfold parse
  rw [ofText_render h file]
  refine ⟨_, ofTokens?_of_error (wholeReader_error hdeep), ?_⟩
  rw [ParseError.isLexical, ParseError.detail, hfault]
  exact ⟨rfl, rfl⟩

/-- The text of a tree reads back if the tree needs no more levels than there are, and else the
reader says so. -/
theorem parse_render (h : e.Printable) (file : String) :
    (e.need ≤ maxDepth → parse e.render file = .ok e) ∧
      (maxDepth < e.need → ∃ error, parse e.render file = .error error ∧ error.isLexical = false ∧
        error.detail = "expression nested too deeply") :=
  ⟨parse_render_of_le h file, parse_render_of_lt h file⟩

/-- `(tank.level_2 =~ "50\" \\ steel") ? (-tiny()) : 5e-324`, where the string also has a line break
and the number is written with all its digits. -/
theorem parse_render_conditional :
    let least := literal (.number (Number.ofRank false 1))
    let e := conditional (binary .globMatch (var "tank.level_2") (literal (.text "50\" \\ steel\n")))
      (unary .neg (call "tiny" [])) least
    e.Printable ∧ parse e.render "s.scn" = .ok e := by
  intro least e
  have hleast : 1 < Number.infinityRank := by decide
  have hprint : e.Printable :=
    ⟨⟨⟨_, _, rfl, by decide, by decide⟩, trivial⟩, ⟨⟨_, _, rfl, by decide, by decide⟩, trivial⟩,
      Number.isFinite_ofRank hleast, Number.isNegative_ofRank hleast.le⟩
  exact ⟨hprint, (parse_render hprint "s.scn").1 (by decide)⟩

end

end Expr

end ScenarioScript
