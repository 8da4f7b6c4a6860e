import ScenarioScript.Proofs.Simulation.Globals

/-!
# Ticks without time

If no statement reads the number of the tick, or what is only written by itself or behind it, then all
ticks are alike. What a statement reads is then set by statements before it, or from the start.
-/

namespace ScenarioScript

/-- The globals that can make a difference to an expression. The functions of a simulation read one. -/
def Expr.reads (e : Expr) : List String :=
  e.variableNames ++ if "distanceTo" ∈ e.functionNames then [Host.egoPositionName] else []

namespace Scenario

/-- No statement reads the number of the tick, its own label, or the label of a later statement. -/
def IsTimeless (scenario : Scenario) : Prop :=
  ∀ (index : Nat) (statement : Statement), scenario.statements[index]? = some statement →
    ∀ name ∈ statement.expr.reads, name ≠ Host.tickName ∧
      ∀ (later : Nat) (other : Statement), index ≤ later → scenario.statements[later]? = some other →
        other.label ≠ some name

theorem isTimeless_iff (scenario : Scenario) : scenario.IsTimeless ↔
    ∀ entry ∈ scenario.statements.zipIdx, ∀ name ∈ entry.1.expr.reads,
      name ≠ Host.tickName ∧ ∀ other ∈ scenario.statements.drop entry.2, other.label ≠ some name := by
  have hdrop (index : Nat) (name : String) :
      (∀ other ∈ scenario.statements.drop index, other.label ≠ some name) ↔
        ∀ (later : Nat) (other : Statement), index ≤ later → scenario.statements[later]? = some other →
          other.label ≠ some name := by
    simp only [List.mem_iff_getElem?, List.getElem?_drop, forall_exists_index]
    constructor
    · intro h later other hle hother
      apply h other (later - index)
      rwa [Nat.add_sub_cancel' hle]
    · exact fun h other more hother => h (index + more) other (Nat.le_add_right _ _) hother
  simp only [Prod.forall, List.mem_zipIdx_iff_getElem?, hdrop]
  exact ⟨fun h statement index => h index statement, fun h index statement => h statement index⟩

instance (scenario : Scenario) : Decidable scenario.IsTimeless := decidable_of_iff _ scenario.isTimeless_iff.symm

section
variable {scenario : Scenario} {initial : String → Option Float} {results : Nat → Nat → Evaluation}
  {tick other index : Nat} {statement : Statement} {name : String}

theorem IsTimeless.globalBefore (h : scenario.IsTimeless) (hstatement : scenario.statements[index]? = some statement)
    (hname : name ∈ statement.expr.reads) (hresults : ∀ earlier < index, results tick earlier = results other earlier) :
    scenario.globalBefore initial results tick index name = scenario.globalBefore initial results other index name := by
  obtain ⟨htick, hlater⟩ := h index statement hstatement name hname
  unfold Scenario.globalBefore
  cases hlast : scenario.lastLabelled? name index with
  | some writer =>
    dsimp only
    rw [hresults writer (lastLabelled?_lt hlast)]
  | none =>
    -- no statement has the label, so the globals from the start count
    have hnone : scenario.lastLabelled? name scenario.size = none := by
      rw [lastLabelled?_eq_none_iff] at hlast ⊢
      intro writer _ hlabel
      rcases Nat.lt_or_ge writer index with hlt | hge
      · exact hlast writer hlt hlabel
      · obtain ⟨found, hfound, hlabel⟩ := Option.bind_eq_some_iff.1 hlabel
        exact hlater writer found hge hfound hlabel
    dsimp only
    rw [hnone, if_neg htick, if_neg htick]
    cases tick <;> cases other <;> rfl

end

end Scenario

namespace Simulation

/-- Hosts with the same values for some globals. -/
def SameGlobals (names : List String) (host other : Host Unit) : Prop :=
  ∀ name ∈ names, host.global? name = other.global? name

section
variable {start point otherPoint : Simulation} {scenario : Scenario} {results : Nat → Nat → Evaluation}
  {tick other index : Nat} {statement : Statement} {evaluation otherEvaluation : Evaluation}

theorem Reaches.evaluates_alike (hready : start.evaluator.IsReady) (h : start.Reaches scenario tick index point)
    (hother : start.Reaches scenario other index otherPoint)
    (hglobals : SameGlobals statement.expr.reads point.world.host otherPoint.world.host)
    (heval : point.Evaluates scenario statement evaluation)
    (hotherEval : otherPoint.Evaluates scenario statement otherEvaluation) : evaluation = otherEvaluation := by
  obtain ⟨hpoint, hevaluator⟩ := h.evaluator hready
  obtain ⟨hotherPoint, hotherEvaluator⟩ := hother.evaluator hready
  have hsame : point.evaluator.SameOn (SameGlobals statement.expr.reads) statement.expr.variableNames
      statement.expr.functionNames otherPoint.evaluator := by
    constructor
    · rw [hevaluator, hotherEvaluator]
    · intro name hname host otherHost hhosts
      rw [hevaluator, hotherEvaluator]
      exact start.evaluator.lookup?_congr (hhosts name (List.mem_append_left _ hname))
    · intro name _
      rw [hpoint.functions, hotherPoint.functions]
    · intro name hname operation hfound
      rw [hpoint.functions] at hfound
      apply FunctionTable.simulation_seesOnly hfound
      rintro rfl host otherHost hhosts
      apply hhosts
      simp [Expr.reads, hname]
  obtain ⟨_, _, heval⟩ := heval
  obtain ⟨_, _, hotherEval⟩ := hotherEval
  obtain ⟨_, _, _, _, -, -, -, -, hresult⟩ :=
    hsame.evaluateAt hpoint.isValid hotherPoint.isValid hglobals (scenario.origin statement)
  rw [heval, hotherEval] at hresult
  rcases hresult with ⟨result, hr, hr'⟩ | ⟨crash, hr, -⟩
  · cases hr
    cases hr'
    rfl
  · cases hr

/-- By induction on the statements, each of which reads what those before it have written. -/
theorem Reaches.results_eq (htimeless : scenario.IsTimeless) (hready : start.evaluator.IsReady)
    (hyields : start.Yields scenario results) (h : start.Reaches scenario tick scenario.size point)
    (hother : start.Reaches scenario other scenario.size otherPoint) (hindex : index < scenario.size) :
    results tick index = results other index := by
  induction index using Nat.strongRecOn with
  | _ index ih =>
    obtain ⟨statement, before, hstatement, hbefore, heval⟩ := h.evaluates hyields hindex
    obtain ⟨found, otherBefore, hfound, hotherBefore, hotherEval⟩ := hother.evaluates hyields hindex
    cases hstatement.symm.trans hfound
    have hresults (earlier : Nat) (hearlier : earlier < index) : results tick earlier = results other earlier :=
      ih earlier hearlier (Nat.lt_trans hearlier hindex)
    refine hbefore.evaluates_alike hready hotherBefore (fun name hname => ?_) heval hotherEval
    rw [hbefore.global? hready hyields, hotherBefore.global? hready hyields]
    exact htimeless.globalBefore hstatement hname hresults

end

end Simulation

end ScenarioScript
