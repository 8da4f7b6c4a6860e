import Mathlib.Data.List.Flatten
import ScenarioScript.Proofs.Evaluator.Cache

/-!
# Rows of evaluations on one evaluator

An evaluator carries its cache from one evaluation to the next, and its copies start with it. The cache
is never seen in what an evaluation gives, in whatever way the evaluator has come to it.
-/

namespace ScenarioScript

variable {State : Type}

/-- What an evaluator can be asked to evaluate. -/
inductive Request where
  | expr (e : Expr)
  | exprAt (e : Expr) (origin : Origin)
  | text (text : String)

namespace Evaluator

def serve (evaluator : Evaluator State) : Request → WorldAction State (Except ParseError Evaluation × Evaluator State)
  | .expr e => do
    let (evaluation, after) ← evaluator.evaluate e
    return (.ok evaluation, after)
  | .exprAt e origin => do
    let (evaluation, after) ← evaluator.evaluateAt e origin
    return (.ok evaluation, after)
  | .text text => evaluator.evaluateText text

/-- The evaluator with the place that the request gives. -/
def placed (evaluator : Evaluator State) : Request → Evaluator State
  | .exprAt _ origin => { evaluator with origin := some origin }
  | _ => evaluator

def serveFresh (evaluator : Evaluator State) : Request → WorldAction State (Except ParseError Evaluation)
  | .expr e => return .ok (← evaluator.evaluateFresh e)
  | .exprAt e origin => return .ok (← { evaluator with origin := some origin }.evaluateFresh e)
  | .text text =>
    match Expr.parse text evaluator.component with
    | .error error => return .error error
    | .ok e => return .ok (← evaluator.evaluateFresh e)

/-! ## One evaluation -/

/-- The two results are the same answer or the same crash. The logs have grown by what the same events
report with the cache and without. -/
def Agree (evaluator placed : Evaluator State) (world fresh : World State) {α : Type}
    (result : EStateM.Result Crash (World State) (α × Evaluator State))
    (freshResult : EStateM.Result Crash (World State) α) : Prop :=
  ∃ events found freshFound, (∀ event ∈ events, event.IsPlain) ∧ found.host = freshFound.host ∧
    found.log.toList =
      world.log.toList ++ (evaluator.patterns.problems evaluator.engine events).flatMap placed.written ∧
    freshFound.log.toList =
      fresh.log.toList ++ (events.flatMap (Event.freshProblems evaluator.engine)).flatMap placed.written ∧
    ((∃ answer, freshResult = .ok answer freshFound ∧
        result = .ok (answer, { evaluator with patterns := evaluator.patterns.after evaluator.engine events }) found) ∨
      ∃ crash, freshResult = .error crash freshFound ∧ result = .error crash found)

section
variable {evaluator placed : Evaluator State} {world fresh : World State} {α β : Type}

theorem agree_evaluate (hvalid : evaluator.patterns.IsValid evaluator.engine) (hhost : world.host = fresh.host)
    (e : Expr) :
    Agree evaluator evaluator world fresh (evaluator.evaluate e world) (evaluator.evaluateFresh e fresh) := by
  obtain ⟨events, after, freshAfter, hfollows, hresult⟩ :=
    eval_mirrors evaluator e ⟨world, evaluator.patterns, #[]⟩ ⟨fresh, .empty, #[]⟩ hhost rfl hvalid
  refine ⟨events, after.world, freshAfter.world, hfollows.plain, hfollows.host, hfollows.log,
    hfollows.freshLog, ?_⟩
  unfold evaluateFresh
  rcases hresult with ⟨value, hcached, hfresh⟩ | ⟨crash, hcached, hfresh⟩
  · refine .inl ⟨⟨value, freshAfter.failures.toList⟩, by rw [hfresh], ?_⟩
    rw [evaluate_of_ok hcached, hfollows.failures, hfollows.patterns]
  · exact .inr ⟨crash, by rw [hfresh], evaluate_of_error hcached⟩

theorem Agree.bind {middle : Evaluator State} {action : WorldAction State (α × Evaluator State)}
    {freshAction : WorldAction State α} {next : α × Evaluator State → WorldAction State (β × Evaluator State)}
    {freshNext : α → WorldAction State β} {f : α → β}
    (h : Agree middle placed world fresh (action world) (freshAction fresh))
    (hengine : middle.engine = evaluator.engine) (hpatterns : middle.patterns = evaluator.patterns)
    (hnext : ∀ a patterns world,
      next (a, { middle with patterns }) world = .ok (f a, { evaluator with patterns }) world)
    (hfreshNext : ∀ a world, freshNext a world = .ok (f a) world) :
    Agree evaluator placed world fresh ((action >>= next) world) ((freshAction >>= freshNext) fresh) := by
  obtain ⟨events, found, freshFound, hplain, hhost, hlog, hfreshLog, hresult⟩ := h
  have hafter : middle.patterns.after middle.engine events = evaluator.patterns.after evaluator.engine events := by
    rw [hengine, hpatterns]
  rw [hengine, hpatterns] at hlog
  rw [hengine] at hfreshLog
  rw [hafter] at hresult
  refine ⟨events, found, freshFound, hplain, hhost, hlog, hfreshLog, ?_⟩
  rw [bind_eq, bind_eq]
  rcases hresult with ⟨a, hfresh, hcached⟩ | ⟨crash, hfresh, hcached⟩
  · refine .inl ⟨f a, ?_, ?_⟩
    · rw [hfresh]
      exact hfreshNext a freshFound
    · rw [hcached]
      exact hnext a _ found
  · exact .inr ⟨crash, by rw [hfresh], by rw [hcached]⟩

theorem serve_exprAt (e : Expr) (origin : Origin) : evaluator.serve (.exprAt e origin) world =
    ({ evaluator with origin := some origin }.evaluate e >>= fun (evaluation, after) =>
      return (.ok evaluation, { after with origin := evaluator.origin }) : WorldAction State _) world := by
  change ((_ >>= _) >>= _ : WorldAction State _) world = _
  rw [bind_eq, bind_eq, bind_eq]
  cases { evaluator with origin := some origin }.evaluate e world <;> rfl

theorem agree_serve (hvalid : evaluator.patterns.IsValid evaluator.engine) (hhost : world.host = fresh.host)
    (request : Request) :
    Agree evaluator (evaluator.placed request) world fresh (evaluator.serve request world)
      (evaluator.serveFresh request fresh) := by
  cases request with
  | expr e => exact (agree_evaluate hvalid hhost e).bind rfl rfl (fun _ _ _ => rfl) fun _ _ => rfl
  | exprAt e origin =>
    let located : Evaluator State := { evaluator with origin := some origin }
    have hlocated : located.patterns.IsValid located.engine := hvalid
    rw [serve_exprAt]
    exact (agree_evaluate hlocated hhost e).bind rfl rfl (fun _ _ _ => rfl) fun _ _ => rfl
  | text text =>
    cases hparse : Expr.parse text evaluator.component with
    | ok e =>
      have hserve : evaluator.serve (.text text) = evaluator.serve (.expr e) := by
        unfold serve evaluateText
        simp only [hparse]
      have hfresh : evaluator.serveFresh (.text text) = evaluator.serveFresh (.expr e) := by
        unfold serveFresh
        simp only [hparse]
      rw [hserve, hfresh]
      exact (agree_evaluate hvalid hhost e).bind rfl rfl (fun _ _ _ => rfl) fun _ _ => rfl
    | error error =>
      refine ⟨[], world, fresh, by simp, hhost, by simp [PatternCache.problems], by simp,
        .inl ⟨.error error, ?_, ?_⟩⟩
      · unfold serveFresh
        simp only [hparse]
        rfl
      · unfold serve evaluateText
        simp only [hparse]
        rfl

end

/-! ## Rows of evaluations -/

/-- An evaluator that has been new, after any evaluations in any worlds. Copies of it count too, and so do
changes of all but the engine and the cache. -/
inductive Reached : Evaluator State → Prop where
  | new {evaluator : Evaluator State} (hempty : evaluator.patterns = .empty) : Reached evaluator
  | kept {evaluator other : Evaluator State} (h : Reached evaluator) (hengine : other.engine = evaluator.engine)
    (hpatterns : other.patterns = evaluator.patterns) : Reached other
  | served {evaluator after : Evaluator State} {request : Request} {world found : World State}
    {answer : Except ParseError Evaluation} (h : Reached evaluator)
    (hserve : evaluator.serve request world = .ok (answer, after) found) : Reached after

section
variable {evaluator after : Evaluator State}

theorem Agree.isValid {placed : Evaluator State} {world fresh found : World State} {α : Type} {answer : α}
    {freshResult : EStateM.Result Crash (World State) α}
    (h : Agree evaluator placed world fresh (.ok (answer, after) found) freshResult)
    (hvalid : evaluator.patterns.IsValid evaluator.engine) : after.patterns.IsValid after.engine := by
  obtain ⟨events, found, freshFound, -, -, -, -, ⟨answer, -, hresult⟩ | ⟨crash, -, hresult⟩⟩ := h
  · cases hresult
    exact hvalid.after events
  · cases hresult

theorem Reached.isValid (h : Reached evaluator) : evaluator.patterns.IsValid evaluator.engine := by
  induction h with
  | new hempty => exact hempty ▸ PatternCache.isValid_empty
  | kept h hengine hpatterns ih => exact hengine ▸ hpatterns ▸ ih
  | @served evaluator after request world found answer h hserve ih =>
    have hagree := agree_serve ih (Eq.refl world.host) request
    rw [hserve] at hagree
    exact hagree.isValid ih

theorem exists_of_map {α β : Type} (action : WorldAction State (α × Evaluator State)) (f : α → β)
    {world found : World State} {b : β}
    (h : (action >>= fun result => return (f result.1, result.2) : WorldAction State (β × Evaluator State)) world =
      .ok (b, after) found) : ∃ a, action world = .ok (a, after) found := by
  rw [bind_eq] at h
  cases haction : action world with
  | ok result middle =>
    rw [haction] at h
    cases h
    exact ⟨result.1, rfl⟩
  | error crash middle =>
    rw [haction] at h
    cases h

theorem eq_of_map {α β : Type} (action : WorldAction State α) (f : α → β) {world found : World State} {b : β}
    (h : (action >>= fun a => return (f a, evaluator) : WorldAction State (β × Evaluator State)) world =
      .ok (b, after) found) : after = evaluator := by
  rw [bind_eq] at h
  cases haction : action world with
  | ok a middle =>
    rw [haction] at h
    cases h
    rfl
  | error crash middle =>
    rw [haction] at h
    cases h

theorem Reached.evaluate {e : Expr} {world found : World State} {evaluation : Evaluation} (h : Reached evaluator)
    (hevaluate : evaluator.evaluate e world = .ok (evaluation, after) found) : Reached after := by
  have hserve : evaluator.serve (.expr e) world = .ok (.ok evaluation, after) found := by
    change (evaluator.evaluate e >>= _) world = _
    rw [bind_eq, hevaluate]
    rfl
  exact h.served hserve

theorem Reached.evaluateAt {e : Expr} {origin : Origin} {world found : World State} {evaluation : Evaluation}
    (h : Reached evaluator) (hevaluate : evaluator.evaluateAt e origin world = .ok (evaluation, after) found) :
    Reached after := by
  have hserve : evaluator.serve (.exprAt e origin) world = .ok (.ok evaluation, after) found := by
    change (evaluator.evaluateAt e origin >>= _) world = _
    rw [bind_eq, hevaluate]
    rfl
  exact h.served hserve

theorem Reached.step {step : EvaluatorStep State} {world found : World State} {answer : EvaluatorAnswer State}
    (h : Reached evaluator) (hstep : evaluator.step step world = .ok (answer, after) found) : Reached after := by
  cases step with
  | evaluate e =>
    obtain ⟨evaluation, hevaluate⟩ :=
      exists_of_map (evaluator.evaluate e) (fun evaluation => EvaluatorAnswer.evaluated (.ok evaluation)) hstep
    exact h.evaluate hevaluate
  | evaluateAt e origin =>
    obtain ⟨evaluation, hevaluate⟩ := exists_of_map (evaluator.evaluateAt e origin)
      (fun evaluation => EvaluatorAnswer.evaluated (.ok evaluation)) hstep
    exact h.evaluateAt hevaluate
  | evaluateText text =>
    obtain ⟨result, htext⟩ := exists_of_map (evaluator.evaluateText text) EvaluatorAnswer.evaluated hstep
    have hserve : evaluator.serve (.text text) world = .ok (result, after) found := htext
    exact h.served hserve
  | evaluateTextAt text origin =>
    obtain ⟨result, htext⟩ := exists_of_map (evaluator.evaluateTextAt text origin) EvaluatorAnswer.evaluated hstep
    unfold evaluateTextAt at htext
    cases hparse : Expr.parse text ParseError.unnamedFile with
    | error error =>
      rw [hparse] at htext
      cases htext
      exact h
    | ok e =>
      rw [hparse] at htext
      obtain ⟨evaluation, hevaluate⟩ := exists_of_map (evaluator.evaluateAt e origin) Except.ok htext
      exact h.evaluateAt hevaluate
  | call name args =>
    obtain rfl := eq_of_map (evaluator.call name args) EvaluatorAnswer.called hstep
    exact h
  | _ =>
    cases hstep
    exact h.kept rfl rfl

end

/-- The cache is never seen, whatever the engine. It is sound and within its limit whenever an evaluator has been
reached. A match gives what the pattern gives when it is read, and is reported just if the pattern cannot be read and
is not in the cache. A request gives what it gives without a cache, up to reports of patterns, of which some may be
missing. -/
theorem Reached.serve_transparent {evaluator : Evaluator State} (h : Reached evaluator) :
    evaluator.patterns.IsValid evaluator.engine ∧
    (∀ (writer : Evaluator State) (pattern text : String) (pass : Pass State),
      pass.patterns.IsValid writer.engine → ∃ after,
      writer.patternMatch pattern text pass = .ok ((writer.engine.matcher? pattern).map (· text)) after ∧
        after.patterns.IsValid writer.engine ∧ after.failures = pass.failures ∧ after.world.host = pass.world.host ∧
        after.world.log.toList = pass.world.log.toList ++
          ((Event.matched pattern).problems writer.engine pass.patterns).flatMap writer.written) ∧
    ∀ (request : Request) (world fresh : World State), world.host = fresh.host →
      ∃ events found freshFound reports freshReports,
        ((∃ answer after, after.engine = evaluator.engine ∧
            after.patterns = evaluator.patterns.after evaluator.engine events ∧
            after.patterns.IsValid evaluator.engine ∧
            evaluator.serve request world = .ok (answer, after) found ∧
            evaluator.serveFresh request fresh = .ok answer freshFound) ∨
          ∃ crash, evaluator.serve request world = .error crash found ∧
            evaluator.serveFresh request fresh = .error crash freshFound) ∧
        found.host = freshFound.host ∧
        found.log.toList = world.log.toList ++ reports ∧
        freshFound.log.toList = fresh.log.toList ++ freshReports ∧
        (∀ event ∈ events, event.IsPlain) ∧
        reports =
          (evaluator.patterns.problems evaluator.engine events).flatMap (evaluator.placed request).written ∧
        freshReports =
          (events.flatMap (Event.freshProblems evaluator.engine)).flatMap (evaluator.placed request).written ∧
        reports.filter (·.kind != .pattern) = freshReports.filter (·.kind != .pattern) ∧
        (reports.filter (·.kind == .pattern)).Sublist (freshReports.filter (·.kind == .pattern)) := by
  refine ⟨h.isValid, fun writer pattern text pass hvalid => ?_, fun request world fresh hhost => ?_⟩
  · refine ⟨_, patternMatch_eq hvalid pattern text, hvalid.find pattern, rfl, ?_, ?_⟩
    · exact tell_host writer _ _
    · exact tell_log writer _ _
  · obtain ⟨events, found, freshFound, hplain, hfound, hlog, hfreshLog, hresult⟩ :=
      agree_serve h.isValid hhost request
    refine ⟨events, found, freshFound, _, _, ?_, hfound, hlog, hfreshLog, hplain, rfl, rfl, ?_, ?_⟩
    · rcases hresult with ⟨answer, hfresh, hcached⟩ | ⟨crash, hfresh, hcached⟩
      · exact .inl ⟨answer, { evaluator with patterns := evaluator.patterns.after evaluator.engine events }, rfl, rfl,
        h.isValid.after events, hcached, hfresh⟩
      · exact .inr ⟨crash, hcached, hfresh⟩
    · rw [filter_written, filter_written, PatternCache.filter_problems]
    · exact ((PatternCache.problems_sublist _ _ events).flatMap _).filter _

/-- The second match of an unreadable pattern is not reported. -/
theorem Reached.serve_transparent_badPattern :
    let request := Request.text "'a' =/ '('"
    ∃ first after found second again last,
      (simulation .words "sim").serve request ⟨⟨.empty, ()⟩, #[]⟩ = .ok (first, after) found ∧ found.log.size = 1 ∧
        after.serve request found = .ok (second, again) last ∧ last.log.size = 1 ∧
        after.patterns.IsValid after.engine ∧ again.patterns.IsValid again.engine := by
  intro request
  have hruns : (match (simulation .words "sim").serve request ⟨⟨.empty, ()⟩, #[]⟩ with
      | .error _ _ => false
      | .ok (_, after) found => found.log.size == 1 && match after.serve request found with
        | .error _ _ => false
        | .ok _ last => last.log.size == 1) = true := by decide +kernel
  cases hfirst : (simulation .words "sim").serve request ⟨⟨.empty, ()⟩, #[]⟩ with
  | error crash found => simp [hfirst] at hruns
  | ok answer found =>
    obtain ⟨first, after⟩ := answer
    cases hsecond : after.serve request found with
    | error crash last => simp [hfirst, hsecond] at hruns
    | ok answer last =>
      obtain ⟨second, again⟩ := answer
      simp only [hfirst, hsecond, Bool.and_eq_true, beq_iff_eq] at hruns
      have hafter : Reached after := (Reached.new rfl).served hfirst
      refine ⟨first, after, found, second, again, last, rfl, hruns.1, hsecond, hruns.2, ?_, ?_⟩
      · exact hafter.serve_transparent.1
      · exact (hafter.served hsecond).serve_transparent.1

end Evaluator

end ScenarioScript
