import ScenarioScript.Proofs.Session.Writers

/-!
# Evaluators of one session do not see each other

The evaluators of a session share the host and the log, and nothing else. So the steps on some of them can be
left out if they leave the host as it is, and no copy leads out of them: all other steps show the same as before.
-/

namespace ScenarioScript

variable {State : Type}

/-! ## Steps on some evaluators -/

/-- The evaluator that a step is a step of. -/
def SessionStep.actor? : SessionStep State → Option String
  | .clone source _ => some source
  | .ask name _ => some name
  | .run evaluator _ _ => some evaluator
  | _ => none

def SessionStep.isOn (members : String → Bool) (step : SessionStep State) : Bool := step.actor?.any members

namespace Session

/-- The steps that are not on a member. -/
def purge (members : String → Bool) (steps : List (SessionStep State)) : List (SessionStep State) :=
  steps.filter (!·.isOn members)

/-- What a session shows of the steps that are not on a member, if it goes through all steps. -/
def shownOutside (session : Session State) (world : World State) (members : String → Bool)
    (steps : List (SessionStep State)) : List (Shown State) :=
  ((steps.zip (session.run world steps)).filter fun entry => !entry.1.isOn members).map Prod.snd

/-! ## Sessions that differ in some evaluators -/

structure AgreeOutside (members : String → Bool) (session other : Session State) : Prop where
  scenarios : other.scenarios = session.scenarios
  evaluators : ∀ name, members name = false → other.evaluators.get? name = session.evaluators.get? name

section
variable {members : String → Bool} {session other : Session State} {name : String}

theorem AgreeOutside.refl (members : String → Bool) (session : Session State) :
    AgreeOutside members session session :=
  ⟨rfl, fun _ _ => rfl⟩

theorem AgreeOutside.setEvaluator (h : AgreeOutside members session other) (name : String)
    (evaluator : Evaluator State) :
    AgreeOutside members (session.setEvaluator name evaluator) (other.setEvaluator name evaluator) where
  scenarios := h.scenarios
  evaluators found hfound := by rw [get?_setEvaluator, get?_setEvaluator, h.evaluators found hfound]

theorem AgreeOutside.setMember (h : AgreeOutside members session other) (hname : members name = true)
    (evaluator : Evaluator State) : AgreeOutside members (session.setEvaluator name evaluator) other where
  scenarios := h.scenarios
  evaluators found hfound := by
    have hne : found ≠ name := fun heq => by
      rw [heq, hname] at hfound
      cases hfound
    rw [get?_setEvaluator, if_neg hne, h.evaluators found hfound]

end

/-! ## One step -/

section
variable {members : String → Bool} {session other after : Session State} {world found : World State}
  {step : SessionStep State} {answer : SessionAnswer State}

theorem AgreeOutside.step_agree (h : AgreeOutside members session other) (hstep : step.isOn members = false)
    (hresult : session.step step world = .ok (answer, after) found) :
    ∃ otherAfter, other.step step world = .ok (answer, otherAfter) found ∧ AgreeOutside members after otherAfter := by
  cases step with
  | create name evaluator =>
    cases hresult
    exact ⟨_, rfl, h.setEvaluator name evaluator⟩
  | clone source target =>
    simp only [step_clone_iff, h.evaluators source hstep] at hresult ⊢
    obtain ⟨rfl, ⟨hsource, rfl, rfl⟩ | ⟨evaluator, hsource, rfl, rfl⟩⟩ := hresult
    · exact ⟨other, ⟨rfl, .inl ⟨hsource, rfl, rfl⟩⟩, h⟩
    · exact ⟨_, ⟨rfl, .inr ⟨evaluator, hsource, rfl, rfl⟩⟩, h.setEvaluator target evaluator⟩
  | ask name step =>
    simp only [step_ask_iff, h.evaluators name hstep] at hresult ⊢
    rcases hresult with ⟨hname, rfl, rfl, rfl⟩ | ⟨evaluator, result, changed, hname, hasked, rfl, rfl⟩
    · exact ⟨other, .inl ⟨hname, rfl, rfl, rfl⟩, h⟩
    · exact ⟨_, .inr ⟨evaluator, result, changed, hname, hasked, rfl, rfl⟩, h.setEvaluator name changed⟩
  | run name scenarioName mode =>
    simp only [step_run_iff, h.evaluators name hstep, h.scenarios] at hresult ⊢
    rcases hresult with
      ⟨hnone, rfl, rfl, rfl⟩ | ⟨evaluator, scenario, results, changed, hname, hscenario, hrun, rfl, rfl⟩
    · exact ⟨other, .inl ⟨hnone, rfl, rfl, rfl⟩, h⟩
    · exact ⟨_, .inr ⟨evaluator, scenario, results, changed, hname, hscenario, hrun, rfl, rfl⟩,
        h.setEvaluator name changed⟩
  | load name text file =>
    cases hresult
    exact ⟨_, rfl, congrArg (·.set name (Scenario.load text file).1) h.scenarios, h.evaluators⟩
  | setGlobal _ _ | getGlobal _ | beginTick _ =>
    cases hresult
    exact ⟨other, rfl, h⟩

theorem AgreeOutside.step_member (h : AgreeOutside members session other) (hstep : step.isOn members = true)
    (hclosed : ∀ source target, step = .clone source target → members target = true)
    (hresult : session.step step world = .ok (answer, after) found) : AgreeOutside members after other := by
  cases step with
  | clone source target =>
    obtain ⟨-, ⟨-, -, rfl⟩ | ⟨evaluator, -, -, rfl⟩⟩ := step_clone_iff.1 hresult
    · exact h
    · exact h.setMember (hclosed source target rfl) evaluator
  | ask name step =>
    rcases step_ask_iff.1 hresult with ⟨-, -, rfl, -⟩ | ⟨evaluator, result, changed, -, -, -, rfl⟩
    · exact h
    · exact h.setMember hstep changed
  | run name scenarioName mode =>
    rcases step_run_iff.1 hresult with ⟨-, -, rfl, -⟩ | ⟨evaluator, scenario, results, changed, -, -, -, -, rfl⟩
    · exact h
    · exact h.setMember hstep changed
  | _ => cases hstep

theorem hostAfter_of_isOn (hstep : step.isOn members = true) (host : Host State) : step.hostAfter host = host := by
  cases step with
  | setGlobal _ _ | beginTick _ => cases hstep
  | _ => rfl

end

/-! ## Whole runs -/

section
variable {members : String → Bool} {session other after : Session State} {world otherWorld found : World State}
  {steps : List (SessionStep State)}

theorem run_cons {step : SessionStep State} {answer : SessionAnswer State}
    (hstep : session.step step world = .ok (answer, after) found) :
    session.run world (step :: steps) =
      ⟨some answer, found.log.toList.drop world.log.size⟩ :: after.run found steps := by
  simp only [run, hstep]

theorem shownOutside_cons {step : SessionStep State} {answer : SessionAnswer State}
    (hstep : session.step step world = .ok (answer, after) found) :
    session.shownOutside world members (step :: steps) =
      if step.isOn members then after.shownOutside found members steps
      else ⟨some answer, found.log.toList.drop world.log.size⟩ :: after.shownOutside found members steps := by
  unfold shownOutside
  rw [run_cons hstep, List.zip_cons_cons, List.filter_cons]
  cases step.isOn members <;> rfl

/-- By induction on the steps: one on a member is left out and keeps the agreement, any other shows the same on
both sides. -/
theorem AgreeOutside.proceed (h : AgreeOutside members session other) (hhost : otherWorld.host = world.host)
    (hclosed : ∀ source target, .clone source target ∈ steps → members source = true → members target = true)
    (hwriters : session.CallsNoWriters id world steps (·.isOn members))
    (hrun : session.proceed steps world = .ok after found) :
    ∃ otherAfter otherFound, other.proceed (purge members steps) otherWorld = .ok otherAfter otherFound ∧
      AgreeOutside members after otherAfter ∧ otherFound.host = found.host ∧
      other.run otherWorld (purge members steps) = session.shownOutside world members steps := by
  induction steps generalizing session other world otherWorld with
  | nil =>
    cases hrun
    exact ⟨other, otherWorld, rfl, h, hhost, rfl⟩
  | cons step steps ih =>
    rw [proceed_eq] at hrun
    cases hstep : session.step step world with
    | error crash middle =>
      rw [hstep] at hrun
      cases hrun
    | ok result middle =>
      obtain ⟨answer, reached⟩ := result
      rw [hstep] at hrun
      dsimp only at hrun
      have hrest : ∀ source target, .clone source target ∈ steps → members source = true → members target = true :=
        fun source target hmem => hclosed source target (List.mem_cons_of_mem _ hmem)
      rw [shownOutside_cons hstep]
      cases hon : step.isOn members with
      | true =>
        have hagree : AgreeOutside members reached other := by
          refine h.step_member hon (fun source target heq => ?_) hstep
          subst heq
          exact hclosed source target List.mem_cons_self hon
        have hmiddle : otherWorld.host = middle.host := by
          have hwriter := hwriters [] step steps session world rfl rfl hon
          have hmember : middle.host = step.hostAfter world.host := step_host hwriter hstep
          rw [hmember, hostAfter_of_isOn hon, hhost]
        have hpurge : purge members (step :: steps) = purge members steps := List.filter_cons_of_neg (by simp [hon])
        rw [hpurge]
        exact ih hagree hmiddle hrest (hwriters.of_cons hstep) hrun
      | false =>
        obtain ⟨otherReached, hsameWorld, hagree⟩ := h.step_agree hon hstep
        obtain ⟨otherMiddle, hother, hmiddle, hlogged⟩ := (other.ignoresLog_step step).of_ok hhost hsameWorld
        obtain ⟨otherAfter, otherFound, hpurged, hafter, hfound, hsame⟩ :=
          ih hagree hmiddle hrest (hwriters.of_cons hstep) hrun
        have hpurge : purge members (step :: steps) = step :: purge members steps :=
          List.filter_cons_of_pos (by simp [hon])
        rw [hpurge]
        refine ⟨otherAfter, otherFound, (proceed_cons hother).trans hpurged, hafter, hfound, ?_⟩
        rw [run_cons hother, hsame, hlogged]
        rfl

end

/-- The steps on some evaluators can be left out of a run that does not crash, if they call nothing that writes a
global and all copies of these evaluators are among them. The rest does not crash either, it shows the same, and
every other evaluator ends as it did. If the functions share a state beside the globals, it counts like a global: the
host of a simulation has none, and there this asks for nothing, as `CallsNoWriters.state` says. -/
theorem proceed_purge {members : String → Bool} {session after : Session State} {world found : World State}
    {steps : List (SessionStep State)}
    (hclosed : ∀ source target, .clone source target ∈ steps → members source = true → members target = true)
    (hwriters : session.CallsNoWriters Host.globals world steps (·.isOn members))
    (hstate : session.CallsNoWriters Host.state world steps (·.isOn members))
    (hrun : session.proceed steps world = .ok after found) :
    ∃ otherAfter otherFound, session.proceed (purge members steps) world = .ok otherAfter otherFound ∧
      session.run world (purge members steps) = session.shownOutside world members steps ∧
      (∀ name, members name = false → otherAfter.evaluators.get? name = after.evaluators.get? name) ∧
      otherFound.host = found.host := by
  obtain ⟨otherAfter, otherFound, hpurged, hagree, hhost, hshown⟩ :=
    (AgreeOutside.refl members session).proceed rfl hclosed (hwriters.host hstate) hrun
  exact ⟨otherAfter, otherFound, hpurged, hshown, hagree.evaluators, hhost⟩

/-- What is left out has reported, has set variables and has filled a cache, and the other evaluator meets the
same unreadable pattern. -/
theorem proceed_purge_clones :
    let members (name : String) : Bool := name == "b" || name == "b2"
    let world : World Unit := ⟨⟨.empty, ()⟩, #[]⟩
    let matching : Expr := .binary .patternMatch (.var "x") (.literal (.text "("))
    let steps : List (SessionStep Unit) := [.create "a" (.simulation .words "c"), .clone "a" "b",
      .ask "b" (.setLocal "x" (Number.ofNat 1)), .clone "b" "b2", .ask "b2" (.evaluateAt matching ⟨"s.scn", 3⟩),
      .ask "a" (.evaluateText "x =/ '('"), .ask "b" (.evaluateText "1 / 0"), .setGlobal "y" (Number.ofNat 2),
      .ask "a" (.resolve "y")]
    ∃ after found otherAfter otherFound, empty.proceed steps world = .ok after found ∧
      empty.proceed (purge members steps) world = .ok otherAfter otherFound ∧
      found.log.size = 4 ∧ otherFound.log.size = 2 ∧
      empty.run world (purge members steps) = empty.shownOutside world members steps ∧
      otherAfter.evaluators.get? "a" = after.evaluators.get? "a" := by
  intro members world matching steps
  have hruns : runPasses (empty.proceed steps world) fun _ found => found.log.size == 4 := by decide +kernel
  have hpurges : runPasses (empty.proceed (purge members steps) world) fun _ found =>
      found.log.size == 2 := by decide +kernel
  have hclosed : ∀ source target, .clone source target ∈ steps → members source = true → members target = true := by
    intro source target hclone _
    have hcases : source = "a" ∧ target = "b" ∨ source = "b" ∧ target = "b2" := by simpa [steps] using hclone
    rcases hcases with ⟨rfl, rfl⟩ | ⟨rfl, rfl⟩ <;> rfl
  have hadds : ∀ step ∈ steps, step.AddsNoWriter Host.globals := by
    simp [steps, SessionStep.AddsNoWriter, Evaluator.simulation, FunctionTable.simulation_keeps]
  have hempty : HasNoWriter empty (Host.globals : Host Unit → VarTable) := fun _ _ h => by cases h
  have hwriters : empty.CallsNoWriters Host.globals world steps (·.isOn members) := hempty.callsNoWriters hadds _
  obtain ⟨after, found, hrun, hlog⟩ := exists_of_runPasses hruns
  obtain ⟨otherAfter, otherFound, hpurged, hshown, hsame, -⟩ :=
    proceed_purge hclosed hwriters hwriters.state hrun
  simp only [hpurged, runPasses, beq_iff_eq] at hpurges
  exact ⟨after, found, otherAfter, otherFound, hrun, hpurged, by simpa using hlog, hpurges, hshown, hsame "a" rfl⟩

end Session

end ScenarioScript
