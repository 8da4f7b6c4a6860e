import ScenarioScript.Proofs.Statement.Outcome
import ScenarioScript.Scenario

/-!
# The errors of a scenario

Errors are found from front to back, each where reading has had to stop.
-/

namespace ScenarioScript

namespace Scenario

theorem exists_errorPlaces_of_reportedAt {places : List Token} {results : List (Except ParseError Statement)}
    (h : List.Forall₂ Statement.ReportedAt places results) : ∃ errorPlaces, errorPlaces.Sublist places ∧
      List.Forall₂ (fun place error => ∃ fault, error = ParseError.atToken fault (some place)) errorPlaces
        (results.filterMap fun
          | .ok _ => none
          | .error error => some error) := by
  induction h with
  | nil => exact ⟨[], List.Sublist.refl _, .nil⟩
  | @cons place result places results hreported _ ih =>
    obtain ⟨errorPlaces, hsublist, hall⟩ := ih
    cases result with
    | ok statement => exact ⟨errorPlaces, hsublist.cons place, hall⟩
    | error error => exact ⟨place :: errorPlaces, hsublist.cons_cons place, .cons hreported hall⟩

theorem exists_errorPlaces (text file : String) : ∃ places, places.Sublist (Token.ofText text file) ∧
    List.Forall₂ (fun place error => ∃ fault, error = ParseError.atToken fault (some place)) places
      (load text file).2 := by
  obtain ⟨words, final, htokens, hfinal, hwords⟩ := (Cursor.start text file).exists_tokens_concat
  have htokens : Token.ofText text file = words ++ [final] := htokens
  obtain ⟨places, hplaces, hreported⟩ := Statement.exists_places hfinal hwords
  rw [← Statement.ofTokens_outcomes hfinal hwords, ← htokens] at hreported
  obtain ⟨errorPlaces, hsublist, hall⟩ := exists_errorPlaces_of_reportedAt hreported
  exact ⟨errorPlaces, hsublist.trans (htokens ▸ hplaces), hall⟩

end Scenario

end ScenarioScript
