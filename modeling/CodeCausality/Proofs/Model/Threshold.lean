import CodeCausality.Proofs.Model.Training
import CodeCausality.Proofs.Numeric.NotANumber
import CodeCausality.Proofs.Regression.Score

/-!
# The validation threshold

A learned model is refused if its score is below the threshold. A score that is no number is not
below anything, so the refusal misses it.

* `fitDynamic_eq_ok_iff`, `fitDynamic_eq_lowScore_iff`, `fitDynamic_eq_fault_iff` -- what a fit from
  traces answers, over any arithmetic;
* `isNaN_explainedShare_iff` -- **when the score of a node is no number**: its squared error or its
  variation overflowed, or was none itself;
* `isNaN_meanScore` -- the score of one node spoils that of the model;
* `Learned.exists_predictions` -- the score of a node is that of what each fold predicts;
* `fit_refuses_below_threshold` -- **what a fit from traces answers over floats**;
* `accepted_without_score` -- a model whose score is no number is accepted.
-/

namespace CodeCausality

open Regression

/-! ## 1. Refusal -/

section Refusal

variable {α : Type} [Scalar α] {ρ : Type} [Noise ρ α] {settings : FitSettings α} {now : Instant}
  {g : CausalGraph α} {t : TraceTable α} {m : Model α}

/-- A fit accepts what it learned unless the score is below the threshold. -/
theorem fitDynamic_eq_ok_iff : fitDynamic ρ settings now g t = .ok m ↔
    learnModel ρ settings now g t = .ok m ∧ ¬ m.metadata.score < settings.threshold := by
  rw [fitDynamic]
  cases learnModel ρ settings now g t with
  | error f => exact iff_of_false (fun h => by cases h) fun h => by cases h.1
  | ok n =>
    dsimp only
    split
    · rename_i hlow
      refine iff_of_false (fun h => by cases h) ?_
      rintro ⟨hn, hscore⟩
      exact hscore (Except.ok.inj hn ▸ hlow)
    · rename_i hlow
      constructor
      · intro h
        obtain rfl : n = m := Except.ok.inj h
        exact ⟨rfl, hlow⟩
      · rintro ⟨h, -⟩
        rw [Except.ok.inj h]

/-- It refuses the rest, with the model. -/
theorem fitDynamic_eq_lowScore_iff {score threshold : α} :
    fitDynamic ρ settings now g t = .error (.lowScore score threshold m) ↔
      learnModel ρ settings now g t = .ok m ∧ m.metadata.score < settings.threshold ∧
        score = m.metadata.score ∧ threshold = settings.threshold := by
  rw [fitDynamic]
  cases learnModel ρ settings now g t with
  | error f => exact iff_of_false (fun h => by cases h) fun h => by cases h.1
  | ok n =>
    dsimp only
    split
    · rename_i hlow
      constructor
      · intro h
        cases h
        exact ⟨rfl, hlow, rfl, rfl⟩
      · rintro ⟨hn, -, rfl, rfl⟩
        cases hn
        rfl
    · rename_i hlow
      refine iff_of_false (fun h => by cases h) ?_
      rintro ⟨hn, hscore, -⟩
      exact hlow (Except.ok.inj hn ▸ hscore)

/-- Nothing else goes wrong once a model is learned. -/
theorem fitDynamic_eq_fault_iff {f : FitFault} :
    fitDynamic ρ settings now g t = .error (.fault f) ↔
      learnModel ρ settings now g t = .error f := by
  rw [fitDynamic]
  cases learnModel ρ settings now g t with
  | error e =>
    constructor
    · intro h
      cases h
      rfl
    · intro h
      cases h
      rfl
  | ok n =>
    dsimp only
    refine iff_of_false (fun h => ?_) fun h => by cases h
    split at h <;> cases h

end Refusal

/-! ## 2. Scores -/

namespace Regression

/-- **The score of a node is no number exactly if its targets do not count as constant and the
squared error or the variation is no number, or both overflowed.** -/
theorem isNaN_explainedShare_iff {targets predictions : List (List Float)} :
    (explainedShare targets predictions).isNaN = true ↔
      ¬ variation targets ≤ constantTolerance ∧
        ((squaredError targets predictions).isNaN = true ∨ (variation targets).isNaN = true ∨
          ((squaredError targets predictions).isInf = true ∧
            (variation targets).isInf = true)) := by
  by_cases hnil : targets = []
  · subst hnil
    refine iff_of_false ?_ fun h => h.1 (by decide +kernel)
    rw [explainedShare]
    decide
  rw [explainedShare_of_ne_nil hnil]
  split
  · rename_i hconstant
    refine iff_of_false ?_ fun h => h.1 hconstant
    split <;> decide +kernel
  · rename_i hvaries
    have hzero : ¬ (variation targets == 0) = true := fun hzero =>
      hvaries (Binary64.le_of_beq_zero hzero (by decide +kernel) (by decide +kernel))
    rw [Binary64.isNaN_sub_iff (by decide +kernel), Binary64.isNaN_div_iff, and_iff_right hvaries,
      or_iff_left (a := _ ∧ _) fun h => hzero h.2]

end Regression

/-- The score of one node spoils that of the model. -/
theorem isNaN_meanScore {scores : Dictionary Float} {id : String} {s : Float}
    (hs : scores.get? id = some s) (h : s.isNaN = true) : (meanScore scores).isNaN = true := by
  have hmem : (id, s) ∈ scores.entries := scores.get?_eq_some_iff.mp hs
  have hempty : scores.isEmpty = false := by
    rw [Dictionary.isEmpty, List.isEmpty_eq_false_iff]
    exact List.ne_nil_of_mem hmem
  rw [meanScore, hempty, if_neg Bool.false_ne_true, Binary64.isNaN_div_iff]
  exact .inl (Binary64.isNaN_sum (List.mem_map_of_mem hmem) h)

/-! ## 3. Lessons -/

section Lessons

variable {α : Type} [Scalar α] {settings : FitSettings α}

/-- What the node's column asks for, in the shape of predictions. -/
def Lesson.targets (settings : FitSettings α) (l : Lesson α) : List (List α) :=
  (estimatorFor settings l.column.domain).targets l.column.codes

/-- What is predicted of each row by the fold that holds it out. -/
def Lesson.predictions? (ρ : Type) [Noise ρ α] (settings : FitSettings α) (g : CausalGraph α)
    (t : TraceTable α) (id : String) (l : Lesson α) : Option (List (List α)) :=
  crossPredict (estimatorFor settings l.column.domain) (l.features t) l.column.codes
    (folds ρ l.column.codes.length settings.foldCount
      (settings.seedValue + UInt64.ofNat (g.topologicalOrder.idxOf id)))

/-- The score of a node is that of the predictions. -/
theorem Learned.exists_predictions {ρ : Type} [Noise ρ α] {g : CausalGraph α} {t : TraceTable α}
    {id : String} {n : NodeMechanism α} {l : Lesson α} (h : Learned ρ settings g t id n l) :
    ∃ predictions, l.predictions? ρ settings g t id = some predictions ∧
      l.score = explainedShare (l.targets settings) predictions := by
  obtain ⟨predictions, hpredictions, hscore⟩ := Option.map_eq_some_iff.mp h.scored
  exact ⟨predictions, hpredictions, hscore.symm⟩

end Lessons

/-! ## 4. Fits from traces -/

section Fits

variable {ρ : Type} [Noise ρ Float] {g : CausalGraph Float}

/-- **A fit from traces refuses what scores below the threshold, and accepts the rest: scores that
are no numbers among it.** A model is learned if there are enough rows, a column for each node, and
every node with parents can be scored and fitted. It is accepted if its score is at least the
threshold, or no number; it is refused with the score, the threshold and the complete model if the
score is below. The score of a node is no number if sums of squares overflowed, or were no numbers
themselves, and one such node is enough. -/
theorem fit_refuses_below_threshold {nodes : List Element} {edges : List (Edge Float)}
    (hg : CausalGraph.ofParts nodes edges = .ok g) (settings : FitSettings Float)
    (hthreshold : settings.threshold.isNaN = false) (now : Instant) (t : TraceTable Float) :
    ((∃ m, learnModel ρ settings now g t = .ok m) ↔ Learnable ρ settings g t) ∧
      (∀ m, fit ρ settings now g (some t) false = .ok m ↔ learnModel ρ settings now g t = .ok m ∧
        (settings.threshold ≤ m.metadata.score ∨ m.metadata.score.isNaN = true)) ∧
      (∀ score threshold m, fit ρ settings now g (some t) false =
          .error (.lowScore score threshold m) ↔ learnModel ρ settings now g t = .ok m ∧
        m.metadata.score < settings.threshold ∧ score = m.metadata.score ∧
          threshold = settings.threshold) ∧
      (∀ f, fit ρ settings now g (some t) false = .error (.fault f) ↔
        learnModel ρ settings now g t = .error f) ∧
      ∀ m, learnModel ρ settings now g t = .ok m →
        m.graph = g ∧ m.WellFormed ∧ m.missingMechanisms = [] ∧
        ∀ id ∈ g.ids, g.parents id ≠ [] → ∃ n l predictions,
          m.mechanism? id = some n ∧ Learned ρ settings g t id n l ∧
          l.predictions? ρ settings g t id = some predictions ∧
          m.metadata.nodeScores.get? id = some l.score ∧
          (l.score.isNaN = true → m.metadata.score.isNaN = true) ∧
          (l.score.isNaN = true ↔ ¬ variation (l.targets settings) ≤ constantTolerance ∧
            ((squaredError (l.targets settings) predictions).isNaN = true ∨
              (variation (l.targets settings)).isNaN = true ∨
              ((squaredError (l.targets settings) predictions).isInf = true ∧
                (variation (l.targets settings)).isInf = true))) := by
  have hwf := CausalGraph.wellFormed_of_ofParts hg
  refine ⟨exists_learnModel_iff hwf, fun m => ?_, fun score threshold m => ?_, fun f => ?_,
    fun m hm => ?_⟩
  · rw [← Binary64.not_lt_iff hthreshold]
    exact fitDynamic_eq_ok_iff
  · exact fitDynamic_eq_lowScore_iff
  · exact fitDynamic_eq_fault_iff
  · obtain ⟨columns, fitted, -, -, hsuit, hnodes⟩ := nodesSuit_of_learnModel hwf hm
    have hwell : m.WellFormed := hnodes ▸ hsuit.wellFormed hwf
    refine ⟨graph_of_learnModel hm, hwell, hwell.missingMechanisms, fun id hid hparents => ?_⟩
    obtain ⟨n, l, hn, hlearned, hscore⟩ := learned_of_learnModel hwf hm hid hparents
    obtain ⟨predictions, hpredictions, hshare⟩ := hlearned.exists_predictions
    refine ⟨n, l, predictions, hn, hlearned, hpredictions, hscore, fun hnan => ?_, ?_⟩
    · rw [hnodes] at hscore ⊢
      exact isNaN_meanScore hscore hnan
    · rw [hshare]
      exact isNaN_explainedShare_iff

end Fits

/-- The number that does not depend on the switch is refused for a score below seven tenths. -/
theorem fit_refuses_below_threshold_indifferent :
    ∃ (m : Model Float) (score threshold : Float),
      fit Random.Generator {} ⟨0, 0⟩ CausalGraph.switched (some TraceTable.indifferent) false =
        .error (.lowScore score threshold m) ∧
      score < threshold ∧ threshold = Scalar.ofDecimal 7 1 := by
  obtain ⟨m, score, threshold, hfit⟩ := TraceTable.exists_lowScore_indifferent
  obtain ⟨-, -, hrefused, -, -⟩ := fit_refuses_below_threshold (ρ := Random.Generator)
    CausalGraph.ofParts_switched {} (by decide +kernel) ⟨0, 0⟩ TraceTable.indifferent
  obtain ⟨-, hlow, rfl, rfl⟩ := (hrefused score threshold m).mp hfit
  exact ⟨m, _, _, hfit, hlow, rfl⟩

/-- A result that has a property was given. -/
theorem exists_ok_of_any {β ε : Type} {r : Except ε β} {p : β → Bool}
    (h : r.toOption.any p = true) : ∃ b, r = .ok b ∧ p b = true := by
  cases r with
  | error e => exact nomatch h
  | ok b => exact ⟨b, rfl, h⟩

/-- A number and another that it causes. -/
def CausalGraph.driven : CausalGraph Float :=
  .of [.of "x" .namedValue [], .of "y" .namedValue []] [⟨"x", "y", .dataFlow, none⟩]

/-- Four observations, finite all of them, whose sums of squares overflow. -/
def TraceTable.steep : TraceTable Float where
  rows := [(0, 0), (1, 1e200), (2, 0), (3, 1e200)].map fun (x, y) =>
    Dictionary.ofList [("x", .number x), ("y", .number y)]

/-- **A model whose score is no number is accepted.** -/
theorem accepted_without_score :
    (∀ id ∈ CausalGraph.driven.ids, ∃ c, TraceTable.steep.column id = .ok c ∧
      Scalar.allFinite c.codes = true) ∧
    ∃ m : Model Float,
      fit Random.Generator {} ⟨0, 0⟩ CausalGraph.driven (some TraceTable.steep) false = .ok m ∧
      m.metadata.score.isNaN = true ∧
      ¬ ({} : FitSettings Float).threshold ≤ m.metadata.score := by
  refine ⟨fun id hid => ?_, ?_⟩
  · have hids : CausalGraph.driven.ids = ["x", "y"] := by decide +kernel
    rw [hids, List.mem_pair] at hid
    rcases hid with rfl | rfl <;> exact exists_ok_of_any (by decide +kernel)
  · obtain ⟨m, hm, hscore⟩ : ∃ m, fit Random.Generator {} ⟨0, 0⟩ CausalGraph.driven
        (some TraceTable.steep) false = .ok m ∧ m.metadata.score.isNaN = true :=
      exists_ok_of_any (by decide +kernel)
    exact ⟨m, hm, hscore, Binary64.not_le_of_isNaN hscore⟩

end CodeCausality
