import CodeCausality.Proofs.Simulation.Impact
import CodeCausality.Simulation.Cancellation

/-!
# Queries do not see each other

* `watchedImpact_always` -- with a flag that is set from the start, or never, a watched query is a
  query;
* `Sound` -- what holds of the baselines that queries keep: each is what a query would draw, no key
  is kept twice and there are not too many;
* `kept_watchedImpact` -- what a query does to kept baselines, whatever it answers: nothing, or it
  keeps one more;
* `Sound.run`, `Sound.runQueries` -- a query keeps baselines sound, and so **do any queries, failed
  and cancelled ones included**;
* `watchedImpact_eq_fresh` -- a query answers from sound baselines as it does from none;
* `queries_answer_as_if_alone` -- **so do all queries on a model, one after another**.
-/

namespace CodeCausality

namespace Simulation

variable {α : Type} [Scalar α] {ρ : Type} [Noise ρ α] {m : Model α} {kept : Baselines α}
  {settings : SimulationSettings α} {i : Intervention α} {n : Nat} {seed : UInt64} {looks : Looks}
  {clamps : List (String × α)}

/-! ## 1. One draw after another -/

theorem watchedSimulate_of_unset {steps : List (Step α)} {look : Nat → Bool}
    (h : (List.range n).any look = false) :
    watchedSimulate ρ steps n seed look = .ok (simulate ρ steps n seed) := by
  simp [watchedSimulate, h]

theorem watchedSimulate_of_set {steps : List (Step α)} {look : Nat → Bool}
    (h : (List.range n).any look = true) :
    watchedSimulate ρ steps n seed look = .error .cancelled := by
  simp [watchedSimulate, h]

theorem two_le_of_checkIntervention (h : checkIntervention m i n = .ok clamps) : 2 ≤ n := by
  obtain ⟨-, hn, -⟩ := checkIntervention_eq_ok_iff.mp h
  exact hn

/-- A query draws more than once, so it finds a flag that is always set. -/
theorem any_range_always (hn : 2 ≤ n) (isSet : Bool) :
    ((List.range n).any fun _ => isSet) = isSet := by
  cases isSet with
  | false => simp
  | true => simpa using ⟨0, show 0 < n by omega⟩

theorem watchedSimulate_always (hn : 2 ≤ n) (steps : List (Step α)) (isSet : Bool) :
    watchedSimulate ρ steps n seed (fun _ => isSet) =
      if isSet then .error .cancelled else .ok (simulate ρ steps n seed) := by
  rw [watchedSimulate, any_range_always hn]

theorem watchedBaseline_always (hn : 2 ≤ n) (isSet : Bool) (kept : Baselines α) :
    watchedBaseline ρ m n seed (.always isSet) kept =
      baselineSamples ρ m m.graph.topologicalOrder n seed isSet kept := by
  rw [watchedBaseline, baselineSamples]
  cases kept.lookup (n, seed) with
  | some s => rfl
  | none =>
    cases plan m m.graph.topologicalOrder [] with
    | error f => rfl
    | ok steps =>
      simp only [Looks.always, watchedSimulate_always hn]
      cases isSet <;> rfl

theorem interrupts_always_false (settings : SimulationSettings α) (nodes : List String) :
    (Looks.always false).interrupts settings nodes = false := by
  simp [Looks.interrupts, Looks.always]

theorem watchedCompare_always (hn : 2 ≤ n) (isSet : Bool) (baseline : Samples α) :
    watchedCompare ρ settings m i n seed (.always isSet) clamps baseline =
      match plan m m.graph.topologicalOrder clamps with
      | .error f => .error f.toError
      | .ok steps =>
        if isSet then .error .cancelled
        else .ok (compare ρ settings m m.graph.topologicalOrder i n seed baseline
          (simulate ρ steps n seed)) := by
  rw [watchedCompare]
  cases plan m m.graph.topologicalOrder clamps with
  | error f => rfl
  | ok steps =>
    simp only [Looks.always, watchedSimulate_always hn]
    cases isSet with
    | true => rfl
    | false =>
      have hlook := interrupts_always_false settings (affectedNodes m i)
      simp only [Looks.always] at hlook
      simp [hlook]

/-- **With a flag that is set from the start, or never, a watched query is a query.** -/
theorem watchedImpact_always (isSet : Bool) (kept : Baselines α) :
    watchedImpact ρ settings m i n (.always isSet) kept =
      estimateImpact ρ settings m i n isSet kept := by
  rw [watchedImpact, estimateImpact]
  cases hcheck : checkIntervention m i n with
  | error e => rfl
  | ok clamps =>
    have hn := two_le_of_checkIntervention hcheck
    simp only [watchedBaseline_always hn]
    cases baselineSamples ρ m m.graph.topologicalOrder n (settings.seed.getD m.metadata.seed) isSet
      kept with
    | mk answer kept' =>
      cases answer with
      | error e => rfl
      | ok baseline =>
        simp only [Except.bind, watchedCompare_always hn]
        cases plan m m.graph.topologicalOrder clamps with
        | error f => rfl
        | ok steps => cases isSet <;> rfl

/-! ## 2. What is kept -/

/-- What holds of the baselines that queries on the model keep. -/
structure Sound (ρ : Type) [Noise ρ α] (m : Model α) (kept : Baselines α) : Prop where
  drawn : ∀ e ∈ kept, ∃ steps, plan m m.graph.topologicalOrder [] = .ok steps ∧
    e.2 = simulate ρ steps e.1.1 e.1.2
  keys : (kept.map fun e => e.1).Nodup
  few : kept.length ≤ keptBaselines

/-- Baselines with one more, drawn for a key of which none was kept. -/
structure KeepsOneMore (ρ : Type) [Noise ρ α] (m : Model α) (kept later : Baselines α) : Prop where
  room : kept.length < keptBaselines
  added : ∃ n seed steps, kept.lookup (n, seed) = none ∧
    plan m m.graph.topologicalOrder [] = .ok steps ∧
    later = kept ++ [((n, seed), simulate ρ steps n seed)]

theorem sound_nil : Sound ρ m [] where
  drawn _ h := absurd h List.not_mem_nil
  keys := List.nodup_nil
  few := Nat.zero_le _

theorem Sound.keepsOneMore (h : Sound ρ m kept) {later : Baselines α}
    (hlater : KeepsOneMore ρ m kept later) : Sound ρ m later := by
  obtain ⟨n, seed, steps, hnew, hsteps, rfl⟩ := hlater.added
  constructor
  · intro e he
    rcases List.mem_append.mp he with he | he
    · exact h.drawn e he
    · obtain rfl := List.mem_singleton.mp he
      exact ⟨steps, hsteps, rfl⟩
  · rw [List.map_append, List.map_singleton, List.nodup_append]
    refine ⟨h.keys, List.nodup_singleton _, fun key hkey key' hkey' heq => ?_⟩
    obtain rfl := List.mem_singleton.mp hkey'
    obtain ⟨e, he, rfl⟩ := List.mem_map.mp hkey
    have hne := List.lookup_eq_none_iff.mp hnew e he
    simp [heq] at hne
  · have hroom := hlater.room
    rw [List.length_append, List.length_singleton]
    omega

/-- Samples are kept only if there is room for them and none of that key. -/
theorem keep_cases {steps : List (Step α)} (hsteps : plan m m.graph.topologicalOrder [] = .ok steps)
    (hnew : kept.lookup (n, seed) = none) :
    kept.keep (n, seed) (simulate ρ steps n seed) = kept ∨
      KeepsOneMore ρ m kept (kept.keep (n, seed) (simulate ρ steps n seed)) := by
  unfold Baselines.keep
  rw [hnew]
  by_cases hroom : keptBaselines ≤ kept.length
  · simp [hroom]
  · right
    simpa [hroom] using ⟨by omega, n, seed, steps, hnew, hsteps, rfl⟩

theorem kept_watchedBaseline :
    (watchedBaseline ρ m n seed looks kept).2 = kept ∨
      KeepsOneMore ρ m kept (watchedBaseline ρ m n seed looks kept).2 := by
  unfold watchedBaseline
  cases hkept : kept.lookup (n, seed) with
  | some s => exact .inl rfl
  | none =>
    cases hsteps : plan m m.graph.topologicalOrder [] with
    | error f => exact .inl rfl
    | ok steps =>
      cases hlook : (List.range n).any looks.baseline with
      | true =>
        refine .inl ?_
        simp only [watchedSimulate_of_set hlook]
      | false =>
        simp only [watchedSimulate_of_unset hlook]
        exact keep_cases hsteps hkept

/-- A query that draws to its end keeps what it has drawn, if there is room. -/
theorem kept_of_unset {steps : List (Step α)} (hcheck : checkIntervention m i n = .ok clamps)
    (hsteps : plan m m.graph.topologicalOrder [] = .ok steps)
    (hlook : (List.range n).any looks.baseline = false) :
    (watchedImpact ρ settings m i n looks kept).2 =
      kept.keep (n, querySeed settings m) (simulate ρ steps n (querySeed settings m)) := by
  unfold watchedImpact watchedBaseline querySeed
  cases hkept : kept.lookup (n, settings.seed.getD m.metadata.seed) with
  | some s => simp [hcheck, hkept, Baselines.keep]
  | none => simp only [hcheck, hkept, hsteps, watchedSimulate_of_unset hlook]

/-- **A query leaves kept baselines as they are, or keeps one more, whatever it answers.** -/
theorem kept_watchedImpact :
    (watchedImpact ρ settings m i n looks kept).2 = kept ∨
      KeepsOneMore ρ m kept (watchedImpact ρ settings m i n looks kept).2 := by
  unfold watchedImpact
  cases checkIntervention m i n with
  | error e => exact .inl rfl
  | ok clamps => exact kept_watchedBaseline

theorem kept_run (q : Query α) (kept : Baselines α) :
    (q.run ρ m kept).2 = kept ∨ KeepsOneMore ρ m kept (q.run ρ m kept).2 := by
  unfold Query.run
  exact kept_watchedImpact

theorem Sound.run (h : Sound ρ m kept) (q : Query α) : Sound ρ m (q.run ρ m kept).2 := by
  rcases kept_run (ρ := ρ) q kept with hsame | hmore
  · rwa [hsame]
  · exact h.keepsOneMore hmore

theorem prefix_run (q : Query α) (kept : Baselines α) : kept <+: (q.run ρ m kept).2 := by
  rcases kept_run (ρ := ρ) q kept with hsame | hmore
  · rw [hsame]
  · obtain ⟨n, seed, steps, -, -, heq⟩ := hmore.added
    exact ⟨_, heq.symm⟩

/-! ## 3. What is answered -/

theorem Sound.lookup (h : Sound ρ m kept) {s : Samples α} (hs : kept.lookup (n, seed) = some s) :
    ∃ steps, plan m m.graph.topologicalOrder [] = .ok steps ∧ s = simulate ρ steps n seed := by
  obtain ⟨before, after, rfl, -⟩ := List.lookup_eq_some_iff.mp hs
  exact h.drawn ((n, seed), s) (by simp)

omit [Scalar α] in
/-- Whether a node can be planned does not depend on what is clamped. -/
theorem exists_planStep {order : List String} {position : Nat} {id : String} {step : Step α}
    (h : planStep m order [] position id = .ok step) (clamps : List (String × α)) :
    ∃ step, planStep m order clamps position id = .ok step := by
  unfold planStep at h ⊢
  cases hn : m.mechanism? id with
  | none => simp [hn] at h
  | some n =>
    rw [hn] at h
    obtain ⟨parents, hparents, -⟩ := map_eq_ok_iff.mp h
    exact ⟨_, map_eq_ok_iff.mpr ⟨parents, hparents, rfl⟩⟩

omit [Scalar α] in
theorem exists_plan {order : List String} {steps : List (Step α)}
    (h : plan m order [] = .ok steps) (clamps : List (String × α)) :
    ∃ steps, plan m order clamps = .ok steps := by
  refine exists_mapM_of_forall ?_
  rintro ⟨id, position⟩ hmem
  obtain ⟨step, -, hstep⟩ := exists_of_mem_forall₂ (mapM_eq_ok_iff.mp h).flip hmem
  exact exists_planStep hstep clamps

/-- A flag that is found set before a draw without the intervention ends the query also where that
draw is not made. -/
theorem watchedCompare_of_set {steps : List (Step α)} (hn : 2 ≤ n) (hlasting : looks.Lasting)
    (hsteps : plan m m.graph.topologicalOrder [] = .ok steps)
    (hset : (List.range n).any looks.baseline = true) (baseline : Samples α) :
    watchedCompare ρ settings m i n seed looks clamps baseline = .error .cancelled := by
  obtain ⟨forced, hforced⟩ := exists_plan hsteps clamps
  obtain ⟨k, -, hk⟩ := List.any_eq_true.mp hset
  have hfirst : (List.range n).any looks.forced = true :=
    List.any_eq_true.mpr ⟨0, List.mem_range.mpr (by omega), hlasting k 0 hk⟩
  simp only [watchedCompare, hforced, watchedSimulate_of_set hfirst]

/-- **A query answers from sound baselines as it does from none.** -/
theorem watchedImpact_eq_fresh (hkept : Sound ρ m kept) (hlasting : looks.Lasting) :
    (watchedImpact ρ settings m i n looks kept).1 = (watchedImpact ρ settings m i n looks []).1 := by
  unfold watchedImpact
  cases hcheck : checkIntervention m i n with
  | error e => rfl
  | ok clamps =>
    have hn := two_le_of_checkIntervention hcheck
    unfold watchedBaseline
    cases hfound : kept.lookup (n, settings.seed.getD m.metadata.seed) with
    | none =>
      -- nothing is found, so the query draws, as it does where nothing is kept
      simp only [hfound, List.lookup_nil]
      cases plan m m.graph.topologicalOrder [] with
      | error f => rfl
      | ok steps =>
        cases hlook : (List.range n).any looks.baseline with
        | true => simp only [watchedSimulate_of_set hlook]
        | false => simp only [watchedSimulate_of_unset hlook]
    | some s =>
      obtain ⟨steps, hsteps, rfl⟩ := hkept.lookup hfound
      simp only [hfound, List.lookup_nil, hsteps]
      cases hlook : (List.range n).any looks.baseline with
      | true =>
        simp only [watchedSimulate_of_set hlook, Except.bind]
        exact watchedCompare_of_set hn hlasting hsteps hlook _
      | false => simp only [watchedSimulate_of_unset hlook]

/-! ## 4. Queries one after another -/

theorem Sound.runQueries (h : Sound ρ m kept) (qs : List (Query α)) :
    Sound ρ m (runQueries ρ m kept qs).2 := by
  induction qs generalizing kept with
  | nil => exact h
  | cons q qs ih => exact ih (h.run q)

theorem prefix_runQueries (qs : List (Query α)) (kept : Baselines α) :
    kept <+: (runQueries ρ m kept qs).2 := by
  induction qs generalizing kept with
  | nil => exact List.prefix_refl kept
  | cons q qs ih => exact (prefix_run q kept).trans (ih _)

theorem runQueries_append (before after : List (Query α)) (kept : Baselines α) :
    (runQueries ρ m kept (before ++ after)).2 =
      (runQueries ρ m (runQueries ρ m kept before).2 after).2 := by
  induction before generalizing kept with
  | nil => rfl
  | cons q before ih => exact ih _

theorem answers_runQueries (h : Sound ρ m kept) {qs : List (Query α)}
    (hlasting : ∀ q ∈ qs, q.looks.Lasting) :
    (runQueries ρ m kept qs).1 = qs.map fun q => (q.run ρ m []).1 := by
  induction qs generalizing kept with
  | nil => rfl
  | cons q qs ih =>
    rw [List.map_cons, ← ih (h.run q) fun q' hq' => hlasting q' (List.mem_cons_of_mem q hq')]
    exact congrArg (· :: _) (watchedImpact_eq_fresh h (hlasting q List.mem_cons_self))

/-- **Queries on a model, one after another, answer as each does alone on a fresh copy of it. All
along, what is kept is what a query would draw, no key is kept twice, there are not too many
baselines and none of them changes later; and a query whose flag does not change while it runs is
`estimateImpact`.** -/
theorem queries_answer_as_if_alone (m : Model α) (qs : List (Query α))
    (hlasting : ∀ q ∈ qs, q.looks.Lasting) :
    (runQueries ρ m [] qs).1 = qs.map (fun q => (q.run ρ m []).1) ∧
    (∀ before after, before ++ after = qs →
      Sound ρ m (runQueries ρ m [] before).2 ∧
      (runQueries ρ m [] before).2 <+: (runQueries ρ m [] qs).2) ∧
    ∀ q ∈ qs, ∀ isSet kept, q.looks = .always isSet →
      q.run ρ m kept = estimateImpact ρ q.settings m q.intervention q.samples isSet kept := by
  refine ⟨answers_runQueries sound_nil hlasting, ?_, ?_⟩
  · rintro before after rfl
    refine ⟨sound_nil.runQueries before, ?_⟩
    rw [runQueries_append]
    exact prefix_runQueries after _
  · intro q _ isSet kept hlooks
    unfold Query.run
    rw [hlooks]
    exact watchedImpact_always isSet kept

/-! ## 5. Queries on the diamond -/

/-- A flag that is set after the first draw. -/
def setAfterOneDraw : Looks :=
  ⟨fun k => decide (1 ≤ k), fun _ => true, fun _ => true, fun _ _ => true⟩

theorem lasting_always (isSet : Bool) : (Looks.always isSet).Lasting := fun _ _ h => h

theorem lasting_setAfterOneDraw : setAfterOneDraw.Lasting := fun _ _ _ => rfl

/-- The query that forces a value at the first node, with so many samples. -/
def diamondQuery (n : Nat) (looks : Looks) : Query Float := ⟨{}, forceOne "a", n, looks⟩

/-- A query that forces nothing and one that is cancelled while it draws; two that ask for the same
baseline, of which the second finds it; and four that draw others, until no place is left. -/
def diamondQueries : List (Query Float) :=
  [⟨{}, .empty, 2, .always false⟩, diamondQuery 2 setAfterOneDraw] ++
    [2, 2, 3, 4, 5, 6].map fun n => diamondQuery n (.always false)

section Diamond

variable {base : List (Step Float)}
  (hbase : plan diamondModel diamondModel.graph.topologicalOrder [] = .ok base)

include hbase

theorem run_diamondQuery_cancelled :
    (diamondQuery 2 setAfterOneDraw).run Random.Generator diamondModel [] =
      (.error .cancelled, []) := by
  obtain ⟨clamps, hclamps⟩ :=
    exists_clamps_forceOne (show "a" ∈ CausalGraph.diamond.ids by decide) (le_refl 2)
  have hset : (List.range 2).any setAfterOneDraw.baseline = true := by decide
  simp only [diamondQuery, Query.run, watchedImpact, hclamps, watchedBaseline, List.lookup_nil,
    hbase, watchedSimulate_of_set hset]
  rfl

theorem kept_diamondQuery (hn : 2 ≤ n) (kept : Baselines Float) :
    ((diamondQuery n (.always false)).run Random.Generator diamondModel kept).2 =
      kept.keep (n, querySeed {} diamondModel)
        (simulate Random.Generator base n (querySeed {} diamondModel)) := by
  obtain ⟨clamps, hclamps⟩ :=
    exists_clamps_forceOne (show "a" ∈ CausalGraph.diamond.ids by decide) hn
  exact kept_of_unset hclamps hbase (any_range_always hn false)

end Diamond

theorem exists_answer_diamondQuery (hn : 2 ≤ n) :
    ∃ impact, ((diamondQuery n (.always false)).run Random.Generator diamondModel []).1 =
      .ok impact := by
  obtain ⟨clamps, hclamps⟩ :=
    exists_clamps_forceOne (show "a" ∈ CausalGraph.diamond.ids by decide) hn
  obtain ⟨base, forced, -, -, -, -, hanswer⟩ :=
    estimateImpact_of_accepted (ρ := Random.Generator) produced_diamondModel.grounded
      (Kept.fresh.faithful (m := diamondModel)) hclamps {} false
  rw [diamondQuery, Query.run, watchedImpact_always]
  exact ⟨_, hanswer.resolve_right fun h => nomatch h.1⟩

/-- A query that finds its baseline and one that finds no place for it answer as the others do. -/
theorem queries_answer_as_if_alone_diamond :
    (∀ q ∈ diamondQueries, q.looks.Lasting) ∧
      ∃ impact : Nat → Impact Float,
        (runQueries Random.Generator diamondModel [] diamondQueries).1 =
          [.error .emptyIntervention, .error .cancelled, .ok (impact 2), .ok (impact 2),
            .ok (impact 3), .ok (impact 4), .ok (impact 5), .ok (impact 6)] ∧
        (runQueries Random.Generator diamondModel [] diamondQueries).2.map (fun e => e.1) =
          [2, 3, 4, 5].map fun n => (n, querySeed {} diamondModel) := by
  have hlasting : ∀ q ∈ diamondQueries, q.looks.Lasting := by
    simp [diamondQueries, diamondQuery, lasting_always, lasting_setAfterOneDraw]
  obtain ⟨hanswers, -, -⟩ :=
    queries_answer_as_if_alone (ρ := Random.Generator) diamondModel diamondQueries hlasting
  obtain ⟨clamps, hclamps⟩ :=
    exists_clamps_forceOne (show "a" ∈ CausalGraph.diamond.ids by decide) (le_refl 2)
  obtain ⟨-, -, -, hmissing, -⟩ := checkIntervention_eq_ok_iff.mp hclamps
  obtain ⟨base, hbase, -⟩ := exists_planned produced_diamondModel.grounded hmissing []
  have hrefused (kept : Baselines Float) :
      Query.run Random.Generator diamondModel ⟨{}, .empty, 2, .always false⟩ kept =
        (.error .emptyIntervention, kept) := rfl
  choose impact himpact using fun k =>
    exists_answer_diamondQuery (show 2 ≤ k + 2 from Nat.le_add_left 2 k)
  refine ⟨hlasting, fun n => impact (n - 2), ?_, ?_⟩
  · rw [hanswers]
    simp only [diamondQueries, List.cons_append, List.nil_append, List.map_cons, List.map_nil,
      hrefused, run_diamondQuery_cancelled hbase, himpact 0, himpact 1, himpact 2, himpact 3,
      himpact 4]
  · have hkey (k l : Nat) (seed : UInt64) : ((k, seed) == (l, seed)) = decide (k = l) := by
      rw [Bool.eq_iff_iff]
      simp
    simp [diamondQueries, runQueries, hrefused, run_diamondQuery_cancelled hbase,
      kept_diamondQuery hbase, Baselines.keep, keptBaselines, List.lookup_cons, hkey]

end Simulation

end CodeCausality
