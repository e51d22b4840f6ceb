import CodeCausality.Proofs.Simulation.Impact
import CodeCausality.Simulation.Streams

/-!
# Seeds and streams of a query

* `bijective_xor`, `bijective_mul`, `bijective_xorShift` -- the steps that mix a seed with an index
  lose nothing: each has an inverse;
* `bijective_streamSeed`, `bijective_streamSeed_left` -- **so for a fixed seed each word is the seed
  of one index, and for a fixed index that of one seed**;
* `fst_impactNoting` -- **the notes of a query change nothing of it**;
* `NotedWith`, `notedWith_impactNoting` -- what is noted of a query: the draws of its plans and the
  resamples at the affected nodes;
* `Notes.Apart`, `NotedWith.apart` -- what is noted goes by number and position: draws share a seed
  only if they are the same draw with and without the intervention, which are to differ by the
  intervention alone, and resamples only if they are the same resample of two nodes;
* `streams_are_not_shared` -- **so it is in every query of a produced model.**
-/

namespace CodeCausality

namespace Simulation

open Function

/-! ## 1. Mixing -/

theorem bijective_xor (s : UInt64) : Bijective (s ^^^ ·) := by
  refine Involutive.bijective fun x => ?_
  rw [← UInt64.xor_assoc, UInt64.xor_self, UInt64.zero_xor]

/-- A factor with an inverse can be divided by; the odd ones have one. -/
theorem bijective_mul {c d : UInt64} (h : c * d = 1) : Bijective (· * c) := by
  refine bijective_iff_has_inverse.mpr ⟨(· * d), fun x => ?_, fun x => ?_⟩
  · show x * c * d = x
    rw [UInt64.mul_assoc, h, UInt64.mul_one]
  · show x * d * c = x
    rw [UInt64.mul_assoc, UInt64.mul_comm d, h, UInt64.mul_one]

theorem shiftRight_thrice {k : UInt64} (hk : 22 ≤ k.toNat) (hk' : k.toNat < 64) (x : UInt64) :
    x >>> k >>> k >>> k = 0 := by
  have hbits : x.toNat < 2 ^ (k.toNat + (k.toNat + k.toNat)) :=
    Nat.lt_of_lt_of_le x.toNat_lt (Nat.pow_le_pow_right Nat.two_pos (by omega))
  rw [← UInt64.toNat_inj, UInt64.toNat_shiftRight, UInt64.toNat_shiftRight,
    UInt64.toNat_shiftRight, Nat.mod_eq_of_lt hk', ← Nat.shiftRight_add, ← Nat.shiftRight_add]
  exact Nat.shiftRight_eq_zero _ _ hbits

/-- A word can be told from its sum with itself shifted: two more shifted copies undo the first, as
nothing is left of the word after three shifts. -/
theorem bijective_xorShift {k : UInt64} (hk : 22 ≤ k.toNat) (hk' : k.toNat < 64) :
    Bijective fun x : UInt64 => x ^^^ (x >>> k) := by
  have hout := shiftRight_thrice hk hk'
  refine bijective_iff_has_inverse.mpr
    ⟨fun x => x ^^^ (x >>> k ^^^ x >>> k >>> k), fun x => ?_, fun x => ?_⟩
  · dsimp only
    rw [UInt64.shiftRight_xor, UInt64.shiftRight_xor, hout, UInt64.xor_zero,
      UInt64.xor_assoc (x >>> k), UInt64.xor_self, UInt64.xor_zero, UInt64.xor_assoc,
      UInt64.xor_self, UInt64.xor_zero]
  · dsimp only
    rw [UInt64.shiftRight_xor, UInt64.shiftRight_xor, hout, UInt64.xor_zero, UInt64.xor_assoc,
      UInt64.xor_self, UInt64.xor_zero]

/-- What is done to a seed after the index has been added. -/
def finish (z : UInt64) : UInt64 :=
  let z := (z ^^^ (z >>> 30)) * 0xbf58476d1ce4e5b9
  let z := (z ^^^ (z >>> 27)) * 0x94d049bb133111eb
  z ^^^ (z >>> 31)

theorem bijective_finish : Bijective finish := by
  have hfirst : (0xbf58476d1ce4e5b9 : UInt64) * 0x96de1b173f119089 = 1 := by decide
  have hsecond : (0x94d049bb133111eb : UInt64) * 0x319642b2d24d8ec3 = 1 := by decide
  have h30 := bijective_xorShift (k := 30) (by decide) (by decide)
  have h27 := bijective_xorShift (k := 27) (by decide) (by decide)
  have h31 := bijective_xorShift (k := 31) (by decide) (by decide)
  exact h31.comp ((bijective_mul hsecond).comp (h27.comp ((bijective_mul hfirst).comp h30)))

/-- **For a fixed seed each word is the seed of one index.** -/
theorem bijective_streamSeed (seed : UInt64) : Bijective (streamSeed seed) := by
  have hodd : (0x9e3779b97f4a7c15 : UInt64) * 0xf1de83e19937733d = 1 := by decide
  exact bijective_finish.comp ((bijective_xor seed).comp (bijective_mul hodd))

/-- **For a fixed index each word is the seed that one seed gives.** -/
theorem bijective_streamSeed_left (index : UInt64) :
    Bijective fun seed => streamSeed seed index := by
  have hxor := bijective_xor (index * 0x9e3779b97f4a7c15)
  simp only [UInt64.xor_comm (index * 0x9e3779b97f4a7c15)] at hxor
  exact bijective_finish.comp hxor

/-- Different numbers that fit a word stay different. -/
theorem ofNat_eq_iff {k l : Nat} (hk : k < UInt64.size) (hl : l < UInt64.size) :
    UInt64.ofNat k = UInt64.ofNat l ↔ k = l := by
  rw [← UInt64.toNat_inj, UInt64.toNat_ofNat_of_lt' hk, UInt64.toNat_ofNat_of_lt' hl]

theorem nodup_map_ofNat {β : Type} {f : UInt64 → β} (hf : Injective f) {ks : List Nat}
    (hks : ks.Nodup) (hlt : ∀ k ∈ ks, k < UInt64.size) :
    (ks.map fun k => f (UInt64.ofNat k)).Nodup :=
  hks.map_on fun _ hk _ hl heq => (ofNat_eq_iff (hlt _ hk) (hlt _ hl)).mp (hf heq)

/-- **Different numbers give different seeds.** -/
theorem streamSeed_ofNat_eq_iff (seed : UInt64) {k l : Nat} (hk : k < UInt64.size)
    (hl : l < UInt64.size) :
    streamSeed seed (UInt64.ofNat k) = streamSeed seed (UInt64.ofNat l) ↔ k = l :=
  (bijective_streamSeed seed).injective.eq_iff.trans (ofNat_eq_iff hk hl)

section Noted

variable {α : Type} [Scalar α] (ρ : Type) [Noise ρ α]

/-! ## 2. Notes change nothing -/

theorem fst_advanceNoting (seed : UInt64) (run : DrawState α × List Stream)
    (entry : Step α × Nat) :
    (DrawState.advanceNoting ρ seed run entry).1 = run.1.advance ρ seed entry := by
  rw [DrawState.advanceNoting, DrawState.advance]
  dsimp only
  cases entry.1.clamp <;> rfl

theorem fst_drawNoting (steps : List (Step α)) (seed : UInt64) :
    (drawNoting ρ steps seed).1 = drawOnce ρ steps seed := by
  rw [drawNoting, drawOnce]
  exact congrArg DrawState.values
    (List.foldl_hom Prod.fst fun run entry => (fst_advanceNoting ρ seed run entry).symm).symm

theorem fst_simulateNoting (steps : List (Step α)) (n : Nat) (seed : UInt64) :
    (simulateNoting ρ steps n seed).1 = simulate ρ steps n seed := by
  simp only [simulateNoting, simulate, draws, List.map_map, Function.comp_def, fst_drawNoting]

theorem fst_effectsNoting (settings : SimulationSettings α) (reference : Stats.Reference α)
    (intervened : List α) (seed : UInt64) (position : Nat) :
    (effectsNoting ρ settings reference intervened seed position).1 =
      resampledEffects ρ settings reference intervened seed position := by
  simp only [effectsNoting, List.map_map, Function.comp_def]
  rfl

theorem fst_measureNoting (settings : SimulationSettings α) (domain : Domain)
    (baseline intervened : List α) (seed : UInt64) (position : Nat) :
    (measureNoting ρ settings domain baseline intervened seed position).1 =
      measure ρ settings domain baseline intervened seed position := by
  simp only [measureNoting, measure, fst_effectsNoting]

theorem fst_compareNoting (settings : SimulationSettings α) (m : Model α) (order : List String)
    (i : Intervention α) (n : Nat) (seed : UInt64) (baseline intervened : Samples α) :
    (compareNoting ρ settings m order i n seed baseline intervened).1 =
      compare ρ settings m order i n seed baseline intervened := by
  simp only [compareNoting, compare, List.map_map, Function.comp_def, fst_measureNoting]

theorem fst_baselineNoting (m : Model α) (order : List String) (n : Nat) (seed : UInt64)
    (cancelled : Bool) (kept : Baselines α) :
    (baselineNoting ρ m order n seed cancelled kept).1 =
      baselineSamples ρ m order n seed cancelled kept := by
  rw [baselineNoting, baselineSamples]
  cases kept.lookup (n, seed) with
  | some s => rfl
  | none =>
    cases plan m order [] with
    | error f => rfl
    | ok steps =>
      cases cancelled with
      | true => rfl
      | false => simp only [fst_simulateNoting]; rfl

/-- **The notes of a query change nothing of it.** -/
theorem fst_impactNoting (settings : SimulationSettings α) (m : Model α) (i : Intervention α)
    (n : Nat) (cancelled : Bool) (kept : Baselines α) :
    (impactNoting ρ settings m i n cancelled kept).1 =
      estimateImpact ρ settings m i n cancelled kept := by
  rw [impactNoting, estimateImpact]
  cases checkIntervention m i n with
  | error e => rfl
  | ok clamps =>
    dsimp only
    rw [← fst_baselineNoting]
    rcases baselineNoting ρ m m.graph.topologicalOrder n (settings.seed.getD m.metadata.seed)
      cancelled kept with ⟨⟨answer, kept'⟩, notes⟩
    cases answer with
    | error e => rfl
    | ok baseline =>
      dsimp only
      cases plan m m.graph.topologicalOrder clamps with
      | error f => rfl
      | ok steps =>
        cases cancelled with
        | true => rfl
        | false => simp only [fst_simulateNoting, fst_compareNoting]; rfl

/-! ## 3. What is noted of draws -/

/-- The streams that a draw starts: one for each node of the plan that is not clamped. -/
def nodeStreams (steps : List (Step α)) (seed : UInt64) : List Stream :=
  (steps.zipIdx.filter fun e => e.1.clamp.isNone).map fun e => ⟨seed, UInt64.ofNat e.2⟩

/-- The seeds of the draws, by number. -/
def drawSeeds (n : Nat) (seed : UInt64) : List UInt64 :=
  (List.range n).map fun k => streamSeed seed (UInt64.ofNat k)

/-- What is noted of the draws of a plan. -/
def drawNotes (steps : List (Step α)) (n : Nat) (seed : UInt64) : List DrawNote :=
  (drawSeeds n seed).map fun s => ⟨s, nodeStreams steps s⟩

theorem snd_advanceNoting (seed : UInt64) (run : DrawState α × List Stream)
    (entry : Step α × Nat) :
    (DrawState.advanceNoting ρ seed run entry).2 =
      run.2 ++ if entry.1.clamp.isNone then [⟨seed, UInt64.ofNat entry.2⟩] else [] := by
  rw [DrawState.advanceNoting]
  dsimp only
  cases entry.1.clamp with
  | none => rfl
  | some v => exact (List.append_nil run.2).symm

/-- Along a plan, the streams of the nodes that are not clamped are added one after another. -/
theorem snd_foldl_advanceNoting (seed : UInt64) (entries : List (Step α × Nat))
    (run : DrawState α × List Stream) :
    (entries.foldl (DrawState.advanceNoting ρ seed) run).2 =
      run.2 ++ (entries.filter fun e => e.1.clamp.isNone).map
        fun e => ⟨seed, UInt64.ofNat e.2⟩ := by
  induction entries generalizing run with
  | nil => exact (List.append_nil run.2).symm
  | cons entry entries ih =>
    rw [List.foldl_cons, ih, snd_advanceNoting, List.append_assoc, List.filter_cons]
    cases entry.1.clamp <;> rfl

theorem snd_drawNoting (steps : List (Step α)) (seed : UInt64) :
    (drawNoting ρ steps seed).2 = ⟨seed, nodeStreams steps seed⟩ := by
  rw [drawNoting]
  dsimp only
  rw [snd_foldl_advanceNoting, List.nil_append, nodeStreams]

theorem snd_simulateNoting (steps : List (Step α)) (n : Nat) (seed : UInt64) :
    (simulateNoting ρ steps n seed).2 = drawNotes steps n seed := by
  simp only [simulateNoting, drawNotes, drawSeeds, List.map_map, Function.comp_def, snd_drawNoting]

/-! ## 4. What is noted of resamples -/

/-- The streams of the resamples at a node. -/
def resampleStreams (settings : SimulationSettings α) (seed : UInt64) (position : Nat) :
    List Stream :=
  (List.range settings.resampleCount).map (resampleStream seed position)

theorem snd_measureNoting (settings : SimulationSettings α) (domain : Domain)
    (baseline intervened : List α) (seed : UInt64) (position : Nat) :
    (measureNoting ρ settings domain baseline intervened seed position).2 =
      resampleStreams settings seed position := by
  simp only [measureNoting, effectsNoting, resampleStreams, List.map_map, Function.comp_def]

theorem snd_compareNoting (settings : SimulationSettings α) (m : Model α) (order : List String)
    (i : Intervention α) (n : Nat) (seed : UInt64) (baseline intervened : Samples α) :
    (compareNoting ρ settings m order i n seed baseline intervened).2 =
      (affectedNodes m i).map fun id => resampleStreams settings seed (order.idxOf id) := by
  simp only [compareNoting, List.map_map, Function.comp_def, snd_measureNoting]

/-! ## 5. What is noted of a query -/

section Query

variable {settings : SimulationSettings α} {m : Model α} {i : Intervention α} {n : Nat}
  {seed : UInt64} {kept : Baselines α}

/-- The notes are those of the draws of the model under the clamps. -/
def Drawn (m : Model α) (clamps : List (String × α)) (n : Nat) (seed : UInt64)
    (notes : List DrawNote) : Prop :=
  ∃ steps, plan m m.graph.topologicalOrder clamps = .ok steps ∧ notes = drawNotes steps n seed

/-- What is noted of a query with its answer. A query that fails has made the draws without the
intervention at most. One that is answered has made them, or found kept samples, has made the draws
with the intervention and has resampled at the affected nodes. -/
inductive NotedWith (settings : SimulationSettings α) (m : Model α) (i : Intervention α) (n : Nat)
    (kept : Baselines α) : Except (ImpactError α) (Impact α) → Notes → Prop where
  | failed {e : ImpactError α} {baseline : List DrawNote}
      (hbaseline : baseline = [] ∨ Drawn m [] n (querySeed settings m) baseline) :
      NotedWith settings m i n kept (.error e) ⟨baseline, [], []⟩
  | answered {impact : Impact α} {clamps : List (String × α)} {baseline forced : List DrawNote}
      (hbaseline : (∃ s, kept.lookup (n, querySeed settings m) = some s) ∧ baseline = [] ∨
        Drawn m [] n (querySeed settings m) baseline)
      (hclamps : checkIntervention m i n = .ok clamps)
      (hforced : Drawn m clamps n (querySeed settings m) forced) :
      NotedWith settings m i n kept (.ok impact) ⟨baseline, forced,
        (affectedNodes m i).map fun id =>
          resampleStreams settings (querySeed settings m) (m.graph.topologicalOrder.idxOf id)⟩

/-- Nothing is noted of the draws without the intervention only if none are made. -/
theorem snd_baselineNoting (n : Nat) (seed : UInt64) (cancelled : Bool) (kept : Baselines α) :
    Drawn m [] n seed (baselineNoting ρ m m.graph.topologicalOrder n seed cancelled kept).2 ∨
      (baselineNoting ρ m m.graph.topologicalOrder n seed cancelled kept).2 = [] ∧
        ∀ s, (baselineNoting ρ m m.graph.topologicalOrder n seed cancelled kept).1.1 = .ok s →
          kept.lookup (n, seed) = some s := by
  rw [baselineNoting]
  cases kept.lookup (n, seed) with
  | some s => exact .inr ⟨rfl, fun _ h => congrArg some (Except.ok.inj h)⟩
  | none =>
    cases hsteps : plan m m.graph.topologicalOrder [] with
    | error f => exact .inr ⟨rfl, fun _ h => nomatch h⟩
    | ok steps =>
      cases cancelled with
      | true => exact .inr ⟨rfl, fun _ h => nomatch h⟩
      | false => exact .inl ⟨steps, hsteps, snd_simulateNoting ρ steps n seed⟩

theorem notedWith_impactNoting (settings : SimulationSettings α) (m : Model α)
    (i : Intervention α) (n : Nat) (cancelled : Bool) (kept : Baselines α) :
    NotedWith settings m i n kept (impactNoting ρ settings m i n cancelled kept).1.1
      (impactNoting ρ settings m i n cancelled kept).2 := by
  rw [impactNoting]
  cases hclamps : checkIntervention m i n with
  | error e => exact .failed (.inl rfl)
  | ok clamps =>
    dsimp only
    have hnoted := snd_baselineNoting ρ (m := m) n (querySeed settings m) cancelled kept
    rw [querySeed] at hnoted
    generalize baselineNoting ρ m m.graph.topologicalOrder n (settings.seed.getD m.metadata.seed)
      cancelled kept = noted at hnoted ⊢
    obtain ⟨⟨answer, kept'⟩, notes⟩ := noted
    have hmade : notes = [] ∨ Drawn m [] n (querySeed settings m) notes :=
      hnoted.symm.imp_left And.left
    cases answer with
    | error e => exact .failed hmade
    | ok baseline =>
      dsimp only
      cases hsteps : plan m m.graph.topologicalOrder clamps with
      | error f => exact .failed hmade
      | ok steps =>
        cases cancelled with
        | true => exact .failed hmade
        | false =>
          simp only [snd_simulateNoting, snd_compareNoting]
          refine .answered ?_ hclamps ⟨steps, hsteps, rfl⟩
          exact hnoted.symm.imp_left fun h => ⟨⟨baseline, h.2 baseline rfl⟩, h.1⟩

end Query

end Noted

/-! ## 6. No stream twice -/

/-- Draw `k` of a query, of the run without the intervention or of that with it. -/
def Notes.IsDraw (notes : Notes) (k : Nat) (d : DrawNote) : Prop :=
  notes.baseline[k]? = some d ∨ notes.forced[k]? = some d

/-- Resample `b` of a query, at one of the nodes that are measured. -/
def Notes.IsResample (notes : Notes) (b : Nat) (s : Stream) : Prop :=
  ∃ streams ∈ notes.resamples, streams[b]? = some s

/-- Draws share a seed if they have the same number and not else, and so do resamples. No run starts
a stream twice, and no two resamples start the same one. -/
structure Notes.Apart (notes : Notes) : Prop where
  draws : ∀ k l d e, notes.IsDraw k d → notes.IsDraw l e → (d.seed = e.seed ↔ k = l)
  resamples : ∀ b c s t, notes.IsResample b s → notes.IsResample c t → (s.seed = t.seed ↔ b = c)
  baselineStreams : (notes.baseline.flatMap (·.streams)).Nodup
  forcedStreams : (notes.forced.flatMap (·.streams)).Nodup
  resampleStreams : notes.resamples.flatten.Nodup

section Apart

variable {α : Type} {settings : SimulationSettings α} {m : Model α} {i : Intervention α} {n : Nat}
  {seed : UInt64} {kept : Baselines α} {steps : List (Step α)}

theorem mem_nodeStreams {s : Stream} (h : s ∈ nodeStreams steps seed) : s.seed = seed := by
  obtain ⟨e, -, rfl⟩ := List.mem_map.mp h
  rfl

/-- **In one draw no two nodes share a stream.** -/
theorem nodup_nodeStreams (hsteps : steps.length ≤ UInt64.size) (seed : UInt64) :
    (nodeStreams steps seed).Nodup := by
  have hpositions : ((steps.zipIdx.filter fun e => e.1.clamp.isNone).map (·.2)).Nodup := by
    refine List.Nodup.sublist (List.filter_sublist.map _) ?_
    rw [List.zipIdx_map_snd]
    exact List.nodup_range'
  have hinj : Injective fun w => (⟨seed, w⟩ : Stream) := fun a b h => congrArg Stream.position h
  have hwords := nodup_map_ofNat hinj hpositions fun k hk => by
    obtain ⟨e, he, rfl⟩ := List.mem_map.mp hk
    have hlt := List.snd_lt_of_mem_zipIdx (List.mem_of_mem_filter he)
    omega
  rwa [List.map_map] at hwords

/-- **No two draws share a seed.** -/
theorem nodup_drawSeeds (hn : n ≤ UInt64.size) (seed : UInt64) : (drawSeeds n seed).Nodup :=
  nodup_map_ofNat (bijective_streamSeed seed).injective List.nodup_range fun _ hk =>
    (List.mem_range.mp hk).trans_le hn

theorem getElem?_drawSeeds {k : Nat} {s : UInt64} (h : (drawSeeds n seed)[k]? = some s) :
    k < n ∧ s = streamSeed seed (UInt64.ofNat k) := by
  obtain ⟨hk, rfl⟩ := List.getElem?_eq_some_iff.mp h
  rw [drawSeeds, List.length_map, List.length_range] at hk
  exact ⟨hk, by simp [drawSeeds]⟩

/-- **In one run no two nodes of any draws share a stream.** -/
theorem nodup_streams_drawNotes (hn : n ≤ UInt64.size) (hsteps : steps.length ≤ UInt64.size)
    (seed : UInt64) : ((drawNotes steps n seed).flatMap (·.streams)).Nodup := by
  rw [drawNotes, List.flatMap_map, List.nodup_flatMap]
  refine ⟨fun s _ => nodup_nodeStreams hsteps s, (nodup_drawSeeds hn seed).imp fun hne => ?_⟩
  -- a stream tells the seed of its draw
  exact fun t ht ht' => hne ((mem_nodeStreams ht).symm.trans (mem_nodeStreams ht'))

theorem map_seed_resampleStreams {position : Nat} :
    (resampleStreams settings seed position).map (·.seed) =
      drawSeeds settings.resampleCount (seed ^^^ resampleSalt) := by
  simp only [resampleStreams, drawSeeds, resampleStream, List.map_map, Function.comp_def]

theorem position_of_mem_resampleStreams {position : Nat} {s : Stream}
    (h : s ∈ resampleStreams settings seed position) : s.position = UInt64.ofNat position := by
  obtain ⟨b, -, rfl⟩ := List.mem_map.mp h
  rfl

variable {clamps : List (String × α)} {drawn : List DrawNote}

theorem Drawn.map_seed (h : Drawn m clamps n seed drawn) :
    drawn.map (·.seed) = drawSeeds n seed := by
  obtain ⟨steps, -, rfl⟩ := h
  simp only [drawNotes, List.map_map, Function.comp_def, List.map_id']

/-- A run has made no draws, or those of a plan. -/
def Made (m : Model α) (n : Nat) (seed : UInt64) (drawn : List DrawNote) : Prop :=
  drawn = [] ∨ ∃ clamps, Drawn m clamps n seed drawn

/-- **The number of a draw is all that its seed depends on**, beside the query's. -/
theorem Made.seed_eq (h : Made m n seed drawn) {k : Nat} {d : DrawNote}
    (hd : drawn[k]? = some d) : k < n ∧ d.seed = streamSeed seed (UInt64.ofNat k) := by
  rcases h with rfl | ⟨clamps, h⟩
  · exact nomatch hd
  · refine getElem?_drawSeeds ?_
    rw [← h.map_seed, List.getElem?_map, hd, Option.map_some]

variable [Scalar α] {notes : Notes} {answer : Except (ImpactError α) (Impact α)}

theorem Made.nodup_streams (hm : m.graph.WellFormed)
    (hnodes : m.graph.nodes.length ≤ UInt64.size) (hn : n ≤ UInt64.size)
    (h : Made m n seed drawn) : (drawn.flatMap (·.streams)).Nodup := by
  rcases h with rfl | ⟨clamps, steps, hsteps, rfl⟩
  · exact List.nodup_nil
  · refine nodup_streams_drawNotes hn ?_ seed
    rwa [length_of_mapM hsteps, List.length_zipIdx, hm.full]

/-- Affected nodes stand at different positions that fit a word. -/
theorem position_ne_of_affected (hm : m.graph.WellFormed)
    (hnodes : m.graph.nodes.length ≤ UInt64.size) {a b : String} (ha : a ∈ affectedNodes m i)
    (hb : b ∈ affectedNodes m i) (hne : a ≠ b) :
    UInt64.ofNat (m.graph.topologicalOrder.idxOf a) ≠
      UInt64.ofNat (m.graph.topologicalOrder.idxOf b) := by
  have hmem {id : String} (hid : id ∈ affectedNodes m i) : id ∈ m.graph.topologicalOrder := by
    obtain ⟨⟨x, -, hx⟩, -⟩ := (mem_affectedNodes hm.known).mp hid
    exact hm.mem_order.mpr (hx.target_mem hm.known)
  have hlt {id : String} (hid : id ∈ affectedNodes m i) :
      m.graph.topologicalOrder.idxOf id < UInt64.size :=
    (hm.full ▸ List.idxOf_lt_length_iff.mpr (hmem hid)).trans_le hnodes
  rw [Ne, ofNat_eq_iff (hlt ha) (hlt hb), List.idxOf_inj (hmem ha)]
  exact hne

/-- **No two resamples share a stream**, at one node or at two. -/
theorem nodup_affected_resampleStreams (hm : m.graph.WellFormed)
    (hnodes : m.graph.nodes.length ≤ UInt64.size)
    (hresamples : settings.resampleCount ≤ UInt64.size) (i : Intervention α) (seed : UInt64) :
    ((affectedNodes m i).flatMap fun id =>
      resampleStreams settings seed (m.graph.topologicalOrder.idxOf id)).Nodup := by
  rw [List.nodup_flatMap]
  constructor
  · refine fun id _ => List.Nodup.of_map (·.seed) ?_
    rw [map_seed_resampleStreams]
    exact nodup_drawSeeds hresamples _
  · have hnodup : (affectedNodes m i).Nodup := affectedNodes_increasing.imp ne_of_lt
    refine hnodup.pairwise_of_forall_ne fun a ha b hb hne => ?_
    -- a stream tells the position of its node
    exact fun s hs hs' => position_ne_of_affected hm hnodes ha hb hne
      ((position_of_mem_resampleStreams hs).symm.trans (position_of_mem_resampleStreams hs'))

theorem NotedWith.made_baseline (h : NotedWith settings m i n kept answer notes) :
    Made m n (querySeed settings m) notes.baseline := by
  cases h with
  | failed hbaseline => exact hbaseline.imp_right fun hdrawn => ⟨[], hdrawn⟩
  | answered hbaseline _ _ => exact hbaseline.imp And.right fun hdrawn => ⟨[], hdrawn⟩

theorem NotedWith.made_forced (h : NotedWith settings m i n kept answer notes) :
    Made m n (querySeed settings m) notes.forced := by
  cases h with
  | failed _ => exact .inl rfl
  | answered _ _ hforced => exact .inr ⟨_, hforced⟩

theorem NotedWith.seed_of_isDraw (h : NotedWith settings m i n kept answer notes) {k : Nat}
    {d : DrawNote} (hd : notes.IsDraw k d) :
    k < n ∧ d.seed = streamSeed (querySeed settings m) (UInt64.ofNat k) :=
  hd.elim h.made_baseline.seed_eq h.made_forced.seed_eq

/-- The seed of a resample depends on its number alone as well. -/
theorem NotedWith.seed_of_isResample (h : NotedWith settings m i n kept answer notes) {b : Nat}
    {s : Stream} (hs : notes.IsResample b s) :
    b < settings.resampleCount ∧
      s.seed = streamSeed (querySeed settings m ^^^ resampleSalt) (UInt64.ofNat b) := by
  obtain ⟨streams, hstreams, hs⟩ := hs
  cases h with
  | failed _ => exact nomatch hstreams
  | answered _ _ _ =>
    obtain ⟨id, -, rfl⟩ := List.mem_map.mp hstreams
    refine getElem?_drawSeeds ?_
    rw [← map_seed_resampleStreams, List.getElem?_map, hs, Option.map_some]

theorem NotedWith.apart (hm : m.graph.WellFormed) (hnodes : m.graph.nodes.length ≤ UInt64.size)
    (hn : n ≤ UInt64.size) (hresamples : settings.resampleCount ≤ UInt64.size)
    (h : NotedWith settings m i n kept answer notes) : notes.Apart where
  draws k l d e hd he := by
    obtain ⟨hk, hd⟩ := h.seed_of_isDraw hd
    obtain ⟨hl, he⟩ := h.seed_of_isDraw he
    rw [hd, he, streamSeed_ofNat_eq_iff _ (hk.trans_le hn) (hl.trans_le hn)]
  resamples b c s t hs ht := by
    obtain ⟨hb, hs⟩ := h.seed_of_isResample hs
    obtain ⟨hc, ht⟩ := h.seed_of_isResample ht
    rw [hs, ht, streamSeed_ofNat_eq_iff _ (hb.trans_le hresamples) (hc.trans_le hresamples)]
  baselineStreams := h.made_baseline.nodup_streams hm hnodes hn
  forcedStreams := h.made_forced.nodup_streams hm hnodes hn
  resampleStreams := by
    cases h with
    | failed _ => exact List.nodup_nil
    | answered _ _ _ => exact nodup_affected_resampleStreams hm hnodes hresamples i _

variable {ρ : Type} [Noise ρ α]

/-- **No two draws of a query share a seed, no two resamples do, and no run and no bootstrap starts
a stream twice.** For each seed a word is mixed from one index, and for each index from one seed. A
query of a produced model with notes is the query, and its notes are those of its draws and
resamples. These are told apart by their numbers, as long as nodes, draws and resamples can be
numbered by words. -/
theorem streams_are_not_shared (hm : Model.Produced ρ m)
    (hnodes : m.graph.nodes.length ≤ UInt64.size) (hn : n ≤ UInt64.size)
    (hresamples : settings.resampleCount ≤ UInt64.size) (i : Intervention α) (cancelled : Bool)
    (kept : Baselines α) :
    (∀ seed, Bijective (streamSeed seed)) ∧
    (∀ index, Bijective fun seed => streamSeed seed index) ∧
    (impactNoting ρ settings m i n cancelled kept).1 =
      estimateImpact ρ settings m i n cancelled kept ∧
    NotedWith settings m i n kept (estimateImpact ρ settings m i n cancelled kept).1
      (impactNoting ρ settings m i n cancelled kept).2 ∧
    (impactNoting ρ settings m i n cancelled kept).2.Apart := by
  have hnoted := notedWith_impactNoting ρ settings m i n cancelled kept
  refine ⟨bijective_streamSeed, bijective_streamSeed_left,
    fst_impactNoting ρ settings m i n cancelled kept, ?_,
    hnoted.apart hm.grounded.graph hnodes hn hresamples⟩
  rwa [fst_impactNoting] at hnoted

/-- Forcing the first node of the diamond is answered from two draws without and two with the
intervention; the first draws share their seed, and so do the second ones. -/
theorem streams_are_not_shared_diamond :
    diamondModel.graph.nodes.length ≤ UInt64.size ∧
      ∃ impact notes,
        impactNoting Random.Generator {} diamondModel (forceOne "a") 2 false [] =
          (estimateImpact Random.Generator {} diamondModel (forceOne "a") 2 false [], notes) ∧
        (estimateImpact Random.Generator {} diamondModel (forceOne "a") 2 false []).1 =
          .ok impact ∧
        notes.Apart ∧
        notes.baseline.map (·.seed) = [9818801813613496830, 1891137109208780481] ∧
        notes.forced.map (·.seed) = [9818801813613496830, 1891137109208780481] := by
  have hnodes : diamondModel.graph.nodes.length ≤ UInt64.size :=
    show (4 : Nat) ≤ UInt64.size by decide
  have hresamples : ({} : SimulationSettings Float).resampleCount ≤ UInt64.size :=
    show (1000 : Nat) ≤ UInt64.size by decide
  obtain ⟨-, -, hsame, hnoted, hapart⟩ := streams_are_not_shared produced_diamondModel hnodes
    (show (2 : Nat) ≤ UInt64.size by decide) hresamples (forceOne "a") false []
  obtain ⟨clamps, hclamps⟩ :=
    exists_clamps_forceOne (show "a" ∈ CausalGraph.diamond.ids by decide) (le_refl 2)
  obtain ⟨base, forced, -, -, -, -, hanswer⟩ :=
    estimateImpact_of_accepted (ρ := Random.Generator) produced_diamondModel.grounded
      (Kept.fresh.faithful (m := diamondModel)) hclamps {} false
  have hdone := hanswer.resolve_right fun h => nomatch h.1
  obtain ⟨notes, hnotes⟩ : ∃ notes,
      (impactNoting Random.Generator {} diamondModel (forceOne "a") 2 false []).2 = notes :=
    ⟨_, rfl⟩
  have hseeds : drawSeeds 2 (querySeed {} diamondModel) =
      [9818801813613496830, 1891137109208780481] := by decide +kernel
  rw [hnotes] at hnoted hapart
  rw [hdone] at hnoted
  refine ⟨hnodes, _, notes, Prod.ext hsame hnotes, hdone, hapart, ?_⟩
  cases hnoted with
  | answered hbaseline _ hforced =>
    have hmade := hbaseline.resolve_left fun h => nomatch h.1.choose_spec
    exact ⟨hmade.map_seed.trans hseeds, hforced.map_seed.trans hseeds⟩

end Apart

end Simulation

end CodeCausality

