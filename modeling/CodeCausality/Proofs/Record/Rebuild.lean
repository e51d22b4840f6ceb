import CodeCausality.Graph.Text
import CodeCausality.Proofs.Graph.Lookup
import CodeCausality.Proofs.Record.RoundTrip

/-!
# Graphs rebuilt from their parts

What a graph hands on, as its parts or in the record of a model, is checked again where it is taken
back. Nodes and edges of an accepted graph pass and give the graph itself: its edges are sorted and
without repetition already, so sorting and merging them changes nothing.

* `SparesGraph`, `sparesGraph_readEntry` -- no later stage of reading a record blames the graph;
* `toModel_eq_invalidGraph_iff` -- **a record is refused for its graph exactly if its parts are**;
* `accepted_graphs_are_canonical` -- **the forms of an accepted graph agree, and rebuilding it is the
  identity.**
-/

namespace CodeCausality

/-! ## 1. Whom reading blames -/

section Blame

variable {α : Type}

/-- If this fails, then not for the graph. -/
def SparesGraph {β : Type} (x : Except (RecordError α) β) : Prop := ∀ e, x ≠ .error (.invalidGraph e)

variable {β γ : Type} {x : Except (RecordError α) β}

theorem sparesGraph_ok (b : β) : SparesGraph (.ok b : Except (RecordError α) β) := nofun

theorem SparesGraph.bind (hx : SparesGraph x) {f : β → Except (RecordError α) γ}
    (hf : ∀ b, SparesGraph (f b)) : SparesGraph (x >>= f) := by
  cases x with
  | error e => exact fun e' h => hx e' (congrArg Except.error (Except.error.inj h))
  | ok b => exact hf b

theorem SparesGraph.map (hx : SparesGraph x) (f : β → γ) : SparesGraph (x.map f) := by
  cases x with
  | error e => exact fun e' h => hx e' (congrArg Except.error (Except.error.inj h))
  | ok b => exact sparesGraph_ok (f b)

theorem sparesGraph_mapM {f : β → Except (RecordError α) γ} (hf : ∀ b, SparesGraph (f b))
    (bs : List β) : SparesGraph (bs.mapM f) := by
  induction bs with
  | nil => exact sparesGraph_ok []
  | cons b bs ih =>
    rw [List.mapM_cons]
    exact (hf b).bind fun c => ih.bind fun cs => sparesGraph_ok (c :: cs)

namespace MechanismRecord

variable (id : String) (d : MechanismRecord α)

theorem sparesGraph_vector (name : String) : SparesGraph (d.vector id name) := by
  unfold vector
  split <;> nofun

theorem sparesGraph_scalar (name : String) : SparesGraph (d.scalar id name) := by
  unfold scalar
  split
  · rename_i e he
    exact fun e' h => sparesGraph_vector id d name e' (he.trans (congrArg _ (Except.error.inj h)))
  · nofun
  · nofun

theorem sparesGraph_domain? : SparesGraph d.domain? := by
  unfold domain?
  split_ifs <;> nofun

/-- The ten families, one after another: each reads one parameter after the other. -/
theorem sparesGraph_mechanism (domain : Domain) : SparesGraph (d.mechanism id domain) := by
  have hscalar := sparesGraph_scalar id d
  have hvector := sparesGraph_vector id d
  unfold mechanism
  cases Family.ofName? d.family with
  | none => nofun
  | some family =>
    cases family with
    | staticPrior | marginalGaussian =>
      exact (hscalar _).bind fun mean => (hscalar _).bind fun std => sparesGraph_ok _
    | marginalEmpirical => exact (hvector _).bind fun values => sparesGraph_ok _
    | marginalBernoulli => exact (hscalar _).bind fun p => sparesGraph_ok _
    | marginalCategorical =>
      refine (hvector _).bind fun ps => ?_
      split <;> nofun
    | linearStatic | linearRegression =>
      exact (hscalar _).bind fun b => (hvector _).bind fun cs => (hscalar _).bind fun std =>
        sparesGraph_ok _
    | linearRegressionEmpirical =>
      exact (hscalar _).bind fun b => (hvector _).bind fun cs => (hvector _).bind fun rs =>
        sparesGraph_ok _
    | logisticRegression =>
      exact (hscalar _).bind fun b => (hvector _).bind fun cs => sparesGraph_ok _
    | softmaxRegression =>
      refine (hvector _).bind fun bs => (hvector _).bind fun flat => ?_
      dsimp only
      split <;> nofun

theorem sparesGraph_toMechanism : SparesGraph (d.toMechanism id) := by
  refine (sparesGraph_domain? d).bind fun domain => (sparesGraph_mechanism id d domain).bind
    fun m => ?_
  split <;> nofun

theorem sparesGraph_readEntry (g : CausalGraph α) (e : String × MechanismRecord α) :
    SparesGraph (readEntry g e) := by
  unfold readEntry
  dsimp only
  split
  · nofun
  · split
    · nofun
    · exact (sparesGraph_toMechanism e.1 e.2).map _

end MechanismRecord

theorem sparesGraph_checkWidths (mechanisms : Dictionary (NodeMechanism α))
    (entries : List (String × NodeMechanism α)) :
    SparesGraph (checkAll (checkWidths mechanisms) entries) := by
  intro e h
  obtain ⟨entry, -, hentry⟩ := checkAll_eq_error h
  unfold checkWidths at hentry
  split at hentry
  · cases hentry
  · split at hentry <;> cases hentry

variable [Scalar α]

/-- **A record is refused for its graph exactly if its nodes and edges make none.** -/
theorem toModel_eq_invalidGraph_iff {r : Record α} {e : GraphError α} :
    r.toModel = .error (.invalidGraph e) ↔ CausalGraph.ofParts r.nodes r.edges = .error e := by
  unfold Record.toModel
  cases hgraph : CausalGraph.ofParts r.nodes r.edges with
  | error fault =>
    show Except.error (RecordError.invalidGraph fault) = _ ↔ _
    simp
  | ok g =>
    refine iff_of_false (fun h => ?_) nofun
    refine SparesGraph.bind (sparesGraph_ok g) (fun g => ?_) e h
    refine (sparesGraph_mapM (MechanismRecord.sparesGraph_readEntry g) _).bind fun entries => ?_
    refine (sparesGraph_checkWidths _ _).bind fun _ => ?_
    cases Timestamp.read r.metadata.fittedAt with
    | error fault => nofun
    | ok t => exact sparesGraph_ok _

end Blame

/-! ## 2. Rebuilding -/

section Rebuild

variable {α : Type} [Scalar α]

/-- **All forms of an accepted graph agree, and its own parts give it back**, also those in the
record of any model on it. -/
theorem accepted_graphs_are_canonical {nodes : List Element} {edges : List (Edge α)}
    {g : CausalGraph α} (hg : CausalGraph.ofParts nodes edges = .ok g) :
    g.Holds nodes edges ∧ CausalGraph.ofParts g.nodes g.edges = .ok g ∧
      g.parts.toGraph = .ok g ∧
      ∀ m : Model α, m.graph = g →
        (∀ e, (Record.ofModel m).toModel ≠ .error (.invalidGraph e)) ∧
        ∀ again, (Record.ofModel m).toModel = .ok again →
          again.graph = g ∧ again.graph.topologicalOrder = g.topologicalOrder := by
  have hself : CausalGraph.ofParts g.nodes g.edges = .ok g :=
    CausalGraph.ofParts_of_wellFormed (CausalGraph.wellFormed_of_ofParts hg)
  refine ⟨CausalGraph.holds_of_ofParts hg, hself, hself, ?_⟩
  rintro m rfl
  refine ⟨fun e h => ?_, fun again h => ?_⟩
  · have hrefused := toModel_eq_invalidGraph_iff.mp h
    exact nomatch hself.symm.trans hrefused
  · have hgraph : again.graph = m.graph :=
      Except.ok.inj ((Model.toModel_eq_ok h).1.symm.trans hself)
    exact ⟨hgraph, congrArg _ hgraph⟩

end Rebuild

/-! ## 3. A pair that is given twice -/

/-- Two edges of one pair and one before them, given out of order. -/
def repeatedEdges : List (Edge Float) :=
  [⟨"b", "d", .call, none⟩, ⟨"a", "b", .dataFlow, none⟩, ⟨"b", "d", .dataFlow, none⟩]

def repeatedGraph : CausalGraph Float :=
  .of CausalGraph.diamondNodes [⟨"a", "b", .dataFlow, none⟩, ⟨"b", "d", .call, none⟩]

theorem ofParts_repeated :
    CausalGraph.ofParts CausalGraph.diamondNodes repeatedEdges = .ok repeatedGraph := by cbv

/-- The edge that is found for the pair is the one given first; `a` is a root and `d` is not. -/
theorem accepted_graphs_are_canonical_repeated :
    repeatedGraph.edge? "b" "d" = some ⟨"b", "d", .call, none⟩ ∧
      repeatedGraph.isRoot "a" = true ∧ repeatedGraph.isRoot "d" = false ∧
      repeatedGraph.parts.toGraph = .ok repeatedGraph := by
  obtain ⟨hforms, -, hparts, -⟩ := accepted_graphs_are_canonical ofParts_repeated
  refine ⟨?_, ?_, ?_, hparts⟩
  · rw [hforms.edge, hforms.first]
    rfl
  · rw [hforms.root]
    exact ⟨by decide, by decide⟩
  · rw [← Bool.not_eq_true, hforms.root]
    decide

end CodeCausality
