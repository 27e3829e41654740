import Canvas.Proofs.Graph.CycleReport

/-!
# Edge ids

A user draws a canvas by adding nodes and by connecting pairs of nodes. The edge between two nodes
is named after them, with an arrow in between. The name does not say where the first node ends if
the nodes' own ids contain arrows: `a->b->c` leads from `a` to `b->c` or from `a->b` to `c`. These
are the only edges with different ends that share an id, so on a canvas where no edge starts at such
a node, or none ends at one, an id names one pair of nodes, and every back edge is reported at its
own nodes.
-/

namespace Canvas

namespace Edge

variable {source target source' target' : String} {a b : Edge}

/-- Whether two edges lead from the same node to the same node. -/
def SameEnds (a b : Edge) : Prop := a.source = b.source ∧ a.target = b.target

/-- Whether the same arrow belongs to the source of one edge and to the target of another, so that
both are named after the same three parts. -/
def Overlaps (a b : Edge) : Prop :=
  ∃ middle, b.source = idBetween a.source middle ∧ a.target = idBetween middle b.target

/-- Whether two edges cannot be told apart by what their ends are called. -/
def Indistinct (a b : Edge) : Prop := a.SameEnds b ∨ a.Overlaps b ∨ b.Overlaps a

/-- Whether a string contains an arrow. -/
def HasArrow (id : String) : Prop := ∃ before after, id = idBetween before after

theorem toList_idBetween (source target : String) :
    (idBetween source target).toList = source.toList ++ '-' :: '>' :: target.toList := by
  rw [idBetween, String.toList_append, String.toList_append, List.append_assoc]
  rfl

theorem idBetween_assoc (first second third : String) :
    idBetween first (idBetween second third) = idBetween (idBetween first second) third := by
  simp only [idBetween, String.append_assoc]

/-- Two arrows in one string do not share a character. -/
theorem arrow_split {between after after' : List Char}
    (h : '-' :: '>' :: after = between ++ '-' :: '>' :: after') :
    (between = [] ∧ after = after') ∨
      ∃ middle, between = '-' :: '>' :: middle ∧ after = middle ++ '-' :: '>' :: after' := by
  match between with
  | [] => exact .inl ⟨rfl, by simpa using h⟩
  | [_] => simp at h
  | dash :: head :: middle =>
      simp only [List.cons_append, List.cons.injEq] at h
      obtain ⟨rfl, rfl, rest⟩ := h
      exact .inr ⟨middle, rfl, rest⟩

/-- If the source of one edge begins with that of another, the ends are the same or overlap. -/
theorem of_idBetween_eq {between : List Char} (longer : source'.toList = source.toList ++ between)
    (rest : '-' :: '>' :: target.toList = between ++ '-' :: '>' :: target'.toList) :
    (source = source' ∧ target = target') ∨
      ∃ middle, source' = idBetween source middle ∧ target = idBetween middle target' := by
  rcases arrow_split rest with ⟨rfl, same⟩ | ⟨middle, rfl, same⟩
  · rw [List.append_nil] at longer
    exact .inl ⟨String.toList_inj.1 longer.symm, String.toList_inj.1 same⟩
  · refine .inr ⟨String.ofList middle, String.toList_inj.1 ?_, String.toList_inj.1 ?_⟩
    · rw [longer, toList_idBetween, String.toList_ofList]
    · rw [same, toList_idBetween, String.toList_ofList]

/-- Edges named after their ends have one id exactly if they are indistinct. -/
theorem id_eq_iff_indistinct (ha : a.id = idBetween a.source a.target)
    (hb : b.id = idBetween b.source b.target) : a.id = b.id ↔ a.Indistinct b := by
  rw [ha, hb]
  constructor
  · intro same
    have letters := congrArg String.toList same
    rw [toList_idBetween, toList_idBetween] at letters
    rcases List.append_eq_append_iff.1 letters with ⟨_, longer, rest⟩ | ⟨_, longer, rest⟩
    · rcases of_idBetween_eq longer rest with ends | overlap
      · exact .inl ends
      · exact .inr (.inl overlap)
    · rcases of_idBetween_eq longer rest with ends | overlap
      · exact .inl ⟨ends.1.symm, ends.2.symm⟩
      · exact .inr (.inr overlap)
  · rintro (⟨source, target⟩ | ⟨middle, source, target⟩ | ⟨middle, source, target⟩)
    · rw [source, target]
    · rw [source, target, idBetween_assoc]
    · rw [source, target, idBetween_assoc]

/-- Edges can be told apart if there are no arrows in their sources, or none in their targets. -/
theorem Indistinct.sameEnds (h : a.Indistinct b)
    (plain : (¬ HasArrow a.source ∧ ¬ HasArrow b.source) ∨
      (¬ HasArrow a.target ∧ ¬ HasArrow b.target)) : a.SameEnds b := by
  rcases h with same | ⟨middle, source, target⟩ | ⟨middle, source, target⟩
  · exact same
  · rcases plain with ⟨_, plain⟩ | ⟨plain, _⟩
    · exact absurd ⟨_, _, source⟩ plain
    · exact absurd ⟨_, _, target⟩ plain
  · rcases plain with ⟨plain, _⟩ | ⟨_, plain⟩
    · exact absurd ⟨_, _, source⟩ plain
    · exact absurd ⟨_, _, target⟩ plain

end Edge

/-- What a user adds to a canvas. -/
inductive Stroke where
  | node (node : Node)
  | connection (source target : String)

namespace Graph

variable {graph : Graph} {issue : Issue} {edge : Edge} {id source target : String}

/-- The graph with one stroke more. -/
def add (graph : Graph) : Stroke → Graph
  | .node node => graph.addNode node
  | .connection source target => graph.connect source target

/-- The graph that a list of strokes draws. -/
def draw (strokes : List Stroke) : Graph := strokes.foldl add empty

/-- Whether all edges are named after their ends. -/
def Named (graph : Graph) : Prop :=
  ∀ edge ∈ graph.edges, edge.id = Edge.idBetween edge.source edge.target

theorem Named.add (h : graph.Named) (stroke : Stroke) : (graph.add stroke).Named := by
  cases stroke with
  | node node => exact h
  | connection source target =>
      intro edge he
      rcases List.mem_append.1 he with he | he
      · exact h edge he
      · obtain rfl := List.mem_singleton.1 he
        rfl

theorem named_draw (strokes : List Stroke) : (draw strokes).Named := by
  have keeps (graph : Graph) (h : graph.Named) : (strokes.foldl Graph.add graph).Named := by
    induction strokes generalizing graph with
    | nil => exact h
    | cons stroke strokes ih => exact ih _ (h.add stroke)
  exact keeps empty fun _ he => absurd he List.not_mem_nil

theorem edgeId_of_mem_duplicateIssues {seen : List String} {nodes : List Node}
    (h : issue ∈ duplicateIssues seen nodes) : issue.edgeId = none := by
  induction nodes generalizing seen with
  | nil => simp [duplicateIssues] at h
  | cons node rest ih =>
      rw [duplicateIssues] at h
      split at h
      · rcases List.mem_cons.1 h with rfl | h
        · rfl
        · exact ih h
      · exact ih h

theorem edgeId_of_mem_extraEntryIssues (h : issue ∈ graph.extraEntryIssues) :
    issue.edgeId = none := by
  rw [extraEntryIssues] at h
  split at h
  · exact absurd h List.not_mem_nil
  · obtain ⟨extra, _, rfl⟩ := List.mem_map.1 h
    rfl

theorem edgeId_of_mem_connectivityIssues {wiring : Wiring} {node : Node}
    (h : issue ∈ wiring.connectivityIssues node) : issue.edgeId = none := by
  rcases List.mem_append.1 h with h | h
  · obtain ⟨_, h⟩ := List.mem_ite_nil_right.1 h
    exact (List.mem_singleton.1 h) ▸ rfl
  · obtain ⟨_, h⟩ := List.mem_ite_nil_right.1 h
    exact (List.mem_singleton.1 h) ▸ rfl

theorem edgeId_of_mem_ancestorIssues {wiring : Wiring} {node : Node}
    (h : issue ∈ wiring.ancestorIssues node) : issue.edgeId = none := by
  rw [Wiring.ancestorIssues] at h
  split at h
  · exact absurd h List.not_mem_nil
  · obtain ⟨_, h⟩ := List.mem_ite_nil_left.1 h
    exact (List.mem_singleton.1 h) ▸ rfl

/-- A warning names no edge. -/
theorem edgeId_of_mem_warnings (h : issue ∈ graph.warnings) : issue.edgeId = none := by
  rcases List.mem_append.1 h with h | h
  · rcases List.mem_append.1 h with h | h
    · exact edgeId_of_mem_extraEntryIssues h
    · obtain ⟨node, _, h⟩ := List.mem_flatMap.1 h
      exact edgeId_of_mem_connectivityIssues h
  · obtain ⟨node, _, h⟩ := List.mem_flatMap.1 h
    exact edgeId_of_mem_ancestorIssues h

theorem edgeId_of_mem_edgeIssues (h : issue ∈ graph.edgeIssues) :
    ∃ edge ∈ graph.edges, issue.edgeId = some edge.id := by
  obtain ⟨edge, he, h⟩ := List.mem_flatMap.1 h
  refine ⟨edge, he, ?_⟩
  rcases List.mem_append.1 h with h | h
  · rcases List.mem_append.1 h with h | h
    · obtain ⟨_, h⟩ := List.mem_ite_nil_left.1 h
      exact (List.mem_singleton.1 h) ▸ rfl
    · obtain ⟨_, h⟩ := List.mem_ite_nil_left.1 h
      exact (List.mem_singleton.1 h) ▸ rfl
  · exact (of_mem_connectionIssues h).2.2

/-- An error names no edge, or one of the graph. -/
theorem edgeId_of_mem_errors (h : issue ∈ graph.errors) :
    issue.edgeId = none ∨ ∃ edge ∈ graph.edges, issue.edgeId = some edge.id := by
  simp only [errors, List.mem_append] at h
  rcases h with (((h | h) | h) | h) | h
  · exact .inl (edgeId_of_mem_duplicateIssues h)
  · obtain ⟨_, h⟩ := List.mem_ite_nil_right.1 h
    exact .inl ((List.mem_singleton.1 h) ▸ rfl)
  · obtain ⟨_, h⟩ := List.mem_ite_nil_left.1 h
    exact .inl ((List.mem_singleton.1 h) ▸ rfl)
  · exact .inr (edgeId_of_mem_edgeIssues h)
  · obtain ⟨edge, hedge, rfl⟩ := List.mem_map.1 h
    have listed := (Wiring.closes_of_mem_cycleEdges hedge).1
    exact .inr ⟨edge, (mem_lenient_edges.1 listed).1, rfl⟩

/-- The edge id in an issue is that of an edge of the graph. -/
theorem exists_edge_of_edgeId (h : issue ∈ graph.errors ++ graph.warnings)
    (hid : issue.edgeId = some id) : ∃ edge ∈ graph.edges, edge.id = id := by
  have known : issue.edgeId = none ∨ ∃ edge ∈ graph.edges, issue.edgeId = some edge.id := by
    rcases List.mem_append.1 h with h | h
    · exact edgeId_of_mem_errors h
    · exact .inl (edgeId_of_mem_warnings h)
  rw [hid] at known
  obtain ⟨edge, he, same⟩ := known.resolve_left (Option.some_ne_none id)
  exact ⟨edge, he, (Option.some.inj same).symm⟩

/-- Whether a back edge between the nodes of an edge is reported at an edge that cannot be told from
it. -/
def ReportsAs (graph : Graph) (edge named : Edge) : Prop :=
  named.Indistinct edge ∧
    ∃ issue ∈ graph.errors, issue.code = .cycleDetected ∧ issue.edgeId = some edge.id ∧
      issue.nodeId = some named.target ∧
      issue.message =
        "Cycle detected: edge '" ++ edge.id ++ "' leads from '" ++ named.source ++ "' back to '"
          ++ named.target ++ "'"

theorem Named.exists_reportsAs (named : graph.Named) (he : edge ∈ (Wiring.lenient graph).edges)
    (back : (edge.source, edge.target) ∈ (Wiring.lenient graph).backEdges) :
    ∃ reported ∈ graph.edges, graph.ReportsAs edge reported := by
  obtain ⟨latest, hlatest, source, target, reported, hreported, sameId⟩ :=
    Wiring.exists_mem_cycleEdges he back
  have drawn : edge ∈ graph.edges := (mem_lenient_edges.1 he).1
  have latestDrawn : latest ∈ graph.edges := (mem_lenient_edges.1 hlatest).1
  have listed : reported ∈ graph.edges :=
    (mem_lenient_edges.1 (Wiring.closes_of_mem_cycleEdges hreported).1).1
  -- Parallel edges have one id, so the latest stands for all of them.
  have same : reported.id = edge.id := by
    rw [sameId, named latest latestDrawn, source, target, named edge drawn]
  refine ⟨reported, listed,
    (Edge.id_eq_iff_indistinct (named _ listed) (named _ drawn)).1 same, ?_⟩
  obtain ⟨hissue, code⟩ := cycleDetected_iff.2 (List.mem_map_of_mem hreported)
  exact ⟨_, hissue, code, same ▸ rfl, rfl, same ▸ rfl⟩

/-- On a canvas drawn by adding and connecting nodes, two edges have one id exactly if their ends
are the same or overlap. So the edges with an id that an issue names are indistinct, and a back edge
is reported, if not at its own ends, at those of an edge that overlaps with it. If no edge starts at
a node with an arrow in its id, or none ends at one, then no edges overlap. -/
theorem edge_ids_of_drawn (strokes : List Stroke) :
    let graph := draw strokes
    (∀ a ∈ graph.edges, ∀ b ∈ graph.edges, a.id = b.id ↔ a.Indistinct b) ∧
    (∀ issue ∈ graph.errors ++ graph.warnings, ∀ id, issue.edgeId = some id →
      ∃ named ∈ graph.edges, ∀ other ∈ graph.edges, other.id = id ↔ named.Indistinct other) ∧
    (∀ edge ∈ (Wiring.lenient graph).edges,
      (edge.source, edge.target) ∈ (Wiring.lenient graph).backEdges →
      ∃ reported ∈ graph.edges, graph.ReportsAs edge reported) ∧
    ((∀ edge ∈ graph.edges, ¬ Edge.HasArrow edge.source) ∨
        (∀ edge ∈ graph.edges, ¬ Edge.HasArrow edge.target) →
      ∀ a ∈ graph.edges, ∀ b ∈ graph.edges, a.Indistinct b → a.SameEnds b) := by
  intro graph
  have named : graph.Named := named_draw strokes
  have criterion : ∀ a ∈ graph.edges, ∀ b ∈ graph.edges, a.id = b.id ↔ a.Indistinct b :=
    fun a ha b hb => Edge.id_eq_iff_indistinct (named a ha) (named b hb)
  refine ⟨criterion, ?_, fun edge he back => named.exists_reportsAs he back, ?_⟩
  · intro issue hissue id hid
    obtain ⟨edge, he, rfl⟩ := exists_edge_of_edgeId hissue hid
    exact ⟨edge, he, fun other ho => eq_comm.trans (criterion edge he other ho)⟩
  · intro plain a ha b hb alike
    apply alike.sameEnds
    exact plain.imp (fun plain => ⟨plain a ha, plain b hb⟩) fun plain => ⟨plain a ha, plain b hb⟩

/-- Two pairs of nodes that feed each other, with arrows in the ids of two of them. -/
def braid : List Stroke :=
  [.node (.ofId "c" .agent), .node (.ofId "a->b" .agent), .node (.ofId "b->c" .agent),
    .node (.ofId "a" .agent), .connection "c" "a->b", .connection "a->b" "c",
    .connection "b->c" "a", .connection "a" "b->c"]

/-- Two edges of this canvas have one id and no end in common. Both are back edges, but only one is
reported. -/
theorem braid_ids_collide :
    ∃ a ∈ (draw braid).edges, ∃ b ∈ (draw braid).edges,
      a.id = b.id ∧ a.source ≠ b.source ∧ a.target ≠ b.target ∧
      (a.source, a.target) ∈ (Wiring.lenient (draw braid)).backEdges ∧
      (b.source, b.target) ∈ (Wiring.lenient (draw braid)).backEdges ∧
      ∀ issue ∈ (draw braid).errors, issue.code = .cycleDetected →
        issue.nodeId = some a.target := by
  decide +kernel

end Graph

end Canvas
