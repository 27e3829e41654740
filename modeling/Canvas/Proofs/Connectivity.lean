import Canvas.Proofs.Redrawing

/-!
# Canvases without loose ends

A warning about missing connections looks at one node and its edges. On a valid canvas that gets no
such warning, every node lies all the same between an entry node and a terminal one: connections
climb along the stages of the node types, so whoever goes back from a node, or on from it, arrives.

The warnings about ancestors that are left then concern nodes of two types only. What embeds is fed
from an entry node in the end, and what retrieves can be fed by nothing but what embeds.
-/

namespace Canvas

namespace NodeType

theorem stage_le (type : NodeType) : type.stage ≤ 7 := by
  cases type <;> decide

theorem eq_embed_of_feeds_retrieve {source : NodeType} (h : retrieve ∈ source.targets) :
    source = embed := by
  revert h
  cases source <;> decide

end NodeType

namespace Wiring

variable {node : Node}

/-- An edge leads to a node that is no entry node, or its absence is reported. -/
theorem fed_or_reported (wiring : Wiring) (later : node.type.isEntry = false) :
    (∃ edge ∈ wiring.edges, edge.target = node.id) ∨
    ∃ issue ∈ wiring.connectivityIssues node, issue.code = .noIncomingEdges := by
  cases feeding : wiring.incoming node.id with
  | nil =>
      right
      rw [connectivityIssues, later, feeding]
      exact ⟨_, List.mem_append_left _ List.mem_cons_self, rfl⟩
  | cons edge rest => exact .inl ⟨edge, mem_incoming.1 (feeding ▸ List.mem_cons_self)⟩

/-- An edge leads from a node that is no terminal node, or its absence is reported. -/
theorem used_or_reported (wiring : Wiring) (open_ : node.type.isTerminal = false) :
    (∃ edge ∈ wiring.edges, edge.source = node.id) ∨
    ∃ issue ∈ wiring.connectivityIssues node, issue.code = .noOutgoingEdges := by
  cases leaving : wiring.outgoing node.id with
  | nil =>
      right
      rw [connectivityIssues, open_, leaving]
      exact ⟨_, List.mem_append_right _ List.mem_cons_self, rfl⟩
  | cons edge rest => exact .inl ⟨edge, mem_outgoing.1 (leaving ▸ List.mem_cons_self)⟩

end Wiring

namespace Graph

variable {graph : Graph} {node : Node} {issue : Issue} {edge : Edge}

/-- Whether no node of a canvas lacks edges that it could have. -/
structure Connected (graph : Graph) : Prop where
  runnable : graph.Runnable
  fed : ∀ node ∈ graph.nodes, node.type.isEntry = false →
    ∃ edge ∈ graph.edges, edge.target = node.id
  used : ∀ node ∈ graph.nodes, node.type.isTerminal = false →
    ∃ edge ∈ graph.edges, edge.source = node.id

/-- Whether a node lies on a walk from an entry node to a terminal one. -/
def LiesBetween (graph : Graph) (node : Node) : Prop :=
  ∃ first ∈ graph.nodes, ∃ last ∈ graph.nodes, ∃ walk : List Edge,
    first.type = .query ∧ (last.type = .generate ∨ last.type = .agent) ∧
    Walk first.id walk last.id ∧ walk ⊆ graph.edges ∧
    ∃ edge ∈ walk, edge.source = node.id ∨ edge.target = node.id

/-- The warnings of a canvas, with those about single nodes in the order of the nodes. -/
theorem warnings_perm (graph : Graph) :
    graph.warnings.Perm
      (graph.extraEntryIssues ++
        ((Wiring.lenient graph).nodes.flatMap (Wiring.lenient graph).connectivityIssues ++
          (Wiring.lenient graph).nodes.flatMap (Wiring.lenient graph).ancestorIssues)) := by
  have nodes := (Wiring.lenient graph).nodesById_perm
  rw [warnings_eq]
  exact ((nodes.flatMap_right _).append (nodes.flatMap_right _)).append_left _

theorem Runnable.lenient_nodes (h : graph.Runnable) :
    (Wiring.lenient graph).nodes = graph.nodes :=
  (Wiring.nodes_lenient graph).trans (firsts_eq_self h.distinct)

theorem Runnable.mem_lenient_edges (h : graph.Runnable) :
    edge ∈ (Wiring.lenient graph).edges ↔ edge ∈ graph.edges := by
  rw [Graph.mem_lenient_edges]
  exact and_iff_left_of_imp fun he => isLive_iff.2 (h.live edge he)

/-- What is found about the edges of a node is a warning. -/
theorem Runnable.code_ne_of_mem_connectivityIssues (h : graph.Runnable) {code : IssueCode}
    (quiet : graph.validate.hasWarning code = false) (hnode : node ∈ graph.nodes)
    (hissue : issue ∈ (Wiring.lenient graph).connectivityIssues node) : issue.code ≠ code := by
  have warned : issue ∈ graph.warnings := by
    refine graph.warnings_perm.mem_iff.2 (List.mem_append_right _ (List.mem_append_left _ ?_))
    exact List.mem_flatMap.2 ⟨node, h.lenient_nodes ▸ hnode, hissue⟩
  simpa using List.any_eq_false.1 quiet issue warned

/-- A valid canvas without a warning about missing edges is connected. -/
theorem Runnable.connected (h : graph.Runnable)
    (incoming : graph.validate.hasWarning .noIncomingEdges = false)
    (outgoing : graph.validate.hasWarning .noOutgoingEdges = false) : graph.Connected := by
  refine ⟨h, fun node hnode later => ?fed, fun node hnode open_ => ?used⟩
  case fed =>
    rcases (Wiring.lenient graph).fed_or_reported later with
      ⟨edge, he, target⟩ | ⟨issue, hissue, code⟩
    · exact ⟨edge, h.mem_lenient_edges.1 he, target⟩
    · exact absurd code (h.code_ne_of_mem_connectivityIssues incoming hnode hissue)
  case used =>
    rcases (Wiring.lenient graph).used_or_reported open_ with
      ⟨edge, he, source⟩ | ⟨issue, hissue, code⟩
    · exact ⟨edge, h.mem_lenient_edges.1 he, source⟩
    · exact absurd code (h.code_ne_of_mem_connectivityIssues outgoing hnode hissue)

namespace Connected

/-- A node that is no entry node is fed by one of a type that may feed it. -/
theorem exists_source (h : graph.Connected) (hnode : node ∈ graph.nodes)
    (later : node.type.isEntry = false) :
    ∃ source ∈ graph.nodes, node.type ∈ source.type.targets ∧
      ∃ walk, Walk source.id walk node.id ∧ walk ⊆ graph.edges := by
  obtain ⟨edge, he, target⟩ := h.fed node hnode later
  obtain ⟨source, hsource, id⟩ := List.mem_map.1 (h.runnable.live edge he).1
  have hwalk : Walk source.id [edge] node.id := id ▸ target ▸ .single edge
  exact ⟨source, hsource, h.runnable.allowed edge he source hsource node hnode id target.symm,
    [edge], hwalk, List.cons_subset.2 ⟨he, List.nil_subset _⟩⟩

/-- A node that is no terminal node feeds one of a type that it may feed. -/
theorem exists_target (h : graph.Connected) (hnode : node ∈ graph.nodes)
    (open_ : node.type.isTerminal = false) :
    ∃ target ∈ graph.nodes, target.type ∈ node.type.targets ∧
      ∃ walk, Walk node.id walk target.id ∧ walk ⊆ graph.edges := by
  obtain ⟨edge, he, source⟩ := h.used node hnode open_
  obtain ⟨target, htarget, id⟩ := List.mem_map.1 (h.runnable.live edge he).2
  have hwalk : Walk node.id [edge] target.id := source ▸ id ▸ .single edge
  exact ⟨target, htarget, h.runnable.allowed edge he node hnode target htarget source.symm id,
    [edge], hwalk, List.cons_subset.2 ⟨he, List.nil_subset _⟩⟩

/-- Going back from a node leads to an entry node. -/
theorem exists_walk_from_entry (h : graph.Connected) {node : Node} (hnode : node ∈ graph.nodes)
    (later : node.type.isEntry = false) :
    ∃ first ∈ graph.nodes, first.type = .query ∧
      ∃ walk, Walk first.id walk node.id ∧ walk ⊆ graph.edges := by
  obtain ⟨source, hsource, allowed, last, hlast, within⟩ := h.exists_source hnode later
  have back : source.type.stage < node.type.stage :=
    NodeType.stage_lt_of_feeds (NodeType.feeds_iff.2 allowed)
  cases entry : source.type.isEntry with
  | true => exact ⟨source, hsource, NodeType.isEntry_iff.1 entry, last, hlast, within⟩
  | false =>
      obtain ⟨first, hfirst, query, walk, hwalk, inside⟩ := h.exists_walk_from_entry hsource entry
      exact ⟨first, hfirst, query, walk ++ last, hwalk.append hlast,
        List.append_subset.2 ⟨inside, within⟩⟩
termination_by node.type.stage

/-- Going on from a node leads to a terminal node. -/
theorem exists_walk_to_terminal (h : graph.Connected) {node : Node} (hnode : node ∈ graph.nodes)
    (open_ : node.type.isTerminal = false) :
    ∃ last ∈ graph.nodes, (last.type = .generate ∨ last.type = .agent) ∧
      ∃ walk, Walk node.id walk last.id ∧ walk ⊆ graph.edges := by
  obtain ⟨target, htarget, allowed, first, hfirst, within⟩ := h.exists_target hnode open_
  have forward : node.type.stage < target.type.stage :=
    NodeType.stage_lt_of_feeds (NodeType.feeds_iff.2 allowed)
  have bound := target.type.stage_le
  cases terminal : target.type.isTerminal with
  | true => exact ⟨target, htarget, NodeType.isTerminal_iff.1 terminal, first, hfirst, within⟩
  | false =>
      obtain ⟨last, hlast, ends, walk, hwalk, inside⟩ := h.exists_walk_to_terminal htarget terminal
      exact ⟨last, hlast, ends, first ++ walk, hfirst.append hwalk,
        List.append_subset.2 ⟨within, inside⟩⟩
termination_by 7 - node.type.stage

theorem liesBetween (h : graph.Connected) (hnode : node ∈ graph.nodes) :
    graph.LiesBetween node := by
  cases entry : node.type.isEntry with
  | true =>
      have query := NodeType.isEntry_iff.1 entry
      obtain ⟨last, hlast, ends, walk, hwalk, within⟩ :=
        h.exists_walk_to_terminal hnode (by rw [query]; rfl)
      obtain ⟨edge, hedge, source⟩ := hwalk.exists_first
      exact ⟨node, hnode, last, hlast, walk, query, ends, hwalk, within, edge, hedge, .inl source⟩
  | false =>
      obtain ⟨first, hfirst, query, walk, hwalk, within⟩ := h.exists_walk_from_entry hnode entry
      obtain ⟨edge, hedge, target⟩ := hwalk.exists_last
      cases terminal : node.type.isTerminal with
      | true =>
          exact ⟨first, hfirst, node, hnode, walk, query, NodeType.isTerminal_iff.1 terminal, hwalk,
            within, edge, hedge, .inr target⟩
      | false =>
          obtain ⟨last, hlast, ends, rest, hrest, inside⟩ :=
            h.exists_walk_to_terminal hnode terminal
          exact ⟨first, hfirst, last, hlast, walk ++ rest, query, ends, hwalk.append hrest,
            List.append_subset.2 ⟨within, inside⟩, edge, List.mem_append_left _ hedge, .inr target⟩

/-- A node at the start of a walk is an ancestor of the node at its end. -/
theorem mem_ancestors (h : graph.Connected) {first : Node} {walk : List Edge}
    (hfirst : first ∈ graph.nodes) (hwalk : Walk first.id walk node.id)
    (within : walk ⊆ graph.edges) : first ∈ (Wiring.lenient graph).ancestors node.id := by
  have inside : walk ⊆ (Wiring.lenient graph).edges := fun edge he =>
    h.runnable.mem_lenient_edges.2 (within he)
  refine Wiring.mem_ancestors.2
    ⟨?_, fun same => ?_, Wiring.leads_iff_exists_walk.2 ⟨walk, hwalk, inside⟩⟩
  · rw [h.runnable.lenient_nodes]
    exact hfirst
  · have climbs := hwalk.rank_lt graph.stageOf fun edge he => h.runnable.stageOf_lt (within he)
    rw [same] at climbs
    exact Nat.lt_irrefl _ climbs

/-- A node that embeds has an entry node among its ancestors, and one that retrieves has one that
embeds. -/
theorem exists_expected_ancestor (h : graph.Connected) (hnode : node ∈ graph.nodes)
    {expected : NodeType} (expects : node.type.expectedAncestor = some expected)
    (early : node.type ≠ .rerank ∧ node.type ≠ .judge) :
    ∃ ancestor ∈ (Wiring.lenient graph).ancestors node.id, ancestor.type = expected := by
  have later : node.type.isEntry = false := by
    cases type : node.type
    case query => simp [type, NodeType.expectedAncestor] at expects
    all_goals rfl
  cases type : node.type
  case embed =>
    rw [type] at expects
    obtain rfl := Option.some.inj expects
    obtain ⟨first, hfirst, query, walk, hwalk, within⟩ := h.exists_walk_from_entry hnode later
    exact ⟨first, h.mem_ancestors hfirst hwalk within, query⟩
  case retrieve =>
    rw [type] at expects
    obtain rfl := Option.some.inj expects
    obtain ⟨source, hsource, allowed, walk, hwalk, within⟩ := h.exists_source hnode later
    rw [type] at allowed
    exact ⟨source, h.mem_ancestors hsource hwalk within,
      NodeType.eq_embed_of_feeds_retrieve allowed⟩
  case rerank => exact absurd type early.1
  case judge => exact absurd type early.2
  all_goals simp [type, NodeType.expectedAncestor] at expects

/-- An ancestor can be missing only where documents are put in order or judged. -/
theorem concerns_rerank_or_judge (h : graph.Connected) (hissue : issue ∈ graph.warnings)
    (code : issue.code = .missingAncestor) :
    ∃ node ∈ graph.nodes, issue.nodeId = some node.id ∧
      (node.type = .rerank ∨ node.type = .judge) := by
  rcases List.mem_append.1 (graph.warnings_perm.mem_iff.1 hissue) with extra | hissue
  · rw [code_of_mem_extraEntryIssues extra] at code
    contradiction
  rcases List.mem_append.1 hissue with edges | ancestors
  · obtain ⟨node, -, edges⟩ := List.mem_flatMap.1 edges
    rcases Wiring.code_of_mem_connectivityIssues edges with other | other
    · rw [other] at code
      contradiction
    · rw [other] at code
      contradiction
  · obtain ⟨node, listed, missing⟩ := List.mem_flatMap.1 ancestors
    have hnode : node ∈ graph.nodes := h.runnable.lenient_nodes ▸ listed
    obtain ⟨-, place, expected, expects, none⟩ := Wiring.of_mem_ancestorIssues missing
    refine ⟨node, hnode, place, ?_⟩
    by_contra early
    obtain ⟨ancestor, hancestor, type⟩ :=
      h.exists_expected_ancestor hnode expects (not_or.1 early)
    exact none ancestor hancestor type

end Connected

/-- On a valid canvas without a warning about missing edges every node lies on a walk from an entry
node to a terminal node, and what warnings about ancestors there are concern nodes that rerank or
judge. -/
theorem connected_of_no_warnings (valid : graph.validate.valid = true)
    (incoming : graph.validate.hasWarning .noIncomingEdges = false)
    (outgoing : graph.validate.hasWarning .noOutgoingEdges = false) :
    (∀ node ∈ graph.nodes, graph.LiesBetween node) ∧
    ∀ issue ∈ graph.validate.warnings, issue.code = .missingAncestor →
      ∃ node ∈ graph.nodes, issue.nodeId = some node.id ∧
        (node.type = .rerank ∨ node.type = .judge) := by
  have connected := (valid_iff_runnable.1 valid).connected incoming outgoing
  exact ⟨fun node hnode => connected.liesBetween hnode,
    fun issue hissue code => connected.concerns_rerank_or_judge hissue code⟩

/-- Documents are judged that nothing retrieves, beside a branch that retrieves some. The judge is
warned about, and lies between the question and the answer all the same. -/
theorem connected_judge_without_documents :
    let judge : Node := .ofId "verdict" .judge
    let graph : Graph :=
      ⟨[.ofId "answer" .agent, judge, .ofId "search" .retrieve, .ofId "vector" .embed,
          .ofId "question" .query],
        [⟨"e1", "search", "answer"⟩, ⟨"e2", "vector", "search"⟩, ⟨"e3", "question", "vector"⟩,
          ⟨"e4", "verdict", "answer"⟩, ⟨"e5", "question", "verdict"⟩]⟩
    (graph.validate.valid = true ∧ graph.validate.hasWarning .noIncomingEdges = false ∧
        graph.validate.hasWarning .noOutgoingEdges = false) ∧
      graph.LiesBetween judge ∧
      ∃ issue ∈ graph.validate.warnings, issue.code = .missingAncestor ∧
        ∃ node ∈ graph.nodes, issue.nodeId = some node.id ∧
          (node.type = .rerank ∨ node.type = .judge) := by
  intro judge graph
  have valid : graph.validate.valid = true := by decide +kernel
  have incoming : graph.validate.hasWarning .noIncomingEdges = false :=
    graph.warnings_perm.any_eq.trans (by decide +kernel)
  have outgoing : graph.validate.hasWarning .noOutgoingEdges = false :=
    graph.warnings_perm.any_eq.trans (by decide +kernel)
  have warned : graph.validate.hasWarning .missingAncestor = true :=
    graph.warnings_perm.any_eq.trans (by decide +kernel)
  obtain ⟨between, concerns⟩ := connected_of_no_warnings valid incoming outgoing
  obtain ⟨issue, hissue, code⟩ := List.any_eq_true.1 warned
  have missing : issue.code = .missingAncestor := of_decide_eq_true code
  refine ⟨⟨valid, incoming, outgoing⟩, between judge (by simp [graph]), issue, hissue, missing, ?_⟩
  exact concerns issue hissue missing

end Graph

end Canvas
