import Mathlib.Data.List.Chain
import Mathlib.Data.List.Nodup
import Mathlib.Logic.Relation
import Tabula.Schema.Cycle

/-! # What a walk over a graph reports

Every report of a walk is a circuit of the graph (`Tabula.Graph.isCircuit_of_mem_cycles`), because
the nodes of its path lead to one another (`Tabula.Graph.Path.Traced`). No circuit goes unnoticed,
though not each of them is reported: a node is left when all its edges lead to nodes that were left
before or are reported (`Tabula.Graph.Settled`), so that no unreported edges lead back
(`Tabula.Graph.exists_report`). Every part of the graph whose nodes reach each other along a circuit
therefore has a report of its own.
-/

namespace Tabula.Graph

variable {g : Graph} {fresh done : List String} {found : List (List String)} {path : Path}
  {node target : String} {targets : List String}

/-- An edge leads from one node to another. -/
def Leads (g : Graph) (node target : String) : Prop :=
  target ∈ g.targets node

/-- A closed walk along edges that meets no node twice but the one it begins and ends with. -/
def IsCircuit (g : Graph) (circuit : List String) : Prop :=
  ∃ node inner, circuit = node :: inner ++ [node] ∧ (node :: inner).Nodup ∧
    circuit.IsChain g.Leads

/-- The nodes of a circuit reach each other. -/
theorem IsCircuit.reaches {circuit : List String} (closed : g.IsCircuit circuit) {a b : String}
    (memberA : a ∈ circuit) (memberB : b ∈ circuit) : Relation.TransGen g.Leads a b := by
  obtain ⟨node, inner, rfl, -, chain⟩ := closed
  have ordered : (node :: inner ++ [node]).Pairwise (Relation.TransGen g.Leads) :=
    (chain.imp fun _ _ => Relation.TransGen.single).pairwise
  have fromNode : ∀ c ∈ inner ++ [node], Relation.TransGen g.Leads node c :=
    fun c member => List.rel_of_pairwise_cons ordered member
  have toNode : ∀ c ∈ node :: inner, Relation.TransGen g.Leads c node :=
    fun c member => (List.pairwise_append.mp ordered).2.2 c member node List.mem_cons_self
  refine (toNode a ?_).trans (fromNode b ?_)
  · simpa [or_comm] using memberA
  · simpa [or_comm] using memberB

/-- Edges lead to nodes. -/
def Closed (g : Graph) : Prop :=
  ∀ node target, g.Leads node target → target ∈ g.nodes

/-- What is reached along edges is a node. -/
theorem Closed.mem_nodes (closed : g.Closed) (reached : Relation.TransGen g.Leads node target) :
    target ∈ g.nodes := by
  obtain ⟨last, -, edge⟩ := Relation.TransGen.tail'_iff.mp reached
  exact closed last target edge

/-! ## The path of a walk -/

namespace Path

/-- The nodes of a path, innermost first. -/
def names (path : Path) : List String :=
  path.map (·.1)

/-- A path holds the nodes on it. -/
theorem holds_iff : path.holds node = true ↔ node ∈ names path := by
  simp only [holds, names, List.any_eq_true, beq_iff_eq, List.mem_map]

/-- A path along edges: each node leads to the next inner one and to the targets still to follow,
and no node stands on it twice. -/
structure Traced (g : Graph) (path : Path) : Prop where
  linked : (names path).IsChain fun inner outer => g.Leads outer inner
  distinct : (names path).Nodup
  ahead : ∀ entry ∈ path, ∀ target ∈ entry.2, g.Leads entry.1 target

namespace Traced

/-- There is no edge on an empty path. -/
theorem nil (g : Graph) : Traced g [] :=
  ⟨.nil, List.nodup_nil, by simp⟩

/-- A path of one node, with all its targets still to follow. -/
theorem single (g : Graph) (node : String) : Traced g [(node, g.targets node)] :=
  ⟨.singleton _, List.nodup_singleton _, by simp [Leads]⟩

private theorem pop (traced : Traced g ((node, targets) :: path)) : Traced g path :=
  ⟨traced.linked.tail, traced.distinct.of_cons,
    fun entry member => traced.ahead entry (List.mem_cons_of_mem _ member)⟩

/-- A target may be passed over. -/
theorem pass (traced : Traced g ((node, target :: targets) :: path)) :
    Traced g ((node, targets) :: path) := by
  refine ⟨traced.linked, traced.distinct, fun entry member other pending => ?_⟩
  rcases List.mem_cons.mp member with rfl | outer
  · exact traced.ahead _ List.mem_cons_self other (List.mem_cons_of_mem _ pending)
  · exact traced.ahead entry (List.mem_cons_of_mem _ outer) other pending

/-- The innermost node leads to the target that is to follow. -/
theorem leads (traced : Traced g ((node, target :: targets) :: path)) : g.Leads node target :=
  traced.ahead _ List.mem_cons_self target List.mem_cons_self

/-- A path goes on to a target that is not on it. -/
theorem push (traced : Traced g ((node, target :: targets) :: path))
    (new : target ∉ names ((node, targets) :: path)) :
    Traced g ((target, g.targets target) :: (node, targets) :: path) := by
  refine ⟨List.IsChain.cons_cons traced.leads traced.pass.linked,
    List.nodup_cons.mpr ⟨new, traced.pass.distinct⟩, fun entry member other pending => ?_⟩
  rcases List.mem_cons.mp member with rfl | outer
  · exact pending
  · exact traced.pass.ahead entry outer other pending

end Traced

/-- A node of a path splits it into the inner nodes, from which it is told apart, and the outer
ones. -/
theorem names_split (present : node ∈ names path) :
    ∃ outer, names path = names (path.takeWhile (·.1 != node)) ++ node :: outer := by
  induction path with
  | nil => cases present
  | cons entry path ih =>
      by_cases here : entry.1 = node
      · refine ⟨names path, ?_⟩
        rw [List.takeWhile_cons_of_neg (by simp [here])]
        exact congrArg (· :: names path) here
      · have later : node ∈ names path :=
          (List.mem_cons.mp present).resolve_left (Ne.symm here)
        obtain ⟨outer, split⟩ := ih later
        refine ⟨outer, ?_⟩
        rw [List.takeWhile_cons_of_pos (by simpa using here)]
        exact congrArg (entry.1 :: ·) split

private theorem since_eq (path : Path) (node : String) :
    path.since node = node :: (names (path.takeWhile (·.1 != node))).reverse :=
  rfl

/-- An edge from the innermost node back to a node of the path closes a circuit. -/
theorem Traced.isCircuit (traced : Traced g ((node, target :: targets) :: path))
    (present : target ∈ names ((node, targets) :: path)) :
    g.IsCircuit (since ((node, targets) :: path) target ++ [target]) := by
  have edge := traced.leads
  have inward := traced.pass
  obtain ⟨outer, split⟩ := names_split present
  rw [since_eq]
  generalize names (List.takeWhile _ ((node, targets) :: path)) = inner at split
  have linked := split ▸ inward.linked
  have distinct := split ▸ inward.distinct
  rw [List.append_cons] at linked distinct
  have chain : (target :: inner.reverse).IsChain g.Leads := by
    rw [← List.reverse_concat', List.isChain_reverse]
    exact linked.left_of_append
  have innermost : (target :: inner.reverse).getLast? = some node := by
    rw [← List.reverse_concat', List.getLast?_reverse]
    cases inner <;> exact congrArg List.head? split.symm
  refine ⟨target, inner.reverse, rfl, ?_, List.isChain_append.mpr ⟨chain, .singleton _, ?_⟩⟩
  · have reversed := List.nodup_reverse.mpr (List.nodup_append.mp distinct).1
    simpa only [List.reverse_append, List.reverse_singleton, List.singleton_append] using reversed
  · intro last isLast next isNext
    obtain rfl := Option.some.inj (innermost.symm.trans isLast)
    obtain rfl := Option.some.inj isNext
    exact edge

/-- Both ends of the edge are on the circuit that it closes. -/
theorem mem_circuit (node target : String) (targets : List String) (path : Path) :
    node ∈ since ((node, targets) :: path) target ++ [target] ∧
      target ∈ since ((node, targets) :: path) target ++ [target] := by
  refine ⟨?_, List.mem_append_right _ List.mem_cons_self⟩
  by_cases same : node = target
  · exact same ▸ List.mem_append_right _ List.mem_cons_self
  · rw [since_eq, List.takeWhile_cons_of_pos (by simpa using same)]
    simp [names]

end Path

/-! ## Reports are circuits -/

/-- A walk along a traced path reports circuits only. -/
theorem isCircuit_of_mem_walk (fresh : List String) (path : Path) (traced : Path.Traced g path) :
    ∀ circuit ∈ (g.walk fresh path).1, g.IsCircuit circuit := by
  fun_induction g.walk fresh path with
  | case1 fresh => simp
  | case2 fresh node path ih => exact ih traced.pop
  | case3 fresh node target targets path present found ih =>
      intro circuit member
      rcases List.mem_cons.mp member with rfl | later
      · exact traced.isCircuit (Path.holds_iff.mp present)
      · exact ih traced.pass circuit later
  | case4 fresh node target targets path absent met ih =>
      exact ih (traced.push fun present => absent (Path.holds_iff.mpr present))
  | case5 fresh node target targets path absent old ih => exact ih traced.pass

private theorem isCircuit_of_mem_cyclesFrom (fresh starts : List String) :
    ∀ circuit ∈ g.cyclesFrom fresh starts, g.IsCircuit circuit := by
  fun_induction g.cyclesFrom fresh starts with
  | case1 fresh => simp
  | case2 fresh start starts met found ih =>
      intro circuit member
      rcases List.mem_append.mp member with here | later
      · exact isCircuit_of_mem_walk _ _ (.single g start) circuit here
      · exact ih circuit later
  | case3 fresh start starts old ih => exact ih

/-- **Reports are circuits.** -/
theorem isCircuit_of_mem_cycles : ∀ circuit ∈ g.cycles, g.IsCircuit circuit :=
  isCircuit_of_mem_cyclesFrom g.nodes g.nodes

/-! ## Circuits are reported -/

/-- Some report holds both nodes. -/
def Together (found : List (List String)) (node target : String) : Prop :=
  ∃ circuit ∈ found, node ∈ circuit ∧ target ∈ circuit

/-- The nodes that were left, the last one first: each leads to nodes left before it, but for edges
that are reported. -/
def Settled (g : Graph) (found : List (List String)) : List String → Prop
  | [] => True
  | node :: done =>
    (∀ target, g.Leads node target → target ∈ done ∨ Together found node target) ∧
      Settled g found done

/-- The nodes on the path: each leads to targets still to follow, to nodes that were left, and to
the next inner node, but for edges that are reported. -/
def Scanned (g : Graph) (found : List (List String)) (done : List String) :
    Option String → Path → Prop
  | _, [] => True
  | inner, (node, targets) :: path =>
    (∀ target, g.Leads node target →
      target ∈ targets ∨ target ∈ done ∨ inner = some target ∨ Together found node target) ∧
      Scanned g found done (some node) path

/-- What a walk keeps: every node is fresh, on the path, or left, and the edges of the latter two
are accounted for. -/
structure Covered (g : Graph) (found : List (List String)) (fresh : List String) (path : Path)
    (done : List String) : Prop where
  settled : Settled g found done
  scanned : Scanned g found done none path
  known : ∀ node ∈ g.nodes, node ∈ fresh ∨ node ∈ Path.names path ∨ node ∈ done

/-- Edges stay accounted for when more nodes were left, the next inner one among them. -/
theorem Scanned.mono {more : List String} {inner outer : Option String}
    (scanned : Scanned g found done inner path) (kept : ∀ other ∈ done, other ∈ more)
    (left : ∀ other, inner = some other → outer = some other ∨ other ∈ more) :
    Scanned g found more outer path := by
  induction path generalizing inner outer with
  | nil => trivial
  | cons entry path ih =>
      refine ⟨fun other edge => ?_, ih scanned.2 fun _ same => Or.inl same⟩
      rcases scanned.1 other edge with ahead | old | inside | reported
      · exact Or.inl ahead
      · exact Or.inr (Or.inl (kept other old))
      · rcases left other inside with inside | old
        · exact Or.inr (Or.inr (Or.inl inside))
        · exact Or.inr (Or.inl old)
      · exact Or.inr (Or.inr (Or.inr reported))

namespace Covered

/-- A walk begins at a node. -/
theorem start (covered : Covered g found fresh [] done) (node : String) :
    Covered g found (fresh.erase node) [(node, g.targets node)] done := by
  refine ⟨covered.settled, ⟨fun _ edge => Or.inl edge, trivial⟩, fun other member => ?_⟩
  rcases covered.known other member with new | onPath | old
  · by_cases same : other = node
    · exact Or.inr (Or.inl (List.mem_singleton.mpr same))
    · exact Or.inl ((List.mem_erase_of_ne same).mpr new)
  · cases onPath
  · exact Or.inr (Or.inr old)

/-- A node whose targets are all followed is left. -/
theorem pop (covered : Covered g found fresh ((node, []) :: path) done) :
    Covered g found fresh path (node :: done) := by
  obtain ⟨settled, scanned, known⟩ := covered
  refine ⟨⟨fun other edge => ?_, settled⟩, ?_, fun other member => ?_⟩
  · rcases scanned.1 other edge with ahead | old | inside | reported
    · cases ahead
    · exact Or.inl old
    · cases inside
    · exact Or.inr reported
  · refine scanned.2.mono (fun other old => List.mem_cons_of_mem _ old) fun other same => ?_
    exact Or.inr (Option.some.inj same ▸ List.mem_cons_self)
  · rcases known other member with new | onPath | old
    · exact Or.inl new
    · rcases List.mem_cons.mp onPath with rfl | outer
      · exact Or.inr (Or.inr List.mem_cons_self)
      · exact Or.inr (Or.inl outer)
    · exact Or.inr (Or.inr (List.mem_cons_of_mem _ old))

/-- An edge to a node that was left, or one that is reported, need not be followed. -/
theorem pass (covered : Covered g found fresh ((node, target :: targets) :: path) done)
    (accounted : target ∈ done ∨ Together found node target) :
    Covered g found fresh ((node, targets) :: path) done := by
  obtain ⟨settled, scanned, known⟩ := covered
  refine ⟨settled, ⟨fun other edge => ?_, scanned.2⟩, known⟩
  rcases scanned.1 other edge with ahead | old | inside | reported
  · rcases List.mem_cons.mp ahead with rfl | later
    · exact Or.inr (accounted.imp_right Or.inr)
    · exact Or.inl later
  · exact Or.inr (Or.inl old)
  · cases inside
  · exact Or.inr (Or.inr (Or.inr reported))

/-- A fresh target becomes the innermost node. -/
theorem push (covered : Covered g found fresh ((node, target :: targets) :: path) done) :
    Covered g found (fresh.erase target) ((target, g.targets target) :: (node, targets) :: path)
      done := by
  obtain ⟨settled, scanned, known⟩ := covered
  refine ⟨settled, ⟨fun other edge => Or.inl edge, fun other edge => ?_, scanned.2⟩,
    fun other member => ?_⟩
  · rcases scanned.1 other edge with ahead | old | inside | reported
    · rcases List.mem_cons.mp ahead with rfl | later
      · exact Or.inr (Or.inr (Or.inl rfl))
      · exact Or.inl later
    · exact Or.inr (Or.inl old)
    · cases inside
    · exact Or.inr (Or.inr (Or.inr reported))
  · rcases known other member with new | onPath | old
    · by_cases same : other = target
      · exact Or.inr (Or.inl (List.mem_cons.mpr (Or.inl same)))
      · exact Or.inl ((List.mem_erase_of_ne same).mpr new)
    · exact Or.inr (Or.inl (List.mem_cons_of_mem _ onPath))
    · exact Or.inr (Or.inr old)

end Covered

/-- A walk leaves every node of its path and accounts for all their edges. -/
theorem exists_covered_walk (closed : g.Closed) (fresh : List String) (path : Path)
    (done : List String) (traced : Path.Traced g path) (covered : Covered g found fresh path done)
    (reports : ∀ circuit ∈ (g.walk fresh path).1, circuit ∈ found) :
    ∃ done', Covered g found (g.walk fresh path).2 [] done' ∧ (∀ node ∈ done, node ∈ done') ∧
      ∀ node ∈ Path.names path, node ∈ done' := by
  fun_induction g.walk fresh path generalizing done with
  | case1 fresh => exact ⟨done, covered, fun _ => id, by simp [Path.names]⟩
  | case2 fresh node path ih =>
      obtain ⟨done', covered', kept, left⟩ := ih (node :: done) traced.pop covered.pop reports
      refine ⟨done', covered', fun other old => kept other (List.mem_cons_of_mem _ old), ?_⟩
      intro other member
      rcases List.mem_cons.mp member with rfl | outer
      · exact kept other List.mem_cons_self
      · exact left other outer
  | case3 fresh node target targets path present rest ih =>
      have reported : Together found node target :=
        ⟨_, reports _ List.mem_cons_self, Path.mem_circuit node target targets path⟩
      exact ih done traced.pass (covered.pass (Or.inr reported))
        fun circuit member => reports circuit (List.mem_cons_of_mem _ member)
  | case4 fresh node target targets path absent met ih =>
      have new : target ∉ Path.names ((node, targets) :: path) :=
        fun present => absent (Path.holds_iff.mpr present)
      obtain ⟨done', covered', kept, left⟩ := ih done (traced.push new) covered.push reports
      exact ⟨done', covered', kept, fun other member => left other (List.mem_cons_of_mem _ member)⟩
  | case5 fresh node target targets path absent old ih =>
      have left : target ∈ done := by
        rcases covered.known target (closed node target traced.leads) with new | onPath | left
        · exact absurd new old
        · exact absurd (Path.holds_iff.mpr onPath) absent
        · exact left
      exact ih done traced.pass (covered.pass (Or.inl left)) reports

/-- After walks from all of the starts, each of them was left, and so was each node from before. -/
theorem exists_settled_cyclesFrom (closed : g.Closed) (fresh starts done : List String)
    (covered : Covered g found fresh [] done)
    (reports : ∀ circuit ∈ g.cyclesFrom fresh starts, circuit ∈ found)
    (startNodes : ∀ start ∈ starts, start ∈ g.nodes) :
    ∃ done', Settled g found done' ∧ (∀ node ∈ done, node ∈ done') ∧
      ∀ start ∈ starts, start ∈ done' := by
  fun_induction g.cyclesFrom fresh starts generalizing done with
  | case1 fresh => exact ⟨done, covered.settled, fun _ => id, by simp⟩
  | case2 fresh start starts met rest ih =>
      obtain ⟨done', covered', kept, left⟩ := exists_covered_walk closed _ _ done
        (.single g start) (covered.start start)
        fun circuit member => reports circuit (List.mem_append_left _ member)
      obtain ⟨done'', settled, kept', left'⟩ := ih done' covered'
        (fun circuit member => reports circuit (List.mem_append_right _ member))
        fun other member => startNodes other (List.mem_cons_of_mem _ member)
      refine ⟨done'', settled, fun other old => kept' other (kept other old), ?_⟩
      intro other member
      rcases List.mem_cons.mp member with rfl | later
      · exact kept' other (left other List.mem_cons_self)
      · exact left' other later
  | case3 fresh start starts old ih =>
      obtain ⟨done', settled, kept, left⟩ := ih done covered reports
        fun other member => startNodes other (List.mem_cons_of_mem _ member)
      refine ⟨done', settled, kept, fun other member => ?_⟩
      rcases List.mem_cons.mp member with rfl | later
      · rcases covered.known other (startNodes other List.mem_cons_self) with new | onPath | left
        · exact absurd new old
        · cases onPath
        · exact kept other left
      · exact left other later

/-- Nodes of which each leads to another of them, but not along a reported edge, were not left. -/
theorem Settled.not_mem {part : String → Prop} (settled : Settled g found done)
    (goesOn : ∀ node, part node →
      ∃ target, g.Leads node target ∧ part target ∧ ¬ Together found node target) :
    ∀ node ∈ done, ¬ part node := by
  induction done with
  | nil => simp
  | cons last done ih =>
      intro node member inPart
      rcases List.mem_cons.mp member with rfl | earlier
      · obtain ⟨target, edge, inPart', unreported⟩ := goesOn node inPart
        rcases settled.1 target edge with old | reported
        · exact ih settled.2 target old inPart'
        · exact unreported reported
      · exact ih settled.2 node earlier inPart

/-- **Circuits are reported.** Where a node reaches itself, some report is of nodes that it reaches
and that reach it. -/
theorem exists_report (closed : g.Closed) {node : String}
    (returns : Relation.TransGen g.Leads node node) :
    ∃ circuit ∈ g.cycles, ∀ other ∈ circuit,
      Relation.TransGen g.Leads node other ∧ Relation.TransGen g.Leads other node := by
  by_contra unreported
  obtain ⟨done, settled, -, left⟩ := exists_settled_cyclesFrom closed g.nodes g.nodes []
    ⟨trivial, trivial, fun _ member => Or.inl member⟩ (fun _ => id) fun _ => id
  let part := fun other =>
    Relation.TransGen g.Leads node other ∧ Relation.TransGen g.Leads other node
  have goesOn : ∀ other, part other →
      ∃ target, g.Leads other target ∧ part target ∧ ¬ Together g.cycles other target := by
    rintro other ⟨there, back⟩
    obtain ⟨target, edge, rest⟩ := Relation.TransGen.head'_iff.mp back
    refine ⟨target, edge, ⟨there.tail edge, returns.trans_right rest⟩, ?_⟩
    rintro ⟨circuit, isReport, present, -⟩
    have round := isCircuit_of_mem_cycles circuit isReport
    exact unreported ⟨circuit, isReport, fun also member =>
      ⟨there.trans (round.reaches present member), (round.reaches member present).trans back⟩⟩
  exact settled.not_mem goesOn node (left node (closed.mem_nodes returns)) ⟨returns, returns⟩

end Tabula.Graph
