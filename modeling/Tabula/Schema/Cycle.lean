/-! # Cycles of a graph

A depth-first walk over a finite graph that reports each edge that leads back to a node of the
path it is on. The walk keeps the nodes it has not met yet (`fresh`) and the path, innermost node
first, each with the targets still to follow. Every step meets a fresh node or leaves fewer targets
to follow, which is why it ends.
-/

namespace Tabula

/-- A graph of named nodes. -/
structure Graph where
  /-- The nodes, in the order in which walks begin. -/
  nodes : List String
  /-- Where the edges of a node lead, in the order in which they are followed. -/
  targets : String → List String

namespace Graph

/-- A path of a walk, innermost node first, each node with the targets still to follow. -/
abbrev Path := List (String × List String)

/-- Whether a node is on the path. -/
def Path.holds (path : Path) (node : String) : Bool :=
  path.any (·.1 == node)

/-- How many steps are left on the path if no fresh node is met. -/
def Path.pending (path : Path) : Nat :=
  path.length + (path.flatMap (·.2)).length

/-- The nodes from `node` to the innermost one, outermost first. -/
def Path.since (path : Path) (node : String) : List String :=
  let inner := path.takeWhile (·.1 != node)
  node :: (inner.map (·.1)).reverse

/-- The walk along a path: the cycles it meets, each ending in the node it begins with, and the
nodes it never meets. -/
def walk (g : Graph) (fresh : List String) : Path → List (List String) × List String
  | [] => ([], fresh)
  | (_, []) :: path => g.walk fresh path
  | (node, target :: targets) :: path =>
    if Path.holds ((node, targets) :: path) target then
      let found := g.walk fresh ((node, targets) :: path)
      ((Path.since ((node, targets) :: path) target ++ [target]) :: found.1, found.2)
    else if target ∈ fresh then
      g.walk (fresh.erase target) ((target, g.targets target) :: (node, targets) :: path)
    else g.walk fresh ((node, targets) :: path)
termination_by path => (fresh.length, path.pending)
decreasing_by
  · exact Prod.Lex.right _ (by simp [Path.pending])
  · exact Prod.Lex.right _ (by simp [Path.pending])
  · rename_i met
    exact Prod.Lex.left _ _ (by
      rw [List.length_erase_of_mem met]
      exact Nat.sub_lt (List.length_pos_of_mem met) Nat.one_pos)
  · exact Prod.Lex.right _ (by simp [Path.pending])

/-- The cycles met by walks from the listed nodes, as long as they are fresh. -/
def cyclesFrom (g : Graph) (fresh : List String) : List String → List (List String)
  | [] => []
  | start :: starts =>
    if start ∈ fresh then
      let found := g.walk (fresh.erase start) [(start, g.targets start)]
      found.1 ++ g.cyclesFrom found.2 starts
    else g.cyclesFrom fresh starts

/-- The cycles that walks from every node meet, each ending in the node it begins with. -/
def cycles (g : Graph) : List (List String) :=
  g.cyclesFrom g.nodes g.nodes

end Graph

end Tabula
