/-! Depth-first search for a way from a node to a target. All branches share the set of visited
nodes, so a node is explored once; the target ends the search whenever an edge leads to it, even
when it is the start. -/
namespace Wiring.Graph

/-- Takes the edges out of a node in order: an edge into the target ends the search, an edge to a
visited node is passed over, and any other is explored by `visit`. Gives the rest of the way and
the visited nodes. -/
def sweep (visit : String → List String → Option (List String) × List String) (target : String) :
    List String → List String → Option (List String) × List String
  | [], visited => (none, visited)
  | next :: rest, visited =>
    if next = target then (some [next], visited)
    else if next ∈ visited then sweep visit target rest visited
    else
      match visit next (next :: visited) with
      | (some way, visited) => (some way, visited)
      | (none, visited) => sweep visit target rest visited

/-- A way of at least one edge from `node` to `target` over unvisited nodes. Each level of the
search visits a new node, so `bound` need not exceed the number of nodes. -/
def search (successors : String → List String) (target : String) :
    Nat → String → List String → Option (List String) × List String
  | 0, _, visited => (none, visited)
  | bound + 1, node, visited =>
    match sweep (search successors target bound) target (successors node) visited with
    | (way, visited) => (way.map (node :: ·), visited)

end Wiring.Graph
