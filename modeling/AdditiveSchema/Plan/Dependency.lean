/-!
# Dependency graphs

A graph says which node must come after which. `sort` puts every node behind the nodes it depends
on, and always takes the earliest node that is ready, so the order in which the nodes were added
stays wherever the edges allow it. Where no node is ready, a cycle stands in the way, and `sort`
reports the nodes between which nothing but cycles is left.
-/

namespace AdditiveSchema

/-- Nodes in the order in which they were added, and edges from a node to one it depends on. -/
structure DependencyGraph (α : Type) where
  nodes : List α := []
  edges : List (α × α) := []

namespace DependencyGraph

variable {α : Type} [BEq α] [LawfulBEq α]

/-- Adds a node. A node that is there already stays where it is. -/
def addNode (g : DependencyGraph α) (node : α) : DependencyGraph α :=
  if g.nodes.contains node then g else { g with nodes := g.nodes ++ [node] }

/-- Records that a node comes after another. Both must be nodes of the graph, and not the same. -/
def addDependency (g : DependencyGraph α) (node dependency : α) : DependencyGraph α :=
  if node == dependency || !g.nodes.contains node || !g.nodes.contains dependency then g
  else { g with edges := g.edges ++ [(node, dependency)] }

/-- The node depends directly on the other. -/
def dependsOn (g : DependencyGraph α) (node dependency : α) : Bool :=
  g.edges.contains (node, dependency)

/-- Nothing that remains to be placed is a dependency of the node. -/
def isReady (g : DependencyGraph α) (remaining : List α) (node : α) : Bool :=
  remaining.all fun other => !g.dependsOn node other

/-- Some remaining node depends on the node. -/
def isNeeded (g : DependencyGraph α) (remaining : List α) (node : α) : Bool :=
  remaining.any fun other => g.dependsOn other node

/-- Takes away a node on which no remaining node depends, again and again. -/
def core (g : DependencyGraph α) (remaining : List α) : List α :=
  match h : remaining.find? (!g.isNeeded remaining ·) with
  | some node =>
    have := List.length_erase_of_mem (List.mem_of_find?_eq_some h)
    have := List.length_pos_of_mem (List.mem_of_find?_eq_some h)
    core g (remaining.erase node)
  | none => remaining
termination_by remaining.length

/-- Places the remaining nodes, the earliest one that is ready first. The error holds the nodes
that remain when none is ready. -/
def place (g : DependencyGraph α) (remaining : List α) : Except (List α) (List α) :=
  match h : remaining.find? (g.isReady remaining) with
  | some node =>
    have := List.length_erase_of_mem (List.mem_of_find?_eq_some h)
    have := List.length_pos_of_mem (List.mem_of_find?_eq_some h)
    (place g (remaining.erase node)).map (node :: ·)
  | none => if remaining.isEmpty then .ok [] else .error remaining
termination_by remaining.length

/-- All nodes behind their dependencies, or the nodes that take part in a cycle, in order. -/
def sort [Ord α] (g : DependencyGraph α) : Except (List α) (List α) :=
  (g.place g.nodes).mapError fun remaining =>
    (g.core remaining).mergeSort fun a b => (compare a b).isLE

end DependencyGraph

end AdditiveSchema
