import PatternFinder.Source.Node

/-! Syntax errors of a concrete tree, found by a pruned search with an explicit stack. -/
namespace PatternFinder.Node

mutual

/-- Whether the node or a descendant is a fault. -/
def hasFault : Node → Bool
  | ⟨_, _, _, _, _, error, missing, children⟩ => error || missing || anyFault children

def anyFault : List Node → Bool
  | [] => false
  | n :: ns => hasFault n || anyFault ns

end

mutual

/-- The number of nodes of a tree. -/
def size : Node → Nat
  | ⟨_, _, _, _, _, _, _, children⟩ => sizeList children + 1

def sizeList : List Node → Nat
  | [] => 0
  | n :: ns => size n + sizeList ns

end

theorem sizeList_append (xs ys : List Node) : sizeList (xs ++ ys) = sizeList xs + sizeList ys := by
  induction xs with
  | nil => simp [sizeList]
  | cons x xs ih => simp [sizeList, ih, Nat.add_assoc]

theorem size_eq (n : Node) : size n = sizeList n.children + 1 := by
  cases n; simp [size]

/-- The faults below a stack of pending nodes, top first. A subtree without a fault is skipped. -/
def faultsFrom : List Node → List Node
  | [] => []
  | n :: pending =>
    let rest := if n.hasFault then faultsFrom (n.children ++ pending) else faultsFrom pending
    if n.isFault then n :: rest else rest
termination_by stack => sizeList stack
decreasing_by
  · simp only [sizeList_append, sizeList, size_eq]; omega
  · simp only [sizeList, size_eq]; omega

/-- The faults of a tree, in preorder. -/
def faults (root : Node) : List Node := faultsFrom [root]

end PatternFinder.Node
