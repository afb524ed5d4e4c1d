import DesignTokens.Scene.Graph

/-!
Drawings: trees of nodes that are still to be made. Drawing one makes each node before those below
it, marks it, and then makes and appends its children one after the other.
-/
namespace DesignTokens.Scene

inductive Drawing (α : Type) where
  | node (shape : Shape α) (marks : List (Mark α)) (children : List (Drawing α))

variable {α : Type}

def Outcome.result (o : Outcome α) : Except UnknownNode (Scene α) :=
  match o.unknown with
  | none => .ok o.scene
  | some u => .error u

/-- Marks a node several times. -/
def markAll (id : NodeId) : List (Mark α) → Scene α → Except UnknownNode (Scene α)
  | [], s => .ok s
  | m :: ms, s => do markAll id ms (← (s.mark id m).result)

mutual

/-- Makes the nodes of a drawing; the result names the topmost one. -/
def draw : Drawing α → Scene α → Except UnknownNode (NodeId × Scene α)
  | .node shape marks children, s => do
    let (id, s) := s.create shape
    let s ← markAll id marks s
    return (id, ← drawBelow id children s)

/-- Makes the nodes of drawings and appends each to a parent. -/
def drawBelow (parent : NodeId) : List (Drawing α) → Scene α → Except UnknownNode (Scene α)
  | [], s => .ok s
  | d :: ds, s => do
    let (child, s) ← draw d s
    drawBelow parent ds (← (s.appendChild parent child).result)

end

/-- Makes the nodes of drawings and leaves the topmost ones as roots. -/
def drawAll : List (Drawing α) → Scene α → Except UnknownNode (Scene α)
  | [], s => .ok s
  | d :: ds, s => do
    let (_, s) ← draw d s
    drawAll ds s

mutual

/-- The number of nodes of a drawing. -/
def Drawing.size : Drawing α → Nat
  | .node _ _ children => sizeAll children + 1

def Drawing.sizeAll : List (Drawing α) → Nat
  | [] => 0
  | d :: ds => d.size + sizeAll ds

end

end DesignTokens.Scene
