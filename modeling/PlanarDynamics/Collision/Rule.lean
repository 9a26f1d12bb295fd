import PlanarDynamics.Collision.Convex
import PlanarDynamics.Collision.Round

/-!
# Collision rules

Which computation finds the manifold of two shapes, by their kinds. A rule expects its shapes in
one order and serves both: a table entered under the kinds in the other order says so.
-/

namespace PlanarDynamics

/-- The pairs of shape kinds with a rule of their own. -/
inductive PairKind where
  | circles
  | polygonCircle
  | polygons
  | edgeCircle
  | edgePolygon
deriving DecidableEq, Repr

def PairKind.name : PairKind → String
  | circles => "Circle"
  | polygonCircle => "PolygonAndCircle"
  | polygons => "Polygon"
  | edgeCircle => "EdgeAndCircle"
  | edgePolygon => "EdgeAndPolygon"

def PairKind.ofName? (s : String) : Option PairKind :=
  [circles, polygonCircle, polygons, edgeCircle, edgePolygon].find? (·.name = s)

/-- A way to find the manifold of two shapes under their poses. -/
abbrev Collide (α : Type) := Shape α → Pose α → Shape α → Pose α → Manifold α

@[ext] structure Rule (α : Type) where
  kind : PairKind
  collide : Collide α
  /-- Whether the shapes stand in the order that `collide` expects. -/
  primary : Bool

@[ext] structure RuleTable (α : Type) where
  rule? : ShapeKind → ShapeKind → Option (Rule α)

variable {α : Type} [Scalar α]

/-- The computation for a pair kind. Shapes of other kinds do not touch. -/
def PairKind.collide : PairKind → Collide α
  | circles, .circle a, poseA, .circle b, poseB => Collision.circles a poseA b poseB
  | polygonCircle, .polygon a, poseA, .circle b, poseB => Collision.polygonCircle a poseA b poseB
  | polygons, .polygon a, poseA, .polygon b, poseB => Collision.polygons a poseA b poseB
  | edgeCircle, .edge a, poseA, .circle b, poseB => Collision.edgeCircle a poseA b poseB
  | edgePolygon, .edge a, poseA, .polygon b, poseB => Collision.edgePolygon a poseA b poseB
  | _, _, _, _, _ => .empty

/-- What a rule is called in listings. -/
def Rule.describe (r : Rule α) : String :=
  s!"Handler \x7b kind: {r.kind.name}, primary: {r.primary} \x7d"

namespace RuleTable

def empty : RuleTable α := ⟨fun _ _ ↦ none⟩

/-- Enters a rule for the kinds `a` and `b`, and for the two in the other order. -/
def register (t : RuleTable α) (kind : PairKind) (collide : Collide α) (a b : ShapeKind) :
    RuleTable α where
  rule? x y :=
    if x = a ∧ y = b then some ⟨kind, collide, true⟩
    else if x = b ∧ y = a then some ⟨kind, collide, false⟩
    else t.rule? x y

/-- The rules for all pairs of kinds but two edges. -/
def standard : RuleTable α :=
  empty
    |>.register .circles PairKind.circles.collide .circle .circle
    |>.register .polygonCircle PairKind.polygonCircle.collide .polygon .circle
    |>.register .polygons PairKind.polygons.collide .polygon .polygon
    |>.register .edgeCircle PairKind.edgeCircle.collide .edge .circle
    |>.register .edgePolygon PairKind.edgePolygon.collide .edge .polygon

def lookup (t : RuleTable α) (a b : ShapeKind) : Except Error (Rule α) :=
  match t.rule? a b with
  | some r => .ok r
  | none => .error (.noRule a b)

/-- The manifold of two shapes in the given order. -/
def collide (t : RuleTable α) (a : Shape α) (poseA : Pose α) (b : Shape α) (poseB : Pose α) :
    Except Error (Manifold α) := do
  let r ← t.lookup a.kind b.kind
  if r.primary then return r.collide a poseA b poseB
  else return (r.collide b poseB a poseA).swapRoles

end RuleTable

end PlanarDynamics
