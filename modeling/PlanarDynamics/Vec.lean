import PlanarDynamics.Scalar

/-!
# Vectors of the plane
-/

namespace PlanarDynamics

@[ext] structure Vec (α : Type) where
  x : α
  y : α
deriving BEq

namespace Vec

variable {α : Type} [Scalar α]

instance : Zero (Vec α) := ⟨⟨0, 0⟩⟩

instance : Add (Vec α) := ⟨fun a b ↦ ⟨a.x + b.x, a.y + b.y⟩⟩

instance : Sub (Vec α) := ⟨fun a b ↦ ⟨a.x - b.x, a.y - b.y⟩⟩

instance : Neg (Vec α) := ⟨fun a ↦ ⟨-a.x, -a.y⟩⟩

instance : HMul (Vec α) α (Vec α) := ⟨fun a s ↦ ⟨a.x * s, a.y * s⟩⟩

instance : HMul α (Vec α) (Vec α) := ⟨fun s a ↦ a * s⟩

instance : HDiv (Vec α) α (Vec α) := ⟨fun a s ↦ ⟨a.x / s, a.y / s⟩⟩

@[simp] theorem zero_x : (0 : Vec α).x = 0 := rfl
@[simp] theorem zero_y : (0 : Vec α).y = 0 := rfl
@[simp] theorem add_x (a b : Vec α) : (a + b).x = a.x + b.x := rfl
@[simp] theorem add_y (a b : Vec α) : (a + b).y = a.y + b.y := rfl
@[simp] theorem sub_x (a b : Vec α) : (a - b).x = a.x - b.x := rfl
@[simp] theorem sub_y (a b : Vec α) : (a - b).y = a.y - b.y := rfl
@[simp] theorem neg_x (a : Vec α) : (-a).x = -a.x := rfl
@[simp] theorem neg_y (a : Vec α) : (-a).y = -a.y := rfl
@[simp] theorem mul_x (a : Vec α) (s : α) : (a * s).x = a.x * s := rfl
@[simp] theorem mul_y (a : Vec α) (s : α) : (a * s).y = a.y * s := rfl
@[simp] theorem div_x (a : Vec α) (s : α) : (a / s).x = a.x / s := rfl
@[simp] theorem div_y (a : Vec α) (s : α) : (a / s).y = a.y / s := rfl

def up : Vec α := ⟨0, 1⟩

/-- The direction taken where geometry leaves none. -/
def right : Vec α := ⟨1, 0⟩

def dot (a b : Vec α) : α := a.x * b.x + a.y * b.y

/-- The signed area of the parallelogram of two vectors. -/
def cross (a b : Vec α) : α := a.x * b.y - a.y * b.x

/-- The product `v × s` with a vector of length `s` out of the plane: a right turn, scaled. -/
def crossOut (v : Vec α) (s : α) : Vec α := ⟨s * v.y, -s * v.x⟩

/-- The product `s × v` with a vector of length `s` out of the plane: the velocity at `v` of a
rotation at rate `s`. -/
def outCross (s : α) (v : Vec α) : Vec α := ⟨-s * v.y, s * v.x⟩

/-- The vector turned left by a right angle. -/
def perp (v : Vec α) : Vec α := ⟨-v.y, v.x⟩

def normSq (v : Vec α) : α := v.dot v

def norm (v : Vec α) : α := Scalar.sqrt v.normSq

def distSq (a b : Vec α) : α := (a - b).normSq

def dist (a b : Vec α) : α := (a - b).norm

/-- The unit vector along `v`, or zero if `v` has no length. -/
def normalize (v : Vec α) : Vec α := if v.norm == 0 then 0 else v * (1 / v.norm)

/-- The unit vector along `v`, if `v` is finite and long enough to have a direction. -/
def normalize? (v : Vec α) : Option (Vec α) :=
  if Scalar.isFinite v.normSq && !decide (v.normSq < 1e-20) then
    some (v * (1 / Scalar.sqrt v.normSq))
  else
    none

def normalizeOr (v fallback : Vec α) : Vec α := v.normalize?.getD fallback

def isFinite (v : Vec α) : Bool := Scalar.isFinite v.x && Scalar.isFinite v.y

/-- The vector turned left by `angle`. -/
def rotate (v : Vec α) (angle : α) : Vec α :=
  ⟨v.x * Scalar.cos angle - v.y * Scalar.sin angle,
    v.x * Scalar.sin angle + v.y * Scalar.cos angle⟩

def min (a b : Vec α) : Vec α := ⟨Scalar.min a.x b.x, Scalar.min a.y b.y⟩

def max (a b : Vec α) : Vec α := ⟨Scalar.max a.x b.x, Scalar.max a.y b.y⟩

def midpoint (a b : Vec α) : Vec α := (a + b) * (0.5 : α)

end Vec

end PlanarDynamics
