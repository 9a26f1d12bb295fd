/-!
# Features

A contact point is known from step to step by the two features, one on each shape, that make it.
-/

namespace PlanarDynamics

inductive Feature where
  | vertex
  | face
deriving DecidableEq, Repr

/-- The number of a feature kind within a key. -/
def Feature.code : Feature → UInt32
  | vertex => 0
  | face => 1

@[ext] structure FeaturePair where
  indexA : UInt8
  featureA : Feature
  indexB : UInt8
  featureB : Feature
deriving DecidableEq, Repr

namespace FeaturePair

/-- The pair of first vertices, for shapes with only one way to touch. -/
def first : FeaturePair := ⟨0, .vertex, 0, .vertex⟩

/-- The pair packed into one word, a byte for each part. -/
def key (id : FeaturePair) : UInt32 :=
  id.indexA.toUInt32 ||| (id.indexB.toUInt32 <<< 8) ||| (id.featureA.code <<< 16)
    ||| (id.featureB.code <<< 24)

/-- The same pair with the shapes in the other order. -/
def swap (id : FeaturePair) : FeaturePair := ⟨id.indexB, id.featureB, id.indexA, id.featureA⟩

@[simp] theorem swap_swap (id : FeaturePair) : id.swap.swap = id := rfl

end FeaturePair

end PlanarDynamics
