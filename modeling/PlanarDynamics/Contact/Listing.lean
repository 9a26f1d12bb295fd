import PlanarDynamics.Contact.Basic
import PlanarDynamics.Scalar.Decimal

/-!
# Contacts in listings

A contact over the doubles is listed as a record of records, field by field.
-/

namespace PlanarDynamics

/-- A record with the given fields. -/
def listing (name : String) (fields : List (String × String)) : String :=
  let fields := fields.map fun f ↦ f.1 ++ ": " ++ f.2
  name ++ " \x7b " ++ ", ".intercalate fields ++ " \x7d"

def Feature.name : Feature → String
  | vertex => "Vertex"
  | face => "Face"

def FeaturePair.describe (id : FeaturePair) : String :=
  listing "ContactId" [("index_a", toString id.indexA), ("index_b", toString id.indexB),
    ("type_a", id.featureA.name), ("type_b", id.featureB.name)]

def Vec.describe (v : Vec Float) : String :=
  listing "Vec2" [("x", writeDouble v.x), ("y", writeDouble v.y)]

def ManifoldPoint.describe (p : ManifoldPoint Float) : String :=
  listing "ManifoldPoint" [("local_point", p.localPoint.describe),
    ("normal_impulse", writeDouble p.normalImpulse),
    ("tangent_impulse", writeDouble p.tangentImpulse), ("id", p.id.describe)]

/-- Both points are listed, active or not. -/
def Manifold.describe (m : Manifold Float) : String :=
  listing "Manifold" [("kind", m.kind.name), ("local_normal", m.localNormal.describe),
    ("local_point", m.localPoint.describe),
    ("points", s!"[{m.first.describe}, {m.second.describe}]"),
    ("point_count", toString m.count)]

/-- The colliders, the state and the manifold of a contact. Its bodies and its material are not
listed. -/
def Contact.describe (c : Contact Float) : String :=
  listing "Contact" [("collider_a", s!"ColliderHandle({c.colliderA})"),
    ("collider_b", s!"ColliderHandle({c.colliderB})"), ("kind", c.kind.name),
    ("touching", toString c.touching), ("enabled", toString c.enabled),
    ("sensor", toString c.sensor), ("manifold", c.manifold.describe)]

end PlanarDynamics
