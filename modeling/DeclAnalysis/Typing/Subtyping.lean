import DeclAnalysis.Reachability
import DeclAnalysis.Semantic.Model

/-!
# Subtyping

A class is a subtype of the classes that its declared supertypes lead to. The
declarations may form cycles, so the question is one of reachability among the
descriptors. Besides, there is a least and a greatest type, and error types are
compatible with everything. The only conversion that is not a matter of
subtyping widens an integer to a double.
-/

namespace DeclAnalysis

namespace Ty

/-- The class that a class type stands for. -/
def class? : Ty → Option Nat
  | classType d _ => some d
  | _ => none

end Ty

namespace DescriptorTable

/-- The classes among the declared supertypes of a class. -/
def superclasses (t : DescriptorTable) (id : Nat) : List Nat :=
  match t.classData? id with
  | some data => data.supertypes.filterMap Ty.class?
  | none => []

/-- Whether a class is another or inherits from it, directly or not. -/
def inherits (t : DescriptorTable) (id target : Nat) : Bool :=
  id = target
    || (target < t.size && ((Marks.none t.size).collect t.superclasses id).has target)

/-- Whether every value of one type is one of the other. -/
def isSubtype (t : DescriptorTable) (sub super : Ty) : Bool :=
  if sub.isError || super.isError || sub = super then true
  else
    match sub, super with
    | .nothing, _ => true
    | _, .any => true
    | .classType d _, .classType e _ => t.inherits d e
    | _, _ => false

/-- Whether a value of one type may stand where the other is expected. -/
def isConvertible (t : DescriptorTable) (actual expected : Ty) : Bool :=
  t.isSubtype actual expected
    || (match actual, expected with
      | .int, .double => true
      | _, _ => false)

/-- The one of two types that the other is a subtype of, or else the greatest
type. -/
def join (t : DescriptorTable) (a b : Ty) : Ty :=
  if t.isSubtype a b then b
  else if t.isSubtype b a then a
  else .any

end DescriptorTable

end DeclAnalysis
