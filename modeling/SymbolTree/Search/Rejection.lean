/-!
# Rejected candidates

A declaration of the right name may still not be seen from the place where the name is used, or not
take the arguments at hand.  It is not an error by itself: a search collects the reasons as
`Rejections` and reports them when it finds nothing else.
-/

set_option autoImplicit false
namespace SymbolTree

/-- Why a declaration of the right name was not taken. -/
inductive Rejection where
  | private_ | protected_ | prototype | wrongPrivate | wrongProtected | privatePackage | internal
  deriving DecidableEq, Repr

namespace Rejection

/-- Every rejection, in the order in which reports list them. -/
def all : List Rejection :=
  [.private_, .protected_, .prototype, .wrongPrivate, .wrongProtected, .privatePackage, .internal]

/-- The number of a rejection. -/
def bit : Rejection → Nat
  | .private_ => 1
  | .protected_ => 2
  | .prototype => 4
  | .wrongPrivate => 8
  | .wrongProtected => 16
  | .privatePackage => 32
  | .internal => 128

/-- What is reported about a rejection. -/
def reason : Rejection → String
  | .private_ => "You cannot access a private class member from outside that very class."
  | .protected_ =>
      "You cannot access a protected class member from outside a class or its derived classes."
  | .prototype => "One or more functions were found, but none matched the input parameters."
  | .wrongPrivate => "You cannot use the private attribute outside of a package or a class."
  | .wrongProtected => "You cannot use the protected attribute outside of a class."
  | .privatePackage =>
      "You cannot access a package private declaration from outside of that package."
  | .internal => "You cannot access an internal declaration from outside of a package."

end Rejection

/-- A set of rejections. -/
abbrev Rejections := Rejection → Bool

namespace Rejections

/-- No rejection. -/
def none : Rejections := fun _ => false

/-- One more rejection. -/
def add (s : Rejections) (r : Rejection) : Rejections := fun q => q = r || s q

/-- The members, in order. -/
def toList (s : Rejections) : List Rejection := Rejection.all.filter s

/-- The sum of the numbers of the members. -/
def toNat (s : Rejections) : Nat := s.toList.foldl (fun n r => n + r.bit) 0

end Rejections

end SymbolTree
