/-!
# Policies

What the repair of a cavity is strict about.
-/
namespace CavityRepair

/-- The choices that repair operations share. -/
structure Policy where
  /-- Check the cavity's own bookkeeping on the way. -/
  checks : Bool := true
  /-- Count a face coplanar with the point as blind. -/
  flatIsBlind : Bool := false
  deriving DecidableEq, Repr

/-- All checks, and coplanar faces are blind. -/
def Policy.strict : Policy := ⟨true, true⟩

/-- No checks, and coplanar faces are visible. -/
def Policy.fast : Policy := ⟨false, false⟩

end CavityRepair
