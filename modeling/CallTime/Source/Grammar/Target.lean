import CallTime.Source.Expr

/-!
Targets of assignments, loops and deletions. They are read as expressions first.
-/

namespace CallTime.Source.Expr

mutual

/-- The expression as a target; `star` says whether items may be unpacked into it. -/
def asTarget? (use : NameUse) (star : Bool) : Expr → Option Expr
  | .name line id _ => some (.name line id use)
  | .attribute line value attr => some (.attribute line value attr)
  | .subscript line value index => some (.subscript line value index)
  | .starred line value =>
    if star then (asTarget? use star value).map (.starred line) else none
  | .list line items => (asTargets? use star items).map (.list line)
  | .tuple line items => (asTargets? use star items).map (.tuple line)
  | _ => none
termination_by structural e => e

def asTargets? (use : NameUse) (star : Bool) : List Expr → Option (List Expr)
  | [] => some []
  | e :: es => do return (← asTarget? use star e) :: (← asTargets? use star es)
termination_by structural es => es

end

def asSingleTarget? : Expr → Option Expr
  | .name line id _ => some (.name line id .store)
  | .attribute line value attr => some (.attribute line value attr)
  | .subscript line value index => some (.subscript line value index)
  | _ => none

end CallTime.Source.Expr
