import Fleet.Instance

/-!
# Callers

Who asks: a subject that acts within a tenant.
-/

namespace Fleet

/-- The identity that a request is made with. -/
structure Caller where
  subject : String := ""
  tenant : String := ""
  email : Option String := none
  name : Option String := none
  roles : List String := []
  metadata : Texts := .empty
  deriving DecidableEq, Inhabited

namespace Caller

def systemAdmin : String := "system:admin"

/-- A subject within a tenant, without roles. -/
def ofTenant (tenant subject : String) : Caller := { tenant, subject }

def hasRole (c : Caller) (role : String) : Bool := c.roles.contains role

def isSystemAdmin (c : Caller) : Bool := c.hasRole systemAdmin

end Caller

end Fleet
