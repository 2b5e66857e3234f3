/-!
# The version of the service
-/

namespace Federation

/-- The version that the service reports. -/
def version : String := "0.1.0"

end Federation
