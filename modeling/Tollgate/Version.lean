/-!
# The version that the gateway reports
-/

namespace Tollgate

def version : String := "0.1.0"

end Tollgate
