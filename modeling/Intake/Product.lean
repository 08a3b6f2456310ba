/-!
# The product

What the program says of itself.
-/

namespace Intake.Product

/-- The name of the program. -/
def name : String := "ssedoc-core"

/-- The version of the program. -/
def version : String := "0.1.0"

end Intake.Product
