namespace StackFlow

/-- The version of the program. -/
def version : String := "0.3.0-dev"

end StackFlow
