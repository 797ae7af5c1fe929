namespace SeedSearch.Problems

def render (headline : String) : List String → String
  | [message] => message
  | messages =>
    "\n".intercalate (s!"{headline} ({messages.length} problems):" :: messages.map ("  - " ++ ·))

def input : String := "invalid input"
def configuration : String := "invalid configuration"
def criteria : String := "invalid search criteria"

end SeedSearch.Problems
