/-!
Words that the emitted language reserves.
-/

namespace TableLoom.Code

def keywords : List String :=
  ["False", "None", "True", "and", "as", "assert", "async", "await", "break", "class", "continue",
   "def", "del", "elif", "else", "except", "finally", "for", "from", "global", "if", "import", "in",
   "is", "lambda", "nonlocal", "not", "or", "pass", "raise", "return", "try", "while", "with",
   "yield"]

/-- A word that cannot be a name in emitted source. -/
def isKeyword (word : String) : Bool :=
  keywords.contains word

end TableLoom.Code
