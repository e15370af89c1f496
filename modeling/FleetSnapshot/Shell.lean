/-!
Words for a POSIX shell. A quoted word stands between apostrophes, and an apostrophe inside it is
written outside of them, behind a backslash.
-/

namespace FleetSnapshot.Shell

def escapeQuotes : List Char → List Char
  | [] => []
  | c :: cs => if c = '\'' then '\'' :: '\\' :: '\'' :: '\'' :: escapeQuotes cs else c :: escapeQuotes cs

def quoteChars (cs : List Char) : List Char := '\'' :: (escapeQuotes cs ++ ['\''])

def quote (s : String) : String := String.ofList (quoteChars s.toList)

end FleetSnapshot.Shell
