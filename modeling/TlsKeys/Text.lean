/-!
How objects are described: a name, and the parts of the description in braces,
with commas between them.
-/

namespace TlsKeys.Text

def separated : List String → String
  | [] => ""
  | [part] => part
  | part :: next :: parts => part ++ ", " ++ separated (next :: parts)

def field (name value : String) : String :=
  name ++ ": " ++ value

def inBraces (name : String) (parts : List String) : String :=
  name ++ String.ofList [' ', '{', ' '] ++ separated parts ++ String.ofList [' ', '}']

/-- Stands last among the parts when some of them are not shown. -/
def andMore : String := ".."

end TlsKeys.Text
