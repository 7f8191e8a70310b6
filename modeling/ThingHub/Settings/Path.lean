/-! Paths of files, as text. -/

namespace ThingHub.Path

def isAbsolute (path : String) : Bool :=
  path.toList.head? == some '/'

/-- The path `part` seen from the folder `base`. An absolute part stands for itself;
otherwise the two are joined by one slash, unless the base is empty or ends in one. -/
def join (base part : String) : String :=
  if isAbsolute part then part
  else if base = "" ∨ base.toList.getLast? = some '/' then base ++ part
  else base ++ "/" ++ part

end ThingHub.Path
