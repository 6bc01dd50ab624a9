/-! References to types as they are written in source. -/
namespace PatternFinder

/-- A written type. `predefined` is a keyword such as `int`; `other` keeps the text of every form
that has no name of its own, such as a tuple. -/
inductive TypeRef where
  | predefined (keyword : String)
  | named (name : String) (qualifier : Option String) (arguments : List TypeRef)
  | array (element : TypeRef)
  | nullable (inner : TypeRef)
  | other (text : String)
deriving Repr, BEq, Inhabited

namespace TypeRef

def predefinedKeywords : List String :=
  ["bool", "byte", "char", "decimal", "double", "dynamic", "float", "int", "long", "nint", "nuint",
    "object", "sbyte", "short", "string", "uint", "ulong", "ushort", "void"]

/-- A name with type arguments and without a qualifier. -/
def generic (name : String) (arguments : List TypeRef) : TypeRef := .named name none arguments

def simple (name : String) : TypeRef := generic name []

/-- The type that a single word writes. -/
def ofSimpleName (text : String) : TypeRef :=
  if predefinedKeywords.contains text then .predefined text else simple text

/-- The name of a named type, without qualifier and arguments. -/
def identifier? : TypeRef → Option String
  | .named name _ _ => some name
  | _ => none

/-- Like `identifier?`, but keywords count as names. -/
def simpleName? : TypeRef → Option String
  | .named name _ _ => some name
  | .predefined keyword => some keyword
  | _ => none

def hasIdentifier (t : TypeRef) (name : String) : Bool := t.identifier? == some name

def isPredefined : TypeRef → Bool
  | .predefined _ => true
  | _ => false

def isVoid : TypeRef → Bool
  | .predefined keyword => keyword == "void"
  | _ => false

def arguments : TypeRef → List TypeRef
  | .named _ _ arguments => arguments
  | _ => []

mutual

/-- The type as it is shown: `Qualifier.Name<A, B>`, `T[]`, `T?`. -/
def text : TypeRef → String
  | .predefined keyword => keyword
  | .named name qualifier arguments =>
    let front := match qualifier with
      | some q => q ++ "."
      | none => ""
    let back := match arguments with
      | [] => ""
      | a :: as => "<" ++ String.intercalate ", " (text a :: texts as) ++ ">"
    front ++ name ++ back
  | .array element => text element ++ "[]"
  | .nullable inner => text inner ++ "?"
  | .other t => t

def texts : List TypeRef → List String
  | [] => []
  | t :: ts => text t :: texts ts

end

mutual

/-- The number of levels of a type, through arrays, nullable marks and type arguments. -/
def height : TypeRef → Nat
  | .predefined _ => 1
  | .named _ _ arguments => heights arguments + 1
  | .array element => height element + 1
  | .nullable inner => height inner + 1
  | .other _ => 1

def heights : List TypeRef → Nat
  | [] => 0
  | t :: ts => max (height t) (heights ts)

end

end TypeRef

end PatternFinder
