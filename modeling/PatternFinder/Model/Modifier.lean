import PatternFinder.Text.Basic

/-! Declaration modifiers. -/
namespace PatternFinder

/-- A modifier keyword of a declaration; `other` stands for every keyword without a constructor. -/
inductive Modifier where
  | publicAccess | privateAccess | protectedAccess | internalAccess | static | abstract | sealed
  | override | virtual | readonly | const | partialType | async | external | new | other
deriving Repr, BEq, DecidableEq, Inhabited

namespace Modifier

/-- The modifiers that have a keyword, with it. -/
def keywords : List (String × Modifier) :=
  [("public", .publicAccess), ("private", .privateAccess), ("protected", .protectedAccess),
    ("internal", .internalAccess), ("static", .static), ("abstract", .abstract),
    ("sealed", .sealed), ("override", .override), ("virtual", .virtual), ("readonly", .readonly),
    ("const", .const), ("partial", .partialType), ("async", .async), ("extern", .external),
    ("new", .new)]

def ofKeyword (keyword : String) : Modifier :=
  (keywords.lookup (Text.trim keyword)).getD .other

/-- The name of a modifier in reports. -/
def label : Modifier → String
  | .publicAccess => "Public"
  | .privateAccess => "Private"
  | .protectedAccess => "Protected"
  | .internalAccess => "Internal"
  | .static => "Static"
  | .abstract => "Abstract"
  | .sealed => "Sealed"
  | .override => "Override"
  | .virtual => "Virtual"
  | .readonly => "Readonly"
  | .const => "Const"
  | .partialType => "Partial"
  | .async => "Async"
  | .external => "Extern"
  | .new => "New"
  | .other => "Other"

def all : List Modifier := keywords.map (·.2) ++ [.other]

def ofLabel? (s : String) : Option Modifier := all.find? (·.label == s)

end Modifier

/-- The modifiers of a declaration in writing order; repetitions are kept. -/
abbrev Modifiers := List Modifier

namespace Modifiers

def isPublic (ms : Modifiers) : Bool := ms.contains .publicAccess

def isPrivate (ms : Modifiers) : Bool := ms.contains .privateAccess

def isStatic (ms : Modifiers) : Bool := ms.contains .static

def isAbstract (ms : Modifiers) : Bool := ms.contains .abstract

def isOverride (ms : Modifiers) : Bool := ms.contains .override

end Modifiers

end PatternFinder
