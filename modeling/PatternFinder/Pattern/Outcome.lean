import PatternFinder.Source.Location

/-! What a check says about a declaration. -/
namespace PatternFinder

/-- Why a check could not decide. -/
inductive UnsupportedReason where
  | noSemanticModel
  | unresolvedType (type : String)
  | unresolvedElementType (type : String)
deriving Repr, BEq, ReflBEq, LawfulBEq, DecidableEq, Inhabited

def UnsupportedReason.message : UnsupportedReason → String
  | .noSemanticModel => "no semantic model"
  | .unresolvedType t => "unresolved type " ++ t
  | .unresolvedElementType t => "unresolved element type of " ++ t

inductive Verdict where
  | found
  | notFound
  | unsupported (reason : UnsupportedReason)
deriving Repr, BEq, ReflBEq, LawfulBEq, DecidableEq, Inhabited

/-- The verdict of a check, with the place and the evidence of a match. -/
structure Outcome where
  verdict : Verdict
  location : Option Location
  evidence : Option String
deriving Repr, BEq, ReflBEq, LawfulBEq, DecidableEq, Inhabited

namespace Outcome

/-- A match at a place, with or without evidence. -/
def found (location : Location) (evidence : Option String) : Outcome :=
  ⟨.found, some location, evidence⟩

def notFound : Outcome := ⟨.notFound, none, none⟩

def unsupported (reason : UnsupportedReason) : Outcome := ⟨.unsupported reason, none, none⟩

def matched (o : Outcome) : Bool := o.verdict == .found

def isUnsupported (o : Outcome) : Bool :=
  match o.verdict with
  | .unsupported _ => true
  | _ => false

end Outcome

end PatternFinder
