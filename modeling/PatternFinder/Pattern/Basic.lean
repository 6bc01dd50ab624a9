import PatternFinder.Text.Basic

/-! The design patterns and their names. -/
namespace PatternFinder

inductive Pattern where
  | singleton | factoryMethod | decorator | flyweight
deriving Repr, BEq, ReflBEq, LawfulBEq, DecidableEq, Inhabited

namespace Pattern

/-- All patterns in their fixed order. -/
def all : List Pattern := [.singleton, .factoryMethod, .decorator, .flyweight]

theorem mem_all (p : Pattern) : p ∈ all := by
  cases p <;> decide

def name : Pattern → String
  | .singleton => "singleton"
  | .factoryMethod => "factory_method"
  | .decorator => "decorator"
  | .flyweight => "flyweight"

def displayName : Pattern → String
  | .singleton => "Singleton"
  | .factoryMethod => "Factory Method"
  | .decorator => "Decorator"
  | .flyweight => "Flyweight"

/-- The place of a pattern in the fixed order. -/
def rank : Pattern → Nat
  | .singleton => 0
  | .factoryMethod => 1
  | .decorator => 2
  | .flyweight => 3

private def normalizeChar (c : Char) : Char := if c == '-' || c == ' ' then '_' else c.toLower

/-- Spellings of a pattern name that differ in case, surrounding blanks, hyphens and spaces count
as one. -/
def normalizeName (s : String) : String :=
  String.ofList ((Text.trimList s.toList).map normalizeChar)

def ofName? (s : String) : Option Pattern := all.find? (·.name == normalizeName s)

@[simp] theorem normalizeName_name (p : Pattern) : normalizeName p.name = p.name := by
  cases p <;> decide

/-- A name is read as a pattern exactly when it spells the pattern's name. -/
theorem ofName?_eq_some_iff {s : String} {p : Pattern} :
    ofName? s = some p ↔ normalizeName s = p.name := by
  unfold ofName?
  constructor
  · intro h
    have hname := List.find?_some h
    exact (eq_of_beq hname).symm
  · intro h
    rw [h]
    cases p <;> decide

@[simp] theorem ofName?_name (p : Pattern) : ofName? p.name = some p :=
  ofName?_eq_some_iff.mpr (normalizeName_name p)

end Pattern

end PatternFinder
