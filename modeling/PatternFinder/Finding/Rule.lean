import PatternFinder.Finding.Severity
import PatternFinder.Pattern.Basic
import PatternFinder.Text.Basic

/-! The rules under which findings are reported, one for each pattern. -/
namespace PatternFinder

structure Rule where
  id : String
  title : String
  /-- The message, with `{0}` for the subject and `{1}` for the check. -/
  template : String
  category : String
  defaultSeverity : Severity
deriving Repr, BEq, DecidableEq, Inhabited

namespace Rule

/-- The subject is put in first, so a placeholder for the check inside it is filled in too. -/
def message (r : Rule) (subject check : String) : String :=
  Text.replace (Text.replace r.template "\x7b0\x7d" subject) "\x7b1\x7d" check

private def partOf (pattern : String) : String :=
  "'\x7b0\x7d' takes part in the " ++ pattern ++ " pattern (\x7b1\x7d)"

def ofPattern : Pattern → Rule
  | .singleton => ⟨"SingletonPatternAnalyzer", "Singleton pattern",
      "'\x7b0\x7d' implements the Singleton pattern", "Creational design pattern", .info⟩
  | .factoryMethod => ⟨"FactoryMethodPatternAnalyzer", "Factory Method pattern",
      partOf "Factory Method", "Creational design pattern", .info⟩
  | .decorator => ⟨"DecoratorPatternAnalyzer", "Decorator pattern", partOf "Decorator",
      "Structural design pattern", .info⟩
  | .flyweight => ⟨"FlyweightPatternAnalyzer", "Flyweight pattern", partOf "Flyweight",
      "Structural design pattern", .info⟩

end Rule

end PatternFinder
