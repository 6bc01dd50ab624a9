import PatternFinder.Pattern.Basic
import PatternFinder.Pattern.Decorator
import PatternFinder.Pattern.FactoryMethod
import PatternFinder.Pattern.Flyweight
import PatternFinder.Pattern.Singleton

/-! The checks of all patterns, and a dispatcher that evaluates one at a time. -/
namespace PatternFinder

/-- A check together with the declaration it is about. -/
inductive Check where
  | hasPrivateConstructor (t : TypeDeclaration)
  | hasPrivateStaticSelfField (t : TypeDeclaration)
  | hasGetInstanceSelfMethod (t : TypeDeclaration)
  | isAbstractFactoryMethod (m : MethodDeclaration)
  | overridesAbstractFactoryMethod (m : MethodDeclaration)
  | isProductInterface (t : TypeDeclaration)
  | isConcreteProduct (t : TypeDeclaration)
  | declarationWithFactoryMethod (l : LocalDeclaration)
  | hasAbstractClass (t : TypeDeclaration)
  | hasPrivateField (t : TypeDeclaration) (context : Decorator.Context)
  | hasConstructor (t : TypeDeclaration) (context : Decorator.Context)
  | wrapsInStatement (l : LocalDeclaration)
  | hasCollection (f : FieldDeclaration)
  | hasGetMethod (m : MethodDeclaration) (context : Flyweight.Context)

namespace Check

/-- The name of a check in reports. -/
def name : Check → String
  | .hasPrivateConstructor _ => "HasPrivateConstructor"
  | .hasPrivateStaticSelfField _ => "HasPrivateStaticSelfField"
  | .hasGetInstanceSelfMethod _ => "HasGetInstanceSelfMethod"
  | .isAbstractFactoryMethod _ => "IsAbstractFactoryMethod"
  | .overridesAbstractFactoryMethod _ => "OverridesAbstractFactoryMethod"
  | .isProductInterface _ => "IsProductInterface"
  | .isConcreteProduct _ => "IsConcreteProduct"
  | .declarationWithFactoryMethod _ => "DeclarationWithFactoryMethod"
  | .hasAbstractClass _ => "HasAbstractClass"
  | .hasPrivateField _ _ => "HasPrivateStaticField"
  | .hasConstructor _ _ => "HasConstructor"
  | .wrapsInStatement _ => "AnalyzeStatement"
  | .hasCollection _ => "HasFlyweightCollection"
  | .hasGetMethod _ _ => "HasGetFlyweightMethod"

def pattern : Check → Pattern
  | .hasPrivateConstructor _ | .hasPrivateStaticSelfField _ | .hasGetInstanceSelfMethod _ =>
    .singleton
  | .isAbstractFactoryMethod _ | .overridesAbstractFactoryMethod _ | .isProductInterface _
  | .isConcreteProduct _ | .declarationWithFactoryMethod _ => .factoryMethod
  | .hasAbstractClass _ | .hasPrivateField _ _ | .hasConstructor _ _ | .wrapsInStatement _ =>
    .decorator
  | .hasCollection _ | .hasGetMethod _ _ => .flyweight

def evaluate (c : Compilation) : Check → Outcome
  | .hasPrivateConstructor t => Singleton.hasPrivateConstructor t
  | .hasPrivateStaticSelfField t => Singleton.hasPrivateStaticSelfField t
  | .hasGetInstanceSelfMethod t => Singleton.hasGetInstanceSelfMethod t
  | .isAbstractFactoryMethod m => FactoryMethod.isAbstractFactoryMethod m
  | .overridesAbstractFactoryMethod m => FactoryMethod.overridesAbstractFactoryMethod m
  | .isProductInterface t => FactoryMethod.isProductInterface t c
  | .isConcreteProduct t => FactoryMethod.isConcreteProduct t c
  | .declarationWithFactoryMethod l => FactoryMethod.declarationWithFactoryMethod l c
  | .hasAbstractClass t => Decorator.hasAbstractClass t c
  | .hasPrivateField t context => Decorator.hasPrivateField t context
  | .hasConstructor t context => Decorator.hasConstructor t context
  | .wrapsInStatement l => Decorator.wrapsInStatement l
  | .hasCollection f => Flyweight.hasCollection f c
  | .hasGetMethod m context => Flyweight.hasGetMethod m context

end Check

/-- A dispatcher holds one check at a time and remembers what its last run said. -/
structure Dispatcher where
  bound : Option Check
  location : Option Location
  last : Option Outcome

namespace Dispatcher

def idle : Dispatcher := ⟨none, none, none⟩

/-- Binding a check forgets what the previous one said. -/
def bind (_ : Dispatcher) (check : Check) : Dispatcher := ⟨some check, none, none⟩

/-- Evaluate the bound check; without one the answer is no. The place is kept for matches only. -/
def run (d : Dispatcher) (c : Compilation) : Bool × Dispatcher :=
  match d.bound with
  | none => (false, { d with location := none })
  | some check =>
    let outcome := check.evaluate c
    (outcome.matched,
      { d with location := if outcome.matched then outcome.location else none, last := some outcome })

def isBound (d : Dispatcher) : Bool := d.bound.isSome

def boundName? (d : Dispatcher) : Option String := d.bound.map Check.name

def evidence? (d : Dispatcher) : Option String := d.last.bind (·.evidence)

end Dispatcher

end PatternFinder
