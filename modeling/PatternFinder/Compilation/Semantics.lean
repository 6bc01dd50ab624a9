import PatternFinder.Model.Declaration
import Std.Data.HashMap

/-! What is known of types by name: the interfaces they support and the elements they hold. -/
namespace PatternFinder

/-- The interfaces of the library types that are known without a declaration. -/
def catalog? (name : String) : Option (List String) :=
  match name with
  | "List" | "Collection" | "ObservableCollection" | "ReadOnlyCollection" | "ArrayList"
  | "KeyedCollection" | "BindingList" =>
    some ["IList", "ICollection", "IEnumerable", "IReadOnlyList", "IReadOnlyCollection"]
  | "LinkedList" | "Queue" | "Stack" | "ConcurrentQueue" | "ConcurrentStack" | "ConcurrentBag"
  | "BlockingCollection" => some ["ICollection", "IEnumerable", "IReadOnlyCollection"]
  | "HashSet" | "SortedSet" =>
    some ["ISet", "ICollection", "IEnumerable", "IReadOnlySet", "IReadOnlyCollection"]
  | "Dictionary" | "SortedDictionary" | "SortedList" | "ConcurrentDictionary" | "Hashtable" =>
    some ["IDictionary", "ICollection", "IEnumerable", "IReadOnlyDictionary", "IReadOnlyCollection"]
  | "IList" | "IDictionary" | "ISet" => some ["ICollection", "IEnumerable"]
  | "ICollection" | "IReadOnlyCollection" | "IReadOnlyList" | "IReadOnlyDictionary"
  | "IReadOnlySet" => some ["IEnumerable"]
  | "IEnumerable" => some []
  | _ => none

/-- A type is a collection when it supports one of these. -/
def collectionContracts : List String := ["ICollection", "IList", "IDictionary", "ISet"]

def arrayInterfaces : List String :=
  ["IList", "ICollection", "IEnumerable", "IReadOnlyList", "IReadOnlyCollection"]

/-- The declared types by name, each with its base list; declarations of one name are merged. -/
structure Semantics where
  declared : Std.HashMap String (List TypeRef)

namespace Semantics

def ofTypes (types : List TypeDeclaration) : Semantics :=
  ⟨types.foldr (fun t m => m.insert t.identifier (t.baseTypes ++ m.getD t.identifier [])) ∅⟩

def ofTrees (trees : List SourceTree) : Semantics := ofTypes (trees.flatMap (·.types))

/-- Only the catalog, without declarations. -/
def catalogOnly : Semantics := ofTypes []

def bases? (m : Semantics) (name : String) : Option (List TypeRef) := m.declared[name]?

/-- The declared names that a search has not visited yet. -/
def unseen (m : Semantics) (seen : List String) : List String :=
  m.declared.keys.filter (!seen.contains ·)

theorem unseen_cons (m : Semantics) (name : String) (seen : List String) :
    m.unseen (name :: seen) = (m.unseen seen).filter (· != name) := by
  rw [unseen, unseen, List.filter_filter]
  congr 1
  funext x
  rw [List.contains_cons, Bool.not_or, bne]

theorem unseen_length_le (m : Semantics) (name : String) (seen : List String) :
    (m.unseen (name :: seen)).length ≤ (m.unseen seen).length := by
  rw [unseen_cons]
  exact List.length_filter_le _ _

theorem unseen_length_lt (m : Semantics) {name : String} {seen : List String} {bs : List TypeRef}
    (hd : m.bases? name = some bs) (hs : seen.contains name = false) :
    (m.unseen (name :: seen)).length < (m.unseen seen).length := by
  have hk : name ∈ m.declared.keys := by
    rw [Std.HashMap.mem_keys, Std.HashMap.mem_iff_isSome_getElem?]
    exact Option.isSome_of_eq_some hd
  rw [unseen_cons, List.length_filter_lt_length_iff_exists]
  exact ⟨name, List.mem_filter.mpr ⟨hk, by rw [hs]; rfl⟩, by simp⟩

/-- What the search adds for one name: its catalog interfaces and the names in its base list. -/
def direct (m : Semantics) (name : String) : List String :=
  (catalog? name).getD [] ++ ((m.bases? name).getD []).filterMap TypeRef.identifier?

/-- Supertypes of the names on a stack of pending names, top first; a name is expanded once. -/
def supertypesFrom (m : Semantics) (seen : List String) : List String → List String
  | [] => []
  | name :: pending =>
    if _hs : seen.contains name then supertypesFrom m seen pending
    else
      m.direct name ++
        match _hd : m.bases? name with
        | some bs =>
          supertypesFrom m (name :: seen) (bs.filterMap TypeRef.identifier? ++ pending)
        | none => supertypesFrom m (name :: seen) pending
termination_by pending => ((m.unseen seen).length, pending.length)
decreasing_by
  · exact Prod.Lex.right _ (by simp)
  · exact Prod.Lex.left _ _ (unseen_length_lt m _hd (by simpa using _hs))
  · rcases Nat.lt_or_eq_of_le (unseen_length_le m name seen) with h | h
    · exact Prod.Lex.left _ _ h
    · rw [h]; exact Prod.Lex.right _ (by simp)

/-- The elements of a list in increasing order, each once. -/
def sortedSet (xs : List String) : List String :=
  (xs.eraseDups).mergeSort (fun a b => decide (a ≤ b))

/-- A name is resolved when it is in the catalog or declared. -/
def resolves (m : Semantics) (name : String) : Bool :=
  (catalog? name).isSome || (m.bases? name).isSome

/-- The interfaces and base types of a type, as far as they are known; `none` for a type that is
neither in the catalog nor declared. -/
def interfaces (m : Semantics) : TypeRef → Option (List String)
  | .predefined keyword =>
    if keyword == "string" then some ["IEnumerable", "IComparable"] else some []
  | .array _ => some arrayInterfaces
  | .nullable inner => interfaces m inner
  | .named name _ _ => if m.resolves name then some (sortedSet (m.supertypesFrom [] [name])) else none
  | .other _ => none

def isCollection (m : Semantics) (t : TypeRef) : Option Bool :=
  (m.interfaces t).map fun supported =>
    (t.identifier?.any collectionContracts.contains) || supported.any collectionContracts.contains

/-- Dictionaries hold their last type argument, other collections their first. -/
def holdsLastArgument (m : Semantics) (name : String) : Bool :=
  name == "KeyedCollection" || name == "IDictionary" || name == "IReadOnlyDictionary" ||
    (m.interfaces (.simple name)).any (·.contains "IDictionary")

/-- The first element type found among types on a stack, top first; a name is expanded once. -/
def elementFrom (m : Semantics) (seen : List String) : List TypeRef → Option TypeRef
  | [] => none
  | .array element :: _ => some element
  | .nullable inner :: pending => elementFrom m seen (inner :: pending)
  | .named name _ (a :: as) :: _ =>
    if m.holdsLastArgument name then some ((a :: as).getLast (by simp)) else some a
  | .named name _ [] :: pending =>
    if _hs : seen.contains name then elementFrom m seen pending
    else match _hd : m.bases? name with
      | some bs => elementFrom m (name :: seen) (bs ++ pending)
      | none => elementFrom m (name :: seen) pending
  | .predefined _ :: pending => elementFrom m seen pending
  | .other _ :: pending => elementFrom m seen pending
termination_by pending => ((m.unseen seen).length, sizeOf pending)
decreasing_by
  · exact Prod.Lex.right _ (by simp only [List.cons.sizeOf_spec, TypeRef.nullable.sizeOf_spec]; omega)
  · exact Prod.Lex.right _ (by simp only [List.cons.sizeOf_spec]; omega)
  · exact Prod.Lex.left _ _ (unseen_length_lt m _hd (by simpa using _hs))
  · rcases Nat.lt_or_eq_of_le (unseen_length_le m name seen) with h | h
    · exact Prod.Lex.left _ _ h
    · rw [h]; exact Prod.Lex.right _ (by simp only [List.cons.sizeOf_spec]; omega)
  · exact Prod.Lex.right _ (by simp only [List.cons.sizeOf_spec]; omega)
  · exact Prod.Lex.right _ (by simp only [List.cons.sizeOf_spec]; omega)

/-- The type of the elements that a type holds. -/
def elementType (m : Semantics) (t : TypeRef) : Option TypeRef := m.elementFrom [] [t]

end Semantics

end PatternFinder
