/-! Concrete syntax trees as a grammar delivers them. -/
namespace PatternFinder

/-- The names under which a parent can ask for one particular child. -/
inductive Field where
  | name | body | type | qualifier | alias | parameters | returns | accessors | condition
  | consequence | alternative | arguments | initializer | function | expression
deriving Repr, BEq, ReflBEq, LawfulBEq, DecidableEq, Inhabited

namespace Field

def all : List (String × Field) :=
  [("name", .name), ("body", .body), ("type", .type), ("qualifier", .qualifier), ("alias", .alias),
    ("parameters", .parameters), ("returns", .returns), ("accessors", .accessors),
    ("condition", .condition), ("consequence", .consequence), ("alternative", .alternative),
    ("arguments", .arguments), ("initializer", .initializer), ("function", .function),
    ("expression", .expression)]

def ofString? (s : String) : Option Field := all.lookup s

end Field

/-- A node covers the bytes from `start` up to `stop`. `field` is the name under which its parent
finds it. Punctuation and keywords are not `named`; `error` marks text that could not be parsed and
`missing` a token that the parser had to invent. -/
structure Node where
  kind : String
  start : Nat
  stop : Nat
  field : Option Field
  named : Bool
  error : Bool
  missing : Bool
  children : List Node
deriving Repr, Inhabited

/-- A line of a preorder listing: a node without its children, and how many it has. -/
structure NodeRow where
  kind : String
  start : Nat
  stop : Nat
  field : Option Field
  named : Bool
  error : Bool
  missing : Bool
  childCount : Nat
deriving Repr, Inhabited

namespace Node

theorem sizeOf_lt_of_mem {c n : Node} (h : c ∈ n.children) : sizeOf c < sizeOf n := by
  cases n with
  | mk _ _ _ _ _ _ _ children =>
    have : sizeOf c < sizeOf children := List.sizeOf_lt_of_mem h
    simp only [Node.mk.sizeOf_spec]
    omega

def namedChildren (n : Node) : List Node := n.children.filter (·.named)

/-- The child that carries the given field. -/
def child? (n : Node) (f : Field) : Option Node := n.children.find? (·.field == some f)

/-- The first named child of the given kind. -/
def namedOf? (n : Node) (kind : String) : Option Node := n.namedChildren.find? (·.kind == kind)

def isComment (n : Node) : Bool := n.kind == "comment"

/-- A node that the parser reports as a syntax error. -/
def isFault (n : Node) : Bool := n.error || n.missing

theorem mem_of_mem_namedChildren {c n : Node} (h : c ∈ n.namedChildren) : c ∈ n.children :=
  (List.mem_filter.mp h).1

theorem mem_of_child? {c n : Node} {f : Field} (h : n.child? f = some c) : c ∈ n.children :=
  List.mem_of_find?_eq_some h

theorem mem_of_namedOf? {c n : Node} {kind : String} (h : n.namedOf? kind = some c) :
    c ∈ n.children :=
  mem_of_mem_namedChildren (List.mem_of_find?_eq_some h)

/-- Put one row in front of the trees that follow it: it takes its children from their front. -/
private def attach (row : NodeRow) (rest : List Node) : Option (List Node) :=
  if row.childCount ≤ rest.length then
    some (⟨row.kind, row.start, row.stop, row.field, row.named, row.error, row.missing,
      rest.take row.childCount⟩ :: rest.drop row.childCount)
  else none

/-- The tree that a preorder listing describes. -/
def ofPreorder? (rows : List NodeRow) : Option Node :=
  match rows.foldr (fun row rest => rest.bind (attach row)) (some []) with
  | some [root] => some root
  | _ => none

end Node

end PatternFinder
