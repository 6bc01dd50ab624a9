import PatternFinder.Lowering.Member
import PatternFinder.Proofs.Descent
import PatternFinder.Source.Faults

/-! A body keeps the facts that reading comes to, and no others. -/
namespace PatternFinder

namespace Block

/-- The places of the facts of one kind in a body. -/
def places (b : Block) : FactKind → List Location
  | .creation => b.creations.map (·.location)
  | .call => b.calls.map (·.location)
  | .branch => b.branches.map (·.location)
  | .local => b.locals.map (·.location)

private theorem mem_map_filterMap {α : Type} {get : BodyNode → Option α} {place : α → Location}
    {f : Fact} (h : ∀ n, (∃ x, get n = some x ∧ place x = f.location) ↔ n.fact? = some f)
    (ns : List BodyNode) :
    f.location ∈ (ns.filterMap get).map place ↔ f ∈ ns.filterMap BodyNode.fact? := by
  simp only [List.mem_map, List.mem_filterMap, ← h]
  constructor
  · rintro ⟨x, ⟨n, hn, hx⟩, hplace⟩
    exact ⟨n, hn, x, hx, hplace⟩
  · rintro ⟨n, hn, x, hx, hplace⟩
    exact ⟨x, ⟨n, hn, hx⟩, hplace⟩

theorem mem_places_iff {b : Block} {kind : FactKind} {l : Location} :
    l ∈ b.places kind ↔ ⟨kind, l⟩ ∈ b.walk.filterMap BodyNode.fact? := by
  cases kind with
  | creation =>
    refine mem_map_filterMap (f := ⟨.creation, l⟩) ?_ b.walk
    rintro ((_ | _ | _) | (_ | _ | _ | _ | _ | _)) <;> simp [BodyNode.creation?]
  | call =>
    refine mem_map_filterMap (f := ⟨.call, l⟩) ?_ b.walk
    rintro ((_ | _ | _) | (_ | _ | _ | _ | _ | _)) <;> simp [BodyNode.call?]
  | branch =>
    refine mem_map_filterMap (f := ⟨.branch, l⟩) ?_ b.walk
    rintro ((_ | _ | _) | (_ | _ | _ | _ | _ | _)) <;> simp [BodyNode.branch?]
  | «local» =>
    refine mem_map_filterMap (f := ⟨.local, l⟩) ?_ b.walk
    rintro ((_ | _ | _) | (_ | _ | _ | _ | _ | _)) <;> simp [BodyNode.local?]

end Block

namespace Lowering

/-- What is read first in the body of a member. -/
def entries (body : Node) : List Part :=
  if body.kind == "block" then (contents body).map .statement
  else (contents body).map .expression

def Reaches (body : Node) (p : Part) : Prop := ∃ entry ∈ entries body, entry.Reads p

theorem bodyOf_isSome {src : SourceText} {r : Reader} {body : Node}
    (h : body.kind = "block" ∨ body.kind = "arrow_expression_clause") :
    ∃ block, bodyOf src r body = some block := by
  rcases h with h | h <;> simp [bodyOf, h]

theorem facts_bodyOf {src : SourceText} {r : Reader} {body : Node} {block : Block}
    (h : bodyOf src r body = some block) :
    block.walk.filterMap BodyNode.fact? = (entries body).flatMap r.facts := by
  unfold bodyOf at h
  split at h
  case h_1 hkind =>
    obtain rfl := Option.some.inj h
    simp [Block.walk, entries, hkind, statements, facts_statements]
  case h_2 hkind =>
    obtain rfl := Option.some.inj h
    simp [Block.walk, entries, hkind, Statement.walkAll, Statement.walk, expressions,
      facts_expressions, List.filterMap_cons]
  case h_3 => cases h

theorem node_below_of_mem_entries {body : Node} {p : Part} (h : p ∈ entries body) :
    Node.Below body p.node := by
  unfold entries at h
  split_ifs at h
  · exact Part.below_of_mem_map (fun _ => rfl) (fun _ hm => hm) h
  · exact Part.below_of_mem_map (fun _ => rfl) (fun _ hm => hm) h

/-- The facts of a body that is not too deep are the nodes that reading comes to. -/
theorem mem_places_bodyOf_iff {src : SourceText} {body : Node} {block : Block}
    (hblock : bodyOf src (bodyReader src) body = some block) (hheight : body.height < maxDepth)
    {kind : FactKind} {l : Location} :
    l ∈ block.places kind ↔ ∃ p, Reaches body p ∧ p.factKind? = some kind ∧
      src.location p.node = l := by
  have hlevels : ∀ entry ∈ entries body, entry.node.height < maxDepth - 1 := by
    intro entry hentry
    have := (node_below_of_mem_entries hentry).height_lt
    omega
  have hfact : ∀ p : Part, p.fact? src = some ⟨kind, l⟩ ↔
      p.factKind? = some kind ∧ src.location p.node = l := by
    intro p
    cases hkind : p.factKind? <;> simp [Part.fact?, hkind]
  simp only [Block.mem_places_iff, facts_bodyOf hblock, List.mem_flatMap, bodyReader,
    facts_reader, List.mem_filterMap, hfact]
  constructor
  · rintro ⟨entry, hentry, p, hp, hkind⟩
    exact ⟨p, ⟨entry, hentry, (Part.mem_readings_iff (hlevels entry hentry)).mp hp⟩, hkind⟩
  · rintro ⟨p, ⟨entry, hentry, hp⟩, hkind⟩
    exact ⟨entry, hentry, p, (Part.mem_readings_iff (hlevels entry hentry)).mpr hp, hkind⟩

def factKindOf? (kind : String) : Option FactKind :=
  match kind with
  | "object_creation_expression" | "implicit_object_creation_expression" => some .creation
  | "invocation_expression" => some .call
  | "if_statement" => some .branch
  | "local_declaration_statement" => some .local
  | _ => none

/-- A construction, a call, an `if` statement or a declaration of local variables anywhere in a body
that is not too deep is kept exactly when reading comes to such a node in the same place. Reading
does not come to what a call applies unless it is the receiver of a member access, nor into
literals, nor to a statement where an expression is read. -/
theorem fact_kept_iff_reached (src : SourceText) (body : Node)
    (hbody : body.kind = "block" ∨ body.kind = "arrow_expression_clause")
    (hheight : body.height < maxDepth) :
    ∃ block, bodyOf src (bodyReader src) body = some block ∧
      ∀ n kind, Node.Below body n → factKindOf? n.kind = some kind →
        (src.location n ∈ block.places kind ↔ ∃ p, Reaches body p ∧ p.factKind? = some kind ∧
          src.location p.node = src.location n) := by
  obtain ⟨block, hblock⟩ := bodyOf_isSome hbody
  exact ⟨block, hblock, fun n kind _ _ => mem_places_bodyOf_iff hblock hheight⟩

/-- A file in which the result of a call is called. -/
def curriedSource : SourceText :=
  .ofBytes "w.cs" ("class T \x7b\n  public B Run(B p) \x7b\n    var x = f[0]();\n" ++
    "    var x = f()();\n  \x7d\n\x7d\n").toUTF8

private def curriedNode (kind : String) (start stop : Nat) (field : Option Field)
    (children : List Node) : Node :=
  ⟨kind, start, stop, field, true, false, false, children⟩

/-- The call whose result is called. -/
def innerCall : Node :=
  curriedNode "invocation_expression" 64 67 (some .function)
    [curriedNode "identifier" 64 65 (some .function) [],
      curriedNode "argument_list" 65 67 (some .arguments) []]

def outerCall : Node :=
  curriedNode "invocation_expression" 64 69 none
    [innerCall, curriedNode "argument_list" 67 69 (some .arguments) []]

def curriedDeclaration : Node :=
  curriedNode "local_declaration_statement" 56 70 none
    [curriedNode "variable_declaration" 56 69 none
      [curriedNode "implicit_type" 56 59 (some .type) [],
        curriedNode "variable_declarator" 60 69 none
          [curriedNode "identifier" 60 61 (some .name) [], outerCall]]]

def indexedDeclaration : Node :=
  curriedNode "local_declaration_statement" 36 51 none
    [curriedNode "variable_declaration" 36 50 none
      [curriedNode "implicit_type" 36 39 (some .type) [],
        curriedNode "variable_declarator" 40 50 none
          [curriedNode "identifier" 40 41 (some .name) [],
            curriedNode "invocation_expression" 44 50 none
              [curriedNode "element_access_expression" 44 48 (some .function)
                [curriedNode "identifier" 44 45 (some .expression) [],
                  curriedNode "bracketed_argument_list" 45 48 none
                    [curriedNode "argument" 46 47 none
                      [curriedNode "integer_literal" 46 47 none []]]],
                curriedNode "argument_list" 48 50 (some .arguments) []]]]]

def curriedBody : Node :=
  curriedNode "block" 30 74 (some .body) [indexedDeclaration, curriedDeclaration]

theorem below_outerCall : Node.Below curriedBody outerCall := by
  refine .deeper (c := curriedDeclaration) (List.mem_cons_of_mem _ List.mem_cons_self) ?_
  refine .deeper List.mem_cons_self ?_
  refine .deeper (List.mem_cons_of_mem _ List.mem_cons_self) ?_
  exact .child (List.mem_cons_of_mem _ List.mem_cons_self)

/-- The call of the result of a call is kept. -/
theorem fact_kept_iff_reached_curried :
    ∃ block, bodyOf curriedSource (bodyReader curriedSource) curriedBody = some block ∧
      curriedSource.location outerCall ∈ block.places .call := by
  obtain ⟨block, hblock, hkept⟩ := fact_kept_iff_reached curriedSource curriedBody (.inl rfl)
    (by decide)
  refine ⟨block, hblock, (hkept outerCall .call below_outerCall rfl).mpr ?_⟩
  refine ⟨.expression outerCall, ⟨.statement curriedDeclaration, ?_, ?_⟩, rfl, rfl⟩
  · exact List.mem_cons_of_mem _ List.mem_cons_self
  · exact .step List.mem_cons_self (.refl _)

/-- The call whose result is called is not kept, though nothing is wrong with the body. -/
theorem curried_call_lost :
    curriedBody.hasFault = false ∧ curriedBody.height < maxDepth ∧
      Node.Below curriedBody innerCall ∧ factKindOf? innerCall.kind = some .call ∧
      ∃ block, bodyOf curriedSource (bodyReader curriedSource) curriedBody = some block ∧
        curriedSource.location innerCall ∉ block.places .call := by
  refine ⟨by decide, by decide, ?_, rfl, _, rfl, by decide +kernel⟩
  exact below_outerCall.child_of List.mem_cons_self

end Lowering

end PatternFinder
