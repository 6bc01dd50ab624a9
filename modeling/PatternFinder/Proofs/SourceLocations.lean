import PatternFinder.Proofs.CommentFree
import PatternFinder.Proofs.FactOrigin
import PatternFinder.Proofs.Truncation
import PatternFinder.Proofs.WalkDepth

/-! The locations in the declarations of a file: each is the place of a node, and they nest as the
declarations, statements and expressions do. -/
namespace PatternFinder
open scoped List

/-- Positions are in order of line, then of column. -/
instance : LE Position := ⟨fun a b => a.line < b.line ∨ a.line = b.line ∧ a.column ≤ b.column⟩

theorem Position.le_def {a b : Position} :
    a ≤ b ↔ a.line < b.line ∨ a.line = b.line ∧ a.column ≤ b.column := Iff.rfl

def Range.Within (r s : Range) : Prop := s.start ≤ r.start ∧ r.stop ≤ s.stop

def Location.Within (l m : Location) : Prop := l.file = m.file ∧ l.range.Within m.range

/-- A later offset is not in front of an earlier one in the text. -/
theorem SourceText.position_mono (src : SourceText) {a b : Nat} (h : a ≤ b) :
    src.position a ≤ src.position b := by
  have hsub : (src.newlines.filter (· < a)).Sublist (src.newlines.filter (· < b)) := by
    refine List.monotone_filter_right _ fun offset hoffset => ?_
    have hlt : offset < a := of_decide_eq_true hoffset
    exact decide_eq_true (Nat.lt_of_lt_of_le hlt h)
  rw [Position.le_def]
  unfold position
  rcases Nat.lt_or_eq_of_le hsub.length_le with hlt | heq
  · exact .inl hlt
  · -- no line ends in between, so both columns count from the same line end
    refine .inr ⟨heq, ?_⟩
    rw [hsub.eq_of_length heq]
    exact Nat.sub_le_sub_right h _

namespace Node

/-- The bytes of every node lie within those of its parent. -/
def RangesNest (root : Node) : Prop :=
  ∀ n ∈ root.family, ∀ c ∈ n.children, n.start ≤ c.start ∧ c.stop ≤ n.stop

instance (root : Node) : Decidable root.RangesNest :=
  inferInstanceAs (Decidable (∀ n ∈ root.family, ∀ c ∈ n.children, _ ∧ _))

theorem mem_family_iff {n d : Node} : d ∈ n.family ↔ d = n ∨ Below n d := by
  rw [family, List.mem_cons, mem_descendants_iff]

theorem self_mem_family (n : Node) : n ∈ n.family := List.mem_cons_self

theorem mem_family_of_below {n d : Node} (h : Below n d) : d ∈ n.family :=
  mem_family_iff.mpr (.inr h)

theorem mem_family_of_child {n c : Node} (h : c ∈ n.children) : c ∈ n.family :=
  mem_family_of_below (.child h)

theorem family_subset {n d : Node} (h : d ∈ n.family) : d.family ⊆ n.family := by
  rcases mem_family_iff.mp h with rfl | h
  · exact List.Subset.refl _
  · exact fun e he => List.mem_cons_of_mem _ (h.family_sublist.subset he)

namespace RangesNest

theorem of_mem {root n : Node} (h : root.RangesNest) (hn : n ∈ root.family) : n.RangesNest :=
  fun m hm => h m (family_subset hn hm)

theorem bounds {n d : Node} (h : n.RangesNest) (hd : d ∈ n.family) :
    n.start ≤ d.start ∧ d.stop ≤ n.stop := by
  rcases mem_family_iff.mp hd with rfl | hbelow
  · exact ⟨Nat.le_refl _, Nat.le_refl _⟩
  · clear hd
    induction hbelow with
    | child hc => exact h _ (self_mem_family _) _ hc
    | deeper hc _ ih =>
      obtain ⟨hstart, hstop⟩ := h _ (self_mem_family _) _ hc
      obtain ⟨hstart', hstop'⟩ := ih (h.of_mem (mem_family_of_child hc))
      exact ⟨Nat.le_trans hstart hstart', Nat.le_trans hstop' hstop⟩

/-- The location of a node lies within that of every node above it. -/
theorem location_within {n d : Node} (h : n.RangesNest) (hd : d ∈ n.family) (src : SourceText) :
    (src.location d).Within (src.location n) := by
  obtain ⟨hstart, hstop⟩ := h.bounds hd
  exact ⟨rfl, src.position_mono hstart, src.position_mono hstop⟩

end RangesNest

end Node

namespace BodyNode

def walk : BodyNode → List BodyNode
  | .statement s => s.walk
  | .expression e => e.walk

/-- The location of a node that has one. -/
def location? : BodyNode → Option Location
  | .statement (.declare l) => some l.location
  | .statement (.branch c) => some c.location
  | .statement (.compound c) => some c.location
  | .expression (.creation c) => some c.location
  | .expression (.call c) => some c.location
  | .expression _ => none

/-- A walk meets the node itself, then what the walks over its children meet. -/
theorem walk_eq (x : BodyNode) : x.walk = x :: x.children.flatMap walk := by
  rcases x with (⟨_, _, _⟩ | ⟨_, _, _, _⟩ | ⟨_, _, _, _⟩) |
      (⟨_, _, _, _⟩ | ⟨_, _, _, _⟩ | _ | _ | _ | _) <;>
    simp [walk, Statement.walk, Expression.walk, children, LocalDeclaration.initializers,
      List.flatMap_map, Statement.walkAll_eq_flatMap, Expression.walkAll_eq_flatMap,
      Declarator.walkAll_eq_flatMap, Expression.walkOption_eq_flatMap]

end BodyNode

namespace Lowering
open Node

/-- The node `d` that a statement or an expression stands for is at `n` or below it, and what is in
the statement or the expression stands at or below `d`. -/
inductive Placed (src : SourceText) : Node → BodyNode → Prop
  | intro {n : Node} {x : BodyNode} (d : Node) (mem : d ∈ n.family)
    (location : ∀ l ∈ x.location?, l = src.location d)
    (children : ∀ c ∈ x.children, Placed src d c) : Placed src n x

namespace Placed

variable {src : SourceText} {n m : Node} {x y : BodyNode}

theorem mono (h : Placed src m x) (hm : m ∈ n.family) : Placed src n x := by
  obtain ⟨d, hd, hlocation, hchildren⟩ := h
  exact ⟨d, family_subset hm hd, hlocation, hchildren⟩

/-- What a walk comes to is placed where the walk starts. -/
theorem of_mem_walk (h : Placed src n x) (hy : y ∈ x.walk) : Placed src n y := by
  induction h with
  | @intro n x d hd hlocation hchildren ih =>
    rw [BodyNode.walk_eq] at hy
    rcases List.mem_cons.mp hy with rfl | hy
    · exact ⟨d, hd, hlocation, hchildren⟩
    · obtain ⟨c, hc, hy⟩ := List.mem_flatMap.mp hy
      exact (ih c hc hy).mono hd

theorem exists_node (h : Placed src n x) {l : Location} (hl : l ∈ x.location?) :
    ∃ d ∈ n.family, l = src.location d := by
  obtain ⟨d, hd, hlocation, -⟩ := h
  exact ⟨d, hd, hlocation l hl⟩

/-- What is in a statement or an expression lies within it. -/
theorem location_within (h : Placed src n x) (hnest : n.RangesNest) {l k : Location}
    (hl : l ∈ x.location?) (hy : y ∈ x.walk) (hk : k ∈ y.location?) : k.Within l := by
  obtain ⟨d, hd, hlocation, hchildren⟩ := h
  have hplaced : Placed src d x := ⟨d, self_mem_family d, hlocation, hchildren⟩
  obtain ⟨e, he, rfl⟩ := (hplaced.of_mem_walk hy).exists_node hk
  rw [hlocation l hl]
  exact (hnest.of_mem hd).location_within he src

end Placed

section Step

variable {src : SourceText} {r : Reader}

theorem map_read_statement (ns : List Node) :
    (ns.map Part.statement).map r.read = (ns.map r.statement).map .statement := by
  simp [Function.comp_def, Reader.read]

theorem map_read_expression (ns : List Node) :
    (ns.map Part.expression).map r.read = (ns.map r.expression).map .expression := by
  simp [Function.comp_def, Reader.read]

theorem map_read_listed (list : Option Node) :
    (listed list).map r.read = (elements r list).map .expression := by
  cases list with
  | none => rfl
  | some n => simp [listed, elements, expressions, Function.comp_def, Reader.read]

private theorem children_conditional (n : Node) :
    (BodyNode.statement (.branch (conditional src r n))).children =
      (conditionalParts n).map r.read := by
  unfold conditional conditionalParts
  cases n.child? .consequence with
  | some consequence =>
    cases n.child? .condition <;> cases n.child? .alternative <;> rfl
  | none =>
    have htake : ∀ ss : List Statement, ss.take 1 ++ (ss.drop 1).take 1 = ss.take 2 := by
      intro ss
      rcases ss with _ | ⟨_, _ | ⟨_, _⟩⟩ <;> rfl
    dsimp only [BodyNode.children]
    rw [htake, ← List.map_take, List.map_append, map_read_statement, map_read_expression]
    cases (contents n).find? (!isStatementKind ·.kind) <;> rfl

theorem children_statementStep (n : Node) :
    (BodyNode.statement (statementStep src r n)).children =
      (Part.statement n).parts.map r.read := by
  unfold statementStep Part.parts
  split
  case h_1 hkind =>
    have hinitial : (localDeclaration src r n).initializers = (initialNodes n).map r.expression :=
      initializers_declaration src r n
    simp only [hkind]
    rw [map_read_expression, BodyNode.children, hinitial]
  case h_2 hkind =>
    simp only [hkind]
    exact children_conditional n
  case h_3 hlocal hbranch =>
    simp only
    rw [List.map_append, map_read_statement, map_read_expression]
    rfl

theorem children_creation (explicit : Bool) (n : Node) :
    (BodyNode.expression (.creation (creation src r explicit n))).children =
      (listed (argumentList? n) ++ listed (initializerList? n)).map r.read := by
  rw [List.map_append, map_read_listed, map_read_listed, ← List.map_append]
  rfl

theorem children_invocation (n : Node) :
    (BodyNode.expression (.call (invocation src r n))).children =
      ((receiver? n).toList.map Part.expression ++ listed (argumentList? n)).map r.read := by
  rw [List.map_append, map_read_listed, map_read_expression, ← List.map_append]
  cases hr : receiver? n <;> simp [BodyNode.children, invocation, hr]

theorem children_other (n : Node) :
    (BodyNode.expression (.other (expressions r n))).children =
      ((contents n).map Part.expression).map r.read := by
  rw [map_read_expression]
  rfl

end Step

/-- All that is read of a part is placed at its node. -/
def Reader.Places (src : SourceText) (r : Reader) : Prop :=
  ∀ p : Part, Placed src p.node (r.read p)

namespace Reader.Places

variable {src : SourceText} {r : Reader}

/-- What is made up of what is read of the parts of a node. -/
theorem of_parts (h : r.Places src) (p : Part) {x : BodyNode}
    (hlocation : ∀ l ∈ x.location?, l = src.location p.node)
    (hchildren : x.children = p.parts.map r.read) : Placed src p.node x := by
  refine ⟨p.node, self_mem_family _, hlocation, fun c hc => ?_⟩
  rw [hchildren] at hc
  obtain ⟨q, hq, rfl⟩ := List.mem_map.mp hc
  exact (h q).mono (mem_family_of_below (Part.below_of_mem_parts hq))

theorem expression_of_mem (h : r.Places src) {n c : Node} (hc : c ∈ n.children) :
    Placed src n (.expression (r.expression c)) :=
  (h (.expression c)).mono (mem_family_of_child hc)

theorem statementStep (h : r.Places src) (n : Node) :
    Placed src n (.statement (statementStep src r n)) := by
  refine h.of_parts (.statement n) ?_ (children_statementStep n)
  intro l hl
  unfold Lowering.statementStep at hl
  split at hl
  case h_1 => exact (Option.some.inj hl).symm
  case h_2 =>
    have hconditional : (conditional src r n).location = src.location n := by
      unfold conditional
      cases n.child? .consequence <;> rfl
    rw [← Option.some.inj hl, hconditional]
    rfl
  case h_3 => exact (Option.some.inj hl).symm

/-- The statement that an expression stands for as the body of a lambda is at the expression. -/
theorem lambdaStatements (h : r.Places src) (n : Node) :
    Placed src n (.expression (.lambda (lambdaStatements src r n))) := by
  refine ⟨n, self_mem_family n, by simp [BodyNode.location?], fun x hx => ?_⟩
  obtain ⟨s, hs, rfl⟩ := List.mem_map.mp hx
  unfold Lowering.lambdaStatements at hs
  cases hbody : lambdaBody? n with
  | none => simp [hbody] at hs
  | some body =>
    have hchild := mem_family_of_child (mem_children_of_lambdaBody? hbody)
    simp only [hbody] at hs
    split_ifs at hs
    · obtain ⟨c, hc, rfl⟩ := List.mem_map.mp hs
      have hc := mem_family_of_child (mem_children_of_mem_contents hc)
      exact (h (.statement c)).mono (family_subset hchild hc)
    · obtain rfl := List.mem_singleton.mp hs
      refine ⟨body, hchild, by simp [BodyNode.location?], fun e he => ?_⟩
      obtain rfl : e = .expression (r.expression body) := by simpa [BodyNode.children] using he
      exact h (.expression body)

theorem expressionStep (h : r.Places src) (n : Node) :
    Placed src n (.expression (expressionStep src r n)) := by
  have hcreation : ∀ explicit, (Part.expression n).parts =
      listed (argumentList? n) ++ listed (initializerList? n) →
      Placed src n (.expression (.creation (creation src r explicit n))) := by
    intro explicit hparts
    refine h.of_parts (.expression n) (fun l hl => (Option.some.inj hl).symm) ?_
    rw [hparts, children_creation]
  have hother : (Part.expression n).parts = (contents n).map .expression →
      Placed src n (.expression (.other (expressions r n))) := by
    intro hparts
    refine h.of_parts (.expression n) (by simp [BodyNode.location?]) ?_
    rw [hparts, children_other]
  have hleaf : ∀ e : Expression, (BodyNode.expression e).location? = none →
      (BodyNode.expression e).children = [] → Placed src n (.expression e) := by
    intro e hlocation hchildren
    exact ⟨n, self_mem_family n, by simp [hlocation], by simp [hchildren]⟩
  unfold Lowering.expressionStep
  split
  case h_1 hkind => exact hcreation true (by simp [Part.parts, hkind])
  case h_2 hkind => exact hcreation false (by simp [Part.parts, hkind])
  case h_3 hkind =>
    refine h.of_parts (.expression n) (fun l hl => (Option.some.inj hl).symm) ?_
    simp only [Part.parts, hkind]
    exact children_invocation n
  case h_4 hkind =>
    split
    case h_1 e he =>
      -- the parentheses go, and what is in them stays in its place
      obtain ⟨c, hc, rfl⟩ : ∃ c ∈ contents n, r.expression c = e := by
        refine List.mem_map.mp (?_ : e ∈ expressions r n)
        rw [he]
        exact List.mem_singleton_self e
      exact h.expression_of_mem (mem_children_of_mem_contents hc)
    case h_2 => exact hother (by simp [Part.parts, hkind])
  case h_5 =>
    cases hlast : n.namedChildren.getLast? with
    | none => exact hleaf _ rfl rfl
    | some c =>
      exact h.expression_of_mem (mem_of_mem_namedChildren (List.mem_of_getLast? hlast))
  case h_6 => exact hleaf _ rfl rfl
  case h_7 => exact h.lambdaStatements n
  case h_8 => exact h.lambdaStatements n
  case h_9 hkind =>
    refine h.of_parts (.expression n) (by simp [BodyNode.location?]) ?_
    simp only [Part.parts, hkind]
    rw [map_read_statement]
    rfl
  case h_10 =>
    split_ifs with hliteral
    · exact hleaf _ rfl rfl
    · refine hother ?_
      unfold Part.parts
      simp_all

end Reader.Places

/-- All that is read of a node, to whatever depth, is placed at it. -/
theorem places_reader (src : SourceText) (levels : Nat) : (reader src levels).Places src := by
  induction levels with
  | zero =>
    intro p
    cases p with
    | statement n =>
      exact ⟨n, self_mem_family n, fun l hl => (Option.some.inj hl).symm, by
        simp [Reader.read, reader, truncated, BodyNode.children]⟩
    | expression n =>
      exact ⟨n, self_mem_family n, by simp [Reader.read, reader, truncated, BodyNode.location?], by
        simp [Reader.read, reader, truncated, BodyNode.children]⟩
  | succ levels ih =>
    intro p
    cases p with
    | statement n => exact ih.statementStep n
    | expression n => exact ih.expressionStep n

theorem mem_family_of_mem_bodyNodes {n body : Node} (h : body ∈ bodyNodes n) : body ∈ n.family := by
  have hapart := apart_bodyNodes n
  rw [Apart, ← descendants_eq_flatMap] at hapart
  refine List.mem_cons_of_mem n (hapart.subset ?_)
  exact List.mem_flatMap.mpr ⟨body, h, self_mem_family body⟩

theorem placed_bodyStatements {src : SourceText} {r : Reader} (h : r.Places src) {body : Node}
    {t : Statement} (ht : t ∈ bodyStatements src r body) : Placed src body (.statement t) := by
  unfold bodyStatements bodyOf at ht
  split at ht
  case h_1 =>
    obtain ⟨c, hc, rfl⟩ := List.mem_map.mp ht
    exact (h (.statement c)).mono (mem_family_of_child (mem_children_of_mem_contents hc))
  case h_2 =>
    obtain rfl := List.mem_singleton.mp ht
    refine ⟨body, self_mem_family body, by simp [BodyNode.location?], fun x hx => ?_⟩
    obtain ⟨c, hc, rfl⟩ : ∃ c ∈ contents body, .expression (r.expression c) = x := by
      simpa [BodyNode.children, expressions] using hx
    exact h.expression_of_mem (mem_children_of_mem_contents hc)
  case h_3 => cases ht

end Lowering

namespace Member

/-- What a walk over the body of a member meets, or over the initial values of a field. -/
def walk : Member → List BodyNode
  | .field f => Declarator.walkAll f.declarators
  | m => m.body?.elim [] Block.walk

/-- Of the members only methods have a place for their name. -/
def identifierLocation? : Member → Option Location
  | .method m => some m.identifierLocation
  | _ => none

/-- The locations in a member. -/
def locations (m : Member) : List Location :=
  m.location :: (m.identifierLocation?.toList ++ m.walk.filterMap BodyNode.location?)

/-- The name of a member and all in its body lie within it, and what is in a statement or an
expression lies within that. -/
structure Nests (m : Member) : Prop where
  identifier : ∀ l ∈ m.identifierLocation?, l.Within m.location
  contents : ∀ x ∈ m.walk, ∀ l ∈ x.location?, l.Within m.location
  inner : ∀ x ∈ m.walk, ∀ l ∈ x.location?, ∀ y ∈ x.walk, ∀ k ∈ y.location?, k.Within l

end Member

namespace TypeDeclaration

/-- The locations in a type, without the types nested in it. -/
def locations (t : TypeDeclaration) : List Location :=
  t.location :: t.identifierLocation :: t.members.flatMap Member.locations

/-- The name and the members of a type lie within it, and it lies within a type before it that has
the name it gives for the type around it. -/
structure Nests (types : List TypeDeclaration) (t : TypeDeclaration) : Prop where
  identifier : t.identifierLocation.Within t.location
  containing : ∀ name ∈ t.containingType,
    ∃ outer, [outer, t] <+ types ∧ outer.identifier = name ∧ t.location.Within outer.location
  members : ∀ m ∈ t.members, m.location.Within t.location ∧ m.Nests

end TypeDeclaration

/-- All locations in the declarations of a file. -/
def SourceTree.locations (t : SourceTree) : List Location :=
  t.types.flatMap TypeDeclaration.locations

namespace Lowering
open Node

section Member

variable {src : SourceText} {r : Reader} {n : Node} {m : Member}

theorem location_member? (h : member? src r n = some m) : m.location = src.location n := by
  unfold member? at h
  split at h <;> cases h <;> rfl

theorem exists_identifier_member? (h : member? src r n = some m) {l : Location}
    (hl : l ∈ m.identifierLocation?) : ∃ d ∈ n.family, l = src.location d := by
  unfold member? at h
  split at h
  case h_3 =>
    obtain rfl := Option.some.inj h
    obtain rfl := Option.some.inj hl
    cases hname : n.child? .name with
    | none => exact ⟨n, self_mem_family n, by simp [method, hname]⟩
    | some name =>
      exact ⟨name, mem_family_of_child (mem_of_child? hname), by simp [method, hname]⟩
  all_goals cases h <;> cases hl

theorem placed_of_mem_walk (hr : r.Places src) (h : member? src r n = some m) {x : BodyNode}
    (hx : x ∈ m.walk) : Placed src n x := by
  have hblock : x ∈ m.body?.elim [] Block.walk → Placed src n x := by
    intro hx
    cases hbody : m.body? with
    | none => simp [hbody] at hx
    | some block =>
      rw [hbody, Option.elim_some, Block.walk, Statement.walkAll_eq_flatMap] at hx
      obtain ⟨t, ht, hx⟩ := List.mem_flatMap.mp hx
      have hmember : memberBody? src r n = some block := by
        rw [memberBody?, h, Option.bind_some, hbody]
      rw [statements_memberBody? hmember] at ht
      obtain ⟨body, hmem, ht⟩ := List.mem_flatMap.mp ht
      have hplaced := (placed_bodyStatements hr ht).mono (mem_family_of_mem_bodyNodes hmem)
      exact hplaced.of_mem_walk hx
  cases m with
  | field f =>
    rw [Member.walk, Declarator.walkAll_eq_flatMap, initializers_field h] at hx
    obtain ⟨e, he, hx⟩ := List.mem_flatMap.mp hx
    obtain ⟨c, hc, rfl⟩ := List.mem_map.mp he
    have hc := mem_family_of_below (below_of_mem_initialNodes hc)
    exact ((hr (.expression c)).mono hc).of_mem_walk hx
  | constructor c => exact hblock hx
  | method c => exact hblock hx
  | property p => exact hblock hx

theorem exists_node_member? (hr : r.Places src) (h : member? src r n = some m) {l : Location}
    (hl : l ∈ m.locations) : ∃ d ∈ n.family, l = src.location d := by
  rcases List.mem_cons.mp hl with rfl | hl
  · exact ⟨n, self_mem_family n, location_member? h⟩
  rcases List.mem_append.mp hl with hl | hl
  · exact exists_identifier_member? h (Option.mem_toList.mp hl)
  · obtain ⟨x, hx, hl⟩ := List.mem_filterMap.mp hl
    exact (placed_of_mem_walk hr h hx).exists_node hl

theorem nests_member? (hr : r.Places src) (hnest : n.RangesNest) (h : member? src r n = some m) :
    m.Nests := by
  have hwithin : ∀ l : Location, (∃ d ∈ n.family, l = src.location d) → l.Within m.location := by
    rintro l ⟨d, hd, rfl⟩
    rw [location_member? h]
    exact hnest.location_within hd src
  constructor
  · intro l hl
    exact hwithin l (exists_identifier_member? h hl)
  · intro x hx l hl
    exact hwithin l ((placed_of_mem_walk hr h hx).exists_node hl)
  · intro x hx l hl y hy k hk
    exact (placed_of_mem_walk hr h hx).location_within hnest hl hy hk

end Member

section Types

variable {src : SourceText} {r : Reader} {root n : Node} {types : List TypeDeclaration}
  {ns owner : Option String} {t : TypeDeclaration}

/-- The node of the type is at or below that of a type before it that has the name. -/
def Contained (src : SourceText) (root : Node) (types : List TypeDeclaration) (name : String)
    (n : Node) (t : TypeDeclaration) : Prop :=
  ∃ outer, [outer, t] <+ types ∧ outer.identifier = name ∧
    ∃ d ∈ root.family, outer.location = src.location d ∧ n ∈ d.family

/-- The type is read of a node of the tree, and so is the type around it. -/
def ReadIn (src : SourceText) (r : Reader) (root : Node) (types : List TypeDeclaration)
    (t : TypeDeclaration) : Prop :=
  ∃ n ∈ root.family, ∃ ns owner, t = typeDeclaration src r ns owner n ∧
    ∀ name ∈ owner, Contained src root types name n t

private theorem readIn_of_mem_typeAndNested (hn : n ∈ root.family)
    (hsub : typeAndNested src r ns owner n <+ types)
    (howner : ∀ name ∈ owner, Contained src root types name n (typeDeclaration src r ns owner n))
    (ht : t ∈ typeAndNested src r ns owner n) : ReadIn src r root types t := by
  induction n using Node.below_induction generalizing owner with
  | step n ih =>
    rw [typeAndNested_eq] at ht hsub
    rcases List.mem_cons.mp ht with rfl | ht
    · exact ⟨n, hn, ns, owner, rfl, howner⟩
    · obtain ⟨c, hc, ht⟩ := List.mem_flatMap.mp ht
      have hbelow := below_of_mem_typeContents (List.mem_filter.mp hc).1
      have hfamily := mem_family_of_below hbelow
      have hnested : typeDeclaration src r ns owner n ::
          typeAndNested src r ns (some (src.fieldText n .name)) c <+ types := by
        refine .trans (.cons_cons _ ?_) hsub
        simpa using (List.singleton_sublist.mpr hc).flatMap
          (typeAndNested src r ns (some (src.fieldText n .name)))
      have hinner : ∀ name ∈ some (src.fieldText n .name), Contained src root types name c
          (typeDeclaration src r ns (some (src.fieldText n .name)) c) := by
        intro name hname
        refine ⟨_, .trans (.cons_cons _ ?_) hnested, Option.some.inj hname, n, hn, rfl, hfamily⟩
        rw [typeAndNested_eq]
        exact List.singleton_sublist.mpr List.mem_cons_self
      exact ih c hbelow (family_subset hn hfamily) (List.sublist_of_cons_sublist hnested) hinner ht

/-- The types of a row and of the rows below it. -/
theorem readIn_of_mem_typesIn {outer current : Option String} {row : List Node}
    (hrow : ∀ c ∈ row, c ∈ root.family) (hsub : typesIn src r outer current row <+ types)
    (ht : t ∈ typesIn src r outer current row) : ReadIn src r root types t := by
  have hchildren : ∀ c ∈ root.family, ∀ d ∈ c.children, d ∈ root.family :=
    fun c hc d hd => family_subset hc (mem_family_of_child hd)
  fun_induction typesIn src r outer current row with
  | case1 => cases ht
  | case2 outer current c rest hnamed ihrest =>
    exact ihrest (List.forall_mem_of_forall_mem_cons hrow) hsub ht
  | case3 outer current c rest hnamed hkind ns ihbody ihrest =>
    have hbody := (List.sublist_append_left _ _).trans hsub
    have hrest := (List.sublist_append_right _ _).trans hsub
    obtain ⟨hc, hrow⟩ := List.forall_mem_cons.mp hrow
    have hmem : (c.child? .body).getD c ∈ root.family := by
      cases hchild : c.child? .body with
      | none => exact hc
      | some body => exact hchildren c hc body (mem_of_child? hchild)
    rcases List.mem_append.mp ht with ht | ht
    · exact ihbody (hchildren _ hmem) hbody ht
    · exact ihrest hrow hrest ht
  | case4 outer current c rest hnamed hkind ns ihbody ihrest
  | case5 outer current c rest hnamed hkind ihbody ihrest
  | case6 outer current c rest hnamed hkind ihbody ihrest =>
    have hbody := (List.sublist_append_left _ _).trans hsub
    have hrest := (List.sublist_append_right _ _).trans hsub
    obtain ⟨hc, hrow⟩ := List.forall_mem_cons.mp hrow
    rcases List.mem_append.mp ht with ht | ht
    · exact ihbody (hchildren c hc) hbody ht
    · exact ihrest hrow hrest ht
  | case7 outer current c rest hnamed hns hkind hlist herror ihrest =>
    have hbody := (List.sublist_append_left _ _).trans hsub
    have hrest := (List.sublist_append_right _ _).trans hsub
    obtain ⟨hc, hrow⟩ := List.forall_mem_cons.mp hrow
    rcases List.mem_append.mp ht with ht | ht
    · split_ifs at ht hbody
      · exact readIn_of_mem_typeAndNested hc hbody (by simp) ht
      · cases ht
    · exact ihrest hrow hrest ht

theorem readIn_of_mem_types (ht : t ∈ Lowering.types src r root) :
    ReadIn src r root (Lowering.types src r root) t :=
  readIn_of_mem_typesIn (fun _ => mem_family_of_child) (List.Sublist.refl _) ht

/-- A type that is read of a node has its location, and its parts have theirs at or below it. -/
theorem exists_node_typeDeclaration (hr : r.Places src) {l : Location}
    (hl : l ∈ (typeDeclaration src r ns owner n).locations) :
    ∃ d ∈ n.family, l = src.location d := by
  simp only [TypeDeclaration.locations, List.mem_cons, List.mem_flatMap] at hl
  obtain rfl | rfl | ⟨m, hm, hl⟩ := hl
  · exact ⟨n, self_mem_family n, rfl⟩
  · cases hname : n.child? .name with
    | none => exact ⟨n, self_mem_family n, by simp [typeDeclaration, hname]⟩
    | some name =>
      exact ⟨name, mem_family_of_child (mem_of_child? hname), by simp [typeDeclaration, hname]⟩
  · obtain ⟨c, hc, hm⟩ := List.mem_filterMap.mp hm
    obtain ⟨d, hd, rfl⟩ := exists_node_member? hr hm hl
    have hfamily := mem_family_of_below (below_of_mem_typeContents hc)
    exact ⟨d, family_subset hfamily hd, rfl⟩

private theorem nests_of_readIn (hr : r.Places src) (hnest : root.RangesNest)
    (h : ReadIn src r root types t) : t.Nests types := by
  obtain ⟨n, hn, ns, owner, rfl, howner⟩ := h
  have hwithin : ∀ l ∈ (typeDeclaration src r ns owner n).locations, l.Within (src.location n) := by
    intro l hl
    obtain ⟨d, hd, rfl⟩ := exists_node_typeDeclaration hr hl
    exact (hnest.of_mem hn).location_within hd src
  constructor
  · exact hwithin _ (List.mem_cons_of_mem _ List.mem_cons_self)
  · intro name hname
    obtain ⟨outer, houter, hidentifier, d, hd, hlocation, hmem⟩ := howner name hname
    refine ⟨outer, houter, hidentifier, ?_⟩
    rw [hlocation]
    exact (hnest.of_mem hd).location_within hmem src
  · intro m hm
    obtain ⟨c, hc, hmember⟩ := List.mem_filterMap.mp hm
    have hc := family_subset hn (mem_family_of_below (below_of_mem_typeContents hc))
    refine ⟨hwithin _ ?_, nests_member? hr (hnest.of_mem hc) hmember⟩
    refine List.mem_cons_of_mem _ (List.mem_cons_of_mem _ ?_)
    exact List.mem_flatMap.mpr ⟨m, hm, List.mem_cons_self⟩

end Types

end Lowering

/-- The locations in the declarations of a file are places of nodes in that file. Where the bytes of
every node lie within those of its parent, they nest as the declarations, statements and expressions
do that they belong to. -/
theorem locations_nest (src : SourceText) (root : Node) (hnest : root.RangesNest) :
    (∀ l ∈ (Lowering.sourceTree src root).locations,
      l.file = src.path ∧ ∃ n ∈ root.family, l.range = src.range n) ∧
    ∀ t ∈ (Lowering.sourceTree src root).types, t.Nests (Lowering.sourceTree src root).types := by
  have hplaces := Lowering.places_reader src (Lowering.maxDepth - 1)
  constructor
  · intro l hl
    obtain ⟨t, ht, hl⟩ := List.mem_flatMap.mp hl
    obtain ⟨n, hn, ns, owner, rfl, -⟩ := Lowering.readIn_of_mem_types ht
    obtain ⟨d, hd, rfl⟩ := Lowering.exists_node_typeDeclaration hplaces hl
    exact ⟨rfl, d, Node.family_subset hn hd, rfl⟩
  · intro t ht
    exact Lowering.nests_of_readIn hplaces hnest (Lowering.readIn_of_mem_types ht)

/-- A method in a nested class whose body is a call in parentheses. -/
def innerSource : SourceText :=
  .ofBytes "i.cs" ("class O \x7b\n  class I \x7b\n    B M() => (f(new B()));\n" ++
    "  \x7d\n\x7d\n").toUTF8

private def innerMethod : Node :=
  .plain "method_declaration" 26 48 none
    [.plain "identifier" 26 27 (some .returns) [], .plain "identifier" 28 29 (some .name) [],
      .plain "parameter_list" 29 31 (some .parameters) [],
      .plain "arrow_expression_clause" 32 47 (some .body)
        [.plain "parenthesized_expression" 35 47 none
          [.plain "invocation_expression" 36 46 none
            [.plain "identifier" 36 37 (some .function) [],
              .plain "argument_list" 37 46 (some .arguments)
                [.plain "argument" 38 45 none
                  [.plain "object_creation_expression" 38 45 none
                    [.plain "identifier" 42 43 (some .type) [],
                      .plain "argument_list" 43 45 (some .arguments) []]]]]]]]

def innerRoot : Node :=
  .plain "compilation_unit" 0 55 none
    [.plain "class_declaration" 0 54 none
      [.plain "identifier" 6 7 (some .name) [],
        .plain "declaration_list" 8 54 (some .body)
          [.plain "class_declaration" 12 52 none
            [.plain "identifier" 18 19 (some .name) [],
              .plain "declaration_list" 20 52 (some .body) [innerMethod]]]]]

/-- Four locations of types, two of the method, and three in its body. -/
theorem locations_nest_inner :
    innerRoot.RangesNest ∧ (Lowering.sourceTree innerSource innerRoot).locations.length = 9 ∧
      (∀ l ∈ (Lowering.sourceTree innerSource innerRoot).locations,
        l.file = "i.cs" ∧ ∃ n ∈ innerRoot.family, l.range = innerSource.range n) ∧
      ∀ t ∈ (Lowering.sourceTree innerSource innerRoot).types,
        t.Nests (Lowering.sourceTree innerSource innerRoot).types := by
  have hnest : innerRoot.RangesNest := by decide
  exact ⟨hnest, by decide +kernel, locations_nest innerSource innerRoot hnest⟩

end PatternFinder
