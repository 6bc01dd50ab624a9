import Mathlib.Algebra.GroupWithZero.Nat
import Mathlib.Data.List.Flatten
import PatternFinder.Proofs.MemberBody

/-! How deep the walks over the body and the initial values of a member go, and nested functions over
which they go as deep as they can. -/
namespace PatternFinder

/-- What is directly in a statement or an expression. -/
def BodyNode.children : BodyNode → List BodyNode
  | .statement (.declare l) => l.initializers.map .expression
  | .statement (.branch c) =>
    c.condition.toList.map .expression ++ (c.consequence ++ c.alternative).map .statement
  | .statement (.compound c) => c.expressions.map .expression ++ c.statements.map .statement
  | .expression (.creation c) => (c.arguments ++ c.initializer).map .expression
  | .expression (.call c) => (c.receiver.toList ++ c.arguments).map .expression
  | .expression (.literal _) => []
  | .expression (.identifier _) => []
  | .expression (.lambda body) => body.map .statement
  | .expression (.other parts) => parts.map .expression

/-- A way down, one level at a time. -/
def IsPath (path : List BodyNode) : Prop := path.IsChain fun n c => c ∈ n.children

/-- The three functions that walk. -/
inductive WalkKind where
  | statements | statement | expression
deriving DecidableEq

/-- A call of one of the functions that walk, with its argument. -/
inductive Activation where
  | statements (ss : List Statement)
  | statement (s : Statement)
  | expression (e : Expression)

namespace Activation

def kind : Activation → WalkKind
  | .statements _ => .statements
  | .statement _ => .statement
  | .expression _ => .expression

/-- What the call returns. -/
def visits : Activation → List BodyNode
  | .statements ss => Statement.walkAll ss
  | .statement s => s.walk
  | .expression e => e.walk

/-- The node that the call itself visits. -/
def node? : Activation → Option BodyNode
  | .statements _ => none
  | .statement s => some (.statement s)
  | .expression e => some (.expression e)

/-- The nodes at which the call starts. -/
def tops : Activation → List BodyNode
  | .statements ss => ss.map .statement
  | .statement s => [.statement s]
  | .expression e => [.expression e]

/-- The calls that the call makes, in their order. -/
def calls : Activation → List Activation
  | .statements ss => ss.map .statement
  | .statement (.declare l) => l.initializers.map .expression
  | .statement (.branch c) =>
    c.condition.toList.map .expression ++ [.statements c.consequence, .statements c.alternative]
  | .statement (.compound c) => c.expressions.map .expression ++ [.statements c.statements]
  | .expression (.creation c) => (c.arguments ++ c.initializer).map .expression
  | .expression (.call c) => (c.receiver.toList ++ c.arguments).map .expression
  | .expression (.literal _) => []
  | .expression (.identifier _) => []
  | .expression (.lambda body) => [.statements body]
  | .expression (.other parts) => parts.map .expression

/-- A call returns the node that it visits, then what its calls return. -/
theorem visits_eq (a : Activation) : a.visits = a.node?.toList ++ a.calls.flatMap visits := by
  have hstatements : ∀ ss : List Statement, ss.flatMap Statement.walk =
      (ss.map Activation.statement).flatMap visits := by
    intro ss
    rw [List.flatMap_map]
    rfl
  have hexpressions : ∀ es : List Expression, es.flatMap Expression.walk =
      (es.map Activation.expression).flatMap visits := by
    intro es
    rw [List.flatMap_map]
    rfl
  rcases a with ss | (⟨_, _, _⟩ | ⟨_, _, _, _⟩ | ⟨_, _, _, _⟩) |
      (⟨_, _, _, _⟩ | ⟨_, _, _, _⟩ | _ | _ | _ | _) <;>
    simp [visits, node?, calls, Statement.walk, Expression.walk, Statement.walkAll_eq_flatMap,
      Expression.walkAll_eq_flatMap, Declarator.walkAll_eq_flatMap, LocalDeclaration.initializers,
      Expression.walkOption_eq_flatMap, hstatements, hexpressions]

/-- What is directly in a node is where the calls start that are made there. -/
theorem children_eq {a : Activation} {n : BodyNode} (h : a.node? = some n) :
    n.children = a.calls.flatMap tops := by
  have hexpressions : ∀ es : List Expression, (es.map Activation.expression).flatMap tops =
      es.map BodyNode.expression := by
    intro es
    rw [List.flatMap_map]
    exact List.flatMap_pure_eq_map BodyNode.expression es
  cases a with
  | statements ss => cases h
  | statement s =>
    obtain rfl := Option.some.inj h
    cases s <;> simp [BodyNode.children, calls, tops, hexpressions]
  | expression e =>
    obtain rfl := Option.some.inj h
    cases e <;> simp [BodyNode.children, calls, tops, hexpressions]

/-- What goes down with every call: a row of statements visits no node, so it counts for itself. -/
def measure (a : Activation) : Nat :=
  2 * a.visits.length + (if a.kind = .statements then 1 else 0)

private theorem measure_lt_of_mem_calls {a b : Activation} (h : b ∈ a.calls) :
    b.measure < a.measure := by
  have hsublist : (b.visits).Sublist (a.calls.flatMap visits) := by
    simpa using (List.singleton_sublist.mpr h).flatMap visits
  have hlength := hsublist.length_le
  have hvisits := congrArg List.length a.visits_eq
  rw [List.length_append] at hvisits
  have hrow : (if b.kind = .statements then 1 else 0) ≤ 1 := by split_ifs <;> omega
  unfold measure
  cases a with
  | statements ss =>
    obtain ⟨s, -, rfl⟩ := List.mem_map.mp h
    simp only [kind, if_true, reduceCtorEq, if_false]
    omega
  | statement s =>
    simp only [node?, Option.toList_some, List.length_singleton] at hvisits
    omega
  | expression e =>
    simp only [node?, Option.toList_some, List.length_singleton] at hvisits
    omega

/-- An induction along the calls. -/
@[elab_as_elim]
theorem induction {motive : Activation → Prop}
    (step : ∀ a, (∀ b ∈ a.calls, motive b) → motive a) (a : Activation) : motive a := by
  induction hmeasure : a.measure using Nat.strongRecOn generalizing a with
  | ind size ih =>
    refine step a fun b hb => ?_
    have hlt := measure_lt_of_mem_calls hb
    exact ih b.measure (hmeasure ▸ hlt) b rfl

end Activation

/-- Calls that are active at the same time, each made by the one before. -/
def IsStack (stack : List Activation) : Prop := stack.IsChain fun a b => b ∈ a.calls

/-- Active calls from `a` on, each counted by its kind, never come to more than `bound`. -/
def BoundedBy (weight : WalkKind → Nat) (bound : Nat) (a : Activation) : Prop :=
  ∀ stack, IsStack (a :: stack) → ((a :: stack).map fun b => weight b.kind).sum ≤ bound

namespace BoundedBy

variable {weight : WalkKind → Nat} {bound : Nat} {a b : Activation}

theorem mono {bound' : Nat} (h : BoundedBy weight bound a) (hle : bound ≤ bound') :
    BoundedBy weight bound' a :=
  fun stack hstack => Nat.le_trans (h stack hstack) hle

theorem of_calls (h : ∀ b ∈ a.calls, BoundedBy weight bound b) :
    BoundedBy weight (weight a.kind + bound) a := by
  intro stack hstack
  cases stack with
  | nil => simp
  | cons b stack =>
    obtain ⟨hb, hstack⟩ := List.isChain_cons_cons.mp hstack
    have hrest := h b hb stack hstack
    rw [List.map_cons, List.sum_cons]
    omega

theorem weight_le (h : BoundedBy weight bound a) : weight a.kind ≤ bound := by
  simpa using h [] (.singleton a)

theorem of_mem_calls (h : BoundedBy weight bound a) (hb : b ∈ a.calls) :
    BoundedBy weight (bound - weight a.kind) b := by
  intro stack hstack
  have hall := h (b :: stack) (List.isChain_cons_cons.mpr ⟨hb, hstack⟩)
  rw [List.map_cons, List.sum_cons] at hall
  omega

theorem call (h : BoundedBy weight bound a) (hb : b ∈ a.calls) : BoundedBy weight bound b :=
  (h.of_mem_calls hb).mono (Nat.sub_le _ _)

theorem of_mem_tops (h : BoundedBy weight bound a) {n : BodyNode} (hn : n ∈ a.tops) :
    ∃ b : Activation, b.node? = some n ∧ BoundedBy weight bound b := by
  cases a with
  | statements ss =>
    obtain ⟨s, hs, rfl⟩ := List.mem_map.mp hn
    exact ⟨.statement s, rfl, h.call (List.mem_map_of_mem hs)⟩
  | statement s =>
    obtain rfl := List.mem_singleton.mp hn
    exact ⟨.statement s, rfl, h⟩
  | expression e =>
    obtain rfl := List.mem_singleton.mp hn
    exact ⟨.expression e, rfl, h⟩

/-- A bound holds wherever a walk comes to. -/
theorem of_mem_visits (h : BoundedBy weight bound a) {n : BodyNode} (hn : n ∈ a.visits) :
    ∃ b : Activation, b.node? = some n ∧ BoundedBy weight bound b := by
  induction a using Activation.induction with
  | step a ih =>
    rw [a.visits_eq] at hn
    rcases List.mem_append.mp hn with hself | hrest
    · exact ⟨a, Option.mem_toList.mp hself, h⟩
    · obtain ⟨b, hb, hn⟩ := List.mem_flatMap.mp hrest
      exact ih b hb (h.call hb) hn

theorem initializer {l : LocalDeclaration} (h : BoundedBy weight bound a)
    (hl : .statement (.declare l) ∈ a.visits) {e : Expression} (he : e ∈ l.initializers) :
    BoundedBy weight bound (.expression e) := by
  obtain ⟨b, hb, hbound⟩ := h.of_mem_visits hl
  cases b with
  | statements ss => cases hb
  | expression e' => cases hb
  | statement s =>
    obtain rfl := BodyNode.statement.inj (Option.some.inj hb)
    exact hbound.call (List.mem_map_of_mem he)

end BoundedBy

/-- Weights that count the nodes of a stack, which rows of statements do not visit. -/
def nodeWeight : WalkKind → Nat
  | .statements => 0
  | .statement => 1
  | .expression => 1

/-- Weights that count rows of statements, with the expressions that they may stand in. -/
def rowWeight : WalkKind → Nat
  | .statements => 1
  | .statement => 0
  | .expression => 1

theorem nodeWeight_of_node? {a : Activation} {n : BodyNode} (h : a.node? = some n) :
    nodeWeight a.kind = 1 := by
  cases a with
  | statements ss => cases h
  | statement s => rfl
  | expression e => rfl

namespace BoundedBy

variable {bound : Nat} {a : Activation}

theorem path_length_le (h : BoundedBy nodeWeight bound a) {n : BodyNode} {path : List BodyNode}
    (hn : n ∈ a.tops) (hpath : IsPath (n :: path)) : (n :: path).length ≤ bound := by
  induction path generalizing n a bound with
  | nil =>
    obtain ⟨b, hb, hbound⟩ := h.of_mem_tops hn
    have hone := hbound.weight_le
    rwa [nodeWeight_of_node? hb] at hone
  | cons c path ih =>
    obtain ⟨hc, hpath⟩ := List.isChain_cons_cons.mp hpath
    obtain ⟨b, hb, hbound⟩ := h.of_mem_tops hn
    have hone := hbound.weight_le
    rw [Activation.children_eq hb] at hc
    obtain ⟨b', hb', hc⟩ := List.mem_flatMap.mp hc
    have hrest := ih (hbound.of_mem_calls hb') hc hpath
    rw [nodeWeight_of_node? hb] at hone hrest
    rw [List.length_cons]
    omega

end BoundedBy

namespace Lowering

/-- Walks over what is read are bounded, over statements and over expressions. -/
structure Reader.Bounded (weight : WalkKind → Nat) (s e : Nat) (r : Reader) : Prop where
  statement : ∀ n, BoundedBy weight s (.statement (r.statement n))
  expression : ∀ n, BoundedBy weight e (.expression (r.expression n))

namespace Reader.Bounded

variable {weight : WalkKind → Nat} {s e : Nat} {r : Reader} {src : SourceText}

theorem row (h : r.Bounded weight s e) (ns : List Node) :
    BoundedBy weight (weight .statements + s) (.statements (ns.map r.statement)) := by
  refine .of_calls fun b hb => ?_
  obtain ⟨t, ht, rfl⟩ := List.mem_map.mp hb
  obtain ⟨n, -, rfl⟩ := List.mem_map.mp ht
  exact h.statement n

theorem of_mem_map (h : r.Bounded weight s e) {ns : List Node} {b : Activation}
    (hb : b ∈ (ns.map r.expression).map .expression) : BoundedBy weight e b := by
  obtain ⟨t, ht, rfl⟩ := List.mem_map.mp hb
  obtain ⟨n, -, rfl⟩ := List.mem_map.mp ht
  exact h.expression n

theorem other (h : r.Bounded weight s e) (ns : List Node) :
    BoundedBy weight (weight .expression + e) (.expression (.other (ns.map r.expression))) :=
  .of_calls fun _ => h.of_mem_map

theorem lambda (h : r.Bounded weight s e) (ns : List Node) :
    BoundedBy weight (weight .expression + (weight .statements + s))
      (.expression (.lambda (ns.map r.statement))) := by
  refine .of_calls fun b hb => ?_
  obtain rfl := List.mem_singleton.mp hb
  exact h.row ns

theorem compound (h : r.Bounded weight s e) {ss : List Statement} {row : Nat}
    (hrow : BoundedBy weight row (.statements ss)) (kind : String) (ns : List Node)
    (loc : Location) : BoundedBy weight (weight .statement + max row e)
      (.statement (.compound ⟨kind, ns.map r.expression, ss, loc⟩)) := by
  refine .of_calls fun b hb => ?_
  rcases List.mem_append.mp hb with hb | hb
  · exact (h.of_mem_map hb).mono (Nat.le_max_right _ _)
  · obtain rfl := List.mem_singleton.mp hb
    exact hrow.mono (Nat.le_max_left _ _)

theorem conditional (h : r.Bounded weight s e) (n : Node) :
    BoundedBy weight (weight .statement + max (weight .statements + s) e)
      (.statement (.branch (conditional src r n))) := by
  obtain ⟨condition, consequence, alternative, heq⟩ : ∃ condition consequence alternative,
      Lowering.conditional src r n = ⟨Option.map r.expression condition,
        List.map r.statement consequence, List.map r.statement alternative, src.location n⟩ := by
    unfold Lowering.conditional
    cases n.child? .consequence with
    | some consequence =>
      refine ⟨n.child? .condition, [consequence], (n.child? .alternative).toList, ?_⟩
      cases n.child? .alternative <;> rfl
    | none =>
      dsimp only
      rw [← List.map_take, ← List.map_drop, ← List.map_take]
      exact ⟨_, _, _, rfl⟩
  rw [heq]
  refine .of_calls fun b hb => ?_
  rcases List.mem_append.mp hb with hb | hb
  · cases condition with
    | none => cases hb
    | some c =>
      obtain rfl := List.mem_singleton.mp hb
      exact (h.expression c).mono (Nat.le_max_right _ _)
  · have hrow : ∃ ns : List Node, b = .statements (ns.map r.statement) := by
      simp only [List.mem_cons, List.not_mem_nil, or_false] at hb
      rcases hb with rfl | rfl
      · exact ⟨consequence, rfl⟩
      · exact ⟨alternative, rfl⟩
    obtain ⟨ns, rfl⟩ := hrow
    exact (h.row ns).mono (Nat.le_max_left _ _)

theorem statementStep (h : r.Bounded weight s e) (n : Node) :
    BoundedBy weight (weight .statement + max (weight .statements + s) e)
      (.statement (statementStep src r n)) := by
  unfold Lowering.statementStep
  split
  · refine .of_calls fun b hb => ?_
    have hinitial : (localDeclaration src r n).initializers = (initialNodes n).map r.expression :=
      initializers_declaration src r n
    rw [Activation.calls, hinitial] at hb
    exact (h.of_mem_map hb).mono (Nat.le_max_right _ _)
  · exact h.conditional n
  · exact h.compound (h.row _) n.kind _ (src.location n)

theorem empty_row : BoundedBy weight (weight .statements) (.statements []) := by
  have h : BoundedBy weight (weight .statements + 0) (.statements []) :=
    .of_calls fun b hb => by cases hb
  exact h

/-- An expression without parts. -/
theorem leaf {x : Expression} (h : (Activation.expression x).calls = []) :
    BoundedBy weight (weight .expression) (.expression x) := by
  have h : BoundedBy weight (weight .expression + 0) (.expression x) :=
    .of_calls fun b hb => by simp [h] at hb
  exact h

theorem exists_elements_eq (r : Reader) (list : Option Node) :
    ∃ ns : List Node, elements r list = ns.map r.expression := by
  cases list with
  | none => exact ⟨[], rfl⟩
  | some l => exact ⟨contents l, rfl⟩

theorem creation (h : r.Bounded weight s e) (explicit : Bool) (n : Node) :
    BoundedBy weight (weight .expression + e)
      (.expression (.creation (creation src r explicit n))) := by
  obtain ⟨arguments, harguments⟩ := exists_elements_eq r (argumentList? n)
  obtain ⟨initial, hinitial⟩ := exists_elements_eq r (initializerList? n)
  refine .of_calls fun b hb => ?_
  rw [Activation.calls, Lowering.creation, harguments, hinitial, ← List.map_append] at hb
  exact h.of_mem_map hb

theorem invocation (h : r.Bounded weight s e) (n : Node) :
    BoundedBy weight (weight .expression + e) (.expression (.call (invocation src r n))) := by
  obtain ⟨arguments, harguments⟩ := exists_elements_eq r (argumentList? n)
  have hreceiver : ((receiver? n).map r.expression).toList =
      (receiver? n).toList.map r.expression := by
    cases receiver? n <;> rfl
  refine .of_calls fun b hb => ?_
  rw [Activation.calls, Lowering.invocation, harguments, hreceiver, ← List.map_append] at hb
  exact h.of_mem_map hb

/-- A lambda is the one place where a level of reading gives two levels of nodes. -/
theorem lambdaStatements (h : r.Bounded weight s e) (n : Node) :
    BoundedBy weight (weight .statements + max s (weight .statement + max (weight .statements) e))
      (.statements (lambdaStatements src r n)) := by
  unfold Lowering.lambdaStatements
  cases lambdaBody? n with
  | none => exact empty_row.mono (Nat.le_add_right _ _)
  | some body =>
    dsimp only
    split_ifs
    · exact (h.row (contents body)).mono (by omega)
    · refine .of_calls fun b hb => ?_
      obtain rfl := List.mem_singleton.mp hb
      exact (h.compound empty_row "expression_statement" [body] _).mono (Nat.le_max_right _ _)

/-- The most that one level of reading adds to an expression. -/
theorem expressionStep (h : r.Bounded weight s e) (n : Node) :
    BoundedBy weight (weight .expression +
        max e (weight .statements + max s (weight .statement + max (weight .statements) e)))
      (.expression (expressionStep src r n)) := by
  have hlambda : BoundedBy weight (weight .expression +
      (weight .statements + max s (weight .statement + max (weight .statements) e)))
      (.expression (.lambda (Lowering.lambdaStatements src r n))) := by
    refine .of_calls fun b hb => ?_
    obtain rfl := List.mem_singleton.mp hb
    exact h.lambdaStatements n
  unfold Lowering.expressionStep
  split
  case h_1 => exact (h.creation true n).mono (by omega)
  case h_2 => exact (h.creation false n).mono (by omega)
  case h_3 => exact (h.invocation n).mono (by omega)
  case h_4 =>
    split
    case h_1 x hx =>
      obtain ⟨c, -, rfl⟩ : ∃ c ∈ contents n, r.expression c = x := by
        refine List.mem_map.mp (?_ : x ∈ expressions r n)
        rw [hx]
        exact List.mem_singleton_self x
      exact (h.expression c).mono (by omega)
    case h_2 => exact (h.other (contents n)).mono (by omega)
  case h_5 =>
    cases n.namedChildren.getLast? with
    | none => exact (leaf rfl).mono (by omega)
    | some c => exact (h.expression c).mono (by omega)
  case h_6 => exact (leaf rfl).mono (by omega)
  case h_7 => exact hlambda.mono (by omega)
  case h_8 => exact hlambda.mono (by omega)
  case h_9 => exact (h.lambda (contents n)).mono (by omega)
  case h_10 =>
    split_ifs
    · exact (leaf rfl).mono (by omega)
    · exact (h.other (contents n)).mono (by omega)

end Reader.Bounded

/-- What a level of reading can add at most: a lambda, a row and a statement. -/
def levelWeight (weight : WalkKind → Nat) : Nat :=
  weight .statements + weight .statement + weight .expression

/-- The bound grows by the same amount with every level, as long as a row of statements counts no
more than an expression. -/
theorem bounded_reader {weight : WalkKind → Nat} (hrow : weight .statements ≤ weight .expression)
    (src : SourceText) (levels : Nat) :
    (reader src levels).Bounded weight
      (levelWeight weight * levels + (weight .statement + weight .statements))
      (levelWeight weight * levels + weight .expression) := by
  induction levels with
  | zero =>
    refine ⟨fun n => ?_, fun n => ?_⟩
    · refine BoundedBy.mono (.of_calls fun b hb => ?_) (Nat.le_add_left _ _)
      obtain rfl := List.mem_singleton.mp hb
      exact Reader.Bounded.empty_row
    · exact (Reader.Bounded.leaf rfl).mono (Nat.le_add_left _ _)
  | succ levels ih =>
    have hlevel : levelWeight weight * (levels + 1) =
        levelWeight weight * levels + weight .statements + weight .statement +
          weight .expression := by
      rw [Nat.mul_succ, levelWeight]
      omega
    -- a lambda takes its own weight, a row and a statement: the whole of a level
    refine ⟨fun n => (ih.statementStep n).mono ?_, fun n => (ih.expressionStep n).mono ?_⟩
    · omega
    · omega

private theorem bounded_bodyStatements {weight : WalkKind → Nat}
    (hrow : weight .statements ≤ weight .expression) {src : SourceText} {body : Node}
    {t : Statement} (ht : t ∈ bodyStatements src (bodyReader src) body) :
    BoundedBy weight
      (levelWeight weight * (maxDepth - 1) + weight .statement + weight .expression)
      (.statement t) := by
  have hreader := bounded_reader hrow src (maxDepth - 1)
  unfold bodyStatements bodyOf at ht
  split at ht
  case h_1 =>
    obtain ⟨c, -, rfl⟩ := List.mem_map.mp ht
    exact (hreader.statement c).mono (by omega)
  case h_2 =>
    obtain rfl := List.mem_singleton.mp ht
    exact (hreader.compound Reader.Bounded.empty_row _ _ _).mono (by omega)
  case h_3 => cases ht

theorem bounded_memberBody? {weight : WalkKind → Nat}
    (hrow : weight .statements ≤ weight .expression) {src : SourceText} {n : Node} {block : Block}
    (h : memberBody? src (bodyReader src) n = some block) :
    BoundedBy weight (levelWeight weight * maxDepth) (.statements block.statements) := by
  have hstatements : BoundedBy weight (weight .statements +
      (levelWeight weight * (maxDepth - 1) + weight .statement + weight .expression))
      (.statements block.statements) := by
    refine .of_calls fun b hb => ?_
    obtain ⟨t, ht, rfl⟩ := List.mem_map.mp hb
    rw [statements_memberBody? h] at ht
    obtain ⟨body, -, ht⟩ := List.mem_flatMap.mp ht
    exact bounded_bodyStatements hrow ht
  refine hstatements.mono ?_
  rw [levelWeight, maxDepth]
  omega

theorem initializers_field {src : SourceText} {r : Reader} {n : Node} {f : FieldDeclaration}
    (h : member? src r n = some (.field f)) :
    f.declarators.filterMap (·.initializer) = (initialNodes n).map r.expression := by
  unfold member? at h
  split at h
  case h_1 =>
    obtain rfl := Member.field.inj (Option.some.inj h)
    exact initializers_declaration src r n
  all_goals cases h

end Lowering

/-- The walks that can be made over a member: over its body, over the initial values of a field, and
over those of the local variables that another walk comes to. -/
inductive Member.Walked (m : Member) : Activation → Prop
  | body {block : Block} (h : m.body? = some block) : Walked m (.statements block.statements)
  | field {f : FieldDeclaration} {e : Expression} (h : m = .field f)
    (he : e ∈ f.declarators.filterMap (·.initializer)) : Walked m (.expression e)
  | local {a : Activation} {l : LocalDeclaration} {e : Expression} (h : Walked m a)
    (hl : .statement (.declare l) ∈ a.visits) (he : e ∈ l.initializers) : Walked m (.expression e)

namespace Lowering

theorem bounded_of_walked {weight : WalkKind → Nat}
    (hrow : weight .statements ≤ weight .expression) {src : SourceText} {n : Node} {m : Member}
    (hm : member? src (bodyReader src) n = some m) {a : Activation} (ha : m.Walked a) :
    BoundedBy weight (levelWeight weight * maxDepth) a := by
  induction ha with
  | @body block h =>
    have hbody : memberBody? src (bodyReader src) n = some block := by
      rw [memberBody?, hm]
      exact h
    exact bounded_memberBody? hrow hbody
  | field h he =>
    subst h
    rw [initializers_field hm] at he
    obtain ⟨c, -, rfl⟩ := List.mem_map.mp he
    refine ((bounded_reader hrow src (maxDepth - 1)).expression c).mono ?_
    rw [levelWeight, maxDepth]
    omega
  | «local» _ hl he ih => exact ih.initializer hl he

theorem countP_le_sum {weight : WalkKind → Nat} {kind : WalkKind} (h : 1 ≤ weight kind)
    (stack : List Activation) :
    stack.countP (·.kind = kind) ≤ (stack.map fun a => weight a.kind).sum := by
  induction stack with
  | nil => simp
  | cons a stack ih =>
    rw [List.countP_cons, List.map_cons, List.sum_cons]
    by_cases hkind : a.kind = kind
    · simp only [hkind, decide_true, if_true]
      omega
    · simp only [hkind, decide_false, Bool.false_eq_true, if_false]
      omega

/-- No way down into what is read of a member has more than twice as many nodes as the limit of
depth says, and no walk over it has more calls of one function active at once. All three functions
together can have half as many again. -/
theorem walk_depth_le (src : SourceText) (n : Node) (m : Member)
    (hm : member? src (bodyReader src) n = some m) (a : Activation) (ha : m.Walked a) :
    (∀ top ∈ a.tops, ∀ path, IsPath (top :: path) → (top :: path).length ≤ 2 * maxDepth) ∧
      ∀ stack, IsStack (a :: stack) →
        (∀ kind, (a :: stack).countP (·.kind = kind) ≤ 2 * maxDepth) ∧
          (a :: stack).length ≤ 3 * maxDepth := by
  have hnodes : BoundedBy nodeWeight (2 * maxDepth) a :=
    bounded_of_walked (by decide) hm ha
  have hrows : BoundedBy rowWeight (2 * maxDepth) a :=
    bounded_of_walked (by decide) hm ha
  have hall : BoundedBy (fun _ => 1) (3 * maxDepth) a :=
    bounded_of_walked (by decide) hm ha
  refine ⟨fun top htop path => hnodes.path_length_le htop, fun stack hstack => ⟨fun kind => ?_, ?_⟩⟩
  · cases kind with
    | statements => exact Nat.le_trans (countP_le_sum (by decide) _) (hrows stack hstack)
    | statement => exact Nat.le_trans (countP_le_sum (by decide) _) (hnodes stack hstack)
    | expression => exact Nat.le_trans (countP_le_sum (by decide) _) (hnodes stack hstack)
  · simpa [Nat.add_comm] using hall stack hstack

section Lambdas
open Node

/-- The expression `x => x => ... 1` with a number of lambdas. -/
def nestedLambdas (stop : Nat) : (field : Option Field) → (start lambdas : Nat) → Node
  | field, start, 0 => plain "integer_literal" start stop field []
  | field, start, lambdas + 1 =>
    plain "lambda_expression" start stop field
      [plain "implicit_parameter" start (start + 1) (some .parameters) [],
        nestedLambdas stop (some .body) (start + 5) lambdas]

/-- A class with a property that is made of nested lambdas. -/
def lambdaSource (lambdas : Nat) : SourceText :=
  .ofBytes "D.cs" ("class D \x7b object F => " ++
    String.join (List.replicate lambdas "x => ") ++ "1; \x7d").toUTF8

def lambdaProperty (lambdas : Nat) : Node :=
  plain "property_declaration" 10 (5 * lambdas + 24) none
    [plain "predefined_type" 10 16 (some .type) [], plain "identifier" 17 18 (some .name) [],
      plain "arrow_expression_clause" 19 (5 * lambdas + 23) none
        [nestedLambdas (5 * lambdas + 23) none 22 lambdas]]

variable (src : SourceText) {lambdas : Nat}

theorem expressionStep_nestedLambdas (r : Reader) (stop : Nat) (field : Option Field)
    (start lambdas : Nat) :
    expressionStep src r (nestedLambdas stop field start (lambdas + 1)) =
      .lambda [.compound ⟨"expression_statement",
        [r.expression (nestedLambdas stop (some .body) (start + 5) lambdas)], [],
        src.location (nestedLambdas stop (some .body) (start + 5) lambdas)⟩] := by
  cases lambdas <;> rfl

/-- The calls from a row on that holds one expression. -/
theorem isStack_row {e : Expression} {stack : List Activation}
    (h : IsStack (.expression e :: stack)) (kind : String) (loc : Location) :
    IsStack (.statements [.compound ⟨kind, [e], [], loc⟩] ::
      .statement (.compound ⟨kind, [e], [], loc⟩) :: .expression e :: stack) :=
  .cons_cons (List.mem_singleton_self _)
    (.cons_cons (List.mem_append_left _ (List.mem_singleton_self _)) h)

/-- As long as there are lambdas, every level of reading takes three calls. -/
theorem exists_stack_nestedLambdas {levels : Nat} (h : levels ≤ lambdas) (stop : Nat)
    (field : Option Field) (start : Nat) :
    ∃ stack, IsStack (.expression ((reader src levels).expression
      (nestedLambdas stop field start lambdas)) :: stack) ∧ stack.length = 3 * levels := by
  induction levels generalizing lambdas field start with
  | zero => exact ⟨[], .singleton _, rfl⟩
  | succ levels ih =>
    cases lambdas with
    | zero => cases h
    | succ lambdas =>
      obtain ⟨stack, hstack, hlength⟩ :=
        ih (Nat.le_of_succ_le_succ h) (some .body) (start + 5)
      have hread := expressionStep_nestedLambdas src (reader src levels) stop field start lambdas
      rw [reader]
      simp only [step, hread]
      refine ⟨_, .cons_cons (List.mem_singleton_self _) (isStack_row hstack _ _), ?_⟩
      simp only [List.length_cons, hlength]
      omega

/-- Lambdas that nest to the limit of depth take as many calls as there can be. -/
theorem exists_stack_lambdaProperty (h : maxDepth ≤ lambdas + 1) :
    ∃ m a stack, member? src (bodyReader src) (lambdaProperty lambdas) = some m ∧ m.Walked a ∧
      IsStack (a :: stack) ∧ (a :: stack).length = 3 * maxDepth := by
  obtain ⟨stack, hstack, hlength⟩ := exists_stack_nestedLambdas src
    (Nat.sub_le_of_le_add h) (5 * lambdas + 23) none 22
  have hmember : ∃ p loc, member? src (bodyReader src) (lambdaProperty lambdas) =
      some (.property p) ∧ p.body = some ⟨[.compound ⟨"arrow_expression_clause",
        [(bodyReader src).expression (nestedLambdas (5 * lambdas + 23) none 22 lambdas)], [],
        loc⟩]⟩ := by
    cases lambdas <;> exact ⟨_, _, rfl, rfl⟩
  obtain ⟨p, loc, hmember, hbody⟩ := hmember
  -- the arrow adds a row and a statement to the calls for the lambdas
  refine ⟨.property p, _, _, hmember, .body hbody, isStack_row hstack _ loc, ?_⟩
  simp only [List.length_cons, hlength, maxDepth]

/-- Two functions are four of the six nodes in the body. -/
theorem walk_depth_le_lambda :
    ∃ m block, member? (lambdaSource 2) (bodyReader (lambdaSource 2)) (lambdaProperty 2) =
        some m ∧
      m.body? = some block ∧ block.walk.length = 6 ∧
      (∀ top ∈ block.statements, ∀ path, IsPath (.statement top :: path) →
        path.length + 1 ≤ 2 * maxDepth) ∧
      ∀ stack, IsStack (.statements block.statements :: stack) →
        stack.length + 1 ≤ 3 * maxDepth := by
  obtain ⟨m, hm, block, hblock, hlength⟩ : ∃ m, member? (lambdaSource 2)
      (bodyReader (lambdaSource 2)) (lambdaProperty 2) = some m ∧
      ∃ block, m.body? = some block ∧ block.walk.length = 6 :=
    ⟨_, rfl, _, rfl, rfl⟩
  obtain ⟨hpath, hstack⟩ := walk_depth_le (lambdaSource 2) (lambdaProperty 2) m hm
    (.statements block.statements) (.body hblock)
  refine ⟨m, block, hm, hblock, hlength, fun top htop path => ?_, fun stack h => (hstack stack h).2⟩
  exact hpath (.statement top) (List.mem_map_of_mem htop) path

/-- With many functions, more calls are active at once than a way down can have nodes. -/
theorem nested_lambdas_beyond_twice_limit :
    ∃ m a stack, member? (lambdaSource 200) (bodyReader (lambdaSource 200)) (lambdaProperty 200) =
        some m ∧
      m.Walked a ∧ IsStack (a :: stack) ∧ (a :: stack).length = 384 ∧ 2 * maxDepth < 384 := by
  have hlimit : maxDepth ≤ 200 + 1 := by decide
  obtain ⟨m, a, stack, hm, ha, hstack, hlength⟩ :=
    exists_stack_lambdaProperty (lambdaSource 200) hlimit
  exact ⟨m, a, stack, hm, ha, hstack, hlength, by decide⟩

end Lambdas

end Lowering

end PatternFinder
