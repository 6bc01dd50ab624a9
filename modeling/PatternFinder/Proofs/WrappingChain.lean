import PatternFinder.Pattern.Decorator
import PatternFinder.Proofs.MemberBody

/-! Chains of constructions, each the first argument of the one around it, and how the limit of
depth changes what is said of them: a construction takes two levels of reading, so that from some
length on the innermost argument is cut off. -/
namespace PatternFinder.Lowering
open Node

/-- A construction, with its written type unless that is inferred. -/
inductive Constructs : Node → Option Node → Prop
  | written {n t : Node} (hkind : n.kind = "object_creation_expression")
    (htype : createdTypeNode? n = some t) : Constructs n (some t)
  | inferred {n : Node} (hkind : n.kind = "implicit_object_creation_expression") :
    Constructs n none

/-- The nodes in the argument list of a construction. -/
def argumentNodes (n : Node) : List Node := (argumentList? n).toList.flatMap contents

/-- An expression that is read as what it is, and not as a construction. -/
def isLeaf (n : Node) : Bool :=
  !(["object_creation_expression", "implicit_object_creation_expression",
    "parenthesized_expression", "argument", "block"].contains n.kind)

/-- A number of constructions, each the value of the first argument of the one before. The innermost
one takes the leaf first; it takes none when it has no arguments or a bare token for the first. -/
inductive Chain : Nat → Node → Option Node → Prop
  | empty {n : Node} {t : Option Node} (hn : Constructs n t) (hnone : argumentNodes n = []) :
    Chain 1 n none
  | around {n a : Node} {rest : List Node} {t leaf : Option Node} (hn : Constructs n t)
    (hfirst : argumentNodes n = a :: rest) (ha : a.kind = "argument")
    (hvalue : a.namedChildren.getLast? = leaf) (hleaf : ∀ l ∈ leaf, isLeaf l = true) :
    Chain 1 n leaf
  | wrap {count : Nat} {n a inner : Node} {rest : List Node} {t leaf : Option Node}
    (hn : Constructs n t) (hfirst : argumentNodes n = a :: rest) (ha : a.kind = "argument")
    (hvalue : a.namedChildren.getLast? = some inner) (h : Chain count inner leaf) :
    Chain (count + 1) n leaf

/-- The leaf is no literal. -/
def Open (leaf : Option Node) : Prop := ∀ l ∈ leaf, l.kind ∉ literalKinds

section Reading

variable (src : SourceText)

theorem elements_argumentList? (r : Reader) (n : Node) :
    elements r (argumentList? n) = (argumentNodes n).map r.expression := by
  unfold elements argumentNodes
  cases argumentList? n <;> simp [expressions]

theorem expression_constructs {n : Node} {t : Option Node} (hn : Constructs n t) (levels : Nat) :
    ∃ c, (reader src (levels + 1)).expression n = .creation c ∧
      c.createdType = t.map (typeRef src) ∧
      c.arguments = (argumentNodes n).map (reader src levels).expression := by
  have hstep : (reader src (levels + 1)).expression n =
      expressionStep src (reader src levels) n := rfl
  cases hn with
  | written hkind htype =>
    refine ⟨creation src (reader src levels) true n, ?_, ?_, elements_argumentList? _ n⟩
    · rw [hstep, expressionStep]
      simp only [hkind]
    · rw [creation, if_pos rfl, htype]
  | inferred hkind =>
    refine ⟨creation src (reader src levels) false n, ?_, rfl, elements_argumentList? _ n⟩
    rw [hstep, expressionStep]
    simp only [hkind]

/-- The first argument of a construction is read two levels further down. -/
theorem expression_constructs_first {n a : Node} {ns : List Node} {t : Option Node}
    (hn : Constructs n t) (hfirst : argumentNodes n = a :: ns) (ha : a.kind = "argument")
    (levels : Nat) : ∃ c others, (reader src (levels + 2)).expression n = .creation c ∧
      c.createdType = t.map (typeRef src) ∧ c.arguments =
        (a.namedChildren.getLast?.map (reader src levels).expression).getD (.other []) ::
          others := by
  obtain ⟨c, hc, htype, harguments⟩ := expression_constructs src hn (levels + 1)
  have hvalue : (reader src (levels + 1)).expression a =
      (a.namedChildren.getLast?.map (reader src levels).expression).getD (.other []) := by
    have hstep : (reader src (levels + 1)).expression a =
        expressionStep src (reader src levels) a := rfl
    rw [hstep, expressionStep]
    simp only [ha]
  rw [hfirst, List.map_cons, hvalue] at harguments
  exact ⟨c, _, hc, htype, harguments⟩

theorem expression_leaf {n : Node} (hn : isLeaf n = true) (levels : Nat) :
    ((reader src (levels + 1)).expression n).asCreation? = none ∧
      ∀ rest, Decorator.endsOpen ((reader src (levels + 1)).expression n :: rest) = true ↔
        n.kind ∉ literalKinds := by
  have hstep : (reader src (levels + 1)).expression n =
      expressionStep src (reader src levels) n := rfl
  rw [hstep, expressionStep]
  split
  case h_1 hkind => simp [isLeaf, hkind] at hn
  case h_2 hkind => simp [isLeaf, hkind] at hn
  case h_3 hkind => simp [Expression.asCreation?, Decorator.endsOpen, hkind, literalKinds]
  case h_4 hkind => simp [isLeaf, hkind] at hn
  case h_5 hkind => simp [isLeaf, hkind] at hn
  case h_6 hkind => simp [Expression.asCreation?, Decorator.endsOpen, hkind, literalKinds]
  case h_7 hkind => simp [Expression.asCreation?, Decorator.endsOpen, hkind, literalKinds]
  case h_8 hkind => simp [Expression.asCreation?, Decorator.endsOpen, hkind, literalKinds]
  case h_9 hkind => simp [isLeaf, hkind] at hn
  case h_10 =>
    by_cases hliteral : n.kind ∈ literalKinds
    · simp [Expression.asCreation?, Decorator.endsOpen, hliteral]
    · simp [Expression.asCreation?, Decorator.endsOpen, hliteral]

/-- What the search for the innermost argument says of the value at the end of a chain. -/
theorem endsOpen_leaf {leaf : Option Node} (hleaf : ∀ l ∈ leaf, isLeaf l = true) (levels : Nat)
    (rest : List Expression) :
    Decorator.endsOpen
        ((leaf.map (reader src levels).expression).getD (.other []) :: rest) = true ↔
      Open leaf ∨ levels = 0 := by
  cases leaf with
  | none => simp [Open, Decorator.endsOpen]
  | some l =>
    cases levels with
    | zero => simp [reader, truncated, Decorator.endsOpen]
    | succ levels =>
      have hl := (expression_leaf src (hleaf l rfl) levels).2 rest
      simpa [Open] using hl

/-- What the search for the innermost argument says of a chain that is read down to an even number
of levels. A chain too long for them ends in a cut, which is as good as an open end. -/
theorem endsOpen_chain {count : Nat} {n : Node} {leaf : Option Node} (h : Chain count n leaf)
    (half : Nat) (rest : List Expression) :
    Decorator.endsOpen ((reader src (2 * half)).expression n :: rest) = true ↔
      Open leaf ∨ half ≤ count := by
  induction h generalizing half rest with
  | empty hn hnone =>
    cases half with
    | zero => simp [reader, truncated, Decorator.endsOpen]
    | succ half =>
      obtain ⟨⟨_, arguments, _, _⟩, hc, -, harguments⟩ :=
        expression_constructs src hn (2 * half + 1)
      obtain rfl : arguments = [] := by simpa [hnone] using harguments
      rw [Nat.mul_succ, hc]
      simp [Decorator.endsOpen, Open]
  | around hn hfirst ha hvalue hleaf =>
    cases half with
    | zero => simp [reader, truncated, Decorator.endsOpen]
    | succ half =>
      obtain ⟨⟨_, arguments, _, _⟩, others, hc, -, harguments⟩ :=
        expression_constructs_first src hn hfirst ha (2 * half)
      rw [hvalue] at harguments
      obtain rfl := harguments
      have hend := endsOpen_leaf src hleaf (2 * half) others
      rw [Nat.mul_succ, hc, Decorator.endsOpen, hend]
      exact or_congr_right (by omega)
  | wrap hn hfirst ha hvalue _ ih =>
    cases half with
    | zero => simp [reader, truncated, Decorator.endsOpen]
    | succ half =>
      obtain ⟨⟨_, arguments, _, _⟩, others, hc, -, harguments⟩ :=
        expression_constructs_first src hn hfirst ha (2 * half)
      rw [hvalue] at harguments
      obtain rfl := harguments
      have hend := ih half others
      rw [Nat.mul_succ, hc, Decorator.endsOpen, Option.map_some, Option.getD_some, hend]
      exact or_congr_right (by omega)

theorem Chain.constructs {count : Nat} {n : Node} {leaf : Option Node} (h : Chain count n leaf) :
    ∃ t, Constructs n t := by
  cases h with
  | empty hn _ => exact ⟨_, hn⟩
  | around hn _ _ _ _ => exact ⟨_, hn⟩
  | wrap hn _ _ _ _ => exact ⟨_, hn⟩

theorem Chain.count_pos {count : Nat} {n : Node} {leaf : Option Node} (h : Chain count n leaf) :
    1 ≤ count := by
  cases h <;> omega

theorem isWrappingChain_eq {c : ObjectCreation} {e : Expression} {others : List Expression}
    (h : c.arguments = e :: others) : Decorator.isWrappingChain c =
      (e.asCreation?.isSome && Decorator.endsOpen (e :: others)) := by
  rw [Decorator.isWrappingChain, h]
  rcases e with ⟨_, _, _, _⟩ | _ | _ | _ | _ | _ <;>
    simp [Expression.asCreation?, Decorator.endsOpen]

/-- A chain whose second construction is not cut off is a wrapping chain if it has a second
construction and the end of it is open or cut off. -/
theorem isWrappingChain_chain {count : Nat} {n : Node} {leaf : Option Node}
    (h : Chain count n leaf) (half : Nat) (hhalf : 0 < half) {c : ObjectCreation}
    (hc : (reader src (2 * half + 2)).expression n = .creation c) :
    Decorator.isWrappingChain c = true ↔ 2 ≤ count ∧ (Open leaf ∨ half + 1 ≤ count) := by
  obtain ⟨levels, hlevels⟩ : ∃ levels, 2 * half = levels + 1 := ⟨2 * half - 1, by omega⟩
  cases h with
  | empty hn hnone =>
    obtain ⟨c', hc', -, harguments⟩ := expression_constructs src hn (2 * half + 1)
    obtain rfl : c' = c := Expression.creation.inj (hc'.symm.trans hc)
    rw [hnone, List.map_nil] at harguments
    simp [Decorator.isWrappingChain, harguments]
  | @around _ a _ _ _ hn hfirst ha hvalue hleaf =>
    obtain ⟨c', others, hc', -, harguments⟩ :=
      expression_constructs_first src hn hfirst ha (2 * half)
    obtain rfl : c' = c := Expression.creation.inj (hc'.symm.trans hc)
    have hnone : ((a.namedChildren.getLast?.map (reader src (2 * half)).expression).getD
        (.other [])).asCreation? = none := by
      rw [hvalue, hlevels]
      cases leaf with
      | none => rfl
      | some l => exact (expression_leaf src (hleaf l rfl) levels).1
    rw [isWrappingChain_eq harguments, hnone]
    simp
  | @wrap count _ a inner _ _ _ hn hfirst ha hvalue h =>
    obtain ⟨c', others, hc', -, harguments⟩ :=
      expression_constructs_first src hn hfirst ha (2 * half)
    obtain rfl : c' = c := Expression.creation.inj (hc'.symm.trans hc)
    rw [hvalue, Option.map_some, Option.getD_some] at harguments
    have hsome : ((reader src (2 * half)).expression inner).asCreation?.isSome = true := by
      obtain ⟨t, ht⟩ := h.constructs
      obtain ⟨c'', hc'', -, -⟩ := expression_constructs src ht levels
      rw [hlevels, hc'']
      rfl
    have hcount := h.count_pos
    rw [isWrappingChain_eq harguments, hsome, Bool.true_and, endsOpen_chain src h]
    constructor
    · intro hend
      exact ⟨by omega, hend.imp_right (by omega)⟩
    · rintro ⟨-, hend⟩
      exact hend.imp_right (by omega)

end Reading

def givesValue (p : Node) : Bool :=
  !(["bracketed_argument_list", "tuple_pattern", "comment"].contains p.kind)

/-- The parts of a declarator that it can take its value from. -/
def valueParts (v : Node) : List Node := (declaratorParts v).filter givesValue

/-- A declarator takes its value from a node that stands in it, with or without a clause. -/
inductive TakesValue (v : Node) : Node → Prop
  | direct {c : Node} (hvalue : valueParts v = [c]) (hkind : c.kind ≠ "equals_value_clause") :
    TakesValue v c
  | inClause {c clause : Node} (hvalue : valueParts v = [clause])
    (hkind : clause.kind = "equals_value_clause") (hc : clause.namedChildren.head? = some c) :
    TakesValue v c

/-- A declaration of one local variable that takes its value from a node. -/
structure DeclaresWith (n c : Node) : Prop where
  isLocal : n.kind = "local_declaration_statement"
  takes : ∃ d v, n.namedOf? "variable_declaration" = some d ∧
    d.namedChildren.filter (·.kind == "variable_declarator") = [v] ∧ TakesValue v c

private theorem foldl_initialNode_filter (parts : List Node) (value : Option Node) :
    (parts.filter givesValue).foldl initialNode value = parts.foldl initialNode value := by
  induction parts generalizing value with
  | nil => rfl
  | cons p parts ih =>
    rw [List.filter_cons, List.foldl_cons, ← ih]
    split_ifs with hkept
    · rfl
    · have hkind : p.kind = "bracketed_argument_list" ∨ p.kind = "tuple_pattern" ∨
          p.kind = "comment" := by
        simpa [givesValue, Decidable.or_iff_not_imp_left] using hkept
      rcases hkind with hkind | hkind | hkind <;> simp [initialNode, hkind]

theorem TakesValue.foldl_eq {v c : Node} (h : TakesValue v c) :
    (declaratorParts v).foldl initialNode none = some c := by
  rw [← foldl_initialNode_filter]
  cases h with
  | direct hvalue hkind =>
    have hmem : c ∈ valueParts v := hvalue ▸ List.mem_singleton_self c
    have hgives : givesValue c = true := (List.mem_filter.mp hmem).2
    rw [← valueParts, hvalue, List.foldl_cons, List.foldl_nil, initialNode]
    split
    case h_1 hclause => exact absurd hclause hkind
    case h_2 haside => simp [givesValue, haside] at hgives
    case h_3 haside => simp [givesValue, haside] at hgives
    case h_4 haside => simp [givesValue, haside] at hgives
    case h_5 => rfl
  | inClause hvalue hkind hc =>
    rw [← valueParts, hvalue, List.foldl_cons, List.foldl_nil, initialNode]
    simp only [hkind, hc]

theorem DeclaresWith.initialNodes_eq {n c : Node} (h : DeclaresWith n c) :
    initialNodes n = [c] := by
  obtain ⟨d, v, hd, hv, htakes⟩ := h.takes
  simp [initialNodes, hd, hv, htakes.foldl_eq]

/-- The declaration of a wrapping chain directly in the block of a method is found to be one exactly
when the chain has two constructions and does not end in a literal, or has the 63 with which its end
is cut off. The evidence is the written type of the outermost construction. -/
theorem wrapping_chain_judged (src : SourceText) (m block n c : Node) (t leaf : Option Node)
    (i count : Nat) (hmethod : m.kind = "method_declaration") (hbody : bodyNode? m = some block)
    (hblock : block.kind = "block") (hn : (contents block)[i]? = some n)
    (hdeclares : DeclaresWith n c) (hc : Constructs c t) (hchain : Chain count c leaf) :
    ∃ method body l, member? src (bodyReader src) m = some (.method method) ∧
      method.body = some body ∧ body.statements[i]? = some (.declare l) ∧
      ((Decorator.wrapsInStatement l).matched = true ↔ 2 ≤ count ∧ (Open leaf ∨ 63 ≤ count)) ∧
      ((Decorator.wrapsInStatement l).matched = true → Decorator.wrapsInStatement l =
        .found (src.location n) (t.map fun t => (typeRef src t).text)) := by
  let r := reader src (maxDepth - 2)
  have hreader : bodyReader src = step src r := rfl
  have hstatements : body? src (bodyReader src) m = some ⟨statements (bodyReader src) block⟩ := by
    rw [body?_eq_map, hbody, Option.map_some, bodyStatements, bodyOf]
    simp only [hblock]
    rfl
  have hlocal : (bodyReader src).statement n = .declare (localDeclaration src r n) := by
    rw [hreader]
    simp only [step, statementStep, hdeclares.isLocal]
  have hmember : member? src (bodyReader src) m =
      some (.method (method src (bodyReader src) m)) := by
    rw [member?]
    simp only [hmethod]
  refine ⟨_, _, localDeclaration src r n, hmember, hstatements, ?_, ?_⟩
  · rw [statements, List.getElem?_map, hn, Option.map_some, hlocal]
  obtain ⟨o, ho, htype, -⟩ := expression_constructs src hc (maxDepth - 3)
  have hinitial : (localDeclaration src r n).initializers = [.creation o] := by
    have hread : r.expression c = .creation o := ho
    have hinitializers := initializers_declaration src r n
    rw [hdeclares.initialNodes_eq, List.map_singleton, hread] at hinitializers
    exact hinitializers
  have hwraps := isWrappingChain_chain src hchain 62 (by decide) ho
  have hloc : (localDeclaration src r n).location = src.location n := rfl
  have houtcome : Decorator.wrapsInStatement (localDeclaration src r n) =
      if Decorator.isWrappingChain o then
        .found (src.location n) (t.map fun t => (typeRef src t).text) else .notFound := by
    rw [Decorator.wrapsInStatement, hinitial]
    cases hchain : Decorator.isWrappingChain o <;>
      simp [Expression.asCreation?, hchain, htype, hloc, Function.comp_def]
  rw [houtcome, ← hwraps]
  split_ifs with h
  · simp [h, Outcome.found, Outcome.matched]
  · simp [h, Outcome.notFound, Outcome.matched]

/-- The outermost type of the chains below. -/
def milkSource : SourceText := .ofBytes "m.cs" "Milk".toUTF8

/-- A number of constructions of one type around a literal. -/
def literalChain : Nat → Node
  | 0 => plain "integer_literal" 0 0 none []
  | count + 1 => plain "object_creation_expression" 0 4 none
    [plain "identifier" 0 4 (some .type) [],
      plain "argument_list" 4 4 (some .arguments) [plain "argument" 4 4 none [literalChain count]]]

def literalDeclaration (count : Nat) : Node :=
  plain "local_declaration_statement" 0 4 none
    [plain "variable_declaration" 0 4 none
      [plain "implicit_type" 0 0 (some .type) [],
        plain "variable_declarator" 0 4 none
          [plain "identifier" 0 0 (some .name) [], literalChain count]]]

def literalMethod (count : Nat) : Node :=
  plain "method_declaration" 0 4 none [plain "block" 0 4 (some .body) [literalDeclaration count]]

theorem constructs_literalChain (count : Nat) :
    Constructs (literalChain (count + 1)) (some (plain "identifier" 0 4 (some .type) [])) :=
  .written rfl rfl

theorem chain_literalChain (count : Nat) :
    Chain (count + 1) (literalChain (count + 1)) (some (literalChain 0)) := by
  induction count with
  | zero =>
    refine .around (constructs_literalChain 0) rfl rfl rfl fun l hl => ?_
    obtain rfl := Option.some.inj hl
    decide
  | succ count ih => exact .wrap (constructs_literalChain (count + 1)) rfl rfl rfl ih

theorem declaresWith_literalChain (count : Nat) :
    DeclaresWith (literalDeclaration (count + 1)) (literalChain (count + 1)) :=
  ⟨rfl, _, _, rfl, rfl, .direct rfl (by simp [literalChain, plain])⟩

/-- The literal is still seen inside of 62 constructions, and no more inside of 63. -/
theorem wrapping_chain_judged_milk :
    (∃ method body l, member? milkSource (bodyReader milkSource) (literalMethod 62) =
        some (.method method) ∧ method.body = some body ∧ body.statements[0]? = some (.declare l) ∧
          (Decorator.wrapsInStatement l).matched = false) ∧
      ∃ method body l, member? milkSource (bodyReader milkSource) (literalMethod 63) =
        some (.method method) ∧ method.body = some body ∧ body.statements[0]? = some (.declare l) ∧
          (Decorator.wrapsInStatement l).matched = true ∧
          (Decorator.wrapsInStatement l).evidence = some "Milk" := by
  have hliteral : ¬Open (some (literalChain 0)) := fun h => absurd (h _ rfl) (by decide)
  constructor
  · obtain ⟨method, body, l, hmethod, hbody, hl, hiff, -⟩ := wrapping_chain_judged milkSource
      (literalMethod 62) _ _ _ _ _ 0 62 rfl rfl rfl rfl (declaresWith_literalChain 61)
      (constructs_literalChain 61) (chain_literalChain 61)
    refine ⟨method, body, l, hmethod, hbody, hl, ?_⟩
    rw [Bool.eq_false_iff, ne_eq, hiff]
    simp [hliteral]
  · obtain ⟨method, body, l, hmethod, hbody, hl, hiff, hevidence⟩ :=
      wrapping_chain_judged milkSource (literalMethod 63) _ _ _ _ _ 0 63 rfl rfl rfl rfl
        (declaresWith_literalChain 62) (constructs_literalChain 62) (chain_literalChain 62)
    have hmatched := hiff.mpr ⟨by decide, .inr (by decide)⟩
    refine ⟨method, body, l, hmethod, hbody, hl, hmatched, ?_⟩
    have htext : milkSource.text (plain "identifier" 0 4 (some .type) []) = "Milk" := by
      decide +kernel
    have htype : typeRef milkSource (plain "identifier" 0 4 (some .type) []) = .simple "Milk" := by
      rw [typeRef]
      simp only [plain] at htext ⊢
      rw [htext]
      rfl
    rw [hevidence hmatched, Option.map_some, htype]
    rfl

end PatternFinder.Lowering
