import PatternFinder.Proofs.MemberBody

/-! Reading without a limit of depth, and what the limit takes away from it. -/
namespace PatternFinder
open scoped List

theorem Block.places_eq_filterMap (b : Block) (kind : FactKind) :
    b.places kind = (b.walk.filterMap BodyNode.fact?).filterMap
      fun f => if f.kind = kind then some f.location else none := by
  rw [List.filterMap_filterMap]
  cases kind with
  | creation =>
    rw [places, creations, List.map_filterMap]
    refine List.filterMap_congr fun n _ => ?_
    rcases n with (_ | _ | _) | (_ | _ | _ | _ | _ | _) <;> simp [BodyNode.creation?]
  | call =>
    rw [places, calls, List.map_filterMap]
    refine List.filterMap_congr fun n _ => ?_
    rcases n with (_ | _ | _) | (_ | _ | _ | _ | _ | _) <;> simp [BodyNode.call?]
  | branch =>
    rw [places, branches, List.map_filterMap]
    refine List.filterMap_congr fun n _ => ?_
    rcases n with (_ | _ | _) | (_ | _ | _ | _ | _ | _) <;> simp [BodyNode.branch?]
  | «local» =>
    rw [places, locals, List.map_filterMap]
    refine List.filterMap_congr fun n _ => ?_
    rcases n with (_ | _ | _) | (_ | _ | _ | _ | _ | _) <;> simp [BodyNode.local?]

namespace Lowering

/-- What is read of a node. -/
def Reader.read (r : Reader) : Part → BodyNode
  | .statement n => .statement (r.statement n)
  | .expression n => .expression (r.expression n)

theorem Reader.eq_of_read {r r' : Reader} (h : ∀ p, r.read p = r'.read p) : r = r' := by
  have hstatement : r.statement = r'.statement := by
    funext n
    exact BodyNode.statement.inj (h (.statement n))
  have hexpression : r.expression = r'.expression := by
    funext n
    exact BodyNode.expression.inj (h (.expression n))
  cases r
  cases r'
  simp_all

/-- Two readers agree on some parts. -/
def Agree (r r' : Reader) (ps : List Part) : Prop := ∀ p ∈ ps, r.read p = r'.read p

namespace Agree

variable {src : SourceText} {r r' : Reader}

theorem of_append_left {ps qs : List Part} (h : Agree r r' (ps ++ qs)) : Agree r r' ps :=
  fun p hp => h p (List.mem_append_left qs hp)

theorem of_append_right {ps qs : List Part} (h : Agree r r' (ps ++ qs)) : Agree r r' qs :=
  fun p hp => h p (List.mem_append_right ps hp)

theorem map_statement {ns : List Node} (h : Agree r r' (ns.map .statement)) :
    ns.map r.statement = ns.map r'.statement :=
  List.map_congr_left fun _ hn => BodyNode.statement.inj (h _ (List.mem_map_of_mem hn))

theorem map_expression {ns : List Node} (h : Agree r r' (ns.map .expression)) :
    ns.map r.expression = ns.map r'.expression :=
  List.map_congr_left fun _ hn => BodyNode.expression.inj (h _ (List.mem_map_of_mem hn))

theorem map_option {n : Option Node} (h : Agree r r' (n.toList.map .expression)) :
    n.map r.expression = n.map r'.expression := by
  cases n with
  | none => rfl
  | some n => simpa using h.map_expression

theorem elements {list : Option Node} (h : Agree r r' (listed list)) :
    Lowering.elements r list = Lowering.elements r' list := by
  cases list with
  | none => rfl
  | some l =>
    rw [listed, Option.toList_some, List.flatMap_singleton] at h
    exact h.map_expression

theorem declaration {n : Node} (h : Agree r r' ((initialNodes n).map .expression)) :
    Lowering.declaration src r n = Lowering.declaration src r' n := by
  unfold initialNodes at h
  unfold Lowering.declaration
  cases hd : n.namedOf? "variable_declaration" with
  | none => rfl
  | some d =>
    simp only [hd] at h
    have hvariable : ∀ v ∈ d.namedChildren.filter (·.kind == "variable_declarator"),
        declarator src r v = declarator src r' v := by
      intro v hv
      have hvalue : (declarator src r v).initializer = (declarator src r' v).initializer := by
        rw [initializer_declarator, initializer_declarator]
        refine Option.map_congr fun m hm => ?_
        refine BodyNode.expression.inj (h (.expression m) (List.mem_map_of_mem ?_))
        exact List.mem_filterMap.mpr ⟨v, hv, hm⟩
      exact congrArg (Declarator.mk _) hvalue
    have hvariables : declarators src r d = declarators src r' d := List.map_congr_left hvariable
    simp only [hvariables]

theorem conditional {n : Node} (h : Agree r r' (conditionalParts n)) :
    Lowering.conditional src r n = Lowering.conditional src r' n := by
  unfold conditionalParts at h
  unfold Lowering.conditional
  cases hc : n.child? .consequence with
  | some consequence =>
    simp only [hc] at h
    have hcondition := h.of_append_left.map_option
    have hbranches : Agree r r' ((consequence :: (n.child? .alternative).toList).map .statement) :=
      h.of_append_right
    have hbranches := hbranches.map_statement
    rw [List.map_cons, List.map_cons] at hbranches
    have halternative : ∀ r : Reader, ((n.child? .alternative).map r.statement).toList =
        (n.child? .alternative).toList.map r.statement := by
      intro r
      cases n.child? .alternative <;> rfl
    simp only [hcondition, halternative, (List.cons.inj hbranches).1, (List.cons.inj hbranches).2]
  | none =>
    simp only [hc] at h
    have hcondition := h.of_append_left.map_option
    have hbranches := h.of_append_right.map_statement
    rw [List.map_take, List.map_take] at hbranches
    have hfirst := congrArg (List.take 1) hbranches
    have hsecond := congrArg (List.drop 1) hbranches
    rw [List.take_take, List.take_take, Nat.min_eq_left (by omega)] at hfirst
    rw [List.drop_take, List.drop_take] at hsecond
    simp only [hcondition, hfirst, hsecond]

theorem lambdaStatements {n : Node} (h : Agree r r' (lambdaParts n)) :
    Lowering.lambdaStatements src r n = Lowering.lambdaStatements src r' n := by
  unfold lambdaParts at h
  unfold Lowering.lambdaStatements
  cases hb : lambdaBody? n with
  | none => rfl
  | some body =>
    simp only [hb] at h
    dsimp only
    split_ifs at h ⊢
    · exact h.map_statement
    · have hbody := BodyNode.expression.inj (h (.expression body) List.mem_cons_self)
      rw [hbody]

theorem statementStep {n : Node} (h : Agree r r' (Part.statement n).parts) :
    Lowering.statementStep src r n = Lowering.statementStep src r' n := by
  simp only [Part.parts] at h
  unfold Lowering.statementStep
  split
  case h_1 hkind =>
    simp only [hkind] at h
    simp only [localDeclaration, h.declaration]
  case h_2 hkind =>
    simp only [hkind] at h
    rw [h.conditional]
  case h_3 =>
    simp only at h
    simp only [compound, h.of_append_left.map_expression, h.of_append_right.map_statement]

theorem expressionStep {n : Node} (h : Agree r r' (Part.expression n).parts) :
    Lowering.expressionStep src r n = Lowering.expressionStep src r' n := by
  simp only [Part.parts] at h
  unfold Lowering.expressionStep
  split
  case h_1 hkind =>
    simp only [hkind] at h
    simp only [creation, h.of_append_left.elements, h.of_append_right.elements]
  case h_2 hkind =>
    simp only [hkind] at h
    simp only [creation, h.of_append_left.elements, h.of_append_right.elements]
  case h_3 hkind =>
    simp only [hkind] at h
    simp only [invocation, h.of_append_left.map_option, h.of_append_right.elements]
  case h_4 hkind =>
    simp only [hkind] at h
    simp only [expressions, h.map_expression]
  case h_5 hkind =>
    simp only [hkind] at h
    rw [h.map_option]
  case h_6 => rfl
  case h_7 hkind =>
    simp only [hkind] at h
    rw [h.lambdaStatements]
  case h_8 hkind =>
    simp only [hkind] at h
    rw [h.lambdaStatements]
  case h_9 hkind =>
    simp only [hkind] at h
    simp only [statements, h.map_statement]
  case h_10 =>
    split_ifs with hliteral
    · rfl
    · simp only [hliteral] at h
      simp only [expressions, h.map_expression]

/-- One level of reading depends on the rest of the reading only at its parts. -/
theorem step {p : Part} (h : Agree r r' p.parts) :
    (Lowering.step src r).read p = (Lowering.step src r').read p := by
  cases p with
  | statement n => exact congrArg BodyNode.statement h.statementStep
  | expression n => exact congrArg BodyNode.expression h.expressionStep

end Agree

section Limit

variable {src : SourceText}

/-- Enough levels for the height of a node are as good as more. -/
theorem read_eq_of_height_lt {p : Part} {levels levels' : Nat} (h : p.node.height < levels)
    (h' : p.node.height < levels') :
    (reader src levels).read p = (reader src levels').read p := by
  induction levels generalizing p levels' with
  | zero => omega
  | succ levels ih =>
    obtain ⟨levels', rfl⟩ : ∃ k, levels' = k + 1 := ⟨levels' - 1, by omega⟩
    refine Agree.step fun q hq => ?_
    have hlt := (Part.below_of_mem_parts hq).height_lt
    exact ih (by omega) (by omega)

end Limit

/-- The reader that reads to the bottom of every node. -/
def untruncated (src : SourceText) : Reader :=
  ⟨fun n => (reader src (n.height + 1)).statement n,
    fun n => (reader src (n.height + 1)).expression n⟩

section Untruncated

variable {src : SourceText}

theorem read_untruncated {p : Part} {levels : Nat} (h : p.node.height < levels) :
    (reader src levels).read p = (untruncated src).read p := by
  have hself : (untruncated src).read p = (reader src (p.node.height + 1)).read p := by
    cases p <;> rfl
  rw [hself]
  exact read_eq_of_height_lt h (Nat.lt_succ_self _)

theorem untruncated_eq_step : untruncated src = step src (untruncated src) := by
  refine Reader.eq_of_read fun p => ?_
  rw [← read_untruncated (Nat.lt_succ_self p.node.height)]
  refine Agree.step fun q hq => ?_
  exact read_untruncated (Part.below_of_mem_parts hq).height_lt

/-- Reading that leaves everything below a level to itself reads to the bottom. -/
theorem eq_step_iff (r : Reader) : r = step src r ↔ r = untruncated src := by
  constructor
  · intro h
    refine Reader.eq_of_read fun p => ?_
    induction hheight : p.node.height using Nat.strongRecOn generalizing p with
    | ind height ih =>
      -- both sides are one level over readers that agree on all that is less high
      rw [h, untruncated_eq_step]
      refine Agree.step fun q hq => ?_
      have hlt := (Part.below_of_mem_parts hq).height_lt
      exact ih q.node.height (hheight ▸ hlt) q rfl
  · rintro rfl
    exact untruncated_eq_step

end Untruncated

theorem Part.readings_sublist_of_le {p : Part} {levels levels' : Nat} (h : levels ≤ levels') :
    p.readings levels <+ p.readings levels' := by
  induction levels generalizing p levels' with
  | zero => exact List.nil_sublist _
  | succ levels ih =>
    obtain ⟨levels', rfl⟩ : ∃ k, levels' = k + 1 := ⟨levels' - 1, by omega⟩
    rw [readings, readings]
    exact (List.Sublist.flatMap_right p.parts fun q _ => ih (by omega)).cons_cons p

/-- No number of levels reads more than the height of a node asks for. -/
theorem Part.readings_sublist_height (p : Part) (levels : Nat) :
    p.readings levels <+ p.readings (p.node.height + 1) := by
  induction levels generalizing p with
  | zero => exact List.nil_sublist _
  | succ levels ih =>
    rw [readings, readings]
    refine (List.Sublist.flatMap_right p.parts fun q hq => ?_).cons_cons p
    have hlt := (below_of_mem_parts hq).height_lt
    exact (ih q).trans (readings_sublist_of_le (by omega))

theorem facts_sublist_untruncated (src : SourceText) (levels : Nat) (p : Part) :
    (reader src levels).facts p <+ (untruncated src).facts p := by
  have hself : (untruncated src).facts p = (reader src (p.node.height + 1)).facts p := by
    cases p <;> rfl
  rw [hself, facts_reader, facts_reader]
  exact (p.readings_sublist_height levels).filterMap _

/-- The first statements and expressions of a body have all that is read of it. -/
theorem bodyStatements_congr {src : SourceText} {r r' : Reader} {body : Node}
    (h : Agree r r' (entries body)) : bodyStatements src r body = bodyStatements src r' body := by
  unfold entries at h
  unfold bodyStatements bodyOf
  split
  case h_1 hkind =>
    simp only [hkind] at h
    simp only [statements, h.map_statement]
  case h_2 hkind =>
    simp only [hkind] at h
    simp only [expressions, h.map_expression]
  case h_3 => rfl

/-- The limit of depth takes nothing from bodies that are less high, and from other bodies it only
takes facts away: those that remain are in their order. What it is compared with is the one way of
reading in which a level leaves all that is below it to that same way of reading. -/
theorem limit_only_loses_facts (src : SourceText) :
    (∀ r : Reader, r = step src r ↔ r = untruncated src) ∧
      ∀ n : Node,
        ((∀ body ∈ bodyNodes n, body.height < maxDepth) →
          memberBody? src (bodyReader src) n = memberBody? src (untruncated src) n) ∧
        ∀ block, memberBody? src (bodyReader src) n = some block →
          ∃ whole, memberBody? src (untruncated src) n = some whole ∧
            ∀ kind, block.places kind <+ whole.places kind := by
  refine ⟨eq_step_iff, fun n => ⟨fun hheight => ?_, fun block hblock => ?_⟩⟩
  · refine memberBody?_congr fun body hb => bodyStatements_congr fun p hp => ?_
    have hbelow := (node_below_of_mem_entries hp).height_lt
    have hbody := hheight body hb
    exact read_untruncated (by omega)
  · obtain ⟨whole, hwhole⟩ : ∃ whole, memberBody? src (untruncated src) n = some whole := by
      rw [← Option.isSome_iff_exists, memberBody?_isSome (bodyReader src) n, hblock]
      rfl
    refine ⟨whole, hwhole, fun kind => ?_⟩
    rw [Block.places_eq_filterMap, Block.places_eq_filterMap, facts_memberBody? hblock,
      facts_memberBody? hwhole]
    refine List.Sublist.filterMap _ (List.Sublist.flatMap_right _ fun p _ => ?_)
    exact facts_sublist_untruncated src (maxDepth - 1) p

/-- An `if` statement inside blocks inside one another. -/
private def nestedBlocks : Nat → Node
  | 0 => .plain "if_statement" 0 0 none []
  | depth + 1 => .plain "block" 0 0 none [nestedBlocks depth]

private theorem height_nestedBlocks (depth : Nat) : (nestedBlocks depth).height = depth := by
  induction depth with
  | zero => rfl
  | succ depth ih => simp [nestedBlocks, Node.plain, Node.height, Node.heightList, ih]

/-- A method whose body is as high as it can be without a loss. -/
def highMethod : Node :=
  .plain "method_declaration" 0 0 none [nestedBlocks (maxDepth - 1)]

theorem limit_only_loses_facts_high :
    (∀ body ∈ bodyNodes highMethod, body.height = maxDepth - 1) ∧
      ∃ block, memberBody? (.ofBytes "" .empty) (bodyReader (.ofBytes "" .empty)) highMethod =
          some block ∧
        memberBody? (.ofBytes "" .empty) (untruncated (.ofBytes "" .empty)) highMethod =
          some block := by
  have hbodies : bodyNodes highMethod = [nestedBlocks (maxDepth - 1)] := rfl
  have hheight : ∀ body ∈ bodyNodes highMethod, body.height = maxDepth - 1 := by
    rw [hbodies]
    simp [height_nestedBlocks]
  have hlow : ∀ body ∈ bodyNodes highMethod, body.height < maxDepth := by
    intro body hb
    rw [hheight body hb]
    decide
  have hequal := ((limit_only_loses_facts (.ofBytes "" .empty)).2 highMethod).1 hlow
  obtain ⟨block, hblock⟩ : ∃ block, memberBody? (.ofBytes "" .empty)
      (bodyReader (.ofBytes "" .empty)) highMethod = some block := ⟨_, rfl⟩
  exact ⟨hheight, block, hblock, hequal ▸ hblock⟩

end Lowering

end PatternFinder
