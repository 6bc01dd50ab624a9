import PatternFinder.Proofs.MemberBody

/-! Each fact in the body of a member has a node of its own below the member. -/
namespace PatternFinder.Lowering
open Node
open scoped List

theorem mem_children_of_bodyNode? {n body : Node} (h : bodyNode? n = some body) :
    body ∈ n.children := by
  have hlookup := (Option.filter_eq_some_iff.mp h).1
  exact mem_children_of_or (mem_children_of_or mem_of_child? mem_of_namedOf?) mem_of_namedOf?
    hlookup

private theorem apart_accessors (n : Node) : Apart (accessors n) n.children := by
  unfold accessors
  have hlist : ((n.child? .accessors).or (n.namedOf? "accessor_list")).toList <+ n.children :=
    toList_sublist fun _ => mem_children_of_or mem_of_child? mem_of_namedOf?
  refine (Apart.flatMap fun list _ => .of_children (.of_subperm ?_)).trans
    (.of_subperm hlist.subperm)
  exact (List.filter_sublist.trans List.filter_sublist).subperm

theorem apart_bodyNodes (n : Node) : Apart (bodyNodes n) n.children := by
  have hbody : ∀ m : Node, (bodyNode? m).toList <+ m.children := fun m =>
    toList_sublist fun _ => mem_children_of_bodyNode?
  unfold bodyNodes
  split
  case h_1 => exact .of_subperm (hbody n).subperm
  case h_2 => exact .of_subperm (hbody n).subperm
  case h_3 =>
    cases harrow : n.namedOf? "arrow_expression_clause" with
    | some arrow =>
      have harrow : [arrow] <+ n.children := List.singleton_sublist.mpr (mem_of_namedOf? harrow)
      exact .of_subperm harrow.subperm
    | none =>
      dsimp only
      rw [List.filterMap_eq_flatMap_toList]
      have hbodies : ∀ a ∈ accessors n, Apart (bodyNode? a).toList [a] := fun a _ =>
        .of_children (.of_subperm (hbody a).subperm)
      exact (Apart.flatMap hbodies).trans (apart_accessors n)
  case h_4 => exact .of_subperm List.nil_subperm

private theorem apart_memberEntries (n : Node) :
    Apart ((memberEntries n).map Part.node) n.children := by
  have hentries : ∀ body ∈ bodyNodes n, Apart ((entries body).map Part.node) [body] := by
    intro body _
    unfold entries
    split_ifs
    · rw [map_node_statement]
      exact apart_contents body
    · rw [map_node_expression]
      exact apart_contents body
  rw [memberEntries, List.map_flatMap]
  exact (Apart.flatMap hentries).trans (apart_bodyNodes n)

/-- Reading the bodies of a member takes up no node twice. -/
theorem memberReadings_subperm {n : Node} (hfit : ∀ d ∈ n.descendants, d.FieldsFit) (levels : Nat) :
    ((memberEntries n).flatMap (Part.readings levels)).map Part.node <+~ n.descendants := by
  have hentries := apart_memberEntries n
  rw [Apart, List.flatMap_map, ← descendants_eq_flatMap] at hentries
  rw [List.map_flatMap]
  refine (flatMap_subperm_flatMap fun p hp => ?_).trans hentries
  -- what lies below an entry lies below the member
  refine Part.readings_subperm (fun d hd => hfit d ?_) levels
  exact hentries.subset (List.mem_flatMap.mpr ⟨p, hp, List.mem_cons_of_mem _ hd⟩)

private theorem factKindOf?_of_factKind? {p : Part} {kind : FactKind}
    (h : p.factKind? = some kind) : factKindOf? p.node.kind = some kind := by
  cases p with
  | statement n =>
    simp only [Part.factKind?] at h
    split at h <;> simp_all [Part.node, factKindOf?]
  | expression n =>
    simp only [Part.factKind?] at h
    split at h <;> simp_all [Part.node, factKindOf?]

private theorem of_fact?_eq_some {src : SourceText} {p : Part} {f : Fact}
    (h : p.fact? src = some f) :
    factKindOf? p.node.kind = some f.kind ∧ src.location p.node = f.location := by
  obtain ⟨kind, hkind, rfl⟩ := Option.map_eq_some_iff.mp h
  exact ⟨factKindOf?_of_factKind? hkind, rfl⟩

/-- The facts among parts that stand at different occurrences have different occurrences. -/
theorem exists_origin {src : SourceText} {ps : List Part} {ns : List Node}
    (h : ps.map Part.node <+~ ns) {facts : List Fact}
    (hfacts : facts = ps.filterMap (Part.fact? src)) :
    ∃ origin : Fin facts.length → Fin ns.length, Function.Injective origin ∧
      ∀ i, factKindOf? (ns.get (origin i)).kind = some (facts.get i).kind ∧
        src.location (ns.get (origin i)) = (facts.get i).location := by
  classical
  let kept := ps.filter fun p => (p.fact? src).isSome
  have hkept : kept.map Part.node <+~ ns := (List.filter_sublist.map _).subperm.trans h
  have hsome : kept.map (Part.fact? src) = facts.map some := by
    rw [hfacts, List.map_filterMap_some_eq_filter_map_isSome, List.filter_map]
    rfl
  have hlength : facts.length = (kept.map Part.node).length := by
    simpa using congrArg List.length hsome.symm
  refine ⟨fun i => hkept.idxInj (i.cast hlength), ?_, fun i => ?_⟩
  · intro i j hij
    have hval := Fin.ext_iff.mp (hkept.idxInj_injective hij)
    exact Fin.ext hval
  · have hi : i < kept.length := by simpa using (i.cast hlength).isLt
    have hnode : ns.get (hkept.idxInj (i.cast hlength)) = (kept[i]).node := by
      simp
    have hfact : (kept[i]).fact? src = some (facts.get i) := by
      have := congrArg (·[i.val]?) hsome
      simpa [hi] using this
    rw [hnode]
    exact of_fact?_eq_some hfact

/-- Reading the body of a constructor, a method or a property neither invents nor doubles a fact:
the constructions, calls, `if` statements and declarations of local variables that a walk over it
meets have nodes of their own below the member, of their kind and in their place. -/
theorem facts_have_own_nodes (src : SourceText) (n : Node) (block : Block)
    (hfit : ∀ d ∈ n.descendants, d.FieldsFit)
    (hblock : memberBody? src (bodyReader src) n = some block) :
    ∃ origin : Fin (block.walk.filterMap BodyNode.fact?).length → Fin n.descendants.length,
      Function.Injective origin ∧
      ∀ i, factKindOf? (n.descendants.get (origin i)).kind =
          some ((block.walk.filterMap BodyNode.fact?).get i).kind ∧
        src.location (n.descendants.get (origin i)) =
          ((block.walk.filterMap BodyNode.fact?).get i).location := by
  have hfacts : block.walk.filterMap BodyNode.fact? =
      ((memberEntries n).flatMap (Part.readings (maxDepth - 1))).filterMap (Part.fact? src) := by
    rw [facts_memberBody? hblock, List.filterMap_flatMap]
    exact List.flatMap_congr fun p _ => facts_reader src (maxDepth - 1) p
  exact exists_origin (memberReadings_subperm hfit (maxDepth - 1)) hfacts

/-- A property whose construction has arguments, and initial values that have no field. -/
def nestedSource : SourceText :=
  .ofBytes "n.cs" ("class T \x7b P M => new P(new Q()) \x7b F(), F() \x7d; \x7d").toUTF8

private def nestedCall (start : Nat) : Node :=
  plain "invocation_expression" start (start + 3) none
    [plain "identifier" start (start + 1) (some .function) [],
      plain "argument_list" (start + 1) (start + 3) (some .arguments) []]

def nestedProperty : Node :=
  plain "property_declaration" 10 45 none
    [plain "identifier" 10 11 (some .type) [], plain "identifier" 12 13 (some .name) [],
      plain "arrow_expression_clause" 14 44 none
        [plain "object_creation_expression" 17 44 none
          [plain "identifier" 21 22 (some .type) [],
            plain "argument_list" 22 31 (some .arguments)
              [plain "argument" 23 30 none
                [plain "object_creation_expression" 23 30 none
                  [plain "identifier" 27 28 (some .type) [],
                    plain "argument_list" 28 30 (some .arguments) []]]],
            plain "initializer_expression" 32 44 none [nestedCall 34, nestedCall 39]]]]

/-- Two constructions and two calls, from four nodes. -/
theorem facts_have_own_nodes_nested :
    ∃ block, memberBody? nestedSource (bodyReader nestedSource) nestedProperty = some block ∧
      (block.walk.filterMap BodyNode.fact?).map Fact.kind = [.creation, .creation, .call, .call] ∧
      ∃ origin : Fin (block.walk.filterMap BodyNode.fact?).length →
          Fin nestedProperty.descendants.length, Function.Injective origin ∧
        ∀ i, nestedSource.location (nestedProperty.descendants.get (origin i)) =
          ((block.walk.filterMap BodyNode.fact?).get i).location := by
  have hfit : ∀ d ∈ nestedProperty.descendants, d.FieldsFit := by decide
  obtain ⟨block, hblock⟩ :
      ∃ block, memberBody? nestedSource (bodyReader nestedSource) nestedProperty = some block :=
    ⟨_, rfl⟩
  have hkinds : (block.walk.filterMap BodyNode.fact?).map Fact.kind =
      [.creation, .creation, .call, .call] := by
    rw [facts_memberBody? hblock]
    decide +kernel
  obtain ⟨origin, hinjective, horigin⟩ :=
    facts_have_own_nodes nestedSource nestedProperty block hfit hblock
  exact ⟨block, hblock, hkinds, origin, hinjective, fun i => (horigin i).2⟩

end PatternFinder.Lowering
