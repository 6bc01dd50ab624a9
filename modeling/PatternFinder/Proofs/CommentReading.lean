import PatternFinder.Proofs.CommentRemoval

/-! Statements and expressions are read the same without the comments in them. -/
namespace PatternFinder.Lowering
open Node

theorem argumentList?_withoutComments {n : Node} (h : Aside n) :
    argumentList? n.withoutComments = (argumentList? n).map withoutComments :=
  or_withoutComments (child?_withoutComments h .arguments) (namedOf?_withoutComments (by decide))

theorem initializerList?_withoutComments {n : Node} (h : Aside n) :
    initializerList? n.withoutComments = (initializerList? n).map withoutComments :=
  or_withoutComments (child?_withoutComments h .initializer) (namedOf?_withoutComments (by decide))

theorem calledName?_eq (src : SourceText) (n : Node) : calledName? src n = match n.kind with
    | "identifier" => some (src.text n)
    | "generic_name" => (genericName? n).map src.text
    | "member_access_expression" | "qualified_name" => (n.child? .name).bind (calledName? src)
    | _ => none := by
  rw [calledName?]
  split
  case h_3 => split <;> simp [*]
  case h_4 => split <;> simp [*]
  all_goals simp [*]

theorem calledName?_withoutComments (src : SourceText) {n : Node} (h : Aside n) :
    calledName? src n.withoutComments = calledName? src n := by
  induction n using below_induction with
  | step n ih =>
    have hname : (n.withoutComments.child? .name).bind (calledName? src) =
        (n.child? .name).bind (calledName? src) := by
      rw [child?_withoutComments h, Option.bind_map]
      refine Option.bind_congr fun c hc => ?_
      have hc := mem_of_child? hc
      exact ih c (.child hc) (h.child hc)
    rw [calledName?_eq, calledName?_eq, kind_withoutComments, hname,
      genericName?_withoutComments h, map_text_withoutComments, src.text_withoutComments]

/-- What is read in this way does not change when the comments go. -/
structure Reader.Blind (r : Reader) : Prop where
  statement {n : Node} : Aside n → r.statement n.withoutComments = r.statement n
  expression {n : Node} : Aside n → r.expression n.withoutComments = r.expression n

namespace Reader.Blind

variable {src : SourceText} {r : Reader} {n : Node}

theorem map_statement (hr : r.Blind) {ms : List Node} (h : ∀ m ∈ ms, Aside m) :
    (ms.map withoutComments).map r.statement = ms.map r.statement := by
  rw [List.map_map]
  exact List.map_congr_left fun m hm => hr.statement (h m hm)

theorem map_expression (hr : r.Blind) {ms : List Node} (h : ∀ m ∈ ms, Aside m) :
    (ms.map withoutComments).map r.expression = ms.map r.expression := by
  rw [List.map_map]
  exact List.map_congr_left fun m hm => hr.expression (h m hm)

theorem map_option (hr : r.Blind) {m : Option Node} (h : ∀ c, m = some c → Aside c) :
    (m.map withoutComments).map r.expression = m.map r.expression := by
  rw [Option.map_map]
  exact Option.map_congr fun c hc => hr.expression (h c hc)

theorem statements (hr : r.Blind) (h : Aside n) :
    statements r n.withoutComments = statements r n := by
  rw [Lowering.statements, contents_withoutComments]
  exact hr.map_statement fun c hc => h.child (mem_children_of_mem_contents hc)

theorem expressions (hr : r.Blind) (h : Aside n) :
    expressions r n.withoutComments = expressions r n := by
  rw [Lowering.expressions, contents_withoutComments]
  exact hr.map_expression fun c hc => h.child (mem_children_of_mem_contents hc)

theorem elements (hr : r.Blind) {list : Option Node} (h : ∀ l, list = some l → Aside l) :
    elements r (list.map withoutComments) = elements r list := by
  cases list with
  | none => rfl
  | some l => exact hr.expressions (h l rfl)

theorem initialValue (hr : r.Blind) (value : Option Expression) (h : Aside n) :
    initialValue r value n.withoutComments = initialValue r value n := by
  unfold Lowering.initialValue
  rw [kind_withoutComments]
  split
  case h_1 hkind =>
    have hpick := h.self.2
    simp only [picked, hkind, Option.mem_toList] at hpick
    rw [head?_namedChildren_withoutComments hpick]
    refine hr.map_option fun c hc => h.child ?_
    exact mem_of_mem_namedChildren (List.mem_of_head? hc)
  case h_5 => rw [hr.expression h]
  all_goals rfl

end Reader.Blind

section Declarators

variable {v : Node}

theorem isDeclaratorName_withoutComments (h : Aside v) (c : Node) :
    isDeclaratorName v.withoutComments c.withoutComments = isDeclaratorName v c := by
  unfold isDeclaratorName
  rw [child?_withoutComments h, Option.isSome_map]
  split_ifs <;> simp

theorem isComment_of_isDeclaratorName (h : Aside v) {c : Node} (hc : c ∈ v.children)
    (hname : isDeclaratorName v c = true) : c.isComment = false := by
  unfold isDeclaratorName at hname
  split_ifs at hname
  · exact h.isComment_of_field hc (by simpa using hname)
  · simp only [Bool.and_eq_true, beq_iff_eq] at hname
    simp [isComment, hname.2]

theorem declaratorName?_withoutComments (h : Aside v) :
    declaratorName? v.withoutComments = (declaratorName? v).map withoutComments := by
  rw [declaratorName?, children_withoutComments]
  refine find?_withoutCommentsList (isDeclaratorName_withoutComments h) fun c hc => ?_
  exact isComment_of_isDeclaratorName h (List.mem_of_find?_eq_some hc) (List.find?_some hc)

theorem declaratorParts_withoutComments (h : Aside v) :
    declaratorParts v.withoutComments = withoutCommentsList (declaratorParts v) := by
  have hname : isDeclaratorName v.withoutComments ∘ withoutComments = isDeclaratorName v :=
    funext (isDeclaratorName_withoutComments h)
  have hnamed : (fun c : Node => c.named) ∘ withoutComments = fun c => c.named :=
    funext named_withoutComments
  have herase : (v.children.filter (!·.isComment)).eraseP (isDeclaratorName v) =
      (v.children.eraseP (isDeclaratorName v)).filter (!·.isComment) := by
    refine eraseP_filter_of_imp fun c hc hname => ?_
    simp [isComment_of_isDeclaratorName h hc hname]
  rw [declaratorParts, children_withoutComments, withoutCommentsList_eq, withoutCommentsList_eq,
    List.eraseP_map, hname, herase, List.filter_map, hnamed, declaratorParts, List.filter_filter,
    List.filter_filter]
  simp only [Bool.and_comm]

end Declarators

namespace Reader.Blind

variable {src : SourceText} {r : Reader} {n : Node}

/-- Comments among the parts of a declarator leave its initial value as it is. -/
theorem foldl_initialValue (hr : r.Blind) {parts : List Node} (h : ∀ m ∈ parts, Aside m)
    (value : Option Expression) :
    (withoutCommentsList parts).foldl (Lowering.initialValue r) value =
      parts.foldl (Lowering.initialValue r) value := by
  induction parts generalizing value with
  | nil => rfl
  | cons part parts ih =>
    have hrest := ih fun m hm => h m (List.mem_cons_of_mem part hm)
    rw [List.foldl_cons]
    cases hcomment : part.isComment with
    | false =>
      rw [withoutCommentsList_cons_of_not hcomment, List.foldl_cons,
        hr.initialValue value (h part List.mem_cons_self), hrest]
    | true =>
      have hskip : Lowering.initialValue r value part = value := by
        simp [Lowering.initialValue, kind_of_isComment hcomment]
      rw [withoutCommentsList_cons_of_comment hcomment, hskip, hrest]

theorem declarator (hr : r.Blind) (h : Aside n) :
    declarator src r n.withoutComments = declarator src r n := by
  have hparts : ∀ m ∈ declaratorParts n, Aside m := by
    intro m hm
    exact h.child (List.mem_of_mem_eraseP (List.mem_filter.mp hm).1)
  unfold Lowering.declarator
  rw [declaratorName?_withoutComments h, map_text_withoutComments,
    declaratorParts_withoutComments h, hr.foldl_initialValue hparts]

theorem declarators (hr : r.Blind) (h : Aside n) :
    declarators src r n.withoutComments = declarators src r n := by
  unfold Lowering.declarators
  rw [filter_kind_withoutComments (by decide), List.map_map]
  refine List.map_congr_left fun c hc => ?_
  exact hr.declarator (h.child (mem_of_mem_namedChildren (List.mem_filter.mp hc).1))

theorem declaration (hr : r.Blind) (h : Aside n) :
    declaration src r n.withoutComments = declaration src r n := by
  unfold Lowering.declaration
  rw [namedOf?_withoutComments (by decide)]
  cases hd : n.namedOf? "variable_declaration" with
  | none => rfl
  | some d =>
    have haside := h.child (mem_of_namedOf? hd)
    have hpick := haside.self.2
    simp only [picked, kind_of_namedOf? hd, Option.mem_toList] at hpick
    have hmem : ∀ c, declaredTypeNode? d = some c → c ∈ d.children := fun c =>
      mem_children_of_or mem_of_child? fun hc =>
        mem_of_mem_namedChildren (List.mem_of_find?_eq_some hc)
    have htype : variableType src d.withoutComments = variableType src d := by
      unfold variableType
      rw [declaredTypeNode?_withoutComments haside hpick,
        map_typeRef_withoutComments src haside hmem]
    rw [Option.map_some]
    dsimp only
    rw [htype, hr.declarators haside]

theorem conditional (hr : r.Blind) (h : Aside n) :
    conditional src r n.withoutComments = conditional src r n := by
  have hfield : ∀ f c, n.child? f = some c → Aside c := fun f c hc => h.child (mem_of_child? hc)
  unfold Lowering.conditional
  rw [child?_withoutComments h]
  cases hc : n.child? .consequence with
  | some consequence =>
    rw [Option.map_some]
    dsimp only
    have halternative : ((n.child? .alternative).map withoutComments).map r.statement =
        (n.child? .alternative).map r.statement := by
      rw [Option.map_map]
      exact Option.map_congr fun c hc => hr.statement (hfield .alternative c hc)
    rw [child?_withoutComments h, child?_withoutComments h, halternative,
      hr.map_option (hfield .condition), hr.statement (hfield .consequence _ hc),
      src.location_withoutComments]
  | none =>
    rw [Option.map_none]
    dsimp only
    have hbranch : ∀ c : Node, isStatementKind c.kind = true → c.isComment = false :=
      fun c => isComment_of_kind (by decide)
    have hbranches : ∀ c ∈ n.namedChildren.filter (isStatementKind ·.kind), Aside c := by
      intro c hc
      exact h.child (mem_of_mem_namedChildren (List.mem_filter.mp hc).1)
    have hcondition : ∀ c, (contents n).find? (!isStatementKind ·.kind) = some c → Aside c := by
      intro c hc
      exact h.child (mem_children_of_mem_contents (List.mem_of_find?_eq_some hc))
    rw [filter_namedChildren_withoutComments (fun c => by simp) hbranch, hr.map_statement hbranches,
      contents_withoutComments, List.find?_map, Function.comp_def, src.location_withoutComments]
    simp only [kind_withoutComments, hr.map_option hcondition]

theorem compound (hr : r.Blind) (h : Aside n) :
    compound src r n.withoutComments = compound src r n := by
  have hcontents : ∀ q : Node → Bool, ∀ c ∈ (contents n).filter q, Aside c := by
    intro q c hc
    exact h.child (mem_children_of_mem_contents (List.mem_filter.mp hc).1)
  unfold Lowering.compound
  rw [contents_withoutComments, List.filter_map, List.filter_map, Function.comp_def,
    Function.comp_def, kind_withoutComments, src.location_withoutComments]
  simp only [kind_withoutComments]
  rw [hr.map_expression (hcontents _), hr.map_statement (hcontents _)]

theorem statementStep (hr : r.Blind) (h : Aside n) :
    statementStep src r n.withoutComments = statementStep src r n := by
  unfold Lowering.statementStep
  rw [kind_withoutComments, hr.conditional h, hr.compound h, localDeclaration, localDeclaration,
    hr.declaration h, src.location_withoutComments]

theorem creation (hr : r.Blind) (h : Aside n) (explicit : Bool)
    (hkind : explicit = true → n.kind = "object_creation_expression") :
    creation src r explicit n.withoutComments = creation src r explicit n := by
  have htype : explicit = true → (createdTypeNode? n.withoutComments).map (typeRef src) =
      (createdTypeNode? n).map (typeRef src) := by
    intro hexplicit
    have hpick := h.self.2
    simp only [picked, hkind hexplicit, Option.mem_toList] at hpick
    rw [createdTypeNode?_withoutComments h hpick]
    refine map_typeRef_withoutComments src h fun c => mem_children_of_or mem_of_child? fun hc => ?_
    exact mem_of_mem_namedChildren (List.mem_of_find?_eq_some hc)
  unfold Lowering.creation
  rw [argumentList?_withoutComments h, initializerList?_withoutComments h,
    hr.elements fun l hl => h.child (mem_children_of_argumentList? hl),
    hr.elements fun l hl => h.child (mem_children_of_initializerList? hl),
    src.location_withoutComments]
  cases explicit with
  | false => rfl
  | true => simp only [if_true, htype rfl]

theorem invocation (hr : r.Blind) (h : Aside n) (hkind : n.kind = "invocation_expression") :
    invocation src r n.withoutComments = invocation src r n := by
  have hpick := h.self.2
  simp only [picked, hkind, Option.mem_toList] at hpick
  have hcallee := callee?_withoutComments h hpick
  have htarget : (callee? n.withoutComments).bind (calledName? src) =
      (callee? n).bind (calledName? src) := by
    rw [hcallee, Option.bind_map]
    refine Option.bind_congr fun f hf => ?_
    exact calledName?_withoutComments src (h.child (mem_children_of_callee? hf))
  have hreceiver : receiver? n.withoutComments = (receiver? n).map withoutComments := by
    unfold receiver?
    rw [hcallee]
    cases hf : callee? n with
    | none => rfl
    | some f =>
      rw [Option.map_some]
      dsimp only
      rw [kind_withoutComments, child?_withoutComments (h.child (mem_children_of_callee? hf))]
      split_ifs <;> rfl
  unfold Lowering.invocation
  rw [htarget, hreceiver, hr.map_option fun c hc => h.of_below (below_of_receiver? hc),
    argumentList?_withoutComments h,
    hr.elements fun l hl => h.child (mem_children_of_argumentList? hl),
    src.location_withoutComments]

theorem lambdaStatements (hr : r.Blind) (h : Aside n)
    (hpick : ∀ c, lambdaBody? n = some c → c.isComment = false) :
    lambdaStatements src r n.withoutComments = lambdaStatements src r n := by
  unfold Lowering.lambdaStatements
  rw [lambdaBody?_withoutComments h hpick]
  cases hbody : lambdaBody? n with
  | none => rfl
  | some body =>
    have haside := h.child (mem_children_of_lambdaBody? hbody)
    rw [Option.map_some]
    dsimp only
    rw [kind_withoutComments, hr.statements haside, hr.expression haside,
      src.location_withoutComments]

theorem expressionStep (hr : r.Blind) (h : Aside n) :
    expressionStep src r n.withoutComments = expressionStep src r n := by
  have hpick := h.self.2
  unfold picked at hpick
  unfold Lowering.expressionStep
  rw [kind_withoutComments]
  split
  case h_1 hkind => rw [hr.creation h true fun _ => hkind]
  case h_2 => rw [hr.creation h false fun hfalse => by cases hfalse]
  case h_3 hkind => rw [hr.invocation h hkind]
  case h_4 => rw [hr.expressions h]
  case h_5 hkind =>
    simp only [hkind, Option.mem_toList] at hpick
    rw [getLast?_namedChildren_withoutComments hpick]
    rw [hr.map_option fun c hc => h.child (mem_of_mem_namedChildren (List.mem_of_getLast? hc))]
  case h_6 => rw [src.text_withoutComments]
  case h_7 hkind =>
    simp only [hkind, Option.mem_toList] at hpick
    rw [hr.lambdaStatements h hpick]
  case h_8 hkind =>
    simp only [hkind, Option.mem_toList] at hpick
    rw [hr.lambdaStatements h hpick]
  case h_9 => rw [hr.statements h]
  case h_10 => rw [src.text_withoutComments, hr.expressions h]

end Reader.Blind

/-- One level of reading after the other, down to the limit, without a look at comments. -/
theorem reader_blind (src : SourceText) (levels : Nat) : (reader src levels).Blind := by
  induction levels with
  | zero =>
    refine ⟨fun {n} _ => ?_, fun _ => rfl⟩
    simp [reader, truncated]
  | succ levels ih => exact ⟨ih.statementStep, ih.expressionStep⟩

end PatternFinder.Lowering
