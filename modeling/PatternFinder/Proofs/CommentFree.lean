import PatternFinder.Proofs.CommentReading

/-! The declarations of a file are read the same without its comments, unless a comment is taken for
something else. -/
namespace PatternFinder.Lowering
open Node

theorem modifiers_withoutComments (src : SourceText) (n : Node) :
    modifiers src n.withoutComments = modifiers src n := by
  have hkeyword : "comment" ∉ bareKeywords := by decide
  unfold modifiers
  rw [children_withoutComments]
  refine filterMap_withoutCommentsList (fun c hc => ?_) fun c _ => ?_
  · simp [kind_of_isComment hc, hkeyword]
  · simp

section Members

variable {src : SourceText} {n : Node}

private theorem parameter_withoutComments (h : Aside n) :
    parameter src n.withoutComments = parameter src n := by
  have hname : (n.withoutComments.child? .name).or
      (n.withoutComments.namedChildren.filter (·.kind == "identifier")).getLast? =
      ((n.child? .name).or
        (n.namedChildren.filter (·.kind == "identifier")).getLast?).map withoutComments := by
    refine or_withoutComments (child?_withoutComments h .name) ?_
    rw [filter_kind_withoutComments (by decide), List.getLast?_map]
  unfold parameter
  rw [hname, map_text_withoutComments, child?_withoutComments h,
    map_typeRef_withoutComments src h fun c => mem_of_child?]

theorem parameters_withoutComments (h : Aside n) :
    parameters src n.withoutComments = parameters src n := by
  unfold parameters
  rw [or_withoutComments (child?_withoutComments h .parameters)
    (namedOf?_withoutComments (by decide))]
  cases hlist : (n.child? .parameters).or (n.namedOf? "parameter_list") with
  | none => rfl
  | some list =>
    have haside := h.child (mem_children_of_or mem_of_child? mem_of_namedOf? hlist)
    rw [Option.map_some]
    dsimp only
    rw [filter_kind_withoutComments (by decide), List.map_map]
    refine List.map_congr_left fun c hc => parameter_withoutComments (haside.child ?_)
    exact mem_of_mem_namedChildren (List.mem_filter.mp hc).1

variable {r : Reader}

theorem bodyOf_withoutComments (hr : r.Blind) (h : Aside n) :
    bodyOf src r n.withoutComments = bodyOf src r n := by
  unfold bodyOf
  rw [kind_withoutComments, hr.statements h, hr.expressions h, src.location_withoutComments]

theorem body?_withoutComments (hr : r.Blind) (h : Aside n) :
    body? src r n.withoutComments = body? src r n := by
  unfold body?
  rw [or_withoutComments (or_withoutComments (child?_withoutComments h .body)
    (namedOf?_withoutComments (by decide))) (namedOf?_withoutComments (by decide)),
    Option.bind_map]
  refine Option.bind_congr fun c hc => bodyOf_withoutComments hr (h.child ?_)
  exact mem_children_of_or (mem_children_of_or mem_of_child? mem_of_namedOf?) mem_of_namedOf? hc

private theorem accessorBody?_withoutComments (hr : r.Blind) (h : Aside n) :
    accessorBody? src r n.withoutComments = accessorBody? src r n := by
  unfold accessorBody?
  rw [or_withoutComments (child?_withoutComments h .accessors)
    (namedOf?_withoutComments (by decide)), Option.bind_map]
  refine Option.bind_congr fun list hlist => ?_
  have haside := h.child (mem_children_of_or mem_of_child? mem_of_namedOf? hlist)
  have hbodies : (list.withoutComments.namedChildren.filter
      (·.kind == "accessor_declaration")).filterMap (body? src r) =
      (list.namedChildren.filter (·.kind == "accessor_declaration")).filterMap (body? src r) := by
    rw [filter_kind_withoutComments (by decide), List.filterMap_map]
    refine List.filterMap_congr fun c hc => body?_withoutComments hr (haside.child ?_)
    exact mem_of_mem_namedChildren (List.mem_filter.mp hc).1
  simp only [Function.comp_apply, hbodies]

theorem propertyBody?_withoutComments (hr : r.Blind) (h : Aside n) :
    propertyBody? src r n.withoutComments = propertyBody? src r n := by
  unfold propertyBody?
  rw [namedOf?_withoutComments (by decide)]
  cases harrow : n.namedOf? "arrow_expression_clause" with
  | none => exact accessorBody?_withoutComments hr h
  | some arrow => exact bodyOf_withoutComments hr (h.child (mem_of_namedOf? harrow))

theorem fieldType_withoutComments (h : Aside n) {m : Option Node}
    (hm : ∀ c, m = some c → c ∈ n.children) :
    fieldType src (m.map withoutComments) = fieldType src m := by
  unfold fieldType
  rw [map_typeRef_withoutComments src h hm]

theorem location_name_withoutComments (h : Aside n) :
    src.location ((n.withoutComments.child? .name).getD n.withoutComments) =
      src.location ((n.child? .name).getD n) := by
  rw [child?_withoutComments h]
  cases n.child? .name <;> simp

theorem member?_withoutComments (hr : r.Blind) (h : Aside n) :
    member? src r n.withoutComments = member? src r n := by
  have hreturns : ∀ c, (n.child? .returns).or (n.child? .type) = some c → c ∈ n.children :=
    fun c => mem_children_of_or mem_of_child? mem_of_child?
  unfold member? field constructor method property
  rw [kind_withoutComments, modifiers_withoutComments, src.location_withoutComments,
    hr.declaration h, fieldText_withoutComments src h, parameters_withoutComments h,
    body?_withoutComments hr h, propertyBody?_withoutComments hr h, location_name_withoutComments h,
    or_withoutComments (child?_withoutComments h .returns) (child?_withoutComments h .type),
    fieldType_withoutComments h hreturns, child?_withoutComments h .type,
    fieldType_withoutComments h fun c => mem_of_child?]

end Members

section Types

variable {src : SourceText} {r : Reader} {n : Node}

theorem baseTypes_withoutComments (h : Aside n) :
    baseTypes src n.withoutComments = baseTypes src n := by
  unfold baseTypes
  rw [namedOf?_withoutComments (by decide)]
  cases hlist : n.namedOf? "base_list" with
  | none => rfl
  | some list =>
    have haside := h.child (mem_of_namedOf? hlist)
    rw [Option.map_some]
    dsimp only
    rw [namedChildren_withoutComments]
    refine filterMap_withoutCommentsList (fun c hc => ?_) fun c hc => ?_
    · simp [kind_of_isComment hc]
    · have hc := haside.child (mem_of_mem_namedChildren hc)
      have hpick := hc.self.2
      unfold picked at hpick
      rw [kind_withoutComments]
      split
      case h_3 hkind =>
        simp only [hkind, Option.mem_toList] at hpick
        rw [innerType?_withoutComments hc hpick,
          map_typeRef_withoutComments src hc fun d => mem_children_of_innerType?]
      case h_4 => rw [typeRef_withoutComments src hc]
      all_goals rfl

theorem typeContents_withoutComments (h : Aside n) :
    typeContents n.withoutComments = withoutCommentsList (typeContents n) := by
  unfold typeContents typeBody?
  rw [or_withoutComments (child?_withoutComments h .body) (namedOf?_withoutComments (by decide))]
  cases (n.child? .body).or (n.namedOf? "declaration_list") with
  | none => rfl
  | some body => exact namedChildren_withoutComments body

theorem below_of_mem_typeContents {c : Node} (h : c ∈ typeContents n) : Below n c := by
  unfold typeContents at h
  cases hbody : typeBody? n with
  | none => simp [hbody] at h
  | some body =>
    simp only [hbody] at h
    have hbody := mem_children_of_or mem_of_child? mem_of_namedOf? hbody
    exact .deeper hbody (.child (mem_of_mem_namedChildren h))

theorem typeDeclaration_withoutComments (hr : r.Blind) (h : Aside n)
    (ns containing : Option String) :
    typeDeclaration src r ns containing n.withoutComments =
      typeDeclaration src r ns containing n := by
  have hmembers : (withoutCommentsList (typeContents n)).filterMap (member? src r) =
      (typeContents n).filterMap (member? src r) := by
    refine filterMap_withoutCommentsList (fun c hc => ?_) fun c hc => ?_
    · simp [member?, kind_of_isComment hc]
    · exact member?_withoutComments hr (h.of_below (below_of_mem_typeContents hc))
  unfold typeDeclaration
  rw [kind_withoutComments, modifiers_withoutComments, fieldText_withoutComments src h,
    location_name_withoutComments h, src.location_withoutComments, baseTypes_withoutComments h,
    typeContents_withoutComments h, hmembers]

theorem isTypeNode_withoutComments (c : Node) : isTypeNode c.withoutComments = isTypeNode c := by
  simp [isTypeNode]

private theorem isComment_of_isTypeNode {c : Node} (h : isTypeNode c = true) :
    c.isComment = false :=
  isComment_of_kind (q := fun kind => (typeKind? kind).isSome) (by decide) h

theorem typeAndNested_withoutComments (hr : r.Blind) (h : Aside n) (ns containing : Option String) :
    typeAndNested src r ns containing n.withoutComments =
      typeAndNested src r ns containing n := by
  induction n using below_induction generalizing containing with
  | step n ih =>
    have hnested : (withoutCommentsList (typeContents n)).filter isTypeNode =
        ((typeContents n).filter isTypeNode).map withoutComments :=
      filter_withoutCommentsList isTypeNode_withoutComments (fun c => isComment_of_isTypeNode) _
    rw [typeAndNested_eq, typeAndNested_eq, typeDeclaration_withoutComments hr h,
      typeContents_withoutComments h, hnested, fieldText_withoutComments src h, List.flatMap_map]
    congr 1
    refine List.flatMap_congr fun c hc => ?_
    have hc := below_of_mem_typeContents (List.mem_filter.mp hc).1
    exact ih c hc (h.of_below hc) _

theorem children_namespaceBody_withoutComments (h : Aside n) :
    ((n.withoutComments.child? .body).getD n.withoutComments).children =
      withoutCommentsList ((n.child? .body).getD n).children := by
  rw [child?_withoutComments h, Option.getD_map, children_withoutComments]

private theorem aside_namespaceBody (h : Aside n) :
    ∀ c ∈ ((n.child? .body).getD n).children, Aside c := by
  cases hbody : n.child? .body with
  | none => exact fun c => h.child
  | some body => exact fun c => (h.child (mem_of_child? hbody)).child

private theorem typesIn_withoutCommentsList (hr : r.Blind) {cs : List Node} (h : ∀ c ∈ cs, Aside c)
    (outer current : Option String) :
    typesIn src r outer current (withoutCommentsList cs) = typesIn src r outer current cs := by
  fun_induction typesIn src r outer current cs with
  | case1 => rw [withoutCommentsList, typesIn]
  | case2 outer current c rest hnamed ihrest =>
    have hrest := ihrest (List.forall_mem_cons.mp h).2
    cases hc : c.isComment with
    | true => rw [withoutCommentsList_cons_of_comment hc, hrest]
    | false =>
      rw [withoutCommentsList_cons_of_not hc, typesIn, named_withoutComments, if_pos hnamed, hrest]
  | case3 outer current c rest hnamed hkind ns ihbody ihrest =>
    obtain ⟨hc, hrest⟩ := List.forall_mem_cons.mp h
    rw [withoutCommentsList_cons_of_not (by simp [isComment, hkind]), typesIn,
      named_withoutComments, if_neg hnamed, kind_withoutComments]
    simp only [hkind]
    rw [fieldText_withoutComments src hc, children_namespaceBody_withoutComments hc,
      ihbody (aside_namespaceBody hc), ihrest hrest]
  | case4 outer current c rest hnamed hkind ns ihbody ihrest =>
    obtain ⟨hc, hrest⟩ := List.forall_mem_cons.mp h
    rw [withoutCommentsList_cons_of_not (by simp [isComment, hkind]), typesIn,
      named_withoutComments, if_neg hnamed, kind_withoutComments]
    simp only [hkind]
    rw [fieldText_withoutComments src hc, children_withoutComments, ihbody fun d => hc.child,
      ihrest hrest]
  | case5 outer current c rest hnamed hkind ihbody ihrest
  | case6 outer current c rest hnamed hkind ihbody ihrest =>
    obtain ⟨hc, hrest⟩ := List.forall_mem_cons.mp h
    rw [withoutCommentsList_cons_of_not (by simp [isComment, hkind]), typesIn,
      named_withoutComments, if_neg hnamed, kind_withoutComments]
    simp only [hkind]
    rw [children_withoutComments, ihbody fun d => hc.child, ihrest hrest]
  | case7 outer current c rest hnamed hns hfile hlist herror ihrest =>
    obtain ⟨hc, hrest⟩ := List.forall_mem_cons.mp h
    -- a comment gets here too when it is named, and declares nothing
    cases hcomment : c.isComment with
    | true =>
      have htype : isTypeNode c = false := by
        rw [isTypeNode, kind_of_isComment hcomment]
        rfl
      rw [withoutCommentsList_cons_of_comment hcomment, ihrest hrest, htype]
      rfl
    | false =>
      rw [withoutCommentsList_cons_of_not hcomment, typesIn, named_withoutComments, if_neg hnamed,
        kind_withoutComments]
      simp only [isTypeNode_withoutComments, typeAndNested_withoutComments hr hc, ihrest hrest]

/-- The types of a file are read the same without its comments when no comment stands where
something else is looked for. -/
theorem types_withoutComments (src : SourceText) (root : Node) (h : Aside root) :
    types src (bodyReader src) root.withoutComments = types src (bodyReader src) root := by
  rw [types, children_withoutComments]
  exact typesIn_withoutCommentsList (reader_blind src _) (fun c => h.child) none none

end Types

/-- A class that is documented, with a comment before the initial value of its field. -/
def documentedSource : SourceText :=
  .ofBytes "C.cs" "/*a*/ class C : I \x7b /*b*/ int x = /*c*/ 1; \x7d".toUTF8

def documentedRoot : Node :=
  plain "compilation_unit" 0 44 none
    [plain "comment" 0 5 none [],
      plain "class_declaration" 6 44 none
        [plain "identifier" 12 13 (some .name) [],
          plain "base_list" 14 17 none [plain "identifier" 16 17 none []],
          plain "declaration_list" 18 44 (some .body)
            [plain "comment" 20 25 none [],
              plain "field_declaration" 26 42 none
                [plain "variable_declaration" 26 41 none
                  [plain "predefined_type" 26 29 (some .type) [],
                    plain "variable_declarator" 30 41 none
                      [plain "identifier" 30 31 (some .name) [],
                        plain "comment" 34 39 none [],
                        plain "integer_literal" 40 41 none []]]]]]]

/-- Three comments that are read over. -/
theorem types_withoutComments_documented :
    documentedRoot.descendants.countP Node.isComment = 3 ∧
      documentedRoot.withoutComments.descendants.countP Node.isComment = 0 ∧
      types documentedSource (bodyReader documentedSource) documentedRoot.withoutComments =
        types documentedSource (bodyReader documentedSource) documentedRoot := by
  refine ⟨by decide, by decide, ?_⟩
  exact types_withoutComments documentedSource documentedRoot (by decide)

/-- A class whose base type has a comment among its type arguments. -/
def commentedSource : SourceText :=
  .ofBytes "C.cs" "class CP : IP</*c*/int> \x7b \x7d".toUTF8

def commentedBase (arguments : List Node) : Node :=
  plain "generic_name" 11 23 none
    [plain "identifier" 11 13 none [],
      plain "type_argument_list" 13 23 none arguments]

def commentedClass (arguments : List Node) : Node :=
  plain "class_declaration" 0 27 none
    [plain "identifier" 6 8 (some .name) [],
      plain "base_list" 9 23 none [commentedBase arguments],
      plain "declaration_list" 24 27 (some .body) []]

def argumentComment : Node := plain "comment" 14 19 none []

def argumentWord : Node := plain "predefined_type" 19 22 none []

def commentedRoot : Node :=
  plain "compilation_unit" 0 27 none [commentedClass [argumentComment, argumentWord]]

theorem types_commentedClass {root : Node} {arguments : List Node}
    (hroot : root.children = [commentedClass arguments]) :
    (types commentedSource (bodyReader commentedSource) root).map (·.baseTypes) =
      [[typeRef commentedSource (commentedBase arguments)]] := by
  have hcontents : typeContents (commentedClass arguments) = [] := rfl
  have htypes : types commentedSource (bodyReader commentedSource) root =
      [typeDeclaration commentedSource (bodyReader commentedSource) none none
        (commentedClass arguments)] := by
    rw [types, hroot, typesIn, typesIn, typeAndNested_eq, hcontents]
    rfl
  rw [htypes]
  rfl

theorem typeRef_commentedBase {arguments : List Node} (h : ∀ c ∈ arguments, c.named = true) :
    typeRef commentedSource (commentedBase arguments) =
      .generic "IP" (arguments.map (typeRef commentedSource)) := by
  have hname : commentedSource.text (plain "identifier" 11 13 none []) = "IP" := by
    decide +kernel
  have hgeneric : genericName? (commentedBase arguments) =
      some (plain "identifier" 11 13 none []) := rfl
  have harguments : typeArguments (commentedBase arguments) = arguments :=
    List.filter_eq_self.mpr h
  rw [typeRef_eq, hgeneric, harguments, Option.map_some, hname]
  rfl

/-- A comment among type arguments is read as one of them. -/
theorem comment_read_as_type_argument :
    (types commentedSource (bodyReader commentedSource) commentedRoot).map (·.baseTypes) =
        [[.generic "IP" [.other "/*c*/", .predefined "int"]]] ∧
      (types commentedSource (bodyReader commentedSource) commentedRoot.withoutComments).map
        (·.baseTypes) = [[.generic "IP" [.predefined "int"]]] ∧
      types commentedSource (bodyReader commentedSource) commentedRoot.withoutComments ≠
        types commentedSource (bodyReader commentedSource) commentedRoot := by
  have hcomment : typeRef commentedSource argumentComment = .other "/*c*/" := by
    have htext : commentedSource.text argumentComment = "/*c*/" := by decide +kernel
    rw [typeRef_eq, htext]
    rfl
  have hword : typeRef commentedSource argumentWord = .predefined "int" := by
    have htext : commentedSource.text argumentWord = "int" := by decide +kernel
    rw [typeRef_eq, htext]
    rfl
  have hwith : (types commentedSource (bodyReader commentedSource) commentedRoot).map
      (·.baseTypes) = [[.generic "IP" [.other "/*c*/", .predefined "int"]]] := by
    rw [types_commentedClass rfl, typeRef_commentedBase (by decide), List.map_cons,
      List.map_singleton, hcomment, hword]
  have hwithout : (types commentedSource (bodyReader commentedSource)
      commentedRoot.withoutComments).map (·.baseTypes) = [[.generic "IP" [.predefined "int"]]] := by
    have hroot : commentedRoot.withoutComments.children = [commentedClass [argumentWord]] := rfl
    rw [types_commentedClass hroot, typeRef_commentedBase (by decide), List.map_singleton, hword]
  refine ⟨hwith, hwithout, fun hsame => ?_⟩
  rw [hsame, hwith] at hwithout
  simp [TypeRef.generic] at hwithout

end PatternFinder.Lowering
