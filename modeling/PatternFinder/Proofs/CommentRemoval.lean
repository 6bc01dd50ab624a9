import PatternFinder.Lowering.Tree
import PatternFinder.Proofs.Occurrence

/-! A tree without its comments, and where its parts are found in it. -/
namespace PatternFinder

theorem find?_filter_of_found {α : Type} {p q : α → Bool} {l : List α}
    (h : ∀ a, l.find? q = some a → p a = true) : (l.filter p).find? q = l.find? q := by
  induction l with
  | nil => rfl
  | cons x l ih =>
    cases hq : q x with
    | true =>
      have hp : p x = true := h x (by rw [List.find?_cons, hq])
      rw [List.filter_cons_of_pos hp, List.find?_cons, List.find?_cons, hq]
    | false =>
      have hfound : l.find? q = (x :: l).find? q := by rw [List.find?_cons, hq]
      rw [← hfound] at h ⊢
      rw [← ih h, List.filter_cons]
      split
      · rw [List.find?_cons, hq]
      · rfl

theorem head?_filter_of_head {α : Type} {p : α → Bool} {l : List α}
    (h : ∀ a, l.head? = some a → p a = true) : (l.filter p).head? = l.head? := by
  cases l with
  | nil => rfl
  | cons x l => rw [List.filter_cons_of_pos (h x rfl), List.head?_cons, List.head?_cons]

theorem getLast?_filter_of_last {α : Type} {p : α → Bool} {l : List α}
    (h : ∀ a, l.getLast? = some a → p a = true) : (l.filter p).getLast? = l.getLast? := by
  rw [List.getLast?_eq_head?_reverse] at h ⊢
  rw [← List.filter_reverse, head?_filter_of_head h, List.getLast?_eq_head?_reverse]

theorem eraseP_filter_of_imp {α : Type} {p q : α → Bool} {l : List α}
    (h : ∀ a ∈ l, q a = true → p a = true) : (l.filter p).eraseP q = (l.eraseP q).filter p := by
  induction l with
  | nil => rfl
  | cons x l ih =>
    have hrest := ih fun a ha => h a (List.mem_cons_of_mem x ha)
    cases hq : q x with
    | true =>
      have hp := h x List.mem_cons_self hq
      rw [List.filter_cons_of_pos hp, List.eraseP_cons_of_pos hq, List.eraseP_cons_of_pos hq]
    | false =>
      rw [List.eraseP_cons_of_neg (by simp [hq]), List.filter_cons, List.filter_cons, ← hrest]
      split
      · rw [List.eraseP_cons_of_neg (by simp [hq])]
      · rfl

namespace Node

mutual

/-- The same node without the comments below it. -/
def withoutComments : Node → Node
  | ⟨kind, start, stop, field, named, error, missing, children⟩ =>
    ⟨kind, start, stop, field, named, error, missing, withoutCommentsList children⟩

def withoutCommentsList : List Node → List Node
  | [] => []
  | n :: ns =>
    if n.isComment then withoutCommentsList ns
    else withoutComments n :: withoutCommentsList ns

end

@[simp] theorem kind_withoutComments (n : Node) : n.withoutComments.kind = n.kind := by
  cases n; rfl

@[simp] theorem start_withoutComments (n : Node) : n.withoutComments.start = n.start := by
  cases n; rfl

@[simp] theorem stop_withoutComments (n : Node) : n.withoutComments.stop = n.stop := by
  cases n; rfl

@[simp] theorem field_withoutComments (n : Node) : n.withoutComments.field = n.field := by
  cases n; rfl

@[simp] theorem named_withoutComments (n : Node) : n.withoutComments.named = n.named := by
  cases n; rfl

@[simp] theorem isComment_withoutComments (n : Node) :
    n.withoutComments.isComment = n.isComment := by
  cases n; rfl

theorem children_withoutComments (n : Node) :
    n.withoutComments.children = withoutCommentsList n.children := by
  cases n; rfl

theorem withoutCommentsList_cons_of_comment {n : Node} (h : n.isComment = true) (ns : List Node) :
    withoutCommentsList (n :: ns) = withoutCommentsList ns := by
  rw [withoutCommentsList, if_pos h]

theorem withoutCommentsList_cons_of_not {n : Node} (h : n.isComment = false) (ns : List Node) :
    withoutCommentsList (n :: ns) = n.withoutComments :: withoutCommentsList ns := by
  rw [withoutCommentsList, h, if_neg Bool.false_ne_true]

theorem withoutCommentsList_eq (ns : List Node) :
    withoutCommentsList ns = (ns.filter (!·.isComment)).map withoutComments := by
  induction ns with
  | nil => rfl
  | cons n ns ih =>
    rw [withoutCommentsList, List.filter_cons, ih]
    cases n.isComment <;> rfl

/-- Picking nodes that are no comments from a row is picking them from the row without comments. -/
theorem filter_withoutCommentsList {q : Node → Bool} (hq : ∀ c, q c.withoutComments = q c)
    (h : ∀ c, q c = true → c.isComment = false) (ns : List Node) :
    (withoutCommentsList ns).filter q = (ns.filter q).map withoutComments := by
  have hcomp : q ∘ withoutComments = q := funext hq
  rw [withoutCommentsList_eq, List.filter_map, hcomp, List.filter_filter]
  congr 1
  refine List.filter_congr fun c _ => ?_
  cases hc : q c with
  | false => rfl
  | true => simp [h c hc]

/-- A search that does not end at a comment ends at the same node without comments. -/
theorem find?_withoutCommentsList {q q' : Node → Bool} {ns : List Node}
    (hq : ∀ c, q' c.withoutComments = q c)
    (h : ∀ c, ns.find? q = some c → c.isComment = false) :
    (withoutCommentsList ns).find? q' = (ns.find? q).map withoutComments := by
  have hcomp : q' ∘ withoutComments = q := funext hq
  rw [withoutCommentsList_eq, List.find?_map, hcomp, find?_filter_of_found]
  intro c hc
  simp [h c hc]

/-- What is collected from a row is the same without comments when comments give nothing. -/
theorem filterMap_withoutCommentsList {α : Type} {f : Node → Option α} {ns : List Node}
    (hcomment : ∀ c, c.isComment = true → f c = none)
    (h : ∀ c ∈ ns, f c.withoutComments = f c) :
    (withoutCommentsList ns).filterMap f = ns.filterMap f := by
  induction ns with
  | nil => rfl
  | cons c ns ih =>
    have hrest := ih fun d hd => h d (List.mem_cons_of_mem c hd)
    cases hc : c.isComment with
    | true =>
      rw [withoutCommentsList_cons_of_comment hc, hrest, List.filterMap_cons_none (hcomment c hc)]
    | false =>
      rw [withoutCommentsList_cons_of_not hc, List.filterMap_cons, List.filterMap_cons, hrest,
        h c List.mem_cons_self]

theorem kind_of_isComment {c : Node} (h : c.isComment = true) : c.kind = "comment" := by
  simpa [isComment] using h

theorem isComment_of_kind {q : String → Bool} (hq : q "comment" = false) {c : Node}
    (h : q c.kind = true) : c.isComment = false := by
  cases hc : c.isComment with
  | false => rfl
  | true =>
    rw [kind_of_isComment hc, hq] at h
    exact absurd h Bool.false_ne_true

end Node

namespace SourceText

@[simp] theorem text_withoutComments (src : SourceText) (n : Node) :
    src.text n.withoutComments = src.text n := by
  simp [text]

@[simp] theorem location_withoutComments (src : SourceText) (n : Node) :
    src.location n.withoutComments = src.location n := by
  simp [location, range]

end SourceText

namespace Lowering
open Node

/-- The children that are taken up as they come, or for their place among the others. -/
def picked (n : Node) : List Node :=
  match n.kind with
  | "type_argument_list" => n.namedChildren
  | "qualified_name" | "alias_qualified_name" => (lastName? n).toList
  | "array_type" | "nullable_type" | "ref_type" | "scoped_type"
  | "primary_constructor_base_type" => (innerType? n).toList
  | "variable_declaration" => (declaredTypeNode? n).toList
  | "object_creation_expression" => (createdTypeNode? n).toList
  | "invocation_expression" => (callee? n).toList
  | "lambda_expression" | "anonymous_method_expression" => (lambdaBody? n).toList
  | "argument" => n.namedChildren.getLast?.toList
  | "equals_value_clause" => n.namedChildren.head?.toList
  | _ => []

/-- No child that is a comment is taken for anything else. -/
def CommentsAside (n : Node) : Prop :=
  (∀ c ∈ n.children, c.isComment = true → c.field = none) ∧
    ∀ c ∈ picked n, c.isComment = false

instance (n : Node) : Decidable (CommentsAside n) := inferInstanceAs (Decidable (_ ∧ _))

/-- Nowhere in a tree is a comment taken for anything else. -/
def Aside (n : Node) : Prop := ∀ m ∈ n.family, CommentsAside m

instance (n : Node) : Decidable (Aside n) := inferInstanceAs (Decidable (∀ m ∈ n.family, _))

namespace Aside

variable {n c : Node}

theorem self (h : Aside n) : CommentsAside n := h n List.mem_cons_self

theorem of_below (h : Aside n) (hc : Below n c) : Aside c :=
  fun m hm => h m (List.mem_cons_of_mem n (hc.family_sublist.subset hm))

theorem child (h : Aside n) (hc : c ∈ n.children) : Aside c := h.of_below (.child hc)

theorem isComment_of_field (h : Aside n) (hc : c ∈ n.children) {f : Field}
    (hf : c.field = some f) : c.isComment = false := by
  cases hcomment : c.isComment with
  | false => rfl
  | true => simp [h.self.1 c hc hcomment] at hf

end Aside

section Lookup

variable {n : Node}

theorem namedChildren_withoutComments (n : Node) :
    n.withoutComments.namedChildren = withoutCommentsList n.namedChildren := by
  rw [Node.namedChildren, children_withoutComments, withoutCommentsList_eq, withoutCommentsList_eq,
    List.filter_map, Node.namedChildren, List.filter_filter, List.filter_filter]
  congr 1
  exact List.filter_congr fun c _ => by simp [Bool.and_comm]

theorem contents_withoutComments (n : Node) :
    contents n.withoutComments = (contents n).map withoutComments := by
  rw [contents, namedChildren_withoutComments]
  exact filter_withoutCommentsList (fun c => by simp) (fun c => by simp) _

theorem filter_namedChildren_withoutComments {q : Node → Bool}
    (hq : ∀ c, q c.withoutComments = q c) (h : ∀ c, q c = true → c.isComment = false) :
    n.withoutComments.namedChildren.filter q = (n.namedChildren.filter q).map withoutComments := by
  rw [namedChildren_withoutComments, filter_withoutCommentsList hq h]

theorem filter_kind_withoutComments {kind : String} (hkind : kind ≠ "comment") :
    n.withoutComments.namedChildren.filter (·.kind == kind) =
      (n.namedChildren.filter (·.kind == kind)).map withoutComments := by
  refine filter_namedChildren_withoutComments (fun c => by simp) fun c => ?_
  exact isComment_of_kind (q := (· == kind)) (by simpa using hkind.symm)

theorem find?_namedChildren_withoutComments {q : Node → Bool}
    (hq : ∀ c, q c.withoutComments = q c)
    (h : ∀ c, n.namedChildren.find? q = some c → c.isComment = false) :
    n.withoutComments.namedChildren.find? q = (n.namedChildren.find? q).map withoutComments := by
  rw [namedChildren_withoutComments, find?_withoutCommentsList hq h]

theorem namedOf?_withoutComments {kind : String} (hkind : kind ≠ "comment") :
    n.withoutComments.namedOf? kind = (n.namedOf? kind).map withoutComments := by
  refine find?_namedChildren_withoutComments (fun c => by simp) fun c hc => ?_
  have hc := kind_of_namedOf? hc
  simp [isComment, hc, hkind]

theorem child?_withoutComments (h : Aside n) (f : Field) :
    n.withoutComments.child? f = (n.child? f).map withoutComments := by
  rw [Node.child?, children_withoutComments]
  refine find?_withoutCommentsList (fun c => by simp) fun c hc => ?_
  exact h.isComment_of_field (List.mem_of_find?_eq_some hc) (field_of_child? hc)

theorem head?_namedChildren_withoutComments
    (h : ∀ c, n.namedChildren.head? = some c → c.isComment = false) :
    n.withoutComments.namedChildren.head? = n.namedChildren.head?.map withoutComments := by
  rw [namedChildren_withoutComments, withoutCommentsList_eq, List.head?_map, head?_filter_of_head]
  intro c hc
  simp [h c hc]

theorem getLast?_namedChildren_withoutComments
    (h : ∀ c, n.namedChildren.getLast? = some c → c.isComment = false) :
    n.withoutComments.namedChildren.getLast? = n.namedChildren.getLast?.map withoutComments := by
  rw [namedChildren_withoutComments, withoutCommentsList_eq, List.getLast?_map,
    getLast?_filter_of_last]
  intro c hc
  simp [h c hc]

theorem or_withoutComments {a a' b b' : Option Node} (ha : a' = a.map withoutComments)
    (hb : b' = b.map withoutComments) : a'.or b' = (a.or b).map withoutComments := by
  cases a <;> simp [ha, hb]

/-- The second of two ways to find a child may come to a comment where the first finds one. -/
theorem pick_withoutComments {a a' b b' : Option Node} (ha : a' = a.map withoutComments)
    (hb : (∀ c, b = some c → c.isComment = false) → b' = b.map withoutComments)
    (hpick : ∀ c, a.or b = some c → c.isComment = false) :
    a'.or b' = (a.or b).map withoutComments := by
  cases a with
  | none => exact or_withoutComments ha (hb hpick)
  | some c => simp [ha]

theorem lastName?_withoutComments (h : Aside n)
    (hpick : ∀ c, lastName? n = some c → c.isComment = false) :
    lastName? n.withoutComments = (lastName? n).map withoutComments :=
  pick_withoutComments (child?_withoutComments h .name) getLast?_namedChildren_withoutComments hpick

theorem innerType?_withoutComments (h : Aside n)
    (hpick : ∀ c, innerType? n = some c → c.isComment = false) :
    innerType? n.withoutComments = (innerType? n).map withoutComments :=
  pick_withoutComments (child?_withoutComments h .type) head?_namedChildren_withoutComments hpick

theorem declaredTypeNode?_withoutComments (h : Aside n)
    (hpick : ∀ c, declaredTypeNode? n = some c → c.isComment = false) :
    declaredTypeNode? n.withoutComments = (declaredTypeNode? n).map withoutComments :=
  pick_withoutComments (child?_withoutComments h .type)
    (find?_namedChildren_withoutComments fun c => by simp) hpick

theorem createdTypeNode?_withoutComments (h : Aside n)
    (hpick : ∀ c, createdTypeNode? n = some c → c.isComment = false) :
    createdTypeNode? n.withoutComments = (createdTypeNode? n).map withoutComments :=
  pick_withoutComments (child?_withoutComments h .type)
    (find?_namedChildren_withoutComments fun c => by simp) hpick

theorem callee?_withoutComments (h : Aside n)
    (hpick : ∀ c, callee? n = some c → c.isComment = false) :
    callee? n.withoutComments = (callee? n).map withoutComments :=
  pick_withoutComments (child?_withoutComments h .function) head?_namedChildren_withoutComments
    hpick

theorem lambdaBody?_withoutComments (h : Aside n)
    (hpick : ∀ c, lambdaBody? n = some c → c.isComment = false) :
    lambdaBody? n.withoutComments = (lambdaBody? n).map withoutComments :=
  pick_withoutComments
    (or_withoutComments (child?_withoutComments h .body) (namedOf?_withoutComments (by decide)))
    getLast?_namedChildren_withoutComments hpick

theorem genericName?_withoutComments (h : Aside n) :
    genericName? n.withoutComments = (genericName? n).map withoutComments :=
  or_withoutComments (child?_withoutComments h .name) (namedOf?_withoutComments (by decide))

end Lookup

theorem map_text_withoutComments (src : SourceText) (m : Option Node) :
    (m.map withoutComments).map src.text = m.map src.text := by
  rw [Option.map_map]
  exact Option.map_congr fun c _ => src.text_withoutComments c

theorem fieldText_withoutComments (src : SourceText) {n : Node} (h : Aside n) (f : Field) :
    src.fieldText n.withoutComments f = src.fieldText n f := by
  rw [SourceText.fieldText, SourceText.fieldText, child?_withoutComments h,
    map_text_withoutComments]

section TypeRefs

variable (src : SourceText)

theorem typeRef_eq (n : Node) : typeRef src n = match n.kind with
    | "predefined_type" | "void_keyword" => .predefined (src.text n)
    | "identifier" => .ofSimpleName (src.text n)
    | "implicit_type" => .other "var"
    | "generic_name" =>
      .generic (((genericName? n).map src.text).getD "") ((typeArguments n).map (typeRef src))
    | "qualified_name" | "alias_qualified_name" =>
      ((lastName? n).map fun c => requalify (qualifier? src n) (typeRef src c)).getD
        (.other (src.text n))
    | "array_type" => .array (((innerType? n).map (typeRef src)).getD (.other (src.text n)))
    | "nullable_type" => .nullable (((innerType? n).map (typeRef src)).getD (.other (src.text n)))
    | "ref_type" | "scoped_type" =>
      ((innerType? n).map (typeRef src)).getD (.other (src.text n))
    | _ => .other (src.text n) := by
  rw [typeRef]
  split
  case h_5 => simp only [List.map_attach_eq_pmap, List.pmap_eq_map, *]
  case h_6 => split <;> simp [*]
  case h_7 => split <;> simp [*]
  case h_8 => split <;> simp [*]
  case h_9 => split <;> simp [*]
  case h_10 => split <;> simp [*]
  case h_11 => split <;> simp [*]
  all_goals simp [*]

theorem typeArguments_withoutComments {n : Node} (h : Aside n) :
    typeArguments n.withoutComments = (typeArguments n).map withoutComments := by
  unfold typeArguments
  rw [namedOf?_withoutComments (by decide)]
  cases hlist : n.namedOf? "type_argument_list" with
  | none => rfl
  | some list =>
    have hkind := kind_of_namedOf? hlist
    have hpick : ∀ c ∈ list.namedChildren, c.isComment = false := by
      have := (h.child (mem_of_namedOf? hlist)).self.2
      simpa only [picked, hkind] using this
    have hall : list.namedChildren.filter (!·.isComment) = list.namedChildren := by
      refine List.filter_eq_self.mpr fun c hc => ?_
      simp [hpick c hc]
    rw [Option.map_some]
    dsimp only
    rw [namedChildren_withoutComments, withoutCommentsList_eq, hall]

theorem qualifier?_withoutComments {n : Node} (h : Aside n) :
    qualifier? src n.withoutComments = qualifier? src n := by
  unfold qualifier?
  rw [or_withoutComments (child?_withoutComments h _) (child?_withoutComments h _),
    map_text_withoutComments]

theorem below_of_mem_typeArguments {n c : Node} (h : c ∈ typeArguments n) : Below n c := by
  unfold typeArguments at h
  cases hlist : n.namedOf? "type_argument_list" with
  | none => simp [hlist] at h
  | some list =>
    simp only [hlist] at h
    exact .deeper (mem_of_namedOf? hlist) (.child (mem_of_mem_namedChildren h))

theorem mem_children_of_lastName? {n c : Node} (h : lastName? n = some c) : c ∈ n.children :=
  mem_children_of_or mem_of_child?
    (fun h => mem_of_mem_namedChildren (List.mem_of_getLast? h)) h

theorem mem_children_of_innerType? {n c : Node} (h : innerType? n = some c) : c ∈ n.children :=
  mem_children_of_or mem_of_child? (fun h => mem_of_mem_namedChildren (List.mem_of_head? h)) h

/-- A type is read the same without comments. -/
theorem typeRef_withoutComments {n : Node} (h : Aside n) :
    typeRef src n.withoutComments = typeRef src n := by
  induction n using below_induction with
  | step n ih =>
    have hpick := h.self.2
    have hbelow : ∀ c, c ∈ n.children → typeRef src c.withoutComments = typeRef src c :=
      fun c hc => ih c (.child hc) (h.child hc)
    have hinner : (∀ c, innerType? n = some c → c.isComment = false) →
        (innerType? n.withoutComments).map (typeRef src) = (innerType? n).map (typeRef src) := by
      intro hpick
      rw [innerType?_withoutComments h hpick, Option.map_map]
      exact Option.map_congr fun c hc => hbelow c (mem_children_of_innerType? hc)
    have hlast : (∀ c, lastName? n = some c → c.isComment = false) →
        (lastName? n.withoutComments).map
          (fun c => requalify (qualifier? src n.withoutComments) (typeRef src c)) =
        (lastName? n).map (fun c => requalify (qualifier? src n) (typeRef src c)) := by
      intro hpick
      rw [lastName?_withoutComments h hpick, Option.map_map, qualifier?_withoutComments src h]
      refine Option.map_congr fun c hc => ?_
      simp only [Function.comp_apply, hbelow c (mem_children_of_lastName? hc)]
    rw [typeRef_eq, typeRef_eq, kind_withoutComments]
    unfold picked at hpick
    -- the forms that look into a child have a rule of `picked` for that child
    split
    case h_5 hkind =>
      rw [genericName?_withoutComments h, map_text_withoutComments, typeArguments_withoutComments h,
        List.map_map]
      congr 1
      refine List.map_congr_left fun c hc => ?_
      have hc := below_of_mem_typeArguments hc
      exact ih c hc (h.of_below hc)
    case h_6 hkind =>
      simp only [hkind, Option.mem_toList] at hpick
      rw [hlast hpick, SourceText.text_withoutComments]
    case h_7 hkind =>
      simp only [hkind, Option.mem_toList] at hpick
      rw [hlast hpick, SourceText.text_withoutComments]
    case h_8 hkind =>
      simp only [hkind, Option.mem_toList] at hpick
      rw [hinner hpick, SourceText.text_withoutComments]
    case h_9 hkind =>
      simp only [hkind, Option.mem_toList] at hpick
      rw [hinner hpick, SourceText.text_withoutComments]
    case h_10 hkind =>
      simp only [hkind, Option.mem_toList] at hpick
      rw [hinner hpick, SourceText.text_withoutComments]
    case h_11 hkind =>
      simp only [hkind, Option.mem_toList] at hpick
      rw [hinner hpick, SourceText.text_withoutComments]
    all_goals simp only [SourceText.text_withoutComments]

/-- The types that are read of nodes without comments are those of the nodes. -/
theorem map_typeRef_withoutComments {n : Node} (h : Aside n) {m : Option Node}
    (hm : ∀ c, m = some c → c ∈ n.children) :
    (m.map withoutComments).map (typeRef src) = m.map (typeRef src) := by
  rw [Option.map_map]
  exact Option.map_congr fun c hc => typeRef_withoutComments src (h.child (hm c hc))

end TypeRefs

end Lowering

end PatternFinder
