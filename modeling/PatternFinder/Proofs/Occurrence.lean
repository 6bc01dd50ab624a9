import Mathlib.Data.List.Flatten
import Mathlib.Data.List.Perm.Subperm
import PatternFinder.Proofs.Descent

/-! What is read out of a node stands in places of its own below it. Lists of nodes count every
occurrence here, and `<+~` compares how often. -/
namespace PatternFinder
open scoped List

namespace Node

/-- A named node in which nothing is wrong. -/
def plain (kind : String) (start stop : Nat) (field : Option Field) (children : List Node) : Node :=
  ⟨kind, start, stop, field, true, false, false, children⟩

mutual

/-- The nodes below a node in preorder, each as often as it occurs. -/
def descendants : Node → List Node
  | ⟨_, _, _, _, _, _, _, children⟩ => descendantsList children

def descendantsList : List Node → List Node
  | [] => []
  | n :: ns => n :: (descendants n ++ descendantsList ns)

end

/-- A node and all below it. -/
def family (n : Node) : List Node := n :: n.descendants

theorem descendants_eq_flatMap (n : Node) : n.descendants = n.children.flatMap family := by
  have hlist : ∀ ns, descendantsList ns = ns.flatMap family := by
    intro ns
    induction ns with
    | nil => simp [descendantsList]
    | cons n ns ih => simp [descendantsList, family, ih]
  cases n with
  | mk _ _ _ _ _ _ _ children => rw [descendants, hlist]

/-- The occurrences at and below a node of a row are in the occurrences of the row. -/
theorem family_sublist_of_mem {c n : Node} (h : c ∈ n.children) : c.family <+ n.descendants := by
  rw [descendants_eq_flatMap]
  have := (List.singleton_sublist.mpr h).flatMap family
  rwa [List.flatMap_singleton] at this

theorem Below.family_sublist {n d : Node} (h : Below n d) : d.family <+ n.descendants := by
  induction h with
  | child hc => exact family_sublist_of_mem hc
  | deeper hc _ ih =>
    have hfamily := family_sublist_of_mem hc
    exact ih.trans ((List.sublist_cons_self _ _).trans hfamily)

theorem mem_descendants_iff {n d : Node} : d ∈ n.descendants ↔ Below n d := by
  constructor
  · induction n using below_induction with
    | step n ih =>
      intro h
      rw [descendants_eq_flatMap] at h
      obtain ⟨c, hc, hd⟩ := List.mem_flatMap.mp h
      rcases List.mem_cons.mp hd with rfl | hd
      · exact .child hc
      · exact .deeper hc (ih c (.child hc) hd)
  · intro h
    exact h.family_sublist.subset List.mem_cons_self

theorem flatMap_subperm_of_subperm {α β : Type} {as bs : List α} (h : as <+~ bs)
    (f : α → List β) : as.flatMap f <+~ bs.flatMap f := by
  obtain ⟨l, hperm, hsub⟩ := h
  have hflat : as.flatMap f ~ l.flatMap f := hperm.symm.flatMap fun _ _ => .refl _
  exact hflat.subperm.trans (hsub.flatMap f).subperm

theorem flatMap_subperm_flatMap {α β : Type} {as : List α} {f g : α → List β}
    (h : ∀ a ∈ as, f a <+~ g a) : as.flatMap f <+~ as.flatMap g := by
  induction as with
  | nil => exact .refl _
  | cons a as ih =>
    simp only [List.flatMap_cons]
    have hhead := h a List.mem_cons_self
    have htail := ih fun b hb => h b (List.mem_cons_of_mem a hb)
    exact hhead.append htail

/-- The nodes `ms` stand in the trees `ns`, each with all below it in a place of its own. -/
def Apart (ms ns : List Node) : Prop := ms.flatMap family <+~ ns.flatMap family

namespace Apart

theorem of_subperm {ms ns : List Node} (h : ms <+~ ns) : Apart ms ns :=
  flatMap_subperm_of_subperm h family

theorem trans {ls ms ns : List Node} (h : Apart ls ms) (h' : Apart ms ns) : Apart ls ns :=
  List.Subperm.trans h h'

theorem append {ms ns ms' ns' : List Node} (h : Apart ms ns) (h' : Apart ms' ns') :
    Apart (ms ++ ms') (ns ++ ns') := by
  unfold Apart
  rw [List.flatMap_append, List.flatMap_append]
  exact List.Subperm.append h h'

theorem flatMap {ns : List Node} {f : Node → List Node} (h : ∀ n ∈ ns, Apart (f n) [n]) :
    Apart (ns.flatMap f) ns := by
  unfold Apart
  rw [List.flatMap_assoc]
  refine flatMap_subperm_flatMap fun n hn => ?_
  have := h n hn
  rwa [Apart, List.flatMap_singleton] at this

/-- What stands apart in the children stands apart in the node. -/
theorem of_children {ms : List Node} {n : Node} (h : Apart ms n.children) : Apart ms [n] := by
  unfold Apart
  rw [List.flatMap_singleton, family]
  rw [Apart, ← descendants_eq_flatMap] at h
  exact h.cons_right n

theorem of_option {m : Option Node} {n : Node} (h : ∀ d, m = some d → Below n d) :
    Apart m.toList n.children := by
  unfold Apart
  rw [← descendants_eq_flatMap]
  cases m with
  | none => exact List.nil_subperm
  | some d =>
    rw [Option.toList_some, List.flatMap_singleton]
    exact (h d rfl).family_sublist.subperm

end Apart

theorem toList_sublist {α : Type} {m : Option α} {l : List α} (h : ∀ a, m = some a → a ∈ l) :
    m.toList <+ l := by
  cases m with
  | none => exact List.nil_sublist l
  | some a => exact List.singleton_sublist.mpr (h a rfl)

/-- Two lists out of the two sides of a test. -/
theorem append_subperm_of_test {α : Type} {as bs l : List α} (p : α → Bool)
    (ha : as <+~ l.filter p) (hb : bs <+~ l.filter (!p ·)) : as ++ bs <+~ l :=
  (ha.append hb).trans (List.filter_append_perm p l).subperm

theorem field_of_child? {n c : Node} {f : Field} (h : n.child? f = some c) : c.field = some f := by
  simpa using List.find?_some h

theorem kind_of_namedOf? {n c : Node} {kind : String} (h : n.namedOf? kind = some c) :
    c.kind = kind := by
  simpa using List.find?_some h

/-- The fields for lists are on lists. -/
def FieldsFit (c : Node) : Prop :=
  (c.field = some .arguments → c.kind = "argument_list") ∧
    (c.field = some .initializer → c.kind = "initializer_expression")

instance (c : Node) : Decidable c.FieldsFit := inferInstanceAs (Decidable (_ ∧ _))

end Node

namespace Lowering
open Node

theorem contents_sublist (n : Node) : contents n <+ n.children :=
  List.filter_sublist.trans List.filter_sublist

theorem apart_contents (n : Node) : Apart (contents n) [n] :=
  .of_children (.of_subperm (contents_sublist n).subperm)

theorem map_node_expression (ms : List Node) : (ms.map Part.expression).map Part.node = ms := by
  simp [Function.comp_def, Part.node]

theorem map_node_statement (ms : List Node) : (ms.map Part.statement).map Part.node = ms := by
  simp [Function.comp_def, Part.node]

theorem map_node_listed (list : Option Node) :
    (listed list).map Part.node = list.toList.flatMap contents := by
  cases list with
  | none => rfl
  | some l => simp [listed, Function.comp_def, Part.node]

theorem apart_initialNodes (n : Node) : Apart (initialNodes n) n.children := by
  unfold initialNodes
  cases hd : n.namedOf? "variable_declaration" with
  | none => exact .of_subperm List.nil_subperm
  | some d =>
    dsimp only
    have hvariable : ∀ v ∈ d.namedChildren.filter (·.kind == "variable_declarator"),
        Apart ((declaratorParts v).foldl initialNode none).toList [v] := by
      intro v _
      exact .of_children (.of_option fun _ => below_of_foldl_initialNode)
    have hvariables : d.namedChildren.filter (·.kind == "variable_declarator") <+ d.children :=
      List.filter_sublist.trans List.filter_sublist
    have hd : [d] <+ n.children := List.singleton_sublist.mpr (mem_of_namedOf? hd)
    rw [List.filterMap_eq_flatMap_toList]
    refine Apart.trans (.of_children ?_) (.of_subperm hd.subperm)
    exact (Apart.flatMap hvariable).trans (.of_subperm hvariables.subperm)

theorem apart_conditionalParts (n : Node) :
    Apart ((conditionalParts n).map Part.node) n.children := by
  unfold conditionalParts
  cases hc : n.child? .consequence with
  | some consequence =>
    have hbranches : [consequence] ++ (n.child? .alternative).toList <+~
        n.children.filter (!·.field == some .condition) := by
      refine append_subperm_of_test (·.field == some .consequence) ?_ ?_
      · refine (List.singleton_sublist.mpr ?_).subperm
        simp [mem_of_child? hc, field_of_child? hc]
      · refine (toList_sublist fun c h => ?_).subperm
        simp [mem_of_child? h, field_of_child? h]
    dsimp only
    rw [List.map_append, List.map_cons, map_node_expression, map_node_statement]
    refine .of_subperm (append_subperm_of_test (·.field == some .condition) ?_ hbranches)
    refine (toList_sublist fun c h => ?_).subperm
    simp [mem_of_child? h, field_of_child? h]
  | none =>
    dsimp only
    rw [List.map_append, map_node_expression, map_node_statement]
    refine .of_subperm (append_subperm_of_test (!isStatementKind ·.kind) ?_ ?_)
    · refine (toList_sublist fun c h => ?_).subperm
      have hkind := List.find?_some h
      have hmem := mem_children_of_mem_contents (List.mem_of_find?_eq_some h)
      exact List.mem_filter.mpr ⟨hmem, hkind⟩
    · simp only [Bool.not_not]
      refine ((List.take_sublist _ _).trans ?_).subperm
      exact List.filter_sublist.filter _

theorem apart_compound (n : Node) :
    Apart ((contents n).filter (!isStatementKind ·.kind) ++
      (contents n).filter (isStatementKind ·.kind)) n.children := by
  have hsplit := List.filter_append_perm (fun c : Node => !isStatementKind c.kind) (contents n)
  simp only [Bool.not_not] at hsplit
  exact .of_subperm (hsplit.subperm.trans (contents_sublist n).subperm)

theorem apart_lambdaParts (n : Node) : Apart ((lambdaParts n).map Part.node) n.children := by
  unfold lambdaParts
  cases hb : lambdaBody? n with
  | none => exact .of_subperm List.nil_subperm
  | some body =>
    have hbody : [body] <+ n.children :=
      List.singleton_sublist.mpr (mem_children_of_lambdaBody? hb)
    dsimp only
    split_ifs
    · rw [map_node_statement]
      exact (apart_contents body).trans (.of_subperm hbody.subperm)
    · exact .of_subperm hbody.subperm

theorem kind_of_argumentList? {n a : Node} (hfit : ∀ c ∈ n.children, c.FieldsFit)
    (h : argumentList? n = some a) : a.kind = "argument_list" := by
  rcases Option.or_eq_some_iff.mp h with h | ⟨-, h⟩
  · exact (hfit a (mem_of_child? h)).1 (field_of_child? h)
  · exact kind_of_namedOf? h

private theorem kind_of_initializerList? {n a : Node} (hfit : ∀ c ∈ n.children, c.FieldsFit)
    (h : initializerList? n = some a) : a.kind = "initializer_expression" := by
  rcases Option.or_eq_some_iff.mp h with h | ⟨-, h⟩
  · exact (hfit a (mem_of_child? h)).2 (field_of_child? h)
  · exact kind_of_namedOf? h

/-- The two lists of a construction are two nodes. -/
theorem apart_creation {n : Node} (hfit : ∀ c ∈ n.children, c.FieldsFit) :
    Apart ((argumentList? n).toList.flatMap contents ++
      (initializerList? n).toList.flatMap contents) n.children := by
  rw [← List.flatMap_append]
  refine (Apart.flatMap fun l _ => apart_contents l).trans (.of_subperm ?_)
  refine append_subperm_of_test (·.kind == "argument_list") ?_ ?_
  · refine (toList_sublist fun c h => ?_).subperm
    simp [mem_children_of_argumentList? h, kind_of_argumentList? hfit h]
  · refine (toList_sublist fun c h => ?_).subperm
    simp [mem_children_of_initializerList? h, kind_of_initializerList? hfit h]

private theorem exists_callee_of_receiver? {n r : Node} (h : receiver? n = some r) :
    ∃ f ∈ n.children, f.kind = "member_access_expression" ∧ r ∈ f.children := by
  unfold receiver? at h
  cases hf : callee? n with
  | none => simp [hf] at h
  | some f =>
    simp only [hf] at h
    split_ifs at h with hkind
    exact ⟨f, mem_children_of_callee? hf, by simpa using hkind, mem_of_child? h⟩

/-- What a call is made on stands in another child than its arguments. -/
theorem apart_invocation {n : Node} (hfit : ∀ c ∈ n.children, c.FieldsFit) :
    Apart ((receiver? n).toList ++ (argumentList? n).toList.flatMap contents) n.children := by
  have harguments : (argumentList? n).toList <+
      n.children.filter (!·.kind == "member_access_expression") := by
    refine toList_sublist fun c h => ?_
    simp [mem_children_of_argumentList? h, kind_of_argumentList? hfit h]
  have hcontents : Apart ((argumentList? n).toList.flatMap contents) (argumentList? n).toList :=
    .flatMap fun l _ => apart_contents l
  cases hr : receiver? n with
  | none =>
    rw [Option.toList_none, List.nil_append]
    exact hcontents.trans (.of_subperm (harguments.trans List.filter_sublist).subperm)
  | some r =>
    obtain ⟨f, hf, hkind, hr⟩ := exists_callee_of_receiver? hr
    have hreceiver : Apart [r] [f] :=
      .of_children (.of_subperm (List.singleton_sublist.mpr hr).subperm)
    refine (hreceiver.append hcontents).trans (.of_subperm ?_)
    refine append_subperm_of_test (·.kind == "member_access_expression") ?_ harguments.subperm
    refine (List.singleton_sublist.mpr ?_).subperm
    simp [hf, hkind]

namespace Part

theorem apart_statementParts (n : Node) :
    Apart ((statement n).parts.map Part.node) n.children := by
  simp only [parts]
  split
  · rw [map_node_expression]
    exact apart_initialNodes n
  · exact apart_conditionalParts n
  · rw [List.map_append, map_node_expression, map_node_statement]
    exact apart_compound n

private theorem apart_expressionParts {n : Node} (hfit : ∀ c ∈ n.children, c.FieldsFit) :
    Apart ((expression n).parts.map Part.node) n.children := by
  have hcontents : Apart (contents n) n.children := .of_subperm (contents_sublist n).subperm
  have hnil : Apart [] n.children := .of_subperm List.nil_subperm
  simp only [parts]
  split
  case h_1 =>
    rw [List.map_append, map_node_listed, map_node_listed]
    exact apart_creation hfit
  case h_2 =>
    rw [List.map_append, map_node_listed, map_node_listed]
    exact apart_creation hfit
  case h_3 =>
    rw [List.map_append, map_node_listed, map_node_expression]
    exact apart_invocation hfit
  case h_4 =>
    rw [map_node_expression]
    exact hcontents
  case h_5 =>
    rw [map_node_expression]
    refine .of_subperm (toList_sublist fun c h => ?_).subperm
    exact mem_of_mem_namedChildren (List.mem_of_getLast? h)
  case h_6 => exact hnil
  case h_7 => exact apart_lambdaParts n
  case h_8 => exact apart_lambdaParts n
  case h_9 =>
    rw [map_node_statement]
    exact hcontents
  case h_10 =>
    split_ifs
    · exact hnil
    · rw [map_node_expression]
      exact hcontents

/-- One level of reading takes up no node twice. -/
theorem apart_parts {p : Part} (hfit : ∀ c ∈ p.node.children, c.FieldsFit) :
    Apart (p.parts.map Part.node) p.node.children := by
  cases p with
  | statement n => exact apart_statementParts n
  | expression n => exact apart_expressionParts hfit

/-- Reading takes up no node twice. -/
theorem readings_subperm {p : Part} (hfit : ∀ d ∈ p.node.descendants, d.FieldsFit) (levels : Nat) :
    (p.readings levels).map Part.node <+~ p.node.family := by
  induction levels generalizing p with
  | zero => exact List.nil_subperm
  | succ levels ih =>
    have hchildren : ∀ c ∈ p.node.children, c.FieldsFit := by
      intro c hc
      exact hfit c (mem_descendants_iff.mpr (.child hc))
    have hparts : ∀ q ∈ p.parts, (q.readings levels).map Part.node <+~ q.node.family := by
      intro q hq
      refine ih fun d hd => hfit d ?_
      have hfamily := (below_of_mem_parts hq).family_sublist
      exact hfamily.subset (List.mem_cons_of_mem _ hd)
    have hapart := apart_parts hchildren
    rw [Apart, List.flatMap_map, ← descendants_eq_flatMap] at hapart
    rw [readings, List.map_cons, List.map_flatMap]
    exact (List.subperm_cons _).mpr ((flatMap_subperm_flatMap hparts).trans hapart)

end Part

end Lowering

end PatternFinder
