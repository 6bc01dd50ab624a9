import PatternFinder.Lowering.Tree
import PatternFinder.Proofs.Occurrence

/-! The places of a tree in preorder, and the places at which reading finds the types of a file. -/
namespace PatternFinder
open scoped List

/-- A node in a row of siblings, with the siblings before it. -/
structure Slot where
  before : List Node
  node : Node

/-- A place in a tree: the slots on the way down from the root, and the slot at its end. -/
structure Place where
  above : List Slot
  slot : Slot

namespace Place

def node (p : Place) : Node := p.slot.node

/-- The place as it is seen from one level further up. -/
def under (s : Slot) (p : Place) : Place := ⟨s :: p.above, p.slot⟩

@[simp] theorem node_under (s : Slot) (p : Place) : (p.under s).node = p.node := rfl

end Place

namespace Node

mutual

/-- The places below a node in preorder. -/
def places : Node → List Place
  | ⟨_, _, _, _, _, _, _, children⟩ => placesInRow [] children

def placesInRow (before : List Node) : List Node → List Place
  | [] => []
  | c :: rest =>
    ⟨[], ⟨before, c⟩⟩ ::
      (c.places.map (.under ⟨before, c⟩) ++ placesInRow (before ++ [c]) rest)

end

theorem places_eq (n : Node) : n.places = placesInRow [] n.children := by
  cases n
  rw [places]

/-- Every node below a node has a place of its own. -/
theorem map_node_places (n : Node) : n.places.map Place.node = n.descendants := by
  induction n using below_induction with
  | step n ih =>
    have hrow : ∀ before row, (∀ c ∈ row, c.places.map Place.node = c.descendants) →
        (placesInRow before row).map Place.node = row.flatMap family := by
      intro before row
      induction row generalizing before with
      | nil => intro _; simp [placesInRow]
      | cons c row ihrow =>
        intro h
        have hc := h c List.mem_cons_self
        have hrest := ihrow (before ++ [c]) fun d hd => h d (List.mem_cons_of_mem c hd)
        rw [placesInRow, List.map_cons, List.map_append, List.map_map, hrest]
        simp only [Function.comp_def, Place.node_under, hc]
        rfl
    rw [places_eq, descendants_eq_flatMap]
    exact hrow [] n.children fun c hc => ih c (.child hc)

/-- The places below a node at which a type is declared. -/
def typePlaces (n : Node) : List Place := n.places.filter (Lowering.isTypeNode ·.node)

end Node

namespace Lowering

/-- The test that picks out the body of a type: the child with the field, or the first list of
declarations when no child has it. -/
def isTypeBody (t : Node) : Node → Bool :=
  if (t.child? .body).isSome then (·.field == some .body)
  else fun c => c.named && c.kind == "declaration_list"

theorem typeBody?_eq_find? (t : Node) : typeBody? t = t.children.find? (isTypeBody t) := by
  unfold typeBody? isTypeBody
  cases h : t.child? .body with
  | some b => exact h.symm
  | none =>
    rw [Option.none_or, Node.namedOf?, Node.namedChildren, List.find?_filter]
    simp only [Bool.decide_and, Bool.decide_eq_true]
    rfl

/-- What the next level of the tree is to reading. -/
inductive Stage where
  /-- A row of declarations. -/
  | row
  /-- What stands in the body of a type. -/
  | typeRow
  /-- The parts of a declaration, of which only the first that passes the test is gone into. -/
  | parts (isBody : Node → Bool) (within : Stage)

namespace Stage

def ofType (t : Node) : Stage := .parts (isTypeBody t) .typeRow

/-- Whether the type in a slot is read. -/
def reads : Stage → Slot → Bool
  | .parts _ _, _ => false
  | _, s => s.node.named && isTypeNode s.node

/-- What is below a slot, if reading goes on there. -/
def enter : Stage → Slot → Option Stage
  | .row, s =>
    if !s.node.named then none
    else match s.node.kind with
      | "namespace_declaration" =>
        if (s.node.child? .body).isSome then some (.parts (·.field == some .body) .row)
        else some .row
      | "file_scoped_namespace_declaration" | "declaration_list" | "ERROR" => some .row
      | _ => if isTypeNode s.node then some (ofType s.node) else none
  | .typeRow, s => if s.node.named && isTypeNode s.node then some (ofType s.node) else none
  | .parts isBody within, s =>
    if isBody s.node && s.before.all (!isBody ·) then some within else none

/-- Whether reading comes to the type in a slot on the given way down. -/
def comesTo : Stage → List Slot → Slot → Bool
  | stage, [], s => stage.reads s
  | stage, c :: way, s => (stage.enter c).any fun below => comesTo below way s

end Stage

end Lowering

/-- Whether reading comes to a type at the place. -/
def Place.isRead (p : Place) : Bool := Lowering.Stage.row.comesTo p.above p.slot

namespace Lowering

/-- The names of the namespace and of the type around a declaration. -/
structure Surroundings where
  namespaceName : Option String
  owner : Option String

def isFileNamespace (n : Node) : Bool :=
  n.named && n.kind == "file_scoped_namespace_declaration"

section Reading

variable (src : SourceText)

/-- The namespace in force behind some siblings: the last namespace for the rest of the file among
them takes the place of the one before it. -/
def namespaceAfter (outer : Option String) (before : List Node) : Option String :=
  match (before.filter isFileNamespace).getLast? with
  | some n => some (joinNamespace outer (src.fieldText n .name))
  | none => outer

namespace Stage

/-- What reading takes along to what is below a slot. -/
def carry (a : Surroundings) (s : Slot) : Stage → Surroundings
  | .row =>
    let current := namespaceAfter src a.namespaceName s.before
    match s.node.kind with
    | "namespace_declaration" =>
      { a with namespaceName := some (joinNamespace current (src.fieldText s.node .name)) }
    | "file_scoped_namespace_declaration" =>
      { a with namespaceName := some (joinNamespace a.namespaceName (src.fieldText s.node .name)) }
    | "declaration_list" | "ERROR" => { a with namespaceName := current }
    | _ => ⟨current, some (src.fieldText s.node .name)⟩
  | .typeRow => { a with owner := some (src.fieldText s.node .name) }
  | .parts _ _ => a

/-- What reading has around the type in a slot when it comes to it on the given way. -/
def surroundings (a : Surroundings) : Stage → List Slot → Slot → Surroundings
  | .row, [], s => { a with namespaceName := namespaceAfter src a.namespaceName s.before }
  | _, [], _ => a
  | stage, c :: way, s =>
    match stage.enter c with
    | some below => below.surroundings (stage.carry src a c) way s
    | none => a

end Stage

/-- The type at a place that reading comes to. -/
def declarationAt (bodies : Reader) (stage : Stage) (a : Surroundings) (p : Place) :
    TypeDeclaration :=
  let b := stage.surroundings src a p.above p.slot
  typeDeclaration src bodies b.namespaceName b.owner p.node

/-- The types at the places in a row that reading comes to. -/
def declaredInRow (bodies : Reader) (stage : Stage) (a : Surroundings) (before row : List Node) :
    List TypeDeclaration :=
  ((Node.placesInRow before row).filter fun p => stage.comesTo p.above p.slot).map
    (declarationAt src bodies stage a)

end Reading

section Rows

variable {src : SourceText} {r : Reader}

theorem declaredInRow_nil (stage : Stage) (a : Surroundings) (before : List Node) :
    declaredInRow src r stage a before [] = [] := by
  simp [declaredInRow, Node.placesInRow]

/-- One node of a row, what is below it, and the rest of the row. -/
theorem declaredInRow_cons (stage : Stage) (a : Surroundings) (before : List Node) (c : Node)
    (rest : List Node) :
    declaredInRow src r stage a before (c :: rest) =
      (if stage.reads ⟨before, c⟩ then [declarationAt src r stage a ⟨[], ⟨before, c⟩⟩] else []) ++
        ((stage.enter ⟨before, c⟩).toList.flatMap fun below =>
          declaredInRow src r below (stage.carry src a ⟨before, c⟩) [] c.children) ++
        declaredInRow src r stage a (before ++ [c]) rest := by
  have hbelow : ((c.places.map (.under ⟨before, c⟩)).filter fun p : Place =>
      stage.comesTo p.above p.slot).map (declarationAt src r stage a) =
        (stage.enter ⟨before, c⟩).toList.flatMap fun below =>
          declaredInRow src r below (stage.carry src a ⟨before, c⟩) [] c.children := by
    rw [List.filter_map, List.map_map, Node.places_eq]
    cases hbelow : stage.enter ⟨before, c⟩ with
    | none => simp [Function.comp_def, Place.under, Stage.comesTo, hbelow]
    | some below =>
      simp [Function.comp_def, Place.under, Stage.comesTo, hbelow, declaredInRow, declarationAt,
        Stage.surroundings, Place.node]
  rw [declaredInRow, Node.placesInRow, List.filter_cons, List.filter_append]
  cases hreads : stage.reads ⟨before, c⟩ with
  | true =>
    rw [if_pos (by exact hreads), List.map_cons, List.map_append, hbelow, if_pos rfl]
    rfl
  | false =>
    rw [if_neg (by simpa [Stage.comesTo] using hreads), List.map_append, hbelow, if_neg (by simp)]
    rfl

/-- Nothing is gone into behind the body. -/
theorem declaredInRow_parts_behind {isBody : Node → Bool} {within : Stage} {a : Surroundings}
    {before : List Node} (hbefore : ∃ b ∈ before, isBody b = true) (row : List Node) :
    declaredInRow src r (.parts isBody within) a before row = [] := by
  induction row generalizing before with
  | nil => exact declaredInRow_nil _ _ _
  | cons c rest ih =>
    obtain ⟨b, hmem, hb⟩ := hbefore
    have hall : before.all (!isBody ·) = false := by simpa using ⟨b, hmem, hb⟩
    have henter : (Stage.parts isBody within).enter ⟨before, c⟩ = none := by
      simp [Stage.enter, hall]
    rw [declaredInRow_cons, henter, ih ⟨b, List.mem_append_left _ hmem, hb⟩]
    rfl

/-- Of the parts of a declaration only the body is gone into. -/
theorem declaredInRow_parts (src : SourceText) (r : Reader) (isBody : Node → Bool)
    (within : Stage) (a : Surroundings) {before : List Node}
    (hbefore : ∀ b ∈ before, isBody b = false) (row : List Node) :
    declaredInRow src r (.parts isBody within) a before row =
      ((row.find? isBody).map fun b => declaredInRow src r within a [] b.children).getD [] := by
  induction row generalizing before with
  | nil => exact declaredInRow_nil _ _ _
  | cons c rest ih =>
    have hall : before.all (!isBody ·) = true := by simpa using hbefore
    rw [declaredInRow_cons]
    cases hc : isBody c with
    | true =>
      have henter : (Stage.parts isBody within).enter ⟨before, c⟩ = some within := by
        simp [Stage.enter, hc, hall]
      rw [henter, declaredInRow_parts_behind ⟨c, by simp, hc⟩, List.find?_cons_of_pos hc]
      simp [Stage.reads, Stage.carry]
    | false =>
      have henter : (Stage.parts isBody within).enter ⟨before, c⟩ = none := by
        simp [Stage.enter, hc]
      have hbefore : ∀ b ∈ before ++ [c], isBody b = false := by
        intro b hb
        rcases List.mem_append.mp hb with hb | hb
        · exact hbefore b hb
        · rwa [List.mem_singleton.mp hb]
      rw [henter, ih hbefore, List.find?_cons_of_neg (by simp [hc])]
      rfl

/-- The types in the body of a type. -/
theorem declaredInRow_typeRow {a : Surroundings} {row : List Node}
    (hrow : ∀ c ∈ row, ∀ owner, typeAndNested src r a.namespaceName owner c =
      typeDeclaration src r a.namespaceName owner c ::
        declaredInRow src r (.ofType c) ⟨a.namespaceName, some (src.fieldText c .name)⟩ []
          c.children) (before : List Node) :
    declaredInRow src r .typeRow a before row =
      ((row.filter (·.named)).filter isTypeNode).flatMap
        (typeAndNested src r a.namespaceName a.owner) := by
  induction row generalizing before with
  | nil => exact declaredInRow_nil _ _ _
  | cons c rest ih =>
    have hrest := ih (fun d hd => hrow d (List.mem_cons_of_mem c hd)) (before ++ [c])
    rw [declaredInRow_cons, hrest]
    cases hnamed : c.named with
    | false => simp [Stage.reads, Stage.enter, hnamed]
    | true =>
      cases htype : isTypeNode c with
      | false => simp [Stage.reads, Stage.enter, hnamed, htype]
      | true =>
        simp [Stage.reads, Stage.enter, hnamed, htype, hrow c List.mem_cons_self, Stage.carry,
          declarationAt, Stage.surroundings, Place.node]

theorem typeAndNested_eq_declared (ns owner : Option String) (n : Node) :
    typeAndNested src r ns owner n = typeDeclaration src r ns owner n ::
      declaredInRow src r (.ofType n) ⟨ns, some (src.fieldText n .name)⟩ [] n.children := by
  induction n using Node.below_induction generalizing owner with
  | step n ih =>
    have hparts := declaredInRow_parts src r (isTypeBody n) .typeRow
      ⟨ns, some (src.fieldText n .name)⟩ (List.forall_mem_nil _) n.children
    rw [← typeBody?_eq_find?] at hparts
    rw [typeAndNested_eq, Stage.ofType, hparts, typeContents]
    congr 1
    cases hbody : typeBody? n with
    | none => rfl
    | some body =>
      have hchild : body ∈ n.children := by
        rw [typeBody?_eq_find?] at hbody
        exact List.mem_of_find?_eq_some hbody
      symm
      exact declaredInRow_typeRow (fun c hc owner => ih c (.deeper hchild (.child hc)) owner) []

theorem namespaceAfter_append_of_not {outer : Option String} {before : List Node} {c : Node}
    (h : isFileNamespace c = false) :
    namespaceAfter src outer (before ++ [c]) = namespaceAfter src outer before := by
  simp [namespaceAfter, h]

private theorem namespaceAfter_append_of_file {outer : Option String} {before : List Node}
    {c : Node} (h : isFileNamespace c = true) :
    namespaceAfter src outer (before ++ [c]) =
      some (joinNamespace outer (src.fieldText c .name)) := by
  simp [namespaceAfter, h]

/-- The types of a row are those at the places that reading comes to, in preorder. -/
theorem typesIn_eq_declared (outer current : Option String) (row : List Node) :
    ∀ before, current = namespaceAfter src outer before →
      typesIn src r outer current row = declaredInRow src r .row ⟨outer, none⟩ before row := by
  fun_induction typesIn src r outer current row with
  | case1 =>
    intro before _
    exact (declaredInRow_nil _ _ _).symm
  | case2 outer current c rest hnamed ihrest =>
    intro before hcurrent
    have hnamed : c.named = false := by simpa using hnamed
    have hfile : isFileNamespace c = false := by simp [isFileNamespace, hnamed]
    have hrest := ihrest (before ++ [c]) (by rw [namespaceAfter_append_of_not hfile, hcurrent])
    rw [declaredInRow_cons, hrest]
    simp [Stage.reads, Stage.enter, hnamed]
  | case3 outer current c rest hnamed hkind ns ihbody ihrest =>
    intro before hcurrent
    have hnamed : c.named = true := by simpa using hnamed
    have hfile : isFileNamespace c = false := by simp [isFileNamespace, hkind]
    have htype : isTypeNode c = false := by simp [isTypeNode, hkind, typeKind?]
    have hrest := ihrest (before ++ [c]) (by rw [namespaceAfter_append_of_not hfile, hcurrent])
    rw [declaredInRow_cons, hrest, ihbody [] rfl]
    cases hbody : c.child? .body with
    | none =>
      simp [Stage.reads, Stage.enter, Stage.carry, hnamed, hkind, htype, hbody, ← hcurrent, ns]
    | some body =>
      have hparts := declaredInRow_parts src r (·.field == some .body) .row ⟨ns, none⟩
        (List.forall_mem_nil _) c.children
      rw [← Node.child?, hbody] at hparts
      simp [Stage.reads, Stage.enter, Stage.carry, hnamed, hkind, htype, hbody, ← hcurrent,
        hparts, ns]
  | case4 outer current c rest hnamed hkind ns ihbody ihrest =>
    intro before _
    have hnamed : c.named = true := by simpa using hnamed
    have hfile : isFileNamespace c = true := by simp [isFileNamespace, hkind, hnamed]
    have htype : isTypeNode c = false := by simp [isTypeNode, hkind, typeKind?]
    have hrest := ihrest (before ++ [c]) (namespaceAfter_append_of_file hfile).symm
    rw [declaredInRow_cons, hrest, ihbody [] rfl]
    simp [Stage.reads, Stage.enter, Stage.carry, hnamed, hkind, htype, ns]
  | case5 outer current c rest hnamed hkind ihbody ihrest
  | case6 outer current c rest hnamed hkind ihbody ihrest =>
    intro before hcurrent
    have hnamed : c.named = true := by simpa using hnamed
    have hfile : isFileNamespace c = false := by simp [isFileNamespace, hkind]
    have htype : isTypeNode c = false := by simp [isTypeNode, hkind, typeKind?]
    have hrest := ihrest (before ++ [c]) (by rw [namespaceAfter_append_of_not hfile, hcurrent])
    rw [declaredInRow_cons, hrest, ihbody [] rfl]
    simp [Stage.reads, Stage.enter, Stage.carry, hnamed, hkind, htype, ← hcurrent]
  | case7 outer current c rest hnamed hns hkind hlist herror ihrest =>
    intro before hcurrent
    have hnamed : c.named = true := by simpa using hnamed
    have hfile : isFileNamespace c = false := by simpa [isFileNamespace] using fun _ => hkind
    have hrest := ihrest (before ++ [c]) (by rw [namespaceAfter_append_of_not hfile, hcurrent])
    rw [declaredInRow_cons, hrest]
    cases htype : isTypeNode c with
    | false => simp [Stage.reads, Stage.enter, hnamed, htype]
    | true =>
      simp [Stage.reads, Stage.enter, Stage.carry, hnamed, htype, typeAndNested_eq_declared,
        declarationAt, Stage.surroundings, Place.node, hcurrent]

/-- The types of a file are those at the places that reading comes to, in preorder. -/
theorem types_eq_map_places (root : Node) :
    types src r root = (root.places.filter Place.isRead).map
      (declarationAt src r .row ⟨none, none⟩) := by
  rw [types, typesIn_eq_declared none none root.children [] rfl, Node.places_eq]
  rfl

end Rows

namespace Stage

private theorem isTypeNode_of_reads {stage : Stage} {s : Slot} (h : stage.reads s = true) :
    isTypeNode s.node = true := by
  cases stage with
  | row => exact (Bool.and_eq_true_iff.mp h).2
  | typeRow => exact (Bool.and_eq_true_iff.mp h).2
  | parts => cases h

private theorem isTypeNode_of_comesTo {stage : Stage} {way : List Slot} {s : Slot}
    (h : stage.comesTo way s = true) : isTypeNode s.node = true := by
  induction way generalizing stage with
  | nil => exact isTypeNode_of_reads h
  | cons c way ih =>
    obtain ⟨below, -, hbelow⟩ := (Option.any_eq_true _ _).mp h
    exact ih hbelow

end Stage

/-- What reading comes to are places of types. -/
theorem filter_isRead_places (root : Node) :
    root.places.filter Place.isRead = root.typePlaces.filter Place.isRead := by
  rw [Node.typePlaces, List.filter_filter]
  refine List.filter_congr fun p _ => ?_
  cases h : p.isRead with
  | false => rfl
  | true => exact (Stage.isTypeNode_of_comesTo h).symm

end Lowering
end PatternFinder
