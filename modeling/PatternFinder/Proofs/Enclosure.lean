import Mathlib.Data.List.Forall2
import Mathlib.Data.List.Nodup
import PatternFinder.Proofs.TypePlaces

/-! What stands around a type: the namespaces and the type that enclose it, and the members that are
its own. -/
namespace PatternFinder
open Lowering Node
open scoped List

/-- The name of a namespace that is made up of nested ones; empty names in front are dropped. -/
def nestedNamespace : List String → Option String
  | [] => none
  | names => some (".".intercalate (names.dropWhile String.isEmpty))

theorem intercalate_isEmpty {a : String} (ha : a.isEmpty = false) (names : List String) :
    (".".intercalate (a :: names)).isEmpty = false := by
  cases names with
  | nil => simpa using ha
  | cons b names =>
    rw [String.intercalate_cons_cons]
    simp_all

theorem nestedNamespace_of_ne_nil {names : List String} (h : names ≠ []) :
    nestedNamespace names = some (".".intercalate (names.dropWhile String.isEmpty)) := by
  cases names with
  | nil => exact absurd rfl h
  | cons a names => rfl

theorem nestedNamespace_append (names : List String) (name : String) :
    nestedNamespace (names ++ [name]) = some (joinNamespace (nestedNamespace names) name) := by
  have hsingle : ".".intercalate ([name].dropWhile String.isEmpty) = name := by
    cases h : name.isEmpty <;> simp_all
  rw [nestedNamespace_of_ne_nil (by simp), List.dropWhile_append]
  by_cases hnames : names = []
  · simp [hnames, nestedNamespace, joinNamespace, hsingle]
  · rw [nestedNamespace_of_ne_nil hnames]
    cases hrest : names.dropWhile String.isEmpty with
    | nil => simp [joinNamespace, hsingle]
    | cons a rest =>
      have ha : a.isEmpty = false := by
        have := List.head?_dropWhile_not String.isEmpty names
        simpa [hrest] using this
      have hjoin := String.intercalate_append_of_ne_nil (s := ".") (List.cons_ne_nil a rest)
        (List.cons_ne_nil name [])
      have hfront := intercalate_isEmpty ha rest
      rw [List.isEmpty_cons, if_neg (by simp), hjoin, String.intercalate_singleton]
      simp only [joinNamespace, hfront]
      rfl

namespace Slot

variable (src : SourceText)

/-- The namespace for the rest of the file that is in force at a slot. -/
def fileNamespaces (s : Slot) : List String :=
  ((s.before.filter isFileNamespace).getLast?.map (src.fieldText · .name)).toList

/-- The namespaces that enclose what is below a slot, and not the row that it is in. -/
def namespaces (s : Slot) : List String :=
  match s.node.kind with
  | "file_scoped_namespace_declaration" => [src.fieldText s.node .name]
  | "namespace_declaration" => s.fileNamespaces src ++ [src.fieldText s.node .name]
  | _ => s.fileNamespaces src

/-- The slot is one of those below a node. -/
def In (s : Slot) (n : Node) : Prop := ∃ rest, n.children = s.before ++ s.node :: rest

end Slot

namespace Place

variable (src : SourceText)

/-- The names of the namespaces that enclose a place, the outermost first. -/
def namespaces (p : Place) : List String :=
  p.above.flatMap (·.namespaces src) ++ p.slot.fileNamespaces src

/-- The name of the nearest type that encloses a place. -/
def nearestType (p : Place) : Option String :=
  (p.above.filter (isTypeNode ·.node)).getLast?.map (src.fieldText ·.node .name)

end Place

/-- The grammar's form of declarations: the body of a type or a namespace is a list of declarations,
and a namespace for the rest of the file stands in none of the three. -/
def Node.DeclarationsFit (n : Node) : Prop :=
  (isTypeNode n = true ∨ n.kind = "namespace_declaration" →
      ∀ b ∈ n.child? .body, b.kind = "declaration_list") ∧
    (isTypeNode n = true ∨ n.kind = "namespace_declaration" ∨ n.kind = "declaration_list" →
      ∀ c ∈ n.children, isFileNamespace c = false)

instance (n : Node) : Decidable n.DeclarationsFit := inferInstanceAs (Decidable (_ ∧ _))

namespace Lowering

/-- A way down from a node to a slot below it. -/
def IsWay : Node → List Slot → Slot → Prop
  | n, [], s => s.In n
  | n, c :: way, s => c.In n ∧ IsWay c.node way s

private theorem isWay_of_mem_placesInRow {n : Node} {p : Place} {before row : List Node}
    (hrow : n.children = before ++ row)
    (hbelow : ∀ c ∈ row, ∀ q ∈ c.places, IsWay c q.above q.slot)
    (h : p ∈ Node.placesInRow before row) : IsWay n p.above p.slot := by
  induction row generalizing before with
  | nil => simp [Node.placesInRow] at h
  | cons c rest ih =>
    rw [Node.placesInRow, List.mem_cons, List.mem_append, List.mem_map] at h
    obtain rfl | ⟨q, hq, rfl⟩ | h := h
    · exact ⟨rest, hrow⟩
    · exact ⟨⟨rest, hrow⟩, hbelow c List.mem_cons_self q hq⟩
    · refine ih ?_ (fun d hd => hbelow d (List.mem_cons_of_mem c hd)) h
      rw [hrow, List.append_assoc, List.singleton_append]

theorem isWay_of_mem_places {n : Node} {p : Place} (h : p ∈ n.places) :
    IsWay n p.above p.slot := by
  induction n using Node.below_induction generalizing p with
  | step n ih =>
    rw [Node.places_eq] at h
    exact isWay_of_mem_placesInRow rfl (fun c hc q hq => ih c (.child hc) hq) h

section Surroundings

variable {src : SourceText} {n : Node} {s : Slot}

theorem namespaceAfter_nestedNamespace (names : List String) (s : Slot) :
    namespaceAfter src (nestedNamespace names) s.before =
      nestedNamespace (names ++ s.fileNamespaces src) := by
  unfold namespaceAfter Slot.fileNamespaces
  cases (s.before.filter isFileNamespace).getLast? with
  | none => simp
  | some f => exact (nestedNamespace_append names _).symm

theorem fileNamespaces_eq_nil (src : SourceText) (hin : s.In n)
    (h : ∀ c ∈ n.children, isFileNamespace c = false) : s.fileNamespaces src = [] := by
  obtain ⟨rest, hchildren⟩ := hin
  have hbefore : s.before.filter isFileNamespace = [] := by
    rw [List.filter_eq_nil_iff]
    intro c hc
    simp [h c (by rw [hchildren]; exact List.mem_append_left _ hc)]
  simp [Slot.fileNamespaces, hbefore]

theorem find?_of_in {q : Node → Bool} (hin : s.In n)
    (hfirst : (q s.node && s.before.all (!q ·)) = true) : n.children.find? q = some s.node := by
  obtain ⟨rest, hchildren⟩ := hin
  obtain ⟨hnode, hbefore⟩ := Bool.and_eq_true_iff.mp hfirst
  rw [List.find?_eq_some_iff_append]
  exact ⟨hnode, s.before, rest, hchildren, by simpa using hbefore⟩

namespace Stage

/-- The stage is one in which reading can be below the node. -/
def At (n : Node) : Stage → Prop
  | .row => True
  | .typeRow => n.kind = "declaration_list"
  | .parts isBody within =>
    isTypeNode n = true ∧ isBody = isTypeBody n ∧ within = .typeRow ∨
      n.kind = "namespace_declaration" ∧ isBody = (·.field == some .body) ∧ within = .row

theorem kind_of_isTypeBody (hfit : n.DeclarationsFit) (htype : isTypeNode n = true)
    {b : Node} (hb : n.children.find? (isTypeBody n) = some b) : b.kind = "declaration_list" := by
  rw [← typeBody?_eq_find?] at hb
  rcases Option.or_eq_some_iff.mp hb with hb | ⟨-, hb⟩
  · exact hfit.1 (.inl htype) b hb
  · exact Node.kind_of_namedOf? hb

theorem isTypeNode_of_kind {kind : String} (hkind : s.node.kind = kind)
    (h : (typeKind? kind).isSome = false) : isTypeNode s.node = false := by
  rw [isTypeNode, hkind, h]

/-- What a step down from a row of declarations takes along. -/
theorem carry_row (src : SourceText) (names : List String) (owner : Option String) {below : Stage}
    (henter : Stage.row.enter s = some below) :
    below.At s.node ∧ Stage.row.carry src ⟨nestedNamespace names, owner⟩ s =
      ⟨nestedNamespace (names ++ s.namespaces src),
        if isTypeNode s.node then some (src.fieldText s.node .name) else owner⟩ := by
  have hcurrent : namespaceAfter src (nestedNamespace names) s.before =
      nestedNamespace (names ++ s.fileNamespaces src) := namespaceAfter_nestedNamespace names s
  simp only [enter] at henter
  split at henter
  · cases henter
  split at henter
  case h_1 hkind =>
    have htype := isTypeNode_of_kind hkind rfl
    refine ⟨?_, ?_⟩
    · split_ifs at henter
      · obtain rfl := Option.some.inj henter
        exact .inr ⟨hkind, rfl, rfl⟩
      · obtain rfl := Option.some.inj henter
        trivial
    · simp [carry, Slot.namespaces, hkind, htype, hcurrent, ← nestedNamespace_append]
  case h_2 hkind =>
    have htype := isTypeNode_of_kind hkind rfl
    obtain rfl := Option.some.inj henter
    exact ⟨trivial, by simp [carry, Slot.namespaces, hkind, htype, ← nestedNamespace_append]⟩
  case h_3 hkind =>
    have htype := isTypeNode_of_kind hkind rfl
    obtain rfl := Option.some.inj henter
    exact ⟨trivial, by simp [carry, Slot.namespaces, hkind, htype, hcurrent]⟩
  case h_4 hkind =>
    have htype := isTypeNode_of_kind hkind rfl
    obtain rfl := Option.some.inj henter
    exact ⟨trivial, by simp [carry, Slot.namespaces, hkind, htype, hcurrent]⟩
  case h_5 hns hfile hlist herror =>
    split_ifs at henter with htype
    obtain rfl := Option.some.inj henter
    exact ⟨.inl ⟨htype, rfl, rfl⟩, by simp [carry, Slot.namespaces, htype, hcurrent]⟩

/-- What a step down takes along is what encloses the nodes below. -/
theorem carry_eq (src : SourceText) (names : List String) (owner : Option String)
    {stage below : Stage} (hat : stage.At n) (hin : s.In n) (hfit : n.DeclarationsFit)
    (henter : stage.enter s = some below) :
    below.At s.node ∧ stage.carry src ⟨nestedNamespace names, owner⟩ s =
      ⟨nestedNamespace (names ++ s.namespaces src),
        if isTypeNode s.node then some (src.fieldText s.node .name) else owner⟩ := by
  cases stage with
  | row => exact carry_row src names owner henter
  | typeRow =>
    simp only [enter] at henter
    split_ifs at henter with htype
    obtain rfl := Option.some.inj henter
    have htype := (Bool.and_eq_true_iff.mp htype).2
    have hfile := fileNamespaces_eq_nil src hin (hfit.2 (.inr (.inr hat)))
    have hnames : s.namespaces src = [] := by
      unfold Slot.namespaces
      split
      case h_1 hkind => rw [isTypeNode_of_kind hkind rfl] at htype; cases htype
      case h_2 hkind => rw [isTypeNode_of_kind hkind rfl] at htype; cases htype
      case h_3 => exact hfile
    exact ⟨.inl ⟨htype, rfl, rfl⟩, by simp [carry, hnames, htype]⟩
  | parts isBody within =>
    simp only [enter] at henter
    split_ifs at henter with hfirst
    obtain rfl := Option.some.inj henter
    have hbody := find?_of_in hin hfirst
    have hparts : within.At s.node ∧ s.node.kind = "declaration_list" ∧
        ∀ c ∈ n.children, isFileNamespace c = false := by
      rcases hat with ⟨htype, rfl, rfl⟩ | ⟨hkind, rfl, rfl⟩
      · have hkind := kind_of_isTypeBody hfit htype hbody
        exact ⟨hkind, hkind, hfit.2 (.inl htype)⟩
      · exact ⟨trivial, hfit.1 (.inr hkind) _ hbody, hfit.2 (.inr (.inl hkind))⟩
    obtain ⟨hwithin, hkind, hfile⟩ := hparts
    have hfile := fileNamespaces_eq_nil src hin hfile
    refine ⟨hwithin, ?_⟩
    simp [carry, Slot.namespaces, hkind, hfile, isTypeNode_of_kind hkind rfl]

private theorem surroundings_eq (src : SourceText) (names : List String) (owner : Option String)
    {stage : Stage} {way : List Slot} (hat : stage.At n) (hway : IsWay n way s)
    (hfit : ∀ m ∈ n.family, m.DeclarationsFit) (hcomes : stage.comesTo way s = true) :
    stage.surroundings src ⟨nestedNamespace names, owner⟩ way s =
      ⟨nestedNamespace (names ++ way.flatMap (·.namespaces src) ++ s.fileNamespaces src),
        ((way.filter (isTypeNode ·.node)).getLast?.map (src.fieldText ·.node .name)).or owner⟩ := by
  induction way generalizing stage n names owner with
  | nil =>
    cases stage with
    | row => simp [surroundings, namespaceAfter_nestedNamespace]
    | typeRow =>
      have hfile := fileNamespaces_eq_nil src hway
        ((hfit n List.mem_cons_self).2 (.inr (.inr hat)))
      simp [surroundings, hfile]
    | parts => cases hcomes
  | cons c way ih =>
    obtain ⟨hin, hway⟩ := hway
    obtain ⟨below, henter, hcomes⟩ := (Option.any_eq_true _ _).mp hcomes
    obtain ⟨hbelow, hcarry⟩ := carry_eq src names owner hat hin
      (hfit n List.mem_cons_self) henter
    have hfit : ∀ m ∈ c.node.family, m.DeclarationsFit := by
      intro m hm
      obtain ⟨rest, hchildren⟩ := hin
      have hc : c.node ∈ n.children := by simp [hchildren]
      exact hfit m (List.mem_cons_of_mem _ ((Node.family_sublist_of_mem hc).subset hm))
    rw [surroundings, henter]
    dsimp only
    rw [hcarry, ih _ _ hbelow hway hfit hcomes]
    cases htype : isTypeNode c.node <;>
      cases hlast : (way.filter (isTypeNode ·.node)).getLast? <;>
        simp [htype, hlast, List.getLast?_cons]

end Stage

/-- Reading has around a type what encloses its place. -/
theorem surroundings_isRead (src : SourceText) {root : Node}
    (hfit : ∀ m ∈ root.family, m.DeclarationsFit) {p : Place} (hp : p ∈ root.places)
    (hread : p.isRead = true) :
    Stage.row.surroundings src ⟨none, none⟩ p.above p.slot =
      ⟨nestedNamespace (p.namespaces src), p.nearestType src⟩ := by
  have hat : Stage.row.At root := trivial
  have := Stage.surroundings_eq src [] none hat (isWay_of_mem_places hp) hfit hread
  simpa [nestedNamespace, Place.namespaces, Place.nearestType] using this

end Surroundings

/-- The four kinds of nodes that declare a member. -/
def isMemberNode (n : Node) : Bool :=
  ["field_declaration", "constructor_declaration", "method_declaration",
    "property_declaration"].contains n.kind

theorem isSome_member? (src : SourceText) (r : Reader) (n : Node) :
    (member? src r n).isSome = isMemberNode n := by
  unfold member?
  split
  case h_5 hfield hconstructor hmethod hproperty =>
    symm
    simpa [isMemberNode] using ⟨hfield, hconstructor, hmethod, hproperty⟩
  all_goals simp [isMemberNode, *]

end Lowering

namespace Node

def slotsInRow (before : List Node) : List Node → List Slot
  | [] => []
  | c :: rest => ⟨before, c⟩ :: slotsInRow (before ++ [c]) rest

/-- The slots directly below a node. -/
def slots (n : Node) : List Slot := slotsInRow [] n.children

theorem map_node_slots (n : Node) : n.slots.map Slot.node = n.children := by
  have hrow : ∀ before row, (slotsInRow before row).map Slot.node = row := by
    intro before row
    induction row generalizing before with
    | nil => rfl
    | cons c rest ih => rw [slotsInRow, List.map_cons, ih]
  exact hrow [] n.children

end Node

namespace Place

/-- The places of the nodes of members that are directly in the body of the type at a place. -/
def memberPlaces (p : Place) : List Place :=
  (p.node.slots.find? (isTypeBody p.node ·.node)).toList.flatMap fun body =>
    (body.node.slots.filter fun s => s.node.named && isMemberNode s.node).map fun s =>
      ⟨p.above ++ [p.slot, body], s⟩

theorem disjoint_memberPlaces {p q : Place} (h : p ≠ q) :
    p.memberPlaces.Disjoint q.memberPlaces := by
  intro x hp hq
  simp only [memberPlaces, List.mem_flatMap, List.mem_map] at hp hq
  obtain ⟨b, -, s, -, rfl⟩ := hp
  obtain ⟨b', -, s', -, hx⟩ := hq
  have habove : q.above ++ [q.slot, b'] = p.above ++ [p.slot, b] := congrArg Place.above hx
  obtain ⟨hway, hlast⟩ := List.append_inj' habove rfl
  refine h ?_
  cases p
  cases q
  simp_all

theorem map_node_memberPlaces (p : Place) :
    p.memberPlaces.map Place.node = (typeContents p.node).filter isMemberNode := by
  have hbody : typeBody? p.node =
      (p.node.slots.find? (isTypeBody p.node ·.node)).map Slot.node := by
    rw [typeBody?_eq_find?, ← Node.map_node_slots, List.find?_map]
    rfl
  unfold memberPlaces typeContents
  rw [hbody]
  cases p.node.slots.find? (isTypeBody p.node ·.node) with
  | none => rfl
  | some body =>
    dsimp only [Option.map_some, Option.toList_some]
    rw [List.flatMap_singleton, List.map_map, Node.namedChildren, ← Node.map_node_slots body.node,
      List.filter_filter, List.filter_map]
    simp only [Function.comp_def, Place.node, Bool.and_comm]

/-- The slot with which a place begins. -/
def top (p : Place) : Slot := p.above.head?.getD p.slot

end Place

namespace Node

private theorem length_before_top {before row : List Node} {p : Place}
    (h : p ∈ placesInRow before row) : before.length ≤ p.top.before.length := by
  induction row generalizing before with
  | nil => simp [placesInRow] at h
  | cons c rest ih =>
    rw [placesInRow, List.mem_cons, List.mem_append, List.mem_map] at h
    obtain rfl | ⟨q, -, rfl⟩ | h := h
    · exact Nat.le_refl _
    · exact Nat.le_refl _
    · have := ih h
      rw [List.length_append] at this
      omega

private theorem nodup_placesInRow {before row : List Node} (h : ∀ c ∈ row, c.places.Nodup) :
    (placesInRow before row).Nodup := by
  induction row generalizing before with
  | nil => simp [placesInRow]
  | cons c rest ih =>
    have hrest : (placesInRow (before ++ [c]) rest).Nodup :=
      ih fun d hd => h d (List.mem_cons_of_mem c hd)
    have hunder : Function.Injective (Place.under ⟨before, c⟩) := by
      rintro ⟨_, _⟩ ⟨_, _⟩ heq
      simpa [Place.under] using heq
    -- a place in the rest of the row begins further to the right
    have hlater : ∀ p ∈ placesInRow (before ++ [c]) rest, p.top.before ≠ before := by
      intro p hp heq
      have := length_before_top hp
      rw [heq, List.length_append, List.length_singleton] at this
      omega
    rw [placesInRow, List.nodup_cons, List.nodup_append]
    refine ⟨?_, (h c List.mem_cons_self).map hunder, hrest, ?_⟩
    · intro hmem
      rcases List.mem_append.mp hmem with hmem | hmem
      · obtain ⟨q, -, hq⟩ := List.mem_map.mp hmem
        simp [Place.under] at hq
      · exact hlater _ hmem rfl
    · rintro _ hp q hq rfl
      obtain ⟨p, -, rfl⟩ := List.mem_map.mp hp
      exact hlater _ hq rfl

theorem nodup_places (n : Node) : n.places.Nodup := by
  induction n using below_induction with
  | step n ih =>
    rw [places_eq]
    exact nodup_placesInRow fun c hc => ih c (.child hc)

end Node

namespace Lowering

private theorem members_typeDeclaration (src : SourceText) (r : Reader) (ns owner : Option String)
    (p : Place) : (typeDeclaration src r ns owner p.node).members.map some =
      p.memberPlaces.map (member? src r ·.node) := by
  have hkinds : (typeContents p.node).filter isMemberNode =
      (typeContents p.node).filter fun c => (member? src r c).isSome := by
    simp only [isSome_member?]
  have hmap : p.memberPlaces.map (member? src r ·.node) =
      (p.memberPlaces.map Place.node).map (member? src r) := by
    rw [List.map_map]
    rfl
  rw [hmap, Place.map_node_memberPlaces, hkinds]
  simp only [typeDeclaration]
  rw [List.map_filterMap_some_eq_filter_map_isSome, List.filter_map]
  rfl

/-- The types of a file are read off its types in preorder, each at most once. Each belongs to the
nearest type and to the namespaces that enclose it, and has as members exactly what is read off the
nodes of members directly in its own body, in order; so no two types share a member. -/
theorem types_placed (src : SourceText) (root : Node)
    (hfit : ∀ n ∈ root.family, n.DeclarationsFit) :
    ∃ places, places <+ root.typePlaces ∧ places.Nodup ∧
      List.Forall₂ (fun t p => t.location = src.location p.node ∧
          t.containingType = p.nearestType src ∧
          t.namespaceName = nestedNamespace (p.namespaces src) ∧
          t.members.map some = p.memberPlaces.map (member? src (bodyReader src) ·.node))
        (types src (bodyReader src) root) places ∧
      places.Pairwise fun p q => p.memberPlaces.Disjoint q.memberPlaces := by
  have hsub : root.places.filter Place.isRead <+ root.typePlaces := by
    rw [filter_isRead_places]
    exact List.filter_sublist
  have hnodup : (root.places.filter Place.isRead).Nodup := root.nodup_places.filter _
  refine ⟨root.places.filter Place.isRead, hsub, hnodup, ?_, hnodup.imp ?_⟩
  · rw [types_eq_map_places, List.forall₂_map_left_iff, List.forall₂_same]
    intro p hp
    obtain ⟨hp, hread⟩ := List.mem_filter.mp hp
    have haround := surroundings_isRead src hfit hp hread
    unfold declarationAt
    rw [haround]
    exact ⟨rfl, rfl, rfl, members_typeDeclaration src _ _ _ p⟩
  · exact Place.disjoint_memberPlaces

/-- A type nested in another, in two namespaces. -/
def enclosedSource : SourceText :=
  .ofBytes "e.cs" ("namespace N;\nnamespace M \x7b class A \x7b int x; " ++
    "class B \x7b int y; \x7d \x7d \x7d").toUTF8

def enclosedField (start : Nat) : Node :=
  plain "field_declaration" start (start + 6) none
    [plain "variable_declaration" start (start + 5) none
      [plain "predefined_type" start (start + 3) (some .type) [],
        plain "variable_declarator" (start + 4) (start + 5) none
          [plain "identifier" (start + 4) (start + 5) (some .name) []]]]

def enclosedRoot : Node :=
  plain "compilation_unit" 0 66 none
    [plain "file_scoped_namespace_declaration" 0 12 none
      [plain "identifier" 10 11 (some .name) []],
      plain "namespace_declaration" 13 66 none
        [plain "identifier" 23 24 (some .name) [],
          plain "declaration_list" 25 66 (some .body)
            [plain "class_declaration" 27 64 none
              [plain "identifier" 33 34 (some .name) [],
                plain "declaration_list" 35 64 (some .body)
                  [enclosedField 37,
                    plain "class_declaration" 44 62 none
                      [plain "identifier" 50 51 (some .name) [],
                        plain "declaration_list" 52 62 (some .body) [enclosedField 54]]]]]]]

/-- Each of the two types has one of the two fields. -/
theorem types_placed_nested :
    (types enclosedSource (bodyReader enclosedSource) enclosedRoot).map
        (fun t => (t.containingType, t.namespaceName, t.members.length)) =
      [(none, some "N.M", 1), (some "A", some "N.M", 1)] := by
  obtain ⟨places, hsub, -, htypes, -⟩ := types_placed enclosedSource enclosedRoot (by decide)
  have hlength : (types enclosedSource (bodyReader enclosedSource) enclosedRoot).length =
      enclosedRoot.typePlaces.length := by
    rw [types_eq_map_places]
    decide +kernel
  have hplaces : places = enclosedRoot.typePlaces :=
    hsub.eq_of_length (htypes.length_eq.symm.trans hlength)
  have hmap : (types enclosedSource (bodyReader enclosedSource) enclosedRoot).map
        (fun t => (t.containingType, t.namespaceName, t.members.length)) =
      places.map fun p => (p.nearestType enclosedSource,
        nestedNamespace (p.namespaces enclosedSource), p.memberPlaces.length) := by
    rw [← List.forall₂_eq_eq_eq, List.forall₂_map_left_iff, List.forall₂_map_right_iff]
    refine htypes.imp ?_
    rintro t p ⟨-, howner, hnamespace, hmembers⟩
    have hmembers := congrArg List.length hmembers
    simp only [List.length_map] at hmembers
    rw [howner, hnamespace, hmembers]
  rw [hmap, hplaces]
  decide +kernel

end Lowering

end PatternFinder
