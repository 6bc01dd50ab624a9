import PatternFinder.Proofs.TypePlaces

/-! Which of the types that a tree declares are found. -/
namespace PatternFinder.Lowering
open Node

theorem map_node_typePlaces (root : Node) :
    root.typePlaces.map Place.node = root.descendants.filter isTypeNode := by
  rw [typePlaces, ← map_node_places, List.filter_map]
  rfl

theorem map_location_types (src : SourceText) (root : Node) :
    (types src (bodyReader src) root).map (·.location) =
      (root.typePlaces.filter Place.isRead).map (src.location ·.node) := by
  rw [types_eq_map_places, filter_isRead_places, List.map_map]
  rfl

/-- A type is found once for each place of a type that reading comes to, in preorder and with the
range of the node. So each type that the tree declares is found once exactly when reading comes to
all of them: when on the way down to each there are at first only namespaces, lists of declarations
and errors, then only types, and each of the types and namespaces is gone through by its body. -/
theorem type_found_iff_read (src : SourceText) (root : Node) :
    (types src (bodyReader src) root).map (·.location) =
        (root.typePlaces.filter Place.isRead).map (src.location ·.node) ∧
      ((types src (bodyReader src) root).map (·.location) =
          (root.descendants.filter isTypeNode).map src.location ↔
        ∀ p ∈ root.typePlaces, p.isRead = true) := by
  have hfound := map_location_types src root
  refine ⟨hfound, ?_⟩
  rw [hfound, ← map_node_typePlaces, List.map_map, ← List.filter_eq_self]
  constructor
  · intro h
    have hlength := congrArg List.length h
    rw [List.length_map, List.length_map] at hlength
    exact List.filter_sublist.eq_of_length hlength
  · intro h
    rw [h]
    rfl

/-- A file with types under a condition. -/
def conditionalSource : SourceText :=
  .ofBytes "u1.cs" ("#if DEBUG\nclass A \x7b \x7d\n#else\nclass B \x7b \x7d\n#endif\n" ++
    "class C \x7b \x7d").toUTF8

def emptyClass (start : Nat) : Node :=
  plain "class_declaration" start (start + 11) none
    [plain "identifier" (start + 6) (start + 7) (some .name) [],
      plain "declaration_list" (start + 8) (start + 11) (some .body) []]

def conditionalRoot : Node :=
  plain "compilation_unit" 0 58 none
    [plain "preproc_if" 0 46 none
      [plain "identifier" 4 9 (some .condition) [], emptyClass 10,
        plain "preproc_else" 22 39 (some .alternative) [emptyClass 28]],
      emptyClass 47]

/-- Of the types in both branches of a condition and behind it only the last is found. -/
theorem conditional_types_lost :
    (conditionalRoot.descendants.filter isTypeNode).map
        (conditionalSource.fieldText · .name) = ["A", "B", "C"] ∧
      (types conditionalSource (bodyReader conditionalSource) conditionalRoot).map
        (·.identifier) = ["C"] ∧
      (types conditionalSource (bodyReader conditionalSource) conditionalRoot).map (·.location) ≠
        (conditionalRoot.descendants.filter isTypeNode).map conditionalSource.location := by
  refine ⟨by decide +kernel, ?_, ?_⟩
  · rw [types_eq_map_places]
    decide +kernel
  · rw [map_location_types]
    decide +kernel

end PatternFinder.Lowering
