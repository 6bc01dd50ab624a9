import Mathlib.Logic.Function.Iterate
import PatternFinder.Lowering.Tree
import PatternFinder.Proofs.Occurrence

/-! The pruned search for syntax errors finds what a scan of the whole tree finds. -/
namespace PatternFinder

namespace Node

theorem hasFault_eq (n : Node) : n.hasFault = (n.isFault || n.children.any hasFault) := by
  have hlist : ∀ ns, anyFault ns = ns.any hasFault := by
    intro ns
    induction ns with
    | nil => rfl
    | cons n ns ih => simp [anyFault, ih]
  cases n with
  | mk _ _ _ _ _ _ _ children => rw [hasFault, hlist, isFault]

/-- A node is gone into exactly when it or a node below it is a fault. -/
theorem hasFault_iff {n : Node} : n.hasFault = true ↔ ∃ d ∈ n.family, d.isFault = true := by
  induction n using below_induction with
  | step n ih =>
    rw [hasFault_eq, Bool.or_eq_true, List.any_eq_true, family, descendants_eq_flatMap]
    simp only [List.mem_cons, exists_eq_or_imp, List.mem_flatMap]
    refine or_congr_right ⟨?_, ?_⟩
    · rintro ⟨c, hc, hfault⟩
      obtain ⟨d, hd, hdfault⟩ := (ih c (.child hc)).mp hfault
      exact ⟨d, ⟨c, hc, hd⟩, hdfault⟩
    · rintro ⟨d, ⟨c, hc, hd⟩, hdfault⟩
      exact ⟨c, hc, (ih c (.child hc)).mpr ⟨d, hd, hdfault⟩⟩

theorem filter_family (n : Node) : n.family.filter isFault =
    (if n.isFault then [n] else []) ++
      n.children.flatMap fun c => c.family.filter isFault := by
  rw [family, descendants_eq_flatMap, List.filter_cons, List.filter_flatMap]
  split_ifs <;> rfl

/-- Nothing is lost where the search does not go in. -/
theorem filter_family_of_not_hasFault {n : Node} (h : ¬ n.hasFault = true) :
    n.family.filter isFault = [] := by
  rw [List.filter_eq_nil_iff]
  intro d hd hfault
  exact h (hasFault_iff.mpr ⟨d, hd, hfault⟩)

/-- What is pending after a look at `n`. -/
def goOn (n : Node) (pending : List Node) : List Node :=
  if n.hasFault then n.children ++ pending else pending

theorem faultsFrom_cons (n : Node) (pending : List Node) :
    faultsFrom (n :: pending) = (if n.isFault then [n] else []) ++ faultsFrom (goOn n pending) := by
  rw [faultsFrom, goOn]
  split_ifs <;> rfl

/-- The faults at and below the pending nodes, each node scanned in full. -/
def scan (pending : List Node) : List Node := pending.flatMap fun n => n.family.filter isFault

theorem scan_cons (n : Node) (pending : List Node) :
    scan (n :: pending) = (if n.isFault then [n] else []) ++ scan (goOn n pending) := by
  rw [scan, List.flatMap_cons, goOn]
  by_cases h : n.hasFault = true
  · rw [if_pos h, scan, List.flatMap_append, filter_family, List.append_assoc]
  · have hself : ¬ n.isFault = true := by
      rw [hasFault_eq, Bool.or_eq_true, not_or] at h
      exact h.1
    rw [if_neg h, if_neg hself, filter_family_of_not_hasFault h]
    rfl

/-- The nodes at and below the pending nodes, which go down in number with every look. -/
def nodesLeft (pending : List Node) : Nat := (pending.flatMap family).length

theorem nodesLeft_goOn_lt (n : Node) (pending : List Node) :
    nodesLeft (goOn n pending) < nodesLeft (n :: pending) := by
  have hchildren : nodesLeft (n :: pending) = 1 + nodesLeft (n.children ++ pending) := by
    simp only [nodesLeft, List.flatMap_cons, List.flatMap_append, List.length_append, family,
      List.length_cons, descendants_eq_flatMap]
    omega
  have hpending : nodesLeft pending ≤ nodesLeft (n.children ++ pending) := by
    simp only [nodesLeft, List.flatMap_append, List.length_append]
    omega
  unfold goOn
  split_ifs <;> omega

/-- The search finds the faults of a full scan, in the same order. -/
theorem faultsFrom_eq_scan (pending : List Node) : faultsFrom pending = scan pending := by
  -- a look may add nodes to the pending ones, but never to those at or below them
  induction hleft : nodesLeft pending using Nat.strongRecOn generalizing pending with
  | ind nodes ih =>
    cases pending with
    | nil => rw [faultsFrom]; rfl
    | cons n pending =>
      have hlt := nodesLeft_goOn_lt n pending
      rw [faultsFrom_cons, scan_cons, ih _ (hleft ▸ hlt) _ rfl]

/-- A search under way: the nodes that are still to be looked at, next first, and the number and
ranges of the faults so far. -/
structure FaultSearch where
  pending : List Node
  count : UInt32
  ranges : List Range

namespace FaultSearch

def start (root : Node) : FaultSearch := ⟨[root], 0, []⟩

/-- A look at the next node. The search stands still when there is none. -/
def turn (src : SourceText) : FaultSearch → FaultSearch
  | ⟨[], count, ranges⟩ => ⟨[], count, ranges⟩
  | ⟨n :: pending, count, ranges⟩ =>
    if n.isFault then ⟨goOn n pending, count + 1, ranges ++ [src.range n]⟩
    else ⟨goOn n pending, count, ranges⟩

/-- What has been found together with what is still to be found. -/
def total (src : SourceText) (s : FaultSearch) : FaultSearch :=
  ⟨[], s.count + .ofNat (faultsFrom s.pending).length,
    s.ranges ++ (faultsFrom s.pending).map src.range⟩

/-- No turn changes what is found in the end. -/
theorem total_turn (src : SourceText) (s : FaultSearch) : (s.turn src).total src = s.total src := by
  obtain ⟨_ | ⟨n, pending⟩, count, ranges⟩ := s
  · rfl
  · rw [total, total, faultsFrom_cons]
    by_cases h : n.isFault = true
    · simp [turn, h, UInt32.ofNat_add, UInt32.add_assoc, UInt32.add_comm]
    · simp [turn, h]

/-- A search that has as many turns as there are nodes left comes to its end. -/
theorem iterate_turn (src : SourceText) {turns : Nat} {s : FaultSearch}
    (h : nodesLeft s.pending ≤ turns) : (turn src)^[turns] s = s.total src := by
  induction turns generalizing s with
  | zero =>
    obtain ⟨_ | ⟨n, pending⟩, count, ranges⟩ := s
    · simp [total, faultsFrom]
    · have := nodesLeft_goOn_lt n pending
      dsimp only at h
      omega
  | succ turns ih =>
    rw [Function.iterate_succ_apply, ih, total_turn]
    obtain ⟨_ | ⟨n, pending⟩, count, ranges⟩ := s
    · -- the search is over, and the turns that are left change nothing
      exact Nat.zero_le turns
    · have hlt := nodesLeft_goOn_lt n pending
      have hpending : (turn src ⟨n :: pending, count, ranges⟩).pending = goOn n pending := by
        rw [turn]
        split_ifs <;> rfl
      rw [hpending]
      dsimp only at h
      omega

end FaultSearch

end Node

namespace Lowering
open Node

/-- The search for syntax errors is over after at most as many turns as the tree has nodes. Although
it goes only into nodes with a fault at or below them, it counts the faults of the whole tree and
lists their ranges in preorder. So a file has errors exactly when a node of its tree is a fault. -/
theorem faults_counted_in_preorder (src : SourceText) (root : Node)
    (hfew : root.family.countP isFault < UInt32.size) :
    (∀ n : Node, n.hasFault = true ↔ ∃ d ∈ n.family, d.error = true ∨ d.missing = true) ∧
      (∃ count : UInt32, (FaultSearch.turn src)^[root.family.length] (.start root) =
          ⟨[], count, (root.family.filter isFault).map src.range⟩ ∧
        count.toNat = root.family.countP isFault) ∧
      (sourceTree src root).errorCount = root.family.countP isFault ∧
      (sourceTree src root).errorRanges = (root.family.filter isFault).map src.range ∧
      ((sourceTree src root).hasErrors = true ↔
        ∃ n ∈ root.family, n.error = true ∨ n.missing = true) := by
  have hfaults : root.faults = root.family.filter isFault := by
    rw [faults, faultsFrom_eq_scan, scan, List.flatMap_singleton]
  have hcount : (sourceTree src root).errorCount = root.family.countP isFault := by
    rw [List.countP_eq_length_filter, ← hfaults]
    rfl
  have hfault : ∀ n : Node, n.isFault = true ↔ n.error = true ∨ n.missing = true :=
    fun n => by rw [isFault, Bool.or_eq_true]
  refine ⟨fun n => ?_, ⟨.ofNat (root.family.countP isFault), ?_, ?_⟩, hcount, ?_, ?_⟩
  · simp only [hasFault_iff, hfault]
  · have hleft : nodesLeft (FaultSearch.start root).pending ≤ root.family.length := by
      simp [nodesLeft, FaultSearch.start]
    have htotal := FaultSearch.iterate_turn src hleft
    rw [htotal, FaultSearch.total, List.countP_eq_length_filter, ← hfaults]
    simp [FaultSearch.start, faults]
  · exact UInt32.toNat_ofNat_of_lt' hfew
  · rw [← hfaults]
    rfl
  · simp only [SourceTree.hasErrors, hcount, decide_eq_true_eq, List.countP_pos_iff, hfault]

/-- A file with a value that is not there and two brackets too many. -/
def brokenSource : SourceText :=
  .ofBytes "broken.cs"
    "class A \x7b\n  int x = ;\n\x7d\nclass B \x7b \x7d\n] ]\n".toUTF8

/-- The value is a leaf that is missing, and one of the two errors stands in the other. -/
def brokenRoot : Node :=
  plain "compilation_unit" 0 40 none
    [plain "class_declaration" 0 23 none
      [plain "identifier" 6 7 (some .name) [],
        plain "declaration_list" 8 23 (some .body)
          [plain "field_declaration" 12 21 none
            [plain "variable_declaration" 12 20 none
              [plain "predefined_type" 12 15 (some .type) [],
                plain "variable_declarator" 16 20 none
                  [plain "identifier" 16 17 (some .name) [],
                    ⟨"identifier", 20, 20, none, true, false, true, []⟩]]]]],
      plain "class_declaration" 24 35 none
        [plain "identifier" 30 31 (some .name) [],
          plain "declaration_list" 32 35 (some .body) []],
      ⟨"ERROR", 36, 39, none, true, true, false,
        [⟨"ERROR", 38, 39, none, true, true, false, []⟩]⟩]

/-- The missing value and both brackets are counted, and nothing in the class between them. -/
theorem faults_counted_in_preorder_broken :
    brokenRoot.family.countP isFault < UInt32.size ∧
      (sourceTree brokenSource brokenRoot).errorCount = 3 ∧
      (sourceTree brokenSource brokenRoot).errorRanges =
        [⟨⟨1, 10⟩, ⟨1, 10⟩⟩, ⟨⟨4, 0⟩, ⟨4, 3⟩⟩, ⟨⟨4, 2⟩, ⟨4, 3⟩⟩] ∧
      (sourceTree brokenSource brokenRoot).hasErrors = true := by
  have hfew : brokenRoot.family.countP isFault < UInt32.size := by decide
  obtain ⟨-, -, hcount, hranges, herrors⟩ :=
    faults_counted_in_preorder brokenSource brokenRoot hfew
  refine ⟨hfew, hcount.trans (by decide), hranges.trans (by decide +kernel), herrors.mpr ?_⟩
  decide

end Lowering

end PatternFinder
