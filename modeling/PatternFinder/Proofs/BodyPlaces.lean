import PatternFinder.Proofs.SourceLocations

/-! The places of the statements and expressions in a body. The walk over the body comes to each of
them once, and to all that is inside an `if` statement without a break. -/
namespace PatternFinder

namespace BodyNode

/-- What is at a place in a node: the node itself, or what is at the rest of the place in the child
with the first number. -/
def at? (n : BodyNode) : List Nat → Option BodyNode
  | [] => some n
  | i :: place => n.children[i]?.bind fun c => c.at? place

/-- What is at a place in a row of nodes that are numbered from `first` on. -/
def inRow? (first : Nat) (row : List BodyNode) : List Nat → Option BodyNode
  | [] => none
  | i :: place => if first ≤ i then row[i - first]?.bind fun c => c.at? place else none

section Rows

variable {first i : Nat} {c : BodyNode} {row : List BodyNode} {place : List Nat}

theorem inRow?_cons_first : inRow? first (c :: row) (first :: place) = c.at? place := by
  simp [inRow?]

theorem inRow?_cons_of_lt (h : first < i) :
    inRow? first (c :: row) (i :: place) = inRow? (first + 1) row (i :: place) := by
  obtain ⟨k, rfl⟩ := Nat.exists_eq_add_of_lt h
  have hindex : first + k + 1 - first = k + 1 := by omega
  have hindex' : first + k + 1 - (first + 1) = k := by omega
  rw [inRow?, inRow?, if_pos (by omega), if_pos (by omega), hindex, hindex',
    List.getElem?_cons_succ]

theorem exists_number_of_inRow? (h : (inRow? first row place).isSome = true) :
    ∃ i below, place = i :: below ∧ first ≤ i := by
  cases place with
  | nil => cases h
  | cons i below =>
    refine ⟨i, below, rfl, ?_⟩
    by_contra hlt
    rw [inRow?, if_neg hlt] at h
    cases h

end Rows

private theorem length_walk_lt {c n : BodyNode} (h : c ∈ n.children) :
    c.walk.length < n.walk.length := by
  have hsublist : c.walk.Sublist (n.children.flatMap walk) := by
    simpa using (List.singleton_sublist.mpr h).flatMap walk
  have hlength := hsublist.length_le
  rw [n.walk_eq, List.length_cons]
  omega

/-- What holds of a node when it holds of its children holds everywhere. -/
@[elab_as_elim]
theorem children_induction {motive : BodyNode → Prop}
    (step : ∀ n, (∀ c ∈ n.children, motive c) → motive n) (n : BodyNode) : motive n := by
  induction hlength : n.walk.length using Nat.strongRecOn generalizing n with
  | ind length ih =>
    refine step n fun c hc => ih c.walk.length ?_ c rfl
    exact hlength ▸ length_walk_lt hc

/-- Where a walk comes to a node, it goes on with the walk over the node. -/
def GoesThrough (walk : List BodyNode) : Prop :=
  ∀ i n, walk[i]? = some n → n.walk <+: walk.drop i

theorem goesThrough_flatMap {row : List BodyNode} (h : ∀ c ∈ row, GoesThrough c.walk) :
    GoesThrough (row.flatMap walk) := by
  intro i n hn
  induction row generalizing i with
  | nil => cases hn
  | cons c row ih =>
    obtain ⟨hc, hrow⟩ := List.forall_mem_cons.mp h
    rw [List.flatMap_cons] at hn ⊢
    -- the node is met in the walk over the first of the row or behind it
    by_cases hi : i < c.walk.length
    · rw [List.getElem?_append_left hi] at hn
      rw [List.drop_append_of_le_length (Nat.le_of_lt hi)]
      exact (hc i n hn).trans (List.prefix_append _ _)
    · rw [List.getElem?_append_right (Nat.le_of_not_lt hi)] at hn
      rw [List.drop_append, List.drop_eq_nil_of_le (Nat.le_of_not_lt hi), List.nil_append]
      exact ih hrow (i - c.walk.length) hn

theorem goesThrough_walk (n : BodyNode) : GoesThrough n.walk := by
  induction n using children_induction with
  | step n ih =>
    have hchildren := goesThrough_flatMap ih
    intro i m hm
    rw [n.walk_eq] at hm ⊢
    cases i with
    | zero =>
      obtain rfl := Option.some.inj hm
      exact ⟨[], by rw [List.append_nil, List.drop_zero, n.walk_eq]⟩
    | succ i => exact hchildren i m hm

end BodyNode

/-- A walk comes to every place where there is something, to each once, and in preorder: `<` reads
places as words, so a place is in front of those inside it and behind those of earlier siblings. -/
structure VisitsInPreorder (find : List Nat → Option BodyNode) (walk : List BodyNode)
    (places : List (List Nat)) : Prop where
  increasing : places.Pairwise (· < ·)
  complete : ∀ place, place ∈ places ↔ (find place).isSome = true
  visits : walk.map some = places.map find

namespace VisitsInPreorder
open BodyNode

theorem nil (first : Nat) : VisitsInPreorder (inRow? first []) [] [] := by
  refine ⟨.nil, fun place => ?_, rfl⟩
  cases place <;> simp [inRow?]

theorem cons {first : Nat} {c : BodyNode} {row walk : List BodyNode}
    {places rest : List (List Nat)} (hc : VisitsInPreorder c.at? c.walk places)
    (hrow : VisitsInPreorder (inRow? (first + 1) row) walk rest) :
    VisitsInPreorder (inRow? first (c :: row)) (c.walk ++ walk)
      (places.map (first :: ·) ++ rest) := by
  have hrest : ∀ place ∈ rest, ∃ i below, place = i :: below ∧ first < i :=
    fun place hplace => exists_number_of_inRow? ((hrow.complete place).mp hplace)
  refine ⟨List.pairwise_append.mpr ⟨?_, hrow.increasing, ?_⟩, fun place => ⟨?_, ?_⟩, ?_⟩
  · refine List.pairwise_map.mpr (hc.increasing.imp fun hlt => ?_)
    exact List.cons_lt_cons_iff.mpr (.inr ⟨rfl, hlt⟩)
  · intro place hplace other hother
    obtain ⟨below, -, rfl⟩ := List.mem_map.mp hplace
    obtain ⟨i, below', rfl, hi⟩ := hrest other hother
    exact List.cons_lt_cons_iff.mpr (.inl hi)
  · intro hplace
    rcases List.mem_append.mp hplace with hplace | hplace
    · obtain ⟨below, hbelow, rfl⟩ := List.mem_map.mp hplace
      rw [inRow?_cons_first]
      exact (hc.complete below).mp hbelow
    · obtain ⟨i, below, rfl, hi⟩ := hrest place hplace
      rw [inRow?_cons_of_lt hi]
      exact (hrow.complete _).mp hplace
  · intro hsome
    obtain ⟨i, below, rfl, hi⟩ := exists_number_of_inRow? hsome
    rcases Nat.eq_or_lt_of_le hi with rfl | hi
    · rw [inRow?_cons_first] at hsome
      exact List.mem_append_left _ (List.mem_map_of_mem ((hc.complete below).mpr hsome))
    · rw [inRow?_cons_of_lt hi] at hsome
      exact List.mem_append_right _ ((hrow.complete _).mpr hsome)
  · have hhere : (places.map (first :: ·)).map (inRow? first (c :: row)) = places.map c.at? := by
      rw [List.map_map]
      exact List.map_congr_left fun place _ => inRow?_cons_first
    have hbehind : rest.map (inRow? first (c :: row)) = rest.map (inRow? (first + 1) row) := by
      refine List.map_congr_left fun place hplace => ?_
      obtain ⟨i, below, rfl, hi⟩ := hrest place hplace
      exact inRow?_cons_of_lt hi
    rw [List.map_append, List.map_append, hhere, hbehind, hc.visits, hrow.visits]

theorem exists_of_row {row : List BodyNode}
    (h : ∀ c ∈ row, ∃ places, VisitsInPreorder c.at? c.walk places) (first : Nat) :
    ∃ places, VisitsInPreorder (inRow? first row) (row.flatMap BodyNode.walk) places := by
  induction row generalizing first with
  | nil => exact ⟨[], nil first⟩
  | cons c row ih =>
    obtain ⟨hc, hrow⟩ := List.forall_mem_cons.mp h
    obtain ⟨places, hplaces⟩ := hc
    obtain ⟨rest, hrest⟩ := ih hrow (first + 1)
    exact ⟨_, hplaces.cons hrest⟩

theorem exists_of_node (n : BodyNode) : ∃ places, VisitsInPreorder n.at? n.walk places := by
  induction n using children_induction with
  | step n ih =>
    obtain ⟨places, hincreasing, hcomplete, hvisits⟩ := exists_of_row ih 0
    -- below the node, its places are those of the row of its children
    have hbelow : ∀ i place, n.at? (i :: place) = inRow? 0 n.children (i :: place) := by
      intro i place
      rw [at?, inRow?, if_pos (Nat.zero_le i), Nat.sub_zero]
    have hcons : ∀ place ∈ places, ∃ i below, place = i :: below := by
      intro place hplace
      obtain ⟨i, below, rfl, -⟩ := exists_number_of_inRow? ((hcomplete place).mp hplace)
      exact ⟨i, below, rfl⟩
    refine ⟨[] :: places, List.pairwise_cons.mpr ⟨?_, hincreasing⟩, fun place => ?_, ?_⟩
    · intro place hplace
      obtain ⟨i, below, rfl⟩ := hcons place hplace
      exact List.nil_lt_cons i below
    · cases place with
      | nil => exact iff_of_true List.mem_cons_self rfl
      | cons i below =>
        rw [hbelow, ← hcomplete, List.mem_cons, or_iff_right (List.cons_ne_nil i below)]
    · rw [n.walk_eq, List.map_cons, List.map_cons, hvisits, at?]
      congr 1
      refine List.map_congr_left fun place hplace => ?_
      obtain ⟨i, below, rfl⟩ := hcons place hplace
      exact (hbelow i below).symm

end VisitsInPreorder

namespace Block
open BodyNode

/-- What is at a place in a body: nothing at the empty place, else what is at the rest of the place
in the statement with the first number. -/
def at? (b : Block) : List Nat → Option BodyNode
  | [] => none
  | i :: place => b.statements[i]?.bind fun s => (BodyNode.statement s).at? place

theorem at?_eq (b : Block) : b.at? = inRow? 0 (b.statements.map .statement) := by
  funext place
  cases place with
  | nil => rfl
  | cons i place =>
    rw [at?, inRow?, if_pos (Nat.zero_le i), Nat.sub_zero, List.getElem?_map, Option.bind_map]
    rfl

theorem walk_eq_flatMap (b : Block) :
    b.walk = (b.statements.map .statement).flatMap BodyNode.walk := by
  rw [walk, Statement.walkAll_eq_flatMap, List.flatMap_map]
  rfl

end Block

/-- The constructions of an `if` statement are those of the walk over it. -/
theorem Conditional.creations_eq (c : Conditional) :
    c.creations = (Statement.walk (.branch c)).filterMap BodyNode.creation? := by
  obtain ⟨condition, consequence, alternative, location⟩ := c
  have hself : BodyNode.creation?
      (.statement (.branch ⟨condition, consequence, alternative, location⟩)) = none := rfl
  rw [Statement.walk, List.filterMap_cons_none hself, List.filterMap_append, List.filterMap_append,
    Conditional.creations, List.append_assoc]

/-- The extractors of a body are filters of one walk, which comes to every statement and expression
of the body once and in preorder. Wherever it comes to an `if` statement, the constructions of the
body go on with those of the statement, which are those of the walk over the statement alone. -/
theorem Block.extractors_agree (b : Block) :
    (∃ places, VisitsInPreorder b.at? b.walk places) ∧
      (b.creations = b.walk.filterMap BodyNode.creation? ∧
        b.calls = b.walk.filterMap BodyNode.call? ∧
        b.branches = b.walk.filterMap BodyNode.branch? ∧
        b.locals = b.walk.filterMap BodyNode.local?) ∧
      (∀ i c, b.walk[i]? = some (.statement (.branch c)) →
        (b.walk.take i).filterMap BodyNode.creation? ++ c.creations <+: b.creations) ∧
      ∀ c ∈ b.branches,
        c.creations = (Statement.walk (.branch c)).filterMap BodyNode.creation? ∧
          c.creations <:+: b.creations := by
  have hsegment : ∀ i c, b.walk[i]? = some (.statement (.branch c)) →
      (b.walk.take i).filterMap BodyNode.creation? ++ c.creations <+: b.creations := by
    intro i c hi
    have hthrough : BodyNode.GoesThrough b.walk := by
      rw [b.walk_eq_flatMap]
      exact BodyNode.goesThrough_flatMap fun n _ => n.goesThrough_walk
    obtain ⟨behind, hbehind⟩ := hthrough i _ hi
    refine ⟨behind.filterMap BodyNode.creation?, ?_⟩
    calc (b.walk.take i).filterMap BodyNode.creation? ++ c.creations ++
          behind.filterMap BodyNode.creation?
      _ = (b.walk.take i ++ ((BodyNode.statement (.branch c)).walk ++ behind)).filterMap
          BodyNode.creation? := by
        rw [c.creations_eq, List.filterMap_append, List.filterMap_append, List.append_assoc]
        rfl
      _ = b.creations := by rw [hbehind, List.take_append_drop, creations]
  refine ⟨?_, ⟨rfl, rfl, rfl, rfl⟩, hsegment, fun c hc => ⟨c.creations_eq, ?_⟩⟩
  · rw [b.at?_eq, b.walk_eq_flatMap]
    exact VisitsInPreorder.exists_of_row (fun n _ => VisitsInPreorder.exists_of_node n) 0
  · obtain ⟨n, hn, hbranch⟩ := List.mem_filterMap.mp hc
    obtain rfl := BodyNode.branch?_eq_some_iff.mp hbranch
    obtain ⟨i, hi⟩ := List.mem_iff_getElem?.mp hn
    exact ((List.suffix_append _ _).isInfix).trans (hsegment i c hi).isInfix

section Lambda

def lambdaPlace (line first last : Nat) : Location := ⟨"lambda.cs", ⟨line, first⟩, ⟨line, last⟩⟩

def constructs (name : String) (location : Location) : Expression :=
  .creation ⟨some (.simple name), [], [], location⟩

/-- An `if` statement that constructs an object in its condition and one in its branch. -/
def innerBranch : Conditional :=
  ⟨some (.other [constructs "Key" (lambdaPlace 3 8 17)]),
    [.compound ⟨"return_statement", [constructs "Car" (lambdaPlace 3 28 37)], [],
      lambdaPlace 3 21 38⟩], [], lambdaPlace 3 4 38⟩

/-- The statement in a lambda that is the initial value of a variable, within another `if`
statement and between other constructions. -/
def lambdaBody : Block :=
  let declared : Statement := .declare ⟨none,
    [⟨"door", some (constructs "Door" (lambdaPlace 2 13 23))⟩,
      ⟨"open", some (.lambda [.branch innerBranch])⟩], lambdaPlace 2 2 40⟩
  let behind : Statement :=
    .compound ⟨"expression_statement", [constructs "Bus" (lambdaPlace 5 2 11)], [],
      lambdaPlace 5 2 12⟩
  ⟨[.branch ⟨none, [declared], [behind], lambdaPlace 1 0 50⟩]⟩

/-- The constructions of the inner statement stand together between the others. -/
theorem Block.extractors_agree_lambda :
    lambdaBody.walk[4]? = some (.statement (.branch innerBranch)) ∧
      (lambdaBody.walk.take 4).filterMap BodyNode.creation? ++ innerBranch.creations <+:
        lambdaBody.creations ∧
      innerBranch ∈ lambdaBody.branches ∧ innerBranch.creations <:+: lambdaBody.creations ∧
      innerBranch.creations.map (·.location) = [lambdaPlace 3 8 17, lambdaPlace 3 28 37] ∧
      lambdaBody.creations.map (·.location) =
        [lambdaPlace 2 13 23, lambdaPlace 3 8 17, lambdaPlace 3 28 37, lambdaPlace 5 2 11] := by
  obtain ⟨-, -, hsegment, hmember⟩ := lambdaBody.extractors_agree
  have hwalk : lambdaBody.walk[4]? = some (.statement (.branch innerBranch)) := rfl
  have hbranch : innerBranch ∈ lambdaBody.branches := .tail _ (.head _)
  exact ⟨hwalk, hsegment 4 innerBranch hwalk, hbranch, (hmember innerBranch hbranch).2, rfl, rfl⟩

end Lambda

end PatternFinder
