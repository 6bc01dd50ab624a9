import PatternFinder.Proofs.Reading

/-! Reading goes down the tree, so the height of a node bounds how deep it is read. -/
namespace PatternFinder

namespace Node

mutual

/-- The number of levels below a node. -/
def height : Node → Nat
  | ⟨_, _, _, _, _, _, _, children⟩ => heightList children

def heightList : List Node → Nat
  | [] => 0
  | n :: ns => max (height n + 1) (heightList ns)

end

private theorem height_lt_heightList {c : Node} {ns : List Node} (h : c ∈ ns) :
    c.height < heightList ns := by
  induction ns with
  | nil => cases h
  | cons n ns ih =>
    rw [heightList]
    rcases List.mem_cons.mp h with rfl | h
    · omega
    · have := ih h
      omega

theorem height_lt_of_mem {c n : Node} (h : c ∈ n.children) : c.height < n.height := by
  cases n with
  | mk _ _ _ _ _ _ _ children =>
    rw [height]
    exact height_lt_heightList h

/-- A node stands somewhere below another. -/
inductive Below : Node → Node → Prop
  | child {n c : Node} (hc : c ∈ n.children) : Below n c
  | deeper {n c d : Node} (hc : c ∈ n.children) (hd : Below c d) : Below n d

theorem Below.height_lt {n d : Node} (h : Below n d) : d.height < n.height := by
  induction h with
  | child hc => exact height_lt_of_mem hc
  | deeper hc _ ih => exact Nat.lt_trans ih (height_lt_of_mem hc)

theorem Below.child_of {n c d : Node} (h : Below n c) (hd : d ∈ c.children) : Below n d := by
  induction h with
  | child hc => exact .deeper hc (.child hd)
  | deeper hc _ ih => exact .deeper hc (ih hd)

/-- What holds of a node when it holds of all nodes below it holds everywhere. -/
theorem below_induction {motive : Node → Prop} (step : ∀ n, (∀ c, Below n c → motive c) → motive n)
    (n : Node) : motive n := by
  induction hheight : n.height using Nat.strongRecOn generalizing n with
  | ind height ih =>
    refine step n fun c hc => ih c.height ?_ c rfl
    exact hheight ▸ hc.height_lt

end Node

namespace Lowering

theorem mem_children_of_mem_contents {c n : Node} (h : c ∈ contents n) : c ∈ n.children :=
  Node.mem_of_mem_namedChildren (List.mem_filter.mp h).1

theorem mem_children_of_or {n c : Node} {a b : Option Node} (ha : a = some c → c ∈ n.children)
    (hb : b = some c → c ∈ n.children) (h : a.or b = some c) : c ∈ n.children := by
  rcases Option.or_eq_some_iff.mp h with h | ⟨-, h⟩
  · exact ha h
  · exact hb h

theorem mem_children_of_argumentList? {n c : Node} (h : argumentList? n = some c) :
    c ∈ n.children :=
  mem_children_of_or Node.mem_of_child? Node.mem_of_namedOf? h

theorem mem_children_of_initializerList? {n c : Node} (h : initializerList? n = some c) :
    c ∈ n.children :=
  mem_children_of_or Node.mem_of_child? Node.mem_of_namedOf? h

theorem mem_children_of_callee? {n c : Node} (h : callee? n = some c) : c ∈ n.children :=
  mem_children_of_or Node.mem_of_child?
    (fun h => Node.mem_of_mem_namedChildren (List.mem_of_head? h)) h

theorem mem_children_of_lambdaBody? {n c : Node} (h : lambdaBody? n = some c) :
    c ∈ n.children :=
  mem_children_of_or (mem_children_of_or Node.mem_of_child? Node.mem_of_namedOf?)
    (fun h => Node.mem_of_mem_namedChildren (List.mem_of_getLast? h)) h

theorem below_of_mem_listed {n : Node} {list : Option Node} {q : Part} (hq : q ∈ listed list)
    (hlist : ∀ l, list = some l → l ∈ n.children) : Node.Below n q.node := by
  obtain ⟨l, hl, hq⟩ := List.mem_flatMap.mp hq
  obtain ⟨c, hc, rfl⟩ := List.mem_map.mp hq
  exact .deeper (hlist l (Option.mem_toList.mp hl)) (.child (mem_children_of_mem_contents hc))

/-- An initial value is a part of the declarator, or the value in one. -/
theorem of_foldl_initialNode {parts : List Node} {value : Option Node} {m : Node}
    (h : parts.foldl initialNode value = some m) :
    value = some m ∨ ∃ part ∈ parts, m = part ∨ m ∈ part.children := by
  induction parts generalizing value with
  | nil => exact .inl h
  | cons part parts ih =>
    rcases ih h with h | ⟨other, hother, hm⟩
    · unfold initialNode at h
      split at h
      · have hhead := Node.mem_of_mem_namedChildren (List.mem_of_head? h)
        exact .inr ⟨part, List.mem_cons_self, .inr hhead⟩
      · exact .inl h
      · exact .inl h
      · exact .inl h
      · exact .inr ⟨part, List.mem_cons_self, .inl (Option.some.inj h).symm⟩
    · exact .inr ⟨other, List.mem_cons_of_mem part hother, hm⟩

theorem below_of_foldl_initialNode {v m : Node}
    (h : (declaratorParts v).foldl initialNode none = some m) : Node.Below v m := by
  rcases of_foldl_initialNode h with h | ⟨part, hpart, hm⟩
  · cases h
  · have hpart : part ∈ v.children := List.mem_of_mem_eraseP (List.mem_filter.mp hpart).1
    rcases hm with rfl | hm
    · exact .child hpart
    · exact .deeper hpart (.child hm)

theorem below_of_mem_initialNodes {n m : Node} (h : m ∈ initialNodes n) : Node.Below n m := by
  unfold initialNodes at h
  cases hd : n.namedOf? "variable_declaration" with
  | none => simp [hd] at h
  | some d =>
    simp only [hd] at h
    obtain ⟨v, hv, hm⟩ := List.mem_filterMap.mp h
    have hd := Node.mem_of_namedOf? hd
    have hv := Node.mem_of_mem_namedChildren (List.mem_filter.mp hv).1
    exact .deeper hd (.deeper hv (below_of_foldl_initialNode hm))

theorem below_of_mem_conditionalParts {n : Node} {q : Part} (h : q ∈ conditionalParts n) :
    Node.Below n q.node := by
  unfold conditionalParts at h
  cases hc : n.child? .consequence with
  | none =>
    simp only [hc, List.mem_append, List.mem_map, Option.mem_toList] at h
    rcases h with ⟨m, hm, rfl⟩ | ⟨m, hm, rfl⟩
    · exact .child (mem_children_of_mem_contents (List.mem_of_find?_eq_some hm))
    · have hm := (List.mem_filter.mp (List.mem_of_mem_take hm)).1
      exact .child (Node.mem_of_mem_namedChildren hm)
  | some consequence =>
    simp only [hc, List.mem_append, List.mem_map, List.mem_cons, Option.mem_toList] at h
    rcases h with ⟨m, hm, rfl⟩ | rfl | ⟨m, hm, rfl⟩
    · exact .child (Node.mem_of_child? hm)
    · exact .child (Node.mem_of_child? hc)
    · exact .child (Node.mem_of_child? hm)

theorem below_of_mem_lambdaParts {n : Node} {q : Part} (h : q ∈ lambdaParts n) :
    Node.Below n q.node := by
  unfold lambdaParts at h
  cases hb : lambdaBody? n with
  | none => simp [hb] at h
  | some body =>
    have hbody := mem_children_of_lambdaBody? hb
    simp only [hb] at h
    split_ifs at h
    · obtain ⟨c, hc, rfl⟩ := List.mem_map.mp h
      exact .deeper hbody (.child (mem_children_of_mem_contents hc))
    · obtain rfl := List.mem_singleton.mp h
      exact .child hbody

theorem below_of_receiver? {n r : Node} (h : receiver? n = some r) : Node.Below n r := by
  unfold receiver? at h
  cases hf : callee? n with
  | none => simp [hf] at h
  | some f =>
    simp only [hf] at h
    split_ifs at h
    exact .deeper (mem_children_of_callee? hf) (.child (Node.mem_of_child? h))

namespace Part

theorem below_of_mem_map {n : Node} {role : Node → Part} (hrole : ∀ m, (role m).node = m)
    {ms : List Node} (hms : ∀ m ∈ ms, m ∈ contents n) {q : Part} (hq : q ∈ ms.map role) :
    Node.Below n q.node := by
  obtain ⟨c, hc, rfl⟩ := List.mem_map.mp hq
  rw [hrole]
  exact .child (mem_children_of_mem_contents (hms c hc))

theorem below_of_mem_statementParts {n : Node} {q : Part} (h : q ∈ (statement n).parts) :
    Node.Below n q.node := by
  simp only [parts] at h
  split at h
  · obtain ⟨m, hm, rfl⟩ := List.mem_map.mp h
    exact below_of_mem_initialNodes hm
  · exact below_of_mem_conditionalParts h
  · rcases List.mem_append.mp h with h | h
    · exact below_of_mem_map (fun _ => rfl) (fun m hm => (List.mem_filter.mp hm).1) h
    · exact below_of_mem_map (fun _ => rfl) (fun m hm => (List.mem_filter.mp hm).1) h

private theorem below_of_mem_expressionParts {n : Node} {q : Part} (h : q ∈ (expression n).parts) :
    Node.Below n q.node := by
  have hcreation : q ∈ listed (argumentList? n) ++ listed (initializerList? n) →
      Node.Below n q.node := by
    intro h
    rcases List.mem_append.mp h with h | h
    · exact below_of_mem_listed h fun _ => mem_children_of_argumentList?
    · exact below_of_mem_listed h fun _ => mem_children_of_initializerList?
  simp only [parts] at h
  split at h
  case h_1 => exact hcreation h
  case h_2 => exact hcreation h
  case h_3 =>
    rcases List.mem_append.mp h with h | h
    · obtain ⟨r, hr, rfl⟩ := List.mem_map.mp h
      exact below_of_receiver? (Option.mem_toList.mp hr)
    · exact below_of_mem_listed h fun _ => mem_children_of_argumentList?
  case h_4 => exact below_of_mem_map (fun _ => rfl) (fun _ hm => hm) h
  case h_5 =>
    obtain ⟨c, hc, rfl⟩ := List.mem_map.mp h
    have hc := List.mem_of_getLast? (Option.mem_toList.mp hc)
    exact .child (Node.mem_of_mem_namedChildren hc)
  case h_6 => cases h
  case h_7 => exact below_of_mem_lambdaParts h
  case h_8 => exact below_of_mem_lambdaParts h
  case h_9 => exact below_of_mem_map (fun _ => rfl) (fun _ hm => hm) h
  case h_10 =>
    split_ifs at h
    · cases h
    · exact below_of_mem_map (fun _ => rfl) (fun _ hm => hm) h

/-- Reading only goes down. -/
theorem below_of_mem_parts {p q : Part} (h : q ∈ p.parts) : Node.Below p.node q.node := by
  cases p with
  | statement n => exact below_of_mem_statementParts h
  | expression n => exact below_of_mem_expressionParts h

/-- Reading on from one part comes to another. -/
inductive Reads : Part → Part → Prop
  | refl (p : Part) : Reads p p
  | step {p q r : Part} (hq : q ∈ p.parts) (hr : Reads q r) : Reads p r

/-- Enough levels for the height of a node are enough to read all of it. -/
theorem mem_readings_iff {p q : Part} {levels : Nat} (h : p.node.height < levels) :
    q ∈ p.readings levels ↔ p.Reads q := by
  induction levels generalizing p with
  | zero => omega
  | succ levels ih =>
    have hparts : ∀ r ∈ p.parts, r.node.height < levels := by
      intro r hr
      have := (below_of_mem_parts hr).height_lt
      omega
    rw [readings, List.mem_cons, List.mem_flatMap]
    constructor
    · rintro (rfl | ⟨r, hr, hq⟩)
      · exact .refl q
      · exact .step hr ((ih (hparts r hr)).mp hq)
    · intro h
      cases h with
      | refl => exact .inl rfl
      | step hr hq => exact .inr ⟨_, hr, (ih (hparts _ hr)).mpr hq⟩

end Part

end Lowering

end PatternFinder
