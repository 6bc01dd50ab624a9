import Mathlib.Logic.Relation
import PatternFinder.Proofs.IndexScan

/-! The search for supertypes: what it finds is what can be reached along base lists, and a search
within names that two semantic models describe alike goes the same way in both. -/
namespace PatternFinder

/-- The name that a type is looked up by. It is the type's own, or that of the type behind nullable
marks. -/
def TypeRef.lookupName? : TypeRef → Option String
  | .named name _ _ => some name
  | .nullable inner => inner.lookupName?
  | _ => none

theorem TypeRef.lookupName?_of_identifier? {t : TypeRef} {name : String}
    (h : t.identifier? = some name) : t.lookupName? = some name := by
  cases t with
  | named => exact h
  | _ => cases h

namespace Semantics

variable {m m' : Semantics}

/-- The entries of all base lists of a name; a name that is not declared has none. -/
def baseList (m : Semantics) (name : String) : List TypeRef := (m.bases? name).getD []

/-- The names in the base lists of a name. -/
def parents (m : Semantics) (name : String) : List String :=
  (m.baseList name).filterMap TypeRef.identifier?

theorem baseList_ofTypes (types : List TypeDeclaration) (name : String) :
    (ofTypes types).baseList name =
      (types.filter (·.identifier == name)).flatMap (·.baseTypes) := by
  unfold baseList
  rw [bases?_ofTypes]
  split_ifs with h
  · rw [List.isEmpty_iff.mp h]
    rfl
  · rfl

theorem direct_eq (m : Semantics) (name : String) :
    m.direct name = (catalog? name).getD [] ++ m.parents name := rfl

theorem supertypesFrom_nil (seen : List String) : m.supertypesFrom seen [] = [] := by
  rw [supertypesFrom]

theorem supertypesFrom_cons_of_seen {seen : List String} {name : String} (h : name ∈ seen)
    (pending : List String) :
    m.supertypesFrom seen (name :: pending) = m.supertypesFrom seen pending := by
  rw [supertypesFrom, dif_pos (by simpa using h)]

theorem supertypesFrom_cons {seen : List String} {name : String} (h : name ∉ seen)
    (pending : List String) :
    m.supertypesFrom seen (name :: pending) =
      m.direct name ++ m.supertypesFrom (name :: seen) (m.parents name ++ pending) := by
  rw [supertypesFrom, dif_neg (by simpa using h)]
  congr 1
  split
  · rename_i bs hbs
    simp [parents, baseList, hbs]
  · rename_i hnone
    simp [parents, baseList, hnone]

theorem elementFrom_named {seen : List String} {name : String} (h : name ∉ seen)
    (qualifier : Option String) (pending : List TypeRef) :
    m.elementFrom seen (.named name qualifier [] :: pending) =
      m.elementFrom (name :: seen) (m.baseList name ++ pending) := by
  rw [elementFrom, dif_neg (by simpa using h)]
  split
  · rename_i bs hbs
    simp [baseList, hbs]
  · rename_i hnone
    simp [baseList, hnone]

/-- An induction along the search: a name is passed over or expanded. -/
theorem search_induction {motive : List String → List String → Prop} (m : Semantics)
    (nil : ∀ seen, motive seen [])
    (skip : ∀ seen name pending, name ∈ seen → motive seen pending → motive seen (name :: pending))
    (expand : ∀ seen name pending, name ∉ seen →
      motive (name :: seen) (m.parents name ++ pending) → motive seen (name :: pending))
    (seen pending : List String) : motive seen pending := by
  fun_induction supertypesFrom m seen pending with
  | case1 seen => exact nil seen
  | case2 seen name pending hs ih => exact skip seen name pending (by simpa using hs) ih
  | case3 seen name pending hs ihSome ihNone =>
    refine expand seen name pending (by simpa using hs) ?_
    cases hbs : m.bases? name with
    | some bs => simpa [parents, baseList, hbs] using ihSome bs hbs
    | none => simpa [parents, baseList, hbs] using ihNone

/-- A name is reached along base lists. -/
def Reaches (m : Semantics) : String → String → Prop :=
  Relation.ReflTransGen fun a b => b ∈ m.parents a

/-- Nothing is found that cannot be reached. -/
theorem exists_reaches_of_mem {x : String} (seen pending : List String)
    (hx : x ∈ m.supertypesFrom seen pending) :
    ∃ name ∈ pending, ∃ n, m.Reaches name n ∧ x ∈ m.direct n := by
  induction seen, pending using m.search_induction with
  | nil seen => rw [supertypesFrom_nil] at hx; cases hx
  | skip seen name pending hs ih =>
    rw [supertypesFrom_cons_of_seen hs] at hx
    obtain ⟨p, hp, hn⟩ := ih hx
    exact ⟨p, List.mem_cons_of_mem _ hp, hn⟩
  | expand seen name pending hs ih =>
    rw [supertypesFrom_cons hs] at hx
    rcases List.mem_append.mp hx with hdirect | hrest
    · exact ⟨name, List.mem_cons_self, name, .refl, hdirect⟩
    · obtain ⟨p, hp, n, hreach, hn⟩ := ih hrest
      rcases List.mem_append.mp hp with hparent | hpending
      · exact ⟨name, List.mem_cons_self, n, .head hparent hreach, hn⟩
      · exact ⟨p, List.mem_cons_of_mem _ hpending, n, hreach, hn⟩

/-- When a search ends, the names that it has visited hold all parents of those that it has
expanded. -/
theorem exists_closed (m : Semantics) (seen pending : List String) :
    ∃ visited : String → Prop, (∀ n ∈ seen, visited n) ∧ (∀ n ∈ pending, visited n) ∧
      ∀ n, visited n → n ∉ seen →
        m.direct n ⊆ m.supertypesFrom seen pending ∧ ∀ p ∈ m.parents n, visited p := by
  induction seen, pending using m.search_induction with
  | nil seen => exact ⟨(· ∈ seen), fun _ h => h, fun _ h => (List.not_mem_nil h).elim,
      fun n h hn => absurd h hn⟩
  | skip seen name pending hs ih =>
    obtain ⟨visited, hseen, hpending, hclosed⟩ := ih
    refine ⟨visited, hseen, ?_, ?_⟩
    · rintro n (_ | ⟨_, hn⟩)
      · exact hseen name hs
      · exact hpending n hn
    · rwa [supertypesFrom_cons_of_seen hs]
  | expand seen name pending hs ih =>
    obtain ⟨visited, hseen, hpending, hclosed⟩ := ih
    -- the name itself counts as seen from here on, so it is answered for here
    have hname : visited name := hseen name List.mem_cons_self
    refine ⟨visited, fun n hn => hseen n (List.mem_cons_of_mem _ hn), ?_, ?_⟩
    · rintro n (_ | ⟨_, hn⟩)
      · exact hname
      · exact hpending n (List.mem_append_right _ hn)
    · intro n hn hnot
      rw [supertypesFrom_cons hs]
      by_cases h : n = name
      · subst h
        exact ⟨List.subset_append_left _ _, fun p hp => hpending p (List.mem_append_left _ hp)⟩
      · obtain ⟨hdirect, hparents⟩ := hclosed n hn (by simp [h, hnot])
        exact ⟨fun x hx => List.mem_append_right _ (hdirect hx), hparents⟩

/-- The supertypes of a name are what is added for the names that it reaches. -/
theorem mem_supertypes_iff {x name : String} :
    x ∈ m.supertypesFrom [] [name] ↔ ∃ n, m.Reaches name n ∧ x ∈ m.direct n := by
  constructor
  · intro hx
    obtain ⟨p, hp, hn⟩ := exists_reaches_of_mem _ _ hx
    rwa [List.mem_singleton.mp hp] at hn
  · rintro ⟨n, hreach, hx⟩
    obtain ⟨visited, -, hname, hclosed⟩ := m.exists_closed [] [name]
    -- the visited names are closed, so a way along base lists never leaves them
    have hn : visited n := by
      clear hx
      induction hreach with
      | refl => exact hname name List.mem_cons_self
      | tail _ hstep ih => exact (hclosed _ ih List.not_mem_nil).2 _ hstep
    exact (hclosed n hn List.not_mem_nil).1 hx

/-- The interfaces of a type are told by what is known of the name that it is looked up by. -/
theorem interfaces_congr {t : TypeRef}
    (h : ∀ name, t.lookupName? = some name → m'.resolves name = m.resolves name ∧
      sortedSet (m'.supertypesFrom [] [name]) = sortedSet (m.supertypesFrom [] [name])) :
    m'.interfaces t = m.interfaces t := by
  fun_induction TypeRef.lookupName? t with
  | case1 name qualifier arguments =>
    obtain ⟨hresolves, hsupertypes⟩ := h name rfl
    rw [interfaces, interfaces, hresolves, hsupertypes]
  | case2 inner ih => exact ih h
  | case3 t hnamed hnullable =>
    cases t with
    | named name qualifier arguments => exact (hnamed name qualifier arguments rfl).elim
    | nullable inner => exact (hnullable inner rfl).elim
    | predefined | array | other => rfl

/-- Two semantic models describe some names alike, and what is looked up from there on is among
these names. -/
structure AgreeOn (names : String → Prop) (m m' : Semantics) : Prop where
  bases : ∀ name, names name → m'.bases? name = m.bases? name
  closed : ∀ name, names name → ∀ t ∈ m.baseList name, ∀ n, t.lookupName? = some n → names n

namespace AgreeOn

variable {names : String → Prop}

theorem baseList (h : AgreeOn names m m') {name : String} (hn : names name) :
    m'.baseList name = m.baseList name := by
  unfold Semantics.baseList
  rw [h.bases name hn]

theorem parents (h : AgreeOn names m m') {name : String} (hn : names name) :
    m'.parents name = m.parents name := by
  unfold Semantics.parents
  rw [h.baseList hn]

private theorem of_mem_parents (h : AgreeOn names m m') {name p : String} (hn : names name)
    (hp : p ∈ m.parents name) : names p := by
  obtain ⟨t, ht, hp⟩ := List.mem_filterMap.mp hp
  exact h.closed name hn t ht p (TypeRef.lookupName?_of_identifier? hp)

theorem supertypesFrom (h : AgreeOn names m m') (seen pending : List String)
    (hp : ∀ n ∈ pending, names n) :
    m'.supertypesFrom seen pending = m.supertypesFrom seen pending := by
  induction seen, pending using m.search_induction with
  | nil seen => rw [supertypesFrom_nil, supertypesFrom_nil]
  | skip seen name pending hs ih =>
    rw [supertypesFrom_cons_of_seen hs, supertypesFrom_cons_of_seen hs]
    exact ih fun n hn => hp n (List.mem_cons_of_mem _ hn)
  | expand seen name pending hs ih =>
    have hname : names name := hp name List.mem_cons_self
    rw [supertypesFrom_cons hs, supertypesFrom_cons hs, direct_eq, direct_eq, h.parents hname, ih]
    intro n hn
    rcases List.mem_append.mp hn with hparent | hpending
    · exact h.of_mem_parents hname hparent
    · exact hp n (List.mem_cons_of_mem _ hpending)

theorem resolves (h : AgreeOn names m m') {name : String} (hn : names name) :
    m'.resolves name = m.resolves name := by
  unfold Semantics.resolves
  rw [h.bases name hn]

theorem interfaces (h : AgreeOn names m m') {t : TypeRef}
    (ht : ∀ n, t.lookupName? = some n → names n) : m'.interfaces t = m.interfaces t := by
  refine interfaces_congr fun name hlookup => ?_
  have hname : names name := ht name hlookup
  rw [h.supertypesFrom [] [name] (by simpa using hname)]
  exact ⟨h.resolves hname, rfl⟩

theorem isCollection (h : AgreeOn names m m') {t : TypeRef}
    (ht : ∀ n, t.lookupName? = some n → names n) : m'.isCollection t = m.isCollection t := by
  unfold Semantics.isCollection
  rw [h.interfaces ht]

theorem holdsLastArgument (h : AgreeOn names m m') {name : String} (hn : names name) :
    m'.holdsLastArgument name = m.holdsLastArgument name := by
  unfold Semantics.holdsLastArgument
  rw [h.interfaces (t := .simple name) (by rintro _ ⟨⟩; exact hn)]

private theorem of_mem_append (h : AgreeOn names m m') {name : String} {pending : List TypeRef}
    (hn : names name) (hp : ∀ t ∈ pending, ∀ n, t.lookupName? = some n → names n) :
    ∀ t ∈ m.baseList name ++ pending, ∀ n, t.lookupName? = some n → names n := by
  intro t ht
  rcases List.mem_append.mp ht with hbase | hpending
  · exact h.closed name hn t hbase
  · exact hp t hpending

theorem elementFrom (h : AgreeOn names m m') (seen : List String) (pending : List TypeRef)
    (hp : ∀ t ∈ pending, ∀ n, t.lookupName? = some n → names n) :
    m'.elementFrom seen pending = m.elementFrom seen pending := by
  fun_induction Semantics.elementFrom m seen pending with
  | case1 | case2 => rw [Semantics.elementFrom]
  | case3 seen inner pending ih =>
    rw [Semantics.elementFrom]
    exact ih (List.forall_mem_cons.mpr (List.forall_mem_cons.mp hp))
  | case4 seen name qualifier a as pending hlast =>
    have hname : names name := hp _ List.mem_cons_self name rfl
    rw [Semantics.elementFrom, h.holdsLastArgument hname, if_pos hlast]
  | case5 seen name qualifier a as pending hlast =>
    have hname : names name := hp _ List.mem_cons_self name rfl
    rw [Semantics.elementFrom, h.holdsLastArgument hname, if_neg hlast]
  | case6 seen name qualifier pending hs ih =>
    rw [Semantics.elementFrom, dif_pos hs]
    exact ih (List.forall_mem_cons.mp hp).2
  | case7 seen name qualifier pending hs bs hbs ih =>
    have hname : names name := hp _ List.mem_cons_self name rfl
    have hlist : m.baseList name = bs := by rw [Semantics.baseList, hbs]; rfl
    have hrest := h.of_mem_append hname (List.forall_mem_cons.mp hp).2
    rw [hlist] at hrest
    rw [elementFrom_named (by simpa using hs), h.baseList hname, hlist]
    exact ih hrest
  | case8 seen name qualifier pending hs hnone ih =>
    have hname : names name := hp _ List.mem_cons_self name rfl
    have hlist : m.baseList name = [] := by rw [Semantics.baseList, hnone]; rfl
    rw [elementFrom_named (by simpa using hs), h.baseList hname, hlist]
    exact ih (List.forall_mem_cons.mp hp).2
  | case9 seen keyword pending ih | case10 seen text pending ih =>
    rw [Semantics.elementFrom]
    exact ih (List.forall_mem_cons.mp hp).2

theorem elementType (h : AgreeOn names m m') {t : TypeRef}
    (ht : ∀ n, t.lookupName? = some n → names n) : m'.elementType t = m.elementType t :=
  h.elementFrom [] [t] (by simpa using ht)

end AgreeOn

end Semantics

end PatternFinder
