import Mathlib.Data.List.Nodup
import PatternFinder.Proofs.FindingOrder
import PatternFinder.Proofs.Judgement

/-! Findings have different keys when declarations have different places, so a report does not
depend on the order in which findings arrive. -/
namespace PatternFinder

def Location.anchor (l : Location) : String × Position := (l.file, l.range.start)

/-- The declarations of local variables in the bodies of all members. -/
def TypeDeclaration.locals (t : TypeDeclaration) : List LocalDeclaration :=
  t.members.flatMap fun m => (m.body?.map Block.locals).getD []

/-- No two types, no two methods, no two fields and no two declarations of local variables start at
the same place; types and methods are placed by their names. -/
structure DistinctAnchors (c : Compilation) : Prop where
  types : (c.types.map (·.identifierLocation.anchor)).Nodup
  methods : ((c.types.flatMap (·.methods)).map (·.identifierLocation.anchor)).Nodup
  fields : ((c.types.flatMap (·.fields)).map (·.location.anchor)).Nodup
  locals : ((c.types.flatMap (·.locals)).map (·.location.anchor)).Nodup

namespace Site

def typeAnchor? : Site → Option (String × Position)
  | .type t => some t.identifierLocation.anchor
  | _ => none

def methodAnchor? : Site → Option (String × Position)
  | .method m => some m.identifierLocation.anchor
  | _ => none

def fieldAnchor? : Site → Option (String × Position)
  | .field f => some f.location.anchor
  | _ => none

def localAnchor? : Site → Option (String × Position)
  | .local l => some l.location.anchor
  | _ => none

/-- The place that a check reports, at the sites that it looks at. -/
def anchorFor? (check : String) : Site → Option (String × Position) :=
  if ["Singleton", "Decorator", "IsProductInterface", "IsConcreteProduct"].contains check then
    typeAnchor?
  else if ["IsAbstractFactoryMethod", "OverridesAbstractFactoryMethod",
      "HasGetFlyweightMethod"].contains check then methodAnchor?
  else if check == "HasFlyweightCollection" then fieldAnchor?
  else localAnchor?

end Site

theorem filterMap_declarations {β : Type} (c : Compilation) {A : Site → Option β}
    {g : TypeDeclaration → List β}
    (hg : ∀ t, (Site.type t :: t.members.flatMap memberSites).filterMap A = g t) :
    (declarations c).filterMap (A ·.site) = c.types.flatMap g := by
  have hitems : ∀ tree t, (typeItems tree t).filterMap (A ·.site) = g t := by
    intro tree t
    rw [← hg t, typeItems, List.filterMap_cons, List.filterMap_cons, List.filterMap_map]
    rfl
  simp only [declarations, Compilation.types, List.filterMap_flatMap, hitems, List.flatMap_assoc]

theorem filterMap_memberSites {β : Type} (A : Site → Option β) (m : Member) :
    (memberSites m).filterMap A = (A (.ofMember m)).toList ++
      (m.body?.map fun b => b.walk.filterMap fun n => (Site.ofBodyNode? n).bind A).getD [] := by
  unfold memberSites
  rw [List.filterMap_cons]
  cases m.body? <;> cases A (.ofMember m) <;> simp [List.filterMap_filterMap]

/-- What does not look into bodies is collected member by member. -/
theorem filterMap_sites_of_bodiless {β : Type} {A : Site → Option β}
    (hA : ∀ n, (Site.ofBodyNode? n).bind A = none) (ms : List Member) :
    (ms.flatMap memberSites).filterMap A = ms.filterMap (A <| .ofMember ·) := by
  have hbody : ∀ m : Member, (m.body?.map fun b =>
      b.walk.filterMap fun n => (Site.ofBodyNode? n).bind A).getD [] = [] := by
    intro m
    cases m.body? <;> simp [hA]
  rw [List.filterMap_flatMap, List.filterMap_eq_flatMap_toList]
  simp only [filterMap_memberSites, hbody, List.append_nil]

namespace Site

theorem ofBodyNode?_bind_eq_none {β : Type} {A : Site → Option β}
    (hlocal : ∀ l, A (.local l) = none) (hcreation : ∀ c, A (.creation c) = none) (n : BodyNode) :
    (ofBodyNode? n).bind A = none := by
  rcases n with (l | _ | _) | (x | _ | _ | _ | _ | _) <;> simp [ofBodyNode?, hlocal, hcreation]

theorem filterMap_typeAnchor? (c : Compilation) :
    (declarations c).filterMap (typeAnchor? ·.site) =
      c.types.map (·.identifierLocation.anchor) := by
  rw [filterMap_declarations (g := fun t => [t.identifierLocation.anchor]), List.map_eq_flatMap]
  intro t
  have hmember : ∀ m, typeAnchor? (.ofMember m) = none := by
    intro m
    cases m <;> rfl
  have htype : typeAnchor? (.type t) = some t.identifierLocation.anchor := rfl
  rw [List.filterMap_cons_some htype, filterMap_sites_of_bodiless]
  · simp only [hmember, List.filterMap_none]
  · exact ofBodyNode?_bind_eq_none (fun _ => rfl) fun _ => rfl

theorem filterMap_memberAnchor {α : Type} {A : Site → Option (String × Position)}
    {get : Member → Option α} {place : α → String × Position} (htype : ∀ t, A (.type t) = none)
    (hmember : ∀ m, A (.ofMember m) = (get m).map place) (hlocal : ∀ l, A (.local l) = none)
    (hcreation : ∀ x, A (.creation x) = none) (c : Compilation) :
    (declarations c).filterMap (A ·.site) =
      (c.types.flatMap fun t => t.members.filterMap get).map place := by
  rw [List.map_flatMap]
  refine filterMap_declarations c fun t => ?_
  rw [List.filterMap_cons_none (htype t),
    filterMap_sites_of_bodiless (ofBodyNode?_bind_eq_none hlocal hcreation)]
  simp only [hmember, List.map_filterMap]

theorem filterMap_methodAnchor? (c : Compilation) :
    (declarations c).filterMap (methodAnchor? ·.site) =
      (c.types.flatMap (·.methods)).map (·.identifierLocation.anchor) := by
  refine filterMap_memberAnchor (fun _ => rfl) ?_ (fun _ => rfl) (fun _ => rfl) c
  intro m
  cases m <;> rfl

theorem filterMap_fieldAnchor? (c : Compilation) :
    (declarations c).filterMap (fieldAnchor? ·.site) =
      (c.types.flatMap (·.fields)).map (·.location.anchor) := by
  refine filterMap_memberAnchor (fun _ => rfl) ?_ (fun _ => rfl) (fun _ => rfl) c
  intro m
  cases m <;> rfl

private theorem filterMap_localAnchor? (c : Compilation) :
    (declarations c).filterMap (localAnchor? ·.site) =
      (c.types.flatMap (·.locals)).map (·.location.anchor) := by
  rw [List.map_flatMap]
  refine filterMap_declarations c fun t => ?_
  have hmember : ∀ m, localAnchor? (.ofMember m) = none := by
    intro m
    cases m <;> rfl
  have hbody : ∀ n, (ofBodyNode? n).bind localAnchor? = n.local?.map (·.location.anchor) := by
    rintro ((l | _ | _) | (x | _ | _ | _ | _ | _)) <;> rfl
  rw [List.filterMap_cons_none rfl, List.filterMap_flatMap, TypeDeclaration.locals,
    List.map_flatMap]
  congr 1
  funext m
  rw [filterMap_memberSites, hmember]
  cases m.body? with
  | none => rfl
  | some b => simp [hbody, Block.locals, List.map_filterMap]

/-- A check never reports one place twice. -/
theorem nodup_anchorFor? {c : Compilation} (h : DistinctAnchors c) (check : String) :
    ((declarations c).filterMap (anchorFor? check ·.site)).Nodup := by
  unfold anchorFor?
  split_ifs
  · rw [filterMap_typeAnchor?]
    exact h.types
  · rw [filterMap_methodAnchor?]
    exact h.methods
  · rw [filterMap_fieldAnchor?]
    exact h.fields
  · rw [filterMap_localAnchor?]
    exact h.locals

end Site

theorem declarations_pairwise {c : Compilation} (h : DistinctAnchors c) :
    (declarations c).Pairwise fun a b => ∀ check x y, a.site.anchorFor? check = some x →
      b.site.anchorFor? check = some y → x ≠ y := by
  rw [List.pairwise_iff_forall_sublist]
  intro a b hab check x y hx hy
  have hnodup := Site.nodup_anchorFor? h check
  rw [List.Nodup, List.pairwise_filterMap, List.pairwise_iff_forall_sublist] at hnodup
  exact hnodup hab x hx y hy

namespace Judgement

theorem anchorFor?_focus {c : Compilation} {site : Site} {owner : Option TypeDeclaration}
    {j : Judgement} (hj : j ∈ judgements c site owner) :
    site.anchorFor? j.check = some site.focus.anchor := by
  refine judgements_cases
    (motive := fun site j => site.anchorFor? j.check = some site.focus.anchor) hj ?_ ?_ ?_ ?_ ?_ ?_
    ?_ ?_ ?_ ?_
  all_goals
    intros
    rfl

theorem checks_nodup (c : Compilation) (site : Site) (owner : Option TypeDeclaration) :
    (judgements c site owner).Pairwise (·.check ≠ ·.check) := by
  cases site with
  | type t => cases ht : t.isInterface <;> simp [judgements, ht, Check.name]
  | method m => cases owner <;> simp [judgements, Check.name]
  | _ => simp [judgements, Check.name]

theorem reported_pairwise (o : ReportOptions) (j : Judgement) {R : Finding → Finding → Prop} :
    (j.reported o).Pairwise R := by
  unfold reported findings
  split_ifs
  · split
    · exact List.pairwise_singleton _ _
    · exact .nil
  · exact .nil

/-- Judgements report different keys when they are about different checks or different places. -/
theorem order_ne_eq_of_mem_reported {c : Compilation} {o : ReportOptions} {site site' : Site}
    {owner owner' : Option TypeDeclaration} {j j' : Judgement} {x y : Finding}
    (hj : j ∈ judgements c site owner) (hj' : j' ∈ judgements c site' owner')
    (hx : x ∈ j.reported o) (hy : y ∈ j'.reported o)
    (h : j.check = j'.check → site.focus.anchor ≠ site'.focus.anchor) :
    Finding.order x y ≠ .eq := by
  obtain ⟨-, -, -, hxplace, hxeq⟩ := mem_reported_iff.mp hx
  obtain ⟨-, -, -, hyplace, hyeq⟩ := mem_reported_iff.mp hy
  have hxfocus := (placedAt_focus hj).eq_of_location hxplace
  have hyfocus := (placedAt_focus hj').eq_of_location hyplace
  intro hxy
  obtain ⟨hfile, hstart, -, hcheck⟩ := Finding.order_eq_eq_iff.mp hxy
  refine h ?_ ?_
  · rw [hxeq, hyeq] at hcheck
    exact hcheck
  · rw [← hxfocus, ← hyfocus, Location.anchor, Location.anchor, hfile, hstart]

end Judgement

namespace Host

/-- Findings about declarations in different places have different keys. -/
theorem reported_pairwise {c : Compilation} (h : DistinctAnchors c) (keep : Pattern → Bool)
    (o : ReportOptions) (parallel : Bool) :
    ((selected keep o parallel).reported c).Pairwise fun x y => Finding.order x y ≠ .eq := by
  rw [reported_selected, List.pairwise_flatMap]
  constructor
  · intro item _
    rw [List.pairwise_flatMap]
    refine ⟨fun j _ => j.reported_pairwise o, ?_⟩
    have hchecks := (Judgement.checks_nodup c item.site item.owner).filter (keep ·.pattern)
    refine hchecks.imp_of_mem fun {j j'} hj hj' hne x hx y hy => ?_
    have hj := (List.mem_filter.mp hj).1
    have hj' := (List.mem_filter.mp hj').1
    exact Judgement.order_ne_eq_of_mem_reported hj hj' hx hy fun heq => absurd heq hne
  · refine (declarations_pairwise h).imp fun {a b} hapart x hx y hy => ?_
    obtain ⟨j, hj, hx⟩ := List.mem_flatMap.mp hx
    obtain ⟨j', hj', hy⟩ := List.mem_flatMap.mp hy
    have hj := (List.mem_filter.mp hj).1
    have hj' := (List.mem_filter.mp hj').1
    refine Judgement.order_ne_eq_of_mem_reported hj hj' hx hy fun hcheck => ?_
    refine hapart j.check _ _ (Judgement.anchorFor?_focus hj) ?_
    rw [hcheck]
    exact Judgement.anchorFor?_focus hj'

/-- When declarations have different places, a report does not depend on the order in which the
findings arrive, and it is strictly increasing. -/
theorem run_findings_eq_of_arrival {σ : Type} (c : Compilation) (h : DistinctAnchors c)
    (keep : Pattern → Bool) (o : ReportOptions) (parallel : Bool) (signal : Signal σ) (s : σ)
    (hrun : ((selected keep o parallel).run c signal s).1.cancelled = false)
    (arrived : List Finding)
    (harrived : arrived.Perm ((selected keep o parallel).pass c signal s
      (workItems c (selected keep o parallel).subscribed)).1.findings) :
    (FindingBag.mk arrived).sorted = ((selected keep o parallel).run c signal s).1.findings ∧
      ((selected keep o parallel).run c signal s).1.findings.Pairwise
        (fun x y => Finding.order x y = .lt) ∧
      ((selected keep o parallel).run c signal s).1.findings.Nodup := by
  obtain ⟨hpass, hfindings⟩ := run_findings _ c signal s hrun
  have hkeys := reported_pairwise h keep o parallel
  have hincreasing := FindingBag.sorted_pairwise_lt hkeys
  rw [hpass] at harrived
  rw [hfindings]
  exact ⟨(FindingBag.sorted_eq_of_perm harrived.symm hkeys).symm, hincreasing,
    Finding.nodup_of_increasing hincreasing⟩

/-- Two singletons whose findings arrive in the opposite order. -/
theorem run_findings_eq_of_arrival_solo :
    (FindingBag.mk ((selected (fun _ => true) .standard true).reported
      (.ofTrees [soloTree "b.cs", soloTree "a.cs"] true)).reverse).sorted =
        ((selected (fun _ => true) .standard true).run
          (.ofTrees [soloTree "b.cs", soloTree "a.cs"] true) .script []).1.findings := by
  refine (run_findings_eq_of_arrival (.ofTrees [soloTree "b.cs", soloTree "a.cs"] true) ?_
    (fun _ => true) .standard true .script [] (run_script_nil _ _) _ ?_).1
  · constructor <;> decide
  · rw [(run_findings _ _ .script [] (run_script_nil _ _)).1]
    exact List.reverse_perm _

end Host

end PatternFinder
