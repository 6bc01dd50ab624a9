import PatternFinder.Proofs.FindingOrder
import PatternFinder.Proofs.Judgement

/-! A report holds exactly the judgements that are matches. -/
namespace PatternFinder

/-- A declaration of a compilation and the type that it belongs to: a type, a member of a type, or a
declaration of local variables anywhere in the body of a member. -/
inductive Declared (c : Compilation) : Site → Option TypeDeclaration → Prop
  | type {t : TypeDeclaration} (ht : t ∈ c.types) : Declared c (.type t) none
  | member {t : TypeDeclaration} {m : Member} (ht : t ∈ c.types) (hm : m ∈ t.members) :
    Declared c (.ofMember m) (some t)
  | local {t : TypeDeclaration} {m : Member} {b : Block} {l : LocalDeclaration} (ht : t ∈ c.types)
    (hm : m ∈ t.members) (hb : m.body? = some b) (hl : l ∈ b.locals) :
    Declared c (.local l) (some t)

theorem mem_types_iff {c : Compilation} {t : TypeDeclaration} :
    t ∈ c.types ↔ ∃ tree ∈ c.trees, t ∈ tree.types := List.mem_flatMap

theorem mem_declarations_iff {c : Compilation} {item : WorkItem} :
    item ∈ declarations c ↔ ∃ tree ∈ c.trees, ∃ t ∈ tree.types,
      item = ⟨tree, .type t, none⟩ ∨
        ∃ m ∈ t.members, ∃ s ∈ memberSites m, item = ⟨tree, s, some t⟩ := by
  simp only [declarations, typeItems, List.mem_flatMap, List.mem_cons, List.mem_map]
  constructor
  · rintro ⟨tree, htree, t, ht, rfl | ⟨s, ⟨m, hm, hs⟩, rfl⟩⟩
    · exact ⟨tree, htree, t, ht, .inl rfl⟩
    · exact ⟨tree, htree, t, ht, .inr ⟨m, hm, s, hs, rfl⟩⟩
  · rintro ⟨tree, htree, t, ht, rfl | ⟨m, hm, s, hs, rfl⟩⟩
    · exact ⟨tree, htree, t, ht, .inl rfl⟩
    · exact ⟨tree, htree, t, ht, .inr ⟨s, ⟨m, hm, hs⟩, rfl⟩⟩

theorem ofBodyNode?_eq_some_iff {n : BodyNode} {s : Site} :
    Site.ofBodyNode? n = some s ↔ (∃ l, n.local? = some l ∧ s = .local l) ∨
      ∃ x, n.creation? = some x ∧ s = .creation x := by
  rcases n with (l | _ | _) | (x | _ | _ | _ | _ | _) <;>
    simp [Site.ofBodyNode?, BodyNode.local?, BodyNode.creation?, eq_comm]

theorem mem_memberSites_iff {m : Member} {s : Site} :
    s ∈ memberSites m ↔ s = .ofMember m ∨ ∃ b, m.body? = some b ∧
      ((∃ l ∈ b.locals, s = .local l) ∨ ∃ x ∈ b.creations, s = .creation x) := by
  unfold memberSites
  rw [List.mem_cons]
  refine or_congr_right ?_
  cases hb : m.body? with
  | none => simp
  | some b =>
    simp only [Block.locals, Block.creations, List.mem_filterMap, ofBodyNode?_eq_some_iff,
      Option.some.injEq, exists_eq_left']
    constructor
    · rintro ⟨n, hn, ⟨l, hl, rfl⟩ | ⟨x, hx, rfl⟩⟩
      · exact .inl ⟨l, ⟨n, hn, hl⟩, rfl⟩
      · exact .inr ⟨x, ⟨n, hn, hx⟩, rfl⟩
    · rintro (⟨l, ⟨n, hn, hl⟩, rfl⟩ | ⟨x, ⟨n, hn, hx⟩, rfl⟩)
      · exact ⟨n, hn, .inl ⟨l, hl, rfl⟩⟩
      · exact ⟨n, hn, .inr ⟨x, hx, rfl⟩⟩

theorem exists_item_of_site {c : Compilation} {t : TypeDeclaration} {m : Member} {s : Site}
    (ht : t ∈ c.types) (hm : m ∈ t.members) (hs : s ∈ memberSites m) :
    ∃ item ∈ declarations c, item.site = s ∧ item.owner = some t := by
  obtain ⟨tree, htree, ht⟩ := mem_types_iff.mp ht
  refine ⟨⟨tree, s, some t⟩, mem_declarations_iff.mpr ?_, rfl, rfl⟩
  exact ⟨tree, htree, t, ht, .inr ⟨m, hm, s, hs, rfl⟩⟩

/-- Every declaration is visited, and apart from constructions nothing else is. -/
theorem exists_item_iff_declared {c : Compilation} {s : Site} {owner : Option TypeDeclaration}
    (hs : ∀ x, s ≠ .creation x) :
    (∃ item ∈ declarations c, item.site = s ∧ item.owner = owner) ↔ Declared c s owner := by
  constructor
  · rintro ⟨item, hitem, rfl, rfl⟩
    obtain ⟨tree, htree, t, ht, rfl | ⟨m, hm, s, hmem, rfl⟩⟩ := mem_declarations_iff.mp hitem
    · exact .type (mem_types_iff.mpr ⟨tree, htree, ht⟩)
    · have ht := mem_types_iff.mpr ⟨tree, htree, ht⟩
      obtain rfl | ⟨b, hb, ⟨l, hl, rfl⟩ | ⟨x, -, rfl⟩⟩ := mem_memberSites_iff.mp hmem
      · exact .member ht hm
      · exact .local ht hm hb hl
      · exact absurd rfl (hs x)
  · intro h
    cases h with
    | type ht =>
      obtain ⟨tree, htree, ht⟩ := mem_types_iff.mp ht
      exact ⟨_, mem_declarations_iff.mpr ⟨tree, htree, _, ht, .inl rfl⟩, rfl, rfl⟩
    | member ht hm => exact exists_item_of_site ht hm (mem_memberSites_iff.mpr (.inl rfl))
    | «local» ht hm hb hl =>
      exact exists_item_of_site ht hm (mem_memberSites_iff.mpr (.inr ⟨_, hb, .inl ⟨_, hl, rfl⟩⟩))

namespace Host

/-- A finding is reported exactly when some judgement about some declaration is a match that the
choice of patterns and the options let through, and the finding is how that match is reported. No
match is lost for want of a place. -/
theorem mem_findings_iff_judged {σ : Type} (c : Compilation) (keep : Pattern → Bool)
    (o : ReportOptions) (parallel : Bool) (signal : Signal σ) (s : σ)
    (hrun : ((selected keep o parallel).run c signal s).1.cancelled = false) :
    (∀ f, f ∈ ((selected keep o parallel).run c signal s).1.findings ↔
      ∃ site owner, Declared c site owner ∧ ∃ j ∈ judgements c site owner,
        keep j.pattern = true ∧ (o.severityFor j.pattern).atLeast o.minSeverity = true ∧
          (j.check ∈ Judgement.partialChecks → o.includePartial = true) ∧
            j.outcome.verdict = .found ∧ j.outcome.location = some f.location ∧
              f = j.finding o f.location j.outcome.evidence) ∧
      ∀ site owner, ∀ j ∈ judgements c site owner, j.outcome.verdict = .found →
        j.outcome.location.isSome = true := by
  obtain ⟨-, hfindings⟩ := run_findings _ c signal s hrun
  refine ⟨fun f => ?_, ?_⟩
  · rw [hfindings, FindingBag.mem_sorted, reported_selected]
    simp only [List.mem_flatMap, List.mem_filter, Judgement.mem_reported_iff]
    constructor
    · rintro ⟨item, hitem, j, ⟨hj, hkeep⟩, hrest⟩
      have hs : ∀ x, item.site ≠ .creation x := by
        intro x hx
        rw [hx] at hj
        simp [judgements] at hj
      have hd := (exists_item_iff_declared hs).mp ⟨item, hitem, rfl, rfl⟩
      exact ⟨_, _, hd, j, hj, hkeep, hrest⟩
    · rintro ⟨site, owner, hd, j, hj, hkeep, hrest⟩
      have hs : ∀ x, site ≠ .creation x := by
        rintro x rfl
        simp [judgements] at hj
      obtain ⟨item, hitem, rfl, rfl⟩ := (exists_item_iff_declared hs).mpr hd
      exact ⟨item, hitem, j, ⟨hj, hkeep⟩, hrest⟩
  · intro site owner j hj hverdict
    rw [(Judgement.placedAt_focus hj).location_of_found hverdict]
    rfl

/-- The finding about a singleton. -/
theorem mem_findings_iff_judged_solo :
    Judgement.finding .standard
        ⟨.singleton, "Singleton", "Solo", Singleton.verdict (soloType "a.cs")⟩
        (soloType "a.cs").identifierLocation none ∈
      ((selected (fun _ => true) .standard true).run
        (.ofTrees [soloTree "a.cs"] true) .script []).1.findings := by
  have hjudged := (mem_findings_iff_judged (.ofTrees [soloTree "a.cs"] true) (fun _ => true)
    .standard true .script [] (run_script_nil _ _)).1
  refine (hjudged _).mpr ⟨.type (soloType "a.cs"), none, .type (List.mem_singleton.mpr rfl), ?_⟩
  exact ⟨_, List.mem_cons_self, rfl, by decide, fun _ => rfl, by decide, by decide, rfl⟩

end Host

end PatternFinder
