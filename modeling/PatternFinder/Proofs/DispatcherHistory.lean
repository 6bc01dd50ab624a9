import PatternFinder.Proofs.Support

/-! What a dispatcher keeps of the checks that were bound to it and run before. -/
namespace PatternFinder

/-- A match has a place, and nothing else has one. -/
def Outcome.Located (o : Outcome) : Prop := o.location.isSome = true ↔ o.verdict = .found

namespace Outcome

theorem PlacedAt.located {l : Location} {o : Outcome} (h : o.PlacedAt l) : o.Located := by
  rcases h with ⟨hfound, hplace⟩ | ⟨hfound, hplace⟩
  · simp [Located, hfound, hplace]
  · simp [Located, hfound, hplace]

theorem located_found (l : Location) (evidence : Option String) : (found l evidence).Located :=
  (placedAt_found l evidence).located

theorem located_notFound : notFound.Located := by simp [Located, notFound]

/-- To keep the place of a match only is to keep the place. -/
theorem Located.location_of_matched {o : Outcome} (h : o.Located) :
    (if o.matched then o.location else none) = o.location := by
  split_ifs with hmatched
  · rfl
  · have hnone : ¬ o.location.isSome = true := fun hsome => hmatched (matched_iff.mpr (h.mp hsome))
    exact (Option.not_isSome_iff_eq_none.mp hnone).symm

end Outcome

/-- Every check gives a place exactly when it matches. -/
theorem Check.evaluate_located (c : Compilation) (check : Check) :
    (check.evaluate c).Located := by
  cases check with
  | isAbstractFactoryMethod m => exact (FactoryMethod.isAbstractFactoryMethod_placedAt m).located
  | overridesAbstractFactoryMethod m =>
    exact (FactoryMethod.overridesAbstractFactoryMethod_placedAt m).located
  | isProductInterface t => exact (FactoryMethod.isProductInterface_placedAt t c).located
  | isConcreteProduct t => exact (FactoryMethod.isConcreteProduct_placedAt t c).located
  | declarationWithFactoryMethod l =>
    exact (FactoryMethod.declarationWithFactoryMethod_placedAt l c).located
  | wrapsInStatement l => exact (Decorator.wrapsInStatement_placedAt l).located
  | hasCollection f => exact (Flyweight.hasCollection_placedAt f c).located
  | hasGetMethod m context => exact (Flyweight.hasGetMethod_placedAt m context).located
  | _ =>
    -- the others look for something, and say nothing but that they found it or did not
    simp only [evaluate, Singleton.hasPrivateConstructor, Singleton.hasPrivateStaticSelfField,
      Singleton.hasGetInstanceSelfMethod, Decorator.hasAbstractClass, Decorator.hasPrivateField,
      Decorator.hasConstructor]
    repeat' split
    all_goals first | exact Outcome.located_found _ _ | exact Outcome.located_notFound

namespace Dispatcher

/-- Something that is done with a dispatcher. -/
inductive Operation where
  | bind (check : Check)
  | run (c : Compilation)

def step (d : Dispatcher) : Operation → Dispatcher
  | .bind check => d.bind check
  | .run c => (d.run c).2

/-- The dispatcher after some operations. -/
def after (d : Dispatcher) (history : List Operation) : Dispatcher := history.foldl step d

/-- The dispatcher on which a check was bound and then run. -/
def told (check : Check) (c : Compilation) : Dispatcher :=
  ⟨some check, (check.evaluate c).location, some (check.evaluate c)⟩

/-- A run overwrites all that it does not read, and it reads the bound check only. -/
theorem run_of_bound {d : Dispatcher} {check : Check} (h : d.bound = some check)
    (c : Compilation) : d.run c = ((check.evaluate c).matched, told check c) := by
  have hplace := (check.evaluate_located c).location_of_matched
  simp only [run, h, told, hplace]

private theorem bound_run (d : Dispatcher) (c : Compilation) : (d.run c).2.bound = d.bound := by
  cases h : d.bound with
  | none => simp only [run, h]
  | some check => rw [run_of_bound h, told]

theorem bound_after_runs (d : Dispatcher) (views : List Compilation) :
    (d.after (views.map .run)).bound = d.bound := by
  induction views generalizing d with
  | nil => rfl
  | cons c views ih => exact (ih (d.run c).2).trans (bound_run d c)

theorem idle_after_runs (views : List Compilation) : idle.after (views.map .run) = idle := by
  induction views with
  | nil => rfl
  | cons c views ih => exact ih

/-- What a dispatcher remembers is what its bound check said of some compilation. -/
structure Coherent (d : Dispatcher) : Prop where
  last : ∀ o, d.last = some o → ∃ check c, d.bound = some check ∧ o = check.evaluate c
  location : d.location = d.last.bind (·.location)

private theorem coherent_told (check : Check) (c : Compilation) : (told check c).Coherent := by
  refine ⟨fun o ho => ?_, rfl⟩
  obtain rfl := Option.some.inj ho
  exact ⟨check, c, rfl, rfl⟩

theorem Coherent.step {d : Dispatcher} (h : d.Coherent) (op : Operation) :
    (d.step op).Coherent := by
  cases op with
  | bind check => exact ⟨nofun, rfl⟩
  | run c =>
    cases hbound : d.bound with
    | some check =>
      have hrun : d.step (.run c) = told check c := by rw [Dispatcher.step, run_of_bound hbound]
      rw [hrun]
      exact coherent_told check c
    | none =>
      -- no check was bound, so nothing was said and the run leaves nothing
      have hlast : d.last = none := by
        cases hlast : d.last with
        | none => rfl
        | some o =>
          obtain ⟨check, -, hcheck, -⟩ := h.last o hlast
          rw [hbound] at hcheck
          cases hcheck
      have hrun : d.step (.run c) = ⟨none, none, none⟩ := by
        simp only [Dispatcher.step, run, hbound, hlast]
      rw [hrun]
      exact ⟨nofun, rfl⟩

theorem coherent_after (history : List Operation) : (idle.after history).Coherent := by
  have hrun : ∀ d : Dispatcher, d.Coherent → (d.after history).Coherent := by
    induction history with
    | nil => exact fun d hd => hd
    | cons op history ih => exact fun d hd => ih (d.step op) (hd.step op)
  exact hrun idle ⟨nofun, rfl⟩

theorem Coherent.isSome_location_iff {d : Dispatcher} (h : d.Coherent) :
    d.location.isSome = true ↔ ∃ o, d.last = some o ∧ o.verdict = .found := by
  rw [h.location]
  cases hlast : d.last with
  | none => simp
  | some o =>
    obtain ⟨check, c, -, rfl⟩ := h.last o hlast
    simpa [Outcome.Located] using check.evaluate_located c

/-- A dispatcher carries nothing over. Until a check is bound, runs answer no and leave nothing
behind. Binding a check clears what was there. When a check was bound last and run since, all that
the dispatcher says is what a fresh one says on which the check was bound and run once, namely what
the check says of the last compilation. After any history there is a place exactly when the last
outcome is a match. -/
theorem nothing_carried_over (history : List Operation) (check : Check)
    (views : List Compilation) (c : Compilation) :
    (idle.after (views.map .run) = idle ∧ idle.run c = (false, idle) ∧ idle.location = none ∧
        idle.last = none ∧ idle.evidence? = none) ∧
      (((idle.after history).bind check).location = none ∧
        ((idle.after history).bind check).last = none) ∧
      (∃ d, (idle.after (history ++ .bind check :: views.map .run)).run c =
            ((check.evaluate c).matched, d) ∧
          (idle.bind check).run c = ((check.evaluate c).matched, d) ∧
          d.location = (check.evaluate c).location ∧ d.last = some (check.evaluate c) ∧
          d.evidence? = (check.evaluate c).evidence ∧ d.boundName? = some check.name ∧
          (d.location.isSome = true ↔ (check.evaluate c).verdict = .found)) ∧
      ((idle.after history).location.isSome = true ↔
        ∃ o, (idle.after history).last = some o ∧ o.verdict = .found) := by
  have hsplit : idle.after (history ++ .bind check :: views.map .run) =
      ((idle.after history).bind check).after (views.map .run) := by
    rw [after, List.foldl_append]
    rfl
  have hbound : (idle.after (history ++ .bind check :: views.map .run)).bound = some check := by
    rw [hsplit, bound_after_runs]
    rfl
  have hfresh : (idle.bind check).bound = some check := rfl
  refine ⟨⟨idle_after_runs views, rfl, rfl, rfl, rfl⟩, ⟨rfl, rfl⟩, ?_,
    (coherent_after history).isSome_location_iff⟩
  refine ⟨told check c, run_of_bound hbound c, run_of_bound hfresh c, rfl, rfl, rfl, rfl, ?_⟩
  exact check.evaluate_located c

end Dispatcher

end PatternFinder
