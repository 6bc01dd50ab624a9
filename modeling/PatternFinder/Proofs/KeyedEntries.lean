import Mathlib.Data.String.Basic
import PatternFinder.Config.File

/-! Entries that are ordered by key: what is found in them after an insertion, and after one list is
laid over another. The severity overrides that a document gives are such entries. -/
namespace PatternFinder

/-- Keys increase from entry to entry, so each of them occurs once. -/
def KeysIncrease (entries : List (String × String)) : Prop :=
  entries.Pairwise fun a b => a.1 < b.1

instance (entries : List (String × String)) : Decidable (KeysIncrease entries) :=
  inferInstanceAs (Decidable (List.Pairwise _ _))

variable {entries weak strong : List (String × String)} {key value : String}
  {entry : String × String}

theorem mem_of_mem_insertByKey (h : entry ∈ insertByKey key value entries) :
    entry = (key, value) ∨ entry ∈ entries := by
  induction entries with
  | nil => exact .inl (List.mem_singleton.mp h)
  | cons head rest ih =>
    obtain ⟨k, v⟩ := head
    rw [insertByKey] at h
    split_ifs at h with heq hlt
    · exact (List.mem_cons.mp h).imp_right (List.mem_cons_of_mem _)
    · exact List.mem_cons.mp h
    · rcases List.mem_cons.mp h with rfl | hrest
      · exact .inr List.mem_cons_self
      · exact (ih hrest).imp_right (List.mem_cons_of_mem _)

theorem mem_of_mem_overlay (h : entry ∈ overlay weak strong) : entry ∈ weak ∨ entry ∈ strong := by
  unfold overlay at h
  induction strong generalizing weak with
  | nil => exact .inl h
  | cons head rest ih =>
    rcases ih h with hinserted | hrest
    · rcases mem_of_mem_insertByKey hinserted with rfl | hweak
      · exact .inr List.mem_cons_self
      · exact .inl hweak
    · exact .inr (List.mem_cons_of_mem _ hrest)

theorem lookup_insertByKey (entries : List (String × String)) (key value k : String) :
    (insertByKey key value entries).lookup k =
      if k = key then some value else entries.lookup k := by
  induction entries with
  | nil => grind [insertByKey]
  | cons head rest ih =>
    obtain ⟨k', v⟩ := head
    rw [insertByKey]
    split_ifs with heq hlt <;> grind

namespace KeysIncrease

theorem insertByKey (h : KeysIncrease entries) (key value : String) :
    KeysIncrease (insertByKey key value entries) := by
  induction entries with
  | nil => exact List.pairwise_singleton _ _
  | cons head rest ih =>
    obtain ⟨k, v⟩ := head
    obtain ⟨hhead, hrest⟩ := List.pairwise_cons.mp h
    rw [PatternFinder.insertByKey]
    split_ifs with heq hlt
    · rw [eq_of_beq heq]
      exact List.pairwise_cons.mpr ⟨hhead, hrest⟩
    · refine List.pairwise_cons.mpr ⟨?_, h⟩
      intro entry hentry
      rcases List.mem_cons.mp hentry with rfl | hentry
      · exact hlt
      · exact lt_trans hlt (hhead entry hentry)
    · refine List.pairwise_cons.mpr ⟨?_, ih hrest⟩
      intro entry hentry
      rcases mem_of_mem_insertByKey hentry with rfl | hentry
      · have hne : k ≠ key := fun hk => heq (beq_iff_eq.mpr hk.symm)
        exact lt_of_le_of_ne (not_lt.mp hlt) hne
      · exact hhead entry hentry

theorem overlay (h : KeysIncrease weak) (strong : List (String × String)) :
    KeysIncrease (overlay weak strong) := by
  unfold PatternFinder.overlay
  induction strong generalizing weak with
  | nil => exact h
  | cons entry rest ih => exact ih (h.insertByKey _ _)

theorem nodup (h : KeysIncrease entries) : entries.Nodup := by
  refine List.Pairwise.imp ?_ h
  rintro a b hlt rfl
  exact lt_irrefl _ hlt

/-- The key of the first entry does not occur again. -/
theorem lookup_rest (h : KeysIncrease ((key, value) :: entries)) : entries.lookup key = none := by
  refine List.lookup_eq_none_iff.mpr fun entry hentry => ?_
  exact bne_iff_ne.mpr ((List.pairwise_cons.mp h).1 entry hentry).ne

/-- An entry is there exactly when it is what is found under its key. -/
theorem mem_iff (h : KeysIncrease entries) :
    (key, value) ∈ entries ↔ entries.lookup key = some value := by
  induction entries with
  | nil => simp
  | cons head rest ih =>
    obtain ⟨k, v⟩ := head
    rw [List.mem_cons, List.lookup_cons, ih (List.pairwise_cons.mp h).2]
    by_cases hk : key = k
    · subst hk
      simp [h.lookup_rest, eq_comm]
    · simp [hk, beq_eq_decide]

theorem eq_of_lookup (hweak : KeysIncrease weak) (hstrong : KeysIncrease strong)
    (h : ∀ k, weak.lookup k = strong.lookup k) : weak = strong := by
  have hmem : ∀ entry, entry ∈ weak ↔ entry ∈ strong := by
    rintro ⟨k, v⟩
    rw [hweak.mem_iff, hstrong.mem_iff, h]
  refine List.Perm.eq_of_pairwise ?_ hweak hstrong
    ((List.perm_ext_iff_of_nodup hweak.nodup hstrong.nodup).mpr hmem)
  intro a b _ _ hab hba
  exact absurd (lt_trans hab hba) (lt_irrefl _)

/-- The stronger list wins key by key. -/
theorem lookup_overlay (h : KeysIncrease strong) (weak : List (String × String)) (key : String) :
    (PatternFinder.overlay weak strong).lookup key = (strong.lookup key).or (weak.lookup key) := by
  unfold PatternFinder.overlay
  induction strong generalizing weak with
  | nil => rfl
  | cons entry rest ih =>
    obtain ⟨k, v⟩ := entry
    rw [List.foldl_cons, ih (List.pairwise_cons.mp h).2, lookup_insertByKey, List.lookup_cons]
    by_cases hk : key = k
    · subst hk
      simp [h.lookup_rest]
    · simp [hk, beq_eq_decide]

/-- Entries in order are left as they are. -/
theorem overlay_nil (h : KeysIncrease entries) : PatternFinder.overlay [] entries = entries := by
  have hnil : KeysIncrease [] := List.Pairwise.nil
  refine (hnil.overlay entries).eq_of_lookup h fun key => ?_
  rw [h.lookup_overlay, List.lookup_nil, Option.or_none]

/-- What is held after laying one list over another: all of the stronger one, and what the weaker
one has under other keys. -/
theorem mem_overlay_iff (hweak : KeysIncrease weak) (hstrong : KeysIncrease strong) :
    (key, value) ∈ PatternFinder.overlay weak strong ↔
      (key, value) ∈ strong ∨ (key, value) ∈ weak ∧ strong.lookup key = none := by
  rw [(hweak.overlay strong).mem_iff, hstrong.mem_iff, hweak.mem_iff, hstrong.lookup_overlay,
    Option.or_eq_some_iff, and_comm]

end KeysIncrease

/-- What holds of the default and of every value that is read holds of an optional field. -/
theorem Toml.of_optional? {α : Type} {P : α → Prop} {fields : List (String × Toml)} {key : String}
    {read : Toml → Option α} {result : Option α} (h : optional? fields key read = some result)
    (default : α) (hdefault : P default) (hread : ∀ v a, read v = some a → P a) :
    P (result.getD default) := by
  unfold optional? at h
  split at h
  · obtain rfl := Option.some.inj h
    exact hdefault
  · obtain ⟨a, ha, rfl⟩ := Option.map_eq_some_iff.mp h
    exact hread _ a ha

theorem PatternSettings.keysIncrease_of_overrides? {v : Toml} (h : overrides? v = some entries) :
    KeysIncrease entries := by
  simp only [overrides?, bind, Option.bind_eq_some_iff, Option.some.injEq] at h
  obtain ⟨fields, -, pairs, -, rfl⟩ := h
  exact KeysIncrease.overlay List.Pairwise.nil pairs

theorem PatternSettings.keysIncrease_of_ofToml? {v : Toml} {s : PatternSettings}
    (h : ofToml? v = some s) : KeysIncrease s.severityOverrides := by
  simp only [ofToml?, bind, Option.bind_eq_some_iff, Option.some.injEq] at h
  obtain ⟨fields, -, enabled, -, minSeverity, -, overrides, hoverrides, rfl⟩ := h
  exact Toml.of_optional? hoverrides [] List.Pairwise.nil fun v entries hentries =>
    keysIncrease_of_overrides? hentries

/-- However a document writes its overrides, they are read in the order of their keys. -/
theorem Settings.keysIncrease_of_ofText? {text : String} {s : Settings}
    (h : ofText? text = some s) : KeysIncrease s.patterns.severityOverrides := by
  obtain ⟨document, -, hread⟩ := Option.bind_eq_some_iff.mp h
  simp only [ofToml?, bind, Option.bind_eq_some_iff, Option.some.injEq] at hread
  obtain ⟨fields, -, scan, -, analysis, -, patterns, hpatterns, output, -, rfl⟩ := hread
  exact Toml.of_optional? (P := fun p : PatternSettings => KeysIncrease p.severityOverrides)
    hpatterns .unset List.Pairwise.nil fun v p hp => PatternSettings.keysIncrease_of_ofToml? hp

end PatternFinder
