import Mathlib.Data.List.Nodup
import PatternFinder.Proofs.TomlValues

/-! The sections of a document are read back: each header opens a table, and the lines under it fill
it. -/
namespace PatternFinder.Toml

namespace Draft

variable {key : String} {entries : Entries}

theorem alter_of_not_mem (h : key ∉ entries.map Prod.fst) (change : Option Draft → Option Draft) :
    alter key change entries = (change none).map fun item => entries ++ [(key, item)] := by
  induction entries with
  | nil => rfl
  | cons entry entries ih =>
    obtain ⟨k, other⟩ := entry
    rw [List.map_cons, List.mem_cons, not_or] at h
    rw [alter, if_neg (by simpa using Ne.symm h.1), ih h.2, Option.map_map]
    rfl

theorem alter_append (h : key ∉ entries.map Prod.fst) (change : Option Draft → Option Draft)
    (item : Draft) : alter key change (entries ++ [(key, item)]) =
      (change (some item)).map fun item => entries ++ [(key, item)] := by
  induction entries with
  | nil =>
    rw [List.nil_append, alter, if_pos (by simp)]
    rfl
  | cons entry entries ih =>
    obtain ⟨k, other⟩ := entry
    rw [List.map_cons, List.mem_cons, not_or] at h
    rw [List.cons_append, alter, if_neg (by simpa using Ne.symm h.1), ih h.2, Option.map_map]
    rfl

theorem under_append (outer path : List String) (change : Entries → Option Entries) :
    under (outer ++ path) change = under outer (under path change) := by
  induction outer with
  | nil => rfl
  | cons key outer ih => rw [List.cons_append, under, under, ih]

/-- A header leads to the entries that `around` has in their place. -/
def Leads (path : List String) (around : Entries → Entries) : Prop :=
  ∀ change entries, under path change (around entries) = (change entries).map around

theorem leads_nil : Leads [] id := by
  intro change entries
  rw [under, Option.map_id]
  rfl

/-- The table that a header opens is behind the entries that are there. -/
theorem Leads.table {outer : List String} {around : Entries → Entries} (h : Leads outer around)
    (hkey : key ∉ entries.map Prod.fst) (origin : Origin) :
    Leads (outer ++ [key]) fun inner => around (entries ++ [(key, .table origin inner)]) := by
  intro change inner
  rw [under_append, h, under, alter_append hkey, under, Option.map_map, Option.map_map]
  rfl

theorem Leads.openTable_eq {outer : List String} {around : Entries → Entries}
    (h : Leads outer around) (hkey : key ∉ entries.map Prod.fst) :
    openTable (outer ++ [key]) (around entries) =
      some (around (entries ++ [(key, .table .header [])])) := by
  rw [openTable, List.dropLast_concat, List.getLast?_concat, Option.getD_some, h,
    alter_of_not_mem hkey]
  rfl

theorem Leads.insert_eq {path : List String} {around : Entries → Entries} (h : Leads path around)
    (hkey : key ∉ entries.map Prod.fst) (v : Toml) :
    under path (insert v [key]) (around entries) =
      some (around (entries ++ [(key, .value v)])) := by
  rw [h, insert, alter_of_not_mem hkey]
  rfl

/-- Values as they are kept while their table is read. -/
def ofValues (entries : List (String × Toml)) : Entries :=
  entries.map fun (key, v) => (key, .value v)

theorem map_fst_ofValues (entries : List (String × Toml)) :
    (ofValues entries).map Prod.fst = entries.map Prod.fst := by
  simp [ofValues, Function.comp_def]

theorem closeEntries_append (front back : Entries) :
    closeEntries (front ++ back) = closeEntries front ++ closeEntries back := by
  induction front with
  | nil => rfl
  | cons entry front ih => exact congrArg (_ :: ·) ih

theorem closeEntries_ofValues (entries : List (String × Toml)) :
    closeEntries (ofValues entries) = entries := by
  induction entries with
  | nil => rfl
  | cons entry entries ih => exact congrArg (entry :: ·) ih

end Draft

/-- The values of a section, each under a key of its own. -/
structure IsSection (entries : List (String × Toml)) : Prop where
  values : ∀ entry ∈ entries, IsSetting entry.2
  keys : (entries.map Prod.fst).Nodup

/-- The text of a section: the header of a table, and a line for each of its values. -/
def headed (path : List String) (entries : List (String × Toml)) : String :=
  String.join ((("[" ++ String.intercalate "." (path.map keyText) ++ "]") :: pairTexts entries).map
    (· ++ "\n"))

/-- With steps enough for their characters, the lines are read to these tables. -/
def ReadsTo (p : Progress) (cs : List Char) (result : Draft.Entries) : Prop :=
  ∀ fuel, cs.length < fuel → lines? fuel p cs = some result

namespace ReadsTo

variable {p : Progress} {rest : List Char} {root result : Draft.Entries}

theorem nil (p : Progress) : ReadsTo p [] p.root := by
  intro fuel hfuel
  obtain ⟨fuel, rfl⟩ := Nat.exists_eq_add_of_lt hfuel
  rfl

theorem blank (h : ReadsTo p rest result) : ReadsTo p ('\n' :: rest) result := by
  intro fuel hfuel
  cases fuel with
  | zero => cases hfuel
  | succ fuel => exact h fuel (Nat.lt_of_succ_lt_succ hfuel)

private theorem exists_startsKey_path {path : List String} (hne : path ≠ []) :
    ∃ c tail, (String.intercalate "." (path.map keyText)).toList = c :: tail ∧ StartsKey c := by
  obtain ⟨key, others, rfl⟩ := List.exists_cons_of_ne_nil hne
  obtain ⟨c, tail, htext, hc⟩ := exists_startsKey key
  cases others with
  | nil => exact ⟨c, tail, by simpa using htext, hc⟩
  | cons next others =>
    rw [List.map_cons, List.map_cons, String.intercalate_cons_cons, String.toList_append,
      String.toList_append, htext]
    exact ⟨c, _, rfl, hc⟩

theorem header {path : List String} (hne : path ≠ []) (hlength : path.length ≤ maxNesting)
    (hroot : Draft.openTable path p.root = some root) (h : ReadsTo ⟨root, path⟩ rest result) :
    ReadsTo p (("[" ++ String.intercalate "." (path.map keyText) ++ "]" ++ "\n").toList ++ rest)
      result := by
  intro fuel hfuel
  have hchars : ("[" ++ String.intercalate "." (path.map keyText) ++ "]" ++ "\n").toList ++ rest =
      '[' :: ((String.intercalate "." (path.map keyText)).toList ++ ']' :: '\n' :: rest) := by
    simp
  rw [hchars] at hfuel ⊢
  cases fuel with
  | zero => cases hfuel
  | succ fuel =>
    have hrest : rest.length < fuel := by
      simp only [List.length_cons, List.length_append] at hfuel
      omega
    have hpath := keyPath?_header hne hlength ('\n' :: rest)
    obtain ⟨c, tail, htext, hc⟩ := exists_startsKey_path hne
    have hbracket := hc.ne (show ¬ StartsKey '[' by decide)
    rw [htext, List.cons_append] at hpath ⊢
    rw [lines?]
    split
    case h_1 heq => cases heq
    case h_2 heq =>
      have heq : '[' :: c :: (tail ++ ']' :: '\n' :: rest) = _ := heq
      exact absurd (List.cons.inj (List.cons.inj heq).2).1 hbracket
    case h_3 heq =>
      obtain rfl := (List.cons.inj heq).2
      have hend : (expect [']'] (']' :: '\n' :: rest)).bind lineEnd? = some rest := rfl
      simp only [hpath, hend, hroot, Option.bind_eq_bind, Option.bind_some]
      exact h fuel hrest
    case h_4 htable => exact absurd rfl (htable _)

theorem pair {key : String} {v : Toml} (hv : IsSetting v)
    (hroot : Draft.under p.current (Draft.insert v [key]) p.root = some root)
    (h : ReadsTo ⟨root, p.current⟩ rest result) :
    ReadsTo p ((keyText key ++ " = " ++ valueText v ++ "\n").toList ++ rest) result := by
  intro fuel hfuel
  have hchars : (keyText key ++ " = " ++ valueText v ++ "\n").toList ++ rest =
      (keyText key ++ " = " ++ valueText v).toList ++ '\n' :: rest := by
    simp
  have hpair := pair?_pairText hv key rest
  obtain ⟨c, tail, htext, hc⟩ : ∃ c tail,
      (keyText key ++ " = " ++ valueText v).toList = c :: tail ∧ StartsKey c := by
    obtain ⟨c, tail, htext, hc⟩ := exists_startsKey key
    exact ⟨c, tail ++ (" = " ++ valueText v).toList, by simp [htext], hc⟩
  rw [hchars, htext, List.cons_append] at hfuel ⊢
  rw [htext, List.cons_append] at hpair
  cases fuel with
  | zero => cases hfuel
  | succ fuel =>
    have hrest : rest.length < fuel := by
      simp only [List.length_cons, List.length_append] at hfuel
      omega
    have hbracket := hc.ne (show ¬ StartsKey '[' by decide)
    rw [lines?, hc.dropGap_eq]
    split
    case h_1 heq => cases heq
    case h_2 heq => exact absurd (List.cons.inj heq).1 hbracket
    case h_3 heq => exact absurd (List.cons.inj heq).1 hbracket
    case h_4 =>
      rw [hc.lineEnd?_eq]
      have hend : lineEnd? ('\n' :: rest) = some rest := rfl
      simp only [hpair, hend, hroot, Option.bind_eq_bind, Option.bind_some]
      exact h fuel hrest

/-- The lines of a section put its values into the table one after the other. -/
theorem pairs {path : List String} {around : Draft.Entries → Draft.Entries}
    (hpath : Draft.Leads path around) {entries done : List (String × Toml)}
    (hvalues : ∀ entry ∈ entries, IsSetting entry.2)
    (hkeys : ((done ++ entries).map Prod.fst).Nodup)
    (h : ReadsTo ⟨around (Draft.ofValues (done ++ entries)), path⟩ rest result) :
    ReadsTo ⟨around (Draft.ofValues done), path⟩
      ((String.join ((pairTexts entries).map (· ++ "\n"))).toList ++ rest) result := by
  induction entries generalizing done with
  | nil =>
    rw [List.append_nil] at h
    simpa [pairTexts] using h
  | cons entry entries ih =>
    obtain ⟨key, v⟩ := entry
    obtain ⟨hv, hvalues⟩ := List.forall_mem_cons.mp hvalues
    have hkey : key ∉ (Draft.ofValues done).map Prod.fst := by
      rw [Draft.map_fst_ofValues]
      rw [List.map_append, List.map_cons] at hkeys
      exact fun hmem => List.disjoint_of_nodup_append hkeys hmem List.mem_cons_self
    have hinsert := hpath.insert_eq hkey v
    have hdone : Draft.ofValues done ++ [(key, .value v)] =
        Draft.ofValues (done ++ [(key, v)]) := by
      simp [Draft.ofValues]
    rw [hdone] at hinsert
    rw [pairTexts, List.map_cons, String.join_cons, String.toList_append, List.append_assoc]
    rw [List.append_cons] at h hkeys
    exact pair hv hinsert (ih hvalues hkeys h)

/-- A section adds a table with its values behind what is there. -/
theorem headed {outer : List String} {around : Draft.Entries → Draft.Entries}
    (houter : Draft.Leads outer around) (hlength : outer.length < maxNesting) {key : String}
    {before : Draft.Entries} (hkey : key ∉ before.map Prod.fst) {entries : List (String × Toml)}
    (hentries : IsSection entries) {current : List String}
    (h : ReadsTo ⟨around (before ++ [(key, .table .header (Draft.ofValues entries))]),
      outer ++ [key]⟩ rest result) :
    ReadsTo ⟨around before, current⟩ ((Toml.headed (outer ++ [key]) entries).toList ++ rest)
      result := by
  have hopen := houter.openTable_eq hkey
  have hkeys : (([] ++ entries).map Prod.fst).Nodup := hentries.keys
  have hlines := pairs (houter.table hkey .header) hentries.values hkeys h
  rw [Toml.headed, List.map_cons, String.join_cons, String.toList_append, List.append_assoc]
  refine header (by simp) ?_ hopen hlines
  rw [List.length_append, List.length_singleton]
  omega

end ReadsTo

/-! ## The sections of a table -/

theorem IsSetting.isTable_eq {v : Toml} (h : IsSetting v) : isTable v = false := by
  cases h <;> rfl

theorem IsSetting.sections_eq {v : Toml} (h : IsSetting v) (path : List String) :
    sections path v = [] := by
  cases h <;> simp [sections, ofNat, ofStrings]

section Sections

variable {path : List String} {entries inner : List (String × Toml)}

theorem entrySections_append (path : List String) (front back : List (String × Toml)) :
    entrySections path (front ++ back) = entrySections path front ++ entrySections path back := by
  induction front with
  | nil => simp [entrySections]
  | cons entry front ih => simp [entrySections, ih]

theorem entrySections_of_values (hvalues : ∀ entry ∈ entries, IsSetting entry.2)
    (path : List String) : entrySections path entries = [] := by
  induction entries with
  | nil => simp [entrySections]
  | cons entry entries ih =>
    obtain ⟨hv, hvalues⟩ := List.forall_mem_cons.mp hvalues
    rw [entrySections, hv.sections_eq, ih hvalues]
    rfl

theorem filter_of_values (hvalues : ∀ entry ∈ entries, IsSetting entry.2) :
    entries.filter (!isTable ·.2) = entries := by
  refine List.filter_eq_self.mpr fun entry hentry => ?_
  simp [(hvalues entry hentry).isTable_eq]

private theorem pairTexts_eq_nil_iff : pairTexts entries = [] ↔ entries = [] := by
  cases entries <;> simp [pairTexts]

/-- The values of a table are under its header, unless it holds only other tables. -/
theorem sectionText_eq {values : List (String × Toml)} (hpath : path ≠ [])
    (hfilter : entries.filter (!isTable ·.2) = values) (h : values = [] → entries = []) :
    sectionText path entries = [headed path values] := by
  rw [sectionText, hfilter]
  by_cases hnil : values = []
  · simp [hpath, hnil, h hnil, headed, pairTexts]
  · simp [hpath, hnil, headed, pairTexts_eq_nil_iff]

/-- A table of values is one section. -/
theorem IsSection.sections_eq (h : IsSection entries) (hpath : path ≠ []) :
    sections path (.table entries) = [headed path entries] := by
  rw [sections, entrySections_of_values h.values,
    sectionText_eq hpath (filter_of_values h.values) id]
  rfl

/-- A table of values that ends with another such table is two sections. -/
theorem IsSection.sections_nested (h : IsSection entries) (hne : entries ≠ [])
    (hinner : IsSection inner) (hpath : path ≠ []) (key : String) :
    sections path (.table (entries ++ [(key, .table inner)])) =
      [headed path entries, headed (path ++ [key]) inner] := by
  have hfilter : (entries ++ [(key, Toml.table inner)]).filter (!isTable ·.2) = entries := by
    rw [List.filter_append, filter_of_values h.values]
    simp [isTable]
  have hnested : sections (path ++ [key]) (.table inner) = [headed (path ++ [key]) inner] :=
    hinner.sections_eq (by simp)
  rw [sections, sectionText_eq hpath hfilter fun h => absurd h hne, entrySections_append,
    entrySections_of_values h.values, entrySections, hnested, entrySections]
  rfl

/-- Tables that stand in no other have no header above them. -/
theorem sections_of_tables (h : ∀ entry ∈ entries, isTable entry.2 = true) :
    sections [] (.table entries) = entrySections [] entries := by
  have hfilter : entries.filter (!isTable ·.2) = [] := by
    refine List.filter_eq_nil_iff.mpr fun entry hentry => ?_
    simp [h entry hentry]
  rw [sections, sectionText, hfilter]
  simp [pairTexts]

end Sections

theorem head?_headed (path : List String) (entries : List (String × Toml)) :
    (headed path entries).toList.head? = some '[' := by
  rw [headed, List.map_cons, String.join_cons]
  simp

/-- A document is what its lines are read to. -/
theorem ReadsTo.read?_eq {text : String} {result : Draft.Entries}
    (h : ReadsTo ⟨[], []⟩ text.toList result) (hhead : text.toList.head? = some '[') :
    read? text = some (.table (Draft.closeEntries result)) := by
  have hlines := h (text.toList.length + 1) (Nat.lt_succ_self _)
  unfold read?
  split
  case h_1 heq =>
    rw [heq] at hhead
    cases hhead
  case h_2 =>
    dsimp only
    rw [hlines]
    rfl

end PatternFinder.Toml
