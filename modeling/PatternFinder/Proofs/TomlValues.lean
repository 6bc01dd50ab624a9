import PatternFinder.Proofs.QuotedStrings
import PatternFinder.Toml.Reader

/-! Keys and values are read back from their text in a document. -/
namespace PatternFinder.Toml

/-- What follows does not go on with such a character. -/
def Stops (p : Char → Bool) (rest : List Char) : Prop := ∀ c ∈ rest.head?, p c = false

section Stops

variable {p : Char → Bool} {cs rest : List Char}

theorem Stops.takeWhile_eq (h : Stops p rest) : rest.takeWhile p = [] := by
  cases rest with
  | nil => rfl
  | cons c rest => exact List.takeWhile_cons_of_neg (by simp [h c rfl])

theorem Stops.takeWhile_append (h : Stops p rest) (hcs : ∀ c ∈ cs, p c = true) :
    (cs ++ rest).takeWhile p = cs := by
  rw [List.takeWhile_append_of_pos hcs, h.takeWhile_eq, List.append_nil]

end Stops

/-! ## Truth values and numbers -/

namespace Scalar

theorem read?_of_token {token rest : List Char} {v : Toml}
    (htoken : ∀ c ∈ token, isTokenChar c = true) (hrest : Stops isTokenChar rest)
    (hdate : Datetime.date? token = none) (hv : ofToken? token = some v) :
    read? (token ++ rest) = some (v, rest) := by
  simp [read?, hrest.takeWhile_append htoken, hdate, hv]

theorem isTokenChar_of_boolean (b : Bool) :
    ∀ c ∈ (valueText (.boolean b)).toList, isTokenChar c = true := by
  refine List.all_eq_true.mp ?_
  cases b <;> rfl

theorem read?_boolean (b : Bool) {rest : List Char} (hrest : Stops isTokenChar rest) :
    read? ((valueText (.boolean b)).toList ++ rest) = some (.boolean b, rest) := by
  have htoken := isTokenChar_of_boolean b
  cases b with
  | true => exact read?_of_token htoken hrest rfl rfl
  | false => exact read?_of_token htoken hrest rfl rfl

/-- A date has a hyphen. -/
theorem date?_of_isDigit {cs : List Char} (h : ∀ c ∈ cs, c.isDigit = true) :
    Datetime.date? cs = none := by
  have hexpect : Datetime.expect '-' (cs.drop 4) = none := by
    cases hrest : cs.drop 4 with
    | nil => rfl
    | cons c rest =>
      have hdigit := h c (List.mem_of_mem_drop (hrest ▸ List.mem_cons_self))
      have hne : '-' ≠ c := by
        rintro rfl
        cases hdigit
      simp [Datetime.expect, hne]
  have hfield : ∀ n rest, Datetime.field 4 0 9999 cs = some (n, rest) → rest = cs.drop 4 := by
    intro n rest h
    unfold Datetime.field at h
    dsimp only at h
    split_ifs at h
    obtain ⟨m, -, h⟩ := Option.bind_eq_some_iff.mp h
    split_ifs at h
    exact (Prod.mk.inj (Option.some.inj h)).2.symm
  unfold Datetime.date?
  cases hyear : Datetime.field 4 0 9999 cs with
  | none => rfl
  | some result =>
    obtain ⟨year, rest⟩ := result
    obtain rfl := hfield year rest hyear
    simp [hexpect]

theorem isTokenChar_of_isDigit {c : Char} (h : c.isDigit = true) : isTokenChar c = true := by
  simp [isTokenChar, Char.isAlphanum, h]

/-- Decimal digits are a number, unless a zero stands in front of others. -/
theorem integer?_of_isDigit {cs : List Char} {n : Nat} (h : ∀ c ∈ cs, c.isDigit = true)
    (hne : cs ≠ []) (hzero : cs.head? = some '0' → cs.length = 1)
    (hn : Text.readDigits? 10 cs = some n) (hword : IsWord n) : integer? cs = some (n : Int) := by
  have hnot : ∀ c, c.isDigit = false → c ∉ cs := by
    intro c hc hmem
    rw [h c hmem] at hc
    cases hc
  have hsplit : Text.splitList (· == '_') cs = [cs] := by
    refine Text.splitList_of_forall fun c hc => ?_
    exact beq_false_of_ne (ne_of_mem_of_not_mem hc (hnot '_' (by decide)))
  have hdigits : digits? Char.isDigit cs = some cs := by
    simpa [digits?, hsplit, hne] using h
  have hdecimal : decimal? cs = some cs := by
    simpa [decimal?, hdigits] using hzero
  have hsign : sign cs = (false, cs) := by
    unfold sign
    split
    case h_1 => exact absurd List.mem_cons_self (hnot '+' (by decide))
    case h_2 => exact absurd List.mem_cons_self (hnot '-' (by decide))
    case h_3 => rfl
  unfold integer?
  split
  case h_1 => exact absurd (List.mem_cons_of_mem _ List.mem_cons_self) (hnot 'x' (by decide))
  case h_2 => exact absurd (List.mem_cons_of_mem _ List.mem_cons_self) (hnot 'o' (by decide))
  case h_3 => exact absurd (List.mem_cons_of_mem _ List.mem_cons_self) (hnot 'b' (by decide))
  case h_4 => simp [hsign, hdecimal, hn, signed, Option.filter, hword]

theorem toList_ofNat (n : Nat) : (valueText (ofNat n)).toList = Nat.toDigits 10 n :=
  Nat.toList_repr

theorem isDigit_of_mem_toDigits {n : Nat} {c : Char} (h : c ∈ Nat.toDigits 10 n) :
    c.isDigit = true :=
  Nat.isDigit_of_mem_toDigits (by decide) (by decide) h

theorem read?_ofNat {n : Nat} (hword : IsWord n) {rest : List Char}
    (hrest : Stops isTokenChar rest) :
    read? ((valueText (ofNat n)).toList ++ rest) = some (ofNat n, rest) := by
  have hdigit : ∀ c ∈ Nat.toDigits 10 n, c.isDigit = true := fun c => isDigit_of_mem_toDigits
  have hzero : (Nat.toDigits 10 n).head? = some '0' → (Nat.toDigits 10 n).length = 1 := by
    intro hhead
    cases n with
    | zero => rfl
    | succ n => exact absurd hhead (Text.head?_toDigits (Nat.succ_pos n))
  have hinteger := integer?_of_isDigit hdigit Nat.toDigits_ne_nil hzero
    (Text.readDigits?_toDigits n) hword
  have htoken : ofToken? (Nat.toDigits 10 n) = some (ofNat n) := by
    unfold ofToken?
    split
    case h_1 heq => exact absurd (hdigit 't' (by simp [heq])) (by decide)
    case h_2 heq => exact absurd (hdigit 'f' (by simp [heq])) (by decide)
    case h_3 =>
      rw [hinteger]
      rfl
  rw [toList_ofNat]
  exact read?_of_token (fun c hc => isTokenChar_of_isDigit (hdigit c hc)) hrest
    (date?_of_isDigit hdigit) htoken

end Scalar

/-! ## Values -/

/-- What can stand behind a value: the end of its line, a comma, or the end of an array. -/
def Ends (rest : List Char) : Prop := ∀ c ∈ rest.head?, c = '\n' ∨ c = ',' ∨ c = ']'

namespace Ends

variable {rest : List Char}

theorem cons {c : Char} (h : c = '\n' ∨ c = ',' ∨ c = ']') (rest : List Char) :
    Ends (c :: rest) := by
  intro d hd
  obtain rfl := Option.some.inj hd
  exact h

theorem stops (h : Ends rest) : Stops Scalar.isTokenChar rest := by
  intro c hc
  rcases h c hc with rfl | rfl | rfl <;> rfl

theorem head?_ne (h : Ends rest) {quote : Char} (hquote : quote = '"' ∨ quote = '\x27') :
    rest.head? ≠ some quote := by
  intro hhead
  have hends := h quote hhead
  rcases hquote with rfl | rfl <;> simp at hends

end Ends

theorem exists_quote (s : String) :
    ∃ quote tail, (stringText s).toList = quote :: tail ∧ (quote = '"' ∨ quote = '\x27') := by
  have hstyle : ∀ style : QuoteStyle, ∃ quote tail, style.quotes.toList = quote :: tail ∧
      (quote = '"' ∨ quote = '\x27') := by
    intro style
    cases style with
    | basic => exact ⟨_, _, rfl, .inl rfl⟩
    | literal => exact ⟨_, _, rfl, .inr rfl⟩
    | longBasic => exact ⟨_, _, rfl, .inl rfl⟩
    | longLiteral => exact ⟨_, _, rfl, .inr rfl⟩
  obtain ⟨quote, tail, hquotes, hquote⟩ := hstyle (valueStyle s.toList)
  simp only [stringText, quoteAs, String.toList_append, hquotes, List.cons_append]
  exact ⟨quote, _, rfl, hquote⟩

theorem value?_eq_plainValue? {c : Char} (hbracket : c ≠ '[') (hbrace : c ≠ '\x7b')
    (levels : Nat) (cs : List Char) : value? levels (c :: cs) = plainValue? (c :: cs) := by
  cases levels with
  | zero => rfl
  | succ levels =>
    unfold value?
    split <;> simp_all

theorem value?_string (levels : Nat) (s : String) {rest : List Char} (hrest : Ends rest) :
    value? levels ((stringText s).toList ++ rest) = some (.string s, rest) := by
  have hread := Quoted.read?_stringText s (hrest.head?_ne (.inl rfl)) (hrest.head?_ne (.inr rfl))
  obtain ⟨quote, tail, htext, hquote⟩ := exists_quote s
  rw [htext, List.cons_append] at hread ⊢
  rcases hquote with rfl | rfl
  · rw [value?_eq_plainValue? (by decide) (by decide), plainValue?, hread]
    rfl
  · rw [value?_eq_plainValue? (by decide) (by decide), plainValue?, hread]
    rfl

theorem value?_of_scalar {token rest : List Char} {v : Toml} (hne : token ≠ [])
    (htoken : ∀ c ∈ token, Scalar.isTokenChar c = true)
    (h : Scalar.read? (token ++ rest) = some (v, rest)) (levels : Nat) :
    value? levels (token ++ rest) = some (v, rest) := by
  obtain ⟨c, cs, rfl⟩ := List.exists_cons_of_ne_nil hne
  have hne : ∀ d, Scalar.isTokenChar d = false → c ≠ d := by
    rintro d hd rfl
    rw [htoken c List.mem_cons_self] at hd
    cases hd
  rw [List.cons_append] at h ⊢
  rw [value?_eq_plainValue? (hne '[' (by decide)) (hne '\x7b' (by decide)), ← h]
  unfold plainValue?
  split
  case h_1 heq => exact absurd (List.cons.inj heq).1 (hne '"' (by decide))
  case h_2 heq => exact absurd (List.cons.inj heq).1 (hne '\x27' (by decide))
  case h_3 => rfl

theorem skipLines_stringText (s : String) (rest : List Char) :
    skipLines false ((stringText s).toList ++ rest) = (stringText s).toList ++ rest := by
  obtain ⟨quote, tail, htext, hquote⟩ := exists_quote s
  rw [htext, List.cons_append]
  rcases hquote with rfl | rfl <;> rfl

section Items

variable {value : Reads Toml} {item : Toml} {fuel : Nat} {c : Char}
  {cs text behind rest : List Char}

/-- An item with a comma behind it. -/
theorem items?_of_comma (hcs : skipLines false cs = c :: text) (hc : c ≠ ']')
    (hvalue : value (c :: text) = some (item, behind))
    (hbehind : skipLines false behind = ',' :: rest) :
    items? value (fuel + 1) cs =
      (items? value fuel rest).map fun (items, rest) => (item :: items, rest) := by
  rw [items?]
  split
  case h_1 heq =>
    rw [hcs] at heq
    exact absurd (List.cons.inj heq).1 hc
  case h_2 =>
    rw [hcs, hvalue]
    simp only [Option.bind_eq_bind, Option.bind_some, hbehind]
    cases items? value fuel rest <;> rfl

/-- The last item, with the closing bracket behind it. -/
theorem items?_of_bracket (hcs : skipLines false cs = c :: text) (hc : c ≠ ']')
    (hvalue : value (c :: text) = some (item, behind))
    (hbehind : skipLines false behind = ']' :: rest) :
    items? value (fuel + 1) cs = some ([item], rest) := by
  rw [items?]
  split
  case h_1 heq =>
    rw [hcs] at heq
    exact absurd (List.cons.inj heq).1 hc
  case h_2 =>
    rw [hcs, hvalue]
    simp only [Option.bind_eq_bind, Option.bind_some, hbehind]

end Items

/-- Items on a line each. -/
theorem items?_lines (levels : Nat) (rest : List Char) {ss : List String} {fuel : Nat}
    (hfuel : ss.length < fuel) :
    items? (value? levels) fuel ((ss.flatMap fun s => ("\n    " ++ stringText s ++ ",").toList) ++
      '\n' :: ']' :: rest) = some (ss.map .string, rest) := by
  induction ss generalizing fuel with
  | nil =>
    obtain ⟨fuel, rfl⟩ := Nat.exists_eq_add_of_lt hfuel
    rfl
  | cons s ss ih =>
    cases fuel with
    | zero => simp at hfuel
    | succ fuel =>
      have htail := ih (Nat.lt_of_succ_lt_succ hfuel)
      obtain ⟨quote, tail, htext, hquote⟩ := exists_quote s
      have hne : quote ≠ ']' := by rcases hquote with rfl | rfl <;> decide
      rw [List.flatMap_cons, List.append_assoc]
      generalize (ss.flatMap fun s => ("\n    " ++ stringText s ++ ",").toList) ++
        '\n' :: ']' :: rest = others at htail ⊢
      have hskip : skipLines false (("\n    " ++ stringText s ++ ",").toList ++ others) =
          (stringText s).toList ++ ',' :: others := by
        rw [← skipLines_stringText s (',' :: others)]
        simp [skipLines, Quoted.isGap]
      have hvalue := value?_string levels s (.cons (.inr (.inl rfl)) others)
      rw [htext, List.cons_append] at hskip hvalue
      rw [items?_of_comma hskip hne hvalue rfl, htail]
      rfl

theorem length_le_lines (ss : List String) :
    ss.length ≤ (ss.flatMap fun s => ("\n    " ++ stringText s ++ ",").toList).length := by
  induction ss with
  | nil => simp
  | cons s ss ih =>
    rw [List.flatMap_cons, List.length_append, List.length_cons, String.toList_append,
      List.length_append]
    simp only [String.reduceToList, List.length_singleton]
    omega

theorem itemTexts_strings (ss : List String) : itemTexts (ss.map .string) = ss.map stringText := by
  induction ss with
  | nil => simp [itemTexts]
  | cons s ss ih => simp [itemTexts, valueText, ih]

theorem value?_strings (levels : Nat) (ss : List String) (rest : List Char) :
    value? (levels + 1) ((valueText (ofStrings ss)).toList ++ rest) =
      some (ofStrings ss, rest) := by
  have harray : ∀ cs : List Char, items? (value? levels) cs.length cs =
      some (ss.map .string, rest) →
      value? (levels + 1) ('[' :: cs) = some (ofStrings ss, rest) := by
    intro cs h
    rw [value?, h]
    rfl
  rw [ofStrings, valueText, itemTexts_strings, ← ofStrings]
  rcases ss with _ | ⟨s, _ | ⟨t, ss⟩⟩
  · exact harray (']' :: rest) rfl
  · obtain ⟨quote, tail, htext, hquote⟩ := exists_quote s
    have hne : quote ≠ ']' := by rcases hquote with rfl | rfl <;> decide
    have hskip := skipLines_stringText s (']' :: rest)
    have hvalue := value?_string levels s (.cons (.inr (.inr rfl)) rest)
    have hchars : (arrayText [stringText s]).toList ++ rest =
        '[' :: ((stringText s).toList ++ ']' :: rest) := by
      simp [arrayText]
    rw [List.map_singleton, hchars]
    refine harray _ ?_
    rw [htext, List.cons_append] at hskip hvalue ⊢
    exact items?_of_bracket hskip hne hvalue rfl
  · have hchars : (arrayText ((s :: t :: ss).map stringText)).toList ++ rest =
        '[' :: (((s :: t :: ss).flatMap fun s => ("\n    " ++ stringText s ++ ",").toList) ++
          '\n' :: ']' :: rest) := by
      simp [arrayText, List.flatMap_map]
    rw [hchars]
    refine harray _ (items?_lines levels rest ?_)
    have hlength := length_le_lines (s :: t :: ss)
    simp only [List.length_append, List.length_cons] at hlength ⊢
    omega

/-- The values of settings: strings, numbers, truth values and lists of strings. -/
inductive IsSetting : Toml → Prop
  | string (s : String) : IsSetting (.string s)
  | number {n : Nat} (h : IsWord n) : IsSetting (ofNat n)
  | boolean (b : Bool) : IsSetting (.boolean b)
  | strings (ss : List String) : IsSetting (ofStrings ss)

theorem value?_valueText {v : Toml} (h : IsSetting v) (levels : Nat) {rest : List Char}
    (hrest : Ends rest) :
    value? (levels + 1) ((valueText v).toList ++ rest) = some (v, rest) := by
  cases h with
  | string s => exact value?_string _ s hrest
  | @number n hword =>
    refine value?_of_scalar ?_ ?_ (Scalar.read?_ofNat hword hrest.stops) _
    · rw [Scalar.toList_ofNat]
      exact Nat.toDigits_ne_nil
    · rw [Scalar.toList_ofNat]
      exact fun c hc => Scalar.isTokenChar_of_isDigit (Scalar.isDigit_of_mem_toDigits hc)
  | boolean b =>
    refine value?_of_scalar ?_ (Scalar.isTokenChar_of_boolean b)
      (Scalar.read?_boolean b hrest.stops) _
    cases b <;> decide
  | strings ss => exact value?_strings levels ss rest

/-! ## Keys -/

private theorem keyPart?_of_quote {quote : Char} {tail : List Char}
    (hquote : isBareKeyChar quote = false) :
    keyPart? (quote :: tail) = Quoted.readShort? (quote :: tail) := by
  simp [keyPart?, hquote]

theorem keyPart?_keyText (key : String) {rest : List Char} (hrest : Stops isBareKeyChar rest) :
    keyPart? ((keyText key).toList ++ rest) = some (key, rest) := by
  have hquoted : ∀ style tail quote, isBareKeyChar quote = false →
      (quoteAs style key.toList).toList = quote :: tail →
      Quoted.readShort? ((quoteAs style key.toList).toList ++ rest) =
        some (String.ofList key.toList, rest) →
      keyPart? ((quoteAs style key.toList).toList ++ rest) = some (key, rest) := by
    intro style tail quote hquote htext hread
    rw [htext, List.cons_append] at hread ⊢
    rw [keyPart?_of_quote hquote, hread, String.ofList_toList]
  have hbasic := hquoted .basic _ _ (by decide) (Quoted.toList_basic _)
    (Quoted.readShort?_basic _ _)
  unfold keyText
  dsimp only
  simp only [Bool.and_eq_true, Bool.not_eq_true', List.contains_eq_mem, decide_eq_false_iff_not,
    List.all_eq_true]
  split_ifs with hbare hplain hliteral
  · have htake : (key.toList ++ rest).takeWhile isBareKeyChar = key.toList :=
      hrest.takeWhile_append hbare.2
    simp [keyPart?, htake, hbare.1]
  · exact hbasic
  · have hneither : ∀ c ∈ key.toList, needsEscape c = false ∧ c ≠ '\n' := by
      simpa using hliteral.1
    have hescape : key.toList.any needsEscape = false :=
      List.any_eq_false.mpr fun c hc => by simp [(hneither c hc).1]
    have hline : '\n' ∉ key.toList := fun h => (hneither _ h).2 rfl
    exact hquoted .literal _ _ (by decide) (Quoted.toList_literal _)
      (Quoted.readShort?_literal hescape hline hliteral.2 rest)
  · exact hbasic

/-- The characters with which a key can start. -/
def StartsKey (c : Char) : Prop := isBareKeyChar c = true ∨ c = '"' ∨ c = '\x27'

instance (c : Char) : Decidable (StartsKey c) := inferInstanceAs (Decidable (_ ∨ _ ∨ _))

theorem exists_startsKey (key : String) :
    ∃ c tail, (keyText key).toList = c :: tail ∧ StartsKey c := by
  have hbasic : ∃ c tail, (quoteAs .basic key.toList).toList = c :: tail ∧ StartsKey c :=
    ⟨_, _, Quoted.toList_basic _, .inr (.inl rfl)⟩
  unfold keyText
  dsimp only
  split_ifs with hbare
  · simp only [Bool.and_eq_true, Bool.not_eq_true', List.all_eq_true, List.isEmpty_eq_false_iff]
      at hbare
    obtain ⟨c, tail, hkey⟩ := List.exists_cons_of_ne_nil hbare.1
    exact ⟨c, tail, hkey, .inl (hbare.2 c (by simp [hkey]))⟩
  · exact hbasic
  · exact ⟨_, _, Quoted.toList_literal _, .inr (.inr rfl)⟩
  · exact hbasic

theorem StartsKey.ne {c d : Char} (h : StartsKey c) (hd : ¬ StartsKey d) : c ≠ d :=
  fun heq => hd (heq ▸ h)

theorem StartsKey.dropGap_eq {c : Char} (h : StartsKey c) (cs : List Char) :
    dropGap (c :: cs) = c :: cs := by
  have hgap : Quoted.isGap c = false := by
    simp [Quoted.isGap, h.ne (show ¬ StartsKey ' ' by decide),
      h.ne (show ¬ StartsKey '\t' by decide)]
  rw [dropGap, List.dropWhile_cons_of_neg (by simp [hgap])]

theorem dropGap_keyText (key : String) (rest : List Char) :
    dropGap ((keyText key).toList ++ rest) = (keyText key).toList ++ rest := by
  obtain ⟨c, tail, htext, hc⟩ := exists_startsKey key
  rw [htext, List.cons_append, hc.dropGap_eq]

/-- A line with a key is not blank. -/
theorem StartsKey.lineEnd?_eq {c : Char} (h : StartsKey c) (cs : List Char) :
    lineEnd? (c :: cs) = none := by
  have hcomment := h.ne (show ¬ StartsKey '#' by decide)
  have hline := h.ne (show ¬ StartsKey '\n' by decide)
  have hreturn := h.ne (show ¬ StartsKey '\r' by decide)
  have hnewline : Quoted.newline? (c :: cs) = none := by
    unfold Quoted.newline?
    split <;> simp_all
  unfold lineEnd?
  rw [h.dropGap_eq]
  split
  case h_1 heq => exact absurd (List.cons.inj heq).1 hcomment
  case h_2 => simp [hnewline]

theorem keyPath?_last (parts : Nat) (key : String) {rest behind : List Char}
    (hrest : Stops isBareKeyChar rest) (hbehind : dropGap rest = behind)
    (hdot : behind.head? ≠ some '.') :
    keyPath? (parts + 1) ((keyText key).toList ++ rest) = some ([key], behind) := by
  rw [keyPath?, dropGap_keyText, keyPart?_keyText key hrest, Option.bind_eq_bind,
    Option.bind_some]
  dsimp only
  rw [hbehind]
  split <;> simp_all

private theorem keyPath?_dot (parts : Nat) (key : String) (rest : List Char) :
    keyPath? (parts + 1) ((keyText key).toList ++ '.' :: rest) =
      (keyPath? parts rest).map fun (path, rest) => (key :: path, rest) := by
  have hrest : Stops isBareKeyChar ('.' :: rest) := by
    intro c hc
    obtain rfl := Option.some.inj hc
    rfl
  have hdot : dropGap ('.' :: rest) = '.' :: rest := rfl
  rw [keyPath?, dropGap_keyText, keyPart?_keyText key hrest, Option.bind_eq_bind,
    Option.bind_some]
  simp only [hdot]
  cases keyPath? parts rest <;> rfl

/-- The keys of a header are read back up to its closing bracket. -/
theorem keyPath?_header {path : List String} {parts : Nat} (hne : path ≠ [])
    (hparts : path.length ≤ parts) (rest : List Char) :
    keyPath? parts ((String.intercalate "." (path.map keyText)).toList ++ ']' :: rest) =
      some (path, ']' :: rest) := by
  induction path generalizing parts with
  | nil => exact absurd rfl hne
  | cons key path ih =>
    obtain ⟨parts, rfl⟩ : ∃ n, parts = n + 1 := ⟨parts - 1, by simp at hparts; omega⟩
    cases path with
    | nil =>
      rw [List.map_singleton, String.intercalate_singleton]
      refine keyPath?_last parts key (fun c hc => ?_) rfl (by simp)
      obtain rfl := Option.some.inj hc
      rfl
    | cons next path =>
      have htail := ih (List.cons_ne_nil next path) (Nat.le_of_succ_le_succ hparts)
      rw [List.map_cons, List.map_cons, String.intercalate_cons_cons, ← List.map_cons]
      simp only [String.toList_append, List.append_assoc]
      rw [show ".".toList = ['.'] from rfl, List.singleton_append, keyPath?_dot, htail]
      rfl

theorem IsSetting.dropGap_valueText {v : Toml} (h : IsSetting v) (rest : List Char) :
    dropGap ((valueText v).toList ++ rest) = (valueText v).toList ++ rest := by
  obtain ⟨c, tail, htext, hgap⟩ :
      ∃ c tail, (valueText v).toList = c :: tail ∧ Quoted.isGap c = false := by
    cases h with
    | string s =>
      obtain ⟨quote, tail, htext, hquote⟩ := exists_quote s
      exact ⟨quote, tail, htext, by rcases hquote with rfl | rfl <;> rfl⟩
    | @number n hword =>
      rw [Scalar.toList_ofNat]
      obtain ⟨c, tail, htext⟩ := List.exists_cons_of_ne_nil (Nat.toDigits_ne_nil (n := n) (b := 10))
      have hdigit := Scalar.isDigit_of_mem_toDigits (htext ▸ List.mem_cons_self)
      refine ⟨c, tail, htext, ?_⟩
      cases hgap : Quoted.isGap c with
      | false => rfl
      | true =>
        rcases (by simpa [Quoted.isGap] using hgap : c = ' ' ∨ c = '\t') with rfl | rfl <;>
          cases hdigit
    | boolean b => cases b <;> exact ⟨_, _, rfl, rfl⟩
    | strings ss =>
      rw [ofStrings, valueText, itemTexts_strings]
      rcases ss with _ | ⟨s, _ | ⟨t, ss⟩⟩
      · exact ⟨_, _, rfl, rfl⟩
      · refine ⟨'[', (stringText s).toList ++ [']'], ?_, rfl⟩
        simp [arrayText]
      · simp [arrayText, Quoted.isGap]
  rw [htext, List.cons_append, dropGap, List.dropWhile_cons_of_neg (by simp [hgap])]

/-- A line with a key and a value. -/
theorem pair?_pairText {v : Toml} (hv : IsSetting v) (key : String) (rest : List Char) :
    pair? (value? maxNesting) ((keyText key ++ " = " ++ valueText v).toList ++ '\n' :: rest) =
      some ([key], v, '\n' :: rest) := by
  have hchars : (keyText key ++ " = " ++ valueText v).toList ++ '\n' :: rest =
      (keyText key).toList ++ ' ' :: '=' :: ' ' :: ((valueText v).toList ++ '\n' :: rest) := by
    simp
  have hkey : keyPath? maxNesting ((keyText key).toList ++
      ' ' :: '=' :: ' ' :: ((valueText v).toList ++ '\n' :: rest)) =
      some ([key], '=' :: ' ' :: ((valueText v).toList ++ '\n' :: rest)) := by
    refine keyPath?_last 78 key (fun c hc => ?_) rfl (by simp)
    obtain rfl := Option.some.inj hc
    rfl
  have hgap : dropGap (' ' :: ((valueText v).toList ++ '\n' :: rest)) =
      (valueText v).toList ++ '\n' :: rest := hv.dropGap_valueText ('\n' :: rest)
  have hvalue := value?_valueText hv 78 (.cons (.inl rfl) rest)
  rw [hchars, pair?, hkey, Option.bind_eq_bind, Option.bind_some]
  simp [expect, hgap, hvalue, maxNesting]

end PatternFinder.Toml
