import Mathlib.Tactic.SplitIfs
import PatternFinder.Toml.Printer
import PatternFinder.Toml.Quoted

/-! A string is read back from each form in which it is quoted, whatever follows it. -/
namespace PatternFinder.Toml.Quoted

/-- The steps through a string, the text that they gather, and what is behind the string. -/
inductive Steps (step : List Char → Option Step) : List Char → List Char → List Char → Prop
  | done {cs text rest : List Char} (h : step cs = some (.done text rest))
    (shorter : rest.length < cs.length) : Steps step cs text rest
  | more {cs piece next text rest : List Char} (h : step cs = some (.more piece next))
    (shorter : next.length < cs.length) (tail : Steps step next text rest) :
    Steps step cs (piece ++ text) rest

theorem Steps.cons {step : List Char → Option Step} {c : Char} {cs next text rest : List Char}
    (h : step cs = some (.more [c] next)) (shorter : next.length < cs.length)
    (tail : Steps step next text rest) : Steps step cs (c :: text) rest :=
  .more h shorter tail

/-- Every step takes a character at least, so there are no more steps than characters. -/
theorem Steps.run_eq {step : List Char → Option Step} {cs text rest : List Char} {fuel : Nat}
    (h : Steps step cs text rest) (hfuel : cs.length ≤ fuel) :
    run step fuel cs = some (text, rest) := by
  induction h generalizing fuel with
  | done h shorter =>
    cases fuel with
    | zero => omega
    | succ fuel => rw [run, h]
  | more h shorter _ ih =>
    cases fuel with
    | zero => omega
    | succ fuel =>
      rw [run, h]
      dsimp only
      rw [ih (by omega), Option.map_some]

theorem Steps.readBy_eq {step : List Char → Option Step} {cs text rest : List Char}
    (h : Steps step cs text rest) : readBy step cs = some (String.ofList text, rest) := by
  rw [readBy, h.run_eq (Nat.le_refl _), Option.map_some]

/-! ## Escapes -/

theorem scalar?_hexDigits : ∀ n < 128,
    scalar? ((Text.hexDigits 4 n).map Char.toUpper) = some (Char.ofNat n) := by decide

theorem toNat_lt_of_isControl {c : Char} (h : isControl c = true) : c.toNat < 128 := by
  simp only [isControl, Bool.or_eq_true, decide_eq_true_eq, beq_iff_eq] at h
  omega

/-- What follows the backslash reads as the character, and does not join lines. -/
def IsCode (code : List Char) (c : Char) : Prop :=
  ∀ rest, escape? (code ++ rest) = some (.more [c] rest) ∧ joined? (code ++ rest) = none

private theorem isCode_unicode {c : Char} (h : isControl c = true) :
    IsCode ('u' :: (Text.hexDigits 4 c.toNat).map Char.toUpper) c := by
  intro rest
  have hlength : ((Text.hexDigits 4 c.toNat).map Char.toUpper).length = 4 := by simp
  have hscalar := scalar?_hexDigits c.toNat (toNat_lt_of_isControl h)
  rw [Char.ofNat_toNat] at hscalar
  refine ⟨?_, rfl⟩
  rw [List.cons_append, escape?, if_neg (by rw [List.length_append]; omega),
    List.take_left' hlength, hscalar, List.drop_left' hlength, Option.map_some]

/-- A character is written as an escape, as a line end of a text on several lines, or as itself. -/
theorem escape_cases (long : Bool) (c : Char) :
    (∃ code, escape long c = '\\' :: code ∧ IsCode code c) ∨
      (escape long c = ['\n'] ∧ c = '\n' ∧ long = true) ∨
      (escape long c = [c] ∧ c ≠ '\\' ∧ isControl c = false) := by
  have hcode : ∀ {d : Char} {code : List Char}, (c == d) = true → IsCode code d →
      ∃ code', '\\' :: code = '\\' :: code' ∧ IsCode code' c := by
    intro d code hd h
    exact ⟨code, rfl, eq_of_beq hd ▸ h⟩
  unfold escape
  split_ifs with h₁ h₂ h₃ hlong h₄ h₅ h₆ hcontrol
  · exact .inl (hcode h₁ fun _ => ⟨rfl, rfl⟩)
  · exact .inl (hcode h₂ fun _ => ⟨rfl, rfl⟩)
  · exact .inr (.inl ⟨rfl, eq_of_beq h₃, hlong⟩)
  · exact .inl (hcode h₃ fun _ => ⟨rfl, rfl⟩)
  · exact .inl (hcode h₄ fun _ => ⟨rfl, rfl⟩)
  · exact .inl (hcode h₅ fun _ => ⟨rfl, rfl⟩)
  · exact .inl (hcode h₆ fun _ => ⟨rfl, rfl⟩)
  · exact .inl ⟨_, rfl, isCode_unicode hcontrol⟩
  · exact .inr (.inr ⟨rfl, by simpa using h₆, by simpa using hcontrol⟩)

theorem isPlain_of_not_control {c : Char} (h : isControl c = false) : isPlain c = true := by
  simp only [isControl, Bool.or_eq_false_iff, decide_eq_false_iff_not, Nat.not_lt,
    beq_eq_false_iff_ne] at h
  simp [isPlain, h]

/-! ## Strings on one line -/

theorem basicStep_of_isPlain {c : Char} {cs : List Char} (hquote : c ≠ '"') (hescape : c ≠ '\\')
    (h : isPlain c = true) : basicStep (c :: cs) = some (.more [c] cs) := by
  simp [basicStep, h]

theorem literalStep_of_isPlain {c : Char} {cs : List Char} (hquote : c ≠ '\x27')
    (h : isPlain c = true) : literalStep (c :: cs) = some (.more [c] cs) := by
  simp [literalStep, h]

theorem steps_basic (cs rest : List Char) (run : Nat) :
    Steps basicStep (escapeText false run cs ++ '"' :: rest) cs rest := by
  induction cs generalizing run with
  | nil => exact .done rfl (by simp [escapeText])
  | cons c cs ih =>
    by_cases hquote : c = '"'
    · subst hquote
      have htext : escapeText false run ('"' :: cs) = '\\' :: '"' :: escapeText false 0 cs := by
        simp [escapeText]
      rw [htext]
      exact .cons (by rfl) (by simp only [List.cons_append, List.length_cons]; omega) (ih 0)
    · have htext : escapeText false run (c :: cs) = escape false c ++ escapeText false 0 cs := by
        simp [escapeText, hquote]
      rw [htext, List.append_assoc]
      obtain ⟨code, hescape, hcode⟩ | ⟨-, -, hlong⟩ | ⟨hescape, hne, hcontrol⟩ :=
        escape_cases false c
      · rw [hescape, List.cons_append]
        have hstep := (hcode (escapeText false 0 cs ++ '"' :: rest)).1
        refine .cons (by rw [basicStep, hstep]) ?_ (ih 0)
        simp only [List.length_cons, List.length_append]
        omega
      · cases hlong
      · rw [hescape]
        exact .cons (basicStep_of_isPlain hquote hne (isPlain_of_not_control hcontrol)) (by simp)
          (ih 0)

theorem steps_literal {cs : List Char} (h : ∀ c ∈ cs, c ≠ '\x27' ∧ isPlain c = true)
    (rest : List Char) : Steps literalStep (cs ++ '\x27' :: rest) cs rest := by
  induction cs with
  | nil => exact .done rfl (by simp)
  | cons c cs ih =>
    obtain ⟨⟨hquote, hplain⟩, htail⟩ := List.forall_mem_cons.mp h
    exact .cons (literalStep_of_isPlain hquote hplain) (by simp) (ih htail)

/-! ## Strings on several lines -/

theorem newline?_of_isPlain {c : Char} (h : isPlain c = true) (cs : List Char) :
    newline? (c :: cs) = none := by
  unfold newline?
  split <;> simp_all [isPlain]

theorem plainOrNewline?_of_isPlain {c : Char} {cs : List Char} (h : isPlain c = true) :
    plainOrNewline? (c :: cs) = some (.more [c] cs) := by
  simp [plainOrNewline?, newline?_of_isPlain h, h]

theorem longBasicStep_of_ne {c : Char} {cs : List Char} (hescape : c ≠ '\\')
    (h : c = '"' → ∀ rest, cs ≠ '"' :: '"' :: rest) :
    longBasicStep (c :: cs) = plainOrNewline? (c :: cs) := by
  unfold longBasicStep
  split <;> simp_all

theorem longLiteralStep_of_ne {c : Char} {cs : List Char}
    (h : c = '\x27' → ∀ rest, cs ≠ '\x27' :: '\x27' :: rest) :
    longLiteralStep (c :: cs) = plainOrNewline? (c :: cs) := by
  unfold longLiteralStep
  split <;> simp_all

/-- Up to two quotes in front of the closing ones are text. -/
theorem closing_replicate {quote : Char} {rest : List Char} (hrest : rest.head? ≠ some quote)
    {count : Nat} (hcount : count ≤ 2) :
    closing quote (List.replicate count quote ++ rest) =
      .done (List.replicate count quote) rest := by
  have hrest : ∀ k, (rest.take k).takeWhile (· == quote) = [] := by
    intro k
    cases rest <;> cases k <;> simp_all
  obtain rfl | rfl | rfl : count = 0 ∨ count = 1 ∨ count = 2 := by omega
  · simp [closing, hrest]
  · simp [closing, hrest, List.replicate]
  · simp [closing, List.replicate]

theorem Steps.closing {step : List Char → Option Step} {quote : Char} {rest : List Char}
    {count : Nat} (hstep : ∀ cs, step (quote :: quote :: quote :: cs) = some (closing quote cs))
    (hrest : rest.head? ≠ some quote) (hcount : count ≤ 2) :
    Steps step (List.replicate (count + 3) quote ++ rest) (List.replicate count quote) rest := by
  refine .done ?_ (by simp)
  rw [← closing_replicate hrest hcount, ← hstep]
  rfl

/-- Escaping puts a backslash in front of a character or leaves it as it is. -/
theorem head_escapeText (long : Bool) (run : Nat) (c : Char) (cs : List Char) :
    ∃ d tail, escapeText long run (c :: cs) = d :: tail ∧
      (d = '\\' ∨ d = c ∧ (c = '"' → long = true ∧ run < 2) ∧ (c = '\n' ∨ isPlain c = true)) := by
  rw [escapeText]
  split_ifs with hquote hrun
  · obtain rfl := eq_of_beq hquote
    refine ⟨_, _, rfl, .inr ⟨rfl, fun _ => ?_, .inr (by decide)⟩⟩
    simpa using hrun
  · exact ⟨_, _, rfl, .inl rfl⟩
  · have hquote : c ≠ '"' := by simpa using hquote
    obtain ⟨code, hescape, -⟩ | ⟨hescape, rfl, -⟩ | ⟨hescape, -, hcontrol⟩ := escape_cases long c
    · rw [hescape]
      exact ⟨_, _, rfl, .inl rfl⟩
    · rw [hescape]
      exact ⟨_, _, rfl, .inr ⟨rfl, fun h => absurd h hquote, .inl rfl⟩⟩
    · rw [hescape]
      have hplain := isPlain_of_not_control hcontrol
      exact ⟨_, _, rfl, .inr ⟨rfl, fun h => absurd h hquote, .inr hplain⟩⟩

theorem head_escapeText_ne {long : Bool} {run : Nat} {c : Char}
    (h : c = '"' → long = true → 2 ≤ run) (cs rest tail : List Char) :
    escapeText long run (c :: cs) ++ rest ≠ '"' :: tail := by
  obtain ⟨d, written, hwritten, hd⟩ := head_escapeText long run c cs
  intro heq
  rw [hwritten] at heq
  obtain rfl := (List.cons.inj heq).1
  rcases hd with hd | ⟨rfl, hquote, -⟩
  · cases hd
  · obtain ⟨hlong, hrun⟩ := hquote rfl
    have := h rfl hlong
    omega

/-- Behind an open quote the text ends, ends with another quote, or goes on without two of them. -/
theorem ends_or_apart (run : Nat) (cs rest : List Char) :
    cs = [] ∨ (cs = ['"'] ∧ run = 0) ∨
      ∀ tail, escapeText true (run + 1) cs ++ rest ≠ '"' :: '"' :: tail := by
  rcases cs with _ | ⟨c, cs⟩
  · exact .inl rfl
  by_cases hc : c = '"' ∧ run = 0
  · obtain ⟨rfl, rfl⟩ := hc
    rcases cs with _ | ⟨d, cs⟩
    · exact .inr (.inl ⟨rfl, rfl⟩)
    · have hnext : escapeText true 1 ('"' :: d :: cs) = '"' :: escapeText true 2 (d :: cs) := by
        simp [escapeText]
      refine .inr (.inr fun tail h => ?_)
      rw [hnext] at h
      exact head_escapeText_ne (fun _ _ => Nat.le_refl 2) cs _ tail (List.cons.inj h).2
  · refine .inr (.inr fun tail h => ?_)
    refine head_escapeText_ne (fun hquote _ => ?_) cs _ _ h
    have hzero : run ≠ 0 := fun hzero => hc ⟨hquote, hzero⟩
    omega

theorem steps_longBasic {rest : List Char} (hrest : rest.head? ≠ some '"') (cs : List Char)
    (run : Nat) :
    Steps longBasicStep (escapeText true run cs ++ '"' :: '"' :: '"' :: rest) cs rest := by
  have hclosing : ∀ count ≤ 2, Steps longBasicStep
      (List.replicate (count + 3) '"' ++ rest) (List.replicate count '"') rest :=
    fun _ => .closing (fun _ => rfl) hrest
  induction cs generalizing run with
  | nil => exact hclosing 0 (by decide)
  | cons c cs ih =>
    by_cases hquote : c = '"'
    · subst hquote
      by_cases hrun : run < 2
      · have htext : escapeText true run ('"' :: cs) = '"' :: escapeText true (run + 1) cs := by
          simp [escapeText, hrun]
        rw [htext, List.cons_append]
        rcases ends_or_apart run cs ('"' :: '"' :: '"' :: rest) with rfl | ⟨rfl, rfl⟩ | hapart
        · exact hclosing 1 (by decide)
        · exact hclosing 2 (by decide)
        · refine .cons ?_ (by simp) (ih (run + 1))
          rw [longBasicStep_of_ne (by decide) fun _ => hapart]
          exact plainOrNewline?_of_isPlain (by decide)
      · have htext : escapeText true run ('"' :: cs) = '\\' :: '"' :: escapeText true 0 cs := by
          simp [escapeText, hrun]
        rw [htext]
        exact .cons (by rfl) (by simp only [List.cons_append, List.length_cons]; omega) (ih 0)
    · have htext : escapeText true run (c :: cs) = escape true c ++ escapeText true 0 cs := by
        simp [escapeText, hquote]
      rw [htext, List.append_assoc]
      obtain ⟨code, hescape, hcode⟩ | ⟨hescape, rfl, -⟩ | ⟨hescape, hne, hcontrol⟩ :=
        escape_cases true c
      · rw [hescape, List.cons_append]
        obtain ⟨hstep, hjoined⟩ :=
          hcode (escapeText true 0 cs ++ '"' :: '"' :: '"' :: rest)
        refine .cons (by rw [longBasicStep, hjoined]; exact hstep) ?_ (ih 0)
        simp only [List.length_cons, List.length_append]
        omega
      · rw [hescape]
        exact .cons rfl (by simp) (ih 0)
      · rw [hescape]
        refine .cons ?_ (by simp) (ih 0)
        rw [List.singleton_append, longBasicStep_of_ne hne fun h => absurd h hquote]
        exact plainOrNewline?_of_isPlain (isPlain_of_not_control hcontrol)

theorem steps_longLiteral {rest : List Char} (hrest : rest.head? ≠ some '\x27') {cs : List Char}
    (htext : ∀ c ∈ cs, c = '\n' ∨ isPlain c = true)
    (hquotes : ¬ ['\x27', '\x27', '\x27'] <:+: cs) :
    Steps longLiteralStep (cs ++ '\x27' :: '\x27' :: '\x27' :: rest) cs rest := by
  have hclosing : ∀ count ≤ 2, Steps longLiteralStep
      (List.replicate (count + 3) '\x27' ++ rest) (List.replicate count '\x27') rest :=
    fun _ => .closing (fun _ => rfl) hrest
  induction cs with
  | nil => exact hclosing 0 (by decide)
  | cons c cs ih =>
    obtain ⟨hc, hcs⟩ := List.forall_mem_cons.mp htext
    have htail := ih hcs fun h => hquotes (List.infix_cons h)
    have hplain : (c = '\x27' → ∀ tail, cs ++ '\x27' :: '\x27' :: '\x27' :: rest ≠
        '\x27' :: '\x27' :: tail) →
        Steps longLiteralStep (c :: cs ++ '\x27' :: '\x27' :: '\x27' :: rest) (c :: cs) rest := by
      intro h
      refine .cons ?_ (by simp) htail
      rw [List.cons_append, longLiteralStep_of_ne h]
      rcases hc with rfl | hc
      · rfl
      · exact plainOrNewline?_of_isPlain hc
    by_cases hquote : c = '\x27'
    · subst hquote
      -- the text ends with this quote, with the next one, or two others do not follow
      rcases cs with _ | ⟨d, cs⟩
      · exact hclosing 1 (by decide)
      by_cases hd : d = '\x27'
      · subst hd
        rcases cs with _ | ⟨e, cs⟩
        · exact hclosing 2 (by decide)
        · refine hplain fun _ tail h => hquotes ?_
          obtain rfl : e = '\x27' := by simp_all
          exact ⟨[], cs, rfl⟩
      · exact hplain fun _ tail h => hd (by simp_all)
    · exact hplain fun h => absurd h hquote

/-! ## The choice of a form -/

theorem three_le_longestRun {quote : Char} {cs : List Char} (h : [quote, quote, quote] <:+: cs) :
    3 ≤ longestRun quote cs := by
  have hbest : ∀ (cs : List Char) (state : Nat × Nat), state.1 ≤ (cs.foldl
      (fun state d =>
        if d == quote then (max state.1 (state.2 + 1), state.2 + 1)
        else (state.1, 0)) state).1 := by
    intro cs
    induction cs with
    | nil => exact fun state => Nat.le_refl _
    | cons c cs ih =>
      intro state
      refine Nat.le_trans ?_ (ih _)
      dsimp only
      split_ifs
      · exact Nat.le_max_left _ _
      · exact Nat.le_refl _
  obtain ⟨front, back, rfl⟩ := h
  unfold longestRun
  rw [List.foldl_append, List.foldl_append]
  refine Nat.le_trans ?_ (hbest back _)
  simp only [List.foldl_cons, List.foldl_nil, beq_self_eq_true, if_true]
  omega

/-- What has no line end and needs no escape is plain. -/
theorem isPlain_of_not_needsEscape {c : Char} (h : needsEscape c = false) (hne : c ≠ '\n') :
    isPlain c = true := by
  by_cases htab : c = '\t'
  · simp [isPlain, htab]
  · exact isPlain_of_not_control (by simpa [needsEscape, htab, hne] using h)

theorem toList_basic (cs : List Char) :
    (quoteAs .basic cs).toList = '"' :: (escapeText false 0 cs ++ ['"']) := by
  simp [quoteAs, QuoteStyle.quotes, QuoteStyle.isLong, QuoteStyle.isLiteral]

theorem toList_literal (cs : List Char) :
    (quoteAs .literal cs).toList = '\x27' :: (cs ++ ['\x27']) := by
  simp [quoteAs, QuoteStyle.quotes, QuoteStyle.isLong, QuoteStyle.isLiteral]

theorem readShort?_basic (cs rest : List Char) :
    readShort? ((quoteAs .basic cs).toList ++ rest) = some (String.ofList cs, rest) := by
  rw [toList_basic, List.cons_append, List.append_assoc]
  exact (steps_basic cs rest 0).readBy_eq

theorem readShort?_literal {cs : List Char} (hescape : cs.any needsEscape = false)
    (hline : '\n' ∉ cs) (hquote : '\x27' ∉ cs) (rest : List Char) :
    readShort? ((quoteAs .literal cs).toList ++ rest) = some (String.ofList cs, rest) := by
  have hplain : ∀ c ∈ cs, c ≠ '\x27' ∧ isPlain c = true := by
    intro c hc
    have hescape : needsEscape c = false := by simpa using List.any_eq_false.mp hescape c hc
    exact ⟨ne_of_mem_of_not_mem hc hquote,
      isPlain_of_not_needsEscape hescape (ne_of_mem_of_not_mem hc hline)⟩
  rw [toList_literal, List.cons_append, List.append_assoc]
  exact (steps_literal hplain rest).readBy_eq

/-- A form on one line is not taken for one on several lines, unless a quote follows an empty
text. -/
theorem read?_eq_readShort? {quote : Char} {cs : List Char}
    (h : ∀ tail, cs ≠ quote :: quote :: tail) :
    read? (quote :: cs) = readShort? (quote :: cs) := by
  unfold read?
  split
  case h_1 heq =>
    obtain ⟨rfl, rfl⟩ := List.cons.inj heq
    exact absurd rfl (h _)
  case h_2 heq =>
    obtain ⟨rfl, rfl⟩ := List.cons.inj heq
    exact absurd rfl (h _)
  case h_3 => rfl

theorem read?_basic {rest : List Char} (hrest : rest.head? ≠ some '"') (cs : List Char) :
    read? ((quoteAs .basic cs).toList ++ rest) = some (String.ofList cs, rest) := by
  rw [← readShort?_basic cs rest, toList_basic, List.cons_append]
  refine read?_eq_readShort? fun tail h => ?_
  cases cs with
  | nil =>
    obtain ⟨-, rfl⟩ := List.cons.inj h
    exact hrest rfl
  | cons c cs =>
    rw [List.append_assoc] at h
    exact head_escapeText_ne (fun _ hlong => by cases hlong) cs _ _ h

theorem read?_literal {cs rest : List Char} (hrest : rest.head? ≠ some '\x27')
    (hescape : cs.any needsEscape = false) (hline : '\n' ∉ cs) (hquote : '\x27' ∉ cs) :
    read? ((quoteAs .literal cs).toList ++ rest) = some (String.ofList cs, rest) := by
  rw [← readShort?_literal hescape hline hquote rest, toList_literal, List.cons_append]
  refine read?_eq_readShort? fun tail h => ?_
  cases cs with
  | nil =>
    obtain ⟨-, rfl⟩ := List.cons.inj h
    exact hrest rfl
  | cons c cs =>
    obtain rfl := (List.cons.inj h).1
    exact hquote List.mem_cons_self

/-- The line end right behind the opening quotes is there when the text has one, and only then. -/
theorem afterOpening_append {cs written : List Char}
    (h : '\n' ∉ cs → newline? written = none) :
    afterOpening ((if cs.contains '\n' then ['\n'] else []) ++ written) = written := by
  by_cases hline : '\n' ∈ cs
  · simp [afterOpening, hline, newline?]
  · simp [afterOpening, hline, h hline]

theorem read?_longBasic {rest : List Char} (hrest : rest.head? ≠ some '"') (cs : List Char) :
    read? ((quoteAs .longBasic cs).toList ++ rest) = some (String.ofList cs, rest) := by
  have htext : (quoteAs .longBasic cs).toList ++ rest = '"' :: '"' :: '"' ::
      ((if cs.contains '\n' then ['\n'] else []) ++
        (escapeText true 0 cs ++ '"' :: '"' :: '"' :: rest)) := by
    by_cases hline : '\n' ∈ cs <;>
      simp [quoteAs, QuoteStyle.quotes, QuoteStyle.isLong, QuoteStyle.isLiteral, hline]
  have hopening : '\n' ∉ cs →
      newline? (escapeText true 0 cs ++ '"' :: '"' :: '"' :: rest) = none := by
    intro hline
    cases cs with
    | nil => rfl
    | cons c cs =>
      obtain ⟨d, written, hwritten, hd⟩ := head_escapeText true 0 c cs
      rw [hwritten, List.cons_append]
      rcases hd with rfl | ⟨rfl, -, rfl | hplain⟩
      · exact newline?_of_isPlain (by decide) _
      · exact absurd List.mem_cons_self hline
      · exact newline?_of_isPlain hplain _
  rw [htext, read?, afterOpening_append hopening]
  exact (steps_longBasic hrest cs 0).readBy_eq

private theorem read?_longLiteral {cs rest : List Char} (hrest : rest.head? ≠ some '\x27')
    (hescape : cs.any needsEscape = false) (hquotes : longestRun '\x27' cs < 3) :
    read? ((quoteAs .longLiteral cs).toList ++ rest) = some (String.ofList cs, rest) := by
  have htext : (quoteAs .longLiteral cs).toList ++ rest = '\x27' :: '\x27' :: '\x27' ::
      ((if cs.contains '\n' then ['\n'] else []) ++
        (cs ++ '\x27' :: '\x27' :: '\x27' :: rest)) := by
    by_cases hline : '\n' ∈ cs <;>
      simp [quoteAs, QuoteStyle.quotes, QuoteStyle.isLong, QuoteStyle.isLiteral, hline]
  have hplain : ∀ c ∈ cs, c = '\n' ∨ isPlain c = true := by
    intro c hc
    have hescape : needsEscape c = false := by simpa using List.any_eq_false.mp hescape c hc
    by_cases hline : c = '\n'
    · exact .inl hline
    · exact .inr (isPlain_of_not_needsEscape hescape hline)
  have hopening : '\n' ∉ cs →
      newline? (cs ++ '\x27' :: '\x27' :: '\x27' :: rest) = none := by
    intro hline
    cases cs with
    | nil => rfl
    | cons c cs =>
      rcases hplain c List.mem_cons_self with rfl | hplain
      · exact absurd List.mem_cons_self hline
      · exact newline?_of_isPlain hplain _
  have hrun : ¬ ['\x27', '\x27', '\x27'] <:+: cs := by
    intro h
    have := three_le_longestRun h
    omega
  rw [htext, read?, afterOpening_append hopening]
  exact (steps_longLiteral hrest hplain hrun).readBy_eq

private theorem read?_valueStyle (cs : List Char) {rest : List Char}
    (hbasic : rest.head? ≠ some '"') (hliteral : rest.head? ≠ some '\x27') :
    read? ((quoteAs (valueStyle cs) cs).toList ++ rest) = some (String.ofList cs, rest) := by
  unfold valueStyle
  simp only [Bool.and_eq_true, Bool.not_eq_true', decide_eq_true_eq, List.contains_eq_mem,
    decide_eq_false_iff_not]
  split_ifs with h₁ h₂ h₃ h₄ h₅
  · exact read?_basic hbasic cs
  · exact read?_literal hliteral h₂.1.1 h₂.1.2 h₂.2
  · exact read?_longBasic hbasic cs
  · exact read?_longLiteral hliteral h₄.1 h₄.2
  · exact read?_longBasic hbasic cs
  · exact read?_basic hbasic cs

/-- A string is read back from its text, if no quote follows. -/
theorem read?_stringText (s : String) {rest : List Char} (hbasic : rest.head? ≠ some '"')
    (hliteral : rest.head? ≠ some '\x27') :
    read? ((stringText s).toList ++ rest) = some (s, rest) := by
  have hread := read?_valueStyle s.toList hbasic hliteral
  rwa [String.ofList_toList] at hread

end PatternFinder.Toml.Quoted
