import PatternFinder.Encoding.Declaration
import PatternFinder.Encoding.Report

/-! What is written as JSON is read back unchanged: written types, bodies, declarations and files,
findings and reports. -/
namespace PatternFinder

namespace Json

section Members

variable {α : Type} {key k : String} {read : Json → Option α} {write : α → Json} {j v : Json}
  {members : List (String × Json)}

@[simp] theorem asBool?_bool (b : Bool) : asBool? (.bool b) = some b := rfl

@[simp] theorem asNat?_number (n : Nat) : asNat? (.number n) = some n := rfl

@[simp] theorem asString?_string (s : String) : asString? (.string s) = some s := rfl

theorem get?_cons_self : (object ((key, v) :: members)).get? key = some v :=
  List.lookup_cons_self

theorem get?_cons_of_ne (h : key ≠ k) :
    (object ((k, v) :: members)).get? key = (object members).get? key := by
  have hkey : (key == k) = false := by simpa using h
  rw [get?, get?, List.lookup_cons, hkey]

@[simp] theorem required_cons_self : (object ((key, v) :: members)).required key read = read v := by
  rw [required, get?_cons_self, Option.bind_some]

@[simp] theorem required_cons_of_ne (h : key ≠ k) :
    (object ((k, v) :: members)).required key read = (object members).required key read := by
  rw [required, required, get?_cons_of_ne h]

@[simp] theorem optional_nil : (object []).optional key read = some none := rfl

@[simp] theorem optional_cons_of_ne (h : key ≠ k) :
    (object ((k, v) :: members)).optional key read = (object members).optional key read := by
  rw [optional, optional, get?_cons_of_ne h]

theorem optional_cons_self (h : v ≠ .null) :
    (object ((key, v) :: members)).optional key read = (read v).map some := by
  rw [optional, get?_cons_self]
  cases v with
  | null => exact absurd rfl h
  | _ => rfl

/-- An optional member is read back whether it was written as null or not. -/
theorem optional_ofOption {a : Option α} (hnull : ∀ x, write x ≠ .null)
    (hread : ∀ x ∈ a, read (write x) = some x) :
    (object ((key, ofOption write a) :: members)).optional key read = some a := by
  cases a with
  | none => rw [ofOption, optional, get?_cons_self]
  | some x => rw [ofOption, optional_cons_self (hnull x), hread x rfl, Option.map_some]

/-- A list is read back when its elements are. -/
theorem list_ofList {xs : List α} (h : ∀ x ∈ xs, read (write x) = some x) :
    (ofList write xs).list read = some xs := by
  have hitems : (xs.map write).mapM read = some xs := by
    induction xs with
    | nil => rfl
    | cons x xs ih =>
      obtain ⟨hx, hxs⟩ := List.forall_mem_cons.mp h
      simp [List.mapM_cons, hx, ih hxs]
  exact hitems

/-- A function that writes element by element writes a list. -/
theorem array_eq_ofList {writes : List α → List Json} (hnil : writes [] = [])
    (hcons : ∀ x xs, writes (x :: xs) = write x :: writes xs) (xs : List α) :
    array (writes xs) = ofList write xs := by
  have hmap : writes xs = xs.map write := by
    induction xs with
    | nil => exact hnil
    | cons x xs ih => rw [hcons, ih, List.map_cons]
  rw [hmap, ofList]

theorem height_pos (j : Json) : 0 < j.height := by
  cases j <;> simp [height]

theorem height_ofList_of_mem (write : α → Json) {x : α} {xs : List α} (h : x ∈ xs) :
    (write x).height < (ofList write xs).height := by
  rw [ofList, height]
  induction xs with
  | nil => cases h
  | cons y ys ih =>
    rw [List.map_cons, heightItems]
    rcases List.mem_cons.mp h with rfl | h
    · omega
    · have := ih h
      omega

end Members

end Json

/-- What is written is read back, and is not the null that stands for what is absent. -/
structure Lossless {α : Type} (write : α → Json) (read : Json → Option α) : Prop where
  read_write (a : α) : read (write a) = some a
  ne_null (a : α) : write a ≠ .null

namespace Lossless

variable {α : Type} {write : α → Json} {read : Json → Option α}

theorem list (h : Lossless write read) (xs : List α) :
    (Json.ofList write xs).list read = some xs :=
  Json.list_ofList fun x _ => h.read_write x

theorem optional (h : Lossless write read) (key : String) (a : Option α)
    (members : List (String × Json)) :
    (Json.object ((key, Json.ofOption write a) :: members)).optional key read = some a :=
  Json.optional_ofOption h.ne_null fun x _ => h.read_write x

end Lossless

theorem lossless_string : Lossless Json.string Json.asString? :=
  ⟨fun _ => rfl, fun _ => Json.noConfusion⟩

theorem Range.lossless : Lossless toJson ofJson? := ⟨fun _ => rfl, fun _ => Json.noConfusion⟩

theorem Location.lossless : Lossless toJson ofJson? := ⟨fun _ => rfl, fun _ => Json.noConfusion⟩

namespace TypeRef

theorem array_toJsons (ts : List TypeRef) : Json.array (toJsons ts) = Json.ofList toJson ts :=
  Json.array_eq_ofList (by rw [toJsons]) (fun _ _ => by rw [toJsons]) ts

private theorem ofJsonUpTo_toJson {levels : Nat} {t : TypeRef} (h : t.toJson.height ≤ levels) :
    ofJsonUpTo levels t.toJson = some t := by
  induction levels generalizing t with
  | zero => exact absurd t.toJson.height_pos (by omega)
  | succ levels ih =>
    rw [ofJsonUpTo]
    cases t with
    | predefined keyword => rw [toJson, ofJsonStep]
    | named name qualifier arguments =>
      simp only [toJson, array_toJsons, Json.height, Json.heightMembers] at h
      have harguments : (Json.ofList toJson arguments).list (ofJsonUpTo levels) =
          some arguments := by
        refine Json.list_ofList fun t ht => ih ?_
        have := Json.height_ofList_of_mem toJson ht
        omega
      simp [toJson, ofJsonStep, array_toJsons, lossless_string.optional, harguments]
    | array element =>
      simp only [toJson, Json.height, Json.heightMembers] at h
      have helement : ofJsonUpTo levels element.toJson = some element := ih (by omega)
      rw [toJson, ofJsonStep, helement, Option.map_some]
    | nullable inner =>
      simp only [toJson, Json.height, Json.heightMembers] at h
      have hinner : ofJsonUpTo levels inner.toJson = some inner := ih (by omega)
      rw [toJson, ofJsonStep, hinner, Option.map_some]
    | other text => rw [toJson, ofJsonStep]

theorem lossless : Lossless toJson ofJson? where
  read_write _ := ofJsonUpTo_toJson (Nat.le_refl _)
  ne_null t := by cases t <;> simp [toJson]

end TypeRef

theorem Expression.array_toJsons (es : List Expression) :
    Json.array (Expression.toJsons es) = Json.ofList Expression.toJson es :=
  Json.array_eq_ofList (by rw [Expression.toJsons]) (fun _ _ => by rw [Expression.toJsons]) es

theorem Statement.array_toJsons (ss : List Statement) :
    Json.array (Statement.toJsons ss) = Json.ofList Statement.toJson ss :=
  Json.array_eq_ofList (by rw [Statement.toJsons]) (fun _ _ => by rw [Statement.toJsons]) ss

theorem Declarator.array_toJsons (vs : List Declarator) :
    Json.array (Declarator.toJsons vs) = Json.ofList Declarator.toJson vs :=
  Json.array_eq_ofList (by rw [Declarator.toJsons]) (fun _ _ => by rw [Declarator.toJsons]) vs

theorem Expression.optionToJson_eq (e : Option Expression) :
    Expression.optionToJson e = Json.ofOption Expression.toJson e := by
  cases e <;> rw [Expression.optionToJson, Json.ofOption]

theorem Expression.toJson_ne_null (e : Expression) : e.toJson ≠ .null := by
  rcases e with ⟨_, _, _, _⟩ | ⟨_, _, _, _⟩ | _ | _ | _ | _ <;> simp [Expression.toJson]

namespace BodyDecoder

/-- Statements and expressions are read back as far as their height allows. -/
structure ReadsBack (d : BodyDecoder) (levels : Nat) : Prop where
  statement (s : Statement) : s.toJson.height ≤ levels → d.statement s.toJson = some s
  expression (e : Expression) : e.toJson.height ≤ levels → d.expression e.toJson = some e

namespace ReadsBack

variable {d : BodyDecoder} {levels : Nat}

theorem statements (h : d.ReadsBack levels) (ss : List Statement)
    (hheight : (Json.ofList Statement.toJson ss).height ≤ levels + 1) :
    (Json.ofList Statement.toJson ss).list d.statement = some ss := by
  refine Json.list_ofList fun s hs => h.statement s ?_
  have := Json.height_ofList_of_mem Statement.toJson hs
  omega

theorem expressions (h : d.ReadsBack levels) (es : List Expression)
    (hheight : (Json.ofList Expression.toJson es).height ≤ levels + 1) :
    (Json.ofList Expression.toJson es).list d.expression = some es := by
  refine Json.list_ofList fun e he => h.expression e ?_
  have := Json.height_ofList_of_mem Expression.toJson he
  omega

theorem optional (h : d.ReadsBack levels) (e : Option Expression)
    (hheight : (Json.ofOption Expression.toJson e).height ≤ levels) (key : String)
    (members : List (String × Json)) :
    (Json.object ((key, Json.ofOption Expression.toJson e) :: members)).optional key d.expression =
      some e := by
  refine Json.optional_ofOption Expression.toJson_ne_null fun x hx => h.expression x ?_
  obtain rfl := hx
  exact hheight

theorem declarator (h : d.ReadsBack levels) {v : Declarator} (hheight : v.toJson.height ≤ levels) :
    d.declarator v.toJson = some v := by
  obtain ⟨identifier, initializer⟩ := v
  simp only [Declarator.toJson, Expression.optionToJson_eq, Json.height, Json.heightMembers]
    at hheight
  simp [Declarator.toJson, Expression.optionToJson_eq, BodyDecoder.declarator,
    h.optional initializer (by omega)]

theorem declarators (h : d.ReadsBack levels) (vs : List Declarator)
    (hheight : (Json.ofList Declarator.toJson vs).height ≤ levels + 1) :
    (Json.ofList Declarator.toJson vs).list d.declarator = some vs := by
  refine Json.list_ofList fun v hv => h.declarator ?_
  have := Json.height_ofList_of_mem Declarator.toJson hv
  omega

theorem statementStep (h : d.ReadsBack levels) {s : Statement}
    (hheight : s.toJson.height ≤ levels + 1) : statementStep d s.toJson = some s := by
  rcases s with ⟨ty, declarators, loc⟩ | ⟨condition, consequence, alternative, loc⟩ |
    ⟨kind, expressions, statements, loc⟩
  · simp only [Statement.toJson, Declarator.array_toJsons, Json.height, Json.heightMembers]
      at hheight
    simp [Statement.toJson, BodyDecoder.statementStep, Declarator.array_toJsons,
      TypeRef.lossless.optional, Location.lossless.read_write,
      h.declarators declarators (by omega)]
  · simp only [Statement.toJson, Statement.array_toJsons, Expression.optionToJson_eq, Json.height,
      Json.heightMembers] at hheight
    simp [Statement.toJson, BodyDecoder.statementStep, Statement.array_toJsons,
      Expression.optionToJson_eq, Location.lossless.read_write,
      h.optional condition (by omega), h.statements consequence (by omega),
      h.statements alternative (by omega)]
  · simp only [Statement.toJson, Statement.array_toJsons, Expression.array_toJsons, Json.height,
      Json.heightMembers] at hheight
    simp [Statement.toJson, BodyDecoder.statementStep, Statement.array_toJsons,
      Expression.array_toJsons, Location.lossless.read_write,
      h.expressions expressions (by omega), h.statements statements (by omega)]

theorem expressionStep (h : d.ReadsBack levels) {e : Expression}
    (hheight : e.toJson.height ≤ levels + 1) : expressionStep d e.toJson = some e := by
  rcases e with ⟨ty, arguments, initializer, loc⟩ | ⟨target, receiver, arguments, loc⟩ | text |
    name | body | parts
  · simp only [Expression.toJson, Expression.array_toJsons, Json.height, Json.heightMembers]
      at hheight
    simp [Expression.toJson, BodyDecoder.expressionStep, Expression.array_toJsons,
      TypeRef.lossless.optional, Location.lossless.read_write,
      h.expressions arguments (by omega), h.expressions initializer (by omega)]
  · simp only [Expression.toJson, Expression.array_toJsons, Expression.optionToJson_eq, Json.height,
      Json.heightMembers] at hheight
    simp [Expression.toJson, BodyDecoder.expressionStep, Expression.array_toJsons,
      Expression.optionToJson_eq, lossless_string.optional, Location.lossless.read_write,
      h.optional receiver (by omega), h.expressions arguments (by omega)]
  · simp [Expression.toJson, BodyDecoder.expressionStep]
  · simp [Expression.toJson, BodyDecoder.expressionStep]
  · simp only [Expression.toJson, Statement.array_toJsons, Json.height, Json.heightMembers]
      at hheight
    simp [Expression.toJson, BodyDecoder.expressionStep, Statement.array_toJsons,
      h.statements body (by omega)]
  · simp only [Expression.toJson, Expression.array_toJsons, Json.height, Json.heightMembers]
      at hheight
    simp [Expression.toJson, BodyDecoder.expressionStep, Expression.array_toJsons,
      h.expressions parts (by omega)]

end ReadsBack

theorem readsBack_upTo (levels : Nat) : (upTo levels).ReadsBack levels := by
  induction levels with
  | zero =>
    refine ⟨fun s hheight => ?_, fun e hheight => ?_⟩
    · exact absurd s.toJson.height_pos (by omega)
    · exact absurd e.toJson.height_pos (by omega)
  | succ levels ih => exact ⟨fun _ => ih.statementStep, fun _ => ih.expressionStep⟩

end BodyDecoder

theorem Statement.lossless : Lossless Statement.toJson Statement.ofJson? where
  read_write s := (BodyDecoder.readsBack_upTo s.toJson.height).statement s (Nat.le_refl _)
  ne_null s := by
    rcases s with ⟨_, _, _⟩ | ⟨_, _, _, _⟩ | ⟨_, _, _, _⟩ <;> simp [Statement.toJson]

theorem Declarator.lossless : Lossless Declarator.toJson Declarator.ofJson? where
  read_write v := (BodyDecoder.readsBack_upTo v.toJson.height).declarator (Nat.le_refl _)
  ne_null v := by
    obtain ⟨_, _⟩ := v
    simp [Declarator.toJson]

theorem Block.lossless : Lossless toJson ofJson? where
  read_write b := by simp [toJson, ofJson?, Statement.lossless.list]
  ne_null _ := Json.noConfusion

theorem Modifier.ofLabel?_label (m : Modifier) : ofLabel? m.label = some m := by
  cases m <;> decide

theorem Modifiers.lossless : Lossless Modifiers.toJson Modifiers.ofJson? where
  read_write _ := Json.list_ofList fun m _ => m.ofLabel?_label
  ne_null _ := Json.noConfusion

theorem Parameter.lossless : Lossless toJson ofJson? where
  read_write p := by simp [toJson, ofJson?, TypeRef.lossless.optional]
  ne_null _ := Json.noConfusion

theorem Member.lossless : Lossless toJson ofJson? where
  read_write m := by
    cases m <;>
      simp [toJson, ofJson?, Modifiers.lossless.read_write, TypeRef.lossless.read_write,
        Location.lossless.read_write, Declarator.lossless.list, Parameter.lossless.list,
        Block.lossless.optional]
  ne_null m := by cases m <;> exact Json.noConfusion

theorem TypeKind.ofName?_name (k : TypeKind) : ofName? k.name = some k := by
  cases k <;> decide

theorem TypeDeclaration.lossless : Lossless toJson ofJson? where
  read_write t := by
    simp [toJson, ofJson?, TypeKind.ofName?_name, Modifiers.lossless.read_write,
      Location.lossless.read_write, lossless_string.optional, TypeRef.lossless.list,
      Member.lossless.list]
  ne_null _ := Json.noConfusion

theorem SourceTree.lossless : Lossless toJson ofJson? where
  read_write t := by
    simp [toJson, ofJson?, Text.hexWord?_hexWord, Range.lossless.list,
      TypeDeclaration.lossless.list]
  ne_null _ := Json.noConfusion

theorem Pattern.lossless : Lossless toJson ofJson? where
  read_write p := by cases p <;> decide
  ne_null _ := Json.noConfusion

theorem Severity.lossless : Lossless toJson ofJson? where
  read_write s := by cases s <;> decide
  ne_null _ := Json.noConfusion

/-- Evidence is left out where there is none, and then it is read as absent. -/
theorem Finding.lossless : Lossless toJson ofJson? where
  read_write f := by
    obtain ⟨ruleId, pattern, check, severity, message, location, evidence⟩ := f
    cases evidence with
    | none =>
      simp [toJson, ofJson?, Pattern.lossless.read_write, Severity.lossless.read_write,
        Location.lossless.read_write]
    | some e =>
      simp [toJson, ofJson?, Pattern.lossless.read_write, Severity.lossless.read_write,
        Location.lossless.read_write, Json.optional_cons_self]
  ne_null _ := Json.noConfusion

theorem Failure.lossless : Lossless toJson ofJson? where
  read_write f := by simp [toJson, ofJson?, Pattern.lossless.read_write]
  ne_null _ := Json.noConfusion

/-- Failures are left out where there are none, and then they are read as none. -/
theorem Report.lossless : Lossless toJson ofJson? where
  read_write r := by
    obtain ⟨findings, patterns, filesAnalyzed, filesWithSyntaxErrors, declarationsVisited,
      cancelled, durationMs, failures, fingerprint⟩ := r
    cases failures with
    | nil =>
      simp [toJson, ofJson?, Finding.lossless.list, Pattern.lossless.list, Text.hexWord?_hexWord]
    | cons f fs =>
      have hfailures : Json.ofList Failure.toJson (f :: fs) ≠ .null := Json.noConfusion
      simp [toJson, ofJson?, Finding.lossless.list, Pattern.lossless.list, Text.hexWord?_hexWord,
        Json.optional_cons_self hfailures, Failure.lossless.list]
  ne_null _ := Json.noConfusion

/-- Files, written types and declarations, findings and reports are read back from what is written
of them, however deep they are nested and whatever parts of them are absent. -/
theorem json_form_lossless :
    (∀ t : SourceTree, SourceTree.ofJson? t.toJson = some t) ∧
      (∀ t : TypeRef, TypeRef.ofJson? t.toJson = some t) ∧
      (∀ t : TypeDeclaration, TypeDeclaration.ofJson? t.toJson = some t) ∧
      (∀ f : Finding, Finding.ofJson? f.toJson = some f) ∧
      ∀ r : Report, Report.ofJson? r.toJson = some r :=
  ⟨SourceTree.lossless.read_write, TypeRef.lossless.read_write,
    TypeDeclaration.lossless.read_write, Finding.lossless.read_write, Report.lossless.read_write⟩

end PatternFinder
