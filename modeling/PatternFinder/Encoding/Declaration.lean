import PatternFinder.Encoding.Body
import PatternFinder.Model.Declaration
import PatternFinder.Text.Number

/-! The JSON form of declarations and source files. -/
namespace PatternFinder

namespace Modifiers

def toJson (ms : Modifiers) : Json := Json.ofList (fun m : Modifier => .string m.label) ms

def ofJson? (j : Json) : Option Modifiers :=
  j.list fun m => m.asString?.bind Modifier.ofLabel?

end Modifiers

namespace Parameter

def toJson (p : Parameter) : Json :=
  .object [("identifier", .string p.identifier),
    ("declared_type", Json.ofOption TypeRef.toJson p.declaredType)]

def ofJson? (j : Json) : Option Parameter := do
  let identifier ← j.required "identifier" Json.asString?
  let declaredType ← j.optional "declared_type" TypeRef.ofJson?
  some ⟨identifier, declaredType⟩

end Parameter

namespace Member

def toJson : Member → Json
  | .field f => .object [("Field", .object [("modifiers", f.modifiers.toJson),
      ("declared_type", f.declaredType.toJson),
      ("variables", Json.ofList Declarator.toJson f.declarators), ("location", f.location.toJson)])]
  | .constructor c => .object [("Constructor", .object [("modifiers", c.modifiers.toJson),
      ("identifier", .string c.identifier),
      ("parameters", Json.ofList Parameter.toJson c.parameters),
      ("body", Json.ofOption Block.toJson c.body), ("location", c.location.toJson)])]
  | .method m => .object [("Method", .object [("modifiers", m.modifiers.toJson),
      ("identifier", .string m.identifier), ("identifier_location", m.identifierLocation.toJson),
      ("return_type", m.returnType.toJson),
      ("parameters", Json.ofList Parameter.toJson m.parameters),
      ("body", Json.ofOption Block.toJson m.body), ("location", m.location.toJson)])]
  | .property p => .object [("Property", .object [("modifiers", p.modifiers.toJson),
      ("identifier", .string p.identifier), ("declared_type", p.declaredType.toJson),
      ("body", Json.ofOption Block.toJson p.body), ("location", p.location.toJson)])]

def ofJson? : Json → Option Member
  | .object [("Field", j)] => do
    let modifiers ← j.required "modifiers" Modifiers.ofJson?
    let declaredType ← j.required "declared_type" TypeRef.ofJson?
    let declarators ← j.required "variables" (Json.list Declarator.ofJson?)
    let location ← j.required "location" Location.ofJson?
    some (.field ⟨modifiers, declaredType, declarators, location⟩)
  | .object [("Constructor", j)] => do
    let modifiers ← j.required "modifiers" Modifiers.ofJson?
    let identifier ← j.required "identifier" Json.asString?
    let parameters ← j.required "parameters" (Json.list Parameter.ofJson?)
    let body ← j.optional "body" Block.ofJson?
    let location ← j.required "location" Location.ofJson?
    some (.constructor ⟨modifiers, identifier, parameters, body, location⟩)
  | .object [("Method", j)] => do
    let modifiers ← j.required "modifiers" Modifiers.ofJson?
    let identifier ← j.required "identifier" Json.asString?
    let identifierLocation ← j.required "identifier_location" Location.ofJson?
    let returnType ← j.required "return_type" TypeRef.ofJson?
    let parameters ← j.required "parameters" (Json.list Parameter.ofJson?)
    let body ← j.optional "body" Block.ofJson?
    let location ← j.required "location" Location.ofJson?
    some (.method
      ⟨modifiers, identifier, identifierLocation, returnType, parameters, body, location⟩)
  | .object [("Property", j)] => do
    let modifiers ← j.required "modifiers" Modifiers.ofJson?
    let identifier ← j.required "identifier" Json.asString?
    let declaredType ← j.required "declared_type" TypeRef.ofJson?
    let body ← j.optional "body" Block.ofJson?
    let location ← j.required "location" Location.ofJson?
    some (.property ⟨modifiers, identifier, declaredType, body, location⟩)
  | _ => none

end Member

namespace TypeDeclaration

def toJson (t : TypeDeclaration) : Json :=
  .object [("kind", .string t.kind.name), ("modifiers", t.modifiers.toJson),
    ("identifier", .string t.identifier), ("identifier_location", t.identifierLocation.toJson),
    ("location", t.location.toJson), ("namespace", Json.ofOption Json.string t.namespaceName),
    ("containing_type", Json.ofOption Json.string t.containingType),
    ("base_types", Json.ofList TypeRef.toJson t.baseTypes),
    ("members", Json.ofList Member.toJson t.members)]

def ofJson? (j : Json) : Option TypeDeclaration := do
  let kind ← (← j.required "kind" Json.asString?) |> TypeKind.ofName?
  let modifiers ← j.required "modifiers" Modifiers.ofJson?
  let identifier ← j.required "identifier" Json.asString?
  let identifierLocation ← j.required "identifier_location" Location.ofJson?
  let location ← j.required "location" Location.ofJson?
  let namespaceName ← j.optional "namespace" Json.asString?
  let containingType ← j.optional "containing_type" Json.asString?
  let baseTypes ← j.required "base_types" (Json.list TypeRef.ofJson?)
  let members ← j.required "members" (Json.list Member.ofJson?)
  some ⟨kind, modifiers, identifier, identifierLocation, location, namespaceName, containingType,
    baseTypes, members⟩

end TypeDeclaration

namespace SourceTree

def toJson (t : SourceTree) : Json :=
  .object [("path", .string t.path), ("content_hash", .string (Text.hexWord t.contentHash)),
    ("error_count", .number t.errorCount), ("error_ranges", Json.ofList Range.toJson t.errorRanges),
    ("types", Json.ofList TypeDeclaration.toJson t.types)]

def ofJson? (j : Json) : Option SourceTree := do
  let path ← j.required "path" Json.asString?
  let contentHash ← (← j.required "content_hash" Json.asString?) |> Text.hexWord?
  let errorCount ← j.required "error_count" Json.asNat?
  let errorRanges ← j.required "error_ranges" (Json.list Range.ofJson?)
  let types ← j.required "types" (Json.list TypeDeclaration.ofJson?)
  some ⟨path, contentHash, errorCount, errorRanges, types⟩

end SourceTree

end PatternFinder
