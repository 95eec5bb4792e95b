import Concordance.Schema.Basic

/-!
# Field paths

A field path is a text of segments with dots between: the names of relations, and last the name
of a field. An empty text is one empty segment.

A path is resolved segment by segment. Every segment but the last must be a relation; the next
segment is looked up on the model that the relation refers to. The last segment must be a field that
serves the purpose. A path that does not resolve is reported whole, with the model it starts from
and the fault of its first failing segment.
-/

namespace Concordance

namespace Path

/-- The characters between the dots; the first list reaches to the first dot. -/
def splitDots : List Char → List (List Char)
  | [] => [[]]
  | c :: cs =>
    if c = '.' then [] :: splitDots cs
    else match splitDots cs with
      | seg :: segs => (c :: seg) :: segs
      | [] => [[c]]

/-- The segments of a path. -/
def segments (path : String) : List String := (splitDots path.toList).map String.ofList

/-- The path of a field below `base`; at the top there is no base. -/
def below (base name : String) : String :=
  if base.isEmpty then name else base ++ "." ++ name

/-- The bytes of a text in UTF-8. -/
def bytes (s : String) : List UInt8 := s.toByteArray.data.toList

/-- Whether `path` is `field` or continues it after a dot, by their bytes. -/
def covers (field path : String) : Bool :=
  path == field ||
    ((bytes field).isPrefixOf (bytes path) && (bytes path)[(bytes field).length]? == some 46)

end Path

/-! ## Resolving -/

/-- One relation on the way along a path. -/
structure Hop where
  /-- The model that the relation was looked up on. -/
  model : String
  field : Field
  /-- The model that the relation refers to. -/
  target : String

/-- A path that has been resolved. -/
structure ResolvedPath where
  /-- The path as requested. -/
  path : String
  /-- The relations passed on the way. -/
  hops : List Hop
  /-- The model that the last segment was looked up on. -/
  model : String
  /-- The field that the path ends in. -/
  field : Field

namespace Schema

/-- Follows segments from a model: the relations passed, the model arrived at and its field. -/
def follow (s : Schema) (purpose : Purpose) (model : String) :
    List String → Except FieldFault (List Hop × String × Field)
  | [] => .error .unknown
  | [last] =>
    match s.field? model last with
    | none => .error .unknown
    | some f =>
      match f.fault? purpose with
      | some fault => .error fault
      | none => .ok ([], model, f)
  | segment :: rest =>
    match s.field? model segment with
    | none => .error .unknown
    | some f =>
      match f.related? with
      | none => .error .notARelation
      | some target =>
        (fun (hops, last) => (⟨model, f, target⟩ :: hops, last)) <$> s.follow purpose target rest

/-- Resolves a path from a model for a purpose. -/
def resolve (s : Schema) (model path : String) (purpose : Purpose) : Result ResolvedPath := do
  let _ ← s.entry model
  match s.follow purpose model (Path.segments path) with
  | .ok (hops, last, field) => return ⟨path, hops, last, field⟩
  | .error fault => throw (.field ⟨path, model, purpose, fault⟩)

/-- Resolves several paths; the first that does not resolve is reported. -/
def resolveAll (s : Schema) (model : String) (paths : List String) (purpose : Purpose) :
    Result (List ResolvedPath) :=
  paths.mapM fun path => s.resolve model path purpose

end Schema

end Concordance
