import RelationApi.Sdl.Field

/-!
# Kinds of annotations

An annotation is a directive with a meaning for relationships, which it has by its name. The first
directive of a kind is the one that counts.
-/

namespace RelationApi

open Sdl

/-- The meaning of a directive. -/
inductive AnnotationKind where
  | cypher
  | relation
  | mutationMeta
  | hasScope
  | hasRole
  | isAuthenticated
deriving DecidableEq

namespace AnnotationKind

/-- All kinds. -/
def all : List AnnotationKind :=
  [cypher, relation, mutationMeta, hasScope, hasRole, isAuthenticated]

/-- The name of the directive. -/
def name : AnnotationKind → String
  | cypher => "cypher"
  | relation => "relation"
  | mutationMeta => "MutationMeta"
  | hasScope => "hasScope"
  | hasRole => "hasRole"
  | isAuthenticated => "isAuthenticated"

/-- The kind with the given name. -/
def ofName? (s : String) : Option AnnotationKind := all.find? fun k => k.name = s

/-- The kind of a directive. -/
def of? (d : Directive) : Option AnnotationKind := ofName? d.name.text

/-- The first directive of the kind. -/
def first? (k : AnnotationKind) (ds : List Directive) : Option Directive :=
  ds.find? fun d => of? d = some k

end AnnotationKind

/-- Whether the directives mark a field as computed, so that nobody can set it. -/
def isComputed (ds : List Directive) : Bool := (AnnotationKind.cypher.first? ds).isSome

end RelationApi
