import RelationApi.Annotation.Kind
import RelationApi.Fault
import RelationApi.Text.Blank

/-!
# Annotations

Three kinds of directives are read into structures of their own and written back : `@relation`,
which binds a type or a field to a relationship, `@MutationMeta`, which says what a mutation is for,
and `@hasScope`, which lists the scopes that a caller needs. Reading takes any directive as it
comes; what it gives is written in one form only.
-/

namespace RelationApi

open Sdl

/-- The endpoints and the name of a relationship, as attributes. -/
structure Link where
  name : Scalar
  fromType : Scalar
  toType : Scalar
deriving DecidableEq

/-- An argument with a text value. -/
def textArgument (name : String) (value : Scalar) : Argument :=
  { name := { text := name }, value := .string value false none }

/-! ## Bindings -/

/-- `@relation(name:, from:, to:, direction:)`. -/
structure Binding where
  link : Link
  direction : Scalar := .missing
deriving DecidableEq

namespace Binding

/-- The optional argument, if it is given. -/
def optional (argument : Argument) (value : Scalar) : List Argument :=
  if value.isGiven then [argument] else []

/-- The directive as it is written; all but the name are left out unless they are given. -/
def toDirective (b : Binding) : Directive :=
  { name := { text := AnnotationKind.relation.name }
    arguments :=
      textArgument "name" b.link.name ::
        optional (textArgument "from" b.link.fromType) b.link.fromType ++
        optional (textArgument "to" b.link.toType) b.link.toType ++
        optional { name := { text := "direction" }, value := .enum b.direction none }
          b.direction }

/-- What the directive says. -/
def ofDirective (d : Directive) : Binding :=
  { link := ⟨d.attribute "name", d.attribute "from", d.attribute "to"⟩
    direction := d.attribute "direction" }

end Binding

/-! ## Purposes -/

/-- `@MutationMeta(relationship:, from:, to:)`. -/
structure MutationPurpose where
  link : Link
deriving DecidableEq

namespace MutationPurpose

/-- The directive as it is written. -/
def toDirective (m : MutationPurpose) : Directive :=
  { name := { text := AnnotationKind.mutationMeta.name }
    arguments :=
      [textArgument "relationship" m.link.name, textArgument "from" m.link.fromType,
        textArgument "to" m.link.toType] }

/-- What the directive says. -/
def ofDirective (d : Directive) : MutationPurpose :=
  ⟨⟨d.attribute "relationship", d.attribute "from", d.attribute "to"⟩⟩

end MutationPurpose

/-! ## Scopes -/

/-- The right to do something with the nodes of a type. -/
structure Scope where
  typeName : String
  verb : String
deriving DecidableEq

namespace Scope

/-- The scope as a text. -/
def display (s : Scope) : String := s.typeName ++ ": " ++ s.verb

/-- The scope that a text stands for : the type is before the first colon, the verb after it, both
without the blanks around them. -/
def parse (text : String) : Scope :=
  let (type, rest) := text.toList.span (· ≠ ':')
  ⟨String.ofList (Text.strip type), String.ofList (Text.strip rest.tail)⟩

end Scope

/-- `@hasScope(scopes:)`. -/
structure ScopeGuard where
  scopes : List Scope
deriving DecidableEq

namespace ScopeGuard

/-- The directive as it is written. -/
def toDirective (g : ScopeGuard) : Directive :=
  { name := { text := AnnotationKind.hasScope.name }
    arguments :=
      [{ name := { text := "scopes" }
         value := .list (g.scopes.map fun s => .ofText s.display) none }] }

/-- The scope that an attribute stands for, which has to be a text. -/
def scopeOf : Scalar → Except LiteralFault Scope
  | .text t => .ok (Scope.parse t)
  | .flag _ | .missing => .error .scopeNotText

/-- What the directive says : a list of scopes, or a single one. -/
def ofDirective (d : Directive) : Except LiteralFault ScopeGuard :=
  match d.argument? "scopes" with
  | some (.list items _) => ScopeGuard.mk <$> items.mapM fun v => scopeOf v.scalar
  | some (.string v _ _) => do return ⟨[← scopeOf v]⟩
  | _ => .ok ⟨[]⟩

end ScopeGuard

/-! ## All kinds -/

/-- What a directive says, if it is of one of the kinds that have a structure of their own. -/
inductive Annotation where
  | relation (binding : Binding)
  | mutationMeta (purpose : MutationPurpose)
  | hasScope (guard : ScopeGuard)
deriving DecidableEq

namespace Annotation

/-- The directive as it is written. -/
def toDirective : Annotation → Directive
  | relation b => b.toDirective
  | mutationMeta m => m.toDirective
  | hasScope g => g.toDirective

/-- What the directive says, if it is of such a kind. -/
def ofDirective (d : Directive) : Except LiteralFault (Option Annotation) :=
  match AnnotationKind.of? d with
  | some .relation => .ok (some (relation (.ofDirective d)))
  | some .mutationMeta => .ok (some (mutationMeta (.ofDirective d)))
  | some .hasScope => do return some (hasScope (← ScopeGuard.ofDirective d))
  | _ => .ok none

end Annotation

end RelationApi
