import RelationApi.Main
import RelationApi.Proofs.Annotation.RoundTrip
import RelationApi.Proofs.Command.Delivery
import RelationApi.Proofs.Command.Files
import RelationApi.Proofs.Failure
import RelationApi.Proofs.Mutation.Absorption
import RelationApi.Proofs.Mutation.Coherence
import RelationApi.Proofs.Mutation.Offer
import RelationApi.Proofs.Mutation.Order
import RelationApi.Proofs.Mutation.Overwriting
import RelationApi.Proofs.Relationship.Completeness
import RelationApi.Proofs.Relationship.Discovery
import RelationApi.Proofs.Relationship.Faults
import RelationApi.Proofs.Relationship.Search
import RelationApi.Proofs.Relationship.Sites
import RelationApi.Proofs.Schema.Authorization
import RelationApi.Proofs.Schema.DefinitionOrder
import RelationApi.Proofs.Schema.Exclusion
import RelationApi.Proofs.Schema.Failures
import RelationApi.Proofs.Schema.Frame
import RelationApi.Proofs.Schema.Idempotence
import RelationApi.Proofs.Schema.InputTypes
import RelationApi.Proofs.Schema.Legibility
import RelationApi.Proofs.Schema.Output
import RelationApi.Proofs.Schema.Permanence
import RelationApi.Proofs.Schema.Places
import RelationApi.Proofs.Schema.PropertyInputs
import RelationApi.Proofs.Schema.Rebuilding
import RelationApi.Proofs.Schema.Renaming
import RelationApi.Proofs.Schema.SchemaExtensions
import RelationApi.Proofs.Schema.SecondRun
import RelationApi.Proofs.Schema.SharedNames
import RelationApi.Proofs.Schema.Sorting
import RelationApi.Proofs.Schema.Splitting
import RelationApi.Proofs.Schema.TypeNames
import RelationApi.Proofs.Sdl.Legible
import RelationApi.Proofs.Sdl.Lexeme
import RelationApi.Proofs.Sdl.LineEnds
import RelationApi.Proofs.Sdl.Number
import RelationApi.Proofs.Sdl.Places
import RelationApi.Proofs.Sdl.Reading
import RelationApi.Proofs.Sdl.Reread
import RelationApi.Proofs.Sdl.Rereading
import RelationApi.Proofs.Sdl.RoundTrip
import RelationApi.Proofs.Sdl.Spelling
import RelationApi.Proofs.Sdl.Stripped
import RelationApi.Proofs.Sdl.Taking
import RelationApi.Proofs.Sdl.Tokens
import RelationApi.Proofs.Settings.Acceptance
import RelationApi.Proofs.Settings.Sections
import RelationApi.Startup
