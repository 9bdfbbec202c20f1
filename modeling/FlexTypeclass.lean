import FlexTypeclass.Lib.Exec
import FlexTypeclass.Lib.Locality
import FlexTypeclass.Lib.Ledger
import FlexTypeclass.Lib.Tally
import FlexTypeclass.Lib.PastTime
import FlexTypeclass.Lib.AnyOrder
import FlexTypeclass.Lib.Layout
import FlexTypeclass.Lib.SplitTop
import FlexTypeclass.Lib.Join
import FlexTypeclass.Lib.BestMatch
import FlexTypeclass.Lib.FileStore
import FlexTypeclass.Lib.FaultyWrites
import FlexTypeclass.Lib.Scopes
import FlexTypeclass.Runtime.Program
import FlexTypeclass.Runtime.Reference
import FlexTypeclass.Runtime.Typeclass
import FlexTypeclass.Runtime.Ownership
import FlexTypeclass.Runtime.HeapSimulation
import FlexTypeclass.Runtime.ValueSemantics
import FlexTypeclass.Runtime.StrongGuarantee
import FlexTypeclass.Runtime.InplaceTypeclass
import FlexTypeclass.Runtime.Storage
import FlexTypeclass.Runtime.InplaceSimulation
import FlexTypeclass.Runtime.Interchange
import FlexTypeclass.Runtime.Lifetime
import FlexTypeclass.Runtime.AssignFailure
import FlexTypeclass.Runtime.SelfContainment
import FlexTypeclass.Runtime.Exceptions
import FlexTypeclass.Runtime.Refinement
import FlexTypeclass.Runtime.Independence
import FlexTypeclass.Runtime.ExceptionSafety
import FlexTypeclass.Runtime.Migration
import FlexTypeclass.Runtime.Accounting
import FlexTypeclass.Runtime.StaticValidate
import FlexTypeclass.Spelling.Types
import FlexTypeclass.Spelling.Grammar
import FlexTypeclass.Spelling.Balance
import FlexTypeclass.Spelling.Marks
import FlexTypeclass.Spelling.Keys
import FlexTypeclass.Codegen.Reflection
import FlexTypeclass.Codegen.Templates
import FlexTypeclass.Codegen.Tooling
import FlexTypeclass.Codegen.MoveOnly
import FlexTypeclass.Codegen.Overrides
import FlexTypeclass.Codegen.TemplateHead
import FlexTypeclass.Codegen.NameLookup
import FlexTypeclass.Codegen.Resolution
import FlexTypeclass.Codegen.GeneratedScopes
import FlexTypeclass.Codegen.SpecializationKeys
import FlexTypeclass.Codegen.TemplateBinding
import FlexTypeclass.Codegen.Hygiene
import FlexTypeclass.Codegen.ImportedType
import FlexTypeclass.Codegen.InstanceParameters
import FlexTypeclass.Codegen.Files
import FlexTypeclass.Codegen.Generation
import FlexTypeclass.Codegen.AnnotationSettings
import FlexTypeclass.Codegen.WriteFailures
import FlexTypeclass.Codegen.Declarations
import FlexTypeclass.Codegen.OutputDirectory
import FlexTypeclass.Codegen.ParameterLists
import FlexTypeclass.Dispatch.Overloads
import FlexTypeclass.Dispatch.Headers
import FlexTypeclass.Dispatch.Generated
import FlexTypeclass.Dispatch.CrossTalk
import FlexTypeclass.Dispatch.Transparency
import FlexTypeclass.Plugin.EventHandler
import FlexTypeclass.Plugin.Session
import FlexTypeclass.Plugin.Protocol
import FlexTypeclass.Plugin.Discipline
