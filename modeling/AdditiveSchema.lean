import AdditiveSchema.Main
import AdditiveSchema.Plan.Effect
import AdditiveSchema.Proofs.Catalog
import AdditiveSchema.Proofs.Dependency
import AdditiveSchema.Proofs.Circle
import AdditiveSchema.Proofs.TableOrder
import AdditiveSchema.Proofs.ChangeOrder
import AdditiveSchema.Proofs.Except
import AdditiveSchema.Proofs.Statement
import AdditiveSchema.Proofs.Diff
import AdditiveSchema.Proofs.Reconcile
import AdditiveSchema.Proofs.Exactness
import AdditiveSchema.Proofs.ForeignKeys
import AdditiveSchema.Proofs.CyclicDependency
import AdditiveSchema.Proofs.Effect
import AdditiveSchema.Proofs.Table.Extension
import AdditiveSchema.Proofs.IndexKeys
import AdditiveSchema.Proofs.Declared
import AdditiveSchema.Proofs.References
import AdditiveSchema.Proofs.NewTables
import AdditiveSchema.Proofs.UsedColumns
import AdditiveSchema.Proofs.Progress
import AdditiveSchema.Proofs.Convergence
import AdditiveSchema.Proofs.Resumption
import AdditiveSchema.Proofs.ReferencedColumns
import AdditiveSchema.Proofs.DeclarationOrder
import AdditiveSchema.Proofs.Noninterference
import AdditiveSchema.Proofs.DeclaredKeys
import AdditiveSchema.Proofs.AnsweredKeys
import AdditiveSchema.Proofs.Generation
import AdditiveSchema.Proofs.Additive
import AdditiveSchema.Proofs.ReportedNames
import AdditiveSchema.Proofs.Ddl.Columns
import AdditiveSchema.Proofs.Ddl.TableText
import AdditiveSchema.Proofs.Directive.Grammar
import AdditiveSchema.Proofs.Directive.Writing
import AdditiveSchema.Proofs.Directive.Positions
import AdditiveSchema.Proofs.Directive.Nesting
import AdditiveSchema.Proofs.DeclaredIssues
import AdditiveSchema.Proofs.ModifierPolicy
import AdditiveSchema.Proofs.RejectedDirectives
import AdditiveSchema.Proofs.DeclaredColumns
import AdditiveSchema.Proofs.OmittedColumns
import AdditiveSchema.Proofs.SkippedDefinitions
import AdditiveSchema.Proofs.DeclaredItems
import AdditiveSchema.Proofs.OwnColumns
import AdditiveSchema.Proofs.DistinctNames
import AdditiveSchema.Proofs.ColumnOrder
import AdditiveSchema.Proofs.CatalogMap
import AdditiveSchema.Proofs.PrimaryKeys
import AdditiveSchema.Proofs.GeneratedNames
import AdditiveSchema.Proofs.Dependency.Requests
import AdditiveSchema.Proofs.Dependency.Members
import AdditiveSchema.Proofs.NestedDirectives
import AdditiveSchema.Proofs.Table.Folding
import AdditiveSchema.Proofs.SoundColumns
import AdditiveSchema.Proofs.KeyTexts
import AdditiveSchema.Proofs.DeferredKeys
import AdditiveSchema.Proofs.Directive.Appending
import AdditiveSchema.Proofs.IndexEntries
import AdditiveSchema.Proofs.IndexGroups
import AdditiveSchema.Proofs.ReferenceTargets
import AdditiveSchema.Proofs.TableStatements
import AdditiveSchema.Proofs.Identifiers
import AdditiveSchema.Proofs.FullTextArguments
import AdditiveSchema.Proofs.Default.Rendering
import AdditiveSchema.Proofs.Default.Matching
import AdditiveSchema.Proofs.TypeAliases
import AdditiveSchema.Proofs.TypeName.Respacing
import AdditiveSchema.Proofs.Execution
import AdditiveSchema.Proofs.Ddl.WrittenNames
import AdditiveSchema.Proofs.Ddl.Parentheses
