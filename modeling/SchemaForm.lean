import SchemaForm.CommandLine.Answer
import SchemaForm.Main
import SchemaForm.Session.Perform
import SchemaForm.Proofs.Number.Readers
import SchemaForm.Proofs.Coercion
import SchemaForm.Proofs.Session.Execution
import SchemaForm.Proofs.Session.Invariant
import SchemaForm.Proofs.Session.Messages
import SchemaForm.Proofs.Session.Validity
import SchemaForm.Proofs.Session.Throughout
import SchemaForm.Proofs.Session.Submission
import SchemaForm.Proofs.Session.Apart
import SchemaForm.Proofs.Session.Interleaving
import SchemaForm.Proofs.Session.Quiet
import SchemaForm.Proofs.Session.Gate
import SchemaForm.Proofs.Session.Cleanup
import SchemaForm.Proofs.Session.History
import SchemaForm.Proofs.Store.Edits
import SchemaForm.Proofs.Session.Edits
import SchemaForm.Proofs.Session.Handed
import SchemaForm.Proofs.Session.Upheld
import SchemaForm.Proofs.Html.Views
import SchemaForm.Proofs.Reading
import SchemaForm.Proofs.Schema.Export
import SchemaForm.Proofs.Layout.Export
import SchemaForm.Proofs.Layout.NormalForm
import SchemaForm.Proofs.View.Export
import SchemaForm.Proofs.Definition
import SchemaForm.Proofs.Session.Notices
import SchemaForm.Proofs.Session.Touched
import SchemaForm.Proofs.Layout.Generated
import SchemaForm.Proofs.Scope.Pointer
import SchemaForm.Proofs.View.ShownMessages
import SchemaForm.Proofs.Session.Drafts
import SchemaForm.Proofs.Session.Received
import SchemaForm.Proofs.Json.Limits
import SchemaForm.Proofs.Definition.Payload
import SchemaForm.Proofs.Definition.Short
import SchemaForm.Proofs.CommandLine.Agreement
import SchemaForm.Proofs.CommandLine.Answer
import SchemaForm.Proofs.Choice.Current
import SchemaForm.Proofs.Choice.Posted
import SchemaForm.Proofs.View.Simplified
import SchemaForm.Proofs.View.Leaves
import SchemaForm.Proofs.View.Visible
import SchemaForm.Proofs.Session.Blank
import SchemaForm.Proofs.Session.Roster
import SchemaForm.Proofs.Session.Subscriptions
import SchemaForm.Proofs.Session.Reset
import SchemaForm.Proofs.View.Failures
import SchemaForm.Proofs.View.WholeNumbers
import SchemaForm.Proofs.Coercion.Walk
